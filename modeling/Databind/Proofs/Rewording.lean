import Databind.Proofs.Layout
import Databind.Proofs.Position
import Mathlib.Data.List.DropRight

/-!
# `Proofs.Rewording` — the text of a chain among its wordings

Compounds and chains are written in one way: in a compound first the tag or `*`, then the identifier, the classes, the
attributes and the position, and between two compounds a blank or ` > `. What is written is a wording
(`Complex.Wording.text`), so it is read as the chain.

The brackets of a wording matter to the list in which it stands, and names and values of attributes may have some that
stay open. All wordings of a chain have the brackets of its attributes in the same order, and those of a position close
each other (`Complex.Wording.alike`).

## Main definitions

* `Selector.Qualifier.text`, `Selector.Compound.text`, `Selector.Complex.text` — how they are written.
* `Selector.Complex.bracketed` — the part of a text of a chain that may have brackets that stay open.
-/

namespace Databind

namespace Text

theorem splitAt?_eq_none_iff {c : Char} {cs : List Char} : splitAt? c cs = none ↔ c ∉ cs := by
  induction cs with
  | nil => simp [splitAt?]
  | cons d rest ih =>
    by_cases hd : d = c
    · simp [splitAt?, hd]
    · simp [splitAt?, hd, ih, Ne.symm hd]

theorem mem_of_mem_trimChars {c : Char} {cs : List Char} (h : c ∈ trimChars cs) : c ∈ cs := by
  obtain ⟨front, behind, -, -, -, heq⟩ := exists_snug cs
  rw [heq]
  exact List.mem_append_left _ (List.mem_append_right _ h)

theorem trimChars_eq_self {cs : List Char} (h : Snug cs) : trimChars cs = cs := by
  have hsame := trimChars_of_snug allBlank_nil h allBlank_nil
  rwa [List.nil_append, List.append_nil] at hsame

theorem snug_trimChars (cs : List Char) : Snug (trimChars cs) := by
  obtain ⟨-, -, -, -, hsnug, -⟩ := exists_snug cs
  exact hsnug

/-- What is read as a whole number is below the bound, and digits behind perhaps a plus sign. -/
theorem readSize?_eq_some {cs : List Char} {n : Nat} (h : readSize? cs = some n) :
    n < sizeBound ∧ ∀ c ∈ cs, c = '+' ∨ c.isDigit = true := by
  unfold readSize? at h
  obtain ⟨⟨-, hall, hbound⟩, hvalue⟩ := Option.ite_none_right_eq_some.mp h
  cases hvalue
  refine ⟨hbound, ?_⟩
  intro c hc
  rw [List.all_eq_true] at hall
  split at hall
  · next hplus =>
    cases cs with
    | nil => cases hplus
    | cons d rest =>
      obtain rfl : d = '+' := Option.some.inj hplus
      exact (List.mem_cons.mp hc).imp_right (hall c)
  · exact .inr (hall c hc)

end Text

namespace Selector

variable {complex : Complex} {compound : Compound} {q : Qualifier} {word cs : List Char}

/-! ## Texts -/

/-- The condition of an attribute as it stands between brackets. -/
def conditionText (name : List Char) : Option (List Char) → List Char
  | none => name
  | some value => name ++ '=' :: '"' :: (value ++ ['"'])

/-- The text of a qualifier. -/
def Qualifier.text : Qualifier → List Char
  | id name => '#' :: name.toList
  | className name => '.' :: name.toList
  | attr name value => '[' :: (conditionText name.toList (value.map String.toList) ++ [']'])
  | position n => positionText n

/-- What a compound begins with: a tag, `*` or nothing. -/
def Compound.opening (c : Compound) : List Char :=
  match c.tag with
  | some tag => tag.toList
  | none => if c.universal then ['*'] else []

/-- The qualifiers of a compound, in the order in which they are written. -/
def Compound.qualifiers (c : Compound) : List Qualifier :=
  c.id.toList.map .id ++ c.classes.map .className ++ c.attributes.map (fun a => .attr a.1 a.2) ++
    c.position.toList.map .position

/-- The text of a compound. -/
def Compound.text (c : Compound) : List Char := c.opening ++ c.qualifiers.flatMap Qualifier.text

/-- What is written between two compounds. -/
def Combinator.text : Combinator → List Char
  | descendant => [' ']
  | child => [' ', '>', ' ']

/-- The text of a chain. -/
def Complex.text : Complex → List Char
  | .compound c => c.text
  | .join left combinator right => left.text ++ combinator.text ++ right.text

/-! ## What is written is a wording -/

/-- Whether a character is taken off the ends of a value. -/
def isQuote (c : Char) : Bool := c = '"' || c = '\''

theorem stripQuotes_eq (cs : List Char) : stripQuotes cs = (cs.dropWhile isQuote).rdropWhile isQuote := rfl

/-- What is taken off a value are quotes. -/
theorem exists_stripQuotes (cs : List Char) :
    ∃ front behind, (∀ c ∈ front, isQuote c = true) ∧ (∀ c ∈ behind, isQuote c = true) ∧
      cs = front ++ stripQuotes cs ++ behind := by
  refine ⟨cs.takeWhile isQuote, (cs.dropWhile isQuote).rtakeWhile isQuote, List.all_eq_true.mp List.all_takeWhile,
    fun c => List.mem_rtakeWhile_imp, ?_⟩
  rw [stripQuotes_eq, List.append_assoc, List.rdropWhile_append_rtakeWhile]
  exact List.takeWhile_append_dropWhile.symm

/-- **A value in quotes is what was in quotes.** -/
theorem stripQuotes_quoted (cs : List Char) : stripQuotes ('"' :: (stripQuotes cs ++ ['"'])) = stripQuotes cs := by
  have hquote : isQuote '"' = true := by decide
  have hwhole : (stripQuotes cs).rdropWhile isQuote = stripQuotes cs := List.rdropWhile_idempotent _ _
  rw [stripQuotes_eq ('"' :: _), List.dropWhile_cons_of_pos hquote]
  cases hvalue : stripQuotes cs with
  | nil => rfl
  | cons c rest =>
    -- the value is the front of a text from which the quotes in front have been dropped
    have hc : isQuote c = false := by
      obtain ⟨behind, hfront⟩ := List.rdropWhile_prefix isQuote (cs.dropWhile isQuote)
      rw [← stripQuotes_eq, hvalue] at hfront
      have hnot := List.head?_dropWhile_not isQuote cs
      rw [← hfront] at hnot
      exact hnot
    rw [hvalue] at hwhole
    rw [List.cons_append, List.dropWhile_cons_of_neg (by simp [hc]), ← List.cons_append,
      List.rdropWhile_concat_pos _ _ _ hquote, hwhole]

/-- **The text of a condition is read as the condition**, and has no closing bracket that the condition has not. -/
theorem readCondition_conditionText {body name : List Char} {value : Option (List Char)}
    (h : readCondition body = (name, value)) :
    readCondition (conditionText name value) = (name, value) ∧ (']' ∉ body → ']' ∉ conditionText name value) := by
  unfold readCondition at h
  cases hsplit : Text.splitAt? '=' body with
  | none =>
    rw [hsplit] at h
    obtain ⟨rfl, rfl⟩ := Prod.mk.inj h
    have hname : Text.splitAt? '=' (Text.trimChars body) = none :=
      Text.splitAt?_eq_none_iff.mpr fun hmem => Text.splitAt?_eq_none_iff.mp hsplit (Text.mem_of_mem_trimChars hmem)
    refine ⟨?_, fun hbody hmem => hbody (Text.mem_of_mem_trimChars hmem)⟩
    simp only [conditionText, readCondition, hname, Text.trimChars_eq_self (Text.snug_trimChars body)]
  | some parts =>
    obtain ⟨before, behind⟩ := parts
    rw [hsplit] at h
    obtain ⟨rfl, rfl⟩ := Prod.mk.inj h
    obtain ⟨rfl, hbefore⟩ := Text.splitAt?_eq_some hsplit
    have hname : '=' ∉ Text.trimChars before := fun hmem => hbefore (Text.mem_of_mem_trimChars hmem)
    have hquoted : Text.Snug ('"' :: (stripQuotes (Text.trimChars behind) ++ ['"'])) := by
      have hone : Text.Snug ['"'] := Text.snug_singleton (by decide)
      exact hone.append (by simp) _ hone (by simp)
    constructor
    · simp only [conditionText, readCondition, Text.splitAt?_of_not_mem hname,
        Text.trimChars_eq_self (Text.snug_trimChars before), Text.trimChars_eq_self hquoted, stripQuotes_quoted]
    · intro hbody hmem
      obtain ⟨front, rear, -, -, hvalue⟩ := exists_stripQuotes (Text.trimChars behind)
      have hmem' : ']' ∈ Text.trimChars before ∨ ']' ∈ stripQuotes (Text.trimChars behind) := by
        simpa [conditionText] using hmem
      obtain hmem' | hmem' := hmem'
      · exact hbody (List.mem_append_left _ (Text.mem_of_mem_trimChars hmem'))
      · refine hbody (List.mem_append_right _ (List.mem_cons_of_mem _ (Text.mem_of_mem_trimChars ?_)))
        rw [hvalue]
        exact List.mem_append_left _ (List.mem_append_right _ hmem')

/-- A position that is read is from one and below the bound. -/
theorem bounds_of_readPosition? {n : Nat} (h : readPosition? cs = some n) : 0 < n ∧ n < Text.sizeBound := by
  obtain ⟨hsize, hpos⟩ := Option.filter_eq_some_iff.mp h
  exact ⟨by simpa using hpos, (Text.readSize?_eq_some hsize).1⟩

/-- A position is written as it may be, if it is from one and below the bound. -/
theorem wording_position {n : Nat} (h : 0 < n ∧ n < Text.sizeBound) : (Qualifier.position n).Wording (positionText n) := by
  have hdigits : ')' ∉ Number.digits n := fun hmem => absurd (Text.isDigit_of_mem_digits hmem) (by decide)
  exact .position hdigits (by rw [readPosition?_digits, if_pos h])

theorem map_toList_ofList (value : Option (List Char)) : (value.map String.ofList).map String.toList = value := by
  cases value with
  | none => rfl
  | some cs => rw [Option.map_some, Option.map_some, String.toList_ofList]

/-- **The text of a qualifier is a wording of it**, if it has any. -/
theorem Qualifier.Wording.text (h : q.Wording word) : q.Wording q.text := by
  cases h with
  | id hname => simpa only [Qualifier.text, String.toList_ofList] using Qualifier.Wording.id hname
  | className hname => simpa only [Qualifier.text, String.toList_ofList] using Qualifier.Wording.className hname
  | @attr body name value hbody hread hname =>
    obtain ⟨hcondition, hclosed⟩ := readCondition_conditionText hread
    simpa only [Qualifier.text, String.toList_ofList, map_toList_ofList] using
      Qualifier.Wording.attr (hclosed hbody) hcondition hname
  | position hbody hread => exact wording_position (bounds_of_readPosition? hread)

/-- What a compound begins with makes a compound by itself, without qualifiers. -/
def Compound.opened (c : Compound) : Compound := { universal := c.universal, tag := c.tag }

theorem Compound.mem_qualifiers_add {c : Compound} {q' : Qualifier} (h : q' ∈ (c.add q).qualifiers) :
    q' = q ∨ q' ∈ c.qualifiers := by
  cases q <;>
    simp only [qualifiers, add, Option.toList_some, List.map_append, List.map_cons, List.map_nil, List.mem_append,
      List.mem_singleton] at h ⊢ <;>
    tauto

theorem Compound.qualifiers_add_ne_nil (c : Compound) (q : Qualifier) : (c.add q).qualifiers ≠ [] := by
  cases q <;> simp [qualifiers, add]

/-- **A compound is what it begins with and its qualifiers.** -/
theorem Compound.foldl_qualifiers (c : Compound) : c.qualifiers.foldl Compound.add c.opened = c := by
  have hclasses : ∀ (names : List String) (c : Compound),
      (names.map Qualifier.className).foldl Compound.add c = { c with classes := c.classes ++ names } := by
    intro names
    induction names with
    | nil => simp
    | cons name names ih => intro c; simp [ih, add]
  have hattributes : ∀ (attributes : List (String × Option String)) (c : Compound),
      (attributes.map fun a => Qualifier.attr a.1 a.2).foldl Compound.add c =
        { c with attributes := c.attributes ++ attributes } := by
    intro attributes
    induction attributes with
    | nil => simp
    | cons a attributes ih => intro c; simp [ih, add]
  obtain ⟨universal, tag, id, classes, attributes, position⟩ := c
  simp only [qualifiers, opened, List.foldl_append, hclasses, hattributes]
  cases id <;> cases position <;> simp [add]

/-- Every qualifier of a compound that has a wording has one. -/
theorem Compound.Wording.qualifiers (h : compound.Wording word) : ∀ q ∈ compound.qualifiers, q.Wording q.text := by
  induction h with
  | universal => simp [Compound.qualifiers]
  | tag => simp [Compound.qualifiers]
  | @qualifier q word hq =>
    intro q' hq'
    obtain rfl | hnone := Compound.mem_qualifiers_add hq'
    · exact hq.text
    · simp [Compound.qualifiers] at hnone
  | @add compound q front word hfront hq ih =>
    intro q' hq'
    obtain rfl | hmem := Compound.mem_qualifiers_add hq'
    · exact hq.text
    · exact ih q' hmem

/-- A compound that has a wording begins with a tag or `*`, or it has qualifiers. -/
theorem Compound.Wording.opening (h : compound.Wording word) :
    compound.opened.Wording compound.opening ∨
      compound.opened = {} ∧ compound.opening = [] ∧ compound.qualifiers ≠ [] := by
  -- a qualifier changes nothing of what stands in front of it
  have hadd : ∀ (c : Compound) (q : Qualifier), (c.add q).opened = c.opened ∧ (c.add q).opening = c.opening := by
    intro c q
    cases q <;> exact ⟨rfl, rfl⟩
  induction h with
  | universal => exact .inl .universal
  | tag hname =>
    left
    simpa only [Compound.opened, Compound.opening, String.toList_ofList] using Compound.Wording.tag hname
  | @qualifier q word hq =>
    obtain ⟨hopened, hopening⟩ := hadd {} q
    rw [hopened, hopening]
    exact .inr ⟨rfl, rfl, Compound.qualifiers_add_ne_nil _ q⟩
  | @add compound q front word hfront hq ih =>
    obtain ⟨hopened, hopening⟩ := hadd compound q
    rw [hopened, hopening]
    exact ih.imp_right fun h => ⟨h.1, h.2.1, Compound.qualifiers_add_ne_nil _ q⟩

/-- A wording of a compound goes on with the texts of qualifiers. -/
theorem Compound.Wording.foldl (h : compound.Wording word) {qs : List Qualifier} (hqs : ∀ q ∈ qs, q.Wording q.text) :
    (qs.foldl Compound.add compound).Wording (word ++ qs.flatMap Qualifier.text) := by
  induction qs generalizing compound word with
  | nil => rwa [List.flatMap_nil, List.append_nil]
  | cons q qs ih =>
    obtain ⟨hq, hrest⟩ := List.forall_mem_cons.mp hqs
    rw [List.flatMap_cons, ← List.append_assoc]
    exact ih (h.add hq) hrest

/-- **The text of a compound is a wording of it**, if it has any. -/
theorem Compound.Wording.text (h : compound.Wording word) : compound.Wording compound.text := by
  have hqs := h.qualifiers
  have hall := compound.foldl_qualifiers
  unfold Compound.text
  obtain hopening | ⟨hopened, hopening, hne⟩ := h.opening
  · have hword := hopening.foldl hqs
    rwa [hall] at hword
  · obtain ⟨q, qs, hqualifiers⟩ := List.exists_cons_of_ne_nil hne
    rw [hqualifiers] at hqs hall
    obtain ⟨hq, hrest⟩ := List.forall_mem_cons.mp hqs
    have hword := (Compound.Wording.qualifier hq).foldl hrest
    rw [hopened, List.foldl_cons] at hall
    rw [hall, ← List.flatMap_cons, ← hqualifiers] at hword
    rwa [hopening, List.nil_append]

theorem Combinator.gap_text (combinator : Combinator) : combinator.Gap combinator.text := by
  have hblank : Text.AllBlank [' '] := by decide
  cases combinator with
  | descendant => exact .descendant hblank (by simp [Combinator.text])
  | child => exact .child hblank hblank

/-- **The text of a chain is a wording of it**, if it has any. -/
theorem Complex.Wording.text (h : complex.Wording word) : complex.Wording complex.text := by
  induction h with
  | compound hc => exact .compound hc.text
  | join hleft hgap hright ih => exact .join ih (Combinator.gap_text _) hright.text

/-! ## Wordings are alike -/

/-- The text of a qualifier if brackets in it may stay open. -/
def Qualifier.bracketed : Qualifier → List Char
  | .attr name value => (Qualifier.attr name value).text
  | _ => []

/-- The texts of the attributes of a compound. -/
def Compound.bracketed (c : Compound) : List Char := c.attributes.flatMap fun a => (Qualifier.attr a.1 a.2).text

/-- The texts of the attributes of a chain. -/
def Complex.bracketed : Complex → List Char
  | .compound c => c.bracketed
  | .join left _ right => left.bracketed ++ right.bracketed

theorem IsName.plain {name : List Char} (h : IsName name) : Plain name := plain_of_all (by decide +kernel) h.2

theorem plain_of_quotes (h : ∀ c ∈ cs, isQuote c = true) : Plain cs := plain_of_all (by decide) h

/-- Trimming takes no brackets. -/
theorem alike_trimChars (cs : List Char) : Alike cs (Text.trimChars cs) := by
  obtain ⟨front, behind, hfront, hbehind, -, heq⟩ := Text.exists_snug cs
  have h := Alike.around (plain_of_blank hfront) (Text.trimChars cs) (plain_of_blank hbehind)
  rwa [← heq] at h

theorem alike_stripQuotes (cs : List Char) : Alike cs (stripQuotes cs) := by
  obtain ⟨front, behind, hfront, hbehind, heq⟩ := exists_stripQuotes cs
  have h := Alike.around (plain_of_quotes hfront) (stripQuotes cs) (plain_of_quotes hbehind)
  rwa [← heq] at h

/-- **A condition and its text are alike.** -/
theorem alike_conditionText {body name : List Char} {value : Option (List Char)} (h : readCondition body = (name, value)) :
    Alike body (conditionText name value) := by
  unfold readCondition at h
  cases hsplit : Text.splitAt? '=' body with
  | none =>
    rw [hsplit] at h
    cases h
    exact alike_trimChars body
  | some parts =>
    obtain ⟨before, behind⟩ := parts
    rw [hsplit] at h
    cases h
    obtain ⟨rfl, -⟩ := Text.splitAt?_eq_some hsplit
    have hquotes : Plain ['"'] := plain_of_quotes (by simp [isQuote])
    have hvalue : Alike behind ('"' :: (stripQuotes (Text.trimChars behind) ++ ['"'])) :=
      ((alike_trimChars behind).trans (alike_stripQuotes _)).trans (Alike.around hquotes _ hquotes).symm
    exact (alike_trimChars before).append ((Alike.refl ['=']).append hvalue)

/-- A position opens and closes its own brackets. -/
theorem alike_position {body : List Char} {n : Nat} (h : readPosition? body = some n) :
    Alike (':' :: ("nth-of-type".toList ++ '(' :: (body ++ [')']))) [] := by
  have hname : Plain (':' :: "nth-of-type".toList) := by decide
  have hbody : Plain body := by
    obtain ⟨front, behind, hfront, hbehind, -, heq⟩ := Text.exists_snug body
    obtain ⟨hsize, -⟩ := Option.filter_eq_some_iff.mp h
    have hdigits : Plain (Text.trimChars body) :=
      @plain_of_all _ (fun c => c = '+' || c.isDigit) (by decide) fun c hc => by
        simpa using (Text.readSize?_eq_some hsize).2 c hc
    rw [heq]
    exact ((plain_of_blank hfront).append hdigits).append (plain_of_blank hbehind)
  exact (Alike.of_plain hname).append (Alike.parenthesized hbody)

/-- **A wording of a qualifier has the brackets of its text** if it is an attribute, and else none that stay open. -/
theorem Qualifier.Wording.alike (h : q.Wording word) : Alike word q.bracketed := by
  cases h with
  | id hname => exact Alike.of_plain (Plain.cons (by decide) hname.plain)
  | className hname => exact Alike.of_plain (Plain.cons (by decide) hname.plain)
  | @attr body name value hbody hread hname =>
    rw [Qualifier.bracketed, Qualifier.text, String.toList_ofList, map_toList_ofList]
    exact (Alike.refl ['[']).append ((alike_conditionText hread).append (Alike.refl [']']))
  | position hbody hread => exact alike_position hread

theorem Compound.bracketed_add (c : Compound) (q : Qualifier) : (c.add q).bracketed = c.bracketed ++ q.bracketed := by
  cases q <;> simp [add, bracketed, Qualifier.bracketed]

theorem Compound.Wording.alike (h : compound.Wording word) : Alike word compound.bracketed := by
  induction h with
  | universal => exact Alike.of_plain (by decide)
  | tag hname => exact Alike.of_plain hname.plain
  | qualifier hq =>
    rw [Compound.bracketed_add]
    exact hq.alike
  | add hfront hq ih =>
    rw [Compound.bracketed_add]
    exact ih.append hq.alike

theorem Combinator.Gap.plain {combinator : Combinator} (h : combinator.Gap word) : Plain word := by
  cases h with
  | descendant hblanks => exact plain_of_blank hblanks
  | child hfront hbehind => exact (plain_of_blank hfront).append (Plain.cons (by decide) (plain_of_blank hbehind))

/-- **A wording of a chain has the brackets of the chain's attributes**, and no others that stay open. -/
theorem Complex.Wording.alike (h : complex.Wording word) : Alike word complex.bracketed := by
  induction h with
  | compound hc => exact hc.alike
  | join hleft hgap hright ih =>
    have hall := (ih.append (Alike.of_plain hgap.plain)).append hright.alike
    rwa [List.append_nil] at hall

/-- Two pieces of one chain are alike. -/
theorem Complex.Piece.alike {piece piece' : List Char} (h : complex.Piece piece) (h' : complex.Piece piece') :
    Alike piece piece' := by
  have hchain : ∀ {piece}, complex.Piece piece → Alike piece complex.bracketed := by
    rintro _ ⟨hfront, hword, hbehind⟩
    exact (Alike.around (plain_of_blank hfront) _ (plain_of_blank hbehind)).trans hword.alike
  exact (hchain h).trans (hchain h').symm

end Selector

end Databind
