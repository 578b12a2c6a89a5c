import Databind.Proofs.Chaining

/-!
# `Proofs.Wording` — compounds and their wordings

The grammar of compounds, apart from any reader: a compound begins with `*`, a tag or a qualifier, and goes on with
qualifiers. One compound has many wordings. Blanks may stand around what is in brackets, a value may have quotes or none,
and an identifier that a later one replaces leaves no trace.

The reader takes exactly these wordings. What it takes off the head of a text is one (`exists_wording`), and one that
stands at the head of a text is taken whole (`Compound.Wording.reads`), unless an identifier goes on behind it.

## Main definitions

* `Selector.Qualifier.Wording` — the grammar of qualifiers.
* `Selector.Compound.Wording` — the grammar of compounds.
-/

namespace Databind.Selector

/-- A name that may stand behind `#` and `.`, or for a tag. -/
def IsName (name : List Char) : Prop := name ≠ [] ∧ ∀ c ∈ name, isIdentChar c = true

/-- **The grammar of qualifiers.** A bracket is closed by the first closing bracket of its kind. -/
inductive Qualifier.Wording : Qualifier → List Char → Prop
  | id {name : List Char} (hname : IsName name) : Wording (.id (String.ofList name)) ('#' :: name)
  | className {name : List Char} (hname : IsName name) : Wording (.className (String.ofList name)) ('.' :: name)
  | attr {body name : List Char} {value : Option (List Char)} (hbody : ']' ∉ body)
    (hread : readCondition body = (name, value)) (hname : name ≠ []) :
    Wording (.attr (String.ofList name) (value.map String.ofList)) ('[' :: (body ++ [']']))
  | position {body : List Char} {n : Nat} (hbody : ')' ∉ body) (hread : readPosition? body = some n) :
    Wording (.position n) (':' :: ("nth-of-type".toList ++ '(' :: (body ++ [')'])))

/-- **The grammar of compounds.** -/
inductive Compound.Wording : Compound → List Char → Prop
  | universal : Wording { universal := true } ['*']
  | tag {name : List Char} (hname : IsName name) : Wording { tag := some (String.ofList name) } name
  | qualifier {q : Qualifier} {word : List Char} (hq : q.Wording word) : Wording (Compound.add {} q) word
  | add {compound : Compound} {q : Qualifier} {front word : List Char} (hfront : Wording compound front)
    (hq : q.Wording word) : Wording (compound.add q) (front ++ word)

variable {compound result : Compound} {q : Qualifier} {c : Char} {cs rest behind tail word : List Char}

/-! ## Wordings are read -/

/-- A character that begins a qualifier is in no identifier. -/
theorem isIdentChar_of_isQualifierStart (h : isQualifierStart c = true) : isIdentChar c = false := by
  have hnone : ['#', '.', '[', ':'].all (fun c => !isIdentChar c) = true := by decide +kernel
  have hmem : c ∈ ['#', '.', '[', ':'] := by simpa [isQualifierStart, or_assoc] using h
  simpa only [Bool.not_eq_true'] using List.all_eq_true.mp hnone c hmem

theorem readIdent_name {name : List Char} (hname : IsName name) (htail : Breaks tail) :
    readIdent (name ++ tail) = (name, tail) := by
  have hnone : readIdent tail = ([], tail) := readIdent_append htail []
  obtain ⟨htake, hdrop⟩ := Prod.mk.inj hnone
  rw [readIdent, List.takeWhile_append_of_pos hname.2, htake, List.append_nil, List.dropWhile_append_of_pos hname.2,
    hdrop]

theorem readName_name {name : List Char} (hname : IsName name) (htail : Breaks tail) (fault : Fault) :
    readName fault (name ++ tail) = .ok (String.ofList name, tail) := by
  unfold readName
  rw [readIdent_name hname htail]
  split
  · next h => exact absurd (Prod.mk.inj h).1 hname.1
  · next h => cases h; rfl

/-- **A wording of a qualifier is read as that qualifier**, whatever comes behind it that is no part of an identifier. -/
theorem Qualifier.Wording.reads (h : q.Wording word) :
    ∃ c body, word = c :: body ∧ isQualifierStart c = true ∧
      ∀ tail, Breaks tail → readQualifier c (body ++ tail) = .ok (q, tail) := by
  cases h with
  | id hname =>
    refine ⟨_, _, rfl, by decide, ?_⟩
    intro tail htail
    rw [readQualifier, if_pos rfl, readName_name hname htail]
    rfl
  | className hname =>
    refine ⟨_, _, rfl, by decide, ?_⟩
    intro tail htail
    rw [readQualifier, if_neg (by decide), if_pos rfl, readName_name hname htail]
    rfl
  | @attr body name value hbody hread hname =>
    refine ⟨_, _, rfl, by decide, ?_⟩
    intro tail _
    have hsplit : Text.splitAt? ']' (body ++ [']'] ++ tail) = some (body, tail) := by
      rw [List.append_assoc, List.singleton_append]
      exact Text.splitAt?_of_not_mem hbody tail
    rw [readQualifier, if_neg (by decide), if_neg (by decide), if_pos rfl, readAttribute]
    simp only [hsplit, hread]
  | @position body n hbody hread =>
    refine ⟨_, _, rfl, by decide, ?_⟩
    intro tail _
    have hpseudo : IsName "nth-of-type".toList :=
      ⟨by decide, List.all_eq_true.mp (by decide +kernel)⟩
    have hparen : Breaks ('(' :: (body ++ ')' :: tail)) := by
      intro c hc
      cases hc
      decide +kernel
    have hident := readIdent_name hpseudo hparen
    have hsplit := Text.splitAt?_of_not_mem hbody tail
    rw [readQualifier, if_neg (by decide), if_neg (by decide), if_neg (by decide), readPseudoClass]
    simp only [List.append_assoc, List.cons_append, List.nil_append, hident, ne_eq, not_true_eq_false, if_false, hsplit,
      hread]

/-- Nothing of a qualifier goes into an identifier in front of it. -/
theorem Qualifier.Wording.breaks (h : q.Wording word) (tail : List Char) : Breaks (word ++ tail) := by
  obtain ⟨c, body, rfl, hstart, -⟩ := h.reads
  intro d hd
  cases hd
  exact isIdentChar_of_isQualifierStart hstart

/-- A compound that begins with a qualifier is nothing but qualifiers. -/
theorem readCompound_of_start (h : isQualifierStart c = true) (rest : List Char) :
    readCompound c rest = readQualifiers {} (c :: rest) := by
  have hstar : c ≠ '*' := by
    rintro rfl
    revert h
    decide
  rw [readCompound, if_neg hstar, if_neg (by simp [isIdentChar_of_isQualifierStart h]), if_pos h, readQualifiers,
    if_pos h]
  cases readQualifier c rest <;> rfl

theorem Qualifier.Wording.reads_behind (h : q.Wording word) (compound : Compound) (htail : Breaks tail) :
    readQualifiers compound (word ++ tail) = readQualifiers (compound.add q) tail := by
  obtain ⟨c, body, rfl, hstart, hread⟩ := h.reads
  rw [List.cons_append, readQualifiers, if_pos hstart]
  split
  · next hfault => rw [hread tail htail] at hfault; cases hfault
  · next hok => rw [hread tail htail] at hok; cases hok; rfl

/-- **A wording of a compound is read as that compound**, and qualifiers behind it are added. -/
theorem Compound.Wording.reads (h : compound.Wording word) :
    ∃ c body, word = c :: body ∧
      ∀ tail, Breaks tail → readCompound c (body ++ tail) = readQualifiers compound tail := by
  -- a compound that grows at its end is read on from where it was read to
  induction h with
  | universal => exact ⟨'*', [], rfl, fun tail _ => if_pos rfl⟩
  | @tag name hname =>
    cases name with
    | nil => exact absurd rfl hname.1
    | cons c body =>
      refine ⟨c, body, rfl, ?_⟩
      intro tail htail
      have hc : isIdentChar c = true := hname.2 c List.mem_cons_self
      have hstar : c ≠ '*' := by
        rintro rfl
        revert hc
        decide +kernel
      have hident := readIdent_name hname htail
      rw [List.cons_append, readIdent, List.takeWhile_cons_of_pos hc, List.dropWhile_cons_of_pos hc] at hident
      obtain ⟨htake, hdrop⟩ := Prod.mk.inj hident
      rw [readCompound, if_neg hstar, if_pos hc, htake, hdrop]
  | @qualifier q word hq =>
    obtain ⟨c, body, rfl, hstart, -⟩ := hq.reads
    refine ⟨c, body, rfl, ?_⟩
    intro tail htail
    rw [readCompound_of_start hstart]
    exact hq.reads_behind {} htail
  | @add compound q front word hfront hq ih =>
    obtain ⟨c, body, rfl, hread⟩ := ih
    refine ⟨c, body ++ word, rfl, ?_⟩
    intro tail htail
    rw [List.append_assoc, hread _ (hq.breaks tail)]
    exact hq.reads_behind compound htail

/-! ## What is read is a wording -/

theorem exists_name {fault : Fault} {name : String} (h : readName fault rest = .ok (name, behind)) :
    ∃ word, IsName word ∧ name = String.ofList word ∧ rest = word ++ behind := by
  unfold readName readIdent at h
  split at h
  · cases h
  · next word behind' hne hread =>
    cases h
    obtain ⟨hword, hbehind⟩ := Prod.mk.inj hread
    refine ⟨word, ⟨hne, fun c hc => ?_⟩, rfl, ?_⟩
    · exact List.all_eq_true.mp List.all_takeWhile c (hword ▸ hc)
    · rw [← hword, ← hbehind]
      exact List.takeWhile_append_dropWhile.symm

theorem exists_wording_attribute (h : readAttribute rest = .ok (q, behind)) :
    ∃ body, rest = body ++ behind ∧ q.Wording ('[' :: body) := by
  unfold readAttribute at h
  split at h
  · cases h
  · next body behind' hsplit =>
    obtain ⟨rfl, hbody⟩ := Text.splitAt?_eq_some hsplit
    split at h
    · cases h
    · next name value hname hread =>
      cases h
      exact ⟨body ++ [']'], by simp, .attr hbody hread hname⟩

theorem exists_wording_position (h : readPseudoClass rest = .ok (q, behind)) :
    ∃ body, rest = body ++ behind ∧ q.Wording (':' :: body) := by
  unfold readPseudoClass at h
  split at h
  · next name inner hident =>
    split at h
    · cases h
    · next hname =>
      rw [Classical.not_not] at hname
      subst hname
      split at h
      · cases h
      · next body behind' hsplit =>
        obtain ⟨rfl, hbody⟩ := Text.splitAt?_eq_some hsplit
        split at h
        · cases h
        · next n hn =>
          cases h
          obtain ⟨htake, hdrop⟩ := Prod.mk.inj hident
          refine ⟨"nth-of-type".toList ++ '(' :: (body ++ [')']), ?_, .position hbody hn⟩
          have hrest : rest.takeWhile isIdentChar ++ rest.dropWhile isIdentChar = rest := List.takeWhile_append_dropWhile
          rw [htake, hdrop] at hrest
          rw [← hrest]
          simp
  · cases h

/-- **What is read as a qualifier is a wording of it.** -/
theorem exists_wording_qualifier (hstart : isQualifierStart c = true) (h : readQualifier c rest = .ok (q, behind)) :
    ∃ body, rest = body ++ behind ∧ q.Wording (c :: body) := by
  -- What begins with `#` or `.` is a name, and only what is made of the name differs.
  have hnamed : ∀ {fault : Fault} {make : String → Qualifier},
      (readName fault rest).map (fun read => (make read.1, read.2)) = .ok (q, behind) →
      (∀ name, IsName name → (make (String.ofList name)).Wording (c :: name)) →
      ∃ body, rest = body ++ behind ∧ q.Wording (c :: body) := by
    intro fault make h hwording
    cases hread : readName fault rest with
    | error e => rw [hread] at h; cases h
    | ok result =>
      rw [hread] at h
      cases h
      obtain ⟨name, hname, heq, hrest⟩ := exists_name hread
      rw [heq]
      exact ⟨name, hrest, hwording name hname⟩
  unfold readQualifier at h
  by_cases hid : c = '#'
  · rw [if_pos hid] at h
    subst hid
    exact hnamed h fun _ => .id
  rw [if_neg hid] at h
  by_cases hclass : c = '.'
  · rw [if_pos hclass] at h
    subst hclass
    exact hnamed h fun _ => .className
  rw [if_neg hclass] at h
  by_cases hattr : c = '['
  · rw [if_pos hattr] at h
    subst hattr
    exact exists_wording_attribute h
  · rw [if_neg hattr] at h
    obtain rfl : c = ':' := by simpa [isQualifierStart, hid, hclass, hattr] using hstart
    exact exists_wording_position h

/-- The qualifiers behind a wording of a compound are part of a longer one. -/
theorem exists_wording_behind (hword : compound.Wording word) (h : readQualifiers compound cs = .ok (result, behind)) :
    ∃ body, cs = body ++ behind ∧ result.Wording (word ++ body) := by
  fun_induction readQualifiers compound cs generalizing word with
  | case1 => cases h; exact ⟨[], rfl, by rwa [List.append_nil]⟩
  | case2 => cases h
  | case3 compound c rest hc q behind' hread ih =>
    obtain ⟨front, rfl, hq⟩ := exists_wording_qualifier hc hread
    obtain ⟨body, rfl, hresult⟩ := ih (hword.add hq) h
    exact ⟨c :: front ++ body, by simp, by rwa [← List.append_assoc]⟩
  | case4 => cases h; exact ⟨[], rfl, by rwa [List.append_nil]⟩

/-- **What is read as a compound is a wording of it.** -/
theorem exists_wording (h : readCompound c rest = .ok (compound, behind)) :
    ∃ body, rest = body ++ behind ∧ compound.Wording (c :: body) := by
  by_cases hstar : c = '*'
  · subst hstar
    rw [readCompound, if_pos rfl] at h
    exact exists_wording_behind .universal h
  by_cases hident : isIdentChar c = true
  · rw [readCompound, if_neg hstar, if_pos hident] at h
    have hname : IsName (c :: rest.takeWhile isIdentChar) := by
      refine ⟨by simp, ?_⟩
      intro d hd
      obtain rfl | hd := List.mem_cons.mp hd
      · exact hident
      · exact List.all_eq_true.mp List.all_takeWhile d hd
    obtain ⟨body, hbody, hword⟩ := exists_wording_behind (.tag hname) h
    refine ⟨rest.takeWhile isIdentChar ++ body, ?_, hword⟩
    rw [List.append_assoc, ← hbody]
    exact List.takeWhile_append_dropWhile.symm
  by_cases hstart : isQualifierStart c = true
  · rw [readCompound, if_neg hstar, if_neg hident, if_pos hstart] at h
    cases hread : readQualifier c rest with
    | error fault => rw [hread] at h; cases h
    | ok found =>
      obtain ⟨q, behind'⟩ := found
      rw [hread] at h
      obtain ⟨front, rfl, hq⟩ := exists_wording_qualifier hstart hread
      obtain ⟨body, rfl, hword⟩ := exists_wording_behind (.qualifier hq) h
      exact ⟨front ++ body, by simp, hword⟩
  · rw [readCompound, if_neg hstar, if_neg hident, if_neg hstart] at h
    cases h

/-- A text that is read whole as a compound is a wording of it. -/
theorem wording_of_read (h : readCompound c rest = .ok (compound, [])) : compound.Wording (c :: rest) := by
  obtain ⟨body, rfl, hword⟩ := exists_wording h
  rwa [List.append_nil]

end Databind.Selector
