import Databind.Proofs.Trimming
import Databind.Selector.Parser

/-!
# `Proofs.Chaining` — chains of compounds in texts that go on

A text behind a chain is read as if the chain had just been read: what the text begins with may still belong to the last
compound, and the rest goes on from there. What is read behind a chain does not depend on the chain.

## Main definitions

* `Selector.Breaks` — a text that no identifier goes on into.
* `Selector.Complex.extend` — a chain with more compounds behind it.
-/

namespace Databind

namespace Text

/-- A split at the first occurrence of a character is the same if the text goes on. -/
theorem splitAt?_append {c : Char} {cs before behind : List Char} (h : splitAt? c cs = some (before, behind))
    (tail : List Char) : splitAt? c (cs ++ tail) = some (before, behind ++ tail) := by
  induction cs generalizing before with
  | nil => simp [splitAt?] at h
  | cons d rest ih =>
    simp only [List.cons_append, splitAt?] at h ⊢
    split at h
    · simp_all
    · obtain ⟨⟨before', behind'⟩, hsplit, heq⟩ := Option.map_eq_some_iff.mp h
      cases heq
      rw [if_neg ‹_›, ih hsplit]
      rfl

theorem splitAt?_of_not_mem {c : Char} {before : List Char} (h : c ∉ before) (behind : List Char) :
    splitAt? c (before ++ c :: behind) = some (before, behind) := by
  induction before with
  | nil => simp [splitAt?]
  | cons d before ih =>
    have hd : d ≠ c := fun hd => h (hd ▸ List.mem_cons_self)
    simp [splitAt?, hd, ih fun hmem => h (List.mem_cons_of_mem _ hmem)]

end Text

namespace Selector

variable {cs tail : List Char}

/-! ## Texts that go on -/

/-- **A text that no identifier goes on into.** -/
def Breaks (tail : List Char) : Prop := ∀ c ∈ tail.head?, isIdentChar c = false

/-- **A blank is in no identifier.** -/
theorem isIdentChar_of_isBlank {c : Char} (h : Text.isBlank c = true) : isIdentChar c = false := by
  have halphanumeric : Text.isAlphanumeric c = false := by
    by_cases hascii : c.toNat < 128
    · have hcode : c.toNat ∈ [9, 10, 11, 12, 13, 32] := by
        simp only [Text.isBlank, Bool.or_eq_true, Bool.and_eq_true, decide_eq_true_eq, beq_iff_eq] at h
        simp only [List.mem_cons, List.not_mem_nil, or_false]
        omega
      have hnone : [9, 10, 11, 12, 13, 32].all (fun code => !(Char.ofNat code).isAlphanum) = true := by decide
      rw [Text.isAlphanumeric_of_lt hascii, ← Char.ofNat_toNat c]
      simpa only [Bool.not_eq_true'] using List.all_eq_true.mp hnone _ hcode
    · unfold Text.isAlphanumeric
      rw [if_neg hascii]
      exact Text.inRanges_of_isBlank h (Nat.le_of_not_lt hascii)
  have hdash : c ≠ '-' := by rintro rfl; revert h; decide
  have hunderscore : c ≠ '_' := by rintro rfl; revert h; decide
  simp [isIdentChar, halphanumeric, hdash, hunderscore]

/-- A blank begins no qualifier. -/
theorem isQualifierStart_of_isBlank {c : Char} (h : Text.isBlank c = true) : isQualifierStart c = false := by
  have hnot : c ≠ '#' ∧ c ≠ '.' ∧ c ≠ '[' ∧ c ≠ ':' := by
    refine ⟨?_, ?_, ?_, ?_⟩ <;> (rintro rfl; revert h; decide)
  simp [isQualifierStart, hnot]

theorem readIdent_append (htail : Breaks tail) (cs : List Char) :
    readIdent (cs ++ tail) = ((readIdent cs).1, (readIdent cs).2 ++ tail) := by
  induction cs with
  | nil =>
    cases tail with
    | nil => rfl
    | cons c rest =>
      have hc : isIdentChar c = false := htail c rfl
      simp [readIdent, hc]
  | cons c rest ih =>
    simp only [readIdent, Prod.mk.injEq, List.cons_append, List.takeWhile_cons, List.dropWhile_cons] at ih ⊢
    split
    · exact ⟨congrArg (c :: ·) ih.1, ih.2⟩
    · exact ⟨rfl, rfl⟩

theorem readName_append (htail : Breaks tail) {fault : Fault} {name : String} {behind : List Char}
    (h : readName fault cs = .ok (name, behind)) : readName fault (cs ++ tail) = .ok (name, behind ++ tail) := by
  unfold readName at h ⊢
  rw [readIdent_append htail]
  split at h
  · cases h
  · next name' behind' hnot hread =>
    cases h
    simp only [hread]

theorem readAttribute_append {q : Qualifier} {behind : List Char} (h : readAttribute cs = .ok (q, behind))
    (tail : List Char) : readAttribute (cs ++ tail) = .ok (q, behind ++ tail) := by
  unfold readAttribute at h ⊢
  split at h
  · cases h
  · next body behind' hsplit =>
    rw [Text.splitAt?_append hsplit]
    simp only
    split at h
    · cases h
    · cases h
      simp only [*]

theorem readPseudoClass_append (htail : Breaks tail) {q : Qualifier} {behind : List Char}
    (h : readPseudoClass cs = .ok (q, behind)) : readPseudoClass (cs ++ tail) = .ok (q, behind ++ tail) := by
  unfold readPseudoClass at h ⊢
  rw [readIdent_append htail]
  split at h
  · next name inner hread =>
    simp only [hread, List.cons_append]
    split at h
    · cases h
    · next hname =>
      rw [if_neg hname]
      split at h
      · cases h
      · next body behind' hsplit =>
        rw [Text.splitAt?_append hsplit]
        simp only
        split at h
        · cases h
        · cases h
          simp only [*]
  · cases h

/-- **A qualifier is read the same if the text goes on.** -/
theorem readQualifier_append (htail : Breaks tail) {c : Char} {q : Qualifier} {behind : List Char}
    (h : readQualifier c cs = .ok (q, behind)) : readQualifier c (cs ++ tail) = .ok (q, behind ++ tail) := by
  -- Whatever is made of a name, the text behind it is left alone.
  have hname : ∀ {fault : Fault} (f : String × List Char → Qualifier × List Char),
      (∀ name behind, f (name, behind ++ tail) = ((f (name, behind)).1, (f (name, behind)).2 ++ tail)) →
      (readName fault cs).map f = .ok (q, behind) →
      (readName fault (cs ++ tail)).map f = .ok (q, behind ++ tail) := by
    intro fault f hf h
    cases hread : readName fault cs with
    | error e => rw [hread] at h; cases h
    | ok result =>
      rw [hread] at h
      have hresult : f result = (q, behind) := by simpa only [Except.map, Except.ok.injEq] using h
      rw [readName_append htail hread]
      simp only [Except.map, hf, hresult]
  unfold readQualifier at h ⊢
  split at h
  · rw [if_pos ‹_›]
    exact hname _ (fun _ _ => rfl) h
  · rw [if_neg ‹_›]
    split at h
    · rw [if_pos ‹_›]
      exact hname _ (fun _ _ => rfl) h
    · rw [if_neg ‹_›]
      split at h
      · rw [if_pos ‹_›]
        exact readAttribute_append h tail
      · rw [if_neg ‹_›]
        exact readPseudoClass_append htail h

/-- Qualifiers are read on where the text goes on. -/
theorem readQualifiers_append (htail : Breaks tail) {compound result : Compound} {behind : List Char}
    (h : readQualifiers compound cs = .ok (result, behind)) :
    readQualifiers compound (cs ++ tail) = readQualifiers result (behind ++ tail) := by
  fun_induction readQualifiers compound cs with
  | case1 => cases h; rfl
  | case2 => cases h
  | case3 compound c rest hc q behind' hread ih =>
    rw [List.cons_append, readQualifiers, if_pos hc]
    split
    · next fault hfault => rw [readQualifier_append htail hread] at hfault; cases hfault
    · next q' behind'' hread' =>
      rw [readQualifier_append htail hread] at hread'
      cases hread'
      exact ih h
  | case4 => cases h; rfl

/-- What is left behind qualifiers begins no other. -/
theorem readQualifiers_behind {compound result : Compound} {behind : List Char}
    (h : readQualifiers compound cs = .ok (result, behind)) : ∀ c ∈ behind.head?, isQualifierStart c = false := by
  fun_induction readQualifiers compound cs with
  | case1 => cases h; simp
  | case2 => cases h
  | case3 compound c rest hc q behind' hread ih => exact ih h
  | case4 compound c rest hc => cases h; simpa using hc

/-- A text that begins no qualifier adds nothing to a compound. -/
theorem readQualifiers_of_stop (compound : Compound) (h : ∀ c ∈ cs.head?, isQualifierStart c = false) :
    readQualifiers compound cs = .ok (compound, cs) := by
  cases cs with
  | nil => rw [readQualifiers]
  | cons c rest => rw [readQualifiers, if_neg (by simp [h c rfl])]

/-- **A compound is what it begins with and qualifiers behind it.** -/
theorem exists_readQualifiers {c : Char} {compound : Compound} {behind : List Char}
    (h : readCompound c cs = .ok (compound, behind)) :
    ∃ start rest, readQualifiers start rest = .ok (compound, behind) ∧
      ∀ tail, Breaks tail → readCompound c (cs ++ tail) = readQualifiers start (rest ++ tail) := by
  unfold readCompound at h ⊢
  split at h
  · exact ⟨_, _, h, fun tail _ => if_pos ‹_›⟩
  · simp only [if_neg ‹_›]
    split at h
    · refine ⟨_, _, h, fun tail htail => ?_⟩
      obtain ⟨htake, hdrop⟩ := Prod.mk.inj (readIdent_append htail cs)
      simp only [readIdent] at htake hdrop
      rw [if_pos ‹_›, htake, hdrop]
    · simp only [if_neg ‹_›]
      split at h
      · split at h
        · cases h
        · next q behind' hread =>
          exact ⟨_, _, h, fun tail htail => by rw [if_pos ‹_›, readQualifier_append htail hread]⟩
      · cases h

/-- The compound at the end of a chain. -/
def Complex.last : Complex → Compound
  | .compound c => c
  | .join _ _ c => c

/-- The chain with another compound at its end. -/
def Complex.withLast (c : Compound) : Complex → Complex
  | .compound _ => .compound c
  | .join left combinator _ => .join left combinator c

@[simp] theorem Complex.withLast_last (c : Complex) : c.withLast c.last = c := by cases c <;> rfl

@[simp] theorem Complex.last_withLast (c : Compound) (complex : Complex) : (complex.withLast c).last = c := by
  cases complex <;> rfl

theorem joined_eq_ok {chain : Option Complex} {pending : Option Combinator} {compound : Compound} {complex : Complex}
    (h : joined chain pending compound = .ok complex) :
    complex.last = compound ∧ ∀ c, joined chain pending c = .ok (complex.withLast c) := by
  unfold joined at h
  split at h
  · cases h; exact ⟨rfl, fun _ => rfl⟩
  · cases h; exact ⟨rfl, fun _ => rfl⟩
  · cases h

/-! ## Chains, one character at a time -/

section Chain

variable {chain : Option Complex} {pending : Option Combinator} {c : Char} {rest : List Char}

theorem readComplex_none_nil (pending : Option Combinator) : ∃ fault, readComplex none pending [] = .error fault := by
  rw [readComplex.eq_def]
  by_cases hpending : pending = some .child
  · exact ⟨_, if_pos hpending⟩
  · exact ⟨_, if_neg hpending⟩

theorem readComplex_nil (complex : Complex) (h : pending ≠ some .child) :
    readComplex (some complex) pending [] = .ok complex := by
  rw [readComplex.eq_def]
  simp only [if_neg h]

theorem readComplex_child_nil (chain : Option Complex) : readComplex chain (some .child) [] = .error .danglingChild := by
  rw [readComplex.eq_def]
  simp only [if_true]

theorem readComplex_blank (hc : Text.isBlank c = true) :
    readComplex chain pending (c :: rest) =
      readComplex chain (if chain.isSome ∧ pending = none then some .descendant else pending) rest := by
  rw [readComplex.eq_def]
  simp only [if_pos hc]

theorem readComplex_child : readComplex chain pending ('>' :: rest) =
    if chain = none ∨ pending = some .child then .error .danglingChild else readComplex chain (some .child) rest := by
  rw [readComplex.eq_def]
  simp only [if_neg (show ¬Text.isBlank '>' = true by decide), if_true]

theorem readComplex_compound (hc : Text.isBlank c = false) (hchild : c ≠ '>') :
    readComplex chain pending (c :: rest) = (readCompound c rest).bind fun (compound, behind) =>
      (joined chain pending compound).bind fun complex => readComplex (some complex) none behind := by
  rw [readComplex.eq_def]
  simp only [hc, Bool.false_eq_true, if_false, if_neg hchild]
  split
  · next h => rw [h]; rfl
  · next h =>
    rw [h]
    simp only [Except.bind]
    split <;> simp only [*]

end Chain

/-- **A chain is read on where the text goes on**: a tail may begin with qualifiers of the last compound, unless there is
a blank in between, and the rest is read behind the chain. -/
theorem readComplex_append {chain : Option Complex} {pending : Option Combinator} {complex : Complex} (hne : cs ≠ [])
    (h : readComplex chain pending cs = .ok complex) :
    (∀ tail, Breaks tail → readComplex chain pending (cs ++ tail) =
      (readQualifiers complex.last tail).bind fun (c, behind) => readComplex (some (complex.withLast c)) none behind) ∨
    ∀ tail, Breaks tail →
      readComplex chain pending (cs ++ tail) = readComplex (some complex) (some .descendant) tail := by
  fun_induction readComplex chain pending cs with
  | case1 => exact absurd rfl hne
  | case2 => exact absurd rfl hne
  | case3 => exact absurd rfl hne
  | case4 chain pending c rest hc ih =>
    simp only [List.cons_append, readComplex_blank hc]
    cases rest with
    | nil =>
      -- the text ends in a blank, so the compound in front of it is complete
      cases chain with
      | none =>
        obtain ⟨fault, hfault⟩ := readComplex_none_nil pending
        rw [if_neg (by simp), hfault] at h
        cases h
      | some complex' =>
        cases pending with
        | none =>
          rw [if_pos ⟨rfl, rfl⟩, readComplex_nil _ (by simp)] at h
          cases h
          exact .inr fun _ _ => rfl
        | some combinator =>
          rw [if_neg (by simp)] at h
          cases combinator with
          | child => rw [readComplex_child_nil] at h; cases h
          | descendant =>
            rw [readComplex_nil _ (by simp)] at h
            cases h
            exact .inr fun _ _ => rfl
    | cons d rest => exact ih (by simp) h
  | case5 => cases h
  | case6 chain pending rest hno hnot ih =>
    have hrest : rest ≠ [] := by
      rintro rfl
      rw [readComplex_child_nil] at h
      cases h
    simp only [List.cons_append, readComplex_child, if_neg hno]
    exact ih hrest h
  | case7 => cases h
  | case8 => cases h
  | case9 chain pending c rest hc hchild compound behind hread complex' hjoined ih =>
    obtain ⟨start, read, hqualifiers, hread'⟩ := exists_readQualifiers hread
    obtain ⟨rfl, hjoined'⟩ := joined_eq_ok hjoined
    have hcompound : ∀ tail, Breaks tail → readComplex chain pending (c :: rest ++ tail) =
        (readQualifiers complex'.last (behind ++ tail)).bind fun (compound, behind) =>
          readComplex (some (complex'.withLast compound)) none behind := by
      intro tail htail
      rw [List.cons_append, readComplex_compound (by simpa using hc) hchild, hread' tail htail,
        readQualifiers_append htail hqualifiers]
      simp only [hjoined']
      rfl
    cases behind with
    | nil =>
      -- the compound just read is the last one, and the tail may go on with it
      rw [readComplex_nil _ (by simp)] at h
      cases h
      exact .inl hcompound
    | cons d behind =>
      have hstop := readQualifiers_behind hqualifiers
      have hon : ∀ tail, Breaks tail →
          readComplex chain pending (c :: rest ++ tail) = readComplex (some complex') none (d :: behind ++ tail) := by
        intro tail htail
        rw [hcompound tail htail, List.cons_append, readQualifiers_of_stop _ (by simpa using hstop)]
        simp only [Except.bind, Complex.withLast_last]
      obtain hsame | hbelow := ih (by simp) h
      · exact .inl fun tail htail => (hon tail htail).trans (hsame tail htail)
      · exact .inr fun tail htail => (hon tail htail).trans (hbelow tail htail)

/-- Blanks behind a combinator stand for nothing. -/
theorem readComplex_blanks {blanks : List Char} (hblanks : Text.AllBlank blanks) {combinator : Combinator}
    (complex : Complex) (tail : List Char) :
    readComplex (some complex) (some combinator) (blanks ++ tail) = readComplex (some complex) (some combinator) tail := by
  induction blanks with
  | nil => rfl
  | cons b blanks ih =>
    rw [List.cons_append, readComplex_blank (hblanks b List.mem_cons_self)]
    exact ih fun c hc => hblanks c (List.mem_cons_of_mem _ hc)

/-- **Behind a chain and blanks, descendants are read.** -/
theorem readComplex_append_blanks {chain : Option Complex} {pending : Option Combinator} {complex : Complex} (hne : cs ≠ [])
    (h : readComplex chain pending cs = .ok complex) {b : Char} {blanks : List Char} (hblanks : Text.AllBlank (b :: blanks))
    (tail : List Char) :
    readComplex chain pending (cs ++ (b :: blanks ++ tail)) = readComplex (some complex) (some .descendant) tail := by
  have hb : Text.isBlank b = true := hblanks b List.mem_cons_self
  have hbreaks : Breaks (b :: blanks ++ tail) := by
    intro c hc
    cases hc
    exact isIdentChar_of_isBlank hb
  have hstop : ∀ c ∈ (b :: blanks ++ tail).head?, isQualifierStart c = false := by
    intro c hc
    cases hc
    exact isQualifierStart_of_isBlank hb
  obtain hon | hon := readComplex_append hne h
  · have hread : readComplex chain pending (cs ++ (b :: blanks ++ tail)) =
        readComplex (some complex) none (b :: blanks ++ tail) := by
      rw [hon _ hbreaks, readQualifiers_of_stop _ hstop]
      simp only [Except.bind, Complex.withLast_last]
    rw [hread, List.cons_append, readComplex_blank hb]
    exact readComplex_blanks (fun c hc => hblanks c (List.mem_cons_of_mem _ hc)) complex tail
  · rw [hon _ hbreaks]
    exact readComplex_blanks hblanks complex tail

/-! ## What is read behind a chain -/

/-- A chain with more compounds behind it. -/
def Complex.extend (complex : Complex) : List (Combinator × Compound) → Complex
  | [] => complex
  | (combinator, right) :: rest => (Complex.join complex combinator right).extend rest

/-- **What is read behind a chain does not depend on the chain.** -/
theorem readComplex_extend (pending : Option Combinator) (cs : List Char) :
    (∃ fault, ∀ left, readComplex (some left) pending cs = .error fault) ∨
      ∃ links, ∀ left, readComplex (some left) pending cs = .ok (left.extend links) := by
  -- the reader's own induction would fix the chain, so this one is on the length of the text
  induction hlength : cs.length using Nat.strongRecOn generalizing pending cs with
  | ind n ih =>
    subst hlength
    cases cs with
    | nil =>
      by_cases hchild : pending = some .child
      · subst hchild
        exact .inl ⟨_, fun left => readComplex_child_nil _⟩
      · exact .inr ⟨[], fun left => readComplex_nil left hchild⟩
    | cons c rest =>
      have hrest : rest.length < (c :: rest).length := Nat.lt_succ_self _
      by_cases hc : Text.isBlank c = true
      · simp only [readComplex_blank hc, Option.isSome_some, true_and]
        exact ih _ hrest _ _ rfl
      by_cases hchild : c = '>'
      · subst hchild
        simp only [readComplex_child]
        by_cases hpending : pending = some .child
        · exact .inl ⟨_, fun left => if_pos (.inr hpending)⟩
        · simp only [hpending, reduceCtorEq, or_self, if_false]
          exact ih _ hrest _ _ rfl
      simp only [readComplex_compound (by simpa using hc) hchild]
      cases hread : readCompound c rest with
      | error fault => exact .inl ⟨fault, fun _ => rfl⟩
      | ok result =>
        obtain ⟨compound, behind⟩ := result
        simp only [Except.bind, joined]
        cases pending with
        | none => exact .inl ⟨_, fun _ => rfl⟩
        | some combinator =>
          have hbehind : behind.length < (c :: rest).length := Nat.lt_succ_of_le (readCompound_length_le hread)
          obtain ⟨fault, hfault⟩ | ⟨links, hlinks⟩ := ih _ hbehind none behind rfl
          · exact .inl ⟨fault, fun left => hfault _⟩
          · exact .inr ⟨(combinator, compound) :: links, fun left => hlinks _⟩

/-- **A chain that is read on its own is read as well below another chain**, and has compounds to add to it. -/
theorem readComplex_below {cs : List Char} {complex : Complex} (hhead : ∀ c ∈ cs.head?, Text.isBlank c = false)
    (h : readComplex none none cs = .ok complex) :
    ∃ links, links ≠ [] ∧ ∀ left, readComplex (some left) (some .descendant) cs = .ok (left.extend links) := by
  cases cs with
  | nil =>
    obtain ⟨fault, hfault⟩ := readComplex_none_nil none
    rw [hfault] at h
    cases h
  | cons c rest =>
    have hc := hhead c rfl
    by_cases hchild : c = '>'
    · subst hchild
      rw [readComplex_child, if_pos (.inl rfl)] at h
      cases h
    rw [readComplex_compound hc hchild] at h
    simp only [readComplex_compound hc hchild]
    cases hread : readCompound c rest with
    | error fault => rw [hread] at h; cases h
    | ok result =>
      obtain ⟨compound, behind⟩ := result
      rw [hread] at h
      simp only [Except.bind, joined] at h ⊢
      obtain ⟨fault, hfault⟩ | ⟨links, hlinks⟩ := readComplex_extend none behind
      · rw [hfault] at h
        cases h
      · exact ⟨(.descendant, compound) :: links, by simp, fun left => hlinks _⟩

/-- A comma outside brackets is no part of a chain. -/
theorem readComplex_comma {chain : Option Complex} {pending : Option Combinator} {complex : Complex} (hne : cs ≠ [])
    (h : readComplex chain pending cs = .ok complex) {blanks : List Char} (hblanks : Text.AllBlank blanks)
    (behind : List Char) : readComplex chain pending (cs ++ (blanks ++ ',' :: behind)) = .error .unexpectedCharacter := by
  have hident : isIdentChar ',' = false := by decide +kernel
  have hcomma : ∀ pending, readComplex (some complex) pending (',' :: behind) = .error .unexpectedCharacter := by
    intro pending
    have hread : readCompound ',' behind = .error .unexpectedCharacter := by
      simp [readCompound, hident, isQualifierStart]
    rw [readComplex_compound (by decide) (by decide), hread]
    rfl
  cases blanks with
  | nil =>
    have htail : Breaks (',' :: behind) := by
      intro c hc
      cases hc
      exact hident
    obtain hon | hon := readComplex_append hne h
    · rw [List.nil_append, hon _ htail, readQualifiers_of_stop _ (by simp [isQualifierStart])]
      simp only [Except.bind, Complex.withLast_last, hcomma]
    · rw [List.nil_append, hon _ htail, hcomma]
  | cons b blanks => rw [readComplex_append_blanks hne h hblanks, hcomma]

end Selector

end Databind
