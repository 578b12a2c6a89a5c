import Databind.Selector.Basic
import Databind.Text.Alphanumeric
import Databind.Text.Blank
import Databind.Text.Numeral

/-!
# `Selector.Parser` — reading selectors

    list       := complex (',' complex)*
    complex    := compound (combinator compound)*
    combinator := blanks | '>'
    compound   := (tag | '*')? ('#' id | '.' class | '[' name ('=' value)? ']' | ':nth-of-type(' n ')')*

A compound may not be empty. Commas inside brackets do not separate alternatives. Of two identifiers or
two positions in one compound the later counts.
-/

namespace Databind.Selector

/-- Whether a character may stand in a tag, an identifier or a class. -/
def isIdentChar (c : Char) : Bool := Text.isAlphanumeric c || c = '-' || c = '_'

/-- The identifier at the head of a text, perhaps empty, and the rest. -/
def readIdent (cs : List Char) : List Char × List Char :=
  (cs.takeWhile isIdentChar, cs.dropWhile isIdentChar)

/-- The text without quotes at either end. -/
def stripQuotes (cs : List Char) : List Char :=
  let quote := fun c : Char => c = '"' || c = '\''
  ((cs.dropWhile quote).reverse.dropWhile quote).reverse

/-- The name and value of an attribute condition. -/
def readCondition (body : List Char) : List Char × Option (List Char) :=
  match Text.splitAt? '=' body with
  | some (name, value) => (Text.trimChars name, some (stripQuotes (Text.trimChars value)))
  | none => (Text.trimChars body, none)

/-- A position, from one. -/
def readPosition? (cs : List Char) : Option Nat :=
  (Text.readSize? (Text.trimChars cs)).filter (0 < ·)

theorem dropWhile_length_le (p : Char → Bool) (cs : List Char) :
    (cs.dropWhile p).length ≤ cs.length := (List.dropWhile_sublist p).length_le

theorem splitAt?_length_lt {c : Char} {cs before behind : List Char}
    (h : Text.splitAt? c cs = some (before, behind)) : behind.length < cs.length := by
  rw [(Text.splitAt?_eq_some h).1]
  simp only [List.length_append, List.length_cons]
  omega

/-- Whether a character begins a qualifier. -/
def isQualifierStart (c : Char) : Bool := c = '#' || c = '.' || c = '[' || c = ':'

/-- A name behind `#` or `.`, which may not be empty. -/
def readName (fault : Fault) (rest : List Char) : Except Fault (String × List Char) :=
  match readIdent rest with
  | ([], _) => .error fault
  | (name, behind) => .ok (String.ofList name, behind)

/-- A bracketed condition behind its `[`. -/
def readAttribute (rest : List Char) : Except Fault (Qualifier × List Char) :=
  match Text.splitAt? ']' rest with
  | none => .error .unterminatedAttribute
  | some (body, behind) =>
    match readCondition body with
    | ([], _) => .error .emptyAttributeName
    | (name, value) => .ok (.attr (String.ofList name) (value.map String.ofList), behind)

/-- A position behind its `:`. -/
def readPseudoClass (rest : List Char) : Except Fault (Qualifier × List Char) :=
  match readIdent rest with
  | (name, '(' :: inner) =>
    if name ≠ "nth-of-type".toList then .error .unsupportedPseudoClass
    else
      match Text.splitAt? ')' inner with
      | none => .error .unterminatedPseudoClass
      | some (body, behind) =>
        match readPosition? body with
        | none => .error .badPosition
        | some n => .ok (.position n, behind)
  | _ => .error .unsupportedPseudoClass

/-- The qualifier that begins with a given character, and the rest. -/
def readQualifier (c : Char) (rest : List Char) : Except Fault (Qualifier × List Char) :=
  if c = '#' then (readName .emptyId rest).map fun (name, behind) => (.id name, behind)
  else if c = '.' then (readName .emptyClass rest).map fun (name, behind) => (.className name, behind)
  else if c = '[' then readAttribute rest
  else readPseudoClass rest

theorem readName_length_le {fault : Fault} {rest behind : List Char} {name : String}
    (h : readName fault rest = .ok (name, behind)) : behind.length ≤ rest.length := by
  simp only [readName, readIdent] at h
  split at h
  · simp at h
  · next hread =>
    simp only [Except.ok.injEq, Prod.mk.injEq] at h hread
    rw [← h.2, ← hread.2]
    exact dropWhile_length_le _ _

theorem readAttribute_length_le {rest behind : List Char} {q : Qualifier}
    (h : readAttribute rest = .ok (q, behind)) : behind.length ≤ rest.length := by
  simp only [readAttribute] at h
  split at h
  · simp at h
  · next hsplit =>
    have hlt := splitAt?_length_lt hsplit
    split at h
    · simp at h
    · simp only [Except.ok.injEq, Prod.mk.injEq] at h
      rw [← h.2]
      omega

theorem readPseudoClass_length_le {rest behind : List Char} {q : Qualifier}
    (h : readPseudoClass rest = .ok (q, behind)) : behind.length ≤ rest.length := by
  simp only [readPseudoClass, readIdent] at h
  split at h
  · next hread =>
    have hinner := dropWhile_length_le isIdentChar rest
    simp only [Prod.mk.injEq] at hread
    rw [hread.2, List.length_cons] at hinner
    split at h
    · simp at h
    · split at h
      · simp at h
      · next hsplit =>
        have hlt := splitAt?_length_lt hsplit
        split at h
        · simp at h
        · simp only [Except.ok.injEq, Prod.mk.injEq] at h
          rw [← h.2]
          omega
  · simp at h

/-- **Qualifiers are read from the front:** what is left is no longer than what was given. -/
theorem readQualifier_length_le {c : Char} {rest behind : List Char} {q : Qualifier}
    (h : readQualifier c rest = .ok (q, behind)) : behind.length ≤ rest.length := by
  simp only [readQualifier] at h
  split at h
  · cases hread : readName .emptyId rest with
    | error fault => simp [hread, Except.map] at h
    | ok result =>
      simp only [hread, Except.map, Except.ok.injEq, Prod.mk.injEq] at h
      exact h.2 ▸ readName_length_le hread
  · split at h
    · cases hread : readName .emptyClass rest with
      | error fault => simp [hread, Except.map] at h
      | ok result =>
        simp only [hread, Except.map, Except.ok.injEq, Prod.mk.injEq] at h
        exact h.2 ▸ readName_length_le hread
    · split at h
      · exact readAttribute_length_le h
      · exact readPseudoClass_length_le h

/-- The qualifiers at the head of a text added to a compound, and the rest. -/
def readQualifiers (compound : Compound) (cs : List Char) : Except Fault (Compound × List Char) :=
  match cs with
  | [] => .ok (compound, [])
  | c :: rest =>
    if isQualifierStart c then
      match _h : readQualifier c rest with
      | .error fault => .error fault
      | .ok (q, behind) => readQualifiers (compound.add q) behind
    else .ok (compound, c :: rest)
termination_by cs.length
decreasing_by
  have := readQualifier_length_le _h
  simp only [List.length_cons]; omega

theorem readQualifiers_length_le {compound result : Compound} {cs behind : List Char}
    (h : readQualifiers compound cs = .ok (result, behind)) : behind.length ≤ cs.length := by
  fun_induction readQualifiers compound cs with
  | case1 => simp_all
  | case2 => simp at h
  | case3 compound c rest _ q behind' hread ih =>
    have h₁ := ih h
    have h₂ := readQualifier_length_le hread
    simp only [List.length_cons]; omega
  | case4 =>
    simp only [Except.ok.injEq, Prod.mk.injEq] at h
    simp [← h.2]

/-- The compound that begins with a given character, and the rest. A compound begins with `*`, a tag or
a qualifier. -/
def readCompound (c : Char) (rest : List Char) : Except Fault (Compound × List Char) :=
  if c = '*' then readQualifiers { universal := true } rest
  else if isIdentChar c then
    readQualifiers { tag := some (String.ofList (c :: rest.takeWhile isIdentChar)) }
      (rest.dropWhile isIdentChar)
  else if isQualifierStart c then
    match readQualifier c rest with
    | .error fault => .error fault
    | .ok (q, behind) => readQualifiers (Compound.add {} q) behind
  else .error .unexpectedCharacter

/-- **A compound takes at least one character.** -/
theorem readCompound_length_le {c : Char} {rest behind : List Char} {compound : Compound}
    (h : readCompound c rest = .ok (compound, behind)) : behind.length ≤ rest.length := by
  simp only [readCompound] at h
  split at h
  · exact readQualifiers_length_le h
  · split at h
    · exact Nat.le_trans (readQualifiers_length_le h) (dropWhile_length_le _ _)
    · split at h
      · split at h
        · simp at h
        · next hread =>
          exact Nat.le_trans (readQualifiers_length_le h) (readQualifier_length_le hread)
      · simp at h

/-- A chain read so far with the compound that follows it. -/
def joined (chain : Option Complex) (pending : Option Combinator) (compound : Compound) :
    Except Fault Complex :=
  match chain, pending with
  | none, _ => .ok (.compound compound)
  | some left, some combinator => .ok (.join left combinator compound)
  | some _, none => .error .missingCombinator

/-- The chain of compounds in a text, behind the chain and the combinator read so far. -/
def readComplex (chain : Option Complex) (pending : Option Combinator) (cs : List Char) :
    Except Fault Complex :=
  match cs with
  | [] =>
    if pending = some .child then .error .danglingChild
    else
      match chain with
      | none => .error .emptySelector
      | some complex => .ok complex
  | c :: rest =>
    if Text.isBlank c then
      readComplex chain (if chain.isSome ∧ pending = none then some .descendant else pending) rest
    else if c = '>' then
      if chain = none ∨ pending = some .child then .error .danglingChild
      else readComplex chain (some .child) rest
    else
      match _h : readCompound c rest with
      | .error fault => .error fault
      | .ok (compound, behind) =>
        match joined chain pending compound with
        | .error fault => .error fault
        | .ok complex => readComplex (some complex) none behind
termination_by cs.length
decreasing_by
  · simp
  · simp
  · have := readCompound_length_le _h
    simp only [List.length_cons]; omega

/-- The pieces of a text between the commas outside brackets. -/
def splitAlternatives (depth : Nat) : List Char → List (List Char)
  | [] => [[]]
  | c :: rest =>
    if c = ',' ∧ depth = 0 then [] :: splitAlternatives depth rest
    else
      let depth :=
        if c = '(' ∨ c = '[' then depth + 1
        else if c = ')' ∨ c = ']' then depth - 1
        else depth
      match splitAlternatives depth rest with
      | [] => [[c]]
      | piece :: pieces => (c :: piece) :: pieces

/-- One alternative. -/
def readAlternative (cs : List Char) : Except Fault Complex := readComplex none none (Text.trimChars cs)

/-- The alternatives of a list of texts, in order. -/
def readAlternatives : List (List Char) → Except Fault (List Complex)
  | [] => .ok []
  | cs :: rest => do
    let complex ← readAlternative cs
    let complexes ← readAlternatives rest
    .ok (complex :: complexes)

/-- **Read a selector.** Blank text is none. -/
def parse (text : String) : Except Error Selector :=
  match readAlternatives (splitAlternatives 0 text.toList) with
  | .ok alternatives => .ok ⟨alternatives⟩
  | .error fault => .error ⟨text, fault⟩

end Databind.Selector
