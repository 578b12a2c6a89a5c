import Databind.Proofs.Listing
import Databind.Proofs.Matching

/-!
# `Proofs.Indexing` — selectors, read and matched by position

A chain of compounds is read by a position that moves over the characters of a text: past a name, past a closing
bracket that is searched from the position on, past a compound. The compounds and the combinators between them are kept
in two lists, and the chain is matched by an index into both. Every access is checked here: a character, a slice, a
search and an entry that lie outside of their list give a mishap of their own, and so does a round of a loop that takes
no character.

The position always stands in front of what the reader of lists still has to read (`Indexed.Stands`), so one step of the
former is one step of the latter, with the same fault or the same result (`Indexed.Agree`). A combinator waits for its
compound only behind a compound, so there is one compound more than combinators, and an index below the number of the
compounds finds the combinator on its left.

## Main definitions

* `Selector.Compound.isEmpty` — a compound without any condition.
* `Selector.Indexed.Mishap` — why a reading stops.
* `Selector.Indexed.readAt` — the chain in a text, read by position.
* `Selector.Chain.isMatch?` — whether a chain matches an element, by index.
* `Selector.Indexed.Agree` — two readings with the same outcome.
-/

namespace Databind.Selector

/-- Whether a compound has no condition at all. -/
def Compound.isEmpty (compound : Compound) : Bool :=
  !compound.universal && compound.tag.isNone && compound.id.isNone && compound.classes.isEmpty &&
    compound.attributes.isEmpty && compound.position.isNone

/-- A chain of compounds as two lists. -/
structure Chain where
  /-- The compounds, from left to right. -/
  compounds : List Compound := []
  /-- What joins each compound to the next one. -/
  combinators : List Combinator := []
deriving DecidableEq

namespace Indexed

/-! ## Reading by position -/

/-- Why a reading stops. -/
inductive Mishap where
  /-- A position outside of the text, or a slice that ends before it begins. -/
  | outOfRange
  /-- A round of a loop that does not move the position. -/
  | stalled
  /-- The text is no chain. -/
  | fault (fault : Fault)
deriving DecidableEq

/-- The character at a position. -/
def charAt (cs : List Char) (i : Nat) : Except Mishap Char :=
  match cs[i]? with
  | some c => .ok c
  | none => .error .outOfRange

/-- The text from a position up to another one. -/
def slice (cs : List Char) (i j : Nat) : Except Mishap (List Char) :=
  if i ≤ j ∧ j ≤ cs.length then .ok ((cs.drop i).take (j - i)) else .error .outOfRange

/-- How far behind a position a character is found first, the position itself included. -/
def offsetOf (cs : List Char) (i : Nat) (c : Char) : Except Mishap (Option Nat) :=
  if i ≤ cs.length then .ok ((cs.drop i).idxOf? c) else .error .outOfRange

/-- The position past the identifier at a position. -/
def pastIdent (cs : List Char) (i : Nat) : Nat :=
  if h : i < cs.length then
    if isIdentChar cs[i] then pastIdent cs (i + 1) else i
  else i
termination_by cs.length - i

/-- The identifier at a position, perhaps empty, and the position past it. -/
def readIdentAt (cs : List Char) (i : Nat) : Except Mishap (List Char × Nat) :=
  (slice cs i (pastIdent cs i)).map fun name => (name, pastIdent cs i)

/-- A name past the `#` or `.` at a position. -/
def nameAt (fault : Fault) (cs : List Char) (i : Nat) : Except Mishap (String × Nat) := do
  let (name, next) ← readIdentAt cs (i + 1)
  if name = [] then .error (.fault fault) else .ok (String.ofList name, next)

/-- A bracketed condition with its `[` at a position. -/
def attributeAt (cs : List Char) (i : Nat) : Except Mishap (Qualifier × Nat) := do
  match ← offsetOf cs i ']' with
  | none => .error (.fault .unterminatedAttribute)
  | some close =>
    let body ← slice cs (i + 1) (i + close)
    if (readCondition body).1 = [] then .error (.fault .emptyAttributeName)
    else
      .ok (.attr (String.ofList (readCondition body).1) ((readCondition body).2.map String.ofList), i + (close + 1))

/-- A pseudo-class with its `:` at a position. -/
def pseudoClassAt (cs : List Char) (i : Nat) : Except Mishap (Qualifier × Nat) := do
  let (name, next) ← readIdentAt cs (i + 1)
  if name ≠ "nth-of-type".toList ∨ cs[next]? ≠ some '(' then .error (.fault .unsupportedPseudoClass)
  else
    match ← offsetOf cs next ')' with
    | none => .error (.fault .unterminatedPseudoClass)
    | some close =>
      let body ← slice cs (next + 1) (next + close)
      match readPosition? body with
      | none => .error (.fault .badPosition)
      | some n => .ok (.position n, next + close + 1)

/-- The qualifier that begins with a given character at a position, and the position past it. -/
def qualifierAt (cs : List Char) (c : Char) (i : Nat) : Except Mishap (Qualifier × Nat) :=
  if c = '#' then (nameAt .emptyId cs i).map fun (name, next) => (.id name, next)
  else if c = '.' then (nameAt .emptyClass cs i).map fun (name, next) => (.className name, next)
  else if c = '[' then attributeAt cs i
  else pseudoClassAt cs i

/-- The qualifiers from a position on added to a compound, and the position past them. -/
def qualifiersAt (cs : List Char) (compound : Compound) (i : Nat) : Except Mishap (Compound × Nat) :=
  if i < cs.length then
    match charAt cs i with
    | .error mishap => .error mishap
    | .ok c =>
      if isQualifierStart c then
        match qualifierAt cs c i with
        | .error mishap => .error mishap
        | .ok (q, next) => if i < next then qualifiersAt cs (compound.add q) next else .error .stalled
      else .ok (compound, i)
  else .ok (compound, i)
termination_by cs.length - i

/-- The compound at a position, perhaps empty, and the position past it. -/
def compoundAt (cs : List Char) (i : Nat) : Except Mishap (Compound × Nat) := do
  let c ← charAt cs i
  if c = '*' then qualifiersAt cs { universal := true } (i + 1)
  else if isIdentChar c then
    let (name, next) ← readIdentAt cs i
    qualifiersAt cs { tag := some (String.ofList name) } next
  else qualifiersAt cs {} i

/-- The compound at a position, which may not be empty. -/
def conditionsAt (cs : List Char) (i : Nat) : Except Mishap (Compound × Nat) := do
  let (compound, next) ← compoundAt cs i
  if compound.isEmpty then .error (.fault .unexpectedCharacter) else .ok (compound, next)

/-- The chain with one compound more, joined to it by the combinator that waits for it. -/
def push (chain : Chain) (pending : Option Combinator) (compound : Compound) : Except Mishap Chain :=
  match pending with
  | some combinator => .ok ⟨chain.compounds ++ [compound], chain.combinators ++ [combinator]⟩
  | none =>
    if chain.compounds ≠ [] then .error (.fault .missingCombinator)
    else .ok ⟨chain.compounds ++ [compound], chain.combinators⟩

/-- The chain from a position on, behind the chain and the combinator read so far. -/
def chainAt (cs : List Char) (chain : Chain) (pending : Option Combinator) (i : Nat) : Except Mishap Chain :=
  if i < cs.length then
    match charAt cs i with
    | .error mishap => .error mishap
    | .ok c =>
      if Text.isBlank c then
        chainAt cs chain (if chain.compounds ≠ [] ∧ pending = none then some .descendant else pending) (i + 1)
      else if c = '>' then
        if chain.compounds = [] ∨ pending = some .child then .error (.fault .danglingChild)
        else chainAt cs chain (some .child) (i + 1)
      else
        match conditionsAt cs i with
        | .error mishap => .error mishap
        | .ok (compound, next) =>
          match push chain pending compound with
          | .error mishap => .error mishap
          | .ok chain => if i < next then chainAt cs chain none next else .error .stalled
  else if pending = some .child then .error (.fault .danglingChild)
  else if chain.compounds = [] then .error (.fault .emptySelector)
  else .ok chain
termination_by cs.length - i

/-- **The chain in a text, read by position.** -/
def readAt (text : String) : Except Mishap Chain := chainAt text.toList {} none 0

/-! ## Where the position stands -/

/-- **The position stands in front of the rest of a text.** -/
def Stands (cs : List Char) (i : Nat) (rest : List Char) : Prop := ∃ front, cs = front ++ rest ∧ i = front.length

/-- **Two readings agree**: they fail with the same fault, or they read the same and the position stands in front of
what the reader of lists leaves. -/
inductive Agree {α : Type} (cs : List Char) : Except Mishap (α × Nat) → Except Fault (α × List Char) → Prop
  | fault (fault : Fault) : Agree cs (.error (.fault fault)) (.error fault)
  | read (a : α) {j : Nat} {behind : List Char} (h : Stands cs j behind) : Agree cs (.ok (a, j)) (.ok (a, behind))

variable {cs body rest behind : List Char} {i j : Nat} {c : Char} {α β : Type}

theorem stands_zero (cs : List Char) : Stands cs 0 cs := ⟨[], rfl, rfl⟩

namespace Stands

theorem length (h : Stands cs i rest) : i + rest.length = cs.length := by
  obtain ⟨front, rfl, rfl⟩ := h
  exact List.length_append.symm

/-- The position moves over a piece of the text. -/
theorem skip (h : Stands cs i (body ++ rest)) : Stands cs (i + body.length) rest := by
  obtain ⟨front, rfl, rfl⟩ := h
  exact ⟨front ++ body, (List.append_assoc ..).symm, List.length_append.symm⟩

theorem next (h : Stands cs i (c :: rest)) : Stands cs (i + 1) rest := by
  have hsingle : Stands cs i ([c] ++ rest) := h
  exact hsingle.skip

theorem drop (h : Stands cs i rest) : cs.drop i = rest := by
  obtain ⟨front, rfl, rfl⟩ := h
  exact List.drop_left

theorem getElem? (h : Stands cs i rest) : cs[i]? = rest.head? := by
  rw [← h.drop, List.head?_drop]

theorem lt_length (h : Stands cs i (c :: rest)) : i < cs.length := by
  have hlength := h.length
  rw [List.length_cons] at hlength
  omega

theorem not_lt_length (h : Stands cs i []) : ¬i < cs.length := by
  have hlength := h.length
  rw [List.length_nil] at hlength
  omega

/-- Where less is left, the position is farther on. -/
theorem lt (h : Stands cs i (c :: rest)) (hj : Stands cs j behind) (hlength : behind.length ≤ rest.length) : i < j := by
  have hi := h.length
  have hj := hj.length
  rw [List.length_cons] at hi
  omega

theorem charAt (h : Stands cs i (c :: rest)) : charAt cs i = .ok c := by
  rw [Indexed.charAt, h.getElem?]
  rfl

/-- A piece of the text is cut out between the positions around it. -/
theorem slice (h : Stands cs i (body ++ rest)) : slice cs i (i + body.length) = .ok body := by
  have hlength := h.length
  rw [List.length_append] at hlength
  rw [Indexed.slice, if_pos (by omega), h.drop, Nat.add_sub_cancel_left, List.take_left]

/-- A character is searched in the rest of the text. -/
theorem offsetOf (h : Stands cs i rest) : offsetOf cs i c = .ok (rest.idxOf? c) := by
  have hlength := h.length
  rw [Indexed.offsetOf, if_pos (by omega), h.drop]

theorem pastIdent (h : Stands cs i rest) : pastIdent cs i = i + (rest.takeWhile isIdentChar).length := by
  -- on what is left of the text: the position moves with each character of the identifier
  induction rest generalizing i with
  | nil =>
    rw [Indexed.pastIdent, dif_neg h.not_lt_length]
    rfl
  | cons c rest ih =>
    have hlt := h.lt_length
    have hc : cs[i] = c := by
      have hget := h.getElem?
      rw [List.getElem?_eq_getElem hlt] at hget
      exact Option.some.inj hget
    rw [Indexed.pastIdent, dif_pos hlt, hc, List.takeWhile_cons]
    split
    · rw [ih h.next, List.length_cons]
      omega
    · rfl

/-- The identifier at the position is the one at the head of the rest, and the position moves past it. -/
theorem readIdentAt (h : Stands cs i rest) :
    ∃ j, readIdentAt cs i = .ok ((readIdent rest).1, j) ∧ Stands cs j (readIdent rest).2 := by
  rw [← List.takeWhile_append_dropWhile (p := isIdentChar) (l := rest)] at h
  refine ⟨i + (rest.takeWhile isIdentChar).length, ?_, h.skip⟩
  have hpast := h.pastIdent
  rw [List.takeWhile_append_dropWhile] at hpast
  rw [Indexed.readIdentAt, hpast, h.slice]
  rfl

end Stands

/-- **A search by index finds the place where the text is split.** -/
theorem idxOf?_eq (c : Char) (cs : List Char) :
    cs.idxOf? c = (Text.splitAt? c cs).map fun (before, _) => before.length := by
  induction cs with
  | nil => rfl
  | cons d rest ih =>
    rw [List.idxOf?_cons, Text.splitAt?]
    by_cases hd : d = c
    · rw [if_pos (beq_iff_eq.mpr hd), if_pos hd]
      rfl
    · rw [if_neg (mt beq_iff_eq.mp hd), if_neg hd, ih, Option.map_map, Option.map_map]
      rfl

/-- What stands between a bracket at the position and its closing counterpart. -/
theorem Stands.between {d : Char} (h : Stands cs i (d :: rest)) (hd : d ≠ c) :
    Text.splitAt? c rest = none ∧ Indexed.offsetOf cs i c = .ok none ∨
      ∃ body behind close, Text.splitAt? c rest = some (body, behind) ∧ Indexed.offsetOf cs i c = .ok (some close) ∧
        Indexed.slice cs (i + 1) (i + close) = .ok body ∧ Stands cs (i + close + 1) behind := by
  rw [h.offsetOf, List.idxOf?_cons, if_neg (mt beq_iff_eq.mp hd), idxOf?_eq]
  cases hsplit : Text.splitAt? c rest with
  | none => exact .inl ⟨rfl, rfl⟩
  | some parts =>
    obtain ⟨body, behind⟩ := parts
    have hnext := h.next
    rw [(Text.splitAt?_eq_some hsplit).1] at hnext
    refine .inr ⟨body, behind, body.length + 1, rfl, rfl, ?_, ?_⟩
    · rw [← hnext.slice]
      congr 1
      omega
    · have hskip := hnext.skip.next
      rwa [show i + 1 + body.length + 1 = i + (body.length + 1) + 1 by omega] at hskip

/-! ## One step by position is one step of the reader of lists -/

namespace Agree

variable {byPosition : Except Mishap (α × Nat)} {byList : Except Fault (α × List Char)} {a : α}

theorem eq_error {fault : Fault} (h : Agree cs byPosition (.error fault)) : byPosition = .error (.fault fault) := by
  cases h
  rfl

theorem eq_ok (h : Agree cs byPosition (.ok (a, behind))) : ∃ j, byPosition = .ok (a, j) ∧ Stands cs j behind := by
  cases h with
  | read _ h => exact ⟨_, rfl, h⟩

theorem map (f : α → β) (h : Agree cs byPosition byList) :
    Agree cs (byPosition.map fun (a, j) => (f a, j)) (byList.map fun (a, behind) => (f a, behind)) := by
  cases h with
  | fault fault => exact .fault fault
  | read a h => exact .read (f a) h

end Agree

theorem nameAt_agree (fault : Fault) (h : Stands cs i (c :: rest)) :
    Agree cs (nameAt fault cs i) (readName fault rest) := by
  obtain ⟨j, hread, hj⟩ := h.next.readIdentAt
  rw [nameAt, hread, readName]
  simp only [bind, Except.bind]
  cases hname : readIdent rest with
  | mk name behind =>
    rw [hname] at hj
    cases name with
    | nil => exact .fault fault
    | cons d name => exact .read _ hj

theorem attributeAt_agree (h : Stands cs i ('[' :: rest)) : Agree cs (attributeAt cs i) (readAttribute rest) := by
  rw [attributeAt, readAttribute]
  obtain ⟨hsplit, hoffset⟩ | ⟨body, behind, close, hsplit, hoffset, hbody, hbehind⟩ := h.between (c := ']') (by decide)
  · rw [hsplit, hoffset]
    exact .fault _
  · rw [hsplit, hoffset]
    simp only [bind, Except.bind, hbody]
    cases hcondition : readCondition body with
    | mk name value =>
      cases name with
      | nil => exact .fault _
      | cons d name => exact .read _ hbehind

theorem pseudoClassAt_agree (h : Stands cs i (c :: rest)) : Agree cs (pseudoClassAt cs i) (readPseudoClass rest) := by
  obtain ⟨j, hread, hj⟩ := h.next.readIdentAt
  rw [readPseudoClass]
  split
  · next name inner hname =>
    rw [hname] at hread hj
    rw [pseudoClassAt, hread]
    simp only [bind, Except.bind]
    rw [hj.getElem?, List.head?_cons]
    -- both look at the name before they look for the closing bracket
    by_cases hnth : name = "nth-of-type".toList
    · have hopen : ¬(name ≠ "nth-of-type".toList ∨ some '(' ≠ some '(') := not_or.mpr ⟨not_not.mpr hnth, fun h => h rfl⟩
      rw [if_neg hopen, if_neg (not_not.mpr hnth)]
      obtain ⟨hsplit, hoffset⟩ | ⟨body, behind, close, hsplit, hoffset, hbody, hbehind⟩ :=
        hj.between (c := ')') (by decide)
      · rw [hsplit, hoffset]
        exact .fault _
      · rw [hsplit, hoffset]
        dsimp only
        rw [hbody]
        dsimp only
        cases readPosition? body with
        | none => exact .fault _
        | some n => exact .read _ hbehind
    · rw [if_pos (.inl hnth), if_pos hnth]
      exact .fault _
  · next hnone =>
    have hclosed : (readIdent rest).2.head? ≠ some '(' := fun hopen => by
      obtain ⟨inner, hinner⟩ := List.head?_eq_some_iff.mp hopen
      exact hnone _ inner (Prod.ext rfl hinner)
    rw [pseudoClassAt, hread]
    simp only [bind, Except.bind]
    rw [hj.getElem?, if_pos (.inr hclosed)]
    exact .fault _

theorem qualifierAt_agree (h : Stands cs i (c :: rest)) : Agree cs (qualifierAt cs c i) (readQualifier c rest) := by
  rw [qualifierAt, readQualifier]
  by_cases hid : c = '#'
  · rw [if_pos hid, if_pos hid]
    exact (nameAt_agree .emptyId h).map Qualifier.id
  rw [if_neg hid, if_neg hid]
  by_cases hclass : c = '.'
  · rw [if_pos hclass, if_pos hclass]
    exact (nameAt_agree .emptyClass h).map Qualifier.className
  rw [if_neg hclass, if_neg hclass]
  by_cases hattribute : c = '['
  · rw [if_pos hattribute, if_pos hattribute]
    subst hattribute
    exact attributeAt_agree h
  · rw [if_neg hattribute, if_neg hattribute]
    exact pseudoClassAt_agree h

theorem qualifiersAt_nil (compound : Compound) (h : Stands cs i []) :
    qualifiersAt cs compound i = .ok (compound, i) := by
  rw [qualifiersAt, if_neg h.not_lt_length]

theorem qualifiersAt_cons (compound : Compound) (h : Stands cs i (c :: rest)) :
    qualifiersAt cs compound i =
      if isQualifierStart c then
        match qualifierAt cs c i with
        | .error mishap => .error mishap
        | .ok (q, next) => if i < next then qualifiersAt cs (compound.add q) next else .error .stalled
      else .ok (compound, i) := by
  rw [qualifiersAt, if_pos h.lt_length, h.charAt]

theorem qualifiersAt_agree (compound : Compound) (h : Stands cs i rest) :
    Agree cs (qualifiersAt cs compound i) (readQualifiers compound rest) := by
  fun_induction readQualifiers compound rest generalizing i with
  | case1 compound =>
    rw [qualifiersAt_nil compound h]
    exact .read compound h
  | case2 compound c rest hstart fault hread =>
    have hq := (hread ▸ qualifierAt_agree h).eq_error
    rw [qualifiersAt_cons compound h, if_pos hstart, hq]
    exact .fault fault
  | case3 compound c rest hstart q behind hread ih =>
    obtain ⟨j, hq, hj⟩ := (hread ▸ qualifierAt_agree h).eq_ok
    rw [qualifiersAt_cons compound h, if_pos hstart, hq]
    dsimp only
    -- a qualifier takes its first character at least, so the loop is not stalled
    rw [if_pos (h.lt hj (readQualifier_length_le hread))]
    exact ih hj
  | case4 compound c rest hstart =>
    rw [qualifiersAt_cons compound h, if_neg hstart]
    exact .read compound h

/-- A qualifier is read as the first of the qualifiers of a compound. -/
theorem readQualifiers_start {compound : Compound} (hstart : isQualifierStart c = true) :
    readQualifiers compound (c :: rest) =
      match readQualifier c rest with
      | .error fault => .error fault
      | .ok (q, behind) => readQualifiers (compound.add q) behind := by
  rw [readQualifiers, if_pos hstart]
  split
  · next fault hread => rw [hread]
  · next q behind hread => rw [hread]

/-! ## Compounds with conditions -/

theorem add_not_isEmpty (compound : Compound) (q : Qualifier) : (compound.add q).isEmpty = false := by
  cases q <;> simp [Compound.add, Compound.isEmpty]

/-- More qualifiers take no condition away. -/
theorem readQualifiers_not_isEmpty {compound result : Compound}
    (h : readQualifiers compound rest = .ok (result, behind)) (hempty : compound.isEmpty = false) :
    result.isEmpty = false := by
  fun_induction readQualifiers compound rest with
  | case1 compound =>
    cases h
    exact hempty
  | case2 => cases h
  | case3 compound c rest hstart q behind' hread ih => exact ih h (add_not_isEmpty compound q)
  | case4 compound c rest hstart =>
    cases h
    exact hempty

/-- **A compound that is read has a condition.** -/
theorem readCompound_not_isEmpty {compound : Compound} (h : readCompound c rest = .ok (compound, behind)) :
    compound.isEmpty = false := by
  unfold readCompound at h
  split at h
  · exact readQualifiers_not_isEmpty h rfl
  · split at h
    · exact readQualifiers_not_isEmpty h (by simp [Compound.isEmpty])
    · split at h
      · split at h
        · cases h
        · exact readQualifiers_not_isEmpty h (add_not_isEmpty _ _)
      · cases h

/-- Whether a character begins a compound. -/
def IsStart (c : Char) : Prop := c = '*' ∨ isIdentChar c = true ∨ isQualifierStart c = true

theorem compoundAt_agree (h : Stands cs i (c :: rest)) (hc : IsStart c) :
    Agree cs (compoundAt cs i) (readCompound c rest) := by
  rw [compoundAt, h.charAt, readCompound]
  simp only [bind, Except.bind]
  by_cases hstar : c = '*'
  · rw [if_pos hstar, if_pos hstar]
    exact qualifiersAt_agree _ h.next
  rw [if_neg hstar, if_neg hstar]
  by_cases hident : isIdentChar c = true
  · obtain ⟨j, hread, hj⟩ := h.readIdentAt
    rw [readIdent, List.takeWhile_cons_of_pos hident, List.dropWhile_cons_of_pos hident] at hread hj
    rw [if_pos hident, if_pos hident, hread]
    exact qualifiersAt_agree _ hj
  · have hstart := (hc.resolve_left hstar).resolve_left hident
    have hagree := qualifiersAt_agree {} h
    rw [readQualifiers_start hstart] at hagree
    rw [if_neg hident, if_neg hident, if_pos hstart]
    exact hagree

theorem not_isStart_iff : ¬IsStart c ↔ c ≠ '*' ∧ ¬isIdentChar c = true ∧ ¬isQualifierStart c = true := by
  simp only [IsStart, not_or, ne_eq]

/-- A character that begins no compound is left where it stands. -/
theorem compoundAt_of_not_isStart (h : Stands cs i (c :: rest)) (hc : ¬IsStart c) : compoundAt cs i = .ok ({}, i) := by
  obtain ⟨hstar, hident, hstart⟩ := not_isStart_iff.mp hc
  rw [compoundAt, h.charAt]
  simp only [bind, Except.bind]
  rw [if_neg hstar, if_neg hident, qualifiersAt_cons _ h, if_neg hstart]

/-- **A compound is read where a condition is**: one that is left empty is the fault of its first character. -/
theorem conditionsAt_agree (h : Stands cs i (c :: rest)) : Agree cs (conditionsAt cs i) (readCompound c rest) := by
  rw [conditionsAt]
  simp only [bind, Except.bind]
  by_cases hc : IsStart c
  · have hagree := compoundAt_agree h hc
    cases hread : readCompound c rest with
    | error fault =>
      rw [hread] at hagree
      rw [hagree.eq_error]
      exact .fault fault
    | ok result =>
      rw [hread] at hagree
      obtain ⟨j, hcompound, hj⟩ := hagree.eq_ok
      rw [hcompound]
      dsimp only
      rw [readCompound_not_isEmpty hread, if_neg Bool.false_ne_true]
      exact .read _ hj
  · obtain ⟨hstar, hident, hstart⟩ := not_isStart_iff.mp hc
    rw [compoundAt_of_not_isStart h hc, readCompound, if_neg hstar, if_neg hident, if_neg hstart]
    exact .fault _

/-! ## Chains -/

end Indexed

/-- The compounds and the combinators of a chain. -/
def Complex.chain (complex : Complex) : Chain := ⟨complex.compounds, complex.combinators⟩

namespace Indexed

/-- What is read so far. -/
def soFar (chain : Option Complex) : Chain := chain.elim {} Complex.chain

/-- The outcome of a reading by position for one of the reader of lists. -/
def outcome : Except Fault Complex → Except Mishap Chain
  | .error fault => .error (.fault fault)
  | .ok complex => .ok complex.chain

theorem soFar_compounds_eq_nil_iff (chain : Option Complex) : (soFar chain).compounds = [] ↔ chain = none := by
  cases chain with
  | none => exact iff_of_true rfl rfl
  | some complex =>
    have hlength := complex.length_compounds
    refine iff_of_false (fun hnil => ?_) (Option.some_ne_none complex)
    have hcompounds : complex.compounds = [] := hnil
    rw [hcompounds] at hlength
    cases hlength

theorem soFar_some_ne_nil (complex : Complex) : (soFar (some complex)).compounds ≠ [] :=
  mt (soFar_compounds_eq_nil_iff _).mp (Option.some_ne_none complex)

/-- **A combinator waits only behind a compound**, so a compound takes its place behind the combinator that joins it. -/
theorem push_soFar {chain : Option Complex} {pending : Option Combinator} (compound : Compound)
    (hpending : chain = none → pending = none) :
    push (soFar chain) pending compound = outcome (joined chain pending compound) := by
  cases chain with
  | none =>
    rw [hpending rfl]
    rfl
  | some complex =>
    cases pending with
    | none =>
      rw [push, if_pos (soFar_some_ne_nil complex)]
      rfl
    | some combinator => rfl

section

variable {chain : Chain} {pending : Option Combinator}

theorem chainAt_nil (h : Stands cs i []) :
    chainAt cs chain pending i =
      if pending = some .child then .error (.fault .danglingChild)
      else if chain.compounds = [] then .error (.fault .emptySelector)
      else .ok chain := by
  rw [chainAt, if_neg h.not_lt_length]

theorem chainAt_cons (h : Stands cs i (c :: rest)) :
    chainAt cs chain pending i =
      if Text.isBlank c then
        chainAt cs chain (if chain.compounds ≠ [] ∧ pending = none then some .descendant else pending) (i + 1)
      else if c = '>' then
        if chain.compounds = [] ∨ pending = some .child then .error (.fault .danglingChild)
        else chainAt cs chain (some .child) (i + 1)
      else
        match conditionsAt cs i with
        | .error mishap => .error mishap
        | .ok (compound, next) =>
          match push chain pending compound with
          | .error mishap => .error mishap
          | .ok chain => if i < next then chainAt cs chain none next else .error .stalled := by
  rw [chainAt, if_pos h.lt_length, h.charAt]

/-- A compound that is read is pushed, and the loop goes on behind it. -/
theorem chainAt_compound {compound : Compound} (h : Stands cs i (c :: rest)) (hblank : ¬Text.isBlank c = true)
    (hchild : c ≠ '>') (hread : readCompound c rest = .ok (compound, behind)) :
    ∃ j, Stands cs j behind ∧
      chainAt cs chain pending i =
        match push chain pending compound with
        | .error mishap => .error mishap
        | .ok chain => chainAt cs chain none j := by
  have hagree := conditionsAt_agree h
  rw [hread] at hagree
  obtain ⟨j, hcompound, hj⟩ := hagree.eq_ok
  refine ⟨j, hj, ?_⟩
  rw [chainAt_cons h, if_neg hblank, if_neg hchild, hcompound]
  -- a compound takes its first character at least, so the loop is not stalled
  simp only [if_pos (h.lt hj (readCompound_length_le hread))]

end

/-- **The chain by position is the chain of the reader of lists**, from wherever the position stands. -/
theorem chainAt_eq {chain : Option Complex} {pending : Option Combinator} (h : Stands cs i rest)
    (hpending : chain = none → pending = none) :
    chainAt cs (soFar chain) pending i = outcome (readComplex chain pending rest) := by
  fun_induction readComplex chain pending rest generalizing i with
  | case1 chain =>
    rw [chainAt_nil h, if_pos rfl]
    rfl
  | case2 pending hchild =>
    rw [chainAt_nil h, if_neg hchild]
    rfl
  | case3 pending hchild complex =>
    rw [chainAt_nil h, if_neg hchild, if_neg (soFar_some_ne_nil complex)]
    rfl
  | case4 chain pending c rest hblank ih =>
    have hsome : ((soFar chain).compounds ≠ [] ∧ pending = none) ↔ (chain.isSome = true ∧ pending = none) := by
      rw [ne_eq, soFar_compounds_eq_nil_iff, Option.isSome_iff_ne_none]
    rw [chainAt_cons h, if_pos hblank, if_congr hsome rfl rfl]
    refine ih h.next fun hnone => ?_
    -- a blank in front of the first compound is no combinator
    rw [hnone, Option.isSome_none, dif_neg fun hsome => Bool.false_ne_true hsome.1]
    exact hpending hnone
  | case5 chain pending rest hdangling hblank =>
    rw [chainAt_cons h, if_neg hblank, if_pos rfl, if_pos (hdangling.imp_left (soFar_compounds_eq_nil_iff chain).mpr)]
    rfl
  | case6 chain pending rest hdangling hblank ih =>
    have hsound : ¬((soFar chain).compounds = [] ∨ pending = some .child) :=
      mt (Or.imp_left (soFar_compounds_eq_nil_iff chain).mp) hdangling
    rw [chainAt_cons h, if_neg hblank, if_pos rfl, if_neg hsound]
    exact ih h.next fun hnone => absurd (.inl hnone) hdangling
  | case7 chain pending c rest hblank hchild fault hread =>
    have hagree := conditionsAt_agree h
    rw [hread] at hagree
    rw [chainAt_cons h, if_neg hblank, if_neg hchild, hagree.eq_error]
    rfl
  | case8 chain pending c rest hblank hchild compound behind hread fault hjoined =>
    obtain ⟨j, hj, hchain⟩ := chainAt_compound h hblank hchild hread
    rw [hchain, push_soFar compound hpending, hjoined]
    rfl
  | case9 chain pending c rest hblank hchild compound behind hread complex hjoined ih =>
    obtain ⟨j, hj, hchain⟩ := chainAt_compound h hblank hchild hread
    rw [hchain, push_soFar compound hpending, hjoined]
    -- behind a compound no combinator waits
    exact ih hj fun hnone => absurd hnone (Option.some_ne_none complex)

/-- **Reading by position is reading from lists**, with a fault or a chain. -/
theorem readAt_eq (text : String) : readAt text = outcome (readComplex none none text.toList) :=
  @chainAt_eq _ _ _ none none (stands_zero _) fun _ => rfl

theorem exists_stands (hc : cs[i]? = some c) : ∃ rest, Stands cs i (c :: rest) := by
  obtain ⟨hlt, rfl⟩ := List.getElem?_eq_some_iff.mp hc
  refine ⟨cs.drop (i + 1), cs.take i, ?_, (List.length_take_of_le hlt.le).symm⟩
  rw [← List.drop_eq_getElem_cons hlt, List.take_append_drop]

theorem Agree.advances {byPosition : Except Mishap (α × Nat)} {byList : Except Fault (α × List Char)} {a : α}
    (hagree : Agree cs byPosition byList) (h : Stands cs i (c :: rest)) (hread : byPosition = .ok (a, j))
    (hlength : ∀ behind, byList = .ok (a, behind) → behind.length ≤ rest.length) : i < j ∧ j ≤ cs.length := by
  cases hagree with
  | fault => cases hread
  | read _ hj =>
    cases hread
    exact ⟨h.lt hj (hlength _ rfl), by rw [← hj.length]; exact Nat.le_add_right ..⟩

/-- A qualifier takes a character at least, and no more than there are. -/
theorem qualifierAt_advances {q : Qualifier} (hc : cs[i]? = some c) (h : qualifierAt cs c i = .ok (q, j)) :
    i < j ∧ j ≤ cs.length := by
  obtain ⟨rest, hi⟩ := exists_stands hc
  exact (qualifierAt_agree hi).advances hi h fun behind hread => readQualifier_length_le hread

/-- A compound takes a character at least, and no more than there are. -/
theorem conditionsAt_advances {compound : Compound} (h : conditionsAt cs i = .ok (compound, j)) :
    i < j ∧ j ≤ cs.length := by
  cases hc : cs[i]? with
  | none =>
    rw [conditionsAt, compoundAt, charAt, hc] at h
    cases h
  | some c =>
    obtain ⟨rest, hi⟩ := exists_stands hc
    exact (conditionsAt_agree hi).advances hi h fun behind hread => readCompound_length_le hread

/-- The chain read so far has no compound without a condition, and so it is in the end. -/
theorem readComplex_conditions {chain : Option Complex} {pending : Option Combinator} {complex : Complex}
    (h : readComplex chain pending rest = .ok complex)
    (hchain : ∀ compound ∈ (soFar chain).compounds, compound.isEmpty = false) :
    ∀ compound ∈ complex.compounds, compound.isEmpty = false := by
  fun_induction readComplex chain pending rest with
  | case1 => cases h
  | case2 => cases h
  | case3 pending hchild complex' =>
    cases h
    exact hchain
  | case4 chain pending c rest hblank ih => exact ih h hchain
  | case5 => cases h
  | case6 chain pending rest hdangling hblank ih => exact ih h hchain
  | case7 => cases h
  | case8 => cases h
  | case9 chain pending c rest hblank hchild compound behind hread complex' hjoined ih =>
    refine ih h ?_
    have hcompounds : complex'.compounds = (soFar chain).compounds ++ [compound] := by
      unfold joined at hjoined
      split at hjoined <;> cases hjoined <;> rfl
    intro compound' hmem
    rw [soFar, Option.elim_some, Complex.chain, hcompounds, List.mem_append, List.mem_singleton] at hmem
    rcases hmem with hmem | rfl
    · exact hchain compound' hmem
    · exact readCompound_not_isEmpty hread

end Indexed

/-! ## Matching by index -/

namespace Chain

/-- Whether the chain up to an index matches an element; nothing where an index is out of range. -/
def matchesAt? (chain : Chain) (arena : Arena) (index x : Nat) : Option Bool :=
  match chain.compounds[index]? with
  | none => none
  | some compound =>
    if compound.isMatch arena x = false then some false
    else
      match index with
      | 0 => some true
      | below + 1 =>
        match chain.combinators[below]? with
        | none => none
        | some .child =>
          match arena.parent? x with
          | none => some false
          | some p => chain.matchesAt? arena below p
        | some .descendant => (arena.ancestors x).anyM fun p => chain.matchesAt? arena below p
termination_by index

/-- **Whether a chain matches an element, by index from its last compound on.** -/
def isMatch? (chain : Chain) (arena : Arena) (x : Nat) : Option Bool :=
  if chain.compounds = [] then none else chain.matchesAt? arena (chain.compounds.length - 1) x

/-- **A chain is well formed**: it has a compound, every compound has a condition, and there is one compound more than
combinators. -/
structure WellFormed (chain : Chain) : Prop where
  compounds_ne_nil : chain.compounds ≠ []
  conditions : ∀ compound ∈ chain.compounds, compound.isEmpty = false
  length_compounds : chain.compounds.length = chain.combinators.length + 1

end Chain

namespace Indexed

variable {arena : Arena}

/-- An entry of a list is the entry of a longer one. -/
theorem getElem?_of_prefix {β : Type} {l l' : List β} {i : Nat} {b : β} (h : l <+: l') (hb : l[i]? = some b) :
    l'[i]? = some b := by
  obtain ⟨more, rfl⟩ := h
  rw [List.getElem?_append_left (List.getElem?_eq_some_iff.mp hb).1, hb]

/-- **The part of a chain up to an index is matched as a chain of its own**, and no index is out of range. -/
theorem matchesAt?_eq (complex : Complex) {chain : Chain} (hcompounds : complex.compounds <+: chain.compounds)
    (hcombinators : complex.combinators <+: chain.combinators) (x : Nat) :
    chain.matchesAt? arena complex.combinators.length x = some (complex.isMatch arena x) := by
  induction complex generalizing x with
  | compound c =>
    have hc : chain.compounds[0]? = some c := getElem?_of_prefix hcompounds rfl
    rw [Chain.matchesAt?.eq_def]
    dsimp only [Complex.combinators, List.length_nil]
    rw [hc]
    dsimp only [Complex.isMatch]
    cases c.isMatch arena x <;> rfl
  | join left combinator right ih =>
    -- the last compound stands one place behind the last combinator
    have hlength := left.length_compounds
    have hright : chain.compounds[left.combinators.length + 1]? = some right :=
      getElem?_of_prefix hcompounds (by rw [Complex.compounds, ← hlength, List.getElem?_concat_length])
    have hcombinator : chain.combinators[left.combinators.length]? = some combinator :=
      getElem?_of_prefix hcombinators (by rw [Complex.combinators, List.getElem?_concat_length])
    have hleft := ih ((List.prefix_append ..).trans hcompounds) ((List.prefix_append ..).trans hcombinators)
    rw [Chain.matchesAt?.eq_def, Complex.combinators, List.length_append, List.length_singleton]
    dsimp only
    rw [hright, hcombinator]
    dsimp only
    cases hmatch : right.isMatch arena x with
    | false =>
      rw [if_pos rfl]
      cases combinator <;> rw [Complex.isMatch, hmatch, Bool.false_and]
    | true =>
      rw [if_neg Bool.true_eq_false.mp]
      cases combinator with
      | child =>
        dsimp only
        rw [Complex.isMatch, hmatch, Bool.true_and]
        cases arena.parent? x with
        | none => rfl
        | some p => exact hleft p
      | descendant =>
        dsimp only
        rw [Complex.isMatch, hmatch, Bool.true_and, funext hleft]
        exact List.anyM_pure

/-- **A chain is matched by index wherever it is matched at all.** -/
theorem isMatch?_chain (complex : Complex) (arena : Arena) (x : Nat) :
    complex.chain.isMatch? arena x = some (complex.isMatch arena x) := by
  have hlength := complex.length_compounds
  have hne : complex.compounds ≠ [] := soFar_some_ne_nil complex
  unfold Chain.isMatch? Complex.chain
  dsimp only
  rw [if_neg hne, hlength, Nat.add_sub_cancel]
  exact matchesAt?_eq complex (List.prefix_refl _) (List.prefix_refl _) x

/-- **A chain that is read is well formed.** -/
theorem exists_of_readAt {text : String} {chain : Chain} (h : readAt text = .ok chain) :
    chain.WellFormed ∧ ∃ complex, readComplex none none text.toList = .ok complex ∧ chain = complex.chain := by
  rw [readAt_eq] at h
  cases hread : readComplex none none text.toList with
  | error fault =>
    rw [hread] at h
    cases h
  | ok complex =>
    rw [hread] at h
    cases h
    exact ⟨⟨soFar_some_ne_nil complex, readComplex_conditions hread (by simp [soFar]), complex.length_compounds⟩,
      complex, rfl, rfl⟩

end Indexed

open Indexed

/-- **Selectors are read and matched within the bounds of their lists.** Every text has an outcome when a chain is read
by position: a fault, or a chain, and it is the outcome of the reader of lists. No character, slice or search lies
outside of the text, and every qualifier and every compound that is read takes a character at least. A chain that is
read has a compound, has no compound without a condition, and has one compound more than combinators; so the index into
either list is in range in every tree and at every element. The alternatives of a selector are chains that are read like
this. -/
theorem indexed_within_bounds (text : String) :
    readAt text = outcome (readComplex none none text.toList) ∧
    readAt text ≠ .error .outOfRange ∧ readAt text ≠ .error .stalled ∧
    (∀ i c q j, text.toList[i]? = some c → qualifierAt text.toList c i = .ok (q, j) →
      i < j ∧ j ≤ text.toList.length) ∧
    (∀ i compound j, conditionsAt text.toList i = .ok (compound, j) → i < j ∧ j ≤ text.toList.length) ∧
    (∀ chain, readAt text = .ok chain →
      chain.WellFormed ∧ ∀ arena x, ∃ answer, chain.isMatch? arena x = some answer) ∧
    ∀ selector, parse text = .ok selector →
      List.Forall₂ (fun complex piece => readAt (String.ofList (Text.trimChars piece)) = .ok complex.chain ∧
        complex.chain.WellFormed) selector.alternatives (splitAlternatives 0 text.toList) ∧
      ∀ arena x, (selector.alternatives.anyM fun complex => complex.chain.isMatch? arena x) =
        some (selector.isMatch arena x) := by
  have hfault : ∀ mishap, readAt text = .error mishap → ∃ fault, mishap = .fault fault := by
    intro mishap h
    rw [readAt_eq] at h
    cases hread : readComplex none none text.toList with
    | error fault =>
      rw [hread] at h
      cases h
      exact ⟨fault, rfl⟩
    | ok complex =>
      rw [hread] at h
      cases h
  refine ⟨readAt_eq text, fun h => ?_, fun h => ?_, fun i c q j => qualifierAt_advances,
    fun i compound j => conditionsAt_advances, fun chain h => ?_, fun selector h => ⟨?_, fun arena x => ?_⟩⟩
  · obtain ⟨fault, ⟨⟩⟩ := hfault _ h
  · obtain ⟨fault, ⟨⟩⟩ := hfault _ h
  · obtain ⟨hwellFormed, complex, -, rfl⟩ := exists_of_readAt h
    exact ⟨hwellFormed, fun arena x => ⟨_, isMatch?_chain complex arena x⟩⟩
  · refine (readAlternatives_eq_ok_iff.mp (parse_eq_ok.mp h)).imp fun complex piece hpiece => ?_
    have hread : readAt (String.ofList (Text.trimChars piece)) = .ok complex.chain := by
      rw [readAt_eq, String.toList_ofList]
      exact congrArg outcome hpiece
    exact ⟨hread, (exists_of_readAt hread).1⟩
  · rw [funext fun complex => isMatch?_chain complex arena x]
    exact List.anyM_pure

/-- An item and a link in it, by a title with a blank in quotes. -/
def titledLink : Complex :=
  .join (.compound { tag := some "li" }) .child { tag := some "a", attributes := [("title", some "a b")] }

/-- The position moves past the bracket and stops at the end of the text. -/
theorem indexed_within_bounds_bracket :
    readAt "li > a[title='a b']" = .ok titledLink.chain ∧ titledLink.chain.WellFormed ∧
      parse "li > a[title='a b']" = .ok ⟨[titledLink]⟩ ∧
      (∃ q, qualifierAt "li > a[title='a b']".toList '[' 6 = .ok (q, 19) ∧ 19 ≤ "li > a[title='a b']".toList.length) ∧
      (∃ compound, conditionsAt "li > a[title='a b']".toList 5 = .ok (compound, 19) ∧ 5 < 19) ∧
      titledLink.chain.isMatch? nestedList 4 = some (Selector.isMatch ⟨[titledLink]⟩ nestedList 4) := by
  have hread : readAt "li > a[title='a b']" = .ok titledLink.chain := by decide +kernel
  have hparse : parse "li > a[title='a b']" = .ok ⟨[titledLink]⟩ := by decide +kernel
  have hbracket : qualifierAt "li > a[title='a b']".toList '[' 6 = .ok (.attr "title" (some "a b"), 19) := by
    decide +kernel
  have hlink : conditionsAt "li > a[title='a b']".toList 5 =
      .ok ({ tag := some "a", attributes := [("title", some "a b")] }, 19) := by decide +kernel
  obtain ⟨-, -, -, hqualifiers, hconditions, hchains, halternatives⟩ := indexed_within_bounds "li > a[title='a b']"
  have hmatch := (halternatives _ hparse).2 nestedList 4
  obtain ⟨answer, hanswer⟩ := (hchains _ hread).2 nestedList 4
  refine ⟨hread, (hchains _ hread).1, hparse, ⟨_, hbracket, ?_⟩, ⟨_, hlink, (hconditions 5 _ 19 hlink).1⟩, ?_⟩
  · exact (hqualifiers 6 '[' _ 19 (by decide +kernel) hbracket).2
  · rw [← hmatch, List.anyM, hanswer]
    cases answer <;> rfl

end Databind.Selector
