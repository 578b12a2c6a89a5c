import Databind.Proofs.Grammar

/-!
# `Proofs.Parsing` — the parser accepts exactly its grammar

Two halves. What the parser gives back it has read off the head of the tokens, by the grammar and within both limits
(`reads_of_climb`). And a phrase of the grammar that stands at the head of the tokens is read to its end, or is refused
as too deep if it exceeds a limit (`climb_of_derives`).

The parser reads a chain of operators of one level in a loop, where the grammar nests to the left. The first half
therefore carries along the level of what has been read so far: whatever operator comes next is no tighter. The second
half says that reading a phrase is the same as going on behind it with its tree in hand.

## Main definitions

* `StopsAt` — the tokens at which a phrase of a level ends.
* `Reads` — a phrase has been read.
-/

namespace Databind.Expression

/-- The tokens go on with nothing that could belong to a phrase of a level that tightens `level`: no binary operator
tighter than it, and no `!`. -/
def StopsAt (level : Nat) : List Token → Prop
  | .op (.binary op) :: _ => op.level ≤ level
  | .op .not :: _ => False
  | _ => True

theorem StopsAt.mono {level level' : Nat} {tokens : List Token} (h : StopsAt level tokens) (hle : level ≤ level') :
    StopsAt level' tokens := by
  unfold StopsAt at *
  split at h
  · exact Nat.le_trans h hle
  · exact h
  · trivial

/-- Where a phrase does not end, an operator follows that is tight enough, or `!`. -/
theorem stopsAt_or (level : Nat) (tokens : List Token) :
    StopsAt level tokens ∨ (∃ op rest, tokens = .op (.binary op) :: rest ∧ level < op.level) ∨
      ∃ rest, tokens = .op .not :: rest := by
  unfold StopsAt
  split
  · next op rest => exact (Nat.lt_or_ge level op.level).elim (fun h => .inr (.inl ⟨op, rest, rfl, h⟩)) .inl
  · next rest => exact .inr (.inr ⟨rest, rfl⟩)
  · exact .inl trivial

/-- **A phrase of a level has been read off the head of some tokens**, within both limits. -/
structure Reads (nest level : Nat) (tokens : List Token) (tree : Tree) (rest : List Token) : Prop where
  phrase : ∃ used nesting, tokens = used ++ rest ∧ Derives level used tree nesting ∧ nesting ≤ nest
  height : tree.height ≤ maxNesting

namespace Reads

variable {nest level level' : Nat} {tokens rest rest' : List Token} {tree a b : Tree}

/-- One level is within the limit. -/
theorem height_leaf : 1 ≤ maxNesting := by decide

theorem number (n : Number) (rest : List Token) : Reads nest 10 (.number n :: rest) (.number n) rest :=
  ⟨⟨[.number n], 0, rfl, .number, Nat.zero_le _⟩, height_leaf⟩

theorem field (name : String) (rest : List Token) : Reads nest 10 (.field name :: rest) (.field name) rest :=
  ⟨⟨[.field name], 0, rfl, .field, Nat.zero_le _⟩, height_leaf⟩

theorem loosen (h : Reads nest level' tokens tree rest) (hle : level ≤ level') : Reads nest level tokens tree rest := by
  obtain ⟨used, nesting, heq, hderives, hnest⟩ := h.phrase
  exact ⟨⟨used, nesting, heq, hderives.loosen hle, hnest⟩, h.height⟩

/-- A phrase in parentheses. -/
theorem group (h : Reads nest 1 tokens tree (.closing :: rest)) : Reads (nest + 1) 10 (.opening :: tokens) tree rest := by
  obtain ⟨used, nesting, rfl, hderives, hnest⟩ := h.phrase
  refine ⟨⟨.opening :: (used ++ [.closing]), nesting + 1, ?_, hderives.group, Nat.succ_le_succ hnest⟩, h.height⟩
  rw [List.cons_append, List.append_assoc, List.singleton_append]

/-- A phrase behind a prefix operator. -/
theorem unary {operator : Operator} {op : UnaryOp} (hop : (operator, op) ∈ unaryOperators)
    (h : Reads nest 9 tokens tree rest) (hheight : (Tree.unary op tree).height ≤ maxNesting) :
    Reads (nest + 1) 9 (.op operator :: tokens) (.unary op tree) rest := by
  obtain ⟨used, nesting, rfl, hderives, hnest⟩ := h.phrase
  exact ⟨⟨.op operator :: used, nesting + 1, rfl, hderives.unary hop, Nat.succ_le_succ hnest⟩, hheight⟩

/-- Two phrases around a binary operator. -/
theorem binary {op : BinaryOp} (hleft : Reads nest op.level tokens a (.op (.binary op) :: rest))
    (hright : Reads nest (op.level + 1) rest b rest') (hheight : (Tree.binary op a b).height ≤ maxNesting) :
    Reads nest op.level tokens (.binary op a b) rest' := by
  obtain ⟨left, n, rfl, hderivesLeft, hn⟩ := hleft.phrase
  obtain ⟨right, k, rfl, hderivesRight, hk⟩ := hright.phrase
  have hderives := Derives.binary (mem_operatorsAt.mpr rfl) hderivesLeft hderivesRight
  refine ⟨⟨left ++ .op (.binary op) :: right, max n k, ?_, hderives, Nat.max_le.mpr ⟨hn, hk⟩⟩, hheight⟩
  rw [List.append_assoc, List.cons_append]

/-- Reading a phrase uses up tokens. -/
theorem length_lt (h : Reads nest level tokens tree rest) : rest.length < tokens.length := by
  obtain ⟨used, nesting, rfl, hderives, -⟩ := h.phrase
  rw [List.length_append]
  exact Nat.lt_add_of_pos_left hderives.length_pos

end Reads

/-! ## The equations of the parser -/

section

variable {nest level : Nat} {token : Token} {op : UnaryOp} {rest : List Token}

theorem operand_nil (nest : Nat) : operand nest [] = .error (.malformed .unexpectedEnd) := by
  rw [operand]

theorem operand_unary_zero (h : token.unary? = some op) : operand 0 (token :: rest) = .error .tooDeep := by
  rw [operand.eq_def]
  simp only [h]

theorem operand_unary_succ (h : token.unary? = some op) :
    operand (nest + 1) (token :: rest) = (do
      let (tree, rest) ← operand nest rest
      let tree ← (Tree.unary op tree).checked
      .ok (tree, rest)) := by
  rw [operand.eq_def]
  simp only [h]

theorem operand_number (n : Number) : operand nest (.number n :: rest) = .ok (.number n, rest) := by
  rw [operand.eq_def]
  rfl

theorem operand_field (name : String) : operand nest (.field name :: rest) = .ok (.field name, rest) := by
  rw [operand.eq_def]
  rfl

theorem operand_closing : operand nest (.closing :: rest) = .error (.malformed .unexpectedClosing) := by
  rw [operand.eq_def]
  rfl

theorem operand_op {operator : Operator} (h : (Token.op operator).unary? = none) :
    operand nest (.op operator :: rest) = .error (.malformed (.unexpectedOperator operator)) := by
  rw [operand.eq_def]
  simp only [h]

theorem operand_opening_zero : operand 0 (.opening :: rest) = .error .tooDeep := by
  rw [operand.eq_def]
  rfl

theorem operand_opening_succ :
    operand (nest + 1) (.opening :: rest) = (do
      let (tree, rest) ← climb nest 0 rest
      match rest with
      | .closing :: rest => .ok (tree, rest)
      | _ => .error (.malformed .missingClosing)) := by
  rw [operand.eq_def]
  rfl

end

/-! ## What the parser reads -/

theorem bind_eq_ok {ε α β : Type} {x : Except ε α} {f : α → Except ε β} {b : β} (h : x >>= f = .ok b) :
    ∃ a, x = .ok a ∧ f a = .ok b := by
  cases x with
  | ok a => exact ⟨a, rfl, h⟩
  | error e => cases h

theorem checked_eq_ok {tree tree' : Tree} (h : tree.checked = .ok tree') :
    tree' = tree ∧ tree.height ≤ maxNesting := by
  unfold Tree.checked at h
  split at h
  · next hle => cases h; exact ⟨rfl, hle⟩
  · cases h

/-- **What the parser gives back it has read**, and it stops only where the phrase ends. -/
theorem reads_of_parse :
    (∀ nest tokens tree rest, operand nest tokens = .ok (tree, rest) → Reads nest 9 tokens tree rest) ∧
    (∀ nest level tokens, level ≤ 8 → ∀ tree rest, climb nest level tokens = .ok (tree, rest) →
      Reads nest (level + 1) tokens tree rest ∧ StopsAt level rest) ∧
    (∀ nest level count left behind, level ≤ 8 → behind.length ≤ count →
      ∀ reached tokens, level < reached → Reads nest reached tokens left behind →
        (∀ op rest, behind = .op (.binary op) :: rest → op.level ≤ reached) →
        ∀ tree rest, extend nest level count left behind = .ok (tree, rest) →
          Reads nest (level + 1) tokens tree rest ∧ StopsAt level rest) := by
  apply operand.mutual_induct
  case case1 => -- no tokens
    intro nest tree rest h
    rw [operand_nil] at h
    cases h
  case case2 => -- a prefix operator at the limit
    intro token tokens op hop tree rest h
    rw [operand_unary_zero hop] at h
    cases h
  case case3 => -- a prefix operator
    intro token tokens op hop nest ih tree rest h
    rw [operand_unary_succ hop] at h
    obtain ⟨⟨inner, rest'⟩, hinner, h⟩ := bind_eq_ok h
    obtain ⟨tree', htree, h⟩ := bind_eq_ok h
    obtain ⟨rfl, hheight⟩ := checked_eq_ok htree
    cases h
    obtain ⟨operator, rfl, hmem⟩ := exists_of_unary? hop
    exact (ih _ _ hinner).unary hmem hheight
  case case4 => -- a number
    intro nest tokens n _ tree rest h
    rw [operand_number] at h
    cases h
    exact (Reads.number n _).loosen (by decide)
  case case5 => -- a field
    intro nest tokens name _ tree rest h
    rw [operand_field] at h
    cases h
    exact (Reads.field name _).loosen (by decide)
  case case6 => -- a closing parenthesis
    intro nest tokens _ tree rest h
    rw [operand_closing] at h
    cases h
  case case7 => -- an operator that is no prefix operator
    intro nest tokens operator hop tree rest h
    rw [operand_op hop] at h
    cases h
  case case8 => -- an opening parenthesis at the limit
    intro tokens _ tree rest h
    rw [operand_opening_zero] at h
    cases h
  case case9 => -- an opening parenthesis
    intro tokens nest _ ih tree rest h
    rw [operand_opening_succ] at h
    obtain ⟨⟨inner, rest'⟩, hinner, h⟩ := bind_eq_ok h
    dsimp only at h
    split at h
    · cases h
      exact (ih (by decide) _ _ hinner).1.group.loosen (by decide)
    · cases h
  case case10 => -- an operand and what follows it
    intro nest level tokens ihoperand ihextend hlevel tree rest h
    rw [climb] at h
    obtain ⟨⟨left, behind⟩, hleft, h⟩ := bind_eq_ok h
    exact ihextend left behind hlevel (Nat.le_refl _) 9 tokens (Nat.lt_succ_of_le hlevel) (ihoperand _ _ hleft)
      (fun op _ _ => Nat.le_succ_of_le op.level_le) tree rest h
  case case11 => -- an operator that is not tight enough
    intro nest level left count op behind hloose _ _ reached tokens hreached hreads _ tree rest h
    rw [extend, dif_pos hloose] at h
    cases h
    exact ⟨hreads.loosen hreached, hloose⟩
  case case12 => -- an operator that is
    intro nest level left count op behind htight ihclimb ihextend hlevel hcount reached tokens hreached hreads hnext
      tree rest h
    rw [extend, dif_neg htight] at h
    obtain ⟨⟨right, rest'⟩, hright, h⟩ := bind_eq_ok h
    obtain ⟨tree', htree, h⟩ := bind_eq_ok h
    obtain ⟨rfl, hheight⟩ := checked_eq_ok htree
    obtain ⟨hreadsRight, hstops⟩ := ihclimb op.level_le _ _ hright
    have hreadsLeft := hreads.loosen (hnext op behind rfl)
    have hlength := hreadsRight.length_lt
    rw [List.length_cons] at hcount
    -- what follows the right operand is no tighter than this operator, so the loop stays on one level
    refine ihextend rest' _ hlevel (by omega) op.level tokens (Nat.lt_of_not_le htight)
      (hreadsLeft.binary hreadsRight hheight) ?_ tree rest h
    rintro op' behind' rfl
    exact hstops
  case case13 => -- `!` in the place of a binary operator
    intro nest level left count behind _ _ reached tokens _ _ _ tree rest h
    rw [extend] at h
    cases h
  case case14 => -- no operator
    intro nest level count left behind hbinary hnot _ hcount reached tokens hreached hreads _ tree rest h
    -- the count is no reason to stop: there is a turn for every token
    have hstops : StopsAt level behind := by
      rcases stopsAt_or level behind with hstops | hoperator
      · exact hstops
      · obtain ⟨count, rfl⟩ : ∃ n, count = n + 1 := by
          apply Nat.exists_eq_succ_of_ne_zero
          intro hzero
          obtain ⟨op, rest, rfl, -⟩ | ⟨rest, rfl⟩ := hoperator <;> simp [hzero] at hcount
        obtain ⟨op, rest, rfl, -⟩ | ⟨rest, rfl⟩ := hoperator
        · exact (hbinary _ _ _ rfl rfl).elim
        · exact (hnot _ _ rfl rfl).elim
    rw [extend] at h
    · cases h
      exact ⟨hreads.loosen hreached, hstops⟩
    · exact hbinary
    · exact hnot

/-- An expression that the parser gives back has been read to where it stops. -/
theorem reads_of_climb {nest level : Nat} {tokens rest : List Token} {tree : Tree} (hlevel : level ≤ 8)
    (h : climb nest level tokens = .ok (tree, rest)) : Reads nest (level + 1) tokens tree rest :=
  (reads_of_parse.2.1 nest level tokens hlevel tree rest h).1

/-! ## What the parser makes of a phrase -/

section

variable {nest level nesting count : Nat} {op : BinaryOp} {tokens rest : List Token} {left tree : Tree}

theorem extend_of_stopsAt (h : StopsAt level tokens) : extend nest level count left tokens = .ok (left, tokens) := by
  rw [extend.eq_def]
  split
  · next op rest => rw [dif_pos (show op.level ≤ level from h)]
  · exact absurd h id
  · rfl

/-- The loop needs no more turns than there are tokens. -/
theorem extend_of_length_le (h : tokens.length ≤ count) :
    extend nest level count left tokens = extend nest level tokens.length left tokens := by
  induction count using Nat.strong_induction_on generalizing left tokens with
  | h count ih =>
    rcases stopsAt_or level tokens with hstops | ⟨op, rest, rfl, htight⟩ | ⟨rest, rfl⟩
    · rw [extend_of_stopsAt hstops, extend_of_stopsAt hstops]
    · rw [List.length_cons] at h ⊢
      obtain ⟨count, rfl⟩ := Nat.exists_eq_succ_of_ne_zero (Nat.ne_of_gt (Nat.lt_of_lt_of_le (Nat.succ_pos _) h))
      rw [extend, extend, dif_neg (Nat.not_le_of_lt htight), dif_neg (Nat.not_le_of_lt htight)]
      cases hclimb : climb nest op.level rest with
      | error e => rfl
      | ok read =>
        obtain ⟨right, behind⟩ := read
        have hlength := (reads_of_climb op.level_le hclimb).length_lt
        show ((Tree.binary op left right).checked >>= fun tree => extend nest level count tree behind) =
          (Tree.binary op left right).checked >>= fun tree => extend nest level rest.length tree behind
        apply bind_congr
        intro tree
        rw [ih count (by omega) (by omega), ih rest.length (by omega) (by omega)]
    · obtain ⟨count, rfl⟩ := Nat.exists_eq_succ_of_ne_zero (Nat.ne_of_gt (Nat.lt_of_lt_of_le (Nat.succ_pos _) h))
      rw [List.length_cons, extend, extend]

/-- An operator that is tight enough takes its right operand, and the loop goes on. -/
theorem extend_binary (h : level < op.level) :
    extend nest level (rest.length + 1) left (.op (.binary op) :: rest) = (do
      let (right, behind) ← climb nest op.level rest
      let tree ← (Tree.binary op left right).checked
      extend nest level behind.length tree behind) := by
  rw [extend, dif_neg (Nat.not_le_of_lt h)]
  cases hclimb : climb nest op.level rest with
  | error e => rfl
  | ok read =>
    obtain ⟨right, behind⟩ := read
    have hlength := (reads_of_climb op.level_le hclimb).length_lt
    show ((Tree.binary op left right).checked >>= fun tree => extend nest level rest.length tree behind) =
      (Tree.binary op left right).checked >>= fun tree => extend nest level behind.length tree behind
    exact bind_congr fun tree => extend_of_length_le (Nat.le_of_lt hlength)

/-- What comes of a phrase within both limits; beyond them it is refused as too deep. -/
def within (nest nesting : Nat) (tree : Tree) (result : Except ParseError (Tree × List Token)) :
    Except ParseError (Tree × List Token) :=
  if nesting ≤ nest ∧ tree.height ≤ maxNesting then result else .error .tooDeep

/-- What follows an operand that has been read. -/
theorem climb_of_operand {below : Nat}
    (h : operand nest (tokens ++ rest) = within nest nesting tree (.ok (tree, rest))) :
    climb nest below (tokens ++ rest) = within nest nesting tree (extend nest below rest.length tree rest) := by
  rw [climb, h]
  unfold within
  split <;> rfl

theorem operand_unary_of_derives {operator : Operator} {op : UnaryOp} (hop : (operator, op) ∈ unaryOperators)
    (ih : ∀ nest, operand nest (tokens ++ rest) = within nest nesting tree (.ok (tree, rest))) :
    operand nest (.op operator :: tokens ++ rest) =
      within nest (nesting + 1) (.unary op tree) (.ok (.unary op tree, rest)) := by
  have hunary := unary?_eq_some_iff.mpr hop
  rw [List.cons_append]
  cases nest with
  | zero =>
    rw [operand_unary_zero hunary, within, if_neg (by simp)]
  | succ nest =>
    rw [operand_unary_succ hunary, ih]
    unfold within
    by_cases hlimits : nesting ≤ nest ∧ tree.height ≤ maxNesting
    · rw [if_pos hlimits]
      show ((Tree.unary op tree).checked >>= fun tree => .ok (tree, rest)) = _
      unfold Tree.checked
      by_cases hheight : (Tree.unary op tree).height ≤ maxNesting
      · rw [if_pos hheight, if_pos ⟨Nat.succ_le_succ hlimits.1, hheight⟩]
        rfl
      · rw [if_neg hheight, if_neg fun h => hheight h.2]
        rfl
    · rw [if_neg hlimits, if_neg]
      · rfl
      · rintro ⟨hnest, hheight⟩
        exact hlimits ⟨Nat.le_of_succ_le_succ hnest, Nat.le_of_succ_le hheight⟩

theorem operand_group_of_derives
    (ih : ∀ nest, climb nest 0 (tokens ++ .closing :: rest) =
      within nest nesting tree (.ok (tree, .closing :: rest))) :
    operand nest (.opening :: (tokens ++ [.closing]) ++ rest) =
      within nest (nesting + 1) tree (.ok (tree, rest)) := by
  rw [List.cons_append, List.append_assoc, List.singleton_append]
  cases nest with
  | zero =>
    rw [operand_opening_zero, within, if_neg (by simp)]
  | succ nest =>
    rw [operand_opening_succ, ih]
    unfold within
    by_cases hlimits : nesting ≤ nest ∧ tree.height ≤ maxNesting
    · rw [if_pos hlimits, if_pos ⟨Nat.succ_le_succ hlimits.1, hlimits.2⟩]
      rfl
    · rw [if_neg hlimits, if_neg fun h => hlimits ⟨Nat.le_of_succ_le_succ h.1, h.2⟩]
      rfl

/-- Two phrases within the limits, and the tree above them: the limits of the whole. -/
theorem within_binary {below n k : Nat} {a b : Tree} (op : BinaryOp) :
    within nest n a (do
      let (right, behind) ← within nest k b (.ok (b, rest))
      let tree ← (Tree.binary op a right).checked
      extend nest below behind.length tree behind) =
    within nest (max n k) (.binary op a b) (extend nest below rest.length (.binary op a b) rest) := by
  have hheight : (Tree.binary op a b).height = max a.height b.height + 1 := rfl
  unfold within
  by_cases hleft : n ≤ nest ∧ a.height ≤ maxNesting
  · rw [if_pos hleft]
    by_cases hright : k ≤ nest ∧ b.height ≤ maxNesting
    · rw [if_pos hright]
      show ((Tree.binary op a b).checked >>= fun tree => extend nest below rest.length tree rest) = _
      unfold Tree.checked
      by_cases hwhole : (Tree.binary op a b).height ≤ maxNesting
      · rw [if_pos hwhole, if_pos ⟨Nat.max_le.mpr ⟨hleft.1, hright.1⟩, hwhole⟩]
        rfl
      · rw [if_neg hwhole, if_neg fun h => hwhole h.2]
        rfl
    · rw [if_neg hright, if_neg]
      · rfl
      · rintro ⟨hnest, hwhole⟩
        exact hright ⟨by omega, by omega⟩
  · rw [if_neg hleft, if_neg]
    rintro ⟨hnest, hwhole⟩
    exact hleft ⟨by omega, by omega⟩

end

/-- **A phrase at the head of the tokens is read to its end**, and the parser goes on behind it; or a limit is
exceeded. -/
theorem parser_of_derives {level nesting : Nat} {tokens : List Token} {tree : Tree}
    (h : Derives level tokens tree nesting) :
    (9 ≤ level → ∀ nest rest, operand nest (tokens ++ rest) = within nest nesting tree (.ok (tree, rest))) ∧
    (∀ nest below rest, below < level → StopsAt level rest →
      climb nest below (tokens ++ rest) = within nest nesting tree (extend nest below rest.length tree rest)) := by
  have of_operand {level nesting tokens tree}
      (h : ∀ nest rest, operand nest (tokens ++ rest) = within nest nesting tree (.ok (tree, rest))) :
      (9 ≤ level → ∀ nest rest, operand nest (tokens ++ rest) = within nest nesting tree (.ok (tree, rest))) ∧
      (∀ nest below rest, below < level → StopsAt level rest →
        climb nest below (tokens ++ rest) = within nest nesting tree (extend nest below rest.length tree rest)) :=
    ⟨fun _ => h, fun nest below rest _ _ => climb_of_operand (h nest rest)⟩
  induction h with
  | @number n =>
    exact of_operand fun nest rest => operand_number n
  | @field name =>
    exact of_operand fun nest rest => operand_field name
  | @group tokens tree nesting _ ih =>
    apply of_operand
    intro nest rest
    apply operand_group_of_derives
    intro nest
    have hstops (level : Nat) : StopsAt level (.closing :: rest) := trivial
    rw [ih.2 nest 0 (.closing :: rest) (by decide) (hstops 1), extend_of_stopsAt (hstops 0)]
  | unary hop _ ih =>
    exact of_operand fun nest rest => operand_unary_of_derives hop fun nest => ih.1 (Nat.le_refl _) nest rest
  | @binary level op left right a b n k hop hleft hright ihleft ihright =>
    have hlevel := mem_operatorsAt.mp hop
    constructor
    · intro hle
      have := op.level_le
      omega
    · -- the left operand leaves the operator to the loop, which takes the right operand and goes on
      intro nest below rest hbelow hstops
      have hnext : StopsAt level (.op (.binary op) :: (right ++ rest)) := Nat.le_of_eq hlevel
      have hread := ihright.2 nest level rest (Nat.lt_succ_self _) (hstops.mono (Nat.le_succ _))
      rw [extend_of_stopsAt hstops, ← hlevel] at hread
      rw [List.append_assoc, List.cons_append, ihleft.2 nest below _ hbelow hnext, List.length_cons,
        extend_binary (hlevel ▸ hbelow), hread, within_binary]
  | tighter h ih =>
    constructor
    · intro hle
      exact ih.1 (Nat.le_succ_of_le hle)
    · intro nest below rest hbelow hstops
      exact ih.2 nest below rest (Nat.lt_succ_of_lt hbelow) (hstops.mono (Nat.le_succ _))

/-- What comes of a complete list of tokens that derives from the grammar. -/
theorem ofTokens?_of_derives {tokens : List Token} {tree : Tree} {nesting : Nat} (h : Derives 1 tokens tree nesting) :
    Tree.ofTokens? tokens =
      if nesting ≤ maxNesting ∧ tree.height ≤ maxNesting then .ok tree else .error .tooDeep := by
  have hstops (level : Nat) : StopsAt level [] := trivial
  have hclimb := (parser_of_derives h).2 maxNesting 0 [] (by decide) (hstops 1)
  rw [List.append_nil, extend_of_stopsAt (hstops 0)] at hclimb
  rw [Tree.ofTokens?, hclimb]
  unfold within
  split <;> rfl

/-- What the parser accepts derives from the grammar, within both limits. -/
theorem derives_of_ofTokens? {tokens : List Token} {tree : Tree} (h : Tree.ofTokens? tokens = .ok tree) :
    ∃ nesting, Derives 1 tokens tree nesting ∧ nesting ≤ maxNesting ∧ tree.height ≤ maxNesting := by
  obtain ⟨⟨tree', rest⟩, hclimb, h⟩ := bind_eq_ok h
  cases rest with
  | cons token rest => cases h
  | nil =>
    cases h
    have hreads := reads_of_climb (by decide) hclimb
    obtain ⟨used, nesting, heq, hderives, hnest⟩ := hreads.phrase
    rw [List.append_nil] at heq
    subst heq
    exact ⟨nesting, hderives, hnest, hreads.height⟩

/-- **The parser accepts exactly the grammar within its limits.** A list of tokens yields a tree if and only if it
derives from the grammar with that tree, its prefix operators and parentheses nest no deeper than the limit and the
tree is no higher than the limit. A list that derives from the grammar but exceeds a limit is refused as too deep, and
one that does not derive from the grammar is refused. -/
theorem ofTokens?_eq_ok_iff_derives (tokens : List Token) :
    (∀ tree, Tree.ofTokens? tokens = .ok tree ↔
      ∃ nesting, Derives 1 tokens tree nesting ∧ nesting ≤ maxNesting ∧ tree.height ≤ maxNesting) ∧
    (∀ tree nesting, Derives 1 tokens tree nesting → maxNesting < nesting ∨ maxNesting < tree.height →
      Tree.ofTokens? tokens = .error .tooDeep) ∧
    ((∀ tree nesting, ¬Derives 1 tokens tree nesting) → ∃ e, Tree.ofTokens? tokens = .error e) := by
  refine ⟨fun tree => ⟨derives_of_ofTokens?, ?_⟩, ?_, ?_⟩
  · rintro ⟨nesting, hderives, hlimits⟩
    rw [ofTokens?_of_derives hderives, if_pos hlimits]
  · intro tree nesting hderives hexceeds
    rw [ofTokens?_of_derives hderives, if_neg (by omega)]
  · intro hnone
    cases hparse : Tree.ofTokens? tokens with
    | error e => exact ⟨e, rfl⟩
    | ok tree =>
      obtain ⟨nesting, hderives, -⟩ := derives_of_ofTokens? hparse
      exact absurd hderives (hnone tree nesting)

/-- A field behind negations nests as deep as there are negations. -/
theorem derives_negations (n : Nat) (name : String) :
    Derives 9 (List.replicate n (.op .not) ++ [.field name]) (Nat.repeat (.unary .not) n (.field name)) n := by
  induction n with
  | zero => exact Derives.field.tighter
  | succ n ih =>
    rw [List.replicate_succ, List.cons_append]
    exact ih.unary (by decide)

/-- A field in parentheses nests as deep as there are pairs. -/
theorem derives_groups (n : Nat) (name : String) :
    Derives 10 (List.replicate n .opening ++ .field name :: List.replicate n .closing) (.field name) n := by
  induction n with
  | zero => exact .field
  | succ n ih =>
    have hgroup := (ih.loosen (show 1 ≤ 10 by decide)).group
    rwa [List.append_assoc, List.cons_append, ← List.replicate_succ', ← List.cons_append,
      ← List.replicate_succ] at hgroup

/-- Both limits at their boundary: one negation more makes the tree too high, one pair of parentheses more nests too
deep. -/
theorem ofTokens?_at_limits :
    Tree.ofTokens? (List.replicate 63 (.op .not) ++ [.field "a"]) = .ok (Nat.repeat (.unary .not) 63 (.field "a")) ∧
    Tree.ofTokens? (List.replicate 64 (.op .not) ++ [.field "a"]) = .error .tooDeep ∧
    Tree.ofTokens? (List.replicate 64 .opening ++ .field "a" :: List.replicate 64 .closing) = .ok (.field "a") ∧
    Tree.ofTokens? (List.replicate 65 .opening ++ .field "a" :: List.replicate 65 .closing) = .error .tooDeep := by
  refine ⟨?_, ?_, ?_, ?_⟩
  · exact ((ofTokens?_eq_ok_iff_derives _).1 _).mpr
      ⟨63, (derives_negations 63 "a").loosen (by decide), by decide, by decide⟩
  · exact (ofTokens?_eq_ok_iff_derives _).2.1 _ 64 ((derives_negations 64 "a").loosen (by decide)) (.inr (by decide))
  · exact ((ofTokens?_eq_ok_iff_derives _).1 _).mpr
      ⟨64, (derives_groups 64 "a").loosen (by decide), by decide, by decide⟩
  · exact (ofTokens?_eq_ok_iff_derives _).2.1 _ 65 ((derives_groups 65 "a").loosen (by decide)) (.inl (by decide))

end Databind.Expression
