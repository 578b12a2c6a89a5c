import Databind.Expression.Tree

/-!
# `Proofs.Comparison` — conditions and their mirror images

A condition can be read from either side. Both equalities are symmetric, and the strict one is the narrower of the two.
An order is turned around by exchanging the two sides. Two values are unordered if they are not both texts and one of
them is not a number; of any others exactly one of `≤` and `>` holds, and of unordered ones none of the four
comparisons.

## Main definitions

* `Value.Unordered` — no comparison between two values holds.
* `Expression.Tree.Coherent` — the conditions between two expressions agree with each other.
-/

namespace Databind

/-! ## Numbers -/

namespace Number

variable {x y : Number}

theorem position?_eq_none_iff : x.position? = none ↔ x = .nan := by
  cases x with
  | nan => exact ⟨fun _ => rfl, fun _ => rfl⟩
  | infinite negative => exact ⟨nofun, nofun⟩
  | finite negative size => exact ⟨nofun, nofun⟩

theorem equal_comm (x y : Number) : x.equal y = y.equal x := by
  unfold equal
  cases x.position? with
  | none => cases y.position? <;> rfl
  | some p =>
    cases y.position? with
    | none => rfl
    | some q => exact Bool.beq_comm

/-- **The order of two numbers is turned around with them.** -/
theorem compare_swap (x y : Number) : (x.compare y).map Ordering.swap = y.compare x := by
  unfold compare
  cases x.position? with
  | none => cases y.position? <;> rfl
  | some p =>
    cases y.position? with
    | none => rfl
    | some q => exact congrArg some Std.OrientedCmp.eq_swap.symm

theorem compare_eq_none_iff : x.compare y = none ↔ x = .nan ∨ y = .nan := by
  rw [← position?_eq_none_iff, ← position?_eq_none_iff]
  unfold compare
  cases x.position? with
  | none => simp
  | some p => cases y.position? <;> simp

end Number

/-! ## Values -/

namespace Value

variable {a b : Value}

/-- **No comparison between two values holds**: they are not both texts, and one of them is not a number. -/
def Unordered (a b : Value) : Prop :=
  ¬(a.kind = .string ∧ b.kind = .string) ∧ (a.toNumber = .nan ∨ b.toNumber = .nan)

instance : Decidable (Unordered a b) := inferInstanceAs (Decidable (_ ∧ _))

theorem exists_of_kind (h : a.kind = .string) : ∃ s, a = .string s := by
  cases a with
  | string s => exact ⟨s, rfl⟩
  | _ => cases h

theorem strictEqual_comm (a b : Value) : a.strictEqual b = b.strictEqual a := by
  cases a with
  | undefined | null => cases b <;> rfl
  | bool p => cases b with
    | bool q => exact Bool.beq_comm
    | _ => rfl
  | number x => cases b with
    | number y => exact x.equal_comm y
    | _ => rfl
  | string s => cases b with
    | string t => exact Bool.beq_comm
    | _ => rfl

theorem kind_of_strictEqual (h : a.strictEqual b = true) : a.kind = b.kind := by
  unfold strictEqual at h
  split at h
  · rfl
  · rfl
  · rfl
  · rfl
  · rfl
  · cases h

/-- Whether a value is absent shows in its kind. -/
theorem isNothing_eq (a : Value) : a.isNothing = (a.kind = .undefined || a.kind = .null) := by cases a <;> rfl

theorem looseEqual_comm (a b : Value) : a.looseEqual b = b.looseEqual a := by
  unfold looseEqual
  rw [Bool.or_comm, Bool.and_comm, a.strictEqual_comm, Number.equal_comm]
  simp only [eq_comm (a := a.kind)]

/-- **What is strictly equal is loosely equal.** -/
theorem looseEqual_of_strictEqual (h : a.strictEqual b = true) : a.looseEqual b = true := by
  have hkind := kind_of_strictEqual h
  unfold looseEqual
  rw [b.isNothing_eq, ← hkind, ← a.isNothing_eq, Bool.or_self, Bool.and_self]
  split
  · assumption
  · exact (if_pos rfl).trans h

/-- Values that are not both texts are compared as numbers. -/
theorem compare_of_not_texts (h : ¬(a.kind = .string ∧ b.kind = .string)) :
    a.compare b = a.toNumber.compare b.toNumber := by
  unfold compare
  split
  · exact absurd ⟨rfl, rfl⟩ h
  · rfl

/-- **The order of two values is turned around with them.** -/
theorem compare_swap (a b : Value) : (a.compare b).map Ordering.swap = b.compare a := by
  by_cases h : a.kind = .string ∧ b.kind = .string
  · obtain ⟨s, rfl⟩ := exists_of_kind h.1
    obtain ⟨t, rfl⟩ := exists_of_kind h.2
    exact congrArg some Std.OrientedCmp.eq_swap.symm
  · rw [compare_of_not_texts h, compare_of_not_texts fun h' => h h'.symm, Number.compare_swap]

/-- **Two values are unordered** exactly if there is no order between them. -/
theorem compare_eq_none_iff : a.compare b = none ↔ Unordered a b := by
  by_cases h : a.kind = .string ∧ b.kind = .string
  · obtain ⟨s, rfl⟩ := exists_of_kind h.1
    obtain ⟨t, rfl⟩ := exists_of_kind h.2
    exact ⟨nofun, fun hunordered => absurd h hunordered.1⟩
  · rw [compare_of_not_texts h, Number.compare_eq_none_iff]
    exact ⟨fun hnan => ⟨h, hnan⟩, fun hunordered => hunordered.2⟩

end Value

/-! ## Conditions -/

namespace Expression

namespace BinaryOp

/-- **The comparison that is read from the other side.** -/
def mirrored : BinaryOp → BinaryOp
  | lt => gt
  | gt => lt
  | le => ge
  | ge => le
  | op => op

/-- The operators that ask for an order. -/
def orderings : List BinaryOp := [lt, gt, le, ge]

/-- The operators that compare two values. -/
def comparisons : List BinaryOp := [looseEq, looseNe, strictEq, strictNe] ++ orderings

variable {a b : Value}

/-- **A comparison holds exactly if its mirror image does.** -/
theorem apply_mirrored {op : BinaryOp} (h : op ∈ comparisons) (a b : Value) : op.mirrored.apply b a = op.apply a b := by
  have hswap := a.compare_swap b
  simp only [comparisons, orderings, List.cons_append, List.nil_append, List.mem_cons, List.not_mem_nil, or_false] at h
  rcases h with rfl | rfl | rfl | rfl | rfl | rfl | rfl | rfl
  -- the equalities are their own mirror images, the four orderings are turned around
  · exact congrArg Value.bool (b.looseEqual_comm a)
  · exact congrArg (Value.bool !·) (b.looseEqual_comm a)
  · exact congrArg Value.bool (b.strictEqual_comm a)
  · exact congrArg (Value.bool !·) (b.strictEqual_comm a)
  all_goals
    simp only [mirrored, apply, ← hswap]
    cases a.compare b with
    | none => rfl
    | some order => cases order <;> rfl

/-- Values between which there is no order stand in none. -/
theorem apply_of_unordered {op : BinaryOp} (h : op ∈ orderings) (hunordered : Value.Unordered a b) :
    op.apply a b = .bool false := by
  have hnone := Value.compare_eq_none_iff.mpr hunordered
  simp only [orderings, List.mem_cons, List.not_mem_nil, or_false] at h
  rcases h with rfl | rfl | rfl | rfl
  all_goals
    simp only [apply, hnone]
    rfl

/-- **Of two values with an order, one is larger, or else the other is at least as large.** -/
theorem le_apply_of_ordered (h : ¬Value.Unordered a b) : ∃ p, le.apply a b = .bool p ∧ gt.apply a b = .bool !p := by
  obtain ⟨order, horder⟩ := Option.ne_none_iff_exists'.mp (mt Value.compare_eq_none_iff.mp h)
  simp only [apply, horder]
  cases order with
  | lt => exact ⟨true, rfl, rfl⟩
  | eq => exact ⟨true, rfl, rfl⟩
  | gt => exact ⟨false, rfl, rfl⟩

theorem not_lt_and_gt (a b : Value) : ¬(lt.apply a b = .bool true ∧ gt.apply a b = .bool true) := by
  rintro ⟨hlt, hgt⟩
  have hless : a.compare b = some .lt := beq_iff_eq.mp (Value.bool.inj hlt)
  have hmore : a.compare b = some .gt := beq_iff_eq.mp (Value.bool.inj hgt)
  cases hless.symm.trans hmore

end BinaryOp

namespace Tree

/-- **The conditions between two expressions agree with each other** on a record's fields. -/
structure Coherent (fields : Fields) (x y : Tree) : Prop where
  /-- A comparison and the same comparison read from the other side have one value. -/
  mirrored : ∀ op ∈ BinaryOp.comparisons,
    (binary op.mirrored y x).evaluate fields = (binary op x y).evaluate fields
  loose_of_strict : (binary .strictEq x y).evaluate fields = .bool true →
    (binary .looseEq x y).evaluate fields = .bool true
  looseNe : (binary .looseNe x y).evaluate fields = (unary .not (binary .looseEq x y)).evaluate fields
  strictNe : (binary .strictNe x y).evaluate fields = (unary .not (binary .strictEq x y)).evaluate fields
  not_both : ¬((binary .lt x y).evaluate fields = .bool true ∧ (binary .gt x y).evaluate fields = .bool true)
  /-- One of `≤` and `>` holds, and the other one does not. -/
  ordered : ¬Value.Unordered (x.evaluate fields) (y.evaluate fields) → ∃ p,
    (binary .le x y).evaluate fields = .bool p ∧ (binary .gt x y).evaluate fields = .bool !p
  unordered : Value.Unordered (x.evaluate fields) (y.evaluate fields) →
    ∀ op ∈ BinaryOp.orderings, (binary op x y).evaluate fields = .bool false

/-- **Conditions are coherent**: whatever two expressions are compared, on whatever record, their comparisons agree with
their mirror images and their negations, and their order is total but for values that are not both texts, of which one
is not a number. -/
theorem coherent (fields : Fields) (x y : Tree) : Coherent fields x y where
  mirrored _ hop := BinaryOp.apply_mirrored hop _ _
  loose_of_strict h := congrArg Value.bool (Value.looseEqual_of_strictEqual (Value.bool.inj h))
  looseNe := rfl
  strictNe := rfl
  not_both := BinaryOp.not_lt_and_gt _ _
  ordered := BinaryOp.le_apply_of_ordered
  unordered h _ hop := BinaryOp.apply_of_unordered hop h

/-- A text that is no number, and a number. -/
def unreadable : Fields := .ofEntries [("a", .string "ten"), ("b", .number (.ofNat 9))]

/-- A text that is no number is neither more nor less than a number. Two texts have an order whatever they say. -/
theorem coherent_unreadable :
    Value.Unordered ((field "a").evaluate unreadable) ((field "b").evaluate unreadable) ∧
      (∀ op ∈ BinaryOp.orderings, (binary op (field "a") (field "b")).evaluate unreadable = .bool false) ∧
      ¬Value.Unordered ((field "a").evaluate unreadable) ((field "c").evaluate unreadable) ∧
      ∃ p, (binary .le (field "a") (field "c")).evaluate unreadable = .bool p ∧
        (binary .gt (field "a") (field "c")).evaluate unreadable = .bool !p := by
  have hunordered : Value.Unordered ((field "a").evaluate unreadable) ((field "b").evaluate unreadable) := by
    decide +kernel
  have hordered : ¬Value.Unordered ((field "a").evaluate unreadable) ((field "c").evaluate unreadable) := by
    decide +kernel
  exact ⟨hunordered, (coherent unreadable _ _).unordered hunordered, hordered,
    (coherent unreadable _ _).ordered hordered⟩

end Tree

end Expression

end Databind
