import Databind.Session.TreeCommand

/-!
# `Proofs.Growth` — trees that can be built

A tree is built from a description, grows by elements that are appended to some that are there, and changes in what its
elements hold. Painting an element and changing an aspect of it are such changes, so rendering builds trees from trees
that were built.

## Main definitions

* `Arena.Grown` — the trees that can be built.
* `Store.Grown` — a tree of a store can be built, if it is there.
-/

namespace Databind

namespace Arena

/-- **The trees that can be built**: the tree of a description, and what comes of it by appending to elements that are
there, by changing what elements hold, and by replacing their children by text or markup. -/
inductive Grown : Arena → Prop
  | ofSpec (spec : Spec) : Grown (.ofSpec spec)
  | append {arena : Arena} (h : Grown arena) {parent : Nat} (hparent : parent < arena.size) (spec : Spec) :
    Grown (arena.append parent spec)
  | edit {arena : Arena} (h : Grown arena) (x : Nat) (f : Content → Content) : Grown (arena.edit x f)
  | setText {arena : Arena} (h : Grown arena) (x : Nat) (text : String) : Grown (arena.setText x text)
  | setHtml {arena : Arena} (h : Grown arena) (x : Nat) (markup : String) : Grown (arena.setHtml x markup)

namespace Grown

variable {arena arena' : Arena}

/-- **Painting an element** changes what it holds, or nothing. -/
theorem paint (h : arena.Grown) (x : Nat) (attr : Attribute) (v : Value) : (arena.paint x attr v).Grown := by
  unfold Arena.paint
  cases attr with
  | text => exact h.setText x _
  | html => exact h.setHtml x _
  | dimension dimension =>
    dsimp only
    split
    · exact h
    · exact h.edit x _
  | _ => exact h.edit x _

theorem paintAll (h : arena.Grown) (target : Attribute) (v : Value) (xs : List Nat) :
    (Store.paintAll arena target v xs).Grown := by
  induction xs generalizing arena with
  | nil => exact h
  | cons x rest ih => exact ih (h.paint x target v)

/-- **Changing an aspect of an element** changes what it holds. -/
theorem change? (h : arena.Grown) {x : Nat} {aspect : Aspect} {v : Value}
    (hchange : arena.change? x aspect v = some arena') : arena'.Grown := by
  unfold Arena.change? at hchange
  split at hchange
  · cases hchange
    exact h.setText x _
  · cases hchange
    exact h.setHtml x _
  -- all other aspects are in what the element holds, and the last case is a value of the wrong kind
  all_goals cases hchange
  all_goals exact h.edit x _

end Grown

end Arena

/-- A tree of a store can be built, if it is there. -/
def Store.Grown (s : Store) (k : Nat) : Prop := k < s.trees.size → (s.arena k).Grown

end Databind
