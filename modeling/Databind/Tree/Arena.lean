import Databind.Tree.Markup
import Databind.Tree.Node

/-!
# `Tree.Arena` — the elements of a tree

Elements are numbered in the order in which they are inserted, and numbers are never reused: an element
that loses its parent keeps its number and its content but is out of reach. A parent always has a smaller
number than its children, so walks up and down end; the walks below stop where that would fail.

## Main definitions

* `Arena.insert`, `Arena.append` — add described elements in pre-order.
* `Arena.ancestors`, `Arena.descendants`, `Arena.textContent` — walks.
* `Arena.setText`, `Arena.setHtml` — replace content, which detaches the children.
-/

namespace Databind

/-- The elements of a tree by number. -/
structure Arena where
  nodes : Array Node
deriving DecidableEq

namespace Arena

def empty : Arena := ⟨#[]⟩

def size (arena : Arena) : Nat := arena.nodes.size

/-- The content of an element that is not there. -/
def blank : Content := .ofTag ""

/-- The content of an element. -/
def content (arena : Arena) (x : Nat) : Content :=
  (arena.nodes[x]?.map Node.content).getD blank

/-- The parent of an element. -/
def parent? (arena : Arena) (x : Nat) : Option Nat := arena.nodes[x]?.bind Node.parent

/-- The children of an element in order. -/
def children (arena : Arena) (x : Nat) : List Nat := (arena.nodes[x]?.map Node.children).getD []

/-- The tree with one element changed. -/
def modify (arena : Arena) (x : Nat) (f : Node → Node) : Arena := ⟨arena.nodes.modify x f⟩

/-- The tree with the content of one element changed. -/
def edit (arena : Arena) (x : Nat) (f : Content → Content) : Arena :=
  arena.modify x fun node => { node with content := f node.content }

/-! ## Growth -/

/-- The tree with a child added at the end of an element's children. -/
def addChild (arena : Arena) (parent child : Nat) : Arena :=
  arena.modify parent fun node => { node with children := node.children ++ [child] }

mutual

/-- Insert a described element and what is below it, numbered in pre-order. -/
def insert (arena : Arena) (parent : Option Nat) : Spec → Arena
  | .node content children =>
    insertAll ⟨arena.nodes.push ⟨content, parent, []⟩⟩ arena.size children

/-- Insert described elements as children of one that is there. -/
def insertAll (arena : Arena) (parent : Nat) : List Spec → Arena
  | [] => arena
  | spec :: rest =>
    insertAll ((arena.insert (some parent) spec).addChild parent arena.size) parent rest

end

/-- Insert a described element as the last child of an element. -/
def append (arena : Arena) (parent : Nat) (spec : Spec) : Arena :=
  (arena.insert (some parent) spec).addChild parent arena.size

/-- The tree of a described element alone, which gets number 0. -/
def ofSpec (spec : Spec) : Arena := empty.insert none spec

/-! ## Walks -/

/-- The ancestors of an element, nearest first. -/
def ancestors (arena : Arena) (x : Nat) : List Nat :=
  match arena.parent? x with
  | some p => if p < x then p :: arena.ancestors p else []
  | none => []
termination_by x

/-- The element and everything below it, in document order. -/
def withDescendants (arena : Arena) (x : Nat) : List Nat :=
  x :: (arena.children x).flatMap fun child =>
    if _h : x < child ∧ child < arena.size then arena.withDescendants child else []
termination_by arena.size - x
decreasing_by omega

/-- Everything below an element, in document order. -/
def descendants (arena : Arena) (x : Nat) : List Nat := (arena.withDescendants x).tail

/-- The text of an element and everything below it, in document order. -/
def textContent (arena : Arena) (x : Nat) : String :=
  String.join ((arena.withDescendants x).map fun y => (arena.content y).text)

/-- Whether an element has a given one among its ancestors. -/
def isDescendantOf (arena : Arena) (x ancestor : Nat) : Bool := (arena.ancestors x).contains ancestor

/-- Whether an element is in the tree: it is the first one, or has a parent. -/
def isAttached (arena : Arena) (x : Nat) : Bool := x == 0 || (arena.parent? x).isSome

/-- Whether an element shows: neither it nor an ancestor is hidden. -/
def isVisible (arena : Arena) (x : Nat) : Bool :=
  (x :: arena.ancestors x).all fun y => (arena.content y).visible

/-- Two tags are the same up to the case of ASCII letters. -/
def sameTag (a b : String) : Bool := a.toList.map Char.toLower == b.toList.map Char.toLower

/-- The position of an element among the siblings of its tag, from one. An element without a parent is
the first. -/
def positionOfType (arena : Arena) (x : Nat) : Option Nat :=
  match arena.parent? x with
  | none => some 1
  | some p =>
    let tag := (arena.content x).tag
    ((((arena.children p).filter fun y => sameTag (arena.content y).tag tag).idxOf? x).map (· + 1))

/-! ## Content -/

/-- Take the children of an element out of the tree. -/
def detachChildren (arena : Arena) (x : Nat) : Arena :=
  (arena.children x).foldl (fun arena child => arena.modify child fun node => { node with parent := none })
    (arena.modify x fun node => { node with children := [] })

/-- Replace what an element holds by text. -/
def setText (arena : Arena) (x : Nat) (text : String) : Arena :=
  (arena.detachChildren x).edit x fun c => { c with text, markup := none }

/-- The markup of an element: as it was set, or its text escaped. -/
def html (arena : Arena) (x : Nat) : String :=
  ((arena.content x).markup).getD (Markup.escape (arena.textContent x))

/-- Replace what an element holds by markup. -/
def setHtml (arena : Arena) (x : Nat) (markup : String) : Arena :=
  (arena.detachChildren x).edit x fun c => { c with text := Markup.strip markup, markup := some markup }

end Arena

end Databind
