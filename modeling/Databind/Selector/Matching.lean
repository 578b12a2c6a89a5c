import Databind.Selector.Basic
import Databind.Text.Blank
import Databind.Tree.Arena

/-!
# `Selector.Matching` — which elements a selector matches

A compound matches an element when all its conditions hold. A chain matches when its last compound
matches the element and the rest of the chain matches the parent, or some ancestor, as the combinator
asks. A selector matches when one of its alternatives does.
-/

namespace Databind.Selector

namespace Compound

/-- The tag, up to the case of ASCII letters. -/
def tagHolds (compound : Compound) (c : Content) : Bool :=
  compound.tag.all fun tag => Arena.sameTag c.tag tag

/-- The value of the attribute `id`. -/
def idHolds (compound : Compound) (c : Content) : Bool :=
  compound.id.all fun id => c.attribute? "id" == some id

/-- Every class is a word of the attribute `class`. -/
def classesHold (compound : Compound) (c : Content) : Bool :=
  compound.classes.all (Text.words ((c.attribute? "class").getD "")).contains

/-- One attribute condition: the attribute is there, with the value asked for. -/
def attributeHolds (c : Content) (condition : String × Option String) : Bool :=
  match c.attribute? condition.1 with
  | none => false
  | some value => condition.2.all (value == ·)

/-- The position among the siblings of the same tag. -/
def positionHolds (compound : Compound) (arena : Arena) (x : Nat) : Bool :=
  compound.position.all fun n => arena.positionOfType x == some n

/-- Whether an element fulfils all conditions. -/
def isMatch (compound : Compound) (arena : Arena) (x : Nat) : Bool :=
  let c := arena.content x
  compound.tagHolds c && compound.idHolds c && compound.classesHold c &&
    compound.attributes.all (attributeHolds c) && compound.positionHolds arena x

end Compound

/-- Whether a chain matches an element. -/
def Complex.isMatch (arena : Arena) : Complex → Nat → Bool
  | .compound c, x => c.isMatch arena x
  | .join left .child right, x =>
    right.isMatch arena x && (arena.parent? x).any fun p => left.isMatch arena p
  | .join left .descendant right, x =>
    right.isMatch arena x && (arena.ancestors x).any fun p => left.isMatch arena p

end Selector

/-- Whether a selector matches an element. -/
def Selector.isMatch (selector : Selector) (arena : Arena) (x : Nat) : Bool :=
  selector.alternatives.any fun complex => complex.isMatch arena x

end Databind
