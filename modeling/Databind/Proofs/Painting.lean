import Databind.Proofs.Linking

/-!
# `Proofs.Painting` — what an element shows

What an element shows on one attribute is the same whatever is painted on other elements and on its other attributes,
with one exception: its text and its markup are one aspect. So after bindings were shown in order, an element shows on
each aspect what was painted there last. `Store.PaintsLast` says which binding that is, on the trees as they are in
between, for what is painted first may change what a selector selects.

## Main definitions

* `Attribute.aspect` — what painting an attribute replaces.
* `Arena.Shows` — an element shows a value on an attribute.
* `Store.PaintsLast` — a binding is the last of some to paint its aspect of an element.
-/

namespace Databind

/-! ## Painting one element -/

/-- What painting an attribute replaces: text and markup are one, every other attribute is its own. -/
def Attribute.aspect : Attribute → Attribute
  | .html => .text
  | other => other

namespace Content

/-- What an element holds after a value was painted on one of its attributes. -/
def paint (c : Content) (attr : Attribute) (v : Value) : Content :=
  match attr with
  | .text => { c with text := v.displayOrEmpty, markup := none }
  | .html => { c with text := Markup.strip v.displayOrEmpty, markup := some v.displayOrEmpty }
  | .value => { c with value := v.displayOrEmpty }
  | .dimension dimension =>
    if v.isUndefined || !v.toNumber.isFinite then c else c.setDimension dimension v.toNumber
  | .property name => c.setProperty name v.truthy
  | .visibility => { c with visible := v.truthy }
  | .generic name => c.setAttribute name (if v.isUndefined then none else some v.display)

/-- **What an element holds shows a value on an attribute.** A dimension shows finite numbers only. -/
def Shows (c : Content) (attr : Attribute) (v : Value) : Prop :=
  match attr with
  | .text => c.text = v.displayOrEmpty ∧ c.markup = none
  | .html => c.text = Markup.strip v.displayOrEmpty ∧ c.markup = some v.displayOrEmpty
  | .value => c.value = v.displayOrEmpty
  | .dimension dimension => v.isUndefined = false → v.toNumber.isFinite = true → c.dimension dimension = v.toNumber
  | .property name => c.property name = v.truthy
  | .visibility => c.visible = v.truthy
  | .generic name => c.attribute? name = if v.isUndefined then none else some v.display

theorem attribute?_setAttribute (c : Content) (name : String) (value : Option String) (other : String) :
    (c.setAttribute name value).attribute? other = if other = name then value else c.attribute? other := by
  cases value with
  | none => exact Dict.get?_erase ..
  | some value => exact Dict.get?_insert ..

theorem property_setProperty (c : Content) (name : String) (on : Bool) (other : String) :
    (c.setProperty name on).property other = if other = name then on else c.property other := by
  simp only [property, setProperty, Dict.get?_insert]
  split <;> rfl

theorem dimension_setDimension (c : Content) (dimension : Dimension) (n : Number) (other : Dimension) :
    (c.setDimension dimension n).dimension other = if other = dimension then n else c.dimension other := by
  cases dimension <;> cases other <;> rfl

/-- **A painted value is shown.** -/
theorem shows_paint (c : Content) (attr : Attribute) (v : Value) : (c.paint attr v).Shows attr v := by
  cases attr with
  | dimension dimension =>
    intro hdefined hfinite
    simp only [paint, hdefined, hfinite, Bool.not_true, Bool.or_false, Bool.false_eq_true, if_false,
      dimension_setDimension, if_true]
  | property name => simp only [Shows, paint, property_setProperty, if_true]
  | generic name => simp only [Shows, paint, attribute?_setAttribute, if_true]
  | text => exact ⟨rfl, rfl⟩
  | html => exact ⟨rfl, rfl⟩
  | value => exact rfl
  | visibility => exact rfl

/-- **What is painted on another aspect leaves what is shown as it is.** -/
theorem Shows.paint {c : Content} {attr attr' : Attribute} {v : Value} (h : c.Shows attr v) (v' : Value)
    (hother : attr'.aspect ≠ attr.aspect) : (c.paint attr' v').Shows attr v := by
  have hne : attr ≠ attr' := fun heq => hother (heq ▸ rfl)
  cases attr' with
  | text | html =>
    cases attr with
    | text | html => exact absurd rfl hother
    | _ => exact h
  | value | visibility =>
    cases attr with
    | value | visibility => first | exact h | exact absurd rfl hne
    | _ => exact h
  | dimension dimension' =>
    simp only [Content.paint]
    split
    · exact h
    · cases attr with
      | dimension dimension =>
        have hdimension : dimension ≠ dimension' := fun heq => hne (heq ▸ rfl)
        simpa only [Shows, dimension_setDimension, if_neg hdimension] using h
      | _ => cases dimension' <;> exact h
  | property name' =>
    cases attr with
    | property name =>
      have hname : name ≠ name' := fun heq => hne (heq ▸ rfl)
      simpa only [Content.paint, Shows, property_setProperty, if_neg hname] using h
    | _ => exact h
  | generic name' =>
    simp only [Content.paint]
    cases attr with
    | generic name =>
      have hname : name ≠ name' := fun heq => hne (heq ▸ rfl)
      simpa only [Shows, attribute?_setAttribute, if_neg hname] using h
    | _ => cases (if v'.isUndefined = true then none else some v'.display : Option String) <;> exact h

end Content

namespace Arena

variable {arena : Arena} {x : Nat} {attr : Attribute} {v : Value}

/-- **An element shows a value on an attribute.** One that shows a text or markup has no children. -/
def Shows (arena : Arena) (x : Nat) (attr : Attribute) (v : Value) : Prop :=
  (arena.content x).Shows attr v ∧ (attr.aspect = .text → arena.children x = [])

/-- **What an element holds after it was painted.** -/
theorem content_paint_self (arena : Arena) (hx : x < arena.size) (attr : Attribute) (v : Value) :
    (arena.paint x attr v).content x = (arena.content x).paint attr v := by
  have hdetached : ∀ f, ((arena.detachChildren x).edit x f).content x = f (arena.content x) := fun f => by
    rw [content_edit, (arena.detachChildren_eq x x).1, (arena.detachChildren_eq x x).2, if_pos ⟨rfl, hx⟩]
  have hedited : ∀ f, (arena.edit x f).content x = f (arena.content x) := fun f => by
    rw [content_edit, if_pos ⟨rfl, hx⟩]
  cases attr with
  | text | html => exact hdetached _
  | dimension dimension =>
    simp only [paint, Content.paint]
    split
    · rfl
    · exact hedited _
  | _ => exact hedited _

/-- Painting a text takes the children of the element out, and painting takes no children in. -/
theorem children_paint (arena : Arena) (x : Nat) (attr : Attribute) (v : Value) (y : Nat)
    (h : arena.children y = [] ∨ y = x ∧ attr.aspect = .text) : (arena.paint x attr v).children y = [] := by
  have hdetached : ∀ f, ((arena.detachChildren x).edit x f).children y = [] := fun f => by
    rw [children_edit, children_detachChildren]
    split
    · rfl
    · next hne => exact h.resolve_right fun h => hne h.1
  cases attr with
  | text | html => exact hdetached _
  | dimension dimension =>
    have hnone := h.resolve_right fun h => by cases h.2
    simp only [paint]
    split
    · exact hnone
    · rw [children_edit, hnone]
  | _ => exact (arena.children_edit x y _).trans (h.resolve_right fun h => by cases h.2)

theorem shows_paint (arena : Arena) (hx : x < arena.size) (attr : Attribute) (v : Value) :
    (arena.paint x attr v).Shows x attr v :=
  ⟨arena.content_paint_self hx attr v ▸ Content.shows_paint _ attr v,
    fun htext => arena.children_paint x attr v x (.inr ⟨rfl, htext⟩)⟩

/-- **Painting another element, or another aspect, leaves what an element shows as it is.** -/
theorem Shows.paint (h : arena.Shows x attr v) (hx : x < arena.size) {y : Nat} {attr' : Attribute} (v' : Value)
    (hother : y ≠ x ∨ attr'.aspect ≠ attr.aspect) : (arena.paint y attr' v').Shows x attr v := by
  refine ⟨?_, fun htext => arena.children_paint y attr' v' x (.inl (h.2 htext))⟩
  by_cases hyx : y = x
  · subst hyx
    rw [arena.content_paint_self hx]
    exact h.1.paint v' (hother.resolve_left fun hne => hne rfl)
  · rw [content_paint arena (Ne.symm hyx)]
    exact h.1

/-- **An element among those that were painted shows the value.** -/
theorem shows_paintAll {xs : List Nat} (hmem : x ∈ xs) (hx : x < arena.size) (attr : Attribute) (v : Value) :
    (Store.paintAll arena attr v xs).Shows x attr v := by
  have hkeep : ∀ (ys : List Nat) (arena : Arena), x < arena.size → arena.Shows x attr v →
      (Store.paintAll arena attr v ys).Shows x attr v := by
    intro ys
    induction ys with
    | nil => exact fun _ _ h => h
    | cons y rest ih =>
      intro arena hx h
      have hsize : x < (arena.paint y attr v).size := by rw [size_paint]; exact hx
      refine ih _ hsize ?_
      by_cases hyx : y = x
      · exact hyx ▸ arena.shows_paint (hyx ▸ hx) attr v
      · exact h.paint hx v (.inl hyx)
  induction xs generalizing arena with
  | nil => cases hmem
  | cons y rest ih =>
    have hsize : x < (arena.paint y attr v).size := by rw [size_paint]; exact hx
    rcases List.mem_cons.mp hmem with rfl | hmem
    · exact hkeep rest _ hsize (arena.shows_paint hx attr v)
    · exact ih hmem hsize

/-- Painting other elements, or another aspect, in turn. -/
theorem Shows.paintAll (h : arena.Shows x attr v) (hx : x < arena.size) {attr' : Attribute} (v' : Value) {ys : List Nat}
    (hother : x ∉ ys ∨ attr'.aspect ≠ attr.aspect) : (Store.paintAll arena attr' v' ys).Shows x attr v := by
  induction ys generalizing arena with
  | nil => exact h
  | cons y rest ih =>
    have hsize : x < (arena.paint y attr' v').size := by rw [size_paint]; exact hx
    refine ih (h.paint hx v' (hother.imp_left fun hnot heq => hnot (heq ▸ List.mem_cons_self))) hsize ?_
    exact hother.imp_left fun hnot hmem => hnot (List.mem_cons_of_mem _ hmem)

end Arena

/-! ## Painting in turn -/

namespace Store

variable {s : Store} {tree x : Nat} {attr : Attribute} {v : Value} {arena : Arena} {cs : List (Nat × Binding)}

/-- None of some bindings paints over what an element shows on an attribute. -/
def SparesAspect (s : Store) (tree x : Nat) (attr : Attribute) (arena : Arena) : List (Nat × Binding) → Prop
  | [] => True
  | c :: rest => (c.2.target.aspect = attr.aspect → x ∉ s.elementsOf tree arena c) ∧
      SparesAspect s tree x attr (s.shown tree arena c) rest

/-- **A binding is the last of some to paint its aspect of an element.** -/
def PaintsLast (s : Store) (tree x : Nat) (b : Nat × Binding) (arena : Arena) : List (Nat × Binding) → Prop
  | [] => False
  | c :: rest =>
    (c = b ∧ x ∈ s.elementsOf tree arena c ∧ s.SparesAspect tree x c.2.target (s.shown tree arena c) rest) ∨
      PaintsLast s tree x b (s.shown tree arena c) rest

theorem mem_of_paintsLast {b : Nat × Binding} (h : s.PaintsLast tree x b arena cs) : b ∈ cs := by
  induction cs generalizing arena with
  | nil => exact absurd h id
  | cons c rest ih =>
    obtain ⟨rfl, -⟩ | h := h
    · exact List.mem_cons_self
    · exact List.mem_cons_of_mem _ (ih h)

/-- What an element shows stays if it is spared. -/
theorem shows_of_sparesAspect (h : s.SparesAspect tree x attr arena cs) (hshows : arena.Shows x attr v)
    (hx : x < arena.size) : (cs.foldl (s.shown tree) arena).Shows x attr v := by
  induction cs generalizing arena with
  | nil => exact hshows
  | cons c rest ih =>
    obtain ⟨hspared, hrest⟩ := h
    refine ih hrest (hshows.paintAll hx _ ?_) (by rwa [size_shown])
    by_cases haspect : c.2.target.aspect = attr.aspect
    · exact .inl (hspared haspect)
    · exact .inr haspect

/-- **An element shows the value of the binding that painted it last.** -/
theorem shows_of_paintsLast {b : Nat × Binding} (h : s.PaintsLast tree x b arena cs) (hx : x < arena.size) :
    (cs.foldl (s.shown tree) arena).Shows x b.2.target (b.2.value (s.fields b.2.record)) := by
  induction cs generalizing arena with
  | nil => exact absurd h id
  | cons c rest ih =>
    obtain ⟨rfl, hmem, hspared⟩ | h := h
    · have hshows : (s.shown tree arena c).Shows x c.2.target (c.2.value (s.fields c.2.record)) :=
        Arena.shows_paintAll hmem hx _ _
      have hlast := shows_of_sparesAspect hspared hshows (by rwa [size_shown])
      exact hlast
    · exact ih h (by rwa [size_shown])

end Store

end Databind
