import Mathlib.Data.List.Forall2
import Databind.Proofs.Deed

/-!
# `Proofs.Independence.BinderComparison` — binders that differ in their guards

Two runs that do the same to a binder may give it different guards, for the identity of a subscription depends on
who else subscribed. `Binder.Alike` says that two binders hold the same, and that their guards are related place by
place. The lemmas follow the operations of a registry.
-/

namespace Databind

variable {α β : Type} {R : α → β → Prop}

/-- Searches that agree on what is related find what is related. -/
theorem rel_find? {p : α → Bool} {q : β → Bool} (hpq : ∀ a b, R a b → p a = q b) {l : List α} {l' : List β}
    (h : List.Forall₂ R l l') : Option.Rel R (l.find? p) (l'.find? q) := by
  induction h with
  | nil => exact .none
  | @cons a b l l' hab _ ih =>
    rw [List.find?_cons, List.find?_cons, hpq a b hab]
    cases q b with
    | true => exact .some hab
    | false => exact ih

/-- Conditions that agree on what is related keep what is related. -/
theorem rel_filter {p : α → Bool} {q : β → Bool} (hpq : ∀ a b, R a b → p a = q b) {l : List α} {l' : List β}
    (h : List.Forall₂ R l l') : List.Forall₂ R (l.filter p) (l'.filter q) :=
  List.rel_filter (fun a b hab => by simp only [hpq a b hab]) h

/-- What is the same for what is related is the same for related lists. -/
theorem map_eq_of_rel {γ : Type} {f : α → γ} {f' : β → γ} (hf : ∀ a b, R a b → f a = f' b) {l : List α}
    {l' : List β} (h : List.Forall₂ R l l') : l.map f = l'.map f' := by
  induction h with
  | nil => rfl
  | cons hab _ ih => rw [List.map_cons, List.map_cons, hf _ _ hab, ih]

/-- Lists that are related place by place, put in the place of what is related. -/
theorem rel_flatMap {γ δ : Type} {S : γ → δ → Prop} {f : α → List γ} {f' : β → List δ}
    (hf : ∀ a b, R a b → List.Forall₂ S (f a) (f' b)) {l : List α} {l' : List β} (h : List.Forall₂ R l l') :
    List.Forall₂ S (l.flatMap f) (l'.flatMap f') := by
  induction h with
  | nil => exact .nil
  | cons hab _ ih => exact List.rel_append (hf _ _ hab) ih

theorem isEmpty_eq_of_rel {l : List α} {l' : List β} (h : List.Forall₂ R l l') : l.isEmpty = l'.isEmpty := by
  cases h <;> rfl

/-- What may be missing is missing on both sides. -/
theorem rel_toList {x : Option α} {y : Option β} (h : Option.Rel R x y) : List.Forall₂ R x.toList y.toList := by
  cases h with
  | none => exact .nil
  | some h => exact .cons h .nil

theorem rel_imp {S : α → β → Prop} (hRS : ∀ a b, R a b → S a b) {x : Option α} {y : Option β}
    (h : Option.Rel R x y) : Option.Rel S x y := by
  cases h with
  | none => exact .none
  | some h => exact .some (hRS _ _ h)

theorem rel_symm {S : β → α → Prop} (hRS : ∀ a b, R a b → S b a) {x : Option α} {y : Option β}
    (h : Option.Rel R x y) : Option.Rel S y x := by
  cases h with
  | none => exact .none
  | some h => exact .some (hRS _ _ h)

theorem forall₂_symm {S : β → α → Prop} (hRS : ∀ a b, R a b → S b a) {l : List α} {l' : List β}
    (h : List.Forall₂ R l l') : List.Forall₂ S l' l :=
  (h.imp hRS).flip

theorem isSome_eq_of_rel {x : Option α} {y : Option β} (h : Option.Rel R x y) : x.isSome = y.isSome := by
  cases h <;> rfl

section

variable {G G' : Guard → Guard → Prop}

/-- Two bindings that are the same but for the guards of their handlers. -/
structure Binding.Alike (G : Guard → Guard → Prop) (b b' : Binding) : Prop where
  unguarded : b.unguarded = b'.unguarded
  guard : Option.Rel G b.guard b'.guard

namespace Binding.Alike

variable {b b' : Binding}

theorem record (h : b.Alike G b') : b.record = b'.record := (congrArg Binding.record h.unguarded :)

theorem key (h : b.Alike G b') : b.key = b'.key := (congrArg Binding.key h.unguarded :)

/-- Whether a change triggers a binding has nothing to do with its guard. -/
theorem isTriggeredBy (h : b.Alike G b') (set : ChangeSet) : b.isTriggeredBy set = b'.isTriggeredBy set :=
  (congrArg (fun b : Binding => b.isTriggeredBy set) h.unguarded :)

/-- Guards that are related more loosely: the bindings are still the same but for them. -/
theorem imp (hG : ∀ g g', G g g' → G' g g') (h : b.Alike G b') : b.Alike G' b' :=
  ⟨h.unguarded, rel_imp hG h.guard⟩

theorem symm (hG : ∀ g g', G g g' → G' g' g) (h : b.Alike G b') : b'.Alike G' b :=
  ⟨h.unguarded.symm, rel_symm hG h.guard⟩

end Binding.Alike

/-- Two entries that are the same but for their guards. -/
structure Registry.Entry.Alike (G : Guard → Guard → Prop) (e e' : Registry.Entry) : Prop where
  record : e.record = e'.record
  bindings : List.Forall₂ (Binding.Alike G) e.bindings e'.bindings
  onChange : G e.onChange e'.onChange
  onRequest : G e.onRequest e'.onRequest

namespace Registry

/-- Two registries that are the same but for their guards. -/
def Alike (G : Guard → Guard → Prop) (r r' : Registry) : Prop := List.Forall₂ (Entry.Alike G) r r'

namespace Alike

variable {r r' : Registry}

theorem imp (hG : ∀ g g', G g g' → G' g g') (h : r.Alike G r') : r.Alike G' r' :=
  List.Forall₂.imp (fun _ _ he =>
    ⟨he.record, he.bindings.imp fun _ _ hb => hb.imp hG, hG _ _ he.onChange, hG _ _ he.onRequest⟩) h

theorem symm (hG : ∀ g g', G g g' → G' g' g) (h : r.Alike G r') : r'.Alike G' r :=
  forall₂_symm (fun _ _ he => ⟨he.record.symm, forall₂_symm (fun _ _ hb => hb.symm hG) he.bindings,
    hG _ _ he.onChange, hG _ _ he.onRequest⟩) h

/-- The entries of a record, if there are any, are the same but for their guards. -/
theorem entryOf? (h : r.Alike G r') (id : RecordId) : Option.Rel (Entry.Alike G) (r.entryOf? id) (r'.entryOf? id) :=
  rel_find? (fun _ _ he => by rw [he.record]) h

/-- A binder listens to a record on both sides, or on neither. -/
theorem has (h : r.Alike G r') (id : RecordId) : r.has id = r'.has id := isSome_eq_of_rel (h.entryOf? id)

/-- The bindings of a record stand in the same order. -/
theorem bindingsOf (h : r.Alike G r') (id : RecordId) :
    List.Forall₂ (Binding.Alike G) (r.bindingsOf id) (r'.bindingsOf id) := by
  have he := h.entryOf? id
  unfold Registry.bindingsOf
  generalize r.entryOf? id = x, r'.entryOf? id = y at he
  cases he with
  | none => exact .nil
  | some he => exact he.bindings

/-- All bindings, record by record. -/
theorem bindings (h : r.Alike G r') : List.Forall₂ (Binding.Alike G) r.bindings r'.bindings :=
  rel_flatMap (fun _ _ he => he.bindings) h

/-- What stands under a key of a record. -/
theorem find? (h : r.Alike G r') (id : RecordId) (key : BindingKey) :
    Option.Rel (Binding.Alike G) (r.find? id key) (r'.find? id key) :=
  rel_find? (fun _ _ hb => by rw [hb.key]) (h.bindingsOf id)

/-- **Whether a key is the last of its record**, and its listeners go with it. -/
theorem isLast (h : r.Alike G r') (id : RecordId) (key : BindingKey) : r.isLast id key = r'.isLast id key := by
  have hkeys := map_eq_of_rel (fun _ _ hb => Binding.Alike.key hb) (h.bindingsOf id)
  have hall (bs : List Binding) : (bs.all fun b => b.key = key) = ((bs.map Binding.key).all (· = key)) := by
    rw [List.all_map]
    rfl
  rw [Registry.isLast, hall, hkeys, ← hall]
  rfl

theorem filter (h : r.Alike G r') {p : Entry → Bool} (hp : ∀ e e', e.Alike G e' → p e = p e') :
    Alike G (r.filter p) (r'.filter p) := rel_filter hp h

/-- An entry that is opened takes its place among the records: the place does not depend on guards. -/
theorem openEntry {e e' : Entry} (he : e.Alike G e') (h : r.Alike G r') :
    (Registry.openEntry e r).Alike G (Registry.openEntry e' r') := by
  induction h with
  | nil => exact .cons he .nil
  | cons hx hrest ih =>
    unfold Registry.openEntry
    rw [he.record, hx.record]
    split
    · exact .cons he (.cons hx hrest)
    · exact .cons hx ih

/-- Entries of one record that are changed alike. -/
theorem modify (h : r.Alike G r') (id : RecordId) {f f' : Entry → Entry}
    (hf : ∀ e e', e.Alike G e' → (f e).Alike G (f' e')) : (r.modify id f).Alike G (r'.modify id f') := by
  refine List.rel_map (R := Entry.Alike G) (fun e e' he => ?_) h
  rw [he.record]
  split
  · exact hf e e' he
  · exact he

/-- **A binding that is put under its key** replaces what stands there on both sides. -/
theorem insert (h : r.Alike G r') {b b' : Binding} (hb : b.Alike G b') : (r.insert b).Alike G (r'.insert b') := by
  unfold Registry.insert
  rw [hb.record, hb.key]
  refine h.modify _ fun e e' he => ⟨he.record, ?_, he.onChange, he.onRequest⟩
  exact List.rel_append (rel_filter (fun _ _ hx => by rw [hx.key]) he.bindings) (.cons hb .nil)

/-- **A key that is removed**, with its entry if it is the last. -/
theorem remove (h : r.Alike G r') (id : RecordId) (key : BindingKey) : (r.remove id key).Alike G (r'.remove id key) := by
  unfold Registry.remove
  rw [h.isLast]
  split
  · exact h.filter fun _ _ he => by rw [he.record]
  · refine h.modify id fun e e' he => ⟨he.record, ?_, he.onChange, he.onRequest⟩
    exact rel_filter (fun _ _ hx => by rw [hx.key]) he.bindings

end Alike

end Registry

/-- The guards of the handlers stand in the same places: a binding has one on both sides, or on neither. -/
theorem rel_handlerGuards {bs bs' : List Binding} (h : List.Forall₂ (Binding.Alike G) bs bs') :
    List.Forall₂ G (Store.handlerGuards bs) (Store.handlerGuards bs') :=
  List.rel_filterMap (R := Binding.Alike G) (fun _ _ hb => hb.guard) h

/-- All guards of an entry, those of its two listeners last. -/
theorem rel_entryGuards {e e' : Registry.Entry} (h : e.Alike G e') :
    List.Forall₂ G (Store.entryGuards e) (Store.entryGuards e') :=
  List.rel_append (rel_handlerGuards h.bindings) (.cons h.onChange (.cons h.onRequest .nil))

/-- All guards of a registry. -/
theorem Registry.Alike.guards {r r' : Registry} (h : r.Alike G r') :
    List.Forall₂ G (r.flatMap Store.entryGuards) (r'.flatMap Store.entryGuards) :=
  rel_flatMap (R := Registry.Entry.Alike G) (fun _ _ => rel_entryGuards) h

/-- **Two binders that are the same but for their guards.** -/
structure Binder.Alike (G : Guard → Guard → Prop) (b b' : Binder) : Prop where
  registry : b.registry.Alike G b'.registry
  collections : List.Forall₂ G b.collectionGuards b'.collectionGuards
  retired : b.retired = b'.retired

theorem Binder.Alike.imp (hG : ∀ g g', G g g' → G' g g') {b b' : Binder} (h : b.Alike G b') : b.Alike G' b' :=
  ⟨h.registry.imp hG, h.collections.imp hG, h.retired⟩

theorem Binder.Alike.symm (hG : ∀ g g', G g g' → G' g' g) {b b' : Binder} (h : b.Alike G b') : b'.Alike G' b :=
  ⟨h.registry.symm hG, forall₂_symm hG h.collections, h.retired.symm⟩

/-- The keys that a view gets to own by attaching are the same on both sides. -/
theorem Binder.Alike.keys {b b' : Binder} (h : b.Alike G b') : b.keys = b'.keys :=
  map_eq_of_rel (fun _ _ hx => by rw [Binding.Alike.record hx, Binding.Alike.key hx]) h.registry.bindings

end

end Databind
