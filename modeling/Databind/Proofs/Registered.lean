import Databind.Proofs.Upkeep

/-!
# `Proofs.Registered` — registries hold what stands

What an effect does to the bindings of a record is what its acts say: those they undo go, and those they bind
come behind. Registries are sound after every effect, so no operation leaves an empty entry, a binding under a
record that is not its own, or two bindings under one key.
-/

namespace Databind

open Store

/-- A registry that comes from another by some acts: bindings they undo are gone, and what they bind stands
behind the others. -/
def Registry.Yields (acts : List Act) (r r' : Registry) : Prop :=
  ∀ id, (r'.bindingsOf id).map Binding.unguarded =
    ((r.bindingsOf id).map Binding.unguarded).filter (fun b => acts.all fun a => !a.undoes id b.key) ++
      (standing id acts).map (Prepared.binding · none)

namespace Registry.Yields

variable {acts acts' : List Act} {r r' r'' : Registry}

theorem refl (r : Registry) : Yields [] r r := fun id => by simp [standing]

/-- Acts in turn: what stands of the first ones is what the others do not undo. -/
theorem trans (h : Yields acts r r') (h' : Yields acts' r' r'') : Yields (acts ++ acts') r r'' := by
  intro id
  rw [h' id, h id, standing_append, List.filter_append, List.filter_filter, List.map_append, List.append_assoc]
  congr 1
  · simp only [List.all_append, Bool.and_comm]
  · congr 1
    rw [List.filter_map]
    rfl

/-- An act that neither binds nor undoes anything. -/
theorem of_idle {a : Act} (hundoes : ∀ id key, a.undoes id key = false) (hbinds : ∀ id, standing id [a] = [])
    (r : Registry) : Yields [a] r r := fun id => by simp [hundoes, hbinds]

end Registry.Yields

/-- The bindings under other keys, whatever guards they keep. -/
theorem map_unguarded_without (bs : List Binding) (key : BindingKey) :
    (bs.filter (·.key ≠ key)).map Binding.unguarded =
      (bs.map Binding.unguarded).filter (·.key ≠ key) := by
  rw [List.filter_map]
  rfl

namespace Store

variable {s : Store} {n : Nat}

/-! ## Registries after an operation -/

theorem registry_modifyBinder (n m : Nat) (f : Binder → Binder) (hn : n < s.binders.size) :
    ((s.modifyBinder n f).binder m).registry =
      if m = n then (f (s.binder n)).registry else (s.binder m).registry := by
  rw [binder_modifyBinder]
  by_cases hm : m = n <;> simp [hm, hn]

theorem binder_dropAll (gs : List Guard) (s : Store) (m : Nat) : (s.dropAll gs).binder m = s.binder m := by
  simp only [Store.binder, binders_dropAll]

theorem binder_opened_of_ne (p : Prepared) {m : Nat} (hm : m ≠ n) :
    (s.opened n p).binder m = s.binder m := by
  have hextends := s.extends_warnMissing (s.binder n).config p.record p.normalized.triggers
  unfold opened
  simp only
  split
  · rw [hextends.binder]
  · unfold listen modifyRegistry
    rw [binder_modifyBinder, if_neg (fun h => hm h.1)]
    change (((s.warnMissing _ _ _).subscribe _ _).1.subscribe _ _).1.binder m = s.binder m
    rw [binder_subscribe, binder_subscribe, hextends.binder]

theorem binder_register (b : Binding) (m : Nat) (hn : n < s.binders.size) :
    ((s.register n b).binder m).registry =
      if m = n then (s.binder n).registry.insert b else (s.binder m).registry := by
  have hinsert := registry_modifyBinder (s := s) n m (fun x => { x with registry := x.registry.insert b }) hn
  unfold register
  simp only
  split
  · rw [binder_dropAll]
    exact hinsert
  · exact hinsert

/-- **The registry with a checked binding in it.** -/
theorem registry_commit (hn : n < s.binders.size) (p : Prepared) (m : Nat) :
    ((s.commit n { p with autoRender := false }).binder m).registry =
      if m = n then ((s.opened n p).binder n).registry.insert
        (Prepared.binding p ((s.opened n p).listenBack n p).2)
      else (s.binder m).registry := by
  have hbinders := binders_listenBack (s.opened n p) n p
  have hsize : (s.opened n p).binders.size = s.binders.size := by
    unfold opened
    simp only
    have hextends := s.extends_warnMissing (s.binder n).config p.record p.normalized.triggers
    split
    · rw [hextends.binders]
    · unfold listen modifyRegistry modifyBinder
      rw [Array.size_modify]
      change (s.warnMissing _ _ _).binders.size = s.binders.size
      rw [hextends.binders]
  have hregister := binder_register (s := ((s.opened n p).listenBack n p).1) (n := n)
    (Prepared.binding p ((s.opened n p).listenBack n p).2) m (by rw [hbinders, hsize]; exact hn)
  have hbinder : ∀ k, ((s.opened n p).listenBack n p).1.binder k = (s.opened n p).binder k := fun k => by
    simp only [Store.binder, hbinders]
  rw [hbinder, hbinder] at hregister
  refine hregister.trans ?_
  by_cases hm : m = n
  · rw [if_pos hm, if_pos hm]
  · rw [if_neg hm, if_neg hm, binder_opened_of_ne p hm]

/-- Removing a binding alters the registry of its binder, and no other. -/
theorem registry_removeBinding (hn : n < s.binders.size) (id : RecordId) (key : BindingKey) (m : Nat) :
    ((s.removeBinding n id key).binder m).registry =
      if m = n then (s.binder n).registry.remove id key else (s.binder m).registry := by
  unfold removeBinding
  rw [binder_dropAll]
  exact registry_modifyBinder n m _ hn

/-- Unbinding a record, or all of them, takes whole entries out. -/
theorem registry_unbindAll (id : Option RecordId) (m : Nat) :
    ((s.unbindAll n id).binder m).registry =
      if m = n then (s.binder n).registry.filter fun e => !id.all (e.record = ·)
      else (s.binder m).registry := by
  unfold unbindAll
  simp only
  rw [binder_dropAll, (extends_logAll _ _ _ fun _ => rfl).binder]
  by_cases hn : n < s.binders.size
  · exact registry_modifyBinder n m _ hn
  · unfold modifyRegistry
    rw [modifyBinder_of_size_le hn]
    split
    · next h => rw [h, s.binder_of_size_le hn]; rfl
    · rfl

theorem registry_leaveCollections (m : Nat) :
    ((s.leaveCollections n).binder m).registry = (s.binder m).registry := by
  unfold leaveCollections
  rw [binder_dropAll, binder_modifyBinder]
  split
  · next h => rw [h.1]
  · rfl

theorem registry_listenCollection (c m : Nat) :
    ((s.listenCollection n c).binder m).registry = (s.binder m).registry := by
  unfold listenCollection
  rw [binder_modifyBinder, binder_subscribe, binder_subscribe, binder_subscribe, binder_subscribe]
  split
  · next h => rw [h.1]
  · rfl

/-- A binder that is retired has no bindings. -/
theorem registry_retire (m : Nat) :
    ((s.retire n).binder m).registry = if m = n then [] else (s.binder m).registry := by
  unfold retire
  rw [binder_dropAll, binder_modifyBinder]
  by_cases hn : n < s.binders.size
  · by_cases hm : m = n <;> simp [hm, hn]
  · simp only [hn, and_false, if_false]
    split
    · next h => rw [h, s.binder_of_size_le hn]; rfl
    · rfl

end Store

/-- Every registry is sound. -/
def Store.Registered (s : Store) : Prop := ∀ n, (s.binder n).registry.Sound

namespace Registry

variable {r : Registry}

/-! ## What acts yield -/

/-- **Binding under a key replaces what stood there, and stands last.** -/
theorem yields_insert {r₀ : Registry} (hsame : ∀ id, r.bindingsOf id = r₀.bindingsOf id) {p : Prepared}
    (hhas : r.has p.record = true) (guard : Option Guard) :
    Yields [.bound p] r₀ (r.insert (Prepared.binding p guard)) := by
  intro id
  rw [bindingsOf_insert hhas, ← hsame id]
  by_cases hid : id = p.record
  · subst hid
    have hself : p.record = (Prepared.binding p guard).record := rfl
    rw [if_pos hself, List.map_append, map_unguarded_without]
    congr 1
    · refine List.filter_congr fun b _ => ?_
      by_cases hkey : b.key = p.key
      · simp [Act.undoes, Prepared.binding, hkey]
      · have hne : ¬p.key = b.key := fun heq => hkey heq.symm
        simp [Act.undoes, Prepared.binding, hkey, hne]
    · simp [standing, Binding.unguarded, Prepared.binding]
  · have hne : ¬p.record = id := fun h => hid h.symm
    simp [Prepared.binding, hid, standing, Act.undoes, hne]

/-- A key that is removed takes the binding under it out. -/
theorem yields_remove (r : Registry) (id : RecordId) (key : BindingKey) :
    Yields [.removed id key] r (r.remove id key) := by
  intro id'
  rw [bindingsOf_remove]
  by_cases hid : id' = id
  · subst hid
    rw [if_pos rfl, map_unguarded_without]
    simp [standing, Act.undoes, eq_comm]
  · have hne : ¬id = id' := fun h => hid h.symm
    simp [hid, standing, Act.undoes, hne]

/-- Nothing is removed where nothing stands. -/
theorem yields_absent {id : RecordId} {key : BindingKey} (h : r.find? id key = none) :
    Yields [.removed id key] r r := by
  intro id'
  have hkeep : ∀ b ∈ (r.bindingsOf id').map Binding.unguarded, !(Act.removed id key).undoes id' b.key := by
    intro b hb
    obtain ⟨x, hx, rfl⟩ := List.mem_map.mp hb
    by_cases hid : id = id'
    · subst hid
      have hkey : ¬x.key = key := by simpa using List.find?_eq_none.mp h x hx
      have hne : ¬key = x.key := fun heq => hkey heq.symm
      simp [Act.undoes, Binding.unguarded, hne]
    · simp [Act.undoes, hid]
  rw [List.filter_eq_self.mpr (by simpa using hkeep)]
  simp [standing]

/-- A record that is unbound takes all its bindings out. -/
theorem yields_filter (r : Registry) (id : Option RecordId) :
    Yields [.cleared id] r (r.filter fun e => !id.all (e.record = ·)) := by
  intro id'
  have hfilter := bindingsOf_filter (fun x => !id.all (x = ·)) r id'
  rw [hfilter]
  have hundoes : ∀ key, (Act.cleared id).undoes id' key = id.all (id' = ·) := by
    intro key
    cases id <;> simp [Act.undoes, eq_comm]
  cases hall : id.all (id' = ·) <;> simp [standing, hundoes, hall]

theorem yields_nil (r : Registry) : Yields [.retired] r [] := fun id => by
  simp [standing, Act.undoes, bindingsOf, entryOf?]

end Registry

open Registry

/-- A change of one registry by one act. -/
theorem registered_of_act {s s' : Store} {n : Nat} {a : Act} {r : Registry} (hr : s.Registered)
    (hregistry : ∀ m, (s'.binder m).registry = if m = n then r else (s.binder m).registry) (hsound : r.Sound)
    (hyields : Yields [a] (s.binder n).registry r) :
    s'.Registered ∧ ∀ m, Yields (actsOf m [.act n a]) (s.binder m).registry (s'.binder m).registry := by
  constructor
  · intro m
    rw [hregistry]
    split
    · exact hsound
    · exact hr m
  · intro m
    rw [hregistry]
    by_cases hm : m = n
    · rw [if_pos hm, hm, actsOf_act]
      exact hyields
    · rw [if_neg hm, actsOf_act_of_ne hm]
      exact .refl _

/-- A change that leaves all registries as they are. -/
theorem registered_of_eq {s s' : Store} {ds : List Deed} (hr : s.Registered)
    (hregistry : ∀ m, (s'.binder m).registry = (s.binder m).registry)
    (hidle : ∀ m, Yields (actsOf m ds) (s.binder m).registry (s.binder m).registry) :
    s'.Registered ∧ ∀ m, Yields (actsOf m ds) (s.binder m).registry (s'.binder m).registry :=
  ⟨fun m => by rw [hregistry]; exact hr m, fun m => by rw [hregistry]; exact hidle m⟩

theorem yields_of_idle {n : Nat} {a : Act} (hundoes : ∀ id key, a.undoes id key = false)
    (hbinds : ∀ id, standing id [a] = []) (m : Nat) (r : Registry) : Yields (actsOf m [.act n a]) r r := by
  by_cases hm : m = n
  · rw [hm, actsOf_act]
    exact .of_idle hundoes hbinds r
  · rw [actsOf_act_of_ne hm]
    exact .refl r

/-- **One effect** keeps registries sound, and does to them what its acts say. -/
theorem Effect.registered {a b : Scene} {ds : List Deed} (h : Effect a ds b) (hw : a.store.Wired [])
    (hr : a.store.Registered) :
    b.store.Registered ∧
      ∀ n, Yields (actsOf n ds) (a.store.binder n).registry (b.store.binder n).registry := by
  cases h with
  | extended h => exact registered_of_eq hr (fun m => by simp only [h.binder]) fun _ => .refl _
  | strayed | read | wrote | destroyed => exact registered_of_eq hr (fun _ => rfl) fun _ => .refl _
  | @addedBinder s calls scope config =>
    refine registered_of_eq hr (fun m => ?_) fun m => yields_of_idle (fun _ _ => rfl) (fun _ => rfl) m _
    rw [binder_addBinder]
    split
    · next h => rw [h, s.binder_of_size_le (Nat.lt_irrefl _)]; rfl
    · rfl
  | @bound s calls n p hlive halive =>
    have hn := s.lt_of_not_retired hlive
    obtain ⟨e, he, hbindings, hentries⟩ := opened_registry hn p
    have hhas : ((s.opened n p).binder n).registry.has p.record = true := Option.isSome_iff_exists.mpr ⟨e, he⟩
    have hopen : Rewires n (.bound p) (s, []) (s.opened n p, []) := opened_rewires hn (hw.fit n) hlive halive
    refine registered_of_act hr (registry_commit hn p) (sound_insert (hopen.fit (hw.fit n)).tidy ?_)
      (yields_insert hbindings hhas _)
    intro x hx hrecord
    exact (hr n).nonempty x ((hentries x hx).resolve_right hrecord)
  | @removed s calls n id key h =>
    obtain ⟨e, he⟩ := entryOf?_of_find? h
    exact registered_of_act hr (registry_removeBinding (lt_of_entryOf? he) id key) (sound_remove (hr n) id key)
      (yields_remove _ id key)
  | @absent s calls n id key h =>
    refine registered_of_eq hr (fun _ => rfl) fun m => ?_
    by_cases hm : m = n
    · rw [hm, actsOf_act]
      exact yields_absent h
    · rw [actsOf_act_of_ne hm]
      exact .refl _
  | cleared n id =>
    exact registered_of_act hr (registry_unbindAll id) (sound_filter (hr n) _) (yields_filter _ id)
  | joined n c =>
    exact registered_of_eq hr (registry_listenCollection c) fun m =>
      yields_of_idle (fun _ _ => rfl) (fun _ => rfl) m _
  | left n =>
    exact registered_of_eq hr registry_leaveCollections fun m =>
      yields_of_idle (fun _ _ => rfl) (fun _ => rfl) m _
  | retired n => exact registered_of_act hr registry_retire sound_nil (yields_nil _)
  | heard n l signal =>
    exact registered_of_eq hr (fun _ => rfl) fun m => yields_of_idle (fun _ _ => rfl) (fun _ => rfl) m _
  | @rendered s calls n b =>
    exact registered_of_eq hr (fun m => by simp only [(s.keeps_render n b).binder]) fun m =>
      yields_of_idle (fun _ _ => rfl) (fun _ => rfl) m _
  | subscribed => exact registered_of_eq hr (fun m => by simp only [binder_subscribe]) fun _ => .refl _
  | delegated | clearedList | drewEvent => exact registered_of_eq hr (fun _ => rfl) fun _ => .refl _
  | @dropped s calls g =>
    exact registered_of_eq hr (fun m => by simp only [Store.binder, Wired.binders_drop]) fun _ => .refl _
  | drew ch | finished ch =>
    exact registered_of_eq hr (fun m => by cases ch <;> rfl) fun _ => .refl _

/-- **Any effects** keep registries sound, and do to them what their acts say. -/
theorem Effects.registered {a b : Scene} {ds : List Deed} (h : Effects a ds b) (ha : a.Sound)
    (hr : a.store.Registered) :
    b.store.Registered ∧
      ∀ n, Yields (actsOf n ds) (a.store.binder n).registry (b.store.binder n).registry := by
  induction h with
  | refl => exact ⟨hr, fun _ => .refl _⟩
  | tail hfirst hlast ih =>
    obtain ⟨hr', hyields⟩ := ih
    obtain ⟨hr'', hyields'⟩ := hlast.registered (hfirst.upkeep ha).2.wired hr'
    refine ⟨hr'', fun n => ?_⟩
    rw [actsOf_append]
    exact (hyields n).trans (hyields' n)

end Databind
