import Databind.Proofs.Upkeep

/-!
# `Proofs.Operation` — operations of a store are made of effects

Each operation of binders, views, records and collections is a sequence of effects with exactly the deeds that
`Proofs.Deed` gives it. The lemmas follow the operations: a composite one is put together from those it calls,
with the frame of what was done before.
-/

namespace Databind

/-! ## Deeds on what binders keep -/

/-- Whether a deed leaves fields, lives and handles alone. -/
def Deed.isMild : Deed → Bool
  | .act _ .made => false
  | .act _ .retired => false
  | .act _ _ => true
  | _ => false

/-- Deeds on bindings and guards of binders only. -/
def Mild (ds : List Deed) : Prop := ∀ d ∈ ds, d.isMild = true

namespace Mild

variable {ds ds' : List Deed}

theorem append (h : Mild ds) (h' : Mild ds') : Mild (ds ++ ds') := fun d hd =>
  (List.mem_append.mp hd).elim (h d) (h' d)

theorem wrote (h : Mild ds) (id : RecordId) : Deed.wrote id ∉ ds := fun hd =>
  absurd (h _ hd) (by simp [Deed.isMild])

theorem destroyed (h : Mild ds) (id : RecordId) : Deed.destroyed id ∉ ds := fun hd =>
  absurd (h _ hd) (by simp [Deed.isMild])

theorem read (h : Mild ds) : Deed.read ∉ ds := fun hd => absurd (h _ hd) (by simp [Deed.isMild])

theorem act (h : Mild ds) {n : Nat} {a : Act} (ha : a ∈ actsOf n ds) : (Deed.act n a).isMild = true := by
  obtain ⟨d, hd, hact⟩ := List.mem_filterMap.mp ha
  cases d with
  | act m a' =>
    by_cases hm : m = n
    · simp only [hm, if_true, Option.some.injEq] at hact
      exact hact ▸ hm ▸ h _ hd
    · simp [hm] at hact
  | _ => simp at hact

theorem made (h : Mild ds) (n : Nat) : Act.made ∉ actsOf n ds := fun ha =>
  absurd (h.act ha) (by simp [Deed.isMild])

theorem retired (h : Mild ds) (n : Nat) : Act.retired ∉ actsOf n ds := fun ha =>
  absurd (h.act ha) (by simp [Deed.isMild])

end Mild

/-! ## Tasks -/

/-- The call list that a task runs. -/
def Task.call? : Task → Option (Channel × List Nat)
  | .notify channel pinned _ _ => some (channel, pinned)
  | .dispatch tree pinned _ _ => some (.delegations tree, pinned)
  | _ => none

/-- The call lists that tasks run. -/
def callsOf (tasks : List Task) : List (Channel × List Nat) := tasks.filterMap Task.call?

/-- A checked binding that can be put into effect. -/
structure Prepared.Ready (s : Store) (p : Prepared) : Prop where
  alive : (s.record p.record).alive = true
  field : p.event.isSome → p.normalized.accessor.field?.isSome

/-- A binding that was checked can still be put into effect after something mild: no record is destroyed meanwhile. -/
theorem Prepared.Ready.of_follows {s s' : Store} {ds : List Deed} {p : Prepared} (h : p.Ready s)
    (hfollows : Store.Follows ds s s') (hmild : Mild ds) : p.Ready s' :=
  ⟨by rw [hfollows.alive _ (s.lt_of_alive h.alive) (hmild.destroyed _)]; exact h.alive, h.field⟩

namespace Store

variable {s s' : Store} {calls : List (Channel × List Nat)} {n : Nat}

/-! ## Checking -/

/-- **What passes the check**: the record is alive, the property has a normal form, and what writes back has a field. -/
theorem prepare_eq_ok {id : RecordId} {property : Property} {key : BindingKey} {twoWay : TwoWay}
    {autoRender : Bool} {p : Prepared} :
    s.prepare n id property key twoWay autoRender = .ok p ↔
      (s.record id).alive = true ∧ ∃ normalized, property.normalize = .ok normalized ∧
        ((eventOf (s.binder n).config twoWay).isSome && normalized.accessor.isFunction) = false ∧
        p = ⟨id, normalized, eventOf (s.binder n).config twoWay, key, autoRender⟩ := by
  unfold prepare
  constructor
  · intro h
    split at h
    · cases h
    · next halive =>
      cases hnormal : property.normalize with
      | error e => simp [hnormal, Bind.bind, Except.bind] at h
      | ok normalized =>
        simp only [hnormal, Bind.bind, Except.bind] at h
        split at h
        · cases h
        · next hfunction =>
          cases h
          exact ⟨by simpa using halive, normalized, rfl, Bool.eq_false_iff.mpr hfunction, rfl⟩
  · rintro ⟨halive, normalized, hnormal, hfunction, rfl⟩
    simp [halive, hnormal, hfunction, Bind.bind, Except.bind]

/-- **What passes the check is ready.** -/
theorem prepare_ready {id : RecordId} {property : Property} {key : BindingKey} {twoWay : TwoWay}
    {autoRender : Bool} {p : Prepared} (h : s.prepare n id property key twoWay autoRender = .ok p) :
    p.Ready s := by
  obtain ⟨halive, normalized, -, hfunction, rfl⟩ := prepare_eq_ok.mp h
  refine ⟨halive, fun hevent => ?_⟩
  simp only at hevent
  simp only [hevent, Bool.true_and, Accessor.isFunction] at hfunction
  simpa using hfunction

/-- **A map on one record is checked entry by entry**: the key, the value, and the binding that they ask for. -/
theorem prepareRecord_cons {autoRender : Bool} {id : RecordId} {key : String} {value : MapValue}
    {rest : List (String × MapValue)} {ps : List Prepared}
    (h : s.prepareRecord n autoRender id ((key, value) :: rest) = .ok ps) :
    ∃ descriptor property p ps', Descriptor.parse key (s.binder n).config.defaultEvent = .ok descriptor ∧
      value.property? key = .ok property ∧ s.prepareAt n autoRender id descriptor property = .ok p ∧
      s.prepareRecord n autoRender id rest = .ok ps' ∧ ps = p :: ps' := by
  simp only [prepareRecord, Bind.bind, Except.bind] at h
  split at h
  · cases h
  · next descriptor hdescriptor =>
    split at h
    · cases h
    · next property hproperty =>
      split at h
      · cases h
      · next p hp =>
        split at h
        · cases h
        · next ps' hps => exact ⟨descriptor, property, p, ps', hdescriptor, hproperty, hp, hps, by cases h; rfl⟩

/-- **A plan is checked binding by binding.** -/
theorem preparePlan_cons {autoRender : Bool} {b : Planned} {rest : List Planned} {ps : List Prepared} :
    s.preparePlan n autoRender (b :: rest) = .ok ps ↔
      ∃ p ps', s.prepareAt n autoRender b.record b.descriptor b.property = .ok p ∧
        s.preparePlan n autoRender rest = .ok ps' ∧ ps = p :: ps' := by
  simp only [preparePlan, Bind.bind, Except.bind]
  cases s.prepareAt n autoRender b.record b.descriptor b.property with
  | error e => simp
  | ok p => cases s.preparePlan n autoRender rest <;> simp [eq_comm]

/-- The bindings of a map for one record, once they are checked. -/
theorem prepareRecord_ready {autoRender : Bool} {id : RecordId} {entries : List (String × MapValue)}
    {ps : List Prepared} (h : s.prepareRecord n autoRender id entries = .ok ps) : ∀ p ∈ ps, p.Ready s := by
  induction entries generalizing ps with
  | nil => cases h; simp
  | cons entry rest ih =>
    obtain ⟨descriptor, property, p, ps', -, -, hp, hps, rfl⟩ := prepareRecord_cons h
    intro q hq
    rcases List.mem_cons.mp hq with rfl | hq
    · exact prepare_ready hp
    · exact ih hps q hq

/-- The bindings of a plan for a collection, once they are checked. -/
theorem preparePlan_ready {autoRender : Bool} {plan : List Planned} {ps : List Prepared}
    (h : s.preparePlan n autoRender plan = .ok ps) : ∀ p ∈ ps, p.Ready s := by
  induction plan generalizing ps with
  | nil => cases h; simp
  | cons planned rest ih =>
    obtain ⟨p, ps', hp, hps, rfl⟩ := preparePlan_cons.mp h
    intro q hq
    rcases List.mem_cons.mp hq with rfl | hq
    · exact prepare_ready hp
    · exact ih hps q hq

/-- Everything a map asks for is ready once it is checked. -/
theorem checked_ready {source : Source} {map : BindingMap} {autoRender : Bool} {ps : List Prepared}
    (h : s.checked n source map autoRender = .ok ps) : ∀ p ∈ ps, p.Ready s := by
  cases source with
  | none => cases h; simp
  | record id => exact prepareRecord_ready h
  | collection c =>
    simp only [checked, Bind.bind, Except.bind] at h
    split at h
    · cases h
    · exact preparePlan_ready h

/-- A note taken in the meantime does not change what a check says. -/
theorem preparePlan_log (notice : Notice) (autoRender : Bool) (plan : List Planned) :
    (s.log notice).preparePlan n autoRender plan = s.preparePlan n autoRender plan := by
  induction plan with
  | nil => rfl
  | cons planned rest ih =>
    simp only [preparePlan, ih]
    rfl

/-! ## Rendering -/

/-- **Rendering** leaves records alone. -/
theorem records_render (n : Nat) (b : Binding) : (s.render n b).records = s.records := by
  have hselect : ((s.observe (.query b.key.selector)).select (s.binder n).scope b.key.selector).1.records =
      s.records := by
    unfold select
    split
    · rfl
    · split <;> rfl
  unfold render
  simp only
  split
  · simpa only [log] using hselect
  · simpa only [modifyArena, modifyTree, log] using hselect

theorem fields_render (n : Nat) (b : Binding) (id : RecordId) : (s.render n b).fields id = s.fields id := by
  simp only [Store.fields, record, records_render]

theorem mild_renderDeeds (s : Store) (n : Nat) (bs : List Binding) : Mild (s.renderDeeds n bs) := by
  intro d hd
  obtain ⟨b, -, rfl⟩ := List.mem_map.mp hd
  rfl

theorem renderAll_cons (s : Store) (n : Nat) (b : Binding) (rest : List Binding) :
    s.renderAll n (b :: rest) = (s.render n b).renderAll n rest := by
  unfold renderAll
  rw [List.foldl_cons]

/-- Rendering bindings in turn, each on the fields as they are: rendering writes none. -/
theorem renderAll_effects (s : Store) (n : Nat) (bs : List Binding) :
    Effects ⟨s, calls⟩ (s.renderDeeds n bs) ⟨s.renderAll n bs, calls⟩ := by
  induction bs generalizing s with
  | nil => exact .refl _
  | cons b rest ih =>
    have hfirst : Effect ⟨s, calls⟩ [.act n (.rendered b.unguarded (s.fields b.record))] ⟨s.render n b, calls⟩ :=
      .rendered n b
    have hdeeds : s.renderDeeds n (b :: rest) =
        [.act n (.rendered b.unguarded (s.fields b.record))] ++ (s.render n b).renderDeeds n rest := by
      simp only [renderDeeds, fields_render]
      rfl
    rw [hdeeds, renderAll_cons]
    exact (Effects.single hfirst).trans (ih (s.render n b))

/-! ## Making bindings -/

theorem mild_commitDeeds (s : Store) (n : Nat) (p : Prepared) : Mild (s.commitDeeds n p) := by
  intro d hd
  rcases List.mem_cons.mp hd with rfl | hd
  · rfl
  · split at hd
    · exact mild_renderDeeds s n _ d hd
    · simp at hd

/-- **Putting a checked binding into effect.** -/
theorem commit_effects (hw : s.Wired []) (hlive : (s.binder n).retired = false) {p : Prepared}
    (hp : p.Ready s) : Effects ⟨s, calls⟩ (s.commitDeeds n p) ⟨s.commit n p, calls⟩ := by
  have hbound : Effects ⟨s, calls⟩ [.act n (.bound p)] ⟨s.commit n { p with autoRender := false }, calls⟩ :=
    .single (.bound n p hlive hp.alive hp.field)
  cases hrender : p.autoRender with
  | false =>
    have hsame : { p with autoRender := false } = p := by rw [← hrender]
    rw [hsame] at hbound
    simpa [commitDeeds, hrender] using hbound
  | true =>
    have hfollows := (commit_rewires (l := []) (s.lt_of_not_retired hlive) (hw.fit n) hlive (hw.scopes n hlive)
      hp.alive hp.field).follows
    have hfields : (s.commit n { p with autoRender := false }).fields p.record = s.fields p.record :=
      hfollows.fields _ (s.lt_of_alive hp.alive) (by simp)
    have hcommit : s.commit n p = (s.commit n { p with autoRender := false }).render n
        (Prepared.binding p ((s.opened n p).listenBack n p).2) := by
      simp only [commit_eq, hrender, if_true]
      rfl
    have hrendered := hbound.tail (.rendered n (Prepared.binding p ((s.opened n p).listenBack n p).2))
    rw [hcommit]
    simpa [commitDeeds, hrender, renderDeeds, Prepared.binding, Binding.unguarded, hfields] using hrendered

/-- **A binding is made directly**, or it is refused and a notice says so. -/
theorem bind_effects (hw : s.Wired []) (hlive : (s.binder n).retired = false) (id : RecordId)
    (property : Property) (key : BindingKey) (twoWay : TwoWay) (autoRender : Bool) :
    Effects ⟨s, calls⟩ (s.bindDeeds n id property key twoWay autoRender)
      ⟨(s.bind n id property key twoWay autoRender).1, calls⟩ := by
  cases hp : s.prepare n id property key twoWay autoRender with
  | ok p =>
    simp only [bindDeeds, Store.bind, hp]
    exact commit_effects hw hlive (prepare_ready hp)
  | error e =>
    simp only [bindDeeds, Store.bind, hp]
    exact .refl _

/-! ## Removing bindings -/

/-- A key is unbound, whether or not something stands under it. -/
theorem unbind_effects (s : Store) (n : Nat) (id : RecordId) (key : BindingKey) :
    Effects ⟨s, calls⟩ [.act n (.removed id key)] ⟨s.unbind n id key, calls⟩ := by
  unfold unbind
  simp only
  split
  · next hhas =>
    have hnone : (s.binder n).registry.find? id key = none := by
      have hentry := Option.not_isSome_iff_eq_none.mp (by simpa [Registry.has] using hhas)
      simp [Registry.find?, Registry.bindingsOf_of_none hentry]
    exact (Effects.single (.absent n id key hnone)).then_extends (extends_log _ _ rfl)
  · split
    · next hnone =>
      exact (Effects.single (.absent n id key (Option.isNone_iff_eq_none.mp hnone))).then_extends
        (extends_log _ _ rfl)
    · next hfound =>
      have hsome : ((s.binder n).registry.find? id key).isSome :=
        Option.isSome_iff_ne_none.mpr (by simpa using hfound)
      split
      · exact .after_extends ((s.extends_log _ rfl).trans (extends_log _ _ rfl)) (.single (.removed n id key hsome))
      · exact .after_extends (s.extends_log _ rfl) (.single (.removed n id key hsome))

/-- **Everything is detached**: the bindings first, then the collections. -/
theorem detach_effects (s : Store) (n : Nat) :
    Effects ⟨s, calls⟩ (detachDeeds n) ⟨s.detach n, calls⟩ := by
  have hcleared : Effects ⟨s, calls⟩ [.act n (.cleared none)] ⟨s.unbindAll n none, calls⟩ :=
    .single (.cleared n none)
  unfold detach
  simp only
  split
  · exact hcleared.tail (.left n)
  · exact (hcleared.then_extends (extends_log _ _ rfl)).tail (.left n)

theorem mild_detachDeeds (n : Nat) : Mild (detachDeeds n) := by simp [Mild, detachDeeds, Deed.isMild]

/-- Releasing keys one after the other; one that is gone stays gone. -/
theorem releaseKeys_effects (s : Store) (n count : Nat) (keys : List (RecordId × BindingKey)) :
    Effects ⟨s, calls⟩ (keys.map fun (id, key) => .act n (.removed id key))
      ⟨(keys.foldl (fun (s, count) (id, key) =>
        if ((s.binder n).registry.find? id key).isSome then (s.removeBinding n id key, count + 1)
        else (s, count)) (s, count)).1, calls⟩ := by
  induction keys generalizing s count with
  | nil => exact .refl _
  | cons entry rest ih =>
    obtain ⟨id, key⟩ := entry
    rw [List.map_cons, List.foldl_cons]
    simp only
    split
    · next hfound => exact (Effects.single (.removed n id key hfound)).trans (ih _ _)
    · next hfound =>
      have hnone := Option.not_isSome_iff_eq_none.mp hfound
      exact (Effects.single (.absent n id key hnone)).trans (ih _ _)

/-- Keys are released one by one, and then the collection if it is asked for. -/
theorem release_effects (s : Store) (n : Nat) (keys : List (RecordId × BindingKey)) (collections : Bool) :
    Effects ⟨s, calls⟩ (releaseDeeds n keys collections) ⟨s.release n keys collections, calls⟩ := by
  have hkeys := @releaseKeys_effects calls s n 0 keys
  unfold release releaseDeeds
  simp only
  split
  · exact (hkeys.then_extends (extends_log _ _ rfl)).tail (.left n)
  · exact (hkeys.then_extends (extends_log _ _ rfl)).trans (.refl _)

theorem mild_releaseDeeds (n : Nat) (keys : List (RecordId × BindingKey)) (collections : Bool) :
    Mild (releaseDeeds n keys collections) := by
  intro d hd
  rcases List.mem_append.mp hd with hd | hd
  · obtain ⟨entry, -, rfl⟩ := List.mem_map.mp hd
    rfl
  · split at hd
    · rw [List.mem_singleton.mp hd]
      rfl
    · simp at hd

/-! ## Attaching -/

/-- The deeds of ready bindings are the same after deeds that write nothing. -/
theorem commitDeeds_of_follows {ds : List Deed} (hfollows : Follows ds s s') (hmild : Mild ds)
    {ps : List Prepared} (hps : ∀ p ∈ ps, p.Ready s) :
    ps.flatMap (s'.commitDeeds n) = ps.flatMap (s.commitDeeds n) := by
  refine List.flatMap_congr fun p hp => ?_
  have hfields := hfollows.fields p.record (s.lt_of_alive (hps p hp).alive) (hmild.wrote _)
  simp only [commitDeeds, renderDeeds, Prepared.binding, List.map_cons, List.map_nil, hfields]

/-- **The bindings of a map**, one after the other: each leaves the record of the next as it was. -/
theorem commitAll_effects (ha : Scene.Sound ⟨s, calls⟩) (hlive : (s.binder n).retired = false)
    {ps : List Prepared} (hps : ∀ p ∈ ps, p.Ready s) :
    Effects ⟨s, calls⟩ (ps.flatMap (s.commitDeeds n)) ⟨s.commitAll n ps, calls⟩ := by
  induction ps generalizing s with
  | nil => exact .refl _
  | cons p rest ih =>
    have hfirst : Effects ⟨s, calls⟩ (s.commitDeeds n p) ⟨s.commit n p, calls⟩ :=
      commit_effects ha.store_wired hlive (hps p List.mem_cons_self)
    have hfollows := hfirst.follows ha
    have hsound := hfirst.sound ha
    have hmild := mild_commitDeeds s n p
    have hready : ∀ q ∈ rest, q.Ready s := fun q hq => hps q (List.mem_cons_of_mem _ hq)
    have hlive' : ((s.commit n p).binder n).retired = false :=
      (hfollows.retired n (hmild.made n) (hmild.retired n)).trans hlive
    have hrest := ih hsound hlive' fun q hq => (hready q hq).of_follows hfollows hmild
    rw [commitDeeds_of_follows hfollows hmild hready] at hrest
    exact hfirst.trans hrest

/-- Detaching, then putting ready bindings into effect. -/
theorem replaceAll_effects (ha : Scene.Sound ⟨s, calls⟩) (hlive : (s.binder n).retired = false)
    {ps : List Prepared} (hps : ∀ p ∈ ps, p.Ready s) :
    Effects ⟨s, calls⟩ (detachDeeds n ++ ps.flatMap (s.commitDeeds n))
      ⟨(s.detach n).commitAll n ps, calls⟩ := by
  have hdetach : Effects ⟨s, calls⟩ (detachDeeds n) ⟨s.detach n, calls⟩ := detach_effects s n
  have hfollows := hdetach.follows ha
  have hsound := hdetach.sound ha
  have hmild := mild_detachDeeds n
  have hlive' : ((s.detach n).binder n).retired = false :=
    (hfollows.retired n (hmild.made n) (hmild.retired n)).trans hlive
  have hcommit := commitAll_effects hsound hlive' fun p hp => (hps p hp).of_follows hfollows hmild
  rw [commitDeeds_of_follows hfollows hmild hps] at hcommit
  exact hdetach.trans hcommit

theorem mild_flatMap_commitDeeds (s : Store) (n : Nat) (ps : List Prepared) :
    Mild (ps.flatMap (s.commitDeeds n)) := by
  intro d hd
  obtain ⟨p, -, hd⟩ := List.mem_flatMap.mp hd
  exact mild_commitDeeds s n p d hd

/-- **Attaching a map** checks all of it, and then replaces everything. -/
theorem attach_effects (ha : Scene.Sound ⟨s, calls⟩) (hlive : (s.binder n).retired = false)
    {source : Source} (hsource : ∀ c, source = .collection c → c < s.collections.size) (map : BindingMap)
    (autoRender : Option Bool) :
    Effects ⟨s, calls⟩ (s.attachDeeds n source map autoRender)
      ⟨(s.attach n source map autoRender).1, calls⟩ := by
  unfold attachDeeds attach
  by_cases hempty : map.isEmpty = true
  · simp only [hempty, Bool.true_or, if_true]
    exact .refl _
  · simp only [hempty, Bool.false_or, Bool.false_eq_true, if_false]
    cases source with
    | none => exact .refl _
    | record id =>
      simp only [reduceCtorEq, decide_false, Bool.false_eq_true, if_false, checked, attachRecord, joinDeeds,
        List.append_nil]
      split
      · next ps hps =>
        rw [hps]
        exact replaceAll_effects ha hlive (prepareRecord_ready hps)
      · next e he =>
        rw [he]
        exact .refl _
    | collection c =>
      simp only [reduceCtorEq, decide_false, Bool.false_eq_true, if_false, checked, attachCollection, joinDeeds,
        Bind.bind, Except.bind]
      cases hexpand : s.expand c map (s.binder n).config.defaultEvent with
      | error e => exact .refl _
      | ok plan =>
        have hextends := s.extends_log (.expanded (s.collection c).members.length plan.length) rfl
        simp only [preparePlan_log]
        cases hplan : s.preparePlan n (autoRender.getD (s.binder n).config.autoRender) plan with
        | error e => exact .extended hextends _
        | ok ps =>
          -- the message that is logged in between does not unsettle what was checked
          have hready := preparePlan_ready hplan
          have hlog := Effects.extended hextends calls
          have hfollows := hlog.follows ha
          have hsound := hlog.sound ha
          have hreplace := replaceAll_effects hsound hlive fun p hp =>
            (hready p hp).of_follows hfollows (by simp [Mild])
          rw [commitDeeds_of_follows hfollows (by simp [Mild]) hready] at hreplace
          have hall := hlog.trans hreplace
          have hmild := (mild_detachDeeds n).append (mild_flatMap_commitDeeds s n ps)
          have hfollows' := hall.follows ha
          refine hall.tail (.joined n c ?_ ?_)
          · exact (hfollows'.retired n (by simpa using hmild.made n) (by simpa using hmild.retired n)).trans hlive
          · exact Nat.lt_of_lt_of_le (hsource c rfl) hfollows'.collections

/-- Attaching a map writes nothing, destroys nothing, and retires nobody. -/
theorem mild_attachDeeds (s : Store) (n : Nat) (source : Source) (map : BindingMap)
    (autoRender : Option Bool) : Mild (s.attachDeeds n source map autoRender) := by
  have hjoin : Mild (joinDeeds n source) := by cases source <;> simp [Mild, joinDeeds, Deed.isMild]
  unfold attachDeeds
  split
  · simp [Mild]
  · split
    · exact ((mild_detachDeeds n).append (mild_flatMap_commitDeeds s n _)).append hjoin
    · simp [Mild]

/-! ## Views -/

/-- **A view is mounted**: what happens to its binder is an attachment. -/
theorem mount_effects (ha : Scene.Sound ⟨s, calls⟩) {v : Nat}
    (hlive : (s.binder (s.view v).binder).retired = false) (hsourced : s.Sourced) :
    Effects ⟨s, calls⟩ (s.mountDeeds v) ⟨(s.mount v).1, calls⟩ := by
  have hattach := attach_effects ha hlive (fun c hc => hsourced v c hc) (s.view v).bindings (some false)
  unfold mount
  simp only
  split
  · next s' e heq =>
    rw [heq] at hattach
    exact hattach
  · next s' heq =>
    rw [heq] at hattach
    split
    · exact hattach
    · exact hattach.then_extends (extends_modifyView _ _ (fun _ => rfl) fun _ _ h => .inl h)

/-- A view is unmounted: its binder releases what the view owns. -/
theorem unmount_effects (s : Store) (v : Nat) :
    Effects ⟨s, calls⟩ (s.unmountDeeds v) ⟨s.unmount v, calls⟩ := by
  have hextends := s.extends_modifyView v (f := fun x => { x with owned := [], ownsCollection := false })
    (fun _ => rfl) fun _ _ h => .inl h
  unfold unmount unmountDeeds
  simp only
  split
  · exact .after_extends hextends (release_effects _ _ _ _)
  · exact .extended hextends _

theorem mild_unmountDeeds (s : Store) (v : Nat) : Mild (s.unmountDeeds v) := by
  unfold unmountDeeds
  simp only
  split
  · exact mild_releaseDeeds _ _ _
  · simp [Mild]

/-! ## Notifications -/

/-- A binder renders what it has. -/
theorem renderBindings_effects (s : Store) (n : Nat) (id : Option RecordId) :
    Effects ⟨s, calls⟩ (s.renderBindingsDeeds n id) ⟨s.renderBindings n id, calls⟩ :=
  renderAll_effects s n _

/-- **A binder hears a notification.** -/
theorem react_effects (s : Store) (listener : Listener) (signal : Signal) :
    Effects ⟨s, calls⟩ (s.reactDeeds listener signal) ⟨Session.react s listener signal, calls⟩ := by
  -- a binder that is retired hears nothing
  have heard (n : Nat) {ds : List Deed} {s' : Store} (h : Effects ⟨s, calls⟩ ds ⟨s', calls⟩) :
      Effects ⟨s, calls⟩
        (if (s.binder n).retired then [] else .act n (.heard listener signal) :: ds)
        ⟨if (s.binder n).retired then s else s', calls⟩ := by
    split
    · exact .refl _
    · exact (Effects.single (.heard n listener signal)).trans h
  have hstill : Effects ⟨s, calls⟩ [] ⟨s, calls⟩ := .refl _
  cases listener with
  | callback n => cases signal <;> exact hstill
  | repaint n id =>
    cases signal with
    | changed set =>
      refine heard n ?_
      unfold onChange
      simp only
      split
      · next hempty =>
        rw [List.isEmpty_iff.mp hempty]
        exact .extended (s.extends_log _ rfl) _
      · exact renderAll_effects s n _
    | _ => exact hstill
  | repaintAll n id =>
    cases signal with
    | render =>
      let bindings := (s.binder n).registry.bindingsOf id
      exact heard n (.after_extends (s.extends_log (.forcedRender id bindings.length) rfl)
        (renderAll_effects (s.log _) n bindings))
    | _ => exact hstill
  | dropMember n =>
    cases signal with
    | removed id => exact heard n (.after_extends (s.extends_log _ rfl) (.single (.cleared n (some id))))
    | _ => exact hstill
  | dropAll n =>
    cases signal with
    | reset => exact heard n (.after_extends (s.extends_log _ rfl) (detach_effects _ n))
    | _ => exact hstill

theorem mild_reactDeeds (s : Store) (listener : Listener) (signal : Signal) :
    Mild (s.reactDeeds listener signal) := by
  have heard (n : Nat) {ds : List Deed} (h : Mild ds) :
      Mild (if (s.binder n).retired then [] else .act n (.heard listener signal) :: ds) := by
    split
    · simp [Mild]
    · intro d hd
      rcases List.mem_cons.mp hd with rfl | hd
      · rfl
      · exact h d hd
  unfold reactDeeds
  simp only
  split
  · exact heard _ (mild_renderDeeds _ _ _)
  · exact heard _ (mild_renderDeeds _ _ _)
  · exact heard _ (by simp [Mild, Deed.isMild])
  · exact heard _ (mild_detachDeeds _)
  · simp [Mild]

/-- **A notification begins**: its call list is drawn up, and is running from now on. -/
theorem notify_effects (s : Store) (ch : Channel) (signal : Signal) :
    Effects ⟨s, calls⟩ [] ⟨(s.notify ch signal).1, callsOf [(s.notify ch signal).2] ++ calls⟩ :=
  .single (.drew ch)

/-- **A dispatch begins**: the same with the handlers of a tree. -/
theorem fire_effects (s : Store) (tree : Nat) (event : String) (target : Nat) :
    Effects ⟨s, calls⟩ []
      ⟨(s.fire tree event target).1, callsOf [(s.fire tree event target).2.1] ++ calls⟩ :=
  .single (.drewEvent tree event target)

/-! ## Batches of writes -/

/-- The store in which the writes of a batch were validated. -/
def validated (s : Store) (id : RecordId) (b : Record.Batch) : Store :=
  (b.consulted.foldl (fun s (name, v) => s.observe (.validate name v)) s).logAll
    (b.refused.map fun (name, reason) => .writeRefused id name reason)

/-- The store in which a batch is stored, and nobody is notified yet. -/
def stored (s : Store) (id : RecordId) (entries : List (String × Value)) : Store :=
  let b := (s.record id).batch entries
  (s.validated id b).modifyRecord id (·.commit b)

/-- The request to be rendered that a batch with refused writes leaves. -/
def requestsOf (id : RecordId) (b : Record.Batch) : List Task :=
  if b.refused.isEmpty then [] else [.request id]

variable {id : RecordId} {entries : List (String × Value)}

/-- A record that was destroyed ignores writes. -/
theorem write_of_dead (h : (s.record id).alive = false) : s.write id entries = (s.log (.writeIgnored id), []) := by
  simp [write, h]

/-- **A batch that alters nothing** notifies nobody; a write of it that was refused is answered by a request. -/
theorem write_of_unchanged (h : (s.record id).alive = true)
    (hchanged : ((s.record id).batch entries).changed.isEmpty = true) :
    s.write id entries = (s.stored id entries, requestsOf id ((s.record id).batch entries)) := by
  simp only [write, h, hchanged, Bool.not_true, Bool.false_eq_true, if_false, if_true]
  rfl

/-- **A batch that alters fields** is told of, and the request comes behind if there is one. -/
theorem write_of_changed (h : (s.record id).alive = true)
    (hchanged : ((s.record id).batch entries).changed.isEmpty = false) :
    s.write id entries =
      (((s.stored id entries).notify (.changes id) (.changed ((s.record id).batch entries).changed)).1,
        ((s.stored id entries).notify (.changes id) (.changed ((s.record id).batch entries).changed)).2 ::
          requestsOf id ((s.record id).batch entries)) := by
  simp only [write, h, hchanged, Bool.not_true, Bool.false_eq_true, if_false]
  rfl

/-- What the validator is asked and what it refuses is noted. -/
theorem extends_validated (s : Store) (id : RecordId) (b : Record.Batch) : s.Extends (s.validated id b) := by
  have hconsult : ∀ (asked : List (String × Value)) (s : Store),
      s.Extends (asked.foldl (fun s (name, v) => s.observe (.validate name v)) s) := by
    intro asked
    induction asked with
    | nil => exact .refl
    | cons entry rest ih => exact fun s => (s.extends_observe _).trans (ih _)
  exact (hconsult b.consulted s).trans (extends_logAll _ _ _ fun _ => rfl)

/-- Validating writes only adds to the journal. -/
theorem validated_eq (s : Store) (id : RecordId) (b : Record.Batch) : ∃ j, s.validated id b = { s with journal := j } := by
  have hlog : ∀ (notices : List Notice) (s : Store), ∃ j, s.logAll notices = { s with journal := j } := by
    intro notices
    induction notices with
    | nil => exact fun s => ⟨s.journal, rfl⟩
    | cons notice rest ih =>
      intro s
      obtain ⟨j, hj⟩ := ih (s.log notice)
      exact ⟨j, hj⟩
  unfold validated
  generalize hconsulted : b.consulted.foldl _ s = consulted
  have hasked : ∃ j, consulted = { s with journal := j } := by
    rw [← hconsulted]
    refine List.foldlRecOn (motive := fun t : Store => ∃ j, t = { s with journal := j }) _ _ ⟨s.journal, rfl⟩ ?_
    rintro t ⟨j, rfl⟩ entry -
    exact ⟨_, rfl⟩
  obtain ⟨j, rfl⟩ := hasked
  exact hlog _ _

/-- A record after a batch; its listeners are the same. -/
theorem record_stored {s : Store} (halive : (s.record id).alive = true) (entries : List (String × Value)) :
    (s.stored id entries).record id = (s.record id).commit ((s.record id).batch entries) := by
  have hid : id.number < s.records.size := s.lt_of_alive halive
  obtain ⟨j, hj⟩ := s.validated_eq id ((s.record id).batch entries)
  unfold stored
  simp only
  rw [hj, record_modifyRecord, if_pos ⟨rfl, hid⟩]
  rfl

theorem fields_stored (s : Store) (entries : List (String × Value)) (hid : id.number < s.records.size) :
    (s.stored id entries).fields id = ((s.record id).batch entries).fields := by
  have hsize := Nat.lt_of_lt_of_le hid (s.extends_validated id ((s.record id).batch entries)).records
  simp only [Store.fields, stored, record_modifyRecord, hsize, and_self, if_true, Record.commit]

/-- The version of a record after a batch. -/
theorem version_stored {s : Store} (halive : (s.record id).alive = true) (entries : List (String × Value)) :
    ((s.stored id entries).record id).version =
      if ((s.record id).batch entries).changed.isEmpty then (s.record id).version else (s.record id).version + 1 := by
  rw [record_stored halive]
  rfl

theorem callsOf_requestsOf (id : RecordId) (b : Record.Batch) : callsOf (requestsOf id b) = [] := by
  unfold requestsOf
  split <;> rfl

/-- A batch is stored before anyone is told. -/
theorem stored_effects (s : Store) (id : RecordId) (entries : List (String × Value)) :
    Effects ⟨s, calls⟩ [.wrote id] ⟨s.stored id entries, calls⟩ :=
  .after_extends (s.extends_validated id _) (.single (.wrote id _))

/-- **A batch of writes.** -/
theorem write_effects (s : Store) (id : RecordId) (entries : List (String × Value)) :
    Effects ⟨s, calls⟩ (s.writeDeeds id)
      ⟨(s.write id entries).1, callsOf (s.write id entries).2 ++ calls⟩ := by
  unfold writeDeeds
  cases halive : (s.record id).alive with
  | false =>
    rw [write_of_dead halive]
    exact .extended (s.extends_log _ rfl) _
  | true =>
    have hstored : Effects ⟨s, calls⟩ [.wrote id] ⟨s.stored id entries, calls⟩ := stored_effects s id entries
    cases hchanged : ((s.record id).batch entries).changed.isEmpty with
    | true =>
      rw [write_of_unchanged halive hchanged, callsOf_requestsOf]
      exact hstored
    | false =>
      rw [write_of_changed halive hchanged]
      have hcalls (task : Task) :
          callsOf (task :: requestsOf id ((s.record id).batch entries)) = callsOf [task] := by
        rw [← List.singleton_append, callsOf, List.filterMap_append, ← callsOf, ← callsOf, callsOf_requestsOf,
          List.append_nil]
      rw [hcalls]
      exact hstored.trans (notify_effects (s.stored id entries) (.changes id) _)

/-- An edit is written back like any other write. -/
theorem writeBack_effects (s : Store) (tree : Nat) (event : String) (context : WriteBack) (x : Nat) :
    Effects ⟨s, calls⟩ (s.writeDeeds context.record) ⟨(s.writeBack tree event context x).1,
      callsOf (s.writeBack tree event context x).2 ++ calls⟩ :=
  .after_extends (s.extends_log _ rfl) (write_effects (s.log _) context.record _)

/-- **A member is removed**, and those who listen to the collection are to be told. -/
theorem removeMember_effects (s : Store) (c : Nat) (id : RecordId) :
    Effects ⟨s, calls⟩ [] ⟨(s.removeMember c id).1, callsOf (s.removeMember c id).2 ++ calls⟩ := by
  unfold removeMember
  split
  · have hextends := (s.extends_modifyCollection c
      (f := fun x => { x with members := x.members.erase id }) fun _ => ⟨rfl, rfl⟩).trans
      (extends_log _ (.memberRemoved id) rfl)
    exact .after_extends hextends (notify_effects _ (.removals c) (.removed id))
  · exact .refl _

/-- **A collection is reset**, and those who listen to it are to be told. -/
theorem resetMembers_effects (s : Store) (c : Nat) (members : List RecordId) :
    Effects ⟨s, calls⟩ [] ⟨(s.resetMembers c members).1, callsOf (s.resetMembers c members).2 ++ calls⟩ := by
  have hextends := (s.extends_modifyCollection c (f := fun x => { x with members }) fun _ => ⟨rfl, rfl⟩).trans
    (extends_log _ (.collectionReset members.length) rfl)
  exact .after_extends hextends (notify_effects _ (.resets c) .reset)

end Store

end Databind
