import Mathlib.Data.List.Dedup
import Databind.Proofs.Accounting
import Databind.Proofs.Journal

/-!
# `Proofs.Attaching` — attaching a map is detaching, and then binding its plan

A map that is attached is checked as a whole before anything is detached. Binding its plan one by one after
detaching checks each binding only when its turn comes. Both end in the same state: no check depends on what is
bound meanwhile. What a registry holds afterwards is therefore said by the plan alone.

## Main definitions

* `Store.planOf` — the bindings that a map asks for under a source.
* `Store.bindPlan` — binding them one by one.
* `Planned.Realized` — a binding is what was planned.
-/

namespace Databind

/-- The key of a binding that is asked for. -/
def Planned.key (b : Planned) : BindingKey := ⟨b.descriptor.selector, b.descriptor.attr⟩

/-- **A binding is what was planned**: of the same record and under the same key, with the event of the descriptor
and the normal form of the property. -/
structure Planned.Realized (b : Planned) (x : Binding) : Prop where
  record : x.record = b.record
  key : x.key = b.key
  event : x.event = b.descriptor.event
  normalized : b.property.normalize = .ok ⟨x.accessor, x.negate, x.triggers⟩

/-- The channels on which a binder listens to its source, if that is a collection. -/
def Source.channels : Source → List Channel
  | .collection c => [.removals c, .resets c]
  | _ => []

namespace Store

/-- The bindings that a map asks for under a source: on a record its entries in order, on a collection its
expansion. -/
def planOf (s : Store) (source : Source) (map : BindingMap) (defaultEvent : String) :
    Except BindError (List Planned) :=
  match source with
  | .none => .ok []
  | .record id => do
    let entries ← innerEntries defaultEvent map.entries
    .ok (entries.map fun (descriptor, property) => ⟨id, descriptor, property⟩)
  | .collection c => s.expand c map defaultEvent

/-- Bind what a plan asks for, one binding after the other. -/
def bindPlan (s : Store) (n : Nat) (autoRender : Bool) : List Planned → Except BindError Store
  | [] => .ok s
  | b :: rest =>
    match s.bind n b.record b.property b.key (b.descriptor.event.elim .off .event) autoRender with
    | (s, none) => bindPlan s n autoRender rest
    | (_, some e) => .error e

/-- Listen to a source, if it is a collection. -/
def listenTo (s : Store) (n : Nat) : Source → Store
  | .collection c => s.listenCollection n c
  | _ => s

/-! ## One after the other -/

variable {s s' : Store} {calls : List (Channel × List Nat)} {n : Nat} {autoRender : Bool}

/-- **What passes a check passes it later**, if nothing but bindings and guards of binders changes meanwhile. -/
theorem prepare_of_follows {ds : List Deed} (hfollows : Follows ds s s') (hmild : Mild ds) {id : RecordId}
    {property : Property} {key : BindingKey} {twoWay : TwoWay} {p : Prepared}
    (h : s.prepare n id property key twoWay autoRender = .ok p) :
    s'.prepare n id property key twoWay autoRender = .ok p := by
  obtain ⟨halive, hnormal⟩ := prepare_eq_ok.mp h
  have halive' := hfollows.alive id (s.lt_of_alive halive) (hmild.destroyed id)
  have hconfig := (hfollows.settings n (hmild.made n)).2
  refine prepare_eq_ok.mpr ⟨halive'.trans halive, ?_⟩
  rwa [hconfig]

theorem preparePlan_of_follows {ds : List Deed} (hfollows : Follows ds s s') (hmild : Mild ds)
    {plan : List Planned} {ps : List Prepared} (h : s.preparePlan n autoRender plan = .ok ps) :
    s'.preparePlan n autoRender plan = .ok ps := by
  induction plan generalizing ps with
  | nil => exact h
  | cons b rest ih =>
    obtain ⟨p, ps', hp, hps, rfl⟩ := preparePlan_cons.mp h
    exact preparePlan_cons.mpr ⟨p, ps', prepare_of_follows hfollows hmild hp, ih hps, rfl⟩

/-- **A plan that passes its check is bound one by one**, every check coming out as it did before. -/
theorem bindPlan_of_preparePlan (ha : Scene.Sound ⟨s, calls⟩) (hlive : (s.binder n).retired = false)
    {plan : List Planned} {ps : List Prepared} (h : s.preparePlan n autoRender plan = .ok ps) :
    s.bindPlan n autoRender plan = .ok (s.commitAll n ps) := by
  induction plan generalizing s ps with
  | nil =>
    cases h
    rfl
  | cons b rest ih =>
    obtain ⟨p, ps', hp, hps, rfl⟩ := preparePlan_cons.mp h
    have hfirst : Effects ⟨s, calls⟩ (s.commitDeeds n p) ⟨s.commit n p, calls⟩ :=
      commit_effects ha.store_wired hlive (prepare_ready hp)
    have hfollows := hfirst.follows ha
    have hmild := mild_commitDeeds s n p
    have hlive' : ((s.commit n p).binder n).retired = false :=
      (hfollows.retired n (hmild.made n) (hmild.retired n)).trans hlive
    have hbind : s.bind n b.record b.property b.key (b.descriptor.event.elim .off .event) autoRender =
        (s.commit n p, none) := by
      unfold Store.bind
      rw [show s.prepare n b.record b.property b.key (b.descriptor.event.elim .off .event) autoRender = .ok p
        from hp]
    simp only [bindPlan, hbind]
    -- the rest of the plan was checked before this commit, and is checked again after it
    exact ih (hfirst.sound ha) hlive' (preparePlan_of_follows hfollows hmild hps)

/-- The entries of a map on one record, read in order, are a plan; checking them checks it. -/
theorem preparePlan_of_prepareRecord {id : RecordId} {entries : List (String × MapValue)} {ps : List Prepared}
    (h : s.prepareRecord n autoRender id entries = .ok ps) :
    ∃ inner, innerEntries (s.binder n).config.defaultEvent entries = .ok inner ∧
      s.preparePlan n autoRender (inner.map fun (descriptor, property) => ⟨id, descriptor, property⟩) =
        .ok ps := by
  induction entries generalizing ps with
  | nil =>
    cases h
    exact ⟨[], rfl, rfl⟩
  | cons entry rest ih =>
    obtain ⟨key, value⟩ := entry
    obtain ⟨descriptor, property, p, ps', hdescriptor, hproperty, hp, hps, rfl⟩ := prepareRecord_cons h
    obtain ⟨inner, hinner, hplan⟩ := ih hps
    refine ⟨(descriptor, property) :: inner, ?_, preparePlan_cons.mpr ⟨p, ps', hp, hplan, rfl⟩⟩
    simp only [innerEntries, Bind.bind, Except.bind, hdescriptor, hproperty, hinner]

/-- **What a map asks for is a plan**, and checking the map checks the plan. -/
theorem planOf_of_checked {source : Source} {map : BindingMap} {ps : List Prepared}
    (h : s.checked n source map autoRender = .ok ps) :
    ∃ plan, s.planOf source map (s.binder n).config.defaultEvent = .ok plan ∧
      s.preparePlan n autoRender plan = .ok ps := by
  cases source with
  | none =>
    cases h
    exact ⟨[], rfl, rfl⟩
  | record id =>
    obtain ⟨inner, hinner, hplan⟩ := preparePlan_of_prepareRecord h
    refine ⟨_, ?_, hplan⟩
    simp only [planOf, Bind.bind, Except.bind, hinner]
  | collection c =>
    simp only [checked, Bind.bind, Except.bind] at h
    split at h
    · cases h
    · next plan hplan => exact ⟨plan, hplan, h⟩

/-! ## What the registry holds -/

/-- A checked binding is what was planned. -/
theorem realized_of_prepare {b : Planned} {p : Prepared}
    (h : s.prepareAt n autoRender b.record b.descriptor b.property = .ok p) :
    p.record = b.record ∧ p.key = b.key ∧
      ∀ x : Binding, x.unguarded = Prepared.binding p none → b.Realized x := by
  obtain ⟨-, normalized, hnormal, -, rfl⟩ := prepare_eq_ok.mp h
  refine ⟨rfl, rfl, fun x hx => ?_⟩
  have hrecord : x.record = b.record := congrArg Binding.record hx
  have hkey : x.key = b.key := congrArg Binding.key hx
  have hevent : x.event = eventOf (s.binder n).config (b.descriptor.event.elim .off .event) :=
    congrArg Binding.event hx
  have haccessor : x.accessor = normalized.accessor := congrArg Binding.accessor hx
  have hnegate : x.negate = normalized.negate := congrArg Binding.negate hx
  have htriggers : x.triggers = normalized.triggers := congrArg Binding.triggers hx
  refine ⟨hrecord, hkey, ?_, by rw [hnormal, haccessor, hnegate, htriggers]⟩
  rw [hevent]
  cases b.descriptor.event <;> rfl

/-- The checked bindings of a plan, each with what was planned. -/
theorem forall₂_of_preparePlan {plan : List Planned} {ps : List Prepared}
    (h : s.preparePlan n autoRender plan = .ok ps) :
    List.Forall₂ (fun b p => s.prepareAt n autoRender b.record b.descriptor b.property = .ok p) plan ps := by
  induction plan generalizing ps with
  | nil =>
    cases h
    exact .nil
  | cons b rest ih =>
    obtain ⟨p, ps', hp, hps, rfl⟩ := preparePlan_cons.mp h
    exact .cons hp (ih hps)

theorem actsOf_flatMap {α : Type} (n : Nat) (f : α → List Deed) (xs : List α) :
    actsOf n (xs.flatMap f) = xs.flatMap fun x => actsOf n (f x) := List.filterMap_flatMap

/-- Putting a binding into effect undoes what stands under its key, and nothing else. -/
theorem undoes_commitDeeds (s : Store) (n : Nat) (p : Prepared) (id : RecordId) (key : BindingKey) :
    (actsOf n (s.commitDeeds n p)).all (fun a => !a.undoes id key) =
      !(decide (p.record = id) && decide (p.key = key)) := by
  cases hrender : p.autoRender <;> simp [commitDeeds, hrender, actsOf, renderDeeds, Act.undoes]

theorem standing_commitDeeds (s : Store) (n : Nat) (p : Prepared) (id : RecordId) :
    standing id (actsOf n (s.commitDeeds n p)) = if p.record = id then [p] else [] := by
  cases hrender : p.autoRender <;> simp [commitDeeds, hrender, actsOf, renderDeeds, standing, Act.undoes]

/-- **After bindings are put into effect in order, the last one under each key stands**, in the order of those. -/
theorem standing_commits (s : Store) (n : Nat) (id : RecordId) (ps : List Prepared) :
    standing id (actsOf n (ps.flatMap (s.commitDeeds n))) =
      (ps.filter (·.record = id)).pwFilter fun p q => p.key ≠ q.key := by
  induction ps with
  | nil => rfl
  | cons p rest ih =>
    -- the first binding stands only if no later one has its key, whether or not that one stands itself
    have hlater : (actsOf n (rest.flatMap (s.commitDeeds n))).all (fun a => !a.undoes id p.key) = true ↔
        ∀ q ∈ (rest.filter (·.record = id)).pwFilter fun p q => p.key ≠ q.key, p.key ≠ q.key := by
      rw [List.forall_mem_pwFilter (fun {x y z} hxz => by by_cases hxy : x.key = y.key <;> simp_all)]
      rw [actsOf_flatMap, List.all_flatMap]
      simp only [undoes_commitDeeds, List.all_eq_true, List.mem_filter]
      grind
    rw [List.flatMap_cons, actsOf_append, standing_append, standing_commitDeeds, ih]
    by_cases hid : p.record = id
    · rw [if_pos hid, List.filter_cons_of_pos (p := fun p : Prepared => p.record = id) (by simpa using hid)]
      by_cases hkey : ∀ q ∈ (rest.filter (·.record = id)).pwFilter fun p q => p.key ≠ q.key, p.key ≠ q.key
      · rw [List.pwFilter_cons_of_pos hkey, List.filter_singleton, hlater.mpr hkey]
        rfl
      · rw [List.pwFilter_cons_of_neg hkey, List.filter_singleton,
          Bool.eq_false_iff.mpr fun h => hkey (hlater.mp h)]
        rfl
    · rw [if_neg hid, List.filter_cons_of_neg (p := fun p : Prepared => p.record = id) (by simpa using hid),
        List.filter_nil, List.nil_append]

end Store

/-- Lists that are related element by element stay so when an element that a later one excludes is left out. -/
theorem forall₂_pwFilter {α β : Type} {R : α → α → Prop} {S : β → β → Prop} [DecidableRel R] [DecidableRel S]
    {T : α → β → Prop} (hsame : ∀ {a b a' b'}, T a b → T a' b' → (R a a' ↔ S b b')) {xs : List α} {ys : List β}
    (h : List.Forall₂ T xs ys) : List.Forall₂ T (xs.pwFilter R) (ys.pwFilter S) := by
  induction h with
  | nil => exact .nil
  | @cons a b xs ys hab _ ih =>
    have hexcludes : ∀ {as bs}, List.Forall₂ T as bs → ((∀ a' ∈ as, R a a') ↔ ∀ b' ∈ bs, S b b') := by
      intro as bs hrest
      induction hrest with
      | nil => simp
      | cons hhead _ ih => simp only [List.forall_mem_cons, hsame hab hhead, ih]
    by_cases hkeep : ∀ a' ∈ xs.pwFilter R, R a a'
    · rw [List.pwFilter_cons_of_pos hkeep, List.pwFilter_cons_of_pos ((hexcludes ih).mp hkeep)]
      exact .cons hab ih
    · rw [List.pwFilter_cons_of_neg hkeep, List.pwFilter_cons_of_neg fun h => hkeep ((hexcludes ih).mpr h)]
      exact ih

namespace Store

variable {s : Store} {n : Nat} {autoRender : Bool}

/-- **The bindings that the commits of a plan leave are the last ones planned under each key.** -/
theorem realized_of_commits {plan : List Planned} {ps : List Prepared}
    (h : s.preparePlan n autoRender plan = .ok ps) (id : RecordId) {bs : List Binding}
    (hbs : bs.map Binding.unguarded =
      (standing id (actsOf n (ps.flatMap (s.commitDeeds n)))).map (Prepared.binding · none)) :
    List.Forall₂ Planned.Realized ((plan.filter (·.record = id)).pwFilter fun b b' => b.key ≠ b'.key) bs := by
  have hchecked := forall₂_of_preparePlan h
  have hfiltered := List.rel_filter (p := fun b : Planned => decide (b.record = id))
    (q := fun p : Prepared => decide (p.record = id))
    (fun b p hp => by simp [(realized_of_prepare hp).1]) hchecked
  have hlast := forall₂_pwFilter (R := fun b b' : Planned => b.key ≠ b'.key) (S := fun p p' : Prepared => p.key ≠ p'.key)
    (fun hp hp' => by rw [(realized_of_prepare hp).2.1, (realized_of_prepare hp').2.1]) hfiltered
  rw [standing_commits] at hbs
  generalize (ps.filter (·.record = id)).pwFilter (fun p p' => p.key ≠ p'.key) = qs at hlast hbs
  generalize (plan.filter (·.record = id)).pwFilter (fun b b' => b.key ≠ b'.key) = last at hlast ⊢
  induction hlast generalizing bs with
  | nil =>
    rw [List.map_eq_nil_iff.mp hbs]
    exact .nil
  | cons hp _ ih =>
    obtain ⟨x, bs', rfl, hx, hrest⟩ := List.map_eq_cons_iff.mp hbs
    exact .cons ((realized_of_prepare hp).2.2 x hx) (ih hrest)

/-- The keys of bindings that realize the last ones planned under each key. -/
theorem keys_of_realized {plan : List Planned} {bs : List Binding}
    (h : List.Forall₂ Planned.Realized (plan.pwFilter fun b b' => b.key ≠ b'.key) bs) :
    bs.map (·.key) = (plan.map Planned.key).dedup := by
  unfold List.dedup
  rw [List.pwFilter_map]
  generalize plan.pwFilter (fun b b' => b.key ≠ b'.key) = last at h
  induction h with
  | nil => rfl
  | cons hb _ ih => rw [List.map_cons, List.map_cons, ih, hb.key]

/-! ## Guards of collections -/

theorem collectionGuards_modifyRegistry (s : Store) (n m : Nat) (f : Registry → Registry) :
    ((s.modifyRegistry n f).binder m).collectionGuards = (s.binder m).collectionGuards := by
  unfold modifyRegistry
  rw [binder_modifyBinder]
  split
  · next h => rw [h.1]
  · rfl

theorem collectionGuards_commit (s : Store) (n : Nat) (p : Prepared) (m : Nat) :
    ((s.commit n p).binder m).collectionGuards = (s.binder m).collectionGuards := by
  have hopened : ((s.opened n p).binder m).collectionGuards = (s.binder m).collectionGuards := by
    have hextends := s.extends_warnMissing (s.binder n).config p.record p.normalized.triggers
    unfold opened
    simp only
    split
    · rw [hextends.binder]
    · unfold listen
      simp only [collectionGuards_modifyRegistry, binder_log, binder_subscribe, hextends.binder]
  have hback : ((s.opened n p).listenBack n p).1.binder m = (s.opened n p).binder m := by
    simp only [Store.binder, binders_listenBack]
  have hregister : ∀ (s : Store) (b : Binding),
      ((s.register n b).binder m).collectionGuards = (s.binder m).collectionGuards := by
    intro s b
    unfold register
    simp only
    split
    · rw [binder_dropAll, binder_log, collectionGuards_modifyRegistry]
    · exact collectionGuards_modifyRegistry s n m _
  rw [commit_eq]
  simp only
  split
  · rw [(keeps_render _ _ _).binder, hregister, hback, hopened]
  · rw [hregister, hback, hopened]

theorem collectionGuards_commitAll (s : Store) (n : Nat) (ps : List Prepared) (m : Nat) :
    ((s.commitAll n ps).binder m).collectionGuards = (s.binder m).collectionGuards := by
  induction ps generalizing s with
  | nil => rfl
  | cons p rest ih => exact (ih _).trans (s.collectionGuards_commit n p m)

theorem collectionGuards_leaveCollections (s : Store) (n m : Nat) :
    ((s.leaveCollections n).binder m).collectionGuards = if m = n then [] else (s.binder m).collectionGuards := by
  unfold leaveCollections
  rw [binder_dropAll, binder_modifyBinder]
  by_cases hn : n < s.binders.size
  · by_cases hm : m = n <;> simp [hm, hn]
  · rw [if_neg fun h => hn h.2]
    split
    · next h => rw [h, s.binder_of_size_le hn]; rfl
    · rfl

theorem collectionGuards_detach (s : Store) (n : Nat) : ((s.detach n).binder n).collectionGuards = [] := by
  unfold detach
  simp only
  rw [collectionGuards_leaveCollections, if_pos rfl]

theorem channels_listenTo (s : Store) (hn : n < s.binders.size) (source : Source) :
    ((s.listenTo n source).binder n).collectionGuards.map (·.channel) =
      (s.binder n).collectionGuards.map (·.channel) ++ source.channels := by
  cases source with
  | collection c =>
    unfold listenTo listenCollection
    rw [binder_modifyBinder, if_pos ⟨rfl, hn⟩]
    simp only [binder_subscribe, List.map_append]
    rfl
  | _ => simp [listenTo, Source.channels]

/-- The listeners of a binder on collections are those it keeps guards for. -/
theorem Wired.held_collection (h : s.Wired []) {g : Guard} {l : Listener} (hl : l = .dropMember n ∨ l = .dropAll n) :
    s.Held g (.listener l) ↔
      g ∈ (s.binder n).collectionGuards ∧ l = Binder.collectionListener n g.channel := by
  have hbinder : l.binder? = some n := by rcases hl with rfl | rfl <;> rfl
  have hopen : g ∈ (s.binder n).collectionGuards → s.Open g.channel := fun hg => by
    obtain ⟨c, hc | hc⟩ := (h.fit n).collections g hg <;> rw [hc] <;> trivial
  rw [h.held g _ (Listener.not_isCallback hbinder), List.append_nil, mem_posts]
  constructor
  · rintro ⟨⟨k, hpost⟩, -⟩
    cases hbinder.symm.trans (Binder.binder?_of_mem_posts hpost)
    rcases Binder.mem_posts.mp hpost with ⟨x, -, hpost⟩ | ⟨e, -, hpost | hpost⟩ | ⟨g', hg', hpost⟩
    · cases (Binder.mem_binding_posts.mp hpost).2
    · rcases hl with rfl | rfl <;> cases (Prod.mk.inj hpost).2
    · rcases hl with rfl | rfl <;> cases (Prod.mk.inj hpost).2
    · obtain ⟨rfl, heq⟩ := Prod.mk.inj hpost
      exact ⟨hg', Hearer.listener.inj heq⟩
  · rintro ⟨hg, rfl⟩
    exact ⟨⟨n, Binder.mem_posts.mpr (.inr (.inr ⟨g, hg, rfl⟩))⟩, hopen hg⟩

/-! ## Attaching -/

variable {source : Source} {map : BindingMap}

/-- **A map that is attached passed its check**; what is left of the old state is that of detaching, putting the
checked bindings into effect, and listening to the source. -/
theorem checked_of_attach (hmap : map.isEmpty = false) (hsource : source ≠ .none) {request : Option Bool}
    (hok : (s.attach n source map request).2 = none) :
    ∃ ps, s.checked n source map (request.getD (s.binder n).config.autoRender) = .ok ps ∧
      (((s.detach n).commitAll n ps).listenTo n source).Untouched (s.attach n source map request).1 ∧
      (s.attach n source map request).1.renderings =
        (((s.detach n).commitAll n ps).listenTo n source).renderings := by
  unfold attach at hok ⊢
  rw [hmap] at hok ⊢
  cases source with
  | none => exact absurd rfl hsource
  | record id =>
    simp only [Bool.false_eq_true, if_false, attachRecord, checked, listenTo] at hok ⊢
    cases hchecked : s.prepareRecord n (request.getD (s.binder n).config.autoRender) id map.entries with
    | error e =>
      rw [hchecked] at hok
      cases hok
    | ok ps => exact ⟨ps, rfl, .refl _, rfl⟩
  | collection c =>
    simp only [Bool.false_eq_true, if_false, attachCollection, checked, listenTo, Bind.bind, Except.bind] at hok ⊢
    cases hexpand : s.expand c map (s.binder n).config.defaultEvent with
    | error e =>
      rw [hexpand] at hok
      cases hok
    | ok plan =>
      simp only [hexpand, preparePlan_log] at hok ⊢
      cases hplan : s.preparePlan n (request.getD (s.binder n).config.autoRender) plan with
      | error e =>
        rw [hplan] at hok
        cases hok
      | ok ps => exact ⟨ps, rfl, s.untouched_of_log n c ps rfl⟩

/-- **What stood before is gone, and the commits say what stands.** -/
theorem standing_of_attach (ha : Scene.Sound ⟨s, calls⟩) (hr : s.Registered) (hlive : (s.binder n).retired = false)
    (hthere : ∀ c, source = .collection c → c < s.collections.size) (hmap : map.isEmpty = false)
    (hsource : source ≠ .none) {request : Option Bool} {ps : List Prepared}
    (hps : s.checked n source map (request.getD (s.binder n).config.autoRender) = .ok ps) (id : RecordId) :
    ((((s.attach n source map request).1.binder n).registry.bindingsOf id).map Binding.unguarded) =
      (standing id (actsOf n (ps.flatMap (s.commitDeeds n)))).map (Prepared.binding · none) := by
  have hdeeds : s.attachDeeds n source map request =
      detachDeeds n ++ ps.flatMap (s.commitDeeds n) ++ joinDeeds n source := by
    simp [attachDeeds, hmap, hsource, hps]
  have hyields := ((attach_effects ha hlive hthere map request).registered ha hr).2 n id
  -- joining a collection leaves bindings alone, and detaching undoes all of them
  have hjoin : standing id (actsOf n (joinDeeds n source)) = [] ∧
      ∀ key, (actsOf n (joinDeeds n source)).all (fun a => !a.undoes id key) = true := by
    cases source <;> simp [joinDeeds, actsOf, standing, Act.undoes]
  have hdetach : standing id (actsOf n (detachDeeds n)) = [] ∧
      ∀ key, (actsOf n (detachDeeds n)).all (fun a => !a.undoes id key) = false := by
    simp [detachDeeds, actsOf, standing, Act.undoes]
  rw [hdeeds] at hyields
  simp only [actsOf_append, standing_append, List.all_append, hjoin.1, hjoin.2, hdetach.1, hdetach.2,
    Bool.false_and, List.filter_nil, List.nil_append, List.append_nil] at hyields
  rw [hyields]
  simp

/-- A binder that is detached keeps nothing. -/
theorem posts_detach (s : Store) (n : Nat) : ((s.detach n).binder n).posts n = [] := by
  have hregistry : ((s.detach n).binder n).registry = [] := by
    unfold detach
    simp only
    rw [registry_leaveCollections]
    split <;> simp [binder_log, registry_unbindAll]
  simp [Binder.posts, hregistry, collectionGuards_detach]

/-- **Detaching ends everything that a binder listened to.** -/
theorem not_held_of_detach (ha : Scene.Sound ⟨s, calls⟩) {g : Guard} {x : Hearer}
    (hpost : (g, x) ∈ (s.binder n).posts n) (hx : ¬x.IsCallback) : ¬(s.detach n).Held g x := by
  have hdetach : Effects ⟨s, calls⟩ (detachDeeds n) ⟨s.detach n, calls⟩ := detach_effects s n
  have hwired : (s.detach n).Wired [] := (hdetach.sound ha).store_wired
  intro hheld
  have hmem := ((hwired.held g x hx).mp hheld).1
  rw [List.append_nil, mem_posts] at hmem
  obtain ⟨k, hk⟩ := hmem
  -- a guard is kept by one binder only, so this one would have to be kept by the binder that keeps nothing
  by_cases hkn : k = n
  · rw [hkn, posts_detach] at hk
    cases hk
  · have hsame : (s.detach n).binder k = s.binder k :=
      (hdetach.follows ha).binder k (by simp [detachDeeds, actsOf, Ne.symm hkn])
    rw [hsame] at hk
    exact hkn (ha.store_wired.post_unique hk hpost)

/-- Putting checked bindings into effect after detaching, and listening to the source. -/
theorem rebuilt_effects (ha : Scene.Sound ⟨s, calls⟩) (hlive : (s.binder n).retired = false) {ps : List Prepared}
    (hps : ∀ p ∈ ps, p.Ready s) :
    Effects ⟨s.detach n, calls⟩ (ps.flatMap ((s.detach n).commitDeeds n)) ⟨(s.detach n).commitAll n ps, calls⟩ ∧
      (((s.detach n).commitAll n ps).binder n).retired = false := by
  have hdetach : Effects ⟨s, calls⟩ (detachDeeds n) ⟨s.detach n, calls⟩ := detach_effects s n
  have hfollows := hdetach.follows ha
  have hmild := mild_detachDeeds n
  have hlive' := (hfollows.retired n (hmild.made n) (hmild.retired n)).trans hlive
  have hcommits := commitAll_effects (hdetach.sound ha) hlive' fun p hp => (hps p hp).of_follows hfollows hmild
  have hmild' := mild_flatMap_commitDeeds (s.detach n) n ps
  have hfollows' := hcommits.follows (hdetach.sound ha)
  exact ⟨hcommits, (hfollows'.retired n (hmild'.made n) (hmild'.retired n)).trans hlive'⟩

theorem listenTo_effects (s : Store) (hlive : (s.binder n).retired = false)
    (hthere : ∀ c, source = .collection c → c < s.collections.size) :
    Effects ⟨s, calls⟩ (joinDeeds n source) ⟨s.listenTo n source, calls⟩ := by
  cases source with
  | collection c => exact .single (.joined n c hlive (hthere c rfl))
  | _ => exact .refl _

/-- **A binder listens to the collection that it was attached to last**, and to no other. -/
theorem channels_of_attach (ha : Scene.Sound ⟨s, calls⟩) (hlive : (s.binder n).retired = false)
    (hmap : map.isEmpty = false) (hsource : source ≠ .none) {request : Option Bool}
    (hok : (s.attach n source map request).2 = none) :
    (((s.attach n source map request).1.binder n).collectionGuards.map (·.channel)) = source.channels := by
  obtain ⟨ps, hps, huntouched, -⟩ := checked_of_attach hmap hsource hok
  have hbinder : (s.attach n source map request).1.binder n =
      (((s.detach n).commitAll n ps).listenTo n source).binder n := by simp only [Store.binder, huntouched.binders]
  have hlive' := (rebuilt_effects ha hlive (checked_ready hps)).2
  rw [hbinder, channels_listenTo _ (lt_of_not_retired _ hlive'), collectionGuards_commitAll, collectionGuards_detach]
  rfl

/-- What binders listen with is no callback of the host. -/
theorem not_isCallback_of_post {b : Binder} {g : Guard} {x : Hearer} (h : (g, x) ∈ b.posts n) : ¬x.IsCallback := by
  cases x with
  | listener l => exact Listener.not_isCallback (Binder.binder?_of_mem_posts h)
  | handler d =>
    rintro ⟨k, hk⟩
    rcases Binder.mem_posts.mp h with ⟨x, -, hpost⟩ | ⟨e, -, hpost | hpost⟩ | ⟨g', -, hpost⟩
    · cases (Binder.mem_binding_posts.mp hpost).2
      cases hk
    · cases (Prod.mk.inj hpost).2
    · cases (Prod.mk.inj hpost).2
    · cases (Prod.mk.inj hpost).2

end Store

namespace Machine

open Store

variable {m : Machine}

/-- **Attaching a map is detaching, and then binding its plan one by one**, in every state of every run. If it
succeeds, then so does each bind of the plan in its turn; both end in the same state, but for a notice of the size
of the plan and for the two listeners on a collection. The entry of each record has the keys planned for it in the
order of their last occurrence, with the last binding planned under each; nobody listens any more under a guard
that the binder kept before, and it listens to the collections of its source only. -/
theorem attach_eq_rebinding (h : m.Reached) {n : Nat} (hlive : (m.store.binder n).retired = false) {source : Source}
    (hsource : source ≠ .none) (hthere : ∀ c, source = .collection c → c < m.store.collections.size)
    {map : BindingMap} (hmap : map.isEmpty = false) {request : Option Bool}
    (hok : (m.store.attach n source map request).2 = none) :
    let after := (m.store.attach n source map request).1
    ∃ plan bound,
      (m.store.planOf source map (m.store.binder n).config.defaultEvent = .ok plan ∧
        (m.store.detach n).bindPlan n (request.getD (m.store.binder n).config.autoRender) plan = .ok bound) ∧
      ((bound.listenTo n source).Untouched after ∧ after.renderings = (bound.listenTo n source).renderings) ∧
      (∀ id, ((after.binder n).registry.bindingsOf id).map (·.key) =
          ((plan.filter (·.record = id)).map Planned.key).dedup ∧
        List.Forall₂ Planned.Realized ((plan.filter (·.record = id)).pwFilter fun b b' => b.key ≠ b'.key)
          ((after.binder n).registry.bindingsOf id)) ∧
      (∀ g x, (g, x) ∈ (m.store.binder n).posts n → ¬after.Held g x) ∧
      (after.binder n).collectionGuards.map (·.channel) = source.channels ∧
      ∀ g l, l = .dropMember n ∨ l = .dropAll n → (after.Held g (.listener l) ↔
        g ∈ (after.binder n).collectionGuards ∧ l = Binder.collectionListener n g.channel) := by
  intro after
  have ha : Scene.Sound ⟨m.store, m.calls⟩ := h.sound.scene
  obtain ⟨ps, hps, huntouched, hrenderings⟩ := checked_of_attach hmap hsource hok
  obtain ⟨plan, hplan, hchecked⟩ := planOf_of_checked hps
  have hdetach : Effects ⟨m.store, m.calls⟩ (detachDeeds n) ⟨m.store.detach n, m.calls⟩ := detach_effects m.store n
  have hfollows := hdetach.follows ha
  have hmild := mild_detachDeeds n
  have hlive' := (hfollows.retired n (hmild.made n) (hmild.retired n)).trans hlive
  obtain ⟨hcommits, hlive''⟩ := rebuilt_effects ha hlive (checked_ready hps)
  refine ⟨plan, (m.store.detach n).commitAll n ps, ⟨hplan, ?_⟩, ⟨huntouched, hrenderings⟩, fun id => ?_,
    fun g x hpost hheld => ?_, ?_, fun g l => ?_⟩
  · exact bindPlan_of_preparePlan (hdetach.sound ha) hlive' (preparePlan_of_follows hfollows hmild hchecked)
  · have hrealized := realized_of_commits hchecked id
      (standing_of_attach ha h.registered hlive hthere hmap hsource hps id)
    exact ⟨keys_of_realized hrealized, hrealized⟩
  · -- guards are not given out again, so this one would have been held after detaching already
    have hfollows' := hcommits.follows (hdetach.sound ha)
    have hthere' : ∀ c, source = .collection c → c < ((m.store.detach n).commitAll n ps).collections.size :=
      fun c hc => Nat.lt_of_lt_of_le (hthere c hc) (Nat.le_trans hfollows.collections hfollows'.collections)
    have hall := hcommits.trans (listenTo_effects _ hlive'' hthere')
    have hgrows := (hall.follows (hdetach.sound ha)).rosters g.channel
    have hroster : after.roster g.channel =
        (((m.store.detach n).commitAll n ps).listenTo n source).roster g.channel :=
      roster_congr huntouched.records huntouched.collections huntouched.trees huntouched.lists g.channel
    have hfresh := ha.store_wired.fresh (g, x) (by rw [List.append_nil, mem_posts]; exact ⟨n, hpost⟩)
    unfold Held at hheld
    rw [hroster] at hheld
    exact not_held_of_detach ha hpost (not_isCallback_of_post hpost)
      (hgrows.held g.id x (Nat.lt_of_lt_of_le hfresh (hfollows.rosters g.channel).next) hheld)
  · exact channels_of_attach ha hlive hmap hsource hok
  · exact ((attach_effects ha hlive hthere map request).sound ha).store_wired.held_collection

/-- A collection that has a record twice, beside the bindings of `rebound`. -/
def doubled : List Turn :=
  rebound ++ [.command (.act (.collection (.make "all" ["record", "record"]))), .step]

/-- A map with two entries under one key once their blanks are gone. -/
def colliding : BindingMap :=
  ⟨[("li", .nested [("[title]", .property (.field "a")), ("[ title ]", .property (.field "b"))])]⟩

/-- Of four bindings planned on the record two remain, none of those from before is among them. -/
theorem attach_eq_rebinding_doubled :
    ∃ m plan bound, initial.walk? doubled = some m ∧
      ((m.store.binder 0).keys.length = 2 ∧ (m.store.attach 0 (.collection 0) colliding (some false)).2 = none) ∧
      ((m.store.detach 0).bindPlan 0 false plan = .ok bound ∧
        (bound.listenTo 0 (.collection 0)).Untouched (m.store.attach 0 (.collection 0) colliding (some false)).1) ∧
      (((m.store.attach 0 (.collection 0) colliding (some false)).1.binder 0).registry.bindingsOf ⟨1⟩).map (·.key) =
        ((plan.filter (·.record = ⟨1⟩)).map Planned.key).dedup ∧
      ((plan.filter (·.record = ⟨1⟩)).map Planned.key).dedup =
        [⟨"li:nth-of-type(1)", "title"⟩, ⟨"li:nth-of-type(2)", "title"⟩] := by
  have hrun : (initial.walk? doubled).map (fun m =>
      ((m.store.binder 0).retired, m.store.collections.size, (m.store.binder 0).keys.length,
        (m.store.attach 0 (.collection 0) colliding (some false)).2,
        (m.store.planOf (.collection 0) colliding (m.store.binder 0).config.defaultEvent).map fun plan =>
          (plan.filter (·.record = ⟨1⟩)).map Planned.key)) =
      some (false, 1, 2, none, .ok [⟨"li:nth-of-type(1)", "title"⟩, ⟨"li:nth-of-type(1)", "title"⟩,
        ⟨"li:nth-of-type(2)", "title"⟩, ⟨"li:nth-of-type(2)", "title"⟩]) := by rfl
  obtain ⟨m, hwalk, heq⟩ := Option.map_eq_some_iff.mp hrun
  simp only [Prod.mk.injEq] at heq
  obtain ⟨hlive, hsize, hkeys, hok, hplanned⟩ := heq
  have hthere : ∀ c, Source.collection 0 = .collection c → c < m.store.collections.size := by
    rintro c hc
    cases hc
    omega
  obtain ⟨plan, bound, ⟨hplan, hbound⟩, ⟨huntouched, -⟩, hregistry, -⟩ :=
    attach_eq_rebinding ⟨_, hwalk⟩ hlive (show Source.collection 0 ≠ .none by decide) hthere rfl hok
  simp only [hplan, Except.map] at hplanned
  refine ⟨m, plan, bound, hwalk, ⟨hkeys, hok⟩, ⟨hbound, huntouched⟩, (hregistry ⟨1⟩).1, ?_⟩
  rw [Except.ok.inj hplanned]
  rfl

end Machine

end Databind
