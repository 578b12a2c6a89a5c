import Databind.Proofs.Dropping
import Databind.Proofs.Expansion
import Databind.Proofs.Handover

/-!
# `Proofs.Mounting` — when a view is mounted

Whether a view is mounted is read off what it remembers of its last mount, and only unmounting makes it forget that:
because it is asked for, or because the view loses its name. Whatever else happens to the binder does not reach the
view. So a view that is not mounted has nothing of its last mount left on the binder, but a mounted one need not have
anything: a reset of the collection, a detach or another mount takes it all, and the view stays mounted.

## Main definitions

* `Machine.Unmounts` — a turn that unmounts a view.
* `Machine.Remains` — turns that do not.
* `Machine.Throughout` — what holds all the time.
-/

namespace Databind

open Store Workspace

namespace View

variable {x y : View}

/-- What a view owns decides whether it is mounted. -/
theorem isMounted_congr (h : x.holdings = y.holdings) : x.isMounted = y.isMounted := by
  obtain ⟨howned, hcollection⟩ := Prod.mk.inj h
  simp only [isMounted, howned, hcollection]

end View

/-! ## Plans -/

theorem pwFilter_ne_nil {α : Type} {R : α → α → Prop} [DecidableRel R] {l : List α} (h : l ≠ []) :
    l.pwFilter R ≠ [] := by
  cases l with
  | nil => exact absurd rfl h
  | cons a rest =>
    by_cases hkeep : ∀ b ∈ rest.pwFilter R, R a b
    · rw [List.pwFilter_cons_of_pos hkeep]
      exact List.cons_ne_nil _ _
    · rw [List.pwFilter_cons_of_neg hkeep]
      obtain ⟨b, hb⟩ := not_forall.mp hkeep
      exact List.ne_nil_of_mem (Classical.not_imp.mp hb).1

/-- The plan of a map on a record binds something, and only on that record. -/
theorem Store.plan_of_record {s : Store} {id : RecordId} {map : BindingMap} {defaultEvent : String}
    {plan : List Planned} (hplan : s.planOf (.record id) map defaultEvent = .ok plan) (hmap : map.isEmpty = false) :
    plan.filter (·.record = id) ≠ [] := by
  obtain ⟨inner, hinner, hplan⟩ := Expression.bind_eq_ok hplan
  cases hplan
  -- the entries of the map are read like those of a nested one
  have hnested : innerBindings defaultEvent "" (.nested map.entries) = .ok inner := hinner
  have hlength : map.entries.length = inner.length := (innerBindings_eq_ok.mp hnested).length_eq
  rw [List.filter_eq_self.mpr]
  · intro hnil
    rw [List.map_eq_nil_iff.mp hnil] at hlength
    rw [BindingMap.isEmpty, List.eq_nil_of_length_eq_zero hlength] at hmap
    cases hmap
  · intro b hb
    obtain ⟨entry, -, rfl⟩ := List.mem_map.mp hb
    exact decide_eq_true rfl

namespace Machine

variable {m m' start before behind : Machine} {v : Nat} {t : Turn} {turns later : List Turn}

/-! ## Turns that unmount a view -/

/-- **A turn that unmounts a view**: that is asked for, or a name stops denoting the view. -/
def Unmounts (m : Machine) (v : Nat) (t : Turn) : Prop :=
  (∃ name, m.commandOf t = some (.act (.view (.unmount name))) ∧ m.session.workspace.view? name = .ok v) ∨
    ∃ name m', m.turn? t = some m' ∧ m.session.workspace.view? name = .ok v ∧ m'.session.workspace.view? name ≠ .ok v

/-- None of some turns unmounts a view. -/
def Remains (m : Machine) (v : Nat) : List Turn → Prop
  | [] => True
  | t :: rest => ¬m.Unmounts v t ∧ ∀ m', m.turn? t = some m' → m'.Remains v rest

/-- Something holds of the store now and after each of some turns. -/
def Throughout (P : Store → Prop) (m : Machine) : List Turn → Prop
  | [] => P m.store
  | t :: rest => P m.store ∧ ∀ m', m.turn? t = some m' → m'.Throughout P rest

theorem Throughout.now {P : Store → Prop} (h : m.Throughout P turns) : P m.store := by
  cases turns with
  | nil => exact h
  | cons t rest => exact h.1

theorem Remains.cons (hturn : m.turn? t = some m') (ht : ¬m.Unmounts v t) (h : m'.Remains v turns) :
    m.Remains v (t :: turns) := by
  refine ⟨ht, fun next hnext => ?_⟩
  cases hturn.symm.trans hnext
  exact h

/-- **A turn that is not asked to mount or to unmount a view** spares it, or takes a name from it. -/
theorem spared_of_turn (hm : m.Sound) (h : m.turn? t = some m') (hmounts : ¬m.Mounts v t)
    (hasked : ∀ name, m.commandOf t = some (.act (.view (.unmount name))) → m.session.workspace.view? name ≠ .ok v) :
    m.session.workspace.Spared m'.session.workspace v := by
  obtain ⟨c, hc, hworkspace⟩ | ⟨-, ⟨task, rest, -, rfl⟩ | hsession | hsession⟩ := workspace_of_turn h
  · rw [hworkspace]
    obtain ⟨name, v', rfl, hname, hperformed⟩ | ⟨name, v', rfl, hname, hperformed⟩ | hbecomes :=
      m.session.perform_cases c
    · -- another view is mounted, or nothing is attached
      rw [hperformed]
      refine .inl ⟨m.store.holdings_mount fun hmountable heq => ?_, fun _ => id⟩
      exact hmounts ⟨⟨name, hc, heq ▸ hname⟩, heq ▸ hmountable⟩
    · -- another view is unmounted
      rw [hperformed]
      have hne : v ≠ v' := fun heq => hasked name hc (heq ▸ hname)
      exact .inl ⟨(m.store.holdings_unmount v' v).trans (if_neg hne), fun _ => id⟩
    · exact hbecomes.view hm.named v
  · refine .inl ⟨congrArg View.holdings (view_of_views (m.views_runTask rest task) v), fun name hname => ?_⟩
    simpa only [view?, handle?, names_runTask] using hname
  · rw [hsession]
    exact .inl ⟨rfl, fun _ => id⟩
  · rw [hsession]
    exact .inl ⟨rfl, fun _ => id⟩

/-- A turn that is asked to unmount a view does so. -/
theorem unmounted_of_asked (h : m.turn? t = some m') {name : String}
    (hcommand : m.commandOf t = some (.act (.view (.unmount name))))
    (hname : m.session.workspace.view? name = .ok v) : m.store.Unmounted m'.store v := by
  obtain ⟨hnone, -⟩ | ⟨c, hc, hstore⟩ := store_of_turn h
  · cases hcommand.symm.trans hnone
  · cases hcommand.symm.trans hc
    have hperformed : (m.session.perform (.act (.view (.unmount name)))).1.workspace.store = m.store.unmount v := by
      simp only [Session.perform, Action.perform, ViewCommand.perform, hname]
      rfl
    rw [hstore, hperformed]
    exact m.store.unmounted_unmount v

/-- **What a turn does to a view that it does not mount**: the view is unmounted, or owns what it owned. -/
theorem unmounted_of_turn (hm : m.Sound) (h : m.turn? t = some m') (hmounts : ¬m.Mounts v t) :
    ¬m.Unmounts v t ∧ (m'.store.view v).holdings = (m.store.view v).holdings ∨
      m.Unmounts v t ∧ m.store.Unmounted m'.store v := by
  by_cases hasked : ∃ name, m.commandOf t = some (.act (.view (.unmount name))) ∧
      m.session.workspace.view? name = .ok v
  · obtain ⟨name, hcommand, hname⟩ := hasked
    exact .inr ⟨.inl ⟨name, hcommand, hname⟩, unmounted_of_asked h hcommand hname⟩
  · obtain ⟨hsame, hnames⟩ | ⟨hunmounted, name, hbefore, hbehind⟩ :=
      spared_of_turn hm h hmounts fun name hcommand hname => hasked ⟨name, hcommand, hname⟩
    · refine .inl ⟨?_, hsame⟩
      rintro (hunmount | ⟨name, next, hnext, hbefore, hbehind⟩)
      · exact hasked hunmount
      · cases h.symm.trans hnext
        exact hbehind (hnames name hbefore)
    · exact .inr ⟨.inr ⟨name, m', h, hbefore, hbehind⟩, hunmounted⟩

/-! ## Runs -/

/-- **Along turns that do not mount a view** it owns what it owned, if none of them unmounts it. Otherwise it owns
nothing, and at some time its binder had nothing of what it owned. -/
theorem holdings_of_leaves (hm : m.Sound) (h : m.walk? turns = some m') (hleaves : m.Leaves v turns)
    (hv : v < m.store.views.size) :
    m.Remains v turns ∧ (m'.store.view v).holdings = (m.store.view v).holdings ∨
      ¬m.Remains v turns ∧ (m'.store.view v).holdings = ([], false) ∧ ∀ P : Store → Prop, m.Throughout P turns →
        ∃ s, P s ∧ (s.binder (m.store.view v).binder).Rid (m.store.view v).owned (m.store.view v).ownsCollection := by
  induction turns generalizing m with
  | nil =>
    cases h
    exact .inl ⟨trivial, rfl⟩
  | cons t rest ih =>
    obtain ⟨next, hturn, h⟩ := walk?_cons h
    have hdoes := does_turn hm hturn
    have hfollows := hdoes.effects.follows hm.scene
    have hrest := ih (hdoes.sound hm) h (hleaves.2 next hturn) (Nat.lt_of_lt_of_le hv hfollows.views)
    obtain ⟨hspared, hsame⟩ | ⟨hunmounts, hunmounted⟩ := unmounted_of_turn hm hturn hleaves.1
    · -- the view still owns what it owned, so the rest decides
      obtain ⟨hremains, hlater⟩ | ⟨hlost, hnothing, hrid⟩ := hrest
      · exact .inl ⟨hremains.cons hturn hspared, hlater.trans hsame⟩
      · refine .inr ⟨fun hremains => hlost (hremains.2 next hturn), hnothing, fun P hP => ?_⟩
        obtain ⟨s, hs, hbinder⟩ := hrid P (hP.2 next hturn)
        obtain ⟨howned, hcollection⟩ := Prod.mk.inj hsame
        rw [hfollows.viewBinder v hv, howned, hcollection] at hbinder
        exact ⟨s, hs, hbinder⟩
    · -- what is unmounted here stays so, for the rest mounts nothing
      refine .inr ⟨fun hremains => hremains.1 hunmounts, ?_, fun P hP => ?_⟩
      · obtain ⟨-, hlater⟩ | ⟨-, hnothing, -⟩ := hrest
        · exact hlater.trans hunmounted.holdings
        · exact hnothing
      · exact ⟨next.store, (hP.2 next hturn).now, hunmounted.rid⟩

/-! ## The last mount -/

/-- **A mount mounts**: the view owns something then. -/
theorem isMounted_of_mounts (hm : m.Reached) (hmounts : m.Mounts v t) (hturn : m.turn? t = some m') :
    (m'.store.view v).isMounted = true := by
  obtain ⟨⟨⟨plan, hplan, hrealized⟩, -⟩, -, hholdings⟩ := creates_of_mounts hm hmounts hturn
  have hwalk : m.walk? [t] = some m' := by simp only [walk?, hturn, Option.bind_some]
  obtain ⟨howned, hcollection⟩ := Prod.mk.inj hholdings
  simp only [View.isMounted, howned, hcollection]
  cases hsource : (m.store.view v).source with
  | none => exact absurd hsource hmounts.mountable.source
  | collection c => simp [Source.isCollection]
  | record id =>
    rw [hsource] at hplan
    have hplanned := pwFilter_ne_nil (R := fun b b' : Planned => b.key ≠ b'.key)
      (plan_of_record hplan hmounts.mountable.map)
    obtain ⟨x, hx⟩ : ∃ x, x ∈ (m'.store.binder (m.store.view v).binder).registry.bindingsOf id := by
      refine List.exists_mem_of_ne_nil _ fun hnil => hplanned ?_
      have hforall := hrealized id
      rw [hnil] at hforall
      exact List.forall₂_nil_right_iff.mp hforall
    have htidy := ((hm.walk hwalk).registered (m.store.view v).binder).toTidy
    have hmem : x ∈ (m'.store.binder (m.store.view v).binder).registry.bindings := (htidy.mem_bindingsOf.mp hx).1
    have hkeys : (m'.store.binder (m.store.view v).binder).keys ≠ [] := List.ne_nil_of_mem (List.mem_map_of_mem hmem)
    simp [hkeys]

/-- **What comes of the last mount**: the view is mounted if nothing unmounts it later. Otherwise it is not, and at some
time the binder had nothing of what the mount had created. -/
theorem LastMount.settled (hlast : LastMount initial turns v before behind later) (h : initial.walk? turns = some m) :
    behind.Remains v later ∧ (m.store.view v).isMounted = true ∨
      ¬behind.Remains v later ∧ (m.store.view v).isMounted = false ∧
        ∀ P : Store → Prop, behind.Throughout P later → ∃ s, P s ∧ (s.binder (before.store.view v).binder).Rid
          (behind.store.binder (before.store.view v).binder).keys (before.store.view v).source.isCollection := by
  obtain ⟨hbefore, hbehind⟩ := hlast.reached ⟨[], rfl⟩
  obtain ⟨earlier, t, -, -, hmounts, hturn⟩ := hlast.mounted
  obtain ⟨-, hbinder, hholdings⟩ := creates_of_mounts hbefore hmounts hturn
  obtain ⟨howned, hcollection⟩ := Prod.mk.inj hholdings
  have hthere : v < behind.store.views.size := by
    obtain ⟨name, -, hname⟩ := hmounts.command
    exact Nat.lt_of_lt_of_le (valid_view? hbefore.sound.named hname).1
      ((does_turn hbefore.sound hturn).effects.follows hbefore.sound.scene).views
  obtain ⟨hremains, hsame⟩ | ⟨hlost, hnothing, hrid⟩ :=
    holdings_of_leaves hbehind.sound (hlast.walk h) hlast.left hthere
  · exact .inl ⟨hremains, (View.isMounted_congr hsame).trans (isMounted_of_mounts hbefore hmounts hturn)⟩
  · rw [hbinder, howned, hcollection] at hrid
    exact .inr ⟨hlost, isMounted_eq_false hnothing, hrid⟩

/-- **When a view is mounted**, in every state of every run: exactly if it was mounted, on something that could be
attached, and neither unmounted nor dropped since. In particular it is mounted as long as any binding that its last
mount created, or any listener on a collection that it subscribed, is still there. -/
theorem mounted_of_walk (h : initial.walk? turns = some m) (v : Nat) :
    ((m.store.view v).isMounted = true ↔
      ∃ before behind later, LastMount initial turns v before behind later ∧ behind.Remains v later) ∧
    ∀ before behind later, LastMount initial turns v before behind later →
      let n := (before.store.view v).binder
      Creates v before behind ∧
      (∀ id x, behind.Throughout (fun s => x ∈ (s.binder n).registry.bindingsOf id) later →
        (m.store.view v).isMounted = true) ∧
      ∀ g, behind.Throughout (fun s => g ∈ (s.binder n).collectionGuards) later →
        (m.store.view v).isMounted = true := by
  refine ⟨⟨fun hmounted => ?_, ?_⟩, fun before behind later hlast => ?_⟩
  · obtain ⟨before, behind, later, hlast, -⟩ | ⟨-, hnothing⟩ := holdings_of_walk h v
    · obtain ⟨hremains, -⟩ | ⟨-, hfalse, -⟩ := hlast.settled h
      · exact ⟨before, behind, later, hlast, hremains⟩
      · exact absurd (hfalse.symm.trans hmounted) Bool.false_ne_true
    · exact absurd ((isMounted_eq_false (hnothing.elim id id)).symm.trans hmounted) Bool.false_ne_true
  · rintro ⟨before, behind, later, hlast, hremains⟩
    obtain ⟨-, hmounted⟩ | ⟨hlost, -⟩ := hlast.settled h
    · exact hmounted
    · exact absurd hremains hlost
  · obtain ⟨hbefore, hbehind⟩ := hlast.reached ⟨[], rfl⟩
    obtain ⟨earlier, t, -, -, hmounts, hturn⟩ := hlast.mounted
    have hcreates := (creates_of_mounts hbefore hmounts hturn).1
    refine ⟨hcreates, fun id x hx => ?_, fun g hg => ?_⟩
    · obtain ⟨-, hmounted⟩ | ⟨-, -, hrid⟩ := hlast.settled h
      · exact hmounted
      · -- the binding had the key of one that the mount created: its own
        obtain ⟨s, hs, hnothing⟩ := hrid _ hx
        obtain ⟨hmem, hrecord⟩ := (hbehind.registered _).toTidy.mem_bindingsOf.mp hx.now
        exact absurd (List.mem_map.mpr ⟨x, hmem, by rw [hrecord]⟩) (hnothing.bindings id x hs)
    · obtain ⟨-, hmounted⟩ | ⟨-, -, hrid⟩ := hlast.settled h
      · exact hmounted
      · -- only a mount of a collection subscribes listeners, and unmounting drops them all
        obtain ⟨s, hs, hnothing⟩ := hrid _ hg
        have hchannel : g.channel ∈ (before.store.view v).source.channels :=
          hcreates.channels ▸ List.mem_map_of_mem hg.now
        cases hsource : (before.store.view v).source with
        | collection c =>
          rw [hnothing.guards (hsource ▸ rfl)] at hs
          cases hs
        | none | record =>
          rw [hsource] at hchannel
          cases hchannel

/-- A view of a collection with one member, not mounted yet. -/
def placing : List Turn :=
  [.command (.act (.tree (.make "tree" (.node (.ofTag "root") [])))), .step,
    .command (.act (.record (.make "record" [("a", .null)]))), .step,
    .command (.act (.collection (.make "all" ["record"]))), .step,
    .command (.act (.binder (.make "binder" "tree" (.given none none none)))), .step,
    .command (.act (.view (.make "view" (.shared "binder") (.collection "all")
      (.entries [("li", .property (.field "a"))])))), .step]

/-- The view is mounted. -/
def mounting : Turn := .command (.act (.view (.mount "view")))

/-- A view is mounted as long as it listens to its collection. -/
theorem mounted_of_walk_listening :
    ∃ before m g, initial.walk? (placing ++ [mounting]) = some m ∧
      LastMount initial (placing ++ [mounting]) 0 before m [] ∧
      m.Throughout (fun s => g ∈ (s.binder (before.store.view 0).binder).collectionGuards) [] ∧
      (m.store.view 0).isMounted = true := by
  have hplaced : (initial.walk? placing).map (fun m => (m.session.workspace.view? "view",
      decide ((m.store.view 0).source = .none), (m.store.view 0).bindings.isEmpty, (m.store.mount 0).2,
      (m.store.view 0).binder)) = some (.ok 0, false, false, none, 0) := by rfl
  have hmounted : (initial.walk? (placing ++ [mounting])).map (fun m => (m.store.binder 0).collectionGuards) =
      some [⟨.removals 0, 0⟩, ⟨.resets 0, 0⟩] := by rfl
  obtain ⟨before, hbefore, heq⟩ := Option.map_eq_some_iff.mp hplaced
  obtain ⟨m, h, hguards⟩ := Option.map_eq_some_iff.mp hmounted
  simp only [Prod.mk.injEq, decide_eq_false_iff_not] at heq
  obtain ⟨hname, hsource, hmap, hsucceeds, hbinder⟩ := heq
  have hturn : before.turn? mounting = some m := by
    rw [walk?_append, hbefore, Option.bind_some, walk?] at h
    obtain ⟨m', hturn, hend⟩ := Option.bind_eq_some_iff.mp h
    cases hend
    exact hturn
  have hlast : LastMount initial (placing ++ [mounting]) 0 before m [] :=
    ⟨⟨placing, mounting, rfl, hbefore, ⟨⟨"view", rfl, hname⟩, ⟨hsource, hmap, hsucceeds⟩⟩, hturn⟩, trivial⟩
  have hlistens : m.Throughout (fun s => (⟨.removals 0, 0⟩ : Guard) ∈
      (s.binder (before.store.view 0).binder).collectionGuards) [] := by
    simp only [Throughout, hbinder, hguards]
    exact List.mem_cons_self
  exact ⟨before, m, ⟨.removals 0, 0⟩, h, hlast, hlistens, ((mounted_of_walk h 0).2 before m [] hlast).2.2 _ hlistens⟩

/-- **A mounted view need not have anything on its binder**: a reset of its collection takes all that its mount created,
and so does a detach of the binder. The view is mounted all the same. -/
theorem mounted_after_reset :
    ∃ m reset detached, initial.walk? (placing ++ [mounting, .step]) = some m ∧
      (m.store.binder 0).keys = [(⟨1⟩, ⟨"li:nth-of-type(1)", ""⟩)] ∧
      (m.store.binder 0).collectionGuards.map (·.channel) = [.removals 0, .resets 0] ∧
      m.walk? [.command (.act (.collection (.reset "all" []))), .step, .step, .step] = some reset ∧
      (reset.store.binder 0).keys = [] ∧ (reset.store.binder 0).collectionGuards = [] ∧
      (reset.store.view 0).isMounted = true ∧
      m.walk? [.command (.act (.binder (.detach "binder"))), .step] = some detached ∧
      (detached.store.binder 0).keys = [] ∧ (detached.store.binder 0).collectionGuards = [] ∧
      (detached.store.view 0).isMounted = true := by
  have hmounted : (initial.walk? (placing ++ [mounting, .step])).map (fun m => ((m.store.binder 0).keys,
      (m.store.binder 0).collectionGuards.map (·.channel))) =
        some ([(⟨1⟩, ⟨"li:nth-of-type(1)", ""⟩)], [.removals 0, .resets 0]) := by rfl
  have hreset : (initial.walk? (placing ++ [mounting, .step] ++ [.command (.act (.collection (.reset "all" []))),
      .step, .step, .step])).map (fun m => ((m.store.binder 0).keys, (m.store.binder 0).collectionGuards,
        (m.store.view 0).isMounted)) = some ([], [], true) := by rfl
  have hdetached : (initial.walk? (placing ++ [mounting, .step] ++ [.command (.act (.binder (.detach "binder"))),
      .step])).map (fun m => ((m.store.binder 0).keys, (m.store.binder 0).collectionGuards,
        (m.store.view 0).isMounted)) = some ([], [], true) := by rfl
  obtain ⟨m, h, hbehind⟩ := Option.map_eq_some_iff.mp hmounted
  obtain ⟨reset, hwalk, hempty⟩ := Option.map_eq_some_iff.mp hreset
  obtain ⟨detached, hwalk', hempty'⟩ := Option.map_eq_some_iff.mp hdetached
  rw [walk?_append, h, Option.bind_some] at hwalk hwalk'
  simp only [Prod.mk.injEq] at hbehind hempty hempty'
  exact ⟨m, reset, detached, h, hbehind.1, hbehind.2, hwalk, hempty.1, hempty.2.1, hempty.2.2, hwalk', hempty'⟩

end Machine

end Databind
