import Databind.Proofs.Operation
import Databind.Session.Command

/-!
# `Proofs.Naming` — names, and the binders they reach

A binder lives as long as a name reaches it: its own, or that of a view on it. `Workspace.Named` says so, and
that every name denotes something that is there; giving and dropping names keep it. While a name changes hands
the binder of the old handle may be reached by that handle alone, which `NamedBut` allows.
-/

namespace Databind

open Store

/-- Deeds that make and retire no binder. -/
def Lasting (ds : List Deed) : Prop := ∀ n, Act.made ∉ actsOf n ds ∧ Act.retired ∉ actsOf n ds

theorem Mild.lasting {ds : List Deed} (h : Mild ds) : Lasting ds := fun n => ⟨h.made n, h.retired n⟩

/-- What a name denotes is there, a binder that it reaches has a handle, and a subscription is a callback's. -/
def Handle.Valid (s : Store) : Handle → Prop
  | .tree scope => scope.tree < s.trees.size
  | .element _ _ => True
  | .record id => id.number < s.records.size
  | .collection c => c < s.collections.size
  | .binder n => (s.binder n).retired = false
  | .view v => v < s.views.size ∧ (s.binder (s.view v).binder).retired = false
  | .subscription guard =>
    ∀ g, guard = some g → g.id < (s.roster g.channel).next ∧ ∀ x, s.Held g x → x.IsCallback
  | .list n => n < s.lists.size

namespace Handle.Valid

variable {s s' : Store} {ds : List Deed} {h : Handle}

/-- A valid handle reaches the same binders after a change. -/
theorem reaches (hv : h.Valid s) (hf : Follows ds s s') (n : Nat) :
    Workspace.reaches s' n h = Workspace.reaches s n h := by
  cases h with
  | view v => simp only [Workspace.reaches, hf.viewBinder v hv.1]
  | _ => rfl

/-- **A handle stays valid** as long as the binder it reaches is not retired. -/
theorem of_follows (hv : h.Valid s) (hf : Follows ds s s')
    (hlive : ∀ n, Workspace.reaches s n h = true → Act.made ∉ actsOf n ds ∧ Act.retired ∉ actsOf n ds) :
    h.Valid s' := by
  cases h with
  | tree scope => exact Nat.lt_of_lt_of_le hv hf.trees
  | element => trivial
  | record id => exact Nat.lt_of_lt_of_le hv hf.records
  | list n => exact Nat.lt_of_lt_of_le hv hf.lists
  | collection c => exact Nat.lt_of_lt_of_le hv hf.collections
  | binder n =>
    have hacts := hlive n (by simp [Workspace.reaches])
    exact (hf.retired n hacts.1 hacts.2).trans hv
  | view v =>
    have hacts := hlive (s.view v).binder (by simp [Workspace.reaches])
    refine ⟨Nat.lt_of_lt_of_le hv.1 hf.views, ?_⟩
    rw [hf.viewBinder v hv.1, hf.retired _ hacts.1 hacts.2]
    exact hv.2
  | subscription guard =>
    intro g hg
    obtain ⟨hlt, hcallback⟩ := hv g hg
    exact ⟨Nat.lt_of_lt_of_le hlt (hf.rosters _).next, fun x hx => hcallback x ((hf.rosters _).held _ _ hlt hx)⟩

/-- What neither makes nor retires a binder leaves a handle valid. -/
theorem of_lasting (hv : h.Valid s) (hf : Follows ds s s') (hlasting : Lasting ds) : h.Valid s' :=
  hv.of_follows hf fun n _ => hlasting n

end Handle.Valid

namespace Workspace

/-- Every name is valid, and every binder that is not retired is reached by a name or by the given handle. -/
structure NamedBut (old : Option Handle) (w : Workspace) : Prop where
  keys : (w.names.map Prod.fst).Nodup
  valid : ∀ entry ∈ w.names, entry.2.Valid w.store
  reached : ∀ n, (w.store.binder n).retired = false →
    (∃ entry ∈ w.names, reaches w.store n entry.2 = true) ∨ ∃ h, old = some h ∧ reaches w.store n h = true
  sourced : w.store.Sourced

/-- **Every binder that is not retired is reached by a name.** -/
abbrev Named (w : Workspace) : Prop := NamedBut none w

variable {w : Workspace} {calls : List (Channel × List Nat)} {old : Option Handle}

theorem Named.but (hw : w.Named) (old : Option Handle) : NamedBut old w where
  keys := hw.keys
  valid := hw.valid
  reached n hn := by
    rcases hw.reached n hn with hentry | ⟨h, hnone, -⟩
    · exact .inl hentry
    · cases hnone
  sourced := hw.sourced

/-- What neither makes nor retires a binder leaves the names of a workspace as good as they were. -/
theorem NamedBut.of_lasting {s' : Store} {ds : List Deed} (hw : NamedBut old w)
    (hold : ∀ h, old = some h → h.Valid w.store) (hf : Follows ds w.store s') (hlasting : Lasting ds) :
    NamedBut old (w.withStore s') where
  keys := hw.keys
  valid entry hentry := (hw.valid entry hentry).of_lasting hf hlasting
  reached n hn := by
    have hlive : (w.store.binder n).retired = false :=
      (hf.retired n (hlasting n).1 (hlasting n).2).symm.trans hn
    rcases hw.reached n hlive with ⟨entry, hentry, hreaches⟩ | ⟨h, hh, hreaches⟩
    · exact .inl ⟨entry, hentry, ((hw.valid entry hentry).reaches hf n).trans hreaches⟩
    · exact .inr ⟨h, hh, ((hold h hh).reaches hf n).trans hreaches⟩
  sourced := hf.sourced hw.sourced

theorem Named.of_lasting {s' : Store} {ds : List Deed} (hw : w.Named) (hf : Follows ds w.store s')
    (hlasting : Lasting ds) : (w.withStore s').Named :=
  NamedBut.of_lasting hw (fun _ h => by cases h) hf hlasting

theorem mem_of_handle? {name : String} {h : Handle} (hh : w.handle? name = some h) : (name, h) ∈ w.names := by
  obtain ⟨before, behind, hsplit, -⟩ := List.lookup_eq_some_iff.mp hh
  rw [hsplit]
  exact List.mem_append_right _ List.mem_cons_self

theorem handle?_of_nodup (hkeys : (w.names.map Prod.fst).Nodup) {entry : String × Handle} (hentry : entry ∈ w.names) :
    w.handle? entry.1 = some entry.2 := by
  obtain ⟨before, behind, hsplit⟩ := List.append_of_mem hentry
  refine List.lookup_eq_some_iff.mpr ⟨before, behind, hsplit, fun p hp => ?_⟩
  rw [hsplit, List.map_append, List.map_cons, List.nodup_middle, List.nodup_cons] at hkeys
  have hne : entry.1 ≠ p.1 := fun heq =>
    hkeys.1 (List.mem_append_left _ (List.mem_map.mpr ⟨p, hp, heq.symm⟩))
  simpa using hne

/-- No entry is hidden by another one of its name. -/
theorem handle?_of_mem (hw : NamedBut old w) {entry : String × Handle} (hentry : entry ∈ w.names) :
    w.handle? entry.1 = some entry.2 := handle?_of_nodup hw.keys hentry

/-! ## Dropping handles -/

theorem retired_retire (s : Store) (n : Nat) : ((s.retire n).binder n).retired = true := by
  unfold retire
  simp only [Store.binder, binders_dropAll]
  change ((s.modifyBinder n _).binder n).retired = true
  rw [binder_modifyBinder]
  split
  · rfl
  · next hn =>
    rw [s.binder_of_size_le fun hlt => hn ⟨rfl, hlt⟩]
    rfl

/-- **A binder that no name reaches any more is retired.** -/
theorem retireUnreached_effects {h : Handle} (ha : Scene.Sound ⟨w.store, calls⟩) (hw : NamedBut (some h) w)
    {n : Nat} (hn : ∀ m, reaches w.store m h = true → m = n) :
    Effects ⟨w.store, calls⟩ (w.retireDeeds n) ⟨(w.retireUnreached n).store, calls⟩ ∧
      (w.retireUnreached n).Named := by
  unfold retireDeeds retireUnreached
  by_cases hreached : (w.names.any fun entry => reaches w.store n entry.2) = true
  · rw [if_pos hreached, if_pos hreached]
    -- a name still reaches the binder, so it stays as it is
    refine ⟨.refl _, hw.keys, hw.valid, fun m hm => .inl ?_, hw.sourced⟩
    rcases hw.reached m hm with hentry | ⟨h', hh, hreaches⟩
    · exact hentry
    · rw [hn m (Option.some.inj hh ▸ hreaches)]
      exact List.any_eq_true.mp hreached
  · rw [if_neg hreached, if_neg hreached]
    have hretire : Effects ⟨w.store, calls⟩ [.act n .retired] ⟨w.store.retire n, calls⟩ := .single (.retired n)
    have hf := hretire.follows ha
    -- the names that are left reach other binders, which are not touched
    have hother : ∀ entry ∈ w.names, ∀ m, reaches w.store m entry.2 = true → m ≠ n := by
      rintro entry hentry m hreaches rfl
      exact hreached (List.any_eq_true.mpr ⟨entry, hentry, hreaches⟩)
    refine ⟨hretire, hw.keys, fun entry hentry => ?_, fun m hm => .inl ?_, hf.sourced hw.sourced⟩
    · refine (hw.valid entry hentry).of_follows hf fun m hreaches => ?_
      rw [actsOf_act_of_ne (hother entry hentry m hreaches)]
      simp
    · have hmn : m ≠ n := by
        rintro rfl
        rw [retired_retire] at hm
        cases hm
      have hlive : (w.store.binder m).retired = false := by
        rw [← hf.binder m (actsOf_act_of_ne hmn _)]
        exact hm
      rcases hw.reached m hlive with ⟨entry, hentry, hreaches⟩ | ⟨h', hh, hreaches⟩
      · exact ⟨entry, hentry, ((hw.valid entry hentry).reaches hf m).trans hreaches⟩
      · exact absurd (hn m (Option.some.inj hh ▸ hreaches)) hmn

/-- **Letting go of a handle.** -/
theorem letGo_effects {h : Handle} (ha : Scene.Sound ⟨w.store, calls⟩) (hw : NamedBut (some h) w)
    (hvalid : h.Valid w.store) :
    Effects ⟨w.store, calls⟩ (w.letGoDeeds h) ⟨(w.letGo h).store, calls⟩ ∧ (w.letGo h).Named := by
  have still (hnone : ∀ n, reaches w.store n h = false) : w.Named := by
    refine ⟨hw.keys, hw.valid, fun n hn => ?_, hw.sourced⟩
    rcases hw.reached n hn with hentry | ⟨h', hh, hreaches⟩
    · exact .inl hentry
    · rw [← Option.some.inj hh, hnone n] at hreaches
      cases hreaches
  cases h with
  | subscription guard =>
    have hdrop : Effects ⟨w.store, calls⟩ [] ⟨w.store.dropAll guard.toList, calls⟩ := by
      cases guard with
      | none => exact .refl _
      | some g => exact .single (.dropped g (hvalid g rfl).2)
    exact ⟨hdrop, (still fun _ => rfl).of_lasting (hdrop.follows ha) (by simp [Lasting, actsOf])⟩
  | binder n => exact retireUnreached_effects ha hw fun m hm => (by simpa [reaches] using hm : n = m).symm
  | view v =>
    have hunmount : Effects ⟨w.store, calls⟩ (w.store.unmountDeeds v) ⟨w.store.unmount v, calls⟩ :=
      unmount_effects _ v
    have hf := hunmount.follows ha
    have hw' := hw.of_lasting (fun h hh => Option.some.inj hh ▸ hvalid) hf (mild_unmountDeeds _ v).lasting
    have hretire := retireUnreached_effects (n := (w.store.view v).binder) (hunmount.sound ha) hw' fun m hm => by
      have hsame := (hvalid.reaches hf m).symm.trans hm
      exact (by simpa [reaches] using hsame : (w.store.view v).binder = m).symm
    exact ⟨hunmount.trans hretire.1, hretire.2⟩
  | _ => exact ⟨.refl _, still fun _ => rfl⟩

/-! ## Giving names -/

theorem keys_filter (h : (w.names.map Prod.fst).Nodup) (name : String) :
    ((w.names.filter (·.1 ≠ name)).map Prod.fst).Nodup :=
  h.sublist (List.filter_sublist.map _)

/-- **Letting a name denote a new object** drops what it denoted before. -/
theorem assign_effects {h : Handle} (ha : Scene.Sound ⟨w.store, calls⟩) (hw : NamedBut (some h) w)
    (hvalid : h.Valid w.store) (name : String) :
    Effects ⟨w.store, calls⟩ (w.assignDeeds name h) ⟨(w.assign name h).store, calls⟩ ∧
      (w.assign name h).Named := by
  have hnamed : NamedBut (w.handle? name) { w with names := (name, h) :: w.names.filter (·.1 ≠ name) } := by
    refine ⟨?_, fun entry hentry => ?_, fun n hn => ?_, hw.sourced⟩
    · rw [List.map_cons, List.nodup_cons]
      refine ⟨fun hmem => ?_, keys_filter hw.keys name⟩
      obtain ⟨entry, hentry, hname⟩ := List.mem_map.mp hmem
      have hne := (List.mem_filter.mp hentry).2
      simp [hname] at hne
    · rcases List.mem_cons.mp hentry with rfl | hentry
      · exact hvalid
      · exact hw.valid entry (List.mem_filter.mp hentry).1
    · rcases hw.reached n hn with ⟨entry, hentry, hreaches⟩ | ⟨h', hh, hreaches⟩
      · by_cases hname : entry.1 = name
        · exact .inr ⟨entry.2, hname ▸ handle?_of_mem hw hentry, hreaches⟩
        · exact .inl ⟨entry, List.mem_cons_of_mem _ (List.mem_filter.mpr ⟨hentry, by simpa using hname⟩),
            hreaches⟩
      · exact .inl ⟨(name, h), List.mem_cons_self, Option.some.inj hh ▸ hreaches⟩
  unfold assignDeeds assign
  cases hold : w.handle? name with
  | none =>
    rw [hold] at hnamed
    exact ⟨.refl _, hnamed⟩
  | some old =>
    rw [hold] at hnamed
    exact letGo_effects (w := { w with names := (name, h) :: w.names.filter (·.1 ≠ name) }) ha hnamed
      (hw.valid _ (mem_of_handle? hold))

/-- **Forgetting a name** drops what it denoted. -/
theorem forget_effects (ha : Scene.Sound ⟨w.store, calls⟩) (hw : w.Named) (name : String) :
    Effects ⟨w.store, calls⟩ (w.forgetDeeds name) ⟨(w.forget name).1.store, calls⟩ ∧
      (w.forget name).1.Named := by
  unfold forgetDeeds forget
  cases hold : w.handle? name with
  | none => exact ⟨.refl _, hw⟩
  | some old =>
    refine letGo_effects (w := { w with names := w.names.filter (·.1 ≠ name) }) ha
      ⟨keys_filter hw.keys name, fun entry hentry => ?_, fun n hn => ?_, hw.sourced⟩ (hw.valid _ (mem_of_handle? hold))
    · exact hw.valid entry (List.mem_filter.mp hentry).1
    · rcases hw.reached n hn with ⟨entry, hentry, hreaches⟩ | ⟨h', hh, -⟩
      · by_cases hname : entry.1 = name
        · have hsome := handle?_of_mem hw hentry
          rw [hname, hold] at hsome
          exact .inr ⟨old, rfl, Option.some.inj hsome ▸ hreaches⟩
        · exact .inl ⟨entry, List.mem_filter.mpr ⟨hentry, by simpa using hname⟩, hreaches⟩
      · cases hh

/-! ## Names that change hands -/

theorem handle?_filter (w : Workspace) (name name' : String) :
    (w.names.filter (·.1 ≠ name)).lookup name' = if name' = name then none else w.handle? name' := by
  unfold handle?
  induction w.names with
  | nil => simp
  | cons entry rest ih =>
    by_cases hentry : entry.1 = name
    · rw [List.filter_cons_of_neg (by simp [hentry]), ih, Dict.lookup_cons_ite]
      by_cases hname : name' = name <;> simp [hname, hentry]
    · rw [List.filter_cons_of_pos (by simp [hentry]), Dict.lookup_cons_ite, Dict.lookup_cons_ite, ih]
      by_cases hname : name' = name
      · simp [hname, Ne.symm hentry]
      · simp [hname]

/-- A name that denotes nothing takes nothing away. -/
theorem filter_names_of_none {name : String} (hold : w.handle? name = none) :
    w.names.filter (·.1 ≠ name) = w.names := by
  apply List.filter_eq_self.mpr
  intro p hp
  apply decide_eq_true
  intro heq
  have hne := List.lookup_eq_none_iff.mp hold p hp
  simp [heq] at hne

theorem names_retireUnreached (w : Workspace) (n : Nat) : (w.retireUnreached n).names = w.names := by
  unfold retireUnreached
  split <;> rfl

theorem names_letGo (w : Workspace) (h : Handle) : (w.letGo h).names = w.names := by
  cases h with
  | binder n => exact w.names_retireUnreached n
  | view v => exact names_retireUnreached _ _
  | _ => rfl

/-- What follows when a name stops denoting what it may have denoted. -/
def letGo? (w : Workspace) (old : Option Handle) : Workspace := old.elim w w.letGo

theorem names_letGo? (w : Workspace) (old : Option Handle) : (w.letGo? old).names = w.names := by
  cases old with
  | none => rfl
  | some old => exact names_letGo w old

/-- A name is taken out before the handle it denoted is let go. -/
theorem forget_eq (w : Workspace) (name : String) :
    (w.forget name).1 = letGo? { w with names := w.names.filter (·.1 ≠ name) } (w.handle? name) := by
  unfold forget
  cases hold : w.handle? name with
  | some old => rfl
  | none => exact (congrArg (Workspace.mk w.store) (filter_names_of_none hold)).symm

end Workspace

end Databind
