import Databind.Proofs.Effect

/-!
# `Proofs.Frame` — what the deeds leave out has not happened

`Follows ds s s'` is the frame of a change with the deeds `ds`: a record that was not written keeps its fields and its
version, one that was not destroyed its life, and a binder to which nothing was done is as it was. Objects are never
removed, a destroyed record stays destroyed, and the identity of a listener is never given out again.

The frame is proved for the few basic changes that operations are made of; `Follows.trans` puts them together
under the same deeds.
-/

namespace Databind

namespace Store

/-- Nothing has changed but what the deeds say, and listeners. -/
structure Follows (ds : List Deed) (s s' : Store) : Prop where
  records : s.records.size ≤ s'.records.size
  collections : s.collections.size ≤ s'.collections.size
  trees : s.trees.size ≤ s'.trees.size
  lists : s.lists.size ≤ s'.lists.size
  views : s.views.size ≤ s'.views.size
  binders : s.binders.size ≤ s'.binders.size
  fields : ∀ id : RecordId, id.number < s.records.size → Deed.wrote id ∉ ds → s'.fields id = s.fields id
  alive : ∀ id : RecordId, id.number < s.records.size → Deed.destroyed id ∉ ds →
    (s'.record id).alive = (s.record id).alive
  dead : ∀ id : RecordId, id.number < s.records.size → (s'.record id).alive = true →
    (s.record id).alive = true
  version : ∀ id, Deed.wrote id ∉ ds → (s'.record id).version = (s.record id).version
  proper : ∀ id, Deed.wrote id ∉ ds → (s.fields id).Proper → (s'.fields id).Proper
  settings : ∀ n, Act.made ∉ actsOf n ds →
    (s'.binder n).scope = (s.binder n).scope ∧ (s'.binder n).config = (s.binder n).config
  binder : ∀ n, actsOf n ds = [] → s'.binder n = s.binder n
  retired : ∀ n, Act.made ∉ actsOf n ds → Act.retired ∉ actsOf n ds →
    (s'.binder n).retired = (s.binder n).retired
  viewBinder : ∀ v, v < s.views.size → (s'.view v).binder = (s.view v).binder
  sourced : s.Sourced → s'.Sourced
  rosters : ∀ ch, (s.roster ch).Grows (s'.roster ch)

namespace Follows

variable {ds ds' : List Deed} {a b c : Store}

theorem refl (ds : List Deed) (s : Store) : Follows ds s s :=
  ⟨Nat.le_refl _, Nat.le_refl _, Nat.le_refl _, Nat.le_refl _, Nat.le_refl _, Nat.le_refl _,
    fun _ _ _ => rfl, fun _ _ _ => rfl, fun _ _ h => h, fun _ _ => rfl, fun _ _ => id, fun _ _ => ⟨rfl, rfl⟩,
    fun _ _ => rfl, fun _ _ _ => rfl, fun _ _ => rfl, id, fun _ => .refl _⟩

/-- **Changes with the same deeds follow each other.** -/
theorem trans (h : Follows ds a b) (h' : Follows ds b c) : Follows ds a c where
  records := Nat.le_trans h.records h'.records
  collections := Nat.le_trans h.collections h'.collections
  trees := Nat.le_trans h.trees h'.trees
  lists := Nat.le_trans h.lists h'.lists
  views := Nat.le_trans h.views h'.views
  binders := Nat.le_trans h.binders h'.binders
  fields id hid hds := (h'.fields id (Nat.lt_of_lt_of_le hid h.records) hds).trans (h.fields id hid hds)
  alive id hid hds := (h'.alive id (Nat.lt_of_lt_of_le hid h.records) hds).trans (h.alive id hid hds)
  dead id hid halive := h.dead id hid (h'.dead id (Nat.lt_of_lt_of_le hid h.records) halive)
  version id hds := (h'.version id hds).trans (h.version id hds)
  proper id hds hid := h'.proper id hds (h.proper id hds hid)
  settings n hds :=
    ⟨(h'.settings n hds).1.trans (h.settings n hds).1, (h'.settings n hds).2.trans (h.settings n hds).2⟩
  binder n hds := (h'.binder n hds).trans (h.binder n hds)
  retired n hmade hds := (h'.retired n hmade hds).trans (h.retired n hmade hds)
  viewBinder v hv := (h'.viewBinder v (Nat.lt_of_lt_of_le hv h.views)).trans (h.viewBinder v hv)
  sourced hs := h'.sourced (h.sourced hs)
  rosters ch := (h.rosters ch).trans (h'.rosters ch)

/-- More deeds promise less. -/
theorem mono (h : Follows ds a b) (hsub : ds ⊆ ds') : Follows ds' a b := by
  have hacts : ∀ n, actsOf n ds ⊆ actsOf n ds' := fun n => List.filterMap_subset _ hsub
  exact { h with
    fields := fun id hid hds => h.fields id hid fun hmem => hds (hsub hmem)
    alive := fun id hid hds => h.alive id hid fun hmem => hds (hsub hmem)
    version := fun id hds => h.version id fun hmem => hds (hsub hmem)
    proper := fun id hds => h.proper id fun hmem => hds (hsub hmem)
    settings := fun n hds => h.settings n fun hmem => hds (hacts n hmem)
    binder := fun n hds => h.binder n (List.subset_nil.mp (hds ▸ hacts n))
    retired := fun n hmade hds => h.retired n (fun hmem => hmade (hacts n hmem)) fun hmem => hds (hacts n hmem) }

/-- Deeds in turn. -/
theorem append (h : Follows ds a b) (h' : Follows ds' b c) : Follows (ds ++ ds') a c :=
  (h.mono (List.subset_append_left _ _)).trans (h'.mono (List.subset_append_right _ _))

end Follows

variable (ds : List Deed) {s : Store}

theorem Keeps.follows {s' : Store} (h : s.Keeps s') : Follows ds s s' where
  records := h.records
  collections := h.collections
  trees := h.trees
  lists := h.lists
  views := h.views
  binders := Nat.le_of_eq (congrArg Array.size h.binders.symm)
  fields id hid _ := h.fields id hid
  alive id hid _ := h.alive id hid
  dead id hid halive := by rwa [h.alive id hid] at halive
  version id _ := h.version id
  proper id _ := h.proper id
  settings n _ := by rw [h.binder]; exact ⟨rfl, rfl⟩
  binder n _ := h.binder n
  retired n _ _ := by rw [h.binder]
  viewBinder := h.viewBinder
  sourced := h.sourced
  rosters ch := by rw [h.roster]; exact .refl _

/-! ## Changes of listeners -/

/-- A change that is one of listeners only. -/
theorem follows_of_rosters {s' : Store} (hrecords : s'.records.size = s.records.size)
    (hrecord : ∀ id, (s'.record id).fields = (s.record id).fields ∧ (s'.record id).version = (s.record id).version ∧
      (s'.record id).alive = (s.record id).alive)
    (hcollections : s'.collections.size = s.collections.size) (htrees : s'.trees.size = s.trees.size)
    (hlists : s'.lists.size = s.lists.size) (hviews : s'.views = s.views) (hbinders : s'.binders = s.binders)
    (hrosters : ∀ ch, (s.roster ch).Grows (s'.roster ch)) : Follows ds s s' where
  records := Nat.le_of_eq hrecords.symm
  collections := Nat.le_of_eq hcollections.symm
  trees := Nat.le_of_eq htrees.symm
  lists := Nat.le_of_eq hlists.symm
  views := Nat.le_of_eq (congrArg Array.size hviews.symm)
  binders := Nat.le_of_eq (congrArg Array.size hbinders.symm)
  fields id _ _ := (hrecord id).1
  alive id _ _ := (hrecord id).2.2
  dead id _ halive := by rwa [(hrecord id).2.2] at halive
  version id _ := (hrecord id).2.1
  proper id _ hproper := by rwa [Store.fields, (hrecord id).1]
  settings n _ := by simp only [Store.binder, hbinders, and_self]
  binder n _ := by simp only [Store.binder, hbinders]
  retired n _ _ := by simp only [Store.binder, hbinders]
  viewBinder v _ := by simp only [view, hviews]
  sourced hs v c hc := by
    simp only [view, hviews] at hc
    exact hcollections ▸ hs v c hc
  rosters := hrosters

theorem follows_modifyRoster {f : {α : Type} → Roster α → Roster α} (hf : Roster.Uniform f)
    (hgrows : ∀ r : Roster Hearer, r.Grows (f r)) (ch : Channel) : Follows ds s (s.modifyRoster ch f) := by
  have hrosters : ∀ ch', (s.roster ch').Grows ((s.modifyRoster ch f).roster ch') := by
    intro ch'
    rw [roster_modifyRoster s hf]
    split
    · next h => rw [h]; exact hgrows _
    · exact .refl _
  cases ch with
  | changes id | requests id =>
    refine follows_of_rosters ds (Array.size_modify ..) (fun id' => ?_) rfl rfl rfl rfl rfl hrosters
    simp only [modifyRoster, record_modifyRecord]
    split
    · next h => rw [h.1]; exact ⟨rfl, rfl, rfl⟩
    · exact ⟨rfl, rfl, rfl⟩
  | removals n | resets n =>
    exact follows_of_rosters ds rfl (fun _ => ⟨rfl, rfl, rfl⟩) (Array.size_modify ..) rfl rfl rfl rfl hrosters
  | delegations n =>
    exact follows_of_rosters ds rfl (fun _ => ⟨rfl, rfl, rfl⟩) rfl (Array.size_modify ..) rfl rfl rfl hrosters
  | list n =>
    exact follows_of_rosters ds rfl (fun _ => ⟨rfl, rfl, rfl⟩) rfl rfl (Array.size_modify ..) rfl rfl hrosters

/-- Dropping a guard takes one listener out, and makes nothing. -/
theorem follows_drop (g : Guard) : Follows ds s (s.drop g) :=
  follows_modifyRoster ds (Roster.uniform_release g.id) (fun r => r.grows_release g.id) g.channel

/-- Beginning a notification alters no record. -/
theorem follows_notify (s : Store) (ch : Channel) (signal : Signal) : Follows [] s (s.notify ch signal).1 :=
  follows_modifyRoster [] (Roster.uniform_draw ((s.draw ch).2.map (·.id))) (fun r => r.grows_draw _) ch

/-- Subscribing puts one listener in, under an id of its own. -/
theorem follows_subscribe (ch : Channel) (l : Listener) : Follows ds s (s.subscribe ch l).1 := by
  cases hch : ch.tree? with
  | some n =>
    cases ch with
    | delegations n => exact .refl ds s
    | _ => cases hch
  | none =>
    have hrosters : ∀ ch', (s.roster ch').Grows ((s.subscribe ch l).1.roster ch') := by
      intro ch'
      rw [roster_subscribe s l hch]
      split
      · next h => rw [h.1]; exact Roster.grows_subscribe _ _
      · exact .refl _
    cases ch with
    | changes id | requests id =>
      refine follows_of_rosters ds (Array.size_modify ..) (fun id' => ?_) rfl rfl rfl rfl rfl hrosters
      simp only [subscribe, record_modifyRecord]
      split
      · next h => rw [h.1]; exact ⟨rfl, rfl, rfl⟩
      · exact ⟨rfl, rfl, rfl⟩
    | removals n | resets n =>
      exact follows_of_rosters ds rfl (fun _ => ⟨rfl, rfl, rfl⟩) (Array.size_modify ..) rfl rfl rfl rfl hrosters
    | delegations n => cases hch
    | list n =>
      exact follows_of_rosters ds rfl (fun _ => ⟨rfl, rfl, rfl⟩) rfl rfl (Array.size_modify ..) rfl rfl hrosters

theorem follows_attachHandler (scope : Scope) (event : String) (selector : Option Selector)
    (handler : EventHandler) : Follows ds s (s.attachHandler scope event selector handler).1 := by
  refine follows_of_rosters ds rfl (fun _ => ⟨rfl, rfl, rfl⟩) rfl (Array.size_modify ..) rfl rfl rfl fun ch => ?_
  rw [roster_attachHandler]
  split
  · next h => rw [h.1]; exact Roster.grows_subscribe _ _
  · exact .refl _

/-! ## Changes of objects -/

/-- A change of one binder, with something done to it among the deeds. -/
theorem follows_modifyBinder {ds : List Deed} {n : Nat} {f : Binder → Binder}
    (hf : ∀ b, (f b).scope = b.scope ∧ (f b).config = b.config)
    (hact : actsOf n ds ≠ []) (hretired : Act.retired ∉ actsOf n ds → ∀ b, (f b).retired = b.retired) :
    Follows ds s (s.modifyBinder n f) where
  records := Nat.le_refl _
  collections := Nat.le_refl _
  trees := Nat.le_refl _
  lists := Nat.le_refl _
  views := Nat.le_refl _
  binders := Nat.le_of_eq (Array.size_modify ..).symm
  fields _ _ _ := rfl
  alive _ _ _ := rfl
  dead _ _ h := h
  version _ _ := rfl
  proper _ _ := id
  settings m _ := by
    rw [binder_modifyBinder]
    split
    · next h => rw [h.1]; exact hf _
    · exact ⟨rfl, rfl⟩
  binder m hds := by
    rw [binder_modifyBinder, if_neg]
    rintro ⟨rfl, -⟩
    exact hact hds
  retired m _ hds := by
    rw [binder_modifyBinder]
    split
    · next h => rw [h.1]; exact hretired (h.1 ▸ hds) _
    · rfl
  viewBinder _ _ := rfl
  sourced := id
  rosters _ := .refl _

theorem binder_addBinder (s : Store) (b : Binder) (n : Nat) :
    (s.addBinder b).binder n = if n = s.binders.size then b else s.binder n := by
  simp only [Store.binder, addBinder, getD_push]

/-- A new binder is made, and the others stay as they are. -/
theorem follows_addBinder (b : Binder) : Follows [.act s.binders.size .made] s (s.addBinder b) := by
  have hother : ∀ n, Act.made ∉ actsOf n [.act s.binders.size .made] → (s.addBinder b).binder n = s.binder n := by
    intro n hds
    rw [binder_addBinder, if_neg]
    rintro rfl
    simp [actsOf] at hds
  exact { Follows.refl [.act s.binders.size .made] s with
    binders := by simp [addBinder]
    settings := fun n hds => by rw [hother n hds]; exact ⟨rfl, rfl⟩
    binder := fun n hds => hother n (by simp [hds])
    retired := fun n hds _ => by rw [hother n hds] }

end Store

end Databind
