import Databind.Proofs.Notification

/-!
# `Proofs.Rendering` — what the journal tells of renderings

Every rendering is noted in the journal, with the binding and, if there was an element, with the value it was given.
Until the journal is read, the notices of renderings that come in are therefore those of the renderings among the
deeds, one for one and in order (`Effects.tells`): nothing is rendered that no deed names.
-/

namespace Databind

open Store

/-- A notice tells of the rendering of a binding on some fields. -/
inductive Notice.TellsOf (x : Binding × Fields) : Notice → Prop
  | missed : TellsOf x (.noElement x.1.record x.1.key)
  | painted (targets : Nat) : TellsOf x (.rendered x.1.record x.1.key (x.1.value x.2) targets)

/-- The renderings among some deeds, of any binder: each binding with the fields that its accessor saw. -/
def renderingsOf (deeds : List Deed) : List (Binding × Fields) :=
  deeds.filterMap fun
    | .act _ (.rendered b fields) => some (b, fields)
    | _ => none

/-- **The notices of renderings that came in are those of the renderings among some deeds.** -/
def Store.Tells (s : Store) (deeds : List Deed) (s' : Store) : Prop :=
  ∃ told, s'.renderings = s.renderings ++ told ∧
    List.Forall₂ (fun notice x => Notice.TellsOf x notice) told (renderingsOf deeds)

theorem renderingsOf_append (ds ds' : List Deed) : renderingsOf (ds ++ ds') = renderingsOf ds ++ renderingsOf ds' :=
  List.filterMap_append

namespace Store

variable {s s' s'' : Store} {ds ds' : List Deed}

/-- Nothing was rendered. -/
theorem tells_of_eq (h : s'.renderings = s.renderings) (hds : renderingsOf ds = []) : s.Tells ds s' :=
  ⟨[], by rw [h, List.append_nil], hds ▸ .nil⟩

theorem Tells.append (h : s.Tells ds s') (h' : s'.Tells ds' s'') : s.Tells (ds ++ ds') s'' := by
  obtain ⟨told, heq, htold⟩ := h
  obtain ⟨told', heq', htold'⟩ := h'
  refine ⟨told ++ told', by rw [heq', heq, List.append_assoc], ?_⟩
  rw [renderingsOf_append]
  exact List.rel_append htold htold'

theorem fields_select (s : Store) (scope : Scope) (text : String) (id : RecordId) :
    (s.select scope text).1.fields id = s.fields id := by
  unfold select
  split
  · rfl
  · split <;> rfl

theorem Tells.renderings (h : s.Tells ds s') (hds : renderingsOf ds = []) : s'.renderings = s.renderings := by
  obtain ⟨told, heq, htold⟩ := h
  rw [hds] at htold
  cases htold
  rw [heq, List.append_nil]

theorem renderings_modifyArena (s : Store) (n : Nat) (f : Arena → Arena) :
    (s.modifyArena n f).renderings = s.renderings := rfl

/-- **A rendering is noted once.** -/
theorem tells_render (s : Store) (n : Nat) (b : Binding) :
    s.Tells [.act n (.rendered b.unguarded (s.fields b.record))] (s.render n b) := by
  have hselect := (s.observe (.query b.key.selector)).extends_select (s.binder n).scope b.key.selector
  have hquery := (s.extends_observe (.query b.key.selector)).trans hselect
  have hfields := (s.observe (.query b.key.selector)).fields_select (s.binder n).scope b.key.selector b.record
  unfold render
  simp only
  split
  · refine ⟨[.noElement b.record b.key], ?_, .cons .missed .nil⟩
    rw [renderings_log, hquery.renderings]
    rfl
  · refine ⟨[.rendered b.record b.key (b.value (s.fields b.record))
      ((s.observe (.query b.key.selector)).select (s.binder n).scope b.key.selector).2.length], ?_,
      .cons (.painted _) .nil⟩
    rw [renderings_modifyArena, renderings_log, hquery.renderings, hfields]
    rfl

theorem renderings_modifyRoster (s : Store) (ch : Channel) (f : {α : Type} → Roster α → Roster α) :
    (s.modifyRoster ch f).renderings = s.renderings := by cases ch <;> rfl

theorem renderings_subscribe (s : Store) (ch : Channel) (listener : Listener) :
    (s.subscribe ch listener).1.renderings = s.renderings := by cases ch <;> rfl

/-- **A move on a binder renders nothing.** -/
theorem Rewire.renderings {n : Nat} {a : Act} {x y : Store × List Post} (h : Rewire n a x y) :
    y.1.renderings = x.1.renderings := by
  cases h with
  | extended h => exact h.renderings
  | subscribed ch listener => exact renderings_subscribe _ ch listener
  | dropped g => exact renderings_modifyRoster _ g.channel _
  | delegated | rebound => rfl

theorem Rewires.renderings {n : Nat} {a : Act} {x y : Store × List Post} (h : Rewires n a x y) :
    y.1.renderings = x.1.renderings := by
  induction h with
  | refl => rfl
  | tail _ hlast ih => exact hlast.renderings.trans ih

end Store

/-- **One effect** is told of, if it renders. -/
theorem Effect.tells {a b : Scene} {ds : List Deed} (h : Effect a ds b) (hw : a.store.Wired [])
    (hread : Deed.read ∉ ds) : a.store.Tells ds b.store := by
  cases h with
  | extended h => exact tells_of_eq h.renderings rfl
  | read => exact absurd List.mem_cons_self hread
  | bound n p hlive halive hfield =>
    have hcommit := commit_rewires (l := []) (lt_of_not_retired _ hlive) (hw.fit n) hlive (hw.scopes n hlive)
      halive hfield
    exact tells_of_eq hcommit.renderings rfl
  | removed n id key h => exact tells_of_eq (removeBinding_rewires (a := .left) (l := []) (hw.fit n) h).renderings rfl
  | cleared n id => exact tells_of_eq (unbindAll_rewires (a := .left) (l := []) (hw.fit n) id).renderings rfl
  | joined n c hlive hc =>
    have hjoined := listenCollection_rewires (a := .left) (l := []) (lt_of_not_retired _ hlive) (hw.fit n) hlive hc
    exact tells_of_eq hjoined.renderings rfl
  | left n => exact tells_of_eq (leaveCollections_rewires (a := .left) (l := []) (hw.fit n)).renderings rfl
  | retired n => exact tells_of_eq (retire_rewires (l := [])).renderings rfl
  | @rendered s calls n b =>
    dsimp only
    exact s.tells_render n b
  | subscribed ch k => exact tells_of_eq (renderings_subscribe _ ch _) rfl
  | dropped g => exact tells_of_eq (renderings_modifyRoster _ g.channel _) rfl
  | drew ch | finished ch => exact tells_of_eq (renderings_modifyRoster _ ch _) rfl
  | strayed | wrote | destroyed | addedBinder | absent | heard | delegated | clearedList | drewEvent =>
    exact tells_of_eq rfl rfl

/-- **Any effects** are told of, until the journal is read. -/
theorem Effects.tells {a b : Scene} {ds : List Deed} (h : Effects a ds b) (ha : a.Sound)
    (hread : Deed.read ∉ ds) : a.store.Tells ds b.store := by
  induction h with
  | refl => exact tells_of_eq rfl rfl
  | tail hfirst hlast ih =>
    have htold := ih fun hmem => hread (List.mem_append_left _ hmem)
    have hlater := hlast.tells (hfirst.upkeep ha).2.wired fun hmem => hread (List.mem_append_right _ hmem)
    exact htold.append hlater

/-- A batch of writes renders nothing before it is notified. -/
theorem Store.renderings_write {s : Store} {calls : List (Channel × List Nat)} (h : Scene.Sound ⟨s, calls⟩)
    (id : RecordId) (entries : List (String × Value)) : (s.write id entries).1.renderings = s.renderings := by
  refine ((write_effects s id entries).tells h (s.read_not_mem_writeDeeds id)).renderings ?_
  unfold writeDeeds
  split <;> rfl

namespace Machine

variable {m m' : Machine}

/-- **A step** is told of. -/
theorem tells_step (hm : m.Sound) (h : m.step? = some m') : m.store.Tells m.stepDeeds m'.store :=
  (does_step hm h).effects.tells hm.scene m.read_not_mem_stepDeeds

/-- **A run that returns** is told of. -/
theorem Returns.tells {base : List Frame} {turns : List Turn} (hm : m.Sound) (h : m.Returns base turns m') :
    m.store.Tells (m.deeds turns) m'.store := by
  induction h with
  | done => exact tells_of_eq rfl rfl
  | @turn m m₁ m' t rest f top habove hturn hrest ih =>
    have hlater := ih ((does_turn hm hturn).sound hm)
    simp only [deeds, hturn, Option.elim_some]
    refine Tells.append ?_ hlater
    cases turned_of_turn hturn with
    | asked cs hstack => exact tells_of_eq rfl rfl
    | began c hidle | read hidle => cases hidle.symm.trans habove
    | ended hstack | performed hstack | ran hstack => exact tells_step hm hturn

end Machine

end Databind
