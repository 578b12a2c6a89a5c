import Databind.Proofs.Independence.SharedOperations
import Databind.Proofs.Deed

/-!
# `Proofs.Independence.SharedDeeds` — what is done besides the stranger

Twins do the same, and what they do to the stranger is left out: the deeds of every operation of a store are the same
on both sides once those on the stranger are taken away.

## Main definitions

* `Stranger.besides` — the deeds that are not done to the stranger.
-/

namespace Databind

/-- Whether something is done to a binder. -/
def Deed.isOf (n : Nat) : Deed → Bool
  | .act m _ => m == n
  | _ => false

/-- **What is done besides what is done to the stranger.** -/
def Stranger.besides (b : Stranger) (ds : List Deed) : List Deed := ds.filter fun d => !d.isOf b.binder

namespace Stranger

variable (b : Stranger)

theorem besides_append (ds ds' : List Deed) : b.besides (ds ++ ds') = b.besides ds ++ b.besides ds' :=
  List.filter_append ..

/-- Nothing is left of what is done to the stranger only. -/
theorem besides_own {ds : List Deed} (h : ∀ d ∈ ds, d.isOf b.binder = true) : b.besides ds = [] :=
  List.filter_eq_nil_iff.mpr fun d hd => by simp [h d hd]

/-- What is done to somebody else is not left out. -/
theorem actsOf_besides {n : Nat} (hn : n ≠ b.binder) (ds : List Deed) : actsOf n (b.besides ds) = actsOf n ds := by
  unfold actsOf besides
  rw [List.filterMap_filter]
  refine List.filterMap_congr fun d _ => ?_
  cases d with
  | act m a =>
    by_cases hm : m = n
    · subst hm
      simp [Deed.isOf, hn]
    · simp [hm]
  | _ => rfl

end Stranger

namespace Store

variable {b : Stranger} {s s' : Store}

/-! ## Deeds of the stranger -/

/-- The stranger renders: that is done to it only. -/
theorem besides_renderDeeds (s : Store) (xs : List Binding) : b.besides (s.renderDeeds b.binder xs) = [] := by
  refine b.besides_own fun d hd => ?_
  obtain ⟨x, -, rfl⟩ := List.mem_map.mp hd
  exact beq_self_eq_true _

/-- The stranger puts a binding into effect, and renders it if it is asked to. -/
theorem besides_commitDeeds (s : Store) (p : Prepared) : b.besides (s.commitDeeds b.binder p) = [] := by
  have hrendered : b.besides (if p.autoRender then s.renderDeeds b.binder [Prepared.binding p none] else []) = [] := by
    split
    · exact s.besides_renderDeeds _
    · rfl
  unfold commitDeeds
  rw [← List.singleton_append, b.besides_append, hrendered, List.append_nil]
  exact b.besides_own fun d hd => List.mem_singleton.mp hd ▸ beq_self_eq_true _

/-- The stranger binds a property, or the binding is refused and nothing is done. -/
theorem besides_bindDeeds (s : Store) (id : RecordId) (property : Property) (key : BindingKey) (twoWay : TwoWay)
    (autoRender : Bool) : b.besides (s.bindDeeds b.binder id property key twoWay autoRender) = [] := by
  unfold bindDeeds
  split
  · exact s.besides_commitDeeds _
  · rfl

/-- The stranger drops everything. -/
theorem besides_detachDeeds : b.besides (detachDeeds b.binder) = [] :=
  b.besides_own fun d hd => by
    simp only [detachDeeds, List.mem_cons, List.not_mem_nil, or_false] at hd
    rcases hd with rfl | rfl <;> exact beq_self_eq_true _

/-- **A map is attached to the stranger**: nothing of that is done to anybody else. -/
theorem besides_attachDeeds (s : Store) (source : Source) (map : BindingMap) (autoRender : Option Bool) :
    b.besides (s.attachDeeds b.binder source map autoRender) = [] := by
  have hjoined : b.besides (joinDeeds b.binder source) = [] := by
    cases source with
    | collection c => exact b.besides_own fun d hd => List.mem_singleton.mp hd ▸ beq_self_eq_true _
    | _ => rfl
  have hcommitted (ps : List Prepared) : b.besides (ps.flatMap (s.commitDeeds b.binder)) = [] := by
    induction ps with
    | nil => rfl
    | cons p rest ih => rw [List.flatMap_cons, b.besides_append, s.besides_commitDeeds, ih, List.append_nil]
  unfold attachDeeds
  split
  · rfl
  · split
    · rw [b.besides_append, b.besides_append, besides_detachDeeds, hcommitted, hjoined, List.append_nil, List.append_nil]
    · rfl

/-- A view of the stranger releases what it owns. -/
theorem besides_unmountDeeds {v : Nat} (hv : (s.view v).binder = b.binder) : b.besides (s.unmountDeeds v) = [] := by
  unfold unmountDeeds releaseDeeds
  simp only
  rw [hv]
  split
  · refine b.besides_own fun d hd => ?_
    rcases List.mem_append.mp hd with hd | hd
    · obtain ⟨x, -, rfl⟩ := List.mem_map.mp hd
      exact beq_self_eq_true _
    · split at hd
      · exact List.mem_singleton.mp hd ▸ beq_self_eq_true _
      · cases hd
  · rfl

theorem besides_renderBindingsDeeds (s : Store) (id : Option RecordId) :
    b.besides (s.renderBindingsDeeds b.binder id) = [] := s.besides_renderDeeds _

/-- **The stranger hears a notification**: what it does then it does to itself. -/
theorem besides_reactDeeds (s : Store) {l : Listener} (hl : l.binder? = some b.binder) (signal : Signal) :
    b.besides (s.reactDeeds l signal) = [] := by
  have hheard {a : Act} {ds : List Deed} (hds : b.besides ds = []) :
      b.besides (if (s.binder b.binder).retired then [] else .act b.binder a :: ds) = [] := by
    split
    · rfl
    · rw [← List.singleton_append, b.besides_append, hds, List.append_nil]
      exact b.besides_own fun d hd => List.mem_singleton.mp hd ▸ beq_self_eq_true _
  unfold reactDeeds
  split <;> try cases hl
  · exact hheard (s.besides_renderDeeds _)
  · exact hheard (s.besides_renderDeeds _)
  · exact hheard (b.besides_own fun d hd => List.mem_singleton.mp hd ▸ beq_self_eq_true _)
  · exact hheard besides_detachDeeds
  · rfl

/-! ## Deeds on both sides -/

namespace Twin

variable (h : s.Twin b s')
include h

/-- Bindings that are the same but for their guards are rendered on the same fields. -/
theorem renderDeeds (n : Nat) {G : Guard → Guard → Prop} {xs xs' : List Binding}
    (hxs : List.Forall₂ (Binding.Alike G) xs xs') : s.renderDeeds n xs = s'.renderDeeds n xs' :=
  map_eq_of_rel (fun x x' hx => by rw [hx.unguarded, hx.record, h.fields]) hxs

theorem commitDeeds (n : Nat) (p : Prepared) : s.commitDeeds n p = s'.commitDeeds n p := by
  simp only [Store.commitDeeds, Store.renderDeeds, h.fields]

/-- A binding is checked on the record and the settings of the binder, which are the same. -/
theorem bindDeeds (n : Nat) (id : RecordId) (property : Property) (key : BindingKey) (twoWay : TwoWay)
    (autoRender : Bool) :
    s.bindDeeds n id property key twoWay autoRender = s'.bindDeeds n id property key twoWay autoRender := by
  simp only [Store.bindDeeds, h.prepare, h.commitDeeds]

/-- **What a map asks for** is the same, and it is refused on both sides or on neither. -/
theorem checked (n : Nat) (source : Source) (map : BindingMap) (autoRender : Bool) :
    s.checked n source map autoRender = s'.checked n source map autoRender := by
  cases source with
  | none => rfl
  | record id => exact h.prepareRecord n autoRender id map.entries
  | collection c =>
    have hplan (plan : List Planned) := h.preparePlan n autoRender plan
    simp only [Store.checked, h.expand, h.config, hplan]

/-- **Attaching a map** is the same deeds on both sides, whoever the binder is. -/
theorem attachDeeds (n : Nat) (source : Source) (map : BindingMap) (autoRender : Option Bool) :
    s.attachDeeds n source map autoRender = s'.attachDeeds n source map autoRender := by
  have hcommit : s.commitDeeds n = s'.commitDeeds n := funext (h.commitDeeds n)
  simp only [Store.attachDeeds, h.checked, h.config, hcommit]

theorem mountDeeds (v : Nat) : s.mountDeeds v = s'.mountDeeds v := by
  simp only [Store.mountDeeds, h.view_binder, h.view_source, h.view_bindings, h.attachDeeds]

/-- What the stranger's view owns may differ, but what is released of it is the stranger's. -/
theorem unmountDeeds (v : Nat) : b.besides (s.unmountDeeds v) = b.besides (s'.unmountDeeds v) := by
  by_cases hv : (s.view v).binder = b.binder
  · rw [besides_unmountDeeds hv, besides_unmountDeeds (h.view_binder v ▸ hv)]
  · unfold Store.unmountDeeds
    rw [h.view hv]

/-- The stranger's bindings may differ; those of everybody else are the same. -/
theorem renderBindingsDeeds (n : Nat) (id : Option RecordId) :
    b.besides (s.renderBindingsDeeds n id) = b.besides (s'.renderBindingsDeeds n id) := by
  by_cases hn : n = b.binder
  · subst hn
    rw [besides_renderBindingsDeeds, besides_renderBindingsDeeds]
  · have hregistry := h.registry hn
    unfold Store.renderBindingsDeeds
    cases id with
    | none => exact congrArg _ (h.renderDeeds n hregistry.bindings)
    | some id => exact congrArg _ (h.renderDeeds n (hregistry.bindingsOf id))

/-- A record takes writes on both sides, or on neither. -/
theorem writeDeeds (id : RecordId) : s.writeDeeds id = s'.writeDeeds id := by
  simp only [Store.writeDeeds, h.alive]

/-- **Somebody other than the stranger hears a notification.** -/
theorem reactDeeds {l : Listener} (hl : (Hearer.listener l).isOf b.binder = false) (signal : Signal) :
    s.reactDeeds l signal = s'.reactDeeds l signal := by
  have hne {n : Nat} (hn : l.binder? = some n) : n ≠ b.binder := by
    rintro rfl
    simp [Hearer.isOf, hn] at hl
  unfold Store.reactDeeds
  split
  · next n id set =>
    have hbindings := (h.registry (hne rfl)).bindingsOf id
    have htriggered := rel_filter (fun _ _ hx => hx.isTriggeredBy set) hbindings
    simp only [(h.binder n (hne rfl)).retired, h.renderDeeds n htriggered]
  · next n id => simp only [(h.binder n (hne rfl)).retired, h.renderDeeds n ((h.registry (hne rfl)).bindingsOf id)]
  · next n id => simp only [(h.binder n (hne rfl)).retired]
  · next n => simp only [(h.binder n (hne rfl)).retired]
  · rfl

end Twin

end Store

end Databind
