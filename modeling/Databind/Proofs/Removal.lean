import Databind.Proofs.Rerender
import Databind.Proofs.Standing

/-!
# `Proofs.Removal` — what was removed is not rendered

A notification that is running goes on calling the listeners it drew up, also the ones whose guards were dropped
since, so a binder may hear of a change after its last binding of the record was removed. It then looks up the
bindings that it holds at that moment, and no others: every rendering of a run is of a binding that its binder holds
when the rendering takes place (`Machine.backed_walk`). What was removed and not bound again is not held, so it is
not rendered, whatever is in progress.

## Main definitions

* `heldAfter` — the bindings of a record after some acts.
* `Backed` — every rendering is of a binding that is held.
* `Gone` — a binding was removed, and its key was not bound again.
-/

namespace Databind

open Store Workspace

/-! ## Bindings that are held -/

/-- Whether an act removes what stands under a key of a record, and puts nothing in its place. -/
def Act.removes (id : RecordId) (key : BindingKey) : Act → Bool
  | .bound _ => false
  | a => a.undoes id key

/-- The bindings of a record after some acts, if `held` were there before. -/
def heldAfter (held : RecordId → List Binding) (acts : List Act) (id : RecordId) : List Binding :=
  (held id).filter (fun b => acts.all fun a => !a.undoes id b.key) ++
    (standing id acts).map (Prepared.binding · none)

/-- **Every rendering among some acts is of a binding that is held when its turn comes.** -/
def Backed (held : RecordId → List Binding) : List Act → Prop
  | [] => True
  | a :: later => (∀ b fields, a = .rendered b fields → b ∈ held b.record) ∧ Backed (heldAfter held [a]) later

section Acts

variable {held : RecordId → List Binding} {acts acts' : List Act}

theorem heldAfter_nil (held : RecordId → List Binding) : heldAfter held [] = held := by
  funext id
  simp [heldAfter, standing]

theorem heldAfter_append (held : RecordId → List Binding) (acts acts' : List Act) :
    heldAfter held (acts ++ acts') = heldAfter (heldAfter held acts) acts' := by
  funext id
  simp only [heldAfter, standing_append, List.filter_append, List.filter_filter, List.map_append, List.append_assoc,
    List.filter_map, List.all_append]
  congr 1
  apply List.filter_congr
  intro b _
  exact Bool.and_comm _ _

/-- A rendering removes nothing and binds nothing. -/
theorem heldAfter_rendered (held : RecordId → List Binding) (b : Binding) (fields : Fields) :
    heldAfter held [.rendered b fields] = held := by
  funext id
  simp [heldAfter, standing, Act.undoes]

theorem heldAfter_heard (held : RecordId → List Binding) (l : Listener) (signal : Signal) :
    heldAfter held [.heard l signal] = held := by
  funext id
  simp [heldAfter, standing, Act.undoes]

/-- What was bound last is held. -/
theorem mem_heldAfter_bound (held : RecordId → List Binding) (p : Prepared) :
    Prepared.binding p none ∈ heldAfter held [.bound p] p.record := by
  refine List.mem_append_right _ ?_
  simp [standing]

theorem backed_append : Backed held (acts ++ acts') ↔ Backed held acts ∧ Backed (heldAfter held acts) acts' := by
  induction acts generalizing held with
  | nil => rw [heldAfter_nil, List.nil_append, Backed, true_and]
  | cons a rest ih =>
    have hcons : heldAfter (heldAfter held [a]) rest = heldAfter held (a :: rest) :=
      (heldAfter_append held [a] rest).symm
    rw [List.cons_append, Backed, Backed, ih, hcons, and_assoc]

/-- Acts without a rendering are backed by anything. -/
theorem backed_of_unrendered (h : ∀ b fields, Act.rendered b fields ∉ acts) : Backed held acts := by
  induction acts generalizing held with
  | nil => trivial
  | cons a rest ih =>
    refine ⟨?_, ih fun b fields hmem => h b fields (List.mem_cons_of_mem _ hmem)⟩
    rintro b fields rfl
    exact absurd List.mem_cons_self (h b fields)

/-- Renderings of bindings that are held. -/
theorem backed_rendered {bs : List Binding} (h : ∀ b ∈ bs, b.unguarded ∈ held b.record)
    (fields : Binding → Fields) : Backed held (bs.map fun b => .rendered b.unguarded (fields b)) := by
  induction bs with
  | nil => trivial
  | cons b rest ih =>
    refine ⟨?_, ?_⟩
    · intro b' fields' heq
      cases heq
      exact h b List.mem_cons_self
    · rw [heldAfter_rendered]
      exact ih fun b' hb' => h b' (List.mem_cons_of_mem _ hb')

/-- **A rendering in the middle of backed acts** is of a binding held at that point. -/
theorem Backed.rendered {before after : List Act} {b : Binding} {fields : Fields}
    (h : Backed held (before ++ .rendered b fields :: after)) : b ∈ heldAfter held before b.record :=
  (backed_append.mp h).2.1 b fields rfl

end Acts

/-! ## Removed bindings -/

/-- **The binding under a key of a record was removed, and the key was not bound again since.** -/
def Gone (id : RecordId) (key : BindingKey) (acts : List Act) : Prop :=
  ∃ before a after, acts = before ++ a :: after ∧ a.removes id key = true ∧
    ∀ p, Act.bound p ∈ after → ¬(p.record = id ∧ p.key = key)

section Gone

variable {id : RecordId} {key : BindingKey} {acts : List Act}

theorem Act.undoes_of_removes {a : Act} (h : a.removes id key = true) : a.undoes id key = true := by
  cases a with
  | bound p => cases h
  | _ => exact h

/-- What undoes without binding removes. -/
theorem Act.removes_of_undoes {a : Act} (h : a.undoes id key = true)
    (hbound : ∀ p, a = .bound p → ¬(p.record = id ∧ p.key = key)) : a.removes id key = true := by
  cases a with
  | bound p =>
    simp only [undoes, Bool.and_eq_true, decide_eq_true_eq] at h
    exact absurd h (hbound p rfl)
  | _ => exact h

theorem bound_of_mem_standing {p : Prepared} (h : p ∈ standing id acts) : Act.bound p ∈ acts := by
  induction acts with
  | nil => simp [standing] at h
  | cons a rest ih =>
    rw [standing_cons] at h
    rcases List.mem_append.mp h with h | h
    · have hmem := (List.mem_filter.mp h).1
      cases a with
      | bound q =>
        simp only [standing, List.all_nil, and_true] at hmem
        split at hmem
        · exact List.mem_singleton.mp hmem ▸ List.mem_cons_self
        · cases hmem
      | _ => simp [standing] at hmem
    · exact List.mem_cons_of_mem _ (ih h)

/-- Nothing stands where the last binding was removed. -/
theorem Gone.not_standing (h : Gone id key acts) : ∀ p ∈ standing id acts, p.key ≠ key := by
  obtain ⟨before, a, after, rfl, hremoves, hnever⟩ := h
  intro p hp hkey
  rw [standing_append, standing_cons] at hp
  rcases List.mem_append.mp hp with hp | hp
  · have hkept := (List.mem_filter.mp hp).2
    rw [List.all_cons, hkey, Act.undoes_of_removes hremoves] at hkept
    cases hkept
  · rcases List.mem_append.mp hp with hp | hp
    · -- what removes binds nothing, so it leaves nothing of its own
      have hmem := (List.mem_filter.mp hp).1
      cases a with
      | bound q => cases hremoves
      | _ => simp [standing] at hmem
    · exact hnever p (bound_of_mem_standing hp) ⟨record_of_mem_standing hp, hkey⟩

/-- **Nothing stands under a key exactly if it was never bound, or was removed after it was bound last.** -/
theorem not_standing_iff : (∀ p ∈ standing id acts, p.key ≠ key) ↔
    Gone id key acts ∨ ∀ p, Act.bound p ∈ acts → ¬(p.record = id ∧ p.key = key) := by
  constructor
  · intro h
    induction acts with
    | nil => exact .inr (by simp)
    | cons a rest ih =>
      rw [standing_cons] at h
      rcases ih fun p hp => h p (List.mem_append_right _ hp) with hgone | hnever
      · obtain ⟨before, x, after, rfl, hx⟩ := hgone
        exact .inl ⟨a :: before, x, after, rfl, hx⟩
      · by_cases hbinds : ∃ p, a = .bound p ∧ p.record = id ∧ p.key = key
        · -- the last binding under the key: it does not stand, so something behind it undoes it
          obtain ⟨p, rfl, rfl, rfl⟩ := hbinds
          have hundone : ¬rest.all (fun x => !x.undoes p.record p.key) = true := by
            intro hall
            refine h p (List.mem_append_left _ (List.mem_filter.mpr ⟨?_, hall⟩)) rfl
            simp [standing]
          simp only [List.all_eq_true, Bool.not_eq_true', not_forall, Bool.not_eq_false] at hundone
          obtain ⟨x, hx, hundoes⟩ := hundone
          obtain ⟨before, after, rfl⟩ := List.append_of_mem hx
          have hremoves := Act.removes_of_undoes hundoes fun q heq => hnever q (heq ▸ hx)
          refine .inl ⟨.bound p :: before, x, after, rfl, hremoves, fun q hq => ?_⟩
          exact hnever q (List.mem_append_right _ (List.mem_cons_of_mem _ hq))
        · right
          intro p hp hsame
          rcases List.mem_cons.mp hp with heq | hp
          · exact hbinds ⟨p, heq.symm, hsame⟩
          · exact hnever p hp hsame
  · rintro (hgone | hnever)
    · exact hgone.not_standing
    · exact fun p hp hkey => hnever p (bound_of_mem_standing hp) ⟨record_of_mem_standing hp, hkey⟩

/-- **What is not held is bound before it is rendered.** -/
theorem Backed.bound_of_rendered {held : RecordId → List Binding} {before after : List Act} {b : Binding}
    {fields : Fields} (h : Backed held (before ++ .rendered b fields :: after))
    (hnone : ∀ b' ∈ held b.record, b'.key ≠ b.key) :
    ∃ p, Act.bound p ∈ before ∧ p.record = b.record ∧ p.key = b.key := by
  rcases List.mem_append.mp h.rendered with hheld | hbound
  · exact absurd rfl (hnone b (List.mem_filter.mp hheld).1)
  · obtain ⟨p, hp, rfl⟩ := List.mem_map.mp hbound
    exact ⟨p, bound_of_mem_standing hp, rfl, rfl⟩

end Gone

/-! ## Operations -/

namespace Store

variable {s : Store} {n : Nat} {ds ds' : List Deed}

/-- The bindings that a binder holds of each record. -/
def held (s : Store) (n : Nat) (id : RecordId) : List Binding :=
  ((s.binder n).registry.bindingsOf id).map Binding.unguarded

/-- **Every rendering among some deeds is of a binding that its binder holds when its turn comes**, if the deeds
begin in a store. -/
def Backs (s : Store) (ds : List Deed) : Prop := ∀ n, Backed (s.held n) (actsOf n ds)

end Store

/-- Whether an act gives a binder nothing, and renders nothing: the binder is new, or it loses something. -/
def Act.loses : Act → Bool
  | .made | .removed _ _ | .cleared _ | .left | .retired => true
  | _ => false

/-- Deeds by which binders get nothing, and which render nothing. -/
def Losing (ds : List Deed) : Prop := ∀ n a, Deed.act n a ∈ ds → a.loses = true

namespace Losing

variable {ds ds' : List Deed}

theorem nil : Losing [] := fun _ _ hmem => absurd hmem List.not_mem_nil

theorem append (h : Losing ds) (h' : Losing ds') : Losing (ds ++ ds') := fun n a hmem =>
  (List.mem_append.mp hmem).elim (h n a) (h' n a)

theorem act {n : Nat} {a : Act} (h : a.loses = true) : Losing [.act n a] := by
  intro m a' hmem
  cases List.mem_singleton.mp hmem
  exact h

theorem of_found {ε α : Type} {found : Except ε α} {deeds : α → List Deed} (h : ∀ a, Losing (deeds a)) :
    Losing (foundDeeds found deeds) := by
  cases found with
  | ok a => exact h a
  | error e => exact nil

theorem acts (h : Losing ds) {n : Nat} {a : Act} (ha : a ∈ actsOf n ds) : a.loses = true := by
  obtain ⟨d, hd, hact⟩ := List.mem_filterMap.mp ha
  cases d with
  | act m a' =>
    simp only [Option.ite_none_right_eq_some, Option.some.injEq] at hact
    exact h m a (hact.2 ▸ hd)
  | _ => cases hact

theorem backs (h : Losing ds) (s : Store) : s.Backs ds := by
  intro n
  apply backed_of_unrendered
  intro b fields hmem
  cases h.acts hmem

end Losing

namespace Store

variable {s : Store} {n : Nat}

theorem losing_releaseDeeds (n : Nat) (keys : List (RecordId × BindingKey)) (collections : Bool) :
    Losing (releaseDeeds n keys collections) := by
  intro m a hmem
  rcases List.mem_append.mp hmem with hmem | hmem
  · obtain ⟨entry, -, heq⟩ := List.mem_map.mp hmem
    cases heq
    rfl
  · cases collections with
    | false => cases hmem
    | true =>
      cases List.mem_singleton.mp hmem
      rfl

theorem losing_unmountDeeds (s : Store) (v : Nat) : Losing (s.unmountDeeds v) := by
  unfold unmountDeeds
  simp only
  split
  · exact losing_releaseDeeds _ _ _
  · exact .nil

theorem losing_writeDeeds (s : Store) (id : RecordId) : Losing (s.writeDeeds id) := by
  intro m a hmem
  unfold writeDeeds at hmem
  split at hmem <;> simp at hmem

/-- **Bindings of a binder are rendered while it holds them.** -/
theorem backs_renderDeeds {bs : List Binding} (h : ∀ b ∈ bs, b ∈ (s.binder n).registry.bindingsOf b.record) :
    s.Backs (s.renderDeeds n bs) := by
  intro m
  by_cases hm : m = n
  · subst hm
    rw [actsOf_renderDeeds]
    exact backed_rendered (fun b hb => List.mem_map_of_mem (h b hb)) _
  · have hnone : actsOf m (s.renderDeeds n bs) = [] := by
      apply List.filterMap_eq_nil_iff.mpr
      intro d hd
      obtain ⟨b, -, rfl⟩ := List.mem_map.mp hd
      exact if_neg (Ne.symm hm)
    rw [hnone]
    trivial

/-- **A binding is held before it is rendered for the first time.** -/
theorem backed_commitDeeds (s : Store) (n : Nat) (p : Prepared) (m : Nat) (held : RecordId → List Binding) :
    Backed held (actsOf m (s.commitDeeds n p)) := by
  have hrest : ∀ ds : List Deed, Deed.act n (.bound p) :: ds = [.act n (.bound p)] ++ ds := fun ds => rfl
  unfold commitDeeds
  rw [hrest, actsOf_append]
  by_cases hm : m = n
  · subst hm
    rw [actsOf_act]
    refine backed_append.mpr ⟨backed_of_unrendered (by simp), ?_⟩
    split
    · rw [actsOf_renderDeeds]
      refine backed_rendered (fun b hb => ?_) _
      rw [List.mem_singleton.mp hb]
      exact mem_heldAfter_bound held p
    · trivial
  · have hnone : actsOf m (if p.autoRender = true then s.renderDeeds n [Prepared.binding p none] else []) = [] := by
      split
      · simp [renderDeeds, actsOf, Ne.symm hm]
      · rfl
    rw [actsOf_act_of_ne hm, hnone]
    trivial

theorem backed_flatMap_commitDeeds (s : Store) (n : Nat) (ps : List Prepared) (m : Nat)
    (held : RecordId → List Binding) : Backed held (actsOf m (ps.flatMap (s.commitDeeds n))) := by
  induction ps generalizing held with
  | nil => trivial
  | cons p rest ih =>
    rw [List.flatMap_cons, actsOf_append]
    exact backed_append.mpr ⟨s.backed_commitDeeds n p m held, ih _⟩

theorem losing_detachDeeds (n : Nat) : Losing (detachDeeds n) := (Losing.act (a := .cleared none) rfl).append (.act rfl)

theorem backs_bindDeeds (s : Store) (n : Nat) (id : RecordId) (property : Property) (key : BindingKey)
    (twoWay : TwoWay) (autoRender : Bool) : s.Backs (s.bindDeeds n id property key twoWay autoRender) := by
  unfold bindDeeds
  split
  · exact fun m => s.backed_commitDeeds n _ m _
  · exact Losing.nil.backs s

/-- **Attaching a map** renders what it bound itself. -/
theorem backs_attachDeeds (s : Store) (n : Nat) (source : Source) (map : BindingMap) (autoRender : Option Bool) :
    s.Backs (s.attachDeeds n source map autoRender) := by
  unfold attachDeeds
  split
  · exact Losing.nil.backs s
  · split
    · intro m
      have hjoin : ∀ b fields, Act.rendered b fields ∉ actsOf m (joinDeeds n source) := by
        intro b fields hmem
        obtain ⟨d, hd, hact⟩ := List.mem_filterMap.mp hmem
        cases source with
        | collection c =>
          cases List.mem_singleton.mp hd
          simp at hact
        | _ => cases hd
      rw [actsOf_append, actsOf_append]
      refine backed_append.mpr ⟨backed_append.mpr ⟨?_, s.backed_flatMap_commitDeeds n _ m _⟩, ?_⟩
      · exact (losing_detachDeeds n).backs s m
      · exact backed_of_unrendered hjoin
    · exact Losing.nil.backs s

/-- What a binder renders when it is asked to it holds. -/
theorem backs_renderBindingsDeeds (hs : s.Registered) (n : Nat) (id : Option RecordId) :
    s.Backs (s.renderBindingsDeeds n id) := by
  have htidy := (hs n).toTidy
  apply backs_renderDeeds
  intro b hb
  cases id with
  | none => exact htidy.mem_bindingsOf.mpr ⟨hb, rfl⟩
  | some id =>
    obtain ⟨hmem, rfl⟩ := htidy.mem_bindingsOf.mp hb
    exact hb

/-- **What a listener renders its binder holds when it is called**, not when the notification began. -/
theorem backs_reactDeeds (hs : s.Registered) (listener : Listener) (signal : Signal) :
    s.Backs (s.reactDeeds listener signal) := by
  -- hearing renders nothing and takes nothing away
  have heard (n : Nat) {ds : List Deed} (h : s.Backs ds) :
      s.Backs (if (s.binder n).retired then [] else .act n (.heard listener signal) :: ds) := by
    split
    · exact Losing.nil.backs s
    · intro m
      rw [← List.singleton_append, actsOf_append]
      refine backed_append.mpr ⟨?_, ?_⟩
      · exact backed_of_unrendered fun b fields hmem => by
          by_cases hm : m = n
          · simp [hm, actsOf_act] at hmem
          · simp [actsOf_act_of_ne hm] at hmem
      · by_cases hm : m = n
        · rw [hm, actsOf_act, heldAfter_heard]
          exact hm ▸ h m
        · rw [actsOf_act_of_ne hm, heldAfter_nil]
          exact h m
  have hrecord (n : Nat) (id : RecordId) (b : Binding) (hb : b ∈ (s.binder n).registry.bindingsOf id) :
      b ∈ (s.binder n).registry.bindingsOf b.record := by
    obtain ⟨-, rfl⟩ := (hs n).toTidy.mem_bindingsOf.mp hb
    exact hb
  unfold reactDeeds
  simp only
  split
  · exact heard _ (backs_renderDeeds fun b hb => hrecord _ _ b (List.mem_filter.mp hb).1)
  · exact heard _ (backs_renderDeeds fun b hb => hrecord _ _ b hb)
  · exact heard _ ((Losing.act rfl).backs s)
  · exact heard _ ((losing_detachDeeds _).backs s)
  · exact Losing.nil.backs s

end Store

/-! ## Commands -/

namespace Workspace

theorem losing_retireDeeds (w : Workspace) (n : Nat) : Losing (w.retireDeeds n) := by
  unfold retireDeeds
  split
  · exact .nil
  · exact .act rfl

theorem losing_letGoDeeds (w : Workspace) (h : Handle) : Losing (w.letGoDeeds h) := by
  cases h with
  | binder n => exact w.losing_retireDeeds n
  | view v => exact (losing_unmountDeeds _ v).append (losing_retireDeeds _ _)
  | _ => exact .nil

theorem losing_assignDeeds (w : Workspace) (name : String) (h : Handle) :
    Losing (w.assignDeeds name h) := by
  unfold assignDeeds
  cases w.handle? name with
  | none => exact .nil
  | some old => exact losing_letGoDeeds _ old

theorem losing_forgetDeeds (w : Workspace) (name : String) : Losing (w.forgetDeeds name) := by
  unfold forgetDeeds
  cases w.handle? name with
  | none => exact .nil
  | some old => exact losing_letGoDeeds _ old

end Workspace

variable {w : Workspace}

/-- Deeds after a lookup. -/
theorem Store.backs_found {s : Store} {ε α : Type} {found : Except ε α} {deeds : α → List Deed}
    (h : ∀ a, s.Backs (deeds a)) : s.Backs (foundDeeds found deeds) := by
  cases found with
  | ok a => exact h a
  | error e => exact Losing.nil.backs s

theorem losing_strayDeeds (s : Store) (k x : Nat) : Losing (s.strayDeeds k x) := by
  intro n a hmem
  unfold strayDeeds at hmem
  split at hmem <;> simp at hmem

theorem TreeCommand.losing (command : TreeCommand) : Losing (command.deeds w) :=
  command.deeds_elim .nil losing_assignDeeds fun s k x w' name h =>
    (losing_strayDeeds s k x).append (losing_assignDeeds w' name h)

theorem RecordCommand.losing (command : RecordCommand) : Losing (command.deeds w) := by
  cases command with
  | make as fields => exact losing_assignDeeds _ _ _
  | write record entries => exact .of_found fun id => losing_writeDeeds _ id
  | destroy record => exact .of_found fun id n a hmem => by simp at hmem
  | _ => exact .nil

theorem CollectionCommand.losing (command : CollectionCommand) : Losing (command.deeds w) := by
  cases command with
  | make as members => exact .of_found fun ids => losing_assignDeeds _ _ _
  | _ => exact .nil

theorem NameCommand.losing (command : NameCommand) : Losing (command.deeds w) := by
  cases command with
  | makeList as => exact losing_assignDeeds _ _ _
  | drop name => exact losing_forgetDeeds _ name
  | _ => exact .nil

theorem BinderCommand.backed (hw : w.store.Registered) (command : BinderCommand) :
    w.store.Backs (command.deeds w) := by
  cases command with
  | make as tree config =>
    refine (Losing.of_found fun scope => .of_found fun config => ?_).backs _
    exact (Losing.act rfl).append (losing_assignDeeds _ _ _)
  | clone as binder => exact (Losing.of_found fun n => losing_assignDeeds _ _ _).backs _
  | bind binder record property key twoWay autoRender =>
    exact backs_found fun n => backs_found fun id => backs_found fun property => backs_bindDeeds _ n _ _ _ _ _
  | unbind binder record key =>
    exact (Losing.of_found fun n => .of_found fun id => Losing.act rfl).backs _
  | unbindAll binder record =>
    exact (Losing.of_found fun n => .of_found fun id => Losing.act rfl).backs _
  | render binder record => exact backs_found fun n => backs_found fun id => backs_renderBindingsDeeds hw n id
  | attach binder source map autoRender =>
    exact backs_found fun n => backs_found fun source => backs_found fun map => backs_attachDeeds _ n _ _ _
  | detach binder => exact (Losing.of_found fun n => losing_detachDeeds n).backs _
  | _ => exact Losing.nil.backs _

theorem ViewCommand.backed (hw : w.store.Registered) (command : ViewCommand) :
    w.store.Backs (command.deeds w) := by
  cases command with
  | make as host source map =>
    refine (Losing.of_found fun source => ?_).backs _
    cases host with
    | shared binder => exact .of_found fun n => .of_found fun map => losing_assignDeeds _ _ _
    | fresh tree config =>
      exact .of_found fun scope => .of_found fun config => .of_found fun map =>
        (Losing.act rfl).append (losing_assignDeeds _ _ _)
  | mount view => exact backs_found fun v => backs_attachDeeds _ _ _ _ _
  | unmount view => exact (Losing.of_found fun v => losing_unmountDeeds _ v).backs _
  | render view => exact backs_found fun v => backs_renderBindingsDeeds hw _ none
  | handle as view => exact (Losing.of_found fun v => losing_assignDeeds _ _ _).backs _
  | _ => exact Losing.nil.backs _

/-- **A command** renders what binders hold. -/
theorem Session.backed {s : Session} (hs : s.workspace.store.Registered) (c : Command) :
    s.workspace.store.Backs (s.deeds c) := by
  cases c with
  | act action =>
    cases action with
    | tree command => exact command.losing.backs _
    | record command => exact command.losing.backs _
    | collection command => exact command.losing.backs _
    | binder command => exact command.backed hs
    | view command => exact command.backed hs
    | name command => exact command.losing.backs _
  | listen site as tag script limit =>
    exact (Losing.of_found fun found => losing_assignDeeds _ _ _).backs _

/-! ## Runs -/

namespace Machine

variable {m m' : Machine}

/-- **A turn** renders what binders hold. -/
theorem backed_turn (hm : m.store.Registered) (t : Turn) : m.store.Backs (m.turnDeeds t) := by
  cases t with
  | step =>
    show m.store.Backs m.stepDeeds
    unfold stepDeeds
    split
    · exact m.session.backed hm _
    · exact backs_reactDeeds hm _ _
    · next handler _ _ _ _ =>
      cases handler with
      | callback n => exact Losing.nil.backs _
      | writeBack context => exact (losing_writeDeeds _ _).backs _
    · exact Losing.nil.backs _
  | command c => exact Session.backed hm c
  | ask cs => exact Losing.nil.backs _
  | read => exact Losing.backs (fun n a hmem => by simp [turnDeeds] at hmem) _

/-- What a binder holds is what its acts leave of what it held. -/
theorem held_of_turn (hm : m.Sound) (hr : m.store.Registered) {t : Turn} (h : m.turn? t = some m') (n : Nat) :
    m'.store.Registered ∧ m'.store.held n = heldAfter (m.store.held n) (actsOf n (m.turnDeeds t)) := by
  obtain ⟨hregistered, hyields⟩ := (does_turn hm h).effects.registered hm.scene hr
  exact ⟨hregistered, funext fun id => hyields n id⟩

/-- **A run** renders what binders hold, at the moment at which they render it. -/
theorem backed_walk (hm : m.Sound) (hr : m.store.Registered) {turns : List Turn} (h : m.walk? turns = some m') :
    m.store.Backs (m.deeds turns) := by
  intro n
  induction turns generalizing m with
  | nil => trivial
  | cons t rest ih =>
    obtain ⟨next, hturn, h⟩ := walk?_cons h
    obtain ⟨hregistered, hheld⟩ := held_of_turn hm hr hturn n
    have hrest : Backed (next.store.held n) (actsOf n (next.deeds rest)) :=
      ih ((does_turn hm hturn).sound hm) hregistered h
    simp only [deeds, hturn, Option.elim_some, actsOf_append]
    refine backed_append.mpr ⟨backed_turn hr t n, ?_⟩
    rw [← hheld]
    exact hrest

variable {n : Nat} {id : RecordId} {key : BindingKey} {history turns : List Turn}

/-- **A binder holds nothing under a key of a record exactly if the key was never bound, or the binding was removed
after it was bound last.** -/
theorem find?_eq_none_iff (h : initial.walk? history = some m) :
    (m.store.binder n).registry.find? id key = none ↔
      Gone id key (actsOf n (initial.deeds history)) ∨
        ∀ p, Act.bound p ∈ actsOf n (initial.deeds history) → ¬(p.record = id ∧ p.key = key) := by
  have hheld := (registered_of_walk h).2 n id
  rw [← not_standing_iff]
  constructor
  · intro hnone p hp hkey
    have hmem : Prepared.binding p none ∈ ((m.store.binder n).registry.bindingsOf id).map Binding.unguarded :=
      hheld ▸ List.mem_map_of_mem hp
    obtain ⟨b, hb, heq⟩ := List.mem_map.mp hmem
    have hsame : b.key = p.key := congrArg Binding.key heq
    exact absurd (hsame.trans hkey) (by simpa using List.find?_eq_none.mp hnone b hb)
  · intro hnone
    apply List.find?_eq_none.mpr
    intro b hb
    have hmem : b.unguarded ∈ (standing id (actsOf n (initial.deeds history))).map (Prepared.binding · none) :=
      hheld ▸ List.mem_map_of_mem hb
    obtain ⟨p, hp, heq⟩ := List.mem_map.mp hmem
    have hsame : p.key = b.key := congrArg Binding.key heq
    simpa [hsame] using hnone p hp

/-- What a binder does not hold it binds before it renders it. -/
theorem bound_of_rendered (hm : m.Sound) (hr : m.store.Registered) (h : m.walk? turns = some m')
    (hnone : (m.store.binder n).registry.find? id key = none) {before after : List Act} {b : Binding}
    {fields : Fields} (hacts : actsOf n (m.deeds turns) = before ++ .rendered b fields :: after)
    (hrecord : b.record = id) (hkey : b.key = key) :
    ∃ p, Act.bound p ∈ before ∧ p.record = id ∧ p.key = key := by
  subst hrecord hkey
  have hbacked := backed_walk hm hr h n
  rw [hacts] at hbacked
  apply hbacked.bound_of_rendered
  intro b' hb'
  obtain ⟨x, hx, rfl⟩ := List.mem_map.mp hb'
  have hkey : ¬x.key = b.key := by simpa using List.find?_eq_none.mp hnone x hx
  exact hkey

/-- **What was removed is not rendered until its key is bound again.** A run has removed the binding of a record under
a key from a binder and has not bound the key again; what goes on is whatever was in progress, and anything that the
host and the callbacks do. The binder holds nothing under the key, and whatever it renders under it was bound before
in what goes on. Every rendering that the journal tells of is one of these deeds. -/
theorem rendered_after_removal (hhistory : initial.walk? history = some m)
    (hgone : Gone id key (actsOf n (initial.deeds history))) (hwalk : m.walk? turns = some m') :
    (m.store.binder n).registry.find? id key = none ∧
    (∀ before b fields after, actsOf n (m.deeds turns) = before ++ .rendered b fields :: after →
      b.record = id → b.key = key → ∃ p, Act.bound p ∈ before ∧ p.record = id ∧ p.key = key) ∧
    (Deed.read ∉ m.deeds turns → m.store.Tells (m.deeds turns) m'.store) := by
  have hm : m.Reached := ⟨history, hhistory⟩
  have hnone := (find?_eq_none_iff hhistory).mpr (.inl hgone)
  refine ⟨hnone, ?_, fun hread => ?_⟩
  · intro before b fields after hacts hrecord hkey
    exact bound_of_rendered hm.sound hm.registered hwalk hnone hacts hrecord hkey
  · exact (walk_does hm.sound hwalk).effects.tells hm.sound.scene hread

/-- A callback hears of a change before the binder does, and unbinds. -/
def unboundMidway : List Turn :=
  [.command (.act (.tree (.make "tree" (.node (.ofTag "root") [])))), .step,
    .command (.act (.record (.make "record" [("a", .null)]))), .step,
    .command (.act (.binder (.make "binder" "tree" (.given none none none)))), .step,
    .command (.listen (.changes "record") "guard" "A"
      [.act (.binder (.unbind "binder" (.named "record") ⟨"", ""⟩))] 1), .step,
    .command (.act (.binder (.bind "binder" "record" (.field "a") ⟨"", ""⟩ .off false))), .step,
    .command (.act (.record (.write "record" [("a", .bool true)]))), .step, .step]

/-- The rest of that change, and then the same binding anew, which is rendered at once. -/
def boundAnew : List Turn :=
  [.step, .step, .step, .step, .step,
    .command (.act (.binder (.bind "binder" "record" (.field "a") ⟨"", ""⟩ .off true))), .step]

/-- The binder is still to hear of the change when it is unbound, and renders only what it binds afterwards. -/
theorem rendered_after_removal_midway :
    ∃ m m', initial.walk? unboundMidway = some m ∧ m.walk? boundAnew = some m' ∧
      (m.stack.any fun f => f.call? = some (.changes ⟨1⟩, [0, 1])) = true ∧
      (renderingsOf (m.deeds boundAnew)).map (fun x => (x.1.record, x.1.key)) = [(⟨1⟩, ⟨"", ""⟩)] ∧
      (m.store.binder 0).registry.find? ⟨1⟩ ⟨"", ""⟩ = none ∧ m.store.Tells (m.deeds boundAnew) m'.store ∧
      ∀ before b fields after, actsOf 0 (m.deeds boundAnew) = before ++ .rendered b fields :: after →
        b.record = ⟨1⟩ → b.key = ⟨"", ""⟩ → ∃ p, Act.bound p ∈ before ∧ p.record = ⟨1⟩ ∧ p.key = ⟨"", ""⟩ := by
  have hrun : (initial.walk? unboundMidway).map (fun m => ((m.walk? boundAnew).isSome,
      m.stack.any fun f => f.call? = some (.changes ⟨1⟩, [0, 1]),
      (renderingsOf (m.deeds boundAnew)).map fun x => (x.1.record, x.1.key),
      (m.deeds boundAnew).any fun d => d matches .read)) =
        some (true, true, [(⟨1⟩, ⟨"", ""⟩)], false) := by rfl
  have hgone : Gone ⟨1⟩ ⟨"", ""⟩ (actsOf 0 (initial.deeds unboundMidway)) :=
    ⟨(actsOf 0 (initial.deeds unboundMidway)).dropLast, .removed ⟨1⟩ ⟨"", ""⟩, [], by rfl, rfl, by simp⟩
  obtain ⟨m, hwalk, heq⟩ := Option.map_eq_some_iff.mp hrun
  simp only [Prod.mk.injEq] at heq
  obtain ⟨hgoes, hmidway, hrendered, hread⟩ := heq
  obtain ⟨m', hwalk'⟩ := Option.isSome_iff_exists.mp hgoes
  have hunread : Deed.read ∉ m.deeds boundAnew := fun hmem => by
    rw [List.any_eq_false] at hread
    exact hread _ hmem rfl
  obtain ⟨hnone, hbound, htells⟩ := rendered_after_removal hwalk hgone hwalk'
  exact ⟨m, m', hwalk, hwalk', hmidway, hrendered, hnone, htells hunread, hbound⟩

end Machine

end Databind
