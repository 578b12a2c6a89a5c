import Databind.Proofs.CollectionListening

/-!
# `Proofs.Membership` — what a change of a collection's members does to a binder

A binder that is attached to a collection hears that a member was removed, and that all members were replaced. It then
drops the bindings of that member's record, or everything and its listeners on the collection as well. Additions,
reorderings and the removal of what is no member are told to nobody. A binder that has left the collection hears of no
change that comes later, until it is attached to the collection again.

## Main definitions

* `Change`, `Change.leaves` — changes of the members, and what they leave of a binder that is attached.
* `Machine.Alters` — a change is carried out.
* `Machine.Heeds`, `Machine.Forgets` — what an attached binder makes of a change, and what one that has left does.
-/

namespace Databind

open Store

/-- A change of the members of a collection. -/
inductive Change where
  | added (id : RecordId)
  | removed (id : RecordId)
  | reset (members : List RecordId)
  | reordered (order : List Nat)

namespace Change

/-- **A command asks for a change** of a collection. -/
inductive Asked (w : Workspace) (c : Nat) : Change → CollectionCommand → Prop
  | added {collection record : String} {id : RecordId} (hc : w.collection? collection = .ok c)
    (hid : w.record? record = .ok id) : Asked w c (.added id) (.add collection record)
  | removed {collection : String} {member : RecordRef} {id : RecordId} (hc : w.collection? collection = .ok c)
    (hid : w.recordRef? member = .ok id) : Asked w c (.removed id) (.remove collection member)
  | reset {collection : String} {names : List String} {members : List RecordId} (hc : w.collection? collection = .ok c)
    (hmembers : w.records? names = .ok members) : Asked w c (.reset members) (.reset collection names)
  | reordered {collection : String} {order : List Nat} (hc : w.collection? collection = .ok c) :
    Asked w c (.reordered order) (.reorder collection order)

/-- On which channel a change is told, and how; it is told to nobody if nothing was removed. -/
def told (c : Nat) (members : List RecordId) : Change → Option (Channel × Signal)
  | removed id => if id ∈ members then some (.removals c, .removed id) else none
  | reset _ => some (.resets c, .reset)
  | added _ | reordered _ => none

/-- Whether a change takes the bindings of a record. -/
def Takes (members : List RecordId) (id : RecordId) : Change → Prop
  | removed id' => id = id' ∧ id ∈ members
  | reset _ => True
  | added _ | reordered _ => False

/-- Whether a change ends the listeners on a channel. -/
def Silences (members : List RecordId) (change : Change) : Channel → Prop
  | .changes id | .requests id => change.Takes members id
  | _ => ∃ members', change = .reset members'

/-- **What a change leaves of a binder** that is attached to the collection. -/
def leaves (members : List RecordId) (b : Binder) : Change → Binder
  | removed id => if id ∈ members then { b with registry := b.registry.filter (·.record ≠ id) } else b
  | reset _ => { b with registry := [], collectionGuards := [] }
  | added _ | reordered _ => b

/-- What a binder that is attached to the collection does. -/
def acts (n : Nat) (members : List RecordId) : Change → List Act
  | removed id => if id ∈ members then [.heard (.dropMember n) (.removed id), .cleared (some id)] else []
  | reset _ => [.heard (.dropAll n) .reset, .cleared none, .left]
  | added _ | reordered _ => []

instance (members : List RecordId) (id : RecordId) : (change : Change) → Decidable (change.Takes members id)
  | removed id' => inferInstanceAs (Decidable (id = id' ∧ id ∈ members))
  | reset _ => inferInstanceAs (Decidable True)
  | added _ | reordered _ => inferInstanceAs (Decidable False)

instance (change : Change) : Decidable (∃ members, change = .reset members) :=
  match change with
  | reset members => .isTrue ⟨members, rfl⟩
  | added _ | removed _ | reordered _ => .isFalse nofun

instance (members : List RecordId) (change : Change) : (ch : Channel) → Decidable (change.Silences members ch)
  | .changes id | .requests id => inferInstanceAs (Decidable (change.Takes members id))
  | .removals _ | .resets _ | .delegations _ | .list _ =>
    inferInstanceAs (Decidable (∃ members', change = .reset members'))

variable {s : Store} {w : Workspace} {n c : Nat} {members : List RecordId} {change : Change} {ch : Channel} {signal : Signal}

theorem bindingsOf_leaves (members : List RecordId) (b : Binder) (change : Change) (id : RecordId) :
    (change.leaves members b).registry.bindingsOf id = if change.Takes members id then [] else b.registry.bindingsOf id := by
  cases change with
  | removed id' =>
    by_cases hmember : id' ∈ members
    · have hfilter := Registry.bindingsOf_filter (fun x => decide (x ≠ id')) b.registry id
      simp only [leaves, if_pos hmember]
      rw [hfilter]
      by_cases hid : id = id'
      · subst hid
        simp [Takes, hmember]
      · simp [Takes, hid]
    · have hnot : ¬(id = id' ∧ id ∈ members) := by
        rintro ⟨rfl, hid⟩
        exact hmember hid
      simp [leaves, Takes, hmember, hnot]
  | reset members' => rfl
  | _ => exact (if_neg not_false).symm

/-- Whom a binder has listening after a change. -/
theorem hearers_leaves (members : List RecordId) (b : Binder) (change : Change) (ch : Channel) :
    (change.leaves members b).hearers n ch = if change.Silences members ch then [] else b.hearers n ch := by
  cases ch with
  | changes id | requests id =>
    simp only [Binder.hearers, bindingsOf_leaves, Silences]
    by_cases htakes : change.Takes members id <;> simp [htakes]
  | removals c | resets c =>
    cases change with
    | removed id =>
      simp only [leaves]
      split <;> simp [Silences, Binder.hearers, Binder.channels]
    | _ => simp [leaves, Silences, Binder.hearers, Binder.channels]
  | delegations k | list k => simp [Binder.hearers]

/-- Whoever changes only the members leaves the listeners. -/
theorem listeners_modifyCollection (s : Store) (c : Nat) {f : Collection → Collection}
    (hf : ∀ x, (f x).removals = x.removals ∧ (f x).resets = x.resets) (ch : Channel) :
    (s.modifyCollection c f).listeners ch = s.listeners ch := by
  cases ch with
  | removals k =>
    simp only [listeners, collection_modifyCollection]
    split
    · next h => rw [(hf _).1, h.1]
    · rfl
  | resets k =>
    simp only [listeners, collection_modifyCollection]
    split
    · next h => rw [(hf _).2, h.1]
    · rfl
  | _ => rfl

/-- **What the commands leave to do**: those who listen on the channel are told, and the command is answered. -/
theorem Asked.tasks {command : CollectionCommand} (h : change.Asked w c command) :
    ∃ outcome, (command.perform w).2 = ((change.told c (w.store.collection c).members).map fun t =>
      Task.notify t.1 ((w.store.listeners t.1).live.map (·.id)) t.2
        ((w.store.listeners t.1).live.map (·.listener))).toList ++ [.reply outcome] := by
  cases h with
  | @added collection record id hc hid =>
    refine ⟨.done, ?_⟩
    simp only [CollectionCommand.perform, Workspace.withFound, hc, hid]
    rfl
  | @removed collection member id hc hid =>
    by_cases hmember : id ∈ (w.store.collection c).members
    · refine ⟨.record id, ?_⟩
      simp only [CollectionCommand.perform, Workspace.withFound, hc, hid, removeMember, told, if_pos hmember]
      -- the call list is drawn up when the member is gone, from the listeners that were there before
      have hlisteners := listeners_modifyCollection w.store c
        (f := fun x => { x with members := x.members.erase id }) (fun _ => ⟨rfl, rfl⟩) (.removals c)
      simp only [Option.map_some, ← hlisteners]
      rfl
    · refine ⟨.noRecord, ?_⟩
      simp only [CollectionCommand.perform, Workspace.withFound, hc, hid, removeMember, told, if_neg hmember]
      rfl
  | @reset collection names members hc hmembers =>
    refine ⟨.done, ?_⟩
    simp only [CollectionCommand.perform, Workspace.withFound, hc, hmembers, resetMembers, told]
    have hlisteners := listeners_modifyCollection w.store c
      (f := fun x => { x with members }) (fun _ => ⟨rfl, rfl⟩) (.resets c)
    simp only [Option.map_some, ← hlisteners]
    rfl
  | @reordered collection order hc =>
    refine ⟨.done, ?_⟩
    simp only [CollectionCommand.perform, Workspace.withFound, hc]
    rfl

theorem channel_of_told (h : change.told c members = some (ch, signal)) : ch = .removals c ∨ ch = .resets c := by
  cases change with
  | removed id =>
    simp only [told] at h
    split at h
    · exact .inl (Prod.mk.inj (Option.some.inj h)).1.symm
    · cases h
  | reset members' => exact .inr (Prod.mk.inj (Option.some.inj h)).1.symm
  | _ => cases h

/-- They do nothing to binders. -/
theorem Asked.deeds {command : CollectionCommand} (h : change.Asked w c command) : command.deeds w = [] := by
  cases h <;> rfl

/-- **What a binder that hears of a change does.** -/
theorem react_told (htold : change.told c members = some (ch, signal)) (hlive : (s.binder n).retired = false) :
    (Session.react s (Binder.collectionListener n ch) signal).binder n = change.leaves members (s.binder n) ∧
      actsOf n (s.reactDeeds (Binder.collectionListener n ch) signal) = change.acts n members := by
  have hn := s.lt_of_not_retired hlive
  cases change with
  | removed id =>
    simp only [told] at htold
    split at htold
    · next hmember =>
      obtain ⟨rfl, rfl⟩ := Prod.mk.inj (Option.some.inj htold)
      refine ⟨?_, ?_⟩
      · have hreact : Session.react s (.dropMember n) (.removed id) = (s.log (.memberRemoved id)).unbindAll n (some id) := by
          simp only [Session.react, hlive, Bool.false_eq_true, if_false]
        show (Session.react s (.dropMember n) (.removed id)).binder n = _
        rw [hreact, binder_unbindAll (s := s.log (.memberRemoved id)) hn, binder_log, leaves, if_pos hmember]
        simp
      · simp only [Binder.collectionListener, reactDeeds, hlive, Bool.false_eq_true, if_false, acts, if_pos hmember]
        simp [actsOf]
    · cases htold
  | reset members' =>
    obtain ⟨rfl, rfl⟩ := Prod.mk.inj (Option.some.inj htold)
    refine ⟨?_, ?_⟩
    · have hreact : Session.react s (.dropAll n) .reset = (s.log .detachingBindings).detach n := by
        simp only [Session.react, hlive, Bool.false_eq_true, if_false]
      show (Session.react s (.dropAll n) .reset).binder n = _
      rw [hreact]
      exact binder_detach (s := s.log .detachingBindings) hlive
    · simp only [Binder.collectionListener, reactDeeds, hlive, Bool.false_eq_true, if_false, acts]
      simp [actsOf, detachDeeds]
  | _ => cases htold

/-- A binder makes nothing of a change that is told to nobody. -/
theorem idle_of_told (htold : change.told c members = none) (b : Binder) (n : Nat) :
    change.leaves members b = b ∧ change.acts n members = [] := by
  cases change with
  | removed id =>
    simp only [told] at htold
    split at htold
    · cases htold
    · next hmember => exact ⟨if_neg hmember, if_neg hmember⟩
  | reset members' => cases htold
  | _ => exact ⟨rfl, rfl⟩

end Change

namespace Machine

variable {m m' m₀ m₁ : Machine} {base : List Frame} {turns : List Turn} {n c : Nat} {b b' : Binder} {ch : Channel}
  {signal : Signal} {change : Change}

/-! ## Carrying out a command -/

/-- **A command is carried out**: the machine after it, and what is left to do below its tasks. -/
inductive Performs (m : Machine) (command : Command) : Machine → List Frame → Prop
  /-- The host gives the command. -/
  | host (hidle : m.stack = []) : Performs m command (.start m.session command) []
  /-- The command stands in a script. -/
  | script {cs : List Command} {rest : List Frame} {m' : Machine} (hstack : m.stack = .script (command :: cs) :: rest)
    (hstep : m.step? = some m') : Performs m command m' (.script cs :: rest)

/-- **A change of the members of a collection** is carried out. -/
def Alters (m : Machine) (c : Nat) (change : Change) (m₀ : Machine) (base : List Frame) : Prop :=
  ∃ command, change.Asked m.session.workspace c command ∧ m.Performs (.act (.collection command)) m₀ base

namespace Performs

variable {command : Command}

theorem stack (h : m.Performs command m₀ base) : m₀.stack = (m.session.perform command).2.map .task ++ base := by
  cases h with
  | host hidle => simp only [start, List.append_nil]
  | script hstack hstep =>
    simp only [step?, hstack, Option.some.injEq] at hstep
    subst hstep
    rfl

theorem turn (h : m.Performs command m₀ base) :
    ∃ t, m.turn? t = some m₀ ∧ m.turnDeeds t = m.session.deeds command := by
  cases h with
  | host hidle => exact ⟨.command command, by simp only [turn?, hidle, List.isEmpty_nil, if_true], rfl⟩
  | script hstack hstep => exact ⟨.step, hstep, by simp only [turnDeeds, stepDeeds, hstack]⟩

theorem does (h : m.Performs command m₀ base) (hm : m.Sound) : m.Does (m.session.deeds command) m₀ := by
  obtain ⟨t, hturn, hdeeds⟩ := h.turn
  exact hdeeds ▸ does_turn hm hturn

theorem reached (h : m.Performs command m₀ base) (hm : m.Reached) : m₀.Reached := by
  obtain ⟨t, hturn, -⟩ := h.turn
  have hwalk : m.walk? [t] = some m₀ := by simp only [walk?, hturn, Option.bind_some]
  exact hm.walk hwalk

/-- What is left to do below a command stood below it before. -/
theorem mem_base (h : m.Performs command m₀ base) {task : Task} (hmem : Frame.task task ∈ base) : .task task ∈ m.stack := by
  cases h with
  | host => cases hmem
  | script hstack =>
    rcases List.mem_cons.mp hmem with heq | hmem
    · cases heq
    · exact hstack ▸ List.mem_cons_of_mem _ hmem

/-- A command that is answered at once begins no notification. -/
theorem silent (h : m.Performs command m₀ base) (hsilent : m.Silent) {outcome : Outcome}
    (htasks : (m.session.perform command).2 = [.reply outcome]) : m₀.Silent := by
  intro channel pinned signal waiting hmem
  rw [h.stack, htasks] at hmem
  rcases List.mem_cons.mp hmem with heq | hmem
  · cases heq
  · exact hsilent channel pinned signal waiting (h.mem_base hmem)

end Performs

/-! ## From the beginning of a notification to the answer -/

/-- An answer does nothing to binders. -/
theorem rests_of_reply {outcome : Outcome} (h : Rests n b m []) (hstack : m.stack = .task (.reply outcome) :: base)
    (hreturns : m.Returns base turns m') : actsOf n (m.deeds turns) = [] ∧ Rests n b m' [] := by
  cases hreturns with
  | done hdone =>
    have hlength := congrArg List.length (hdone.symm.trans hstack)
    simp at hlength
  | @turn _ m₁ _ t rest _ _ _ hturn hrest =>
    obtain ⟨rfl, hm₁⟩ := step_of_task hstack hturn
    have hstack₁ : m₁.stack = base := by
      rw [hm₁]
      cases base <;> rfl
    obtain ⟨rfl, rfl⟩ := hrest.of_stack hstack₁
    have hnone : m.turnDeeds .step = [] := by simp only [turnDeeds, stepDeeds, hstack]
    have hdoes := does_turn h.sound hturn
    rw [hnone] at hdoes
    refine ⟨?_, h.of_does hdoes rfl []⟩
    simp only [deeds, hturn, Option.elim_some, hnone]
    rfl

section

variable {pinned : List Nat} {waiting : List Listener} {outcome : Outcome}

/-- **A change that the binder is not told of** does nothing to it. -/
theorem rests_of_untold (h : Rests n b m [])
    (hstack : m.stack = .task (.notify ch pinned signal waiting) :: .task (.reply outcome) :: base)
    (hwaiting : ∀ l ∈ waiting, l.binder? ≠ some n) (hreturns : m.Returns base turns m')
    (hund : m.Undisturbed n base turns) : actsOf n (m.deeds turns) = [] ∧ Rests n b m' [] := by
  have hsplit : m.stack = [.task (.notify ch pinned signal waiting)] ++ ([.task (.reply outcome)] ++ base) := hstack
  obtain ⟨before, behind, m₁, rfl, hbefore, hbehind⟩ := hreturns.split hsplit
  obtain ⟨hund, -⟩ := hund.append hbefore.walk
  obtain ⟨hnone, h₁⟩ := quiet_of_notification (endures_rests n b) ⟨[_], rfl⟩ hwaiting h (.inl rfl) hstack hbefore hund
  obtain ⟨hnone', h'⟩ := rests_of_reply h₁ hbefore.stack hbehind
  refine ⟨?_, h'⟩
  rw [deeds_append hbefore.walk, actsOf_append, hnone, hnone', List.append_nil]

/-- **A change that one listener of the binder is told of**: the binder does what that listener does. -/
theorem rests_of_told {l : Listener} {acts : List Act} (h : Rests n b m [])
    (hstack : m.stack = .task (.notify ch pinned signal waiting) :: .task (.reply outcome) :: base)
    (hwaiting : waiting.filter (·.binder? = some n) = [l])
    (hreact : ∀ s : Store, s.binder n = b →
      (Session.react s l signal).binder n = b' ∧ actsOf n (s.reactDeeds l signal) = acts)
    (hreturns : m.Returns base turns m') (hund : m.Undisturbed n base turns) :
    actsOf n (m.deeds turns) = acts ∧ Rests n b' m' [] := by
  have hsplit : m.stack = [.task (.notify ch pinned signal waiting)] ++ ([.task (.reply outcome)] ++ base) := hstack
  obtain ⟨before, behind, m₁, rfl, hbefore, hbehind⟩ := hreturns.split hsplit
  obtain ⟨hund, -⟩ := hund.append hbefore.walk
  -- the binder's listener is called at one turn; before that turn the binder is as it was, and after it as it is then
  obtain ⟨front, back, rfl, hfront, hl, hback⟩ := List.filter_eq_cons_iff.mp hwaiting
  obtain ⟨earlier, later, m₂, m₃, rfl, hwalk, hturn, -, -, hdeeds, hnone, hnone', h₂, h₁⟩ :=
    heard_of_notification (endures_rests n b) (endures_rests n b') (of_decide_eq_true hl)
      (fun h₂ hdoes hstore => ⟨hdoes.sound h₂.sound, hstore ▸ (hreact _ h₂.binder).1⟩) ⟨[_], rfl⟩
      (fun l' hl' => by simpa using hfront l' hl') (fun l' hl' => by simpa using List.filter_eq_nil_iff.mp hback l' hl')
      h (.inl rfl) hstack hbefore hund
  obtain ⟨hreplied, h'⟩ := rests_of_reply h₁ hbefore.stack hbehind
  refine ⟨?_, h'⟩
  rw [deeds_append hbefore.walk, actsOf_append, hreplied, List.append_nil, deeds_append hwalk, actsOf_append, hnone]
  simp only [deeds, hturn, Option.elim_some, actsOf_append, hdeeds, (hreact _ h₂.binder).2, hnone', List.nil_append,
    List.append_nil]

end

/-! ## A binder that is not told -/

/-- **A change begins**: nothing is done to binders yet, and those who listen are about to be told. -/
theorem Alters.begins (h : m.Alters c change m₀ base) (hm : m.Sound) :
    m.Does [] m₀ ∧ ∃ outcome, m₀.stack = ((change.told c (m.store.collection c).members).map fun t =>
      Frame.task (.notify t.1 ((m.store.listeners t.1).live.map (·.id)) t.2
        ((m.store.listeners t.1).live.map (·.listener)))).toList ++ .task (.reply outcome) :: base := by
  obtain ⟨command, hasked, hperforms⟩ := h
  have hdoes := hperforms.does hm
  have hdeeds : m.session.deeds (.act (.collection command)) = [] := hasked.deeds
  obtain ⟨outcome, htasks⟩ := hasked.tasks
  replace htasks : (m.session.perform (.act (.collection command))).2 = _ := htasks
  refine ⟨hdeeds ▸ hdoes, outcome, ?_⟩
  rw [hperforms.stack, htasks, List.map_append, List.append_assoc]
  show _ = ((change.told c (m.session.workspace.store.collection c).members).map _).toList ++ _
  cases change.told c (m.session.workspace.store.collection c).members <;> rfl

/-- A change returns. -/
theorem Alters.returns (h : m.Alters c change m₀ base) (hm : m.Sound) : ∃ turns m', m₀.Returns base turns m' := by
  obtain ⟨-, outcome, hstack⟩ := h.begins hm
  rw [← List.singleton_append, ← List.append_assoc] at hstack
  exact exists_returns m₀ hstack

/-- A change that has returned leaves no notification behind. -/
theorem Alters.ends (h : m.Alters c change m₀ base) (hm : m.Reached) (hsilent : m.Silent)
    (hreturns : m₀.Returns base turns m') : m'.Reached ∧ m'.Silent := by
  obtain ⟨command, -, hperforms⟩ := h
  refine ⟨(hperforms.reached hm).walk hreturns.walk, fun channel pinned signal waiting hmem => ?_⟩
  exact hsilent channel pinned signal waiting (hperforms.mem_base (hreturns.stack ▸ hmem))

/-- **A binder without a live listener on the collection** is not affected by a change. -/
theorem Alters.unheeded (h : m.Alters c change m₀ base) (hm : m.Sound)
    (hdeaf : ∀ ch, ch = .removals c ∨ ch = .resets c → ∀ e ∈ (m.store.roster ch).live, e.listener.isOf n = false)
    (hreturns : m₀.Returns base turns m') (hund : m₀.Undisturbed n base turns) :
    actsOf n (m₀.deeds turns) = [] ∧ m'.store.binder n = m.store.binder n := by
  obtain ⟨hdoes, outcome, hstack⟩ := h.begins hm
  have hrested : Rests n (m.store.binder n) m [] := ⟨hm, rfl⟩
  have hrests : Rests n (m.store.binder n) m₀ [] := hrested.of_does hdoes rfl []
  cases htold : change.told c (m.store.collection c).members with
  | none =>
    rw [htold] at hstack
    obtain ⟨hnone, h'⟩ := rests_of_reply hrests hstack hreturns
    exact ⟨hnone, h'.binder⟩
  | some t =>
    obtain ⟨ch, signal⟩ := t
    rw [htold] at hstack
    have hch := Change.channel_of_told htold
    have hroster := m.store.roster_eq_listeners (Channel.tree?_of_collection hch)
    have hwaiting : ∀ l ∈ (m.store.listeners ch).live.map (·.listener), l.binder? ≠ some n := by
      intro l hl hown
      obtain ⟨e, he, rfl⟩ := List.mem_map.mp hl
      obtain ⟨hentry, hlive⟩ := List.mem_filter.mp he
      have hdeaf := hdeaf ch hch ⟨e.id, .listener e.listener, e.held, e.pins⟩ (by
        rw [hroster]
        exact List.mem_filter.mpr ⟨List.mem_map.mpr ⟨e, hentry, rfl⟩, hlive⟩)
      exact of_decide_eq_false hdeaf hown
    obtain ⟨hnone, h'⟩ := rests_of_untold hrests hstack hwaiting hreturns hund
    exact ⟨hnone, h'.binder⟩

/-- **A binder has forgotten a collection**: until it joins the collection again, no change of the members that comes
later does anything to it. -/
def Forgets (m : Machine) (n c : Nat) : Prop :=
  ∀ later m₁, m.walk? later = some m₁ → .joined c ∉ actsOf n (m.deeds later) →
    ∀ change m₂ base, m₁.Alters c change m₂ base →
      (∃ turns m₃, m₂.Returns base turns m₃) ∧
      ∀ turns m₃, m₂.Returns base turns m₃ → m₂.Undisturbed n base turns →
        actsOf n (m₂.deeds turns) = [] ∧ m₃.store.binder n = m₁.store.binder n

/-- **While no notification is in progress**, whoever keeps no guard on a collection has forgotten it. -/
theorem forgets_of_silent (hm : m.Sound) (hsilent : m.Silent)
    (hleft : ∀ ch, ch = .removals c ∨ ch = .resets c → ch ∉ (m.store.binder n).channels) : m.Forgets n c := by
  have hrid : ∀ ch, ch = .removals c ∨ ch = .resets c → m.scene.Rid n ch := by
    intro ch hch
    have hcalls := hsilent.calls_ne (Channel.tree?_of_collection hch)
    exact ⟨hleft ch hch, fun ids hcall => absurd rfl (hcalls _ hcall)⟩
  -- it stays rid of the two channels, so that nobody of it is live when the change begins
  intro later m₁ hwalk hjoined change m₂ base halters
  have hdoes := walk_does hm hwalk
  have hm₁ := hdoes.sound hm
  refine ⟨halters.returns hm₁, fun turns m₃ hreturns hund => halters.unheeded hm₁ (fun ch hch => ?_) hreturns hund⟩
  exact ((hrid ch hch).effects hm.scene hch hdoes.effects hjoined).not_live hm₁.scene hch

/-! ## A binder that is attached -/

/-- While no notification is in progress, a binder has those listening that it keeps guards for. -/
theorem listenersOf_of_silent (hm : m.Reached) (hsilent : m.Silent) (n : Nat) (ch : Channel) :
    (m.store.Open ch → m.store.listenersOf n ch = (m.store.binder n).hearers n ch) ∧
      (¬m.store.Open ch → m.store.listenersOf n ch = []) := by
  cases htree : ch.tree? with
  | none => exact listenersOf_of_calm hm.sound.scene.store_wired (hm.registered n) (hsilent.calm hm.sound htree)
  | some k =>
    cases ch with
    | delegations j => exact ⟨fun _ => m.store.listenersOf_tree n j, fun _ => m.store.listenersOf_tree n j⟩
    | _ => cases htree

/-- **What an attached binder makes of a change** of the members, from the beginning of the change to its end. -/
structure Heeds (m : Machine) (n c : Nat) (change : Change) (m₀ : Machine) (turns : List Turn) (m' : Machine) : Prop where
  binder : m'.store.binder n = change.leaves (m.store.collection c).members (m.store.binder n)
  bindings : ∀ id, (m'.store.binder n).registry.bindingsOf id =
    if change.Takes (m.store.collection c).members id then [] else (m.store.binder n).registry.bindingsOf id
  listeners : ∀ ch, (m'.store.Open ch ↔ m.store.Open ch) → m'.store.listenersOf n ch =
    if change.Silences (m.store.collection c).members ch then [] else m.store.listenersOf n ch
  acts : actsOf n (m₀.deeds turns) = change.acts n (m.store.collection c).members

/-- A binder that listens to a collection is not retired. -/
theorem Attached.live (h : m.Attached n c) (hm : m.Sound) : (m.store.binder n).retired = false := by
  cases hretired : (m.store.binder n).retired with
  | false => rfl
  | true =>
    have hnone : (m.store.binder n).collectionGuards = [] := ((hm.scene.store_wired.fit n).retired hretired).2
    simp [Attached, Binder.channels, hnone] at h

/-- **An attached binder is told once** of what is told on a channel of its collection. -/
theorem Attached.waiting (h : m.Attached n c) (hm : m.Reached) (hsilent : m.Silent)
    (hch : ch = .removals c ∨ ch = .resets c) :
    ((m.store.listeners ch).live.map (·.listener)).filter (·.binder? = some n) = [Binder.collectionListener n ch] := by
  have htree : ch.tree? = none := Channel.tree?_of_collection hch
  have hwired : m.store.Wired [] := hm.sound.scene.store_wired
  have hlisteners := listenersOf_collection (n := n) hwired (hsilent.calm hm.sound htree) hch
  rw [listenersOf_eq (m.store.roster_eq_listeners htree), h.channels hm] at hlisteners
  have hinj : Function.Injective Hearer.listener := fun _ _ h => Hearer.listener.inj h
  rw [List.filter_map]
  refine List.map_injective_iff.mpr hinj (hlisteners.trans ?_)
  rcases hch with rfl | rfl <;> simp

theorem heeds_of_alters (hm : m.Reached) (hsilent : m.Silent) (hattached : m.Attached n c)
    (halters : m.Alters c change m₀ base) (hreturns : m₀.Returns base turns m') (hund : m₀.Undisturbed n base turns) :
    m.Heeds n c change m₀ turns m' := by
  obtain ⟨hdoes, outcome, hstack⟩ := halters.begins hm.sound
  have hrested : Rests n (m.store.binder n) m [] := ⟨hm.sound, rfl⟩
  have hrests : Rests n (m.store.binder n) m₀ [] := hrested.of_does hdoes rfl []
  -- what is said of the binder and its acts is enough: nobody is being called when the change has returned
  suffices hsaid : actsOf n (m₀.deeds turns) = change.acts n (m.store.collection c).members ∧
      Rests n (change.leaves (m.store.collection c).members (m.store.binder n)) m' [] by
    obtain ⟨hacts, h'⟩ := hsaid
    obtain ⟨hm', hsilent'⟩ := halters.ends hm hsilent hreturns
    refine ⟨h'.binder, fun id => ?_, fun ch hopen => ?_, hacts⟩
    · rw [h'.binder, Change.bindingsOf_leaves]
    · obtain ⟨hheld, hnone⟩ := listenersOf_of_silent hm hsilent n ch
      obtain ⟨hheld', hnone'⟩ := listenersOf_of_silent hm' hsilent' n ch
      by_cases h : m.store.Open ch
      · rw [hheld' (hopen.mpr h), hheld h, h'.binder, Change.hearers_leaves]
      · rw [hnone' fun hopen' => h (hopen.mp hopen'), hnone h, ite_self]
  cases htold : change.told c (m.store.collection c).members with
  | none =>
    rw [htold] at hstack
    obtain ⟨hleaves, hacts⟩ := Change.idle_of_told htold (m.store.binder n) n
    obtain ⟨hquiet, h'⟩ := rests_of_reply hrests hstack hreturns
    exact ⟨hquiet.trans hacts.symm, hleaves.symm ▸ h'⟩
  | some t =>
    obtain ⟨ch, signal⟩ := t
    rw [htold] at hstack
    have hlive := hattached.live hm.sound
    refine rests_of_told hrests hstack (hattached.waiting hm hsilent (Change.channel_of_told htold)) (fun s hs => ?_)
      hreturns hund
    rw [← hs]
    exact Change.react_told htold (hs ▸ hlive)

/-! ## A binder that is attached, and one that leaves -/

/-- **Attaching a map** to something is leaving all collections first, and joining the one that is attached to last. -/
theorem acts_of_attach {s : Store} {source : Source} {map : BindingMap} {request : Option Bool} (hmap : map.isEmpty = false)
    (hsource : source ≠ .none) (hok : (s.attach n source map request).2 = none) :
    ∃ before, actsOf n (s.attachDeeds n source map request) = before ++ actsOf n (joinDeeds n source) ∧
      .left ∈ before ∧ ∀ c, .joined c ∉ before := by
  obtain ⟨ps, hps, -⟩ := checked_of_attach hmap hsource hok
  have hdeeds : s.attachDeeds n source map request =
      detachDeeds n ++ ps.flatMap (s.commitDeeds n) ++ joinDeeds n source := by
    simp [attachDeeds, hmap, hsource, hps]
  have hunjoined := (Unjoined.of_losing (losing_detachDeeds n)).append (s.unjoined_flatMap_commitDeeds n ps)
  refine ⟨_, by rw [hdeeds, actsOf_append], ?_, hunjoined.acts n⟩
  rw [actsOf_append]
  exact List.mem_append_left _ (by simp [detachDeeds, actsOf])

/-- Attaching a map to something else is no way to join a collection. -/
theorem left_of_attach {s : Store} {source : Source} {map : BindingMap} {request : Option Bool} (hmap : map.isEmpty = false)
    (hsource : source ≠ .none) (hok : (s.attach n source map request).2 = none) (hother : source ≠ .collection c) :
    .left ∈ actsOf n (s.attachDeeds n source map request) ∧ .joined c ∉ actsOf n (s.attachDeeds n source map request) := by
  obtain ⟨before, hacts, hleft, hunjoined⟩ := acts_of_attach hmap hsource hok
  rw [hacts, List.mem_append, List.mem_append, not_or]
  refine ⟨.inl hleft, hunjoined c, fun hmem => ?_⟩
  cases source with
  | collection c' =>
    have hsame : c = c' := by simpa [joinDeeds, actsOf] using hmem
    exact hother (hsame ▸ rfl)
  | _ => cases hmem

/-- **A binder that was attached to a collection** is attached to it as long as it neither leaves nor retires. -/
theorem attached_of_attach (hm : m.Sound) {binder : String} {ref : SourceRef} {request : BindingMap.Request}
    {autoRender : Option Bool} {map : BindingMap} (hbinder : m.session.workspace.binder? binder = .ok n)
    (href : m.session.workspace.source? ref = .ok (.collection c)) (hrequest : request.build = .ok map)
    (hmap : map.isEmpty = false) (hok : (m.store.attach n (.collection c) map autoRender).2 = none)
    (hperforms : m.Performs (.act (.binder (.attach binder ref request autoRender))) m₀ base) {later : List Turn}
    (hwalk : m₀.walk? later = some m₁) (hheld : ∀ a ∈ actsOf n (m₀.deeds later), a ≠ .left ∧ a ≠ .retired) :
    m₁.Attached n c := by
  have hdoes := hperforms.does hm
  refine Attached.walk (.inl ?_) (hdoes.sound hm) hwalk hheld
  obtain ⟨before, hacts, -⟩ := acts_of_attach hmap (by simp) hok
  have hdeeds : m.session.deeds (.act (.binder (.attach binder ref request autoRender))) =
      m.store.attachDeeds n (.collection c) map autoRender := by
    simp only [Session.deeds, Action.deeds, BinderCommand.deeds, hbinder, href, hrequest, Workspace.foundDeeds]
    rfl
  rw [show (m₀.store.binder n).channels = _ from hdoes.effects.channels hm.scene n, hdeeds, hacts, List.foldl_append]
  simp [joinDeeds, actsOf, Act.channels]

/-- **A command by which a binder leaves a collection**: it detaches, or is attached to something else, by itself or for a
view. To attach an empty map, or to attach to nothing, leaves everything as it is. -/
inductive Parts (m : Machine) (n c : Nat) : Command → Prop
  | detach {binder : String} (hbinder : m.session.workspace.binder? binder = .ok n) :
    Parts m n c (.act (.binder (.detach binder)))
  | attach {binder : String} {ref : SourceRef} {request : BindingMap.Request} {autoRender : Option Bool} {source : Source}
    {map : BindingMap} (hbinder : m.session.workspace.binder? binder = .ok n)
    (href : m.session.workspace.source? ref = .ok source) (hrequest : request.build = .ok map)
    (hother : source ≠ .collection c) (hsource : source ≠ .none) (hmap : map.isEmpty = false)
    (hok : (m.store.attach n source map autoRender).2 = none) :
    Parts m n c (.act (.binder (.attach binder ref request autoRender)))
  | mount {view : String} {v : Nat} (hview : m.session.workspace.view? view = .ok v) (hbinder : (m.store.view v).binder = n)
    (hother : (m.store.view v).source ≠ .collection c) (hmountable : m.store.Mountable v) :
    Parts m n c (.act (.view (.mount view)))

/-- **Whoever leaves a collection has forgotten it.** -/
theorem Parts.forgets {command : Command} (h : m.Parts n c command) (hm : m.Sound) (hsilent : m.Silent)
    (hperforms : m.Performs command m₀ base) : m₀.Forgets n c := by
  have hleaves : (.left ∈ actsOf n (m.session.deeds command) ∧ .joined c ∉ actsOf n (m.session.deeds command)) ∧
      ∃ outcome, (m.session.perform command).2 = [.reply outcome] := by
    cases h with
    | detach hbinder =>
      simp only [Session.deeds, Action.deeds, BinderCommand.deeds, hbinder, Workspace.foundDeeds, Session.perform,
        Action.perform, BinderCommand.perform, Workspace.withFound]
      exact ⟨by simp [detachDeeds, actsOf], _, rfl⟩
    | attach hbinder href hrequest hother hsource hmap hok =>
      simp only [Session.deeds, Action.deeds, BinderCommand.deeds, hbinder, href, hrequest, Workspace.foundDeeds,
        Session.perform, Action.perform, BinderCommand.perform, Workspace.withFound, Workspace.withBuilt]
      exact ⟨left_of_attach hmap hsource hok hother, _, rfl⟩
    | mount hview hbinder hother hmountable =>
      subst hbinder
      simp only [Session.deeds, Action.deeds, ViewCommand.deeds, hview, Workspace.foundDeeds, Session.perform,
        Action.perform, ViewCommand.perform, Workspace.withFound]
      exact ⟨left_of_attach hmountable.map hmountable.source (mount_of_mountable hmountable).1 hother, _, rfl⟩
  obtain ⟨⟨hleft, hjoined⟩, outcome, htasks⟩ := hleaves
  have hdoes := hperforms.does hm
  refine forgets_of_silent (hdoes.sound hm) (hperforms.silent hsilent htasks) fun ch hch => ?_
  rw [show (m₀.store.binder n).channels = _ from hdoes.effects.channels hm.scene n]
  exact Act.not_mem_foldl_of_left hch hleft hjoined _

/-- **The life of an attachment.** A binder is attached to a collection, and no notification is in progress. A change of
the members returns; if callbacks do nothing to the binder meanwhile, the binder makes of it what `Heeds` says: the removal
of a member takes exactly what is of that record, additions, reorderings and the removal of what is no member take nothing,
and a reset takes everything. After a reset, or as soon as the binder is detached or attached to something else, it has
forgotten the collection. -/
theorem heeds_of_attached (hm : m.Reached) (hsilent : m.Silent) (hattached : m.Attached n c) :
    (∀ change m₀ base, m.Alters c change m₀ base →
      (∃ turns m', m₀.Returns base turns m') ∧
      ∀ turns m', m₀.Returns base turns m' → m₀.Undisturbed n base turns →
        m.Heeds n c change m₀ turns m' ∧ ∀ members, change = .reset members → m'.Forgets n c) ∧
    ∀ command m₀ base, m.Parts n c command → m.Performs command m₀ base → m₀.Forgets n c := by
  refine ⟨fun change m₀ base halters => ⟨halters.returns hm.sound, fun turns m' hreturns hund => ?_⟩,
    fun command m₀ base hparts hperforms => hparts.forgets hm.sound hsilent hperforms⟩
  have hheeds := heeds_of_alters hm hsilent hattached halters hreturns hund
  refine ⟨hheeds, ?_⟩
  rintro members rfl
  obtain ⟨hm', hsilent'⟩ := halters.ends hm hsilent hreturns
  refine forgets_of_silent hm'.sound hsilent' fun ch _ => ?_
  rw [hheeds.binder]
  exact List.not_mem_nil

/-- A collection that lists one record twice and another once, and a binder that is not attached to it yet. -/
def gathered : List Turn :=
  [.command (.act (.tree (.make "tree" (.node (.ofTag "ul")
      [.node (.ofTag "li") [.node (.ofTag "a") []], .node (.ofTag "li") [.node (.ofTag "a") []]])))), .step,
    .command (.act (.record (.make "first" [("name", .string "one")]))), .step,
    .command (.act (.record (.make "second" [("name", .string "two")]))), .step,
    .command (.act (.record (.make "third" [("name", .string "three")]))), .step,
    .command (.act (.collection (.make "all" ["first", "second", "first"]))), .step,
    .command (.act (.binder (.make "binder" "tree" (.given none none none)))), .step]

/-- What is shown of each member. -/
def membersShown : BindingMap.Request := .entries [("li", .nested [("a", .property (.field "name"))])]

/-- The binder shows a third record as well. -/
def thirdBound : List Turn :=
  [.command (.act (.binder (.bind "binder" "third" (.field "name") ⟨"ul", "title"⟩ .off false))), .step]

/-- The binder is attached to the collection, and shows a third record as well. -/
def enrolled : List Turn :=
  gathered ++ .command (.act (.binder (.attach "binder" (.collection "all") membersShown none))) :: .step :: thirdBound

/-- It is still attached then: to bind a record is not to leave. -/
theorem attached_enrolled {m : Machine} (h : initial.walk? enrolled = some m) : m.Attached 0 0 := by
  have hnames : (initial.walk? gathered).map (fun m => ((m.session.workspace.binder? "binder").toOption,
      (m.session.workspace.source? (.collection "all")).toOption)) = some (some 0, some (.collection 0)) := by decide +kernel
  have hmap : (membersShown.build.toOption.bind fun map => (initial.walk? gathered).map fun m =>
      (map.isEmpty, (m.store.attach 0 (.collection 0) map none).2.isNone)) = some (false, true) := by decide +kernel
  have hacts : (initial.walk? gathered).map (fun m =>
      (actsOf 0 ((start m.session (.act (.binder (.attach "binder" (.collection "all") membersShown none)))).deeds
        (.step :: thirdBound))).all fun | .left | .retired => false | _ => true) = some true := by decide +kernel
  obtain ⟨g, hg, hrest⟩ := Option.bind_eq_some_iff.mp ((walk?_append initial gathered _).symm.trans h)
  obtain ⟨map, hbuild, hmap⟩ := Option.bind_eq_some_iff.mp hmap
  rw [hg, Option.map_some, Option.some.injEq] at hnames hmap hacts
  simp only [Prod.mk.injEq] at hnames hmap
  obtain ⟨hbinder, hsource⟩ := hnames
  obtain ⟨m₀, hturn, hlater⟩ := walk?_cons hrest
  cases turned_of_turn hturn with
  | began c hidle =>
    refine attached_of_attach (Reached.sound ⟨_, hg⟩) (ok_of_toOption hbinder) (ok_of_toOption hsource)
      (ok_of_toOption hbuild) hmap.1 (Option.isNone_iff_eq_none.mp hmap.2) (.host hidle) hlater fun a ha => ?_
    have hkept := List.all_eq_true.mp hacts a ha
    constructor
    · rintro rfl
      cases hkept
    · rintro rfl
      cases hkept

/-- The host changes the members of a collection. -/
def altered (m : Machine) (command : CollectionCommand) : Machine := .start m.session (.act (.collection command))

/-- The binder loses one member, and then keeps what it has of the other and of the third record; or it loses all. -/
theorem heeds_of_attached_enrolled :
    ∃ m turns m₁ m₂, initial.walk? enrolled = some m ∧ m.Attached 0 0 ∧
      (m.store.binder 0).registry.map (·.record) = [⟨1⟩, ⟨2⟩, ⟨3⟩] ∧
      (m.Heeds 0 0 (.removed ⟨1⟩) (m.altered (.remove "all" (.named "first"))) turns m₁ ∧
        (m₁.store.binder 0).registry.map (·.record) = [⟨2⟩, ⟨3⟩]) ∧
      (m.Heeds 0 0 (.reset []) (m.altered (.reset "all" [])) turns m₂ ∧ m₂.Forgets 0 0) ∧
      (start m.session (.act (.binder (.detach "binder")))).Forgets 0 0 := by
  have hnames : (initial.walk? enrolled).map (fun m =>
      ((m.session.workspace.collection? "all").toOption, (m.session.workspace.recordRef? (.named "first")).toOption,
        (m.session.workspace.binder? "binder").toOption)) = some (some 0, some ⟨1⟩, some 0) := by decide +kernel
  have hbefore : (initial.walk? enrolled).map (fun m => (m.stack.isEmpty, (m.store.binder 0).registry.map (·.record))) =
      some (true, [⟨1⟩, ⟨2⟩, ⟨3⟩]) := by decide +kernel
  have hafter : (initial.walk? enrolled).map (fun m =>
      ((m.altered (.remove "all" (.named "first"))).returnsQuietly 0 [.step, .step, .step],
        ((m.altered (.remove "all" (.named "first"))).walk? [.step, .step, .step]).map
          fun m' => (m'.store.binder 0).registry.map (·.record),
        (m.altered (.reset "all" [])).returnsQuietly 0 [.step, .step, .step])) =
      some (true, some [⟨2⟩, ⟨3⟩], true) := by decide +kernel
  obtain ⟨m, hwalk, hfacts⟩ := Option.map_eq_some_iff.mp hbefore
  rw [hwalk, Option.map_some, Option.some.injEq] at hnames hafter
  simp only [Prod.mk.injEq] at hnames hfacts hafter
  obtain ⟨hcollection, hrecord, hbinder⟩ := hnames
  obtain ⟨hempty, hrecords⟩ := hfacts
  obtain ⟨hremoves, hleft, hresets⟩ := hafter
  have hidle : m.stack = [] := List.isEmpty_iff.mp hempty
  have hattached : m.Attached 0 0 := attached_enrolled hwalk
  obtain ⟨hheeds, hforgets⟩ := heeds_of_attached ⟨_, hwalk⟩ (silent_of_idle hidle) hattached
  have hremoval : m.Alters 0 (.removed ⟨1⟩) (m.altered (.remove "all" (.named "first"))) [] :=
    ⟨_, .removed (ok_of_toOption hcollection) (ok_of_toOption hrecord), .host hidle⟩
  have hreset : m.Alters 0 (.reset []) (m.altered (.reset "all" [])) [] :=
    ⟨_, .reset (ok_of_toOption hcollection) rfl, .host hidle⟩
  obtain ⟨m₁, hreturns₁, hund₁⟩ := returns_of_returnsQuietly 0 (List.append_nil _).symm hremoves
  obtain ⟨m₂, hreturns₂, hund₂⟩ := returns_of_returnsQuietly 0 (List.append_nil _).symm hresets
  rw [hreturns₁.walk, Option.map_some, Option.some.injEq] at hleft
  have hheeds₁ := (hheeds _ _ _ hremoval).2 _ m₁ hreturns₁ hund₁
  have hheeds₂ := (hheeds _ _ _ hreset).2 _ m₂ hreturns₂ hund₂
  exact ⟨m, _, m₁, m₂, hwalk, hattached, hrecords, ⟨hheeds₁.1, hleft⟩, ⟨hheeds₂.1, hheeds₂.2 _ rfl⟩,
    hforgets _ _ _ (.detach (ok_of_toOption hbinder)) (.host hidle)⟩

end Machine

end Databind
