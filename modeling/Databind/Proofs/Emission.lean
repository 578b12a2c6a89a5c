import Databind.Proofs.Holding
import Databind.Proofs.Notification

/-!
# `Proofs.Emission` — whom an emission on a free list calls

Every turn of a run is a sequence of moves of the ledger of each free list (`Machine.turn_moves`), so in every
state of every run the ledger is sound, with the callbacks signed as the history signed them.

An emission draws up its call list when it begins and calls it from front to back, whatever the callbacks do
meanwhile. `Machine.called` is what it calls in a run; the listeners that nested emissions call are not among them.
The result is `Machine.called_of_emits`: an emission calls exactly the callbacks that are signed when it begins and
whose subscription is held **or** is on the call list of an emission that is still running, in order of
subscription. While none is running, that is exactly those that are held.

A guard that a callback drops therefore takes effect only when the outermost emission that has its callback on its
call list is over: until then nested emissions go on calling it (`Machine.called_of_dropped_guard`).

## Main definitions

* `Machine.signed` — the callbacks that a history signs on a list.
* `Machine.Emits` — an emission begins, on behalf of the host or of a script.
* `Machine.called` — what it calls.
-/

namespace Databind

open Store

namespace Machine

variable {m m' m'' : Machine} {n : Nat} {base : List Frame} {turns : List Turn} {before : List (Nat × Nat)}

/-! ## The ledger of a list along a run -/

/-- What a turn does to the callbacks that are signed on a list. -/
def signs (m : Machine) (n : Nat) (signed : List (Nat × Nat)) : Turn → List (Nat × Nat)
  | .command c => m.session.signs n signed c
  | .step =>
    match m.stack with
    | .script (c :: _) :: _ => m.session.signs n signed c
    | _ => signed
  | _ => signed

/-- **The callbacks that are signed on a list after some turns**, each under the identity of its subscription: those
subscribed since the list was last cleared, in order. -/
def signed (m : Machine) (n : Nat) (before : List (Nat × Nat)) : List Turn → List (Nat × Nat)
  | [] => before
  | t :: rest => (m.turn? t).elim [] (·.signed n (m.signs n before t) rest)

/-- The ledger of a list. -/
def ledger (m : Machine) (n : Nat) (signed : List (Nat × Nat)) : Ledger :=
  m.session.workspace.ledger n (callsOn n m.calls) signed

/-- Nothing that bears on a list is altered. -/
theorem moves_of_same (hlist : m'.store.list n = m.store.list n)
    (hheld : m'.session.workspace.heldOn n = m.session.workspace.heldOn n)
    (hcalls : callsOn n m'.calls = callsOn n m.calls) : (m.ledger n before).Moves (m'.ledger n before) := by
  have hsame : m'.ledger n before = m.ledger n before := by
    unfold ledger Workspace.ledger
    rw [← store, ← store, hlist, hheld, hcalls]
  rw [hsame]
  exact .refl _

/-- What spares free lists, and leaves tasks that run no call list of one. -/
theorem moves_of_spares (hm : m.Sound) {s' : Store} {tasks : List Task} (hspares : m.store.Spares s')
    (htasks : OffCalls tasks) (hworkspace : m'.session.workspace = m.session.workspace.withStore s')
    (hcalls : m'.calls = callsOf tasks ++ m.calls) : (m.ledger n before).Moves (m'.ledger n before) := by
  refine moves_of_same ?_ (by rw [hworkspace]; rfl) ?_
  · rw [store, hworkspace]
    exact (hspares hm.scene.store_wired.offLists).1 n
  · rw [hcalls, callsOn_append, callsOn_of_offCalls htasks, List.nil_append]

/-- **A call list that is at its end gives its pins back.** -/
theorem moves_of_finish {ch : Channel} {pinned : List Nat} (hcalls : m.calls = (ch, pinned) :: m'.calls)
    (hworkspace : m'.session.workspace = m.session.workspace.withStore (m.store.finish ch pinned)) :
    (m.ledger n before).Moves (m'.ledger n before) := by
  have hlist : m'.store.list n = if ch = .list n then (m.store.list n).unpin pinned else m.store.list n := by
    rw [store, hworkspace]
    exact Workspace.list_modifyRoster m.store (Roster.uniform_unpin pinned) ch n
  have hheld : m'.session.workspace.heldOn n = m.session.workspace.heldOn n := by
    rw [hworkspace]
    rfl
  by_cases hch : ch = .list n
  · rw [if_pos hch] at hlist
    have hfinished : Ledger.Moves ⟨m.store.list n, m.session.workspace.heldOn n, pinned :: callsOn n m'.calls, before⟩
        ⟨(m.store.list n).unpin pinned, m.session.workspace.heldOn n, callsOn n m'.calls, before⟩ :=
      .single .finished
    unfold ledger Workspace.ledger
    rw [← store, ← store, hlist, hheld, hcalls, callsOn_cons, if_pos hch]
    exact hfinished
  · rw [if_neg hch] at hlist
    refine moves_of_same hlist hheld ?_
    rw [hcalls, callsOn_cons, if_neg hch]
    rfl

/-- A call of a callback alters no free list. What the callback does comes later, step by step. -/
theorem spares_call (s : Session) (k : Nat) (report : Report) :
    ∃ s', (s.call k report).1.workspace = s.workspace.withStore s' ∧ s.workspace.store.Spares s' := by
  unfold Session.call
  split
  · exact ⟨_, rfl, .refl _⟩
  · next callback _ =>
    have hobserved := Spares.of_extends (s.workspace.store.extends_observe (.call callback.tag report))
    split
    · exact ⟨_, rfl, hobserved⟩
    · exact ⟨_, rfl, hobserved⟩

theorem spares_hear (s : Session) (l : Listener) (signal : Signal) :
    ∃ s', (s.hear l signal).1.workspace = s.workspace.withStore s' ∧ s.workspace.store.Spares s' := by
  cases l with
  | callback k => exact spares_call s k _
  | _ => exact ⟨_, rfl, spares_react _ _⟩

theorem spares_meet (s : Session) (tree : Nat) (event : String) (handler : EventHandler) (x : Nat) :
    ∃ s' tasks, (s.meet tree event handler x).1.workspace = s.workspace.withStore s' ∧
      s.workspace.store.Spares s' ∧ OffCalls tasks ∧
      (s.meet tree event handler x).2.filterMap Frame.call? = callsOf tasks := by
  cases handler with
  | callback k =>
    obtain ⟨s', hworkspace, hspares⟩ := spares_call s k (Session.eventReport s.workspace.store tree event x)
    exact ⟨s', [], hworkspace, hspares, .nil, s.calls_call k _⟩
  | writeBack context =>
    have hwrite := @spares_writeBack s.workspace.store tree event context x
    exact ⟨_, _, rfl, hwrite.1, hwrite.2, List.filterMap_map⟩

/-- **Running a task** is a sequence of moves of the ledger. -/
theorem runTask_moves (hm : m.Sound) {task : Task} {rest : List Frame} (hstack : m.stack = .task task :: rest) :
    (m.ledger n before).Moves ((m.runTask rest task).ledger n before) := by
  have hcalls : m.calls = callsOf [task] ++ rest.filterMap Frame.call? := by
    unfold calls
    rw [hstack]
    exact calls_tasks [task] rest
  cases task with
  | reply outcome =>
    cases rest with
    | nil => exact moves_of_spares hm (.refl _) .nil rfl hcalls.symm
    | cons f rest => exact moves_of_spares hm (.of_extends (m.store.extends_observe _)) .nil rfl hcalls.symm
  | request id =>
    have hoff : OffCalls [(m.store.notify (.requests id) .render).2] := OffCalls.nil.calling rfl rfl
    exact moves_of_spares hm (spares_notify (.requests id) rfl .render) hoff rfl (hcalls ▸ rfl)
  | trigger event tree xs count =>
    cases xs with
    | nil => exact moves_of_spares hm (.refl _) .nil rfl hcalls.symm
    | cons x xs =>
      have hoff : OffCalls [(m.store.fire tree event x).2.1] := OffCalls.nil.calling rfl rfl
      exact moves_of_spares hm (spares_fire tree event x) hoff rfl (hcalls ▸ rfl)
  | notify ch pinned signal waiting =>
    cases waiting with
    | nil => exact moves_of_finish hcalls rfl
    | cons l waiting =>
      -- the call list keeps its pins until it is at its end
      obtain ⟨s', hworkspace, hspares⟩ := spares_hear m.session l signal
      refine moves_of_spares hm hspares .nil hworkspace ?_
      simp only [runTask, calls, hstack, List.filterMap_append, m.session.calls_hear l signal,
        List.filterMap_cons, Frame.call?, Task.call?]
      rfl
  | dispatch tree pinned event waiting =>
    cases waiting with
    | nil => exact moves_of_finish hcalls rfl
    | cons met waiting =>
      obtain ⟨s', tasks, hworkspace, hspares, htasks, hframes⟩ := spares_meet m.session tree event met.1 met.2
      refine moves_of_spares hm hspares htasks hworkspace ?_
      simp only [runTask, calls, hstack, List.filterMap_append, hframes, List.filterMap_cons, Frame.call?,
        Task.call?]

/-- **A turn** is a sequence of moves of the ledger. -/
theorem turn_moves (hm : m.Sound) {t : Turn} (h : m.turn? t = some m') :
    (m.ledger n before).Moves (m'.ledger n (m.signs n before t)) := by
  cases turned_of_turn h with
  | began c hidle =>
    have hmoves := m.session.perform_moves hm c n (callsOn n m.calls) before
    have htasks := calls_tasks (m.session.perform c).2 []
    rw [← callsOn_append] at hmoves
    simp only [calls, hidle, List.filterMap_nil, List.append_nil] at hmoves htasks
    simp only [ledger, start, calls, hidle, List.filterMap_nil, signs, htasks]
    exact hmoves
  | asked cs hstack =>
    refine moves_of_same rfl rfl ?_
    simp only [calls, hstack, List.filterMap_cons, Frame.call?]
  | read hidle => exact moves_of_same rfl rfl rfl
  | ended hstack =>
    simp only [signs, hstack]
    refine moves_of_same rfl rfl ?_
    simp only [calls, hstack, List.filterMap_cons, Frame.call?]
  | @performed c cs rest hstack =>
    simp only [signs, hstack]
    -- what the command begins stands above the call lists that are running
    have hmoves := m.session.perform_moves hm c n (callsOn n m.calls) before
    rw [← callsOn_append] at hmoves
    simp only [calls, hstack, List.filterMap_cons, Frame.call?] at hmoves
    simp only [ledger, calls, hstack, calls_tasks, List.filterMap_cons, Frame.call?]
    exact hmoves
  | ran hstack =>
    simp only [signs, hstack]
    exact runTask_moves hm hstack

/-- **A run** is a sequence of moves of the ledger. -/
theorem walk_moves (hm : m.Sound) (h : m.walk? turns = some m') :
    (m.ledger n before).Moves (m'.ledger n (m.signed n before turns)) := by
  induction turns generalizing m before with
  | nil =>
    cases h
    exact .refl _
  | cons t rest ih =>
    obtain ⟨next, hturn, h⟩ := walk?_cons h
    simp only [signed, hturn, Option.elim_some]
    exact (turn_moves hm hturn).trans (ih ((does_turn hm hturn).sound hm) h)

/-- The ledger of a list is sound in every state, with the callbacks that the history signs. -/
theorem sound_ledger {history : List Turn} (h : initial.walk? history = some m) (n : Nat) :
    (m.ledger n (initial.signed n [] history)).Sound := by
  refine (walk_moves sound_initial h).sound ?_
  -- a list that is not there yet is empty
  have hempty : initial.ledger n [] = ⟨.empty, [], [], []⟩ := by
    have hlist : Store.empty.list n = .empty := by simp [Store.list, Store.empty]; rfl
    unfold ledger Workspace.ledger
    rw [show initial.session.workspace.store.list n = .empty from hlist]
    rfl
  rw [hempty]
  exact Ledger.sound_empty

/-! ## Callbacks are signed once -/

/-- Callbacks are signed in the order of their numbers, and have numbers that were given out. -/
structure Distinct (signed : List (Nat × Nat)) (callbacks : List Callback) : Prop where
  order : signed.Pairwise (·.2 < ·.2)
  fresh : ∀ c ∈ signed, c.2 < callbacks.length

theorem Distinct.mono {callbacks callbacks' : List Callback} (h : Distinct before callbacks)
    (hle : callbacks.length ≤ callbacks'.length) : Distinct before callbacks' :=
  ⟨h.order, fun c hc => Nat.lt_of_lt_of_le (h.fresh c hc) hle⟩

/-- A command gives a callback that it signs the next number. -/
theorem distinct_perform (s : Session) (h : Distinct before s.callbacks) (c : Command) :
    Distinct (s.signs n before c) (s.perform c).1.callbacks := by
  cases c with
  | act action =>
    by_cases hclear : ∃ list, action = .name (.clear list)
    · obtain ⟨list, rfl⟩ := hclear
      simp only [Session.signs]
      split
      · exact ⟨.nil, fun c hc => absurd hc List.not_mem_nil⟩
      · exact h
    · rw [Session.signs_act fun list heq => hclear ⟨list, heq⟩]
      exact h
  | listen site as tag script limit =>
    by_cases hlist : ∃ list, site = .list list
    · obtain ⟨list, rfl⟩ := hlist
      cases hfound : s.workspace.list? list with
      | error outcome =>
        simp only [Session.perform, Workspace.subscribeAt, hfound, Session.signs]
        exact h
      | ok m =>
        -- the new callback has a number that nobody has had
        have hgrown : Distinct before (s.callbacks ++ [⟨tag, script, limit⟩]) := h.mono (by simp)
        have hnew : s.callbacks.length < (s.callbacks ++ [⟨tag, script, limit⟩] : List Callback).length := by simp
        simp only [Session.perform, Workspace.subscribeAt, hfound, Session.signs, Except.toOption, Option.some.injEq]
        split
        · constructor
          case order =>
            refine List.pairwise_append.mpr ⟨h.order, List.pairwise_singleton .., ?_⟩
            intro c hc c' hc'
            rw [List.mem_singleton.mp hc']
            exact h.fresh c hc
          case fresh =>
            intro c hc
            rcases List.mem_append.mp hc with hc | hc
            · exact hgrown.fresh c hc
            · rw [List.mem_singleton.mp hc]
              exact hnew
        · exact hgrown
    · rw [Session.signs_listen fun list heq => hlist ⟨list, heq⟩]
      unfold Session.perform
      simp only
      split
      · exact h
      · exact h.mono (by simp)

theorem length_callbacks_call (s : Session) (k : Nat) (report : Report) :
    (s.call k report).1.callbacks.length = s.callbacks.length := by
  unfold Session.call
  split
  · rfl
  · split
    · rfl
    · exact List.length_set

theorem length_callbacks_runTask (m : Machine) (rest : List Frame) (task : Task) :
    (m.runTask rest task).session.callbacks.length = m.session.callbacks.length := by
  cases task with
  | reply outcome => cases rest <;> rfl
  | request id => rfl
  | trigger event tree xs count => cases xs <;> rfl
  | notify ch pinned signal waiting =>
    cases waiting with
    | nil => rfl
    | cons l waiting =>
      cases l with
      | callback k => exact length_callbacks_call m.session k _
      | _ => rfl
  | dispatch tree pinned event waiting =>
    cases waiting with
    | nil => rfl
    | cons met waiting =>
      obtain ⟨handler, x⟩ := met
      cases handler with
      | callback k => exact length_callbacks_call m.session k _
      | writeBack context => rfl

/-- A turn gives a callback that it signs the next number. -/
theorem distinct_turn (h : Distinct before m.session.callbacks) {t : Turn} (hturn : m.turn? t = some m') :
    Distinct (m.signs n before t) m'.session.callbacks := by
  cases turned_of_turn hturn with
  | began c hidle => exact distinct_perform m.session h c
  | asked cs hstack | read hidle => exact h
  | ended hstack =>
    simp only [signs, hstack]
    exact h
  | @performed c cs rest hstack =>
    simp only [signs, hstack]
    exact distinct_perform m.session h c
  | @ran task rest hstack =>
    simp only [signs, hstack]
    exact h.mono (Nat.le_of_eq (m.length_callbacks_runTask rest task).symm)

theorem distinct_walk (h : Distinct before m.session.callbacks) (hwalk : m.walk? turns = some m') :
    Distinct (m.signed n before turns) m'.session.callbacks := by
  induction turns generalizing m before with
  | nil =>
    cases hwalk
    exact h
  | cons t rest ih =>
    obtain ⟨next, hturn, hwalk⟩ := walk?_cons hwalk
    simp only [signed, hturn, Option.elim_some]
    exact ih (distinct_turn h hturn) hwalk

/-! ## From the beginning of an emission to its end -/

/-- **An emission begins**: the machine after it, and what is left to do below it. -/
inductive Emits (m : Machine) (n : Nat) (text : String) : Machine → List Frame → Prop
  /-- The host emits. -/
  | host {name : String} (hidle : m.stack = []) (hname : m.session.workspace.list? name = .ok n) :
    Emits m n text (.start m.session (.act (.name (.emit name text)))) [.task (.reply .done)]
  /-- A callback emits. -/
  | script {name : String} {cs : List Command} {rest : List Frame} {m' : Machine}
    (hstack : m.stack = .script (.act (.name (.emit name text)) :: cs) :: rest)
    (hname : m.session.workspace.list? name = .ok n) (hstep : m.step? = some m') :
    Emits m n text m' (.task (.reply .done) :: .script cs :: rest)

variable {text : String}

/-- An emission begins with the live listeners on its call list. -/
theorem Emits.stack (h : m.Emits n text m' base) :
    m'.stack = .task (.notify (.list n) ((m.store.list n).live.map (·.id)) (.emitted text)
      ((m.store.list n).live.map (·.listener))) :: base := by
  have hperform {name : String} (hname : m.session.workspace.list? name = .ok n) :
      (m.session.perform (.act (.name (.emit name text)))).2 =
        [.notify (.list n) ((m.store.list n).live.map (·.id)) (.emitted text)
          ((m.store.list n).live.map (·.listener)), .reply .done] := by
    simp only [Session.perform, Action.perform, NameCommand.perform, Workspace.withFound, hname]
    rfl
  cases h with
  | host hidle hname =>
    simp only [start, hperform hname]
    rfl
  | script hstack hname hstep =>
    simp only [step?, hstack, hperform hname, Option.some.injEq] at hstep
    subst hstep
    rfl

/-- The listener that the notification above so many levels calls next, with what it is told; none while something
stands above the notification. -/
def next? (m : Machine) (height : Nat) : Option (Listener × Signal) :=
  match m.stack with
  | .task (.notify _ _ signal (l :: _)) :: below => if below.length = height then some (l, signal) else none
  | _ => none

/-- **Whom the notification above so many levels calls in a run**, in order. -/
def called (height : Nat) (m : Machine) : List Turn → List (Listener × Signal)
  | [] => []
  | t :: rest => (m.next? height).toList ++ (m.turn? t).elim [] (·.called height rest)

/-- Nobody is called while something stands above the notification. -/
theorem next?_of_above {f g : Frame} {inner : List Frame} (h : m.stack = f :: (inner ++ g :: base)) :
    m.next? base.length = none := by
  unfold next?
  rw [h]
  split
  · next heq =>
    obtain ⟨-, rfl⟩ := List.cons.inj heq
    apply if_neg
    intro hlength
    simp only [List.length_append, List.length_cons] at hlength
    omega
  · rfl

/-- **A notification calls its call list from front to back**, whatever is done in between. -/
theorem called_of_returns {ch : Channel} {pinned : List Nat} {signal : Signal} {waiting : List Listener}
    {inner : List Frame} (hinner : Inner inner)
    (hstack : m.stack = inner ++ .task (.notify ch pinned signal waiting) :: base)
    (hreturns : m.Returns base turns m') : m.called base.length turns = waiting.map (·, signal) := by
  induction hreturns generalizing inner waiting with
  | @done m h =>
    have hlength := congrArg List.length (h.symm.trans hstack)
    simp only [List.length_append, List.length_cons] at hlength
    omega
  | @turn m m₁ m' t rest f top habove hturn hrest ih =>
    simp only [called, hturn, Option.elim_some]
    cases inner with
    | nil =>
      -- a cut point: the notification goes on
      rw [List.nil_append] at hstack
      obtain ⟨rfl, hm₁⟩ := step_of_task hstack hturn
      cases waiting with
      | nil =>
        obtain ⟨rfl, rfl⟩ := hrest.of_stack (by rw [hm₁]; rfl)
        simp only [next?, hstack]
        rfl
      | cons l waiting =>
        have hnext : m.next? base.length = some (l, signal) := by simp only [next?, hstack, if_true]
        have hstack₁ : m₁.stack = (m.session.hear l signal).2 ++
            .task (.notify ch pinned signal waiting) :: base := by
          rw [hm₁]
          rfl
        rw [hnext, ih (inner_hear _ _ _) hstack₁]
        rfl
    | cons g inner =>
      -- a script is running, or what it led to
      rw [List.cons_append] at hstack
      obtain ⟨pushed, hpushed⟩ := turn_local hstack hturn
      have hinner₁ : Inner (pushed ++ inner) := by
        rcases hinner.uncons with ⟨cs, rfl, rfl⟩ | ⟨hne, hinner⟩
        · rw [List.append_nil]
          exact inner_of_script hstack hturn hpushed
        · exact hinner.cons hne pushed
      rw [← List.append_assoc] at hpushed
      rw [next?_of_above hstack, ih hinner₁ hpushed]
      rfl

/-- **Whom an emission calls.** It runs to its end, and it calls exactly the callbacks that are signed on the list
when it begins and whose subscription is then held or on the call list of an emission on the list that is still
running; each once, and in order of subscription. While no emission on the list is running, these are the
callbacks whose subscription is held. -/
theorem called_of_emits {history : List Turn} (hwalk : initial.walk? history = some m)
    (hemits : m.Emits n text m' base) :
    (∃ turns m'', m'.Returns base turns m'') ∧
      (initial.signed n [] history).Pairwise (fun c c' => c.1 < c'.1 ∧ c.2 < c'.2) ∧
      ∀ turns m'', m'.Returns base turns m'' →
        m'.called base.length turns =
          ((initial.signed n [] history).filter fun c =>
            c.1 ∈ m.session.workspace.heldOn n ∨ ∃ ids ∈ callsOn n m.calls, c.1 ∈ ids).map
              (fun c => (.callback c.2, .emitted text)) ∧
        (callsOn n m.calls = [] → m'.called base.length turns =
          ((initial.signed n [] history).filter fun c => c.1 ∈ m.session.workspace.heldOn n).map
            fun c => (.callback c.2, .emitted text)) := by
  have hsound := sound_ledger hwalk n
  have hstack := hemits.stack
  have hdistinct : Distinct (initial.signed n [] history) m.session.callbacks :=
    distinct_walk ⟨.nil, fun _ hc => absurd hc List.not_mem_nil⟩ hwalk
  have hlt : (initial.signed n [] history).Pairwise (·.1 < ·.1) := hsound.signed
  refine ⟨@exists_returns base m' [_] hstack, hlt.and hdistinct.order, ?_⟩
  intro turns m'' hreturns
  -- it calls whoever is live when it begins, and those are the signed ones that are due
  have hcalled := called_of_returns (.inl rfl) hstack hreturns
  have hlive := congrArg (List.map fun x : Nat × Listener => (x.2, Signal.emitted text)) hsound.live_eq
  rw [List.map_map] at hcalled
  rw [List.map_map, List.map_map] at hlive
  have hdue := hcalled.trans hlive
  refine ⟨hdue, ?_⟩
  -- with no emission running, whoever is due is held
  intro hnone
  refine hdue.trans (congrArg _ (List.filter_congr ?_))
  intro c _
  apply decide_eq_decide.mpr
  constructor
  · intro h
    apply h.resolve_right
    rintro ⟨ids, hids, -⟩
    rw [ledger, hnone] at hids
    cases hids
  · exact .inl

/-- An emission that a script begins is a step. -/
theorem exists_emits {name : String} {cs : List Command} {rest : List Frame}
    (hstack : m.stack = .script (.act (.name (.emit name text)) :: cs) :: rest)
    (hname : m.session.workspace.list? name = .ok n) :
    ∃ m', m.Emits n text m' (.task (.reply .done) :: .script cs :: rest) := by
  have hstep : ∃ m', m.step? = some m' := by
    unfold step?
    rw [hstack]
    exact ⟨_, rfl⟩
  obtain ⟨m', hstep⟩ := hstep
  exact ⟨m', .script hstack hname hstep⟩

/-- Three callbacks on a list. The third is dropped; then the first, when it is called, drops its own guard,
subscribes a fourth and emits again. -/
def nested : List Turn :=
  [.command (.act (.name (.makeList "list"))), .step,
    .command (.listen (.list "list") "first" "A" [.act (.name (.drop "first")), .listen (.list "list") "fourth" "D" [] 0,
      .act (.name (.emit "list" "inner"))] 1), .step,
    .command (.listen (.list "list") "second" "B" [] 0), .step,
    .command (.listen (.list "list") "third" "C" [] 0), .step,
    .command (.act (.name (.drop "third"))), .step,
    .command (.act (.name (.emit "list" "outer"))), .step, .step, .step, .step, .step]

/-- The nested emission calls the first callback, which is dropped but on the running call list, the second and the
fourth, which are held, and not the third, which was dropped before. -/
theorem called_of_emits_nested :
    ∃ m m' base, initial.walk? nested = some m ∧ m.Emits 0 "inner" m' base ∧
      ∀ turns m'', m'.Returns base turns m'' → m'.called base.length turns =
        [(.callback 0, .emitted "inner"), (.callback 1, .emitted "inner"), (.callback 3, .emitted "inner")] := by
  have hrun : (initial.walk? nested).map (fun m => (m.stack, m.session.workspace.list? "list",
      m.session.workspace.heldOn 0, callsOn 0 m.calls)) =
      some ([.script [.act (.name (.emit "list" "inner"))],
        .task (.notify (.list 0) [0, 1] (.emitted "outer") [.callback 1]), .task (.reply .done)],
          .ok 0, [3, 1], [[0, 1]]) := by rfl
  have hsigned : initial.signed 0 [] nested = [(0, 0), (1, 1), (2, 2), (3, 3)] := by rfl
  obtain ⟨m, hwalk, heq⟩ := Option.map_eq_some_iff.mp hrun
  simp only [Prod.mk.injEq] at heq
  obtain ⟨hstack, hname, hheld, hcalls⟩ := heq
  obtain ⟨m', hemits⟩ := exists_emits hstack hname
  refine ⟨m, m', _, hwalk, hemits, fun turns m'' hreturns => ?_⟩
  have hcalled := ((called_of_emits hwalk hemits).2.2 turns m'' hreturns).1
  rw [hsigned, hheld, hcalls] at hcalled
  exact hcalled

/-- A callback that drops its own guard when it is called, and then emits again. -/
def dropping : List Turn :=
  [.command (.act (.name (.makeList "list"))), .step,
    .command (.listen (.list "list") "guard" "A" [.act (.name (.drop "guard")),
      .act (.name (.emit "list" "inner"))] 1), .step,
    .command (.act (.name (.emit "list" "outer"))), .step, .step, .step]

/-- **A callback whose guard was dropped is called by an emission that begins later**, because an emission that has
it on its call list is still running: nobody's subscription is held, and the emission calls the one that was
dropped. -/
theorem called_of_dropped_guard :
    ∃ m m' base turns m'', initial.walk? dropping = some m ∧ m.Emits 0 "inner" m' base ∧
      m'.Returns base turns m'' ∧
      ((initial.signed 0 [] dropping).filter fun c => c.1 ∈ m.session.workspace.heldOn 0) = [] ∧
      m'.called base.length turns = [(.callback 0, .emitted "inner")] := by
  have hrun : (initial.walk? dropping).map (fun m => (m.stack, m.session.workspace.list? "list",
      m.session.workspace.heldOn 0, (m.store.list 0).live.map (·.listener))) =
      some ([.script [.act (.name (.emit "list" "inner"))],
        .task (.notify (.list 0) [0] (.emitted "outer") []), .task (.reply .done)],
          .ok 0, [], [.callback 0]) := by rfl
  obtain ⟨m, hwalk, heq⟩ := Option.map_eq_some_iff.mp hrun
  simp only [Prod.mk.injEq] at heq
  obtain ⟨hstack, hname, hheld, hlive⟩ := heq
  obtain ⟨m', hemits⟩ := exists_emits hstack hname
  have hstack' := hemits.stack
  obtain ⟨turns, m'', hreturns⟩ := @exists_returns _ m' [_] hstack'
  refine ⟨m, m', _, turns, m'', hwalk, hemits, hreturns, by rw [hheld]; simp, ?_⟩
  rw [called_of_returns (.inl rfl) hstack' hreturns, hlive]
  rfl

end Machine

end Databind
