import Databind.Proofs.Performance
import Databind.Session.Transcript

/-!
# `Proofs.Run` — runs

A run is a list of turns, from the session without objects on. A turn is one step of the machine, a command of
the host when nothing is left to do, or something more that a callback asks for while it runs: a callback may
do anything, and what it does need not stand in its script. The states between two turns are all there are, those
in the middle of a notification included.

Every run is made of effects (`Machine.walk_does`), so what effects preserve holds in every state of every run.

## Main definitions

* `Turn`, `Machine.turn?`, `Machine.walk?` — runs.
* `Machine.Turned` — what a turn can do, case by case.
* `Machine.deeds` — what was done in a run.
* `Machine.Reached` — a state of some run.
-/

namespace Databind

open Store

/-- What can happen next in a run. -/
inductive Turn where
  /-- One step of what is left to do. -/
  | step
  /-- The host gives a command; nothing is left to do. -/
  | command (c : Command)
  /-- A callback that is running asks for more. -/
  | ask (script : List Command)
  /-- The host reads the journal and empties it; nothing is left to do. -/
  | read

/-- The call list that a level of the stack runs. -/
def Frame.call? : Frame → Option (Channel × List Nat)
  | .task t => t.call?
  | .script _ => none

namespace Machine

/-- The machine without objects, with nothing left to do. -/
def initial : Machine := ⟨.empty, [], .done⟩

/-- The machine after a turn; none if the turn cannot happen now. -/
def turn? (m : Machine) : Turn → Option Machine
  | .step => m.step?
  | .command c => if m.stack.isEmpty then some (.start m.session c) else none
  | .ask cs =>
    match m.stack with
    | .script rest :: below => some { m with stack := .script (cs ++ rest) :: below }
    | _ => none
  | .read => if m.stack.isEmpty then some { m with session := m.session.emptyJournal } else none

/-- **What a turn can do**, by what is left to do. -/
inductive Turned (m : Machine) : Turn → Machine → Prop
  | began (c : Command) (hidle : m.stack = []) : Turned m (.command c) (.start m.session c)
  | asked (cs : List Command) {rest : List Command} {below : List Frame} (hstack : m.stack = .script rest :: below) :
    Turned m (.ask cs) { m with stack := .script (cs ++ rest) :: below }
  | read (hidle : m.stack = []) : Turned m .read { m with session := m.session.emptyJournal }
  | ended {rest : List Frame} (hstack : m.stack = .script [] :: rest) : Turned m .step { m with stack := rest }
  | performed {c : Command} {cs : List Command} {rest : List Frame} (hstack : m.stack = .script (c :: cs) :: rest) :
    Turned m .step { m with
      session := (m.session.perform c).1
      stack := (m.session.perform c).2.map .task ++ .script cs :: rest }
  | ran {task : Task} {rest : List Frame} (hstack : m.stack = .task task :: rest) :
    Turned m .step (m.runTask rest task)

theorem turned_of_turn {m m' : Machine} {t : Turn} (h : m.turn? t = some m') : m.Turned t m' := by
  cases t with
  | command c =>
    obtain ⟨hidle, heq⟩ := Option.ite_none_right_eq_some.mp h
    cases heq
    exact .began c (List.isEmpty_iff.mp hidle)
  | read =>
    obtain ⟨hidle, heq⟩ := Option.ite_none_right_eq_some.mp h
    cases heq
    exact .read (List.isEmpty_iff.mp hidle)
  | ask cs =>
    simp only [turn?] at h
    split at h
    · next rest below hstack =>
      cases h
      exact .asked cs hstack
    · cases h
  | step =>
    simp only [turn?, step?] at h
    split at h
    · cases h
    · next rest hstack =>
      cases h
      exact .ended hstack
    · next c cs rest hstack =>
      cases h
      exact .performed hstack
    · next task rest hstack =>
      cases h
      exact .ran hstack

/-- The machine after some turns. -/
def walk? (m : Machine) : List Turn → Option Machine
  | [] => some m
  | t :: rest => (m.turn? t).bind (·.walk? rest)

/-- What is done in a turn. -/
def turnDeeds (m : Machine) : Turn → List Deed
  | .step => m.stepDeeds
  | .command c => m.session.deeds c
  | .ask _ => []
  | .read => [.read]

/-- **What is done in some turns.** -/
def deeds (m : Machine) : List Turn → List Deed
  | [] => []
  | t :: rest => m.turnDeeds t ++ (m.turn? t).elim [] (·.deeds rest)

/-- A state of some run. -/
def Reached (m : Machine) : Prop := ∃ turns, initial.walk? turns = some m

/-- The store of a machine. -/
def store (m : Machine) : Store := m.session.workspace.store

/-- The call lists that are running, the innermost first. -/
def calls (m : Machine) : List (Channel × List Nat) := m.stack.filterMap Frame.call?

/-- The store with the call lists that are running. -/
def scene (m : Machine) : Scene := ⟨m.store, m.calls⟩

/-- **No notification and no dispatch is in progress.** -/
def Quiet (m : Machine) : Prop := m.calls = []

/-- A machine between two turns: its workspace is sound. -/
def Sound (m : Machine) : Prop := m.session.workspace.Sound m.calls

/-- Something done by a machine: its effects have the given deeds, and names are in order. -/
structure Does (m : Machine) (ds : List Deed) (m' : Machine) : Prop where
  effects : Effects m.scene ds m'.scene
  named : m'.session.workspace.Named

theorem Does.sound {m m' : Machine} {ds : List Deed} (h : m.Does ds m') (hm : m.Sound) : m'.Sound :=
  ⟨h.effects.sound hm.scene, h.named⟩

theorem calls_tasks (tasks : List Task) (rest : List Frame) :
    (tasks.map Frame.task ++ rest).filterMap Frame.call? = callsOf tasks ++ rest.filterMap Frame.call? := by
  rw [List.filterMap_append, List.filterMap_map]
  rfl

end Machine

namespace Session

variable {calls : List (Channel × List Nat)}

/-! ## Listeners and handlers -/

/-- A call of a callback is recorded, and changes nothing else. -/
theorem call_does (s : Session) (hw : s.workspace.Sound calls) (n : Nat) (report : Report) :
    s.workspace.Does calls [] ((s.call n report).1.workspace, []) := by
  have hrefl : s.workspace.Does calls [] (s.workspace, []) := ⟨.refl _, hw.named⟩
  unfold call
  split
  · exact hrefl
  · next callback _ =>
    have hobserved := Workspace.does_extends hw (s.workspace.store.extends_observe (.call callback.tag report))
      .done
    split
    · exact ⟨hobserved.effects, hobserved.named⟩
    · exact ⟨hobserved.effects, hobserved.named⟩

/-- A callback that is called runs no call list yet. -/
theorem calls_call (s : Session) (n : Nat) (report : Report) :
    (s.call n report).2.filterMap Frame.call? = [] := by
  unfold call
  split
  · rfl
  · split <;> rfl

theorem hear_does (s : Session) (hw : s.workspace.Sound calls) (listener : Listener) (signal : Signal) :
    s.workspace.Does calls (s.workspace.store.reactDeeds listener signal)
      ((s.hear listener signal).1.workspace, []) := by
  have hreact : s.workspace.Does calls (s.workspace.store.reactDeeds listener signal)
      (s.workspace.withStore (react s.workspace.store listener signal), []) :=
    Workspace.does_store hw (react_effects s.workspace.store listener signal) (mild_reactDeeds _ _ _).lasting
  cases listener with
  | callback n =>
    have hnone : s.workspace.store.reactDeeds (.callback n) signal = [] := by cases signal <;> rfl
    rw [hnone]
    exact call_does s hw n _
  | _ => exact hreact

theorem calls_hear (s : Session) (listener : Listener) (signal : Signal) :
    (s.hear listener signal).2.filterMap Frame.call? = [] := by
  cases listener with
  | callback n => exact calls_call s n _
  | _ => rfl

/-- A handler that meets an event leaves some tasks, or a script. -/
theorem meet_does (s : Session) (hw : s.workspace.Sound calls) (tree : Nat) (event : String)
    (handler : EventHandler) (x : Nat) :
    ∃ tasks, s.workspace.Does calls (s.meetDeeds handler) ((s.meet tree event handler x).1.workspace, tasks) ∧
      (s.meet tree event handler x).2.filterMap Frame.call? = callsOf tasks := by
  cases handler with
  | callback n => exact ⟨[], call_does s hw n _, calls_call s n _⟩
  | writeBack context =>
    have hwrite := Workspace.does_store hw (writeBack_effects s.workspace.store tree event context x)
      (lasting_writeDeeds s.workspace.store context.record)
    exact ⟨_, hwrite, List.filterMap_map⟩

end Session

namespace Machine

variable {m m' : Machine}

/-! ## Turns -/

/-- Something done in the workspace of a machine, with the call lists of the tasks it leaves on top. -/
theorem does_of_workspace {ds : List Deed} {w : Workspace} {tasks : List Task}
    (h : m.session.workspace.Does m.calls ds (w, tasks)) (hworkspace : m'.session.workspace = w)
    (hcalls : m'.calls = callsOf tasks ++ m.calls) : m.Does ds m' := by
  refine ⟨?_, hworkspace ▸ h.named⟩
  unfold scene store
  rw [hcalls, hworkspace]
  exact h.effects

/-- A change that extends the store. -/
theorem does_extends (hm : m.Sound) {s' : Store} (h : m.store.Extends s')
    (hworkspace : m'.session.workspace = m.session.workspace.withStore s') (hcalls : m'.calls = m.calls) :
    m.Does [] m' :=
  have hdoes : m.session.workspace.Does m.calls [] (m.session.workspace.withStore s', [.reply .done]) :=
    Workspace.does_extends hm h .done
  does_of_workspace hdoes hworkspace hcalls

theorem does_start (hm : m.Sound) (h : m.stack = []) (c : Command) :
    m.Does (m.session.deeds c) (.start m.session c) := by
  refine does_of_workspace (Session.perform_does m.session hm c) rfl ?_
  have htasks := calls_tasks (m.session.perform c).2 []
  rw [List.append_nil] at htasks
  simp only [start, calls, htasks, h]

theorem does_script (hm : m.Sound) {c : Command} {cs : List Command} {rest : List Frame}
    (h : m.stack = .script (c :: cs) :: rest) :
    m.Does (m.session.deeds c) { m with
      session := (m.session.perform c).1
      stack := (m.session.perform c).2.map .task ++ .script cs :: rest } := by
  refine does_of_workspace (Session.perform_does m.session hm c) rfl ?_
  simp only [calls, h, calls_tasks, List.filterMap_cons, Frame.call?]

theorem does_deliver (hm : m.Sound) {rest : List Frame} {outcome : Outcome}
    (h : m.stack = .task (.reply outcome) :: rest) : m.Does [] (m.deliver rest outcome) := by
  have hcalls : m.calls = rest.filterMap Frame.call? := by
    simp only [calls, h, List.filterMap_cons, Frame.call?, Task.call?]
  cases rest with
  | nil => exact does_extends hm (.refl _) rfl hcalls.symm
  | cons f rest => exact does_extends hm (m.store.extends_observe _) rfl hcalls.symm

/-- A notification reaches its next listener. -/
theorem does_notify (hm : m.Sound) {ch : Channel} {pinned : List Nat} {signal : Signal} {listener : Listener}
    {waiting : List Listener} {rest : List Frame}
    (h : m.stack = .task (.notify ch pinned signal (listener :: waiting)) :: rest) :
    m.Does (m.store.reactDeeds listener signal)
      (m.runTask rest (.notify ch pinned signal (listener :: waiting))) := by
  refine does_of_workspace (m.session.hear_does hm listener signal) rfl ?_
  simp only [runTask, calls, h, List.filterMap_append, m.session.calls_hear listener signal,
    List.filterMap_cons, Frame.call?, Task.call?]
  rfl

/-- An event reaches its next handler. -/
theorem does_dispatch (hm : m.Sound) {tree : Nat} {pinned : List Nat} {event : String}
    {handler : EventHandler} {x : Nat} {waiting : List (EventHandler × Nat)} {rest : List Frame}
    (h : m.stack = .task (.dispatch tree pinned event ((handler, x) :: waiting)) :: rest) :
    m.Does (m.session.meetDeeds handler)
      (m.runTask rest (.dispatch tree pinned event ((handler, x) :: waiting))) := by
  obtain ⟨tasks, hdoes, hcalls⟩ := m.session.meet_does hm tree event handler x
  refine does_of_workspace hdoes rfl ?_
  simp only [runTask, calls, h, List.filterMap_append, hcalls, List.filterMap_cons, Frame.call?, Task.call?]

/-- A call list that is at its end gives its pins back. -/
theorem does_finish (hm : m.Sound) {ch : Channel} {pinned : List Nat}
    (hcalls : m.calls = (ch, pinned) :: m'.calls)
    (hworkspace : m'.session.workspace = m.session.workspace.withStore (m.store.finish ch pinned)) :
    m.Does [] m' := by
  have hstore : m'.store = m.store.finish ch pinned := by
    rw [store, hworkspace]
    rfl
  have heffects : Effects m.scene [] m'.scene := by
    unfold scene
    rw [hcalls, hstore]
    exact .single (.finished ch pinned)
  have hfollows : Follows [] m.store (m.store.finish ch pinned) := hstore ▸ heffects.follows hm.scene
  exact ⟨heffects, hworkspace ▸ hm.named.of_lasting hfollows Workspace.lasting_nil⟩

/-- **Running a task** is made of effects with the deeds of the step. -/
theorem does_runTask (hm : m.Sound) {task : Task} {rest : List Frame} (hstack : m.stack = .task task :: rest) :
    m.Does m.stepDeeds (m.runTask rest task) := by
  have hcalls : m.calls = callsOf [task] ++ rest.filterMap Frame.call? := by
    unfold calls
    rw [hstack]
    exact calls_tasks [task] rest
  unfold stepDeeds
  simp only [hstack]
  cases task with
  | reply outcome => exact does_deliver hm hstack
  | request id =>
    have hnotify := Workspace.does_store hm (notify_effects m.store (.requests id) .render) Workspace.lasting_nil
    exact does_of_workspace hnotify rfl (hcalls ▸ rfl)
  | trigger event tree xs count =>
    cases xs with
    | nil => exact does_extends hm (.refl _) rfl hcalls.symm
    | cons x xs =>
      have hfire := Workspace.does_store hm (fire_effects m.store tree event x) Workspace.lasting_nil
      exact does_of_workspace hfire rfl (hcalls ▸ rfl)
  | notify ch pinned signal waiting =>
    cases waiting with
    | nil => exact does_finish hm hcalls rfl
    | cons listener waiting => exact does_notify hm hstack
  | dispatch tree pinned event waiting =>
    cases waiting with
    | nil => exact does_finish hm hcalls rfl
    | cons met waiting => exact does_dispatch hm hstack

/-- **A turn** is made of effects with its deeds. -/
theorem does_turn (hm : m.Sound) {t : Turn} (h : m.turn? t = some m') : m.Does (m.turnDeeds t) m' := by
  cases turned_of_turn h with
  | began c hidle => exact does_start hm hidle c
  | asked cs hstack =>
    refine does_extends hm (.refl _) rfl ?_
    simp only [calls, hstack, List.filterMap_cons, Frame.call?]
  | read hidle =>
    have hread : m.session.workspace.Does m.calls [.read] (m.session.emptyJournal.workspace, []) :=
      Workspace.does_store hm (.single .read) (by simp [Lasting, actsOf])
    exact does_of_workspace hread rfl rfl
  | ended hstack =>
    simp only [turnDeeds, stepDeeds, hstack]
    refine does_extends hm (.refl _) rfl ?_
    simp only [calls, hstack, List.filterMap_cons, Frame.call?]
  | performed hstack =>
    simp only [turnDeeds, stepDeeds, hstack]
    exact does_script hm hstack
  | ran hstack => exact does_runTask hm hstack

theorem does_step (hm : m.Sound) (h : m.step? = some m') : m.Does m.stepDeeds m' :=
  does_turn hm (t := .step) h

/-! ## Runs -/

/-- The first turn of a run, and the rest of it. -/
theorem walk?_cons {t : Turn} {rest : List Turn} (h : m.walk? (t :: rest) = some m') :
    ∃ next, m.turn? t = some next ∧ next.walk? rest = some m' := Option.bind_eq_some_iff.mp h

theorem walk?_append (m : Machine) (before behind : List Turn) :
    m.walk? (before ++ behind) = (m.walk? before).bind (·.walk? behind) := by
  induction before generalizing m with
  | nil => rfl
  | cons t rest ih =>
    simp only [List.cons_append, walk?]
    cases m.turn? t with
    | none => rfl
    | some next => exact ih next

theorem deeds_cons {t : Turn} (h : m.turn? t = some m') (rest : List Turn) :
    m.deeds (t :: rest) = m.turnDeeds t ++ m'.deeds rest := by
  rw [deeds, h]
  rfl

theorem deeds_append {before : List Turn} (h : m.walk? before = some m') (behind : List Turn) :
    m.deeds (before ++ behind) = m.deeds before ++ m'.deeds behind := by
  induction before generalizing m with
  | nil => cases h; rfl
  | cons t rest ih =>
    obtain ⟨next, hturn, h⟩ := walk?_cons h
    rw [List.cons_append, deeds_cons hturn, deeds_cons hturn, ih h, List.append_assoc]

/-- **A run** is made of effects with its deeds, and leaves a sound workspace. -/
theorem walk_does (hm : m.Sound) {turns : List Turn} (h : m.walk? turns = some m') :
    m.Does (m.deeds turns) m' := by
  induction turns generalizing m with
  | nil => cases h; exact ⟨.refl _, hm.named⟩
  | cons t rest ih =>
    obtain ⟨next, hturn, h⟩ := walk?_cons h
    have hfirst := does_turn hm hturn
    have hrest := ih (hfirst.sound hm) h
    refine ⟨?_, hrest.named⟩
    rw [deeds_cons hturn]
    exact hfirst.effects.trans hrest.effects

theorem roster_empty (ch : Channel) : Store.empty.roster ch = .empty := by
  have hrecord (id : RecordId) : Store.empty.record id = default := by
    simp only [Store.record, Store.empty, Array.getD_eq_getD_getElem?]
    cases id.number <;> rfl
  cases ch with
  | changes id | requests id => simp only [roster, hrecord]; rfl
  | _ => rfl

theorem sound_initial : initial.Sound := by
  refine ⟨⟨⟨fun ch => ?_, List.nodup_nil, fun p hp => ?_, fun g x _ => ?_, fun n => Binder.fit_default,
    fun n hn => ?_⟩, fun ch => ?_⟩, ?_⟩
  · exact roster_empty ch ▸ Roster.sound_empty
  · exact absurd hp List.not_mem_nil
  · have hposts : Store.empty.posts ++ [] = [] := rfl
    simp only [Held, initial, Session.empty, Workspace.empty, roster_empty, hposts]
    exact ⟨fun h => absurd h Roster.holds_empty, fun h => absurd h.1 List.not_mem_nil⟩
  · cases hn
  · exact (roster_empty ch).symm ▸ Roster.pinsBelow_empty _
  · refine ⟨List.nodup_nil, fun entry hentry => absurd hentry List.not_mem_nil, fun n hn => ?_, fun v c hv => ?_⟩
    · cases hn
    · cases hv

theorem Reached.sound (h : m.Reached) : m.Sound := by
  obtain ⟨turns, hwalk⟩ := h
  exact (walk_does sound_initial hwalk).sound sound_initial

/-- What a run reaches goes on. -/
theorem Reached.walk (h : m.Reached) {turns : List Turn} (hwalk : m.walk? turns = some m') : m'.Reached := by
  obtain ⟨before, hbefore⟩ := h
  refine ⟨before ++ turns, ?_⟩
  rw [walk?_append, hbefore]
  exact hwalk

/-! ## Sessions of a host -/

/-- Carrying out everything that is left to do is a run of steps. -/
theorem walk?_run (m : Machine) : ∃ turns, m.walk? turns = some m.run := by
  fun_induction run m with
  | case1 m => exact ⟨[], rfl⟩
  | case2 m next h ih =>
    obtain ⟨turns, hwalk⟩ := ih
    refine ⟨.step :: turns, ?_⟩
    simp only [walk?, turn?, h, Option.bind_some, hwalk]

/-- A session between two commands of the host, in some run. -/
def Between (s : Session) : Prop := ∃ m : Machine, m.Reached ∧ m.stack = [] ∧ m.session = s

theorem between_run {s : Session} (h : Between s) (c : Command) : Between (s.run c).1 := by
  obtain ⟨m, hm, hidle, rfl⟩ := h
  obtain ⟨turns, hwalk⟩ := walk?_run (.start m.session c)
  have hgiven : m.walk? (.command c :: turns) = some (start m.session c).run := by
    simp only [walk?, turn?, hidle, List.isEmpty_nil, if_true, Option.bind_some, hwalk]
  exact ⟨(start m.session c).run, hm.walk hgiven, stack_run _, rfl⟩

theorem between_emptyJournal {s : Session} (h : Between s) : Between s.emptyJournal := by
  obtain ⟨m, hm, hidle, rfl⟩ := h
  have hread : m.walk? [.read] = some { m with session := m.session.emptyJournal } := by
    simp only [walk?, turn?, hidle, List.isEmpty_nil, if_true, Option.bind_some]
  exact ⟨_, hm.walk hread, hidle, rfl⟩

theorem between_runAll {s : Session} (h : Between s) (cs : List Command) : Between (s.runAll cs).1 := by
  induction cs generalizing s with
  | nil => exact h
  | cons c rest ih => exact ih (between_run h c)

/-- **The sessions of a transcript** are states of runs. -/
theorem between_row (scenario : Scenario) {s : Session} (h : Between s) (c : Command) :
    Between (scenario.row s c).1 :=
  between_runAll (between_run (between_emptyJournal h) c) scenario.watch

end Machine

end Databind
