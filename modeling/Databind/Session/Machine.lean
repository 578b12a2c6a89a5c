import Databind.Session.Command

/-!
# `Session.Machine` — carrying out commands step by step

A machine is a session with a stack of what is left to do: tasks of the command being carried out, and the
rest of each script that is running. One step carries out the top of the stack. A callback called in the
middle of a notification puts its script on top, so it runs to its end before the notification goes on.

Between two steps the session is a complete state; nothing is hidden in the middle of a notification but
the pins it holds. `Machine.run` steps until the stack is empty. It ends because every step decreases
`Machine.measure`: first what commands and callbacks may still cost, then the elements still to be
fired at, the handlers and requests waiting, the listeners waiting, and the height of the stack.

## Main definitions

* `Machine.step?` — one step.
* `Machine.measure`, `Machine.measure_step` — every step decreases the measure.
* `Machine.run` — all steps.
-/

namespace Databind

/-- A workspace with the callbacks of the host. -/
structure Session where
  workspace : Workspace
  callbacks : List Callback

/-- One level of what is left to do. -/
inductive Frame where
  | task (t : Task)
  | script (rest : List Command)

/-- A session in the middle of a command. -/
structure Machine where
  session : Session
  stack : List Frame
  /-- The answer of the outermost command, once it is given. -/
  answer : Outcome

namespace Session

/-- The session without objects. -/
def empty : Session := ⟨.empty, []⟩

/-- The session with another store. -/
def withStore (s : Session) (store : Store) : Session :=
  { s with workspace := s.workspace.withStore store }

/-- The session with one more event in its journal. -/
def observe (s : Session) (event : Event) : Session := s.withStore (s.workspace.store.observe event)

/-- Begin a command: its effect so far, and what is left to do. -/
def perform (s : Session) : Command → Session × List Task
  | .act action =>
    let (workspace, tasks) := action.perform s.workspace
    ({ s with workspace }, tasks)
  | .listen site as tag script limit =>
    match s.workspace.subscribeAt s.callbacks.length site with
    | .error outcome => (s, [.reply outcome])
    | .ok (store, guard) =>
      ({ workspace := (s.workspace.withStore store).assign as (.subscription guard)
         callbacks := s.callbacks ++ [⟨tag, script, limit⟩] }, [.reply .done])

/-- Call a callback: the call is recorded, and its script runs if calls are left. -/
def call (s : Session) (n : Nat) (report : Report) : Session × List Frame :=
  match s.callbacks[n]? with
  | none => (s, [])
  | some callback =>
    let s := s.observe (.call callback.tag report)
    match callback.remaining with
    | 0 => (s, [])
    | remaining + 1 =>
      ({ s with callbacks := s.callbacks.set n { callback with remaining } }, [.script callback.script])

/-- What a notification tells a callback. -/
def reportOf : Signal → Report
  | .changed set => .names set.names
  | .render => .nothing
  | .removed id => .member id
  | .reset => .nothing
  | .emitted text => .text text

/-- A binder hears a notification; a retired binder hears nothing. -/
def react (s : Store) (listener : Listener) (signal : Signal) : Store :=
  match listener, signal with
  | .repaint n id, .changed set => if (s.binder n).retired then s else s.onChange n id set
  | .repaintAll n id, .render => if (s.binder n).retired then s else s.onRequest n id
  | .dropMember n, .removed id =>
    if (s.binder n).retired then s else (s.log (.memberRemoved id)).unbindAll n (some id)
  | .dropAll n, .reset => if (s.binder n).retired then s else (s.log .detachingBindings).detach n
  | _, _ => s

/-- A listener hears a notification. -/
def hear (s : Session) (listener : Listener) (signal : Signal) : Session × List Frame :=
  match listener with
  | .callback n => s.call n (reportOf signal)
  | other => (s.withStore (react s.workspace.store other signal), [])

/-- What an event passing an element tells a callback. -/
def eventReport (store : Store) (tree : Nat) (event : String) (x : Nat) : Report :=
  let c := (store.arena tree).content x
  .event event (c.attribute? "id") c.value

/-- A handler meets an event at an element. -/
def meet (s : Session) (tree : Nat) (event : String) (handler : EventHandler) (x : Nat) :
    Session × List Frame :=
  match handler with
  | .callback n => s.call n (eventReport s.workspace.store tree event x)
  | .writeBack context =>
    let (store, tasks) := s.workspace.store.writeBack tree event context x
    (s.withStore store, tasks.map .task)

end Session

namespace Machine

/-- A command whose own effect is done and whose tasks are left. -/
def start (s : Session) (c : Command) : Machine :=
  let (session, tasks) := s.perform c
  ⟨session, tasks.map .task, .done⟩

/-- Give the answer of a command: to the outside if nothing else is left, and to the journal if the command
stands in a script. -/
def deliver (m : Machine) (rest : List Frame) (outcome : Outcome) : Machine :=
  match rest with
  | [] => { m with stack := [], answer := outcome }
  | _ => { m with session := m.session.observe (.did outcome), stack := rest }

/-- Carry out one task that is on top of the stack. -/
def runTask (m : Machine) (rest : List Frame) : Task → Machine
  | .reply outcome => m.deliver rest outcome
  | .request id =>
    let (store, task) := m.session.workspace.store.notify (.requests id) .render
    { m with session := m.session.withStore store, stack := .task task :: rest }
  | .trigger _ _ [] count => { m with stack := .task (.reply (.count count)) :: rest }
  | .trigger event tree (x :: xs) count =>
    let (store, task, n) := m.session.workspace.store.fire tree event x
    { m with
      session := m.session.withStore store
      stack := .task task :: .task (.trigger event tree xs (count + n)) :: rest }
  | .notify channel pinned _ [] =>
    { m with
      session := m.session.withStore (m.session.workspace.store.finish channel pinned), stack := rest }
  | .notify channel pinned signal (listener :: waiting) =>
    let (session, frames) := m.session.hear listener signal
    { m with session, stack := frames ++ .task (.notify channel pinned signal waiting) :: rest }
  | .dispatch tree pinned _ [] =>
    { m with
      session := m.session.withStore (m.session.workspace.store.finish (.delegations tree) pinned)
      stack := rest }
  | .dispatch tree pinned event ((handler, x) :: waiting) =>
    let (session, frames) := m.session.meet tree event handler x
    { m with session, stack := frames ++ .task (.dispatch tree pinned event waiting) :: rest }

/-- One step; none when nothing is left to do. -/
def step? (m : Machine) : Option Machine :=
  match m.stack with
  | [] => none
  | .script [] :: rest => some { m with stack := rest }
  | .script (c :: cs) :: rest =>
    let (session, tasks) := m.session.perform c
    some { m with session, stack := tasks.map .task ++ .script cs :: rest }
  | .task t :: rest => some (m.runTask rest t)

/-! ## Every run ends -/

end Machine

namespace Task

/-- The elements that an event is still to be fired at, and one for the answer. -/
def targets : Task → Nat
  | trigger _ _ xs _ => xs.length + 1
  | _ => 0

/-- The handlers still to be called. -/
def handlers : Task → Nat
  | dispatch _ _ _ rest => rest.length
  | _ => 0

/-- The requests that wait. -/
def requests : Task → Nat
  | request _ => 1
  | _ => 0

/-- The listeners still to be called. -/
def waiting : Task → Nat
  | notify _ _ _ rest => rest.length
  | _ => 0

end Task

namespace Frame

/-- The sum of a weight over the tasks of a stack. -/
def total (weight : Task → Nat) : List Frame → Nat
  | [] => 0
  | .task t :: rest => weight t + total weight rest
  | .script _ :: rest => total weight rest

/-- What the scripts of a stack may still cost. -/
def cost : List Frame → Nat
  | [] => 0
  | .task _ :: rest => cost rest
  | .script cs :: rest => scriptCost cs + cost rest

theorem total_append (weight : Task → Nat) (a b : List Frame) :
    total weight (a ++ b) = total weight a + total weight b := by
  induction a with
  | nil => simp [total]
  | cons f rest ih =>
    cases f with
    | task t => simp only [List.cons_append, total, ih]; omega
    | script cs => simp only [List.cons_append, total, ih]

theorem cost_append (a b : List Frame) : cost (a ++ b) = cost a + cost b := by
  induction a with
  | nil => simp [cost]
  | cons f rest ih =>
    cases f with
    | task t => simp only [List.cons_append, cost, ih]
    | script cs => simp only [List.cons_append, cost, ih]; omega

theorem cost_tasks (ts : List Task) : cost (ts.map .task) = 0 := by
  induction ts with
  | nil => rfl
  | cons t rest ih => simpa [cost] using ih

theorem total_tasks_eq_zero {weight : Task → Nat} {ts : List Task} (h : ∀ t ∈ ts, weight t = 0) :
    total weight (ts.map .task) = 0 := by
  induction ts with
  | nil => rfl
  | cons t rest ih =>
    simp only [List.map_cons, total, h t List.mem_cons_self, Nat.zero_add]
    exact ih fun t ht => h t (List.mem_cons_of_mem _ ht)

end Frame

namespace Session

/-- What callbacks may still cost. -/
def callbacksCost : List Callback → Nat
  | [] => 0
  | c :: rest => c.cost + callbacksCost rest

theorem callbacksCost_append (a b : List Callback) :
    callbacksCost (a ++ b) = callbacksCost a + callbacksCost b := by
  induction a with
  | nil => simp [callbacksCost]
  | cons c rest ih =>
    simp only [List.cons_append, callbacksCost, ih]
    omega

/-- Replacing a callback adds what the new one may cost and takes away what the old one may. -/
theorem callbacksCost_set {cs : List Callback} {n : Nat} {old : Callback} (new : Callback)
    (h : cs[n]? = some old) : callbacksCost (cs.set n new) + old.cost = callbacksCost cs + new.cost := by
  induction cs generalizing n with
  | nil => simp at h
  | cons c rest ih =>
    cases n with
    | zero =>
      simp only [List.getElem?_cons_zero, Option.some.injEq] at h
      subst h
      simp only [List.set_cons_zero, callbacksCost]
      omega
    | succ n =>
      simp only [List.getElem?_cons_succ] at h
      have := ih h
      simp only [List.set_cons_succ, callbacksCost]
      omega

/-- What the callbacks of a session may still cost. -/
def cost (s : Session) : Nat := callbacksCost s.callbacks

theorem cost_perform (s : Session) (c : Command) : (s.perform c).1.cost < s.cost + c.cost := by
  cases c with
  | act action => simp [perform, cost, Command.cost]
  | listen site as tag script limit =>
    simp only [perform]
    split
    · have := Command.cost_pos (.listen site as tag script limit)
      simp only; omega
    · simp only [cost, callbacksCost_append, callbacksCost, Callback.cost, Command.cost]
      omega

/-- A call costs its script, or leaves everything but the journal. -/
theorem cost_call (s : Session) (n : Nat) (report : Report) :
    (s.call n report).1.cost + Frame.cost (s.call n report).2 < s.cost ∨
      (s.call n report).1.cost = s.cost ∧ (s.call n report).2 = [] := by
  simp only [call]
  split
  · exact .inr ⟨rfl, rfl⟩
  · next callback hget =>
    split
    · exact .inr ⟨rfl, rfl⟩
    · next remaining hremaining =>
      refine .inl ?_
      have hsum := callbacksCost_set { callback with remaining } hget
      simp only [cost, observe, withStore, Frame.cost]
      simp only [Callback.cost, hremaining, Nat.succ_mul] at hsum
      omega

/-- The frames of a call are scripts. -/
theorem total_call (weight : Task → Nat) (s : Session) (n : Nat) (report : Report) :
    Frame.total weight (s.call n report).2 = 0 := by
  simp only [call]
  split
  · rfl
  · split <;> rfl

/-- Hearing a notification costs a script, or leaves nothing to do. -/
theorem cost_hear (s : Session) (listener : Listener) (signal : Signal) :
    (s.hear listener signal).1.cost + Frame.cost (s.hear listener signal).2 < s.cost ∨
      (s.hear listener signal).1.cost = s.cost ∧ (s.hear listener signal).2 = [] := by
  cases listener with
  | callback n => exact cost_call s n _
  | _ => exact .inr ⟨rfl, rfl⟩

/-- Hearing a notification leaves no tasks. -/
theorem total_hear (weight : Task → Nat) (s : Session) (listener : Listener) (signal : Signal) :
    Frame.total weight (s.hear listener signal).2 = 0 := by
  cases listener with
  | callback n => exact total_call weight s n _
  | _ => rfl

end Session

/-- A write leaves notifications and requests only. -/
theorem Store.targets_write (s : Store) (id : RecordId) (entries : List (String × Value)) :
    ∀ t ∈ (s.write id entries).2, t.targets = 0 ∧ t.handlers = 0 := by
  have later (rs : List (String × String)) :
      ∀ t ∈ (if rs.isEmpty then [] else [Task.request id]), t.targets = 0 ∧ t.handlers = 0 := by
    intro t ht
    split at ht
    · simp at ht
    · exact List.mem_singleton.1 ht ▸ ⟨rfl, rfl⟩
  intro t ht
  simp only [Store.write] at ht
  split at ht
  · simp at ht
  · split at ht
    · exact later _ t ht
    · rcases List.mem_cons.1 ht with rfl | ht
      · exact ⟨rfl, rfl⟩
      · exact later _ t ht

namespace Session

/-- Meeting an event costs a script, or costs nothing. -/
theorem cost_meet (s : Session) (tree : Nat) (event : String) (handler : EventHandler) (x : Nat) :
    (s.meet tree event handler x).1.cost + Frame.cost (s.meet tree event handler x).2 < s.cost ∨
      (s.meet tree event handler x).1.cost + Frame.cost (s.meet tree event handler x).2 = s.cost := by
  cases handler with
  | callback n =>
    rcases cost_call s n (eventReport s.workspace.store tree event x) with hlt | ⟨heq, hnil⟩
    · exact .inl hlt
    · exact .inr (by simp only [meet, heq, hnil, Frame.cost, Nat.add_zero])
  | writeBack context => exact .inr (by simp only [meet, Frame.cost_tasks, Nat.add_zero]; rfl)

/-- Meeting an event fires no other. -/
theorem targets_meet (s : Session) (tree : Nat) (event : String) (handler : EventHandler) (x : Nat) :
    Frame.total Task.targets (s.meet tree event handler x).2 = 0 := by
  cases handler with
  | callback n => exact total_call _ s n _
  | writeBack context =>
    exact Frame.total_tasks_eq_zero fun t ht => (Store.targets_write _ _ _ t ht).1

/-- Meeting an event calls no other handlers. -/
theorem handlers_meet (s : Session) (tree : Nat) (event : String) (handler : EventHandler) (x : Nat) :
    Frame.total Task.handlers (s.meet tree event handler x).2 = 0 := by
  cases handler with
  | callback n => exact total_call _ s n _
  | writeBack context =>
    exact Frame.total_tasks_eq_zero fun t ht => (Store.targets_write _ _ _ t ht).2

end Session

namespace Machine

/-- What decreases from step to step, the more important first. -/
def measure (m : Machine) : Nat × Nat × Nat × Nat × Nat × Nat :=
  (m.session.cost + Frame.cost m.stack, Frame.total Task.targets m.stack,
    Frame.total Task.handlers m.stack, Frame.total Task.requests m.stack,
    Frame.total Task.waiting m.stack, m.stack.length)

/-- The order of measures: lexicographic. -/
theorem rel_of_lt {a b c d e f a' b' c' d' e' f' : Nat}
    (h : a < a' ∨ a = a' ∧ (b < b' ∨ b = b' ∧ (c < c' ∨ c = c' ∧ (d < d' ∨ d = d' ∧
      (e < e' ∨ e = e' ∧ f < f'))))) :
    WellFoundedRelation.rel (a, b, c, d, e, f) (a', b', c', d', e', f') := by
  simp only [WellFoundedRelation.rel, Prod.lex_def]
  exact h

/-- A level of the stack that is done with. -/
theorem measure_tail {m next : Machine} {f : Frame} {rest : List Frame} (h : m.stack = f :: rest)
    (hcost : next.session.cost = m.session.cost) (hstack : next.stack = rest) :
    WellFoundedRelation.rel next.measure m.measure := by
  cases f with
  | task t =>
    simp only [measure, hcost, hstack, h, Frame.cost, Frame.total, List.length_cons]
    refine rel_of_lt ?_
    simp only [true_and]
    omega
  | script cs =>
    simp only [measure, hcost, hstack, h, Frame.cost, Frame.total, List.length_cons]
    refine rel_of_lt ?_
    simp only [true_and]
    omega

theorem measure_deliver (m : Machine) (rest : List Frame) (outcome : Outcome)
    (h : m.stack = .task (.reply outcome) :: rest) :
    WellFoundedRelation.rel (m.deliver rest outcome).measure m.measure :=
  measure_tail h (by cases rest <;> rfl) (by cases rest <;> rfl)

theorem measure_notify (m : Machine) (channel : Channel) (pinned : List Nat) (signal : Signal)
    (listener : Listener) (waiting : List Listener) (rest : List Frame)
    (h : m.stack = .task (.notify channel pinned signal (listener :: waiting)) :: rest) :
    WellFoundedRelation.rel (m.runTask rest (.notify channel pinned signal (listener :: waiting))).measure
      m.measure := by
  have hcost := m.session.cost_hear listener signal
  have htotal := fun weight => Session.total_hear weight m.session listener signal
  simp only [runTask, measure, h, Frame.cost_append, Frame.total_append, htotal, Frame.cost, Frame.total,
    List.length_append, List.length_cons]
  refine rel_of_lt ?_
  rcases hcost with hlt | ⟨heq, hnil⟩
  · exact .inl (by omega)
  · simp only [heq, hnil, Frame.cost, List.length_nil, Task.targets, Task.handlers, Task.requests,
      Task.waiting, List.length_cons]
    omega

theorem measure_dispatch (m : Machine) (tree : Nat) (pinned : List Nat) (event : String)
    (handler : EventHandler) (x : Nat) (waiting : List (EventHandler × Nat)) (rest : List Frame)
    (h : m.stack = .task (.dispatch tree pinned event ((handler, x) :: waiting)) :: rest) :
    WellFoundedRelation.rel
      (m.runTask rest (.dispatch tree pinned event ((handler, x) :: waiting))).measure m.measure := by
  have hcost := m.session.cost_meet tree event handler x
  have htargets := m.session.targets_meet tree event handler x
  have hhandlers := m.session.handlers_meet tree event handler x
  simp only [runTask, measure, h, Frame.cost_append, Frame.total_append, htargets, hhandlers, Frame.cost,
    Frame.total]
  refine rel_of_lt ?_
  rcases hcost with hlt | heq
  · exact .inl (by omega)
  · simp only [← heq, Task.targets, Task.handlers, List.length_cons]
    omega

/-- A task decreases the measure. -/
theorem measure_runTask (m : Machine) (t : Task) (rest : List Frame) (h : m.stack = .task t :: rest) :
    WellFoundedRelation.rel (m.runTask rest t).measure m.measure := by
  cases t with
  | reply outcome => exact measure_deliver m rest outcome h
  | request id =>
    -- one request less
    simp only [runTask, Store.notify, measure, h, Frame.cost, Frame.total]
    refine rel_of_lt ?_
    simp only [Session.withStore, Session.cost, Task.targets, Task.handlers, Task.requests, true_and]
    omega
  | trigger event tree xs count =>
    cases xs with
    | nil =>
      -- the answer takes the place of the last target
      simp only [runTask, measure, h, Frame.cost, Frame.total]
      refine rel_of_lt ?_
      simp only [Task.targets, List.length_nil, true_and]
      omega
    | cons x xs =>
      -- one target less, however many handlers wait for the event
      simp only [runTask, Store.fire, measure, h, Frame.cost, Frame.total]
      refine rel_of_lt ?_
      simp only [Session.withStore, Session.cost, Task.targets, List.length_cons, true_and]
      omega
  | notify channel pinned signal waiting =>
    cases waiting with
    | nil => exact measure_tail h rfl rfl
    | cons listener waiting => exact measure_notify m channel pinned signal listener waiting rest h
  | dispatch tree pinned event waiting =>
    cases waiting with
    | nil => exact measure_tail h rfl rfl
    | cons met waiting => exact measure_dispatch m tree pinned event met.1 met.2 waiting rest h

/-- **Every step decreases the measure.** -/
theorem measure_step {m next : Machine} (h : m.step? = some next) :
    WellFoundedRelation.rel next.measure m.measure := by
  simp only [step?] at h
  split at h
  · cases h
  · next rest hstack =>
    cases h
    exact measure_tail hstack rfl rfl
  · next c cs rest hstack =>
    cases h
    -- what the command may cost was counted in the script
    have hcost := m.session.cost_perform c
    simp only [measure, hstack, Frame.cost_append, Frame.cost_tasks, Frame.cost, scriptCost]
    exact rel_of_lt (.inl (by omega))
  · next t rest hstack =>
    cases h
    exact measure_runTask m t rest hstack

/-- **Carry out everything that is left to do.** -/
def run (m : Machine) : Machine :=
  match _h : m.step? with
  | none => m
  | some next => next.run
termination_by m.measure
decreasing_by exact measure_step _h

/-- A run ends with nothing left to do. -/
theorem stack_run (m : Machine) : m.run.stack = [] := by
  fun_induction run m with
  | case1 m h =>
    simp only [step?] at h
    split at h <;> simp_all
  | case2 m next h ih => exact ih

end Machine

end Databind
