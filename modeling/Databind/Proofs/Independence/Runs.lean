import Databind.Proofs.Independence.Commands
import Databind.Proofs.Query

/-!
# `Proofs.Independence.Runs` — runs side by side

Two machines that are the same but for the stranger run side by side. A step of either is matched by a step of the
other, except where a notification reaches a listener of the stranger: that step is made alone, and shows nowhere but
in the stranger. Before a step is matched, the other machine catches up with such steps of its own.

## Main definitions

* `Machine.Twin` — two machines that are the same but for the stranger.
* `Machine.Discreet` — a run whose commands carry nothing over from the stranger.
* `Machine.Matches` — what two runs have in common.
-/

namespace Databind

open Store Workspace

/-- One level of what is left to do, on both sides. -/
inductive Frame.Twin (b : Stranger) (s s' : Store) : Frame → Frame → Prop
  | task {x x' : Task} (hx : x.Twin b s s' x') : Frame.Twin b s s' (.task x) (.task x')
  | script (rest : List Command) : Frame.Twin b s s' (.script rest) (.script rest)

/-- **Two machines are the same but for the stranger.** -/
structure Machine.Twin (b : Stranger) (m m' : Machine) : Prop where
  workspace : m.session.workspace.Twin b m'.session.workspace
  callbacks : m.session.callbacks = m'.session.callbacks
  stack : List.Forall₂ (Frame.Twin b m.store m'.store) m.stack m'.stack

/-- Something done to both sessions, with what is put on top of the stack. -/
structure Session.Together (b : Stranger) (s s' : Store) (r r' : Session × List Frame) : Prop where
  workspace : r.1.workspace.Twin b r'.1.workspace
  callbacks : r.1.callbacks = r'.1.callbacks
  paired : Paired b s s' r.1.workspace.store r'.1.workspace.store
  frames : List.Forall₂ (Frame.Twin b r.1.workspace.store r'.1.workspace.store) r.2 r'.2

/-- Whether a turn asks something of a machine; all others are its own steps. -/
def Turn.isAsked : Turn → Bool
  | .step => false
  | _ => true

variable {b : Stranger}

theorem Frame.Twin.symm {s s' : Store} {f f' : Frame} (h : f.Twin b s s' f') : f'.Twin b s' s f := by
  cases h with
  | script rest => exact .script rest
  | task hx =>
    refine .task ?_
    cases hx with
    | notify signal hch hpinned hrest => exact .notify signal hch hpinned.symm hrest.symm
    | dispatch hk pinned event rest => exact .dispatch hk pinned event rest
    | request id => exact .request id
    | trigger hk event targets count => exact .trigger hk event targets count
    | reply outcome outcome' => exact .reply outcome' outcome

theorem Store.Paired.frame {s s' t t' : Store} (h : Paired b s s' t t') {f f' : Frame} (hf : f.Twin b s s' f') :
    f.Twin b t t' f' := by
  cases hf with
  | task hx => exact .task (h.task hx)
  | script rest => exact .script rest

theorem frames_of_tasks {s s' : Store} {tasks tasks' : List Task} (h : List.Forall₂ (Task.Twin b s s') tasks tasks') :
    List.Forall₂ (Frame.Twin b s s') (tasks.map .task) (tasks'.map .task) :=
  List.rel_map (R := Task.Twin b s s') (fun _ _ hx => .task hx) h

namespace Session

variable {x x' : Session} {s s' : Store}

theorem Together.of_store (h : x.workspace.Twin b x'.workspace) (hcallbacks : x.callbacks = x'.callbacks)
    (hp : Paired b x.workspace.store x'.workspace.store s s') {frames frames' : List Frame}
    (hframes : List.Forall₂ (Frame.Twin b s s') frames frames') :
    Together b x.workspace.store x'.workspace.store (x.withStore s, frames) (x'.withStore s', frames') :=
  ⟨h.withStore hp, hcallbacks, hp, hframes⟩

/-- **A callback is called on both sides.** -/
theorem call_together (h : x.workspace.Twin b x'.workspace) (hcallbacks : x.callbacks = x'.callbacks) (n : Nat)
    (report : Report) : Together b x.workspace.store x'.workspace.store (x.call n report) (x'.call n report) := by
  unfold Session.call
  rw [hcallbacks]
  split
  · exact ⟨h, hcallbacks, .refl h.store, .nil⟩
  · next callback _ =>
    have hobserved := h.store.hushed (.observe _ (.call callback.tag report)) (.observe _ (.call callback.tag report))
    split
    · exact .of_store h hcallbacks hobserved .nil
    · next remaining _ =>
      have hset := congrArg (fun cs : List Callback => cs.set n { callback with remaining }) hcallbacks
      exact ⟨h.withStore hobserved, hset, hobserved, .cons (.script _) .nil⟩

/-- **A listener that is not the stranger's hears a notification on both sides.** -/
theorem hear_together (h : x.workspace.Twin b x'.workspace) (hcallbacks : x.callbacks = x'.callbacks) {l : Listener}
    (hl : (Hearer.listener l).isOf b.binder = false) (signal : Signal) :
    Together b x.workspace.store x'.workspace.store (x.hear l signal) (x'.hear l signal) := by
  cases l with
  | callback n => exact call_together h hcallbacks n _
  | _ => exact .of_store h hcallbacks (h.store.react hl signal) .nil

/-- **A handler meets an event on both sides**, in a tree that is not the stranger's. -/
theorem meet_together (h : x.workspace.Twin b x'.workspace) (hcallbacks : x.callbacks = x'.callbacks) {k : Nat}
    (hk : k ≠ b.tree) (event : String) (handler : EventHandler) (e : Nat) :
    Together b x.workspace.store x'.workspace.store (x.meet k event handler e) (x'.meet k event handler e) := by
  cases handler with
  | callback n =>
    have hreport : eventReport x.workspace.store k event e = eventReport x'.workspace.store k event e := by
      simp only [eventReport, h.store.arena hk]
    simp only [Session.meet, hreport]
    exact call_together h hcallbacks n _
  | writeBack context =>
    have hwrite := h.store.writeBack hk event context e
    exact .of_store h hcallbacks hwrite.paired (frames_of_tasks hwrite.tasks)

end Session

namespace Machine

variable {m m' : Machine}

theorem Twin.symm (h : m.Twin b m') : m'.Twin b m :=
  ⟨h.workspace.symm, h.callbacks.symm, forall₂_symm (fun _ _ hf => hf.symm) h.stack⟩

/-- What is put on top of both stacks. -/
theorem twin_of_together {x x' : Session} {frames frames' rest rest' : List Frame} {answer answer' : Outcome}
    (h : Session.Together b m.store m'.store (x, frames) (x', frames'))
    (hrest : List.Forall₂ (Frame.Twin b m.store m'.store) rest rest') :
    Twin b ⟨x, frames ++ rest, answer⟩ ⟨x', frames' ++ rest', answer'⟩ where
  workspace := h.workspace
  callbacks := h.callbacks
  stack := List.rel_append h.frames (hrest.imp fun _ _ => h.paired.frame)

/-! ## Queries -/

/-- The same command is carried out on both sides. -/
theorem commandOf_twin (h : m.Twin b m') (t : Turn) : m.commandOf t = m'.commandOf t := by
  cases t with
  | step =>
    have hframes := h.stack
    unfold commandOf
    generalize m.stack = fs, m'.stack = fs' at hframes
    cases hframes with
    | nil => rfl
    | cons hf _ =>
      cases hf with
      | task => rfl
      | script rest => cases rest <;> rfl
  | _ => rfl

theorem commandQueries_twin {w w' : Workspace} (h : w.Twin b w') {n : Nat} (hn : n ≠ b.binder) (c : Command) :
    c.queries w n = c.queries w' n := by
  unfold Command.queries
  split
  · next binder selector =>
    have hhidden {found : Except Outcome Nat} (hfound : ∀ m, found = .ok m → m = b.binder) :
        queryTo n selector found = [] := by
      cases found with
      | error outcome => rfl
      | ok m => exact if_neg fun hm : m = n => hn (hm ▸ hfound m rfl)
    rcases h.binder? binder with heq | ⟨-, hown, hown'⟩
    · rw [heq]
    · rw [hhidden hown, hhidden hown']
  · rfl

theorem queriesOf_eq {n : Nat} (hn : n ≠ b.binder) {ds ds' : List Deed} (h : b.besides ds = b.besides ds') :
    queriesOf n ds = queriesOf n ds' := by
  unfold queriesOf
  rw [← b.actsOf_besides hn ds, h, b.actsOf_besides hn]

/-- **A binder other than the stranger asks for the same in turns with the same deeds.** -/
theorem turnQueries_twin (h : m.Twin b m') {n : Nat} (hn : n ≠ b.binder) {t : Turn}
    (hdeeds : b.besides (m.turnDeeds t) = b.besides (m'.turnDeeds t)) : m.turnQueries n t = m'.turnQueries n t := by
  have hcommand (c : Command) := commandQueries_twin h.workspace hn c
  simp only [turnQueries, commandOf_twin h t, hcommand, queriesOf_eq hn hdeeds]

/-! ## Steps of the stranger -/

/-- How many listeners the topmost notification has still to reach. -/
def lag (m : Machine) : Nat :=
  match m.stack with
  | .task x :: _ => x.waiting
  | _ => 0

/-- **A notification is about to reach a listener of the stranger.** -/
def Idle (b : Stranger) (m : Machine) : Prop :=
  ∃ ch pinned signal l waiting rest, m.stack = .task (.notify ch pinned signal (l :: waiting)) :: rest ∧
    (Hearer.listener l).isOf b.binder = true

theorem hear_aside {x : Session} (h : x.workspace.store.Kept b) {l : Listener}
    (hl : (Hearer.listener l).isOf b.binder = true) (signal : Signal) :
    ∃ s, x.hear l signal = (x.withStore s, []) ∧ x.workspace.store.Aside b s := by
  have hbinder : l.binder? = some b.binder := by simpa [Hearer.isOf] using hl
  have hreact := h.react hbinder signal
  cases l with
  | callback n => cases hbinder
  | _ => exact ⟨_, rfl, hreact⟩

/-- Nobody else asks for anything in such a step. -/
theorem turnQueries_idle (hidle : m.Idle b) (hdeeds : b.besides m.stepDeeds = []) {n : Nat} (hn : n ≠ b.binder) :
    m.turnQueries n .step = [] := by
  obtain ⟨ch, pinned, signal, l, waiting, rest, hstack, -⟩ := hidle
  have hdeeds : b.besides m.stepDeeds = b.besides [] := hdeeds
  have hnone : queriesOf n m.stepDeeds = [] := queriesOf_eq hn hdeeds
  simp only [turnQueries, turnDeeds, commandOf, hstack, hnone, Option.elim_none, List.append_nil]

/-- **A step of the stranger is made alone**, and shows nowhere else. -/
theorem twin_of_idle (h : m.Twin b m') (hidle : m.Idle b) :
    ∃ next, m.step? = some next ∧ next.Twin b m' ∧ b.besides m.stepDeeds = [] ∧ next.lag < m.lag := by
  obtain ⟨ch, pinned, signal, l, waiting, rest, hstack, hl⟩ := hidle
  obtain ⟨s, hhear, haside⟩ := hear_aside h.workspace.store.kept hl signal
  have hbinder : l.binder? = some b.binder := by simpa [Hearer.isOf] using hl
  have hp := haside.paired h.workspace.store
  have hnext : m.step? = some ⟨m.session.withStore s, .task (.notify ch pinned signal waiting) :: rest, m.answer⟩ := by
    simp only [step?, hstack, runTask, hhear, List.nil_append]
  refine ⟨_, hnext, ⟨h.workspace.withStore hp, h.callbacks, ?_⟩, ?_, ?_⟩
  · have hframes := h.stack
    rw [hstack] at hframes
    obtain ⟨f', rest', hf, hrest, hstack'⟩ := List.forall₂_cons_left_iff.mp hframes
    rw [hstack']
    refine .cons ?_ (hrest.imp fun _ _ => hp.frame)
    cases hf with
    | task hx =>
      cases hx with
      | notify _ hch hpinned hothers =>
        have hskip : others b.binder (l :: waiting) = others b.binder waiting := List.filter_cons_of_neg (by simp [hl])
        exact .task (.notify signal hch (hp.ties _ _ _ hpinned) (hskip ▸ hothers))
  · unfold stepDeeds
    rw [hstack]
    exact besides_reactDeeds _ hbinder signal
  · simp only [lag, hstack, Task.waiting, List.length_cons, Nat.lt_succ_self]

/-- **Either machine catches up** with its own steps until no step of the stranger is due. -/
theorem catch_up (h : m.Twin b m') :
    ∃ k next, m.walk? (List.replicate k .step) = some next ∧ next.Twin b m' ∧ ¬next.Idle b ∧
      b.besides (m.deeds (List.replicate k .step)) = [] ∧
      ∀ n, n ≠ b.binder → m.queries n (List.replicate k .step) = [] := by
  generalize hlag : m.lag = lag
  induction lag using Nat.strongRecOn generalizing m with
  | ind lag ih =>
    by_cases hidle : m.Idle b
    · obtain ⟨next, hstep, htwin, hdeeds, hless⟩ := twin_of_idle h hidle
      obtain ⟨k, last, hwalk, hlast, hbusy, hrest, hqueries⟩ := ih next.lag (hlag ▸ hless) htwin rfl
      have hturn : m.turn? .step = some next := hstep
      refine ⟨k + 1, last, ?_, hlast, hbusy, ?_, fun n hn => ?_⟩
      · simp only [List.replicate_succ, walk?, hturn, Option.bind_some, hwalk]
      · rw [List.replicate_succ, deeds_cons hturn, turnDeeds, b.besides_append, hdeeds, hrest, List.append_nil]
      · rw [List.replicate_succ, queries_cons hturn, turnQueries_idle hidle hdeeds hn, hqueries n hn, List.append_nil]
    · exact ⟨0, m, rfl, h, hidle, rfl, fun _ _ => rfl⟩

/-! ## Matched steps -/

/-- The deeds of one task. -/
def taskDeeds (m : Machine) : Task → List Deed
  | .notify _ _ signal (listener :: _) => m.store.reactDeeds listener signal
  | .dispatch _ _ _ ((handler, _) :: _) => m.session.meetDeeds handler
  | _ => []

theorem stepDeeds_of_task {x : Task} {rest : List Frame} (h : m.stack = .task x :: rest) :
    m.stepDeeds = m.taskDeeds x := by
  unfold stepDeeds taskDeeds
  rw [h]
  rcases x with ⟨_, _, _, _ | _⟩ | ⟨_, _, _, _ | _⟩ | _ | _ | _ <;> rfl

section Matched

variable (h : m.Twin b m') {rest rest' : List Frame} (hrest : List.Forall₂ (Frame.Twin b m.store m'.store) rest rest')
include h hrest

/-- An answer is given on both sides. -/
theorem deliver_twin (outcome outcome' : Outcome) : Twin b (m.deliver rest outcome) (m'.deliver rest' outcome') := by
  cases hrest with
  | nil => exact ⟨h.workspace, h.callbacks, .nil⟩
  | cons hf hrest =>
    have hobserved := h.workspace.store.hushed (.observe _ (.did outcome)) (.observe _ (.did outcome'))
    exact ⟨h.workspace.withStore hobserved, h.callbacks, (List.Forall₂.cons hf hrest).imp fun _ _ => hobserved.frame⟩

/-- **The same task is carried out on both sides.** -/
theorem runTask_twin {x x' : Task} (hx : x.Twin b m.store m'.store x')
    (hbusy : ∀ ch pinned signal l waiting, x = .notify ch pinned signal (l :: waiting) →
      (Hearer.listener l).isOf b.binder = false)
    (hbusy' : ∀ ch pinned signal l waiting, x' = .notify ch pinned signal (l :: waiting) →
      (Hearer.listener l).isOf b.binder = false) :
    Twin b (m.runTask rest x) (m'.runTask rest' x') ∧ b.besides (m.taskDeeds x) = b.besides (m'.taskDeeds x') := by
  have hstore := h.workspace.store
  cases hx with
  | reply outcome outcome' => exact ⟨deliver_twin h hrest outcome outcome', rfl⟩
  | request id =>
    obtain ⟨hp, htask⟩ := hstore.notify (.requests id) rfl .render
    exact ⟨twin_of_together (.of_store h.workspace h.callbacks hp (.cons (.task htask) .nil)) hrest, rfl⟩
  | @trigger k hk event targets count =>
    cases targets with
    | nil => exact ⟨⟨h.workspace, h.callbacks, .cons (.task (.reply _ _)) hrest⟩, rfl⟩
    | cons e targets =>
      obtain ⟨hp, hsame, htask⟩ := hstore.fire hk event e
      -- both count the same handlers
      have hcount : (m.store.fire k event e).2.2 = (m'.store.fire k event e).2.2 := congrArg Prod.snd hsame
      have hlater : Task.Twin b (m.store.fire k event e).1 (m'.store.fire k event e).1
          (.trigger event k targets (count + (m.store.fire k event e).2.2))
          (.trigger event k targets (count + (m'.store.fire k event e).2.2)) := hcount ▸ .trigger hk event targets _
      have htasks := List.Forall₂.cons (Frame.Twin.task htask) (.cons (.task hlater) .nil)
      exact ⟨twin_of_together (.of_store h.workspace h.callbacks hp htasks) hrest, rfl⟩
  | @dispatch k hk pinned event waiting =>
    cases waiting with
    | nil =>
      have htied : m.store.Tied b m'.store (.delegations k) pinned pinned := ⟨nofun, fun _ _ _ => rfl⟩
      exact ⟨twin_of_together (.of_store h.workspace h.callbacks (hstore.finish htied) .nil) hrest, rfl⟩
    | cons met waiting =>
      have hmeet := Session.meet_together h.workspace h.callbacks hk event met.1 met.2
      refine ⟨twin_of_together hmeet (.cons (.task (.dispatch hk pinned event waiting)) hrest), congrArg _ ?_⟩
      obtain ⟨handler, e⟩ := met
      cases handler with
      | callback n => rfl
      | writeBack context => exact hstore.writeDeeds context.record
  | @notify ch pinned pinned' waiting waiting' signal hch hpinned hothers =>
    cases waiting with
    | nil =>
      cases waiting' with
      | nil => exact ⟨twin_of_together (.of_store h.workspace h.callbacks (hstore.finish hpinned) .nil) hrest, rfl⟩
      -- one side is at its end and the other is not, so the listener left is the stranger's
      | cons l' waiting' =>
        have hl' := hbusy' ch pinned' signal l' waiting' rfl
        simp [others, hl'] at hothers
    | cons l waiting =>
      have hl := hbusy ch pinned signal l waiting rfl
      cases waiting' with
      | nil => simp [others, hl] at hothers
      | cons l' waiting' =>
        have hl' := hbusy' ch pinned' signal l' waiting' rfl
        simp only [others, hl, hl', Bool.not_false, List.filter_cons_of_pos, List.cons.injEq] at hothers
        obtain ⟨rfl, hothers⟩ := hothers
        -- the next listener is nobody's but the same on both sides
        have hhear := Session.hear_together h.workspace h.callbacks hl signal
        refine ⟨twin_of_together hhear (.cons (.task (.notify signal hch hpinned hothers)) hrest), ?_⟩
        exact congrArg _ (hstore.reactDeeds hl signal)

end Matched

/-- **A step of either machine is matched by a step of the other**, when no step of the stranger is due. -/
theorem twin_of_step (h : m.Twin b m') (hm : m.Sound) (hm' : m'.Sound) (hbusy : ¬m.Idle b) (hbusy' : ¬m'.Idle b)
    (hdiscreet : ∀ c, m.commandOf .step = some c → c.Discreet b m.session.workspace) {next : Machine}
    (hstep : m.step? = some next) :
    ∃ next', m'.step? = some next' ∧ next.Twin b next' ∧ b.besides m.stepDeeds = b.besides m'.stepDeeds := by
  cases hstack : m.stack with
  | nil => simp [step?, hstack] at hstep
  | cons f rest =>
    have hframes := h.stack
    rw [hstack] at hframes
    obtain ⟨f', rest', hf, hrest, hstack'⟩ := List.forall₂_cons_left_iff.mp hframes
    cases hf with
    | script cs =>
      cases cs with
      | nil =>
        simp only [step?, hstack, Option.some.injEq] at hstep
        subst hstep
        have hstep' : m'.step? = some { m' with stack := rest' } := by simp only [step?, hstack']
        refine ⟨_, hstep', ⟨h.workspace, h.callbacks, hrest⟩, ?_⟩
        simp only [stepDeeds, hstack, hstack']
      | cons c cs =>
        simp only [step?, hstack, Option.some.injEq] at hstep
        subst hstep
        have hc : c.Discreet b m.session.workspace := hdiscreet c (by simp only [commandOf, hstack])
        obtain ⟨hconcert, hcallbacks⟩ := Session.perform_concert h.workspace h.callbacks hm.named hm'.named hc
        have hstep' : m'.step? = some ⟨(m'.session.perform c).1,
            (m'.session.perform c).2.map .task ++ .script cs :: rest', m'.answer⟩ := by simp only [step?, hstack']
        refine ⟨_, hstep', ?_, ?_⟩
        · exact twin_of_together ⟨hconcert.twin, hcallbacks, hconcert.paired, frames_of_tasks hconcert.tasks⟩
            (.cons (.script cs) hrest)
        · simpa only [stepDeeds, hstack, hstack'] using hconcert.deeds
    | @task x x' hx =>
      simp only [step?, hstack, Option.some.injEq] at hstep
      subst hstep
      have hstep' : m'.step? = some (m'.runTask rest' x') := by simp only [step?, hstack']
      -- neither side is about to call a listener of the stranger
      have hreach : ∀ ch pinned signal l waiting, x = .notify ch pinned signal (l :: waiting) →
          (Hearer.listener l).isOf b.binder = false := by
        rintro ch pinned signal l waiting rfl
        exact Bool.eq_false_iff.mpr fun hl => hbusy ⟨ch, pinned, signal, l, waiting, rest, hstack, hl⟩
      have hreach' : ∀ ch pinned signal l waiting, x' = .notify ch pinned signal (l :: waiting) →
          (Hearer.listener l).isOf b.binder = false := by
        rintro ch pinned signal l waiting rfl
        exact Bool.eq_false_iff.mpr fun hl => hbusy' ⟨ch, pinned, signal, l, waiting, rest', hstack', hl⟩
      obtain ⟨htwin, hdeeds⟩ := runTask_twin h hrest hx hreach hreach'
      exact ⟨_, hstep', htwin, by rw [stepDeeds_of_task hstack, stepDeeds_of_task hstack', hdeeds]⟩

/-! ## Runs -/

/-- **A run whose commands carry nothing over from the stranger**, those in scripts included. -/
def Discreet (b : Stranger) (m : Machine) : List Turn → Prop
  | [] => True
  | t :: rest =>
    (∀ c, m.commandOf t = some c → c.Discreet b m.session.workspace) ∧
      ∀ next, m.turn? t = some next → next.Discreet b rest

/-- **A turn that is no step** is taken by both machines at once. -/
theorem twin_of_asked (h : m.Twin b m') (hm : m.Sound) (hm' : m'.Sound) {t : Turn} (ht : t.isAsked = true)
    (hdiscreet : ∀ c, m.commandOf t = some c → c.Discreet b m.session.workspace) {next : Machine}
    (hturn : m.turn? t = some next) :
    ∃ next', m'.turn? t = some next' ∧ next.Twin b next' ∧ b.besides (m.turnDeeds t) = b.besides (m'.turnDeeds t) := by
  -- the stacks match level by level, so either both are empty or both have a script on top
  cases turned_of_turn hturn with
  | began c hidle =>
    have hidle' : m'.stack = [] := List.forall₂_nil_left_iff.mp (hidle ▸ h.stack)
    obtain ⟨hconcert, hcallbacks⟩ := Session.perform_concert h.workspace h.callbacks hm.named hm'.named (hdiscreet c rfl)
    have htwin : Twin b (start m.session c) (start m'.session c) :=
      ⟨hconcert.twin, hcallbacks, frames_of_tasks hconcert.tasks⟩
    exact ⟨_, by simp only [turn?, hidle', List.isEmpty_nil, if_true], htwin, hconcert.deeds⟩
  | @asked cs rest below hstack =>
    have hframes := h.stack
    rw [hstack] at hframes
    obtain ⟨f', below', hf, hbelow, hstack'⟩ := List.forall₂_cons_left_iff.mp hframes
    cases hf
    have hturn' : m'.turn? (.ask cs) = some { m' with stack := .script (cs ++ rest) :: below' } := by
      simp only [turn?, hstack']
    exact ⟨_, hturn', ⟨h.workspace, h.callbacks, .cons (.script _) hbelow⟩, rfl⟩
  | read hidle =>
    have hidle' : m'.stack = [] := List.forall₂_nil_left_iff.mp (hidle ▸ h.stack)
    have hread := h.workspace.store.hushed ⟨.empty, rfl⟩ ⟨.empty, rfl⟩
    have hturn' : m'.turn? .read = some { m' with session := m'.session.emptyJournal } := by
      simp only [turn?, hidle', List.isEmpty_nil, if_true]
    exact ⟨_, hturn', ⟨h.workspace.withStore hread, h.callbacks, h.stack.imp fun _ _ => hread.frame⟩, rfl⟩
  | ended | performed | ran => cases ht

/-- What two runs have in common: the same is asked in both, the same is done besides the stranger, and every binder but
the stranger asks its tree for the same. -/
structure Matches (b : Stranger) (m m' : Machine) (turns turns' : List Turn) : Prop where
  asked : turns'.filter Turn.isAsked = turns.filter Turn.isAsked
  deeds : b.besides (m'.deeds turns') = b.besides (m.deeds turns)
  queries : ∀ n, n ≠ b.binder → m'.queries n turns' = m.queries n turns

/-- One turn on both sides, and then more. -/
theorem Matches.cons (h : m.Twin b m') {t : Turn} {next next' : Machine} (hturn : m.turn? t = some next)
    (hturn' : m'.turn? t = some next') (hdeeds : b.besides (m.turnDeeds t) = b.besides (m'.turnDeeds t))
    {rest rest' : List Turn} (hrest : Matches b next next' rest rest') : Matches b m m' (t :: rest) (t :: rest') where
  asked := by simp only [List.filter_cons, hrest.asked]
  deeds := by
    rw [deeds_cons hturn, deeds_cons hturn', b.besides_append, b.besides_append, hdeeds, hrest.deeds]
  queries n hn := by
    rw [queries_cons hturn, queries_cons hturn', turnQueries_twin h hn hdeeds, hrest.queries n hn]

/-- **Every run of a machine is matched by a run of its twin.** -/
theorem twin_of_walk (h : m.Twin b m') (hm : m.Sound) (hm' : m'.Sound) {turns : List Turn} {last : Machine}
    (hwalk : m.walk? turns = some last) (hdiscreet : m.Discreet b turns) :
    ∃ turns' last', m'.walk? turns' = some last' ∧ last.Twin b last' ∧ Matches b m m' turns turns' := by
  induction turns generalizing m m' with
  | nil =>
    cases hwalk
    exact ⟨[], m', rfl, h, rfl, rfl, fun _ _ => rfl⟩
  | cons t rest ih =>
    obtain ⟨next, hturn, hgoes⟩ := walk?_cons hwalk
    have hnext := (does_turn hm hturn).sound hm
    have hlater := hdiscreet.2 next hturn
    cases ht : t.isAsked with
    | true =>
      obtain ⟨next', hturn', htwin, hsame⟩ := twin_of_asked h hm hm' ht hdiscreet.1 hturn
      obtain ⟨turns', last', hwalk', hlast, hrest⟩ := ih htwin hnext ((does_turn hm' hturn').sound hm') hgoes hlater
      exact ⟨t :: turns', last', by simp only [walk?, hturn', Option.bind_some, hwalk'], hlast,
        .cons h hturn hturn' hsame hrest⟩
    | false =>
      obtain rfl : t = .step := by
        cases t with
        | step => rfl
        | command | ask | read => cases ht
      by_cases hidle : m.Idle b
      · -- a step of the stranger: the other machine waits
        obtain ⟨next', hstep, htwin, hnone, -⟩ := twin_of_idle h hidle
        obtain rfl : next' = next := Option.some.inj (hstep.symm.trans hturn)
        obtain ⟨turns', last', hwalk', hlast, hrest⟩ := ih htwin hnext hm' hgoes hlater
        refine ⟨turns', last', hwalk', hlast, hrest.asked, ?_, fun n hn => ?_⟩
        · rw [Machine.deeds, hturn, b.besides_append, turnDeeds, hnone, hrest.deeds]
          rfl
        · rw [queries_cons hturn, turnQueries_idle hidle hnone hn, hrest.queries n hn, List.nil_append]
      · -- the other machine makes the steps of the stranger that are due, and then the same step
        obtain ⟨k, ready, hready, hcaught, hbusy, hskipped, hqueries⟩ := catch_up h.symm
        have hsound := (walk_does hm' hready).sound hm'
        obtain ⟨next', hstep', htwin, hsame⟩ := twin_of_step hcaught.symm hm hsound hidle hbusy hdiscreet.1 hturn
        obtain ⟨turns', last', hwalk', hlast, hrest⟩ :=
          ih htwin hnext ((does_step hsound hstep').sound hsound) hgoes hlater
        have hturn' : ready.turn? .step = some next' := hstep'
        have hmatches : Matches b m ready (.step :: rest) (.step :: turns') :=
          .cons hcaught.symm hturn hturn' hsame hrest
        refine ⟨List.replicate k .step ++ .step :: turns', last', ?_, hlast, ?_, ?_, fun n hn => ?_⟩
        · simp only [walk?_append, hready, Option.bind_some, walk?, hturn', hwalk']
        · rw [List.filter_append, hmatches.asked, List.filter_replicate]
          rfl
        · rw [deeds_append hready, b.besides_append, hskipped, hmatches.deeds, List.nil_append]
        · rw [queries_append hready, hqueries n hn, hmatches.queries n hn, List.nil_append]

end Machine

end Databind
