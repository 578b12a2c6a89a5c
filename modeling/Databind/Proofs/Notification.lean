import Databind.Proofs.Accounting
import Databind.Proofs.Writing

/-!
# `Proofs.Notification` — a notification from its beginning to its end

What a turn does to the stack it does at the top. A notification that has begun therefore runs to its end above
what was left before (`Machine.Returns`), and every command and every notification that it leads to ends before it.
The points at which nothing stands above the notification are its cut points: between two of them one listener is
called, and its script is carried out.

The result is `Machine.acts_of_notification`. If no callback does anything to a binder meanwhile, the binder does
what its own listeners do, on the fields as they were when the notification began: a callback cannot alter them
without notifying the binder again.
-/

namespace Databind

open Store

namespace Machine

variable {m m' m'' : Machine} {base below : List Frame} {turns : List Turn} {n : Nat}

/-- No notification is in progress. -/
def Silent (m : Machine) : Prop :=
  ∀ channel pinned signal waiting, Frame.task (.notify channel pinned signal waiting) ∉ m.stack

/-- A callback is running above what was left before. -/
def Interrupted (m : Machine) (base : List Frame) : Prop := ∃ top cs, m.stack = top ++ base ∧ Frame.script cs ∈ top

/-- **A run to the point where nothing is left but what was left before.** -/
inductive Returns (base : List Frame) : Machine → List Turn → Machine → Prop
  | done {m : Machine} (h : m.stack = base) : Returns base m [] m
  | turn {m m' m'' : Machine} {t : Turn} {rest : List Turn} {f : Frame} {top : List Frame}
    (habove : m.stack = f :: (top ++ base)) (hturn : m.turn? t = some m') (hrest : Returns base m' rest m'') :
    Returns base m (t :: rest) m''

/-- In a run, nothing is done to a binder while a callback is running. -/
def Undisturbed (n : Nat) (base : List Frame) (m : Machine) : List Turn → Prop
  | [] => True
  | t :: rest => (m.Interrupted base → actsOf n (m.turnDeeds t) = []) ∧
    ∀ m', m.turn? t = some m' → m'.Undisturbed n base rest

/-! ## Turns at the top of the stack -/

/-- Running a task leaves what stands below it as it is. -/
theorem runTask_local (m : Machine) (rest : List Frame) (task : Task) :
    ∃ pushed, (m.runTask rest task).stack = pushed ++ rest := by
  cases task with
  | reply outcome => exact ⟨[], by cases rest <;> rfl⟩
  | request id => exact ⟨[_], rfl⟩
  | trigger event tree xs count =>
    cases xs with
    | nil => exact ⟨[_], rfl⟩
    | cons x xs => exact ⟨[_, _], rfl⟩
  | notify channel pinned signal waiting =>
    cases waiting with
    | nil => exact ⟨[], rfl⟩
    | cons l waiting => exact ⟨(m.session.hear l signal).2 ++ [_], by rw [List.append_assoc]; rfl⟩
  | dispatch tree pinned event waiting =>
    cases waiting with
    | nil => exact ⟨[], rfl⟩
    | cons met waiting =>
      exact ⟨(m.session.meet tree event met.1 met.2).2 ++ [_], by rw [List.append_assoc]; rfl⟩

/-- **A turn leaves what stands below the top as it is.** -/
theorem turn_local {f : Frame} {rest : List Frame} (h : m.stack = f :: rest) {t : Turn}
    (hturn : m.turn? t = some m') : ∃ pushed, m'.stack = pushed ++ rest := by
  cases turned_of_turn hturn with
  | began c hidle | read hidle => cases hidle.symm.trans h
  | asked cs hstack =>
    cases hstack.symm.trans h
    exact ⟨[_], rfl⟩
  | ended hstack =>
    cases hstack.symm.trans h
    exact ⟨[], rfl⟩
  | @performed c cs _ hstack =>
    cases hstack.symm.trans h
    exact ⟨(m.session.perform c).2.map .task ++ [.script cs], by rw [List.append_assoc]; rfl⟩
  | @ran task _ hstack =>
    cases hstack.symm.trans h
    exact m.runTask_local rest task

/-- A task on top is carried on by a step. -/
theorem step_of_task {task : Task} {rest : List Frame} (h : m.stack = .task task :: rest) {t : Turn}
    (hturn : m.turn? t = some m') : t = .step ∧ m' = m.runTask rest task := by
  cases turned_of_turn hturn with
  | began c hidle | read hidle => cases hidle.symm.trans h
  | asked cs hstack | ended hstack | performed hstack => cases hstack.symm.trans h
  | ran hstack =>
    cases hstack.symm.trans h
    exact ⟨rfl, rfl⟩

/-! ## Runs that return -/

theorem Returns.walk (h : m.Returns base turns m') : m.walk? turns = some m' := by
  induction h with
  | done => rfl
  | turn _ hturn _ ih => simp only [walk?, hturn, Option.bind_some, ih]

theorem Returns.stack (h : m.Returns base turns m') : m'.stack = base := by
  induction h with
  | done h => exact h
  | turn _ _ _ ih => exact ih

/-- A run that has returned is at its end. -/
theorem Returns.of_stack (h : m.Returns base turns m') (hstack : m.stack = base) : turns = [] ∧ m' = m := by
  cases h with
  | done => exact ⟨rfl, rfl⟩
  | @turn _ _ _ _ _ f top habove _ _ =>
    have hlength := congrArg List.length (habove.symm.trans hstack)
    simp only [List.length_cons, List.length_append] at hlength
    omega

/-- **A run that returns passes through every stack in between.** -/
theorem Returns.split (h : m.Returns base turns m'') {top mid : List Frame}
    (hstack : m.stack = top ++ (mid ++ base)) :
    ∃ before behind m', turns = before ++ behind ∧ m.Returns (mid ++ base) before m' ∧
      m'.Returns base behind m'' := by
  induction h generalizing top with
  | @done m h =>
    have hnone : m.stack = mid ++ base := by
      have hlength := congrArg List.length (h.symm.trans hstack)
      simp only [List.length_append] at hlength
      rw [hstack, List.eq_nil_of_length_eq_zero (l := top) (by omega), List.nil_append]
    exact ⟨[], [], m, rfl, .done hnone, .done h⟩
  | @turn m m₁ m₂ t rest f top' habove hturn hrest ih =>
    cases top with
    | nil => exact ⟨[], t :: rest, m, rfl, .done hstack, .turn habove hturn hrest⟩
    | cons g top =>
      rw [List.cons_append] at hstack
      obtain ⟨pushed, hpushed⟩ := turn_local hstack hturn
      rw [← List.append_assoc] at hpushed
      obtain ⟨before, behind, m', rfl, hbefore, hbehind⟩ := ih hpushed
      exact ⟨t :: before, behind, m', rfl, .turn hstack hturn hbefore, hbehind⟩

/-- **A run that returns goes on from every level in between**: there is a point at which nothing stands above the level,
and from there a turn is taken. -/
theorem Returns.cut {f : Frame} (h : m.Returns base turns m'') {top : List Frame}
    (hstack : m.stack = top ++ f :: base) :
    ∃ before t behind m₁ m₂, turns = before ++ t :: behind ∧ m.Returns (f :: base) before m₁ ∧
      m₁.turn? t = some m₂ ∧ m₂.Returns base behind m'' := by
  have hmid : m.stack = top ++ ([f] ++ base) := hstack
  obtain ⟨before, behind, m₁, rfl, hbefore, hbehind⟩ := h.split hmid
  cases hbehind with
  | done hdone =>
    have hlength := congrArg List.length (hdone.symm.trans hbefore.stack)
    simp at hlength
  | @turn _ m₂ _ t rest _ _ _ hturn hrest => exact ⟨before, t, rest, m₁, m₂, rfl, hbefore, hturn, hrest⟩

theorem Undisturbed.append {before behind : List Turn} (h : m.Undisturbed n base (before ++ behind))
    (hwalk : m.walk? before = some m') : m.Undisturbed n base before ∧ m'.Undisturbed n base behind := by
  induction before generalizing m with
  | nil =>
    cases hwalk
    exact ⟨trivial, h⟩
  | cons t rest ih =>
    obtain ⟨next, hturn, hwalk⟩ := walk?_cons hwalk
    obtain ⟨hrest, hbehind⟩ := ih (h.2 next hturn) hwalk
    refine ⟨⟨h.1, fun m₁ hm₁ => ?_⟩, hbehind⟩
    cases hturn.symm.trans hm₁
    exact hrest

/-- **Every run returns**: steps alone lead back to what was left before. -/
theorem exists_returns (m : Machine) {top : List Frame} (hstack : m.stack = top ++ base) :
    ∃ turns m', m.Returns base turns m' := by
  cases top with
  | nil => exact ⟨[], m, .done hstack⟩
  | cons f top =>
    rw [List.cons_append] at hstack
    have hsome : ∃ next, m.step? = some next := by
      unfold step?
      rw [hstack]
      cases f with
      | script cs => cases cs <;> exact ⟨_, rfl⟩
      | task t => exact ⟨_, rfl⟩
    obtain ⟨next, hstep⟩ := hsome
    have hturn : m.turn? .step = some next := hstep
    obtain ⟨pushed, hpushed⟩ := turn_local hstack hturn
    rw [← List.append_assoc] at hpushed
    obtain ⟨turns, m', hreturns⟩ := exists_returns next hpushed
    exact ⟨.step :: turns, m', .turn hstack hturn hreturns⟩
termination_by m.measure
decreasing_by exact measure_step hstep

/-! ## Between two cut points -/

/-- What stands above a notification: nothing, or a script that a listener left, and what the script leads to. -/
def Inner (inner : List Frame) : Prop := inner = [] ∨ ∃ top cs, inner = top ++ [.script cs]

theorem Inner.cons {inner : List Frame} (h : Inner inner) (hne : inner ≠ []) (pushed : List Frame) :
    Inner (pushed ++ inner) := by
  rcases h with hnil | ⟨top, cs, rfl⟩
  · exact absurd hnil hne
  · exact .inr ⟨pushed ++ top, cs, by rw [List.append_assoc]⟩

/-- What stands above a notification ends in a script, which is the top or stands below it. -/
theorem Inner.uncons {f : Frame} {inner : List Frame} (h : Inner (f :: inner)) :
    (∃ cs, f = .script cs ∧ inner = []) ∨ inner ≠ [] ∧ Inner inner := by
  rcases h with hnil | ⟨top, cs, heq⟩
  · cases hnil
  · cases top with
    | nil =>
      obtain ⟨rfl, rfl⟩ := List.cons.inj heq
      exact .inl ⟨cs, rfl, rfl⟩
    | cons g top =>
      obtain ⟨rfl, rfl⟩ := List.cons.inj heq
      exact .inr ⟨by simp, .inr ⟨top, cs, rfl⟩⟩

theorem Inner.exists_script {f : Frame} {inner : List Frame} (h : Inner (f :: inner)) :
    ∃ cs, Frame.script cs ∈ f :: inner := by
  rcases h with hnil | ⟨top, cs, heq⟩
  · cases hnil
  · exact ⟨cs, heq ▸ List.mem_append_right _ (List.mem_singleton.mpr rfl)⟩

/-- What a script leaves on top ends in the rest of it. -/
theorem inner_of_script {cs : List Command} {rest pushed : List Frame} (h : m.stack = .script cs :: rest) {t : Turn}
    (hturn : m.turn? t = some m') (hpushed : m'.stack = pushed ++ rest) : Inner pushed := by
  cases turned_of_turn hturn with
  | began c hidle | read hidle => cases hidle.symm.trans h
  | @asked script _ _ hstack =>
    cases hstack.symm.trans h
    exact .inr ⟨[], script ++ cs, (List.append_left_inj rest).mp hpushed.symm⟩
  | ended hstack =>
    cases hstack.symm.trans h
    exact .inl (List.append_cancel_right (hpushed.symm.trans (List.nil_append rest).symm))
  | @performed c cs _ hstack =>
    cases hstack.symm.trans h
    refine .inr ⟨(m.session.perform c).2.map .task, cs, (List.append_left_inj rest).mp ?_⟩
    rw [List.append_assoc]
    exact hpushed.symm
  | ran hstack => cases hstack.symm.trans h

/-- A notification of a record's changes that has not reached a binder yet. -/
def Pends (n : Nat) (id : RecordId) (f : Frame) : Prop :=
  ∃ pinned set waiting, f = .task (.notify (.changes id) pinned (.changed set) waiting) ∧ .repaint n id ∈ waiting

/-- **A binder and the fields of a record are as they were**, and no change of them was counted, or the binder is still
to hear of one. -/
structure Steady (n : Nat) (b : Binder) (id : RecordId) (fields : Fields) (version : Nat) (m : Machine)
    (inner : List Frame) : Prop where
  sound : m.Sound
  binder : m.store.binder n = b
  there : id.number < m.store.records.size
  kept : m.store.fields id = fields ∧ (m.store.record id).version = version ∨ ∃ f ∈ inner, Pends n id f

/-- A binder whose listener for changes of a record is live. -/
structure Attentive (b : Binder) (id : RecordId) : Prop where
  live : b.retired = false
  registry : b.registry.Sound
  bound : b.registry.bindingsOf id ≠ []

variable {b : Binder} {id : RecordId} {fields : Fields} {version : Nat} {inner rest : List Frame}

/-- What a listener does it does to its own binder. -/
theorem binder?_of_mem_reactDeeds {s : Store} {l : Listener} {signal : Signal} {d : Deed}
    (hd : d ∈ s.reactDeeds l signal) : ∃ k a, l.binder? = some k ∧ d = .act k a := by
  have heard (k : Nat) {ds : List Deed} (hds : ∀ d ∈ ds, ∃ a, d = .act k a)
      (hmem : d ∈ if (s.binder k).retired then [] else .act k (.heard l signal) :: ds) : ∃ a, d = .act k a := by
    split at hmem
    · cases hmem
    · rcases List.mem_cons.mp hmem with rfl | hmem
      · exact ⟨_, rfl⟩
      · exact hds d hmem
  have rendered (k : Nat) (bs : List Binding) : ∀ d ∈ s.renderDeeds k bs, ∃ a, d = .act k a := by
    intro d hd
    obtain ⟨x, -, rfl⟩ := List.mem_map.mp hd
    exact ⟨_, rfl⟩
  unfold reactDeeds at hd
  simp only at hd
  split at hd
  · next k id set =>
    obtain ⟨a, rfl⟩ := heard k (rendered k _) hd
    exact ⟨k, a, rfl, rfl⟩
  · next k id =>
    obtain ⟨a, rfl⟩ := heard k (rendered k _) hd
    exact ⟨k, a, rfl, rfl⟩
  · next k id =>
    obtain ⟨a, rfl⟩ := heard k (fun d hd => ⟨_, List.mem_singleton.mp hd⟩) hd
    exact ⟨k, a, rfl, rfl⟩
  · next k =>
    obtain ⟨a, rfl⟩ := heard k (fun d hd => by
      rcases List.mem_pair.mp hd with rfl | rfl <;> exact ⟨_, rfl⟩) hd
    exact ⟨k, a, rfl, rfl⟩
  · cases hd

/-- A listener does nothing to another binder. -/
theorem actsOf_reactDeeds_of_ne (s : Store) {l : Listener} (h : l.binder? ≠ some n) (signal : Signal) :
    actsOf n (s.reactDeeds l signal) = [] := by
  refine List.filterMap_eq_nil_iff.mpr fun d hd => ?_
  obtain ⟨k, a, hk, rfl⟩ := binder?_of_mem_reactDeeds hd
  refine if_neg ?_
  rintro rfl
  exact h hk

/-- A binder that is not retired hears of changes. -/
theorem actsOf_repaint_ne_nil {s : Store} (h : (s.binder n).retired = false) (id : RecordId) (set : ChangeSet) :
    actsOf n (s.reactDeeds (.repaint n id) (.changed set)) ≠ [] := by
  simp [reactDeeds, h, actsOf]

/-- A notification that a binder has not heard goes on waiting, unless the binder hears it. -/
theorem pends_of_turn {f : Frame} (h : m.stack = f :: rest) (hpends : Pends n id f) {t : Turn}
    (hturn : m.turn? t = some m') (hquiet : actsOf n (m.turnDeeds t) = [])
    (hlive : (m.store.binder n).retired = false) {pushed : List Frame} (hpushed : m'.stack = pushed ++ rest) :
    ∃ g ∈ pushed, Pends n id g := by
  obtain ⟨pinned, set, waiting, rfl, hmem⟩ := hpends
  obtain ⟨rfl, rfl⟩ := step_of_task h hturn
  cases waiting with
  | nil => cases hmem
  | cons l waiting =>
    rcases List.mem_cons.mp hmem with rfl | hmem
    · simp only [turnDeeds, stepDeeds, h] at hquiet
      exact absurd hquiet (actsOf_repaint_ne_nil hlive id set)
    · have hstack : pushed = (m.session.hear l (.changed set)).2 ++
          [.task (.notify (.changes id) pinned (.changed set) waiting)] := by
        refine (List.append_left_inj rest).mp (hpushed.symm.trans ?_)
        rw [List.append_assoc]
        rfl
      refine ⟨_, hstack ▸ List.mem_append_right _ (List.mem_singleton.mpr rfl), ?_⟩
      exact ⟨pinned, set, waiting, rfl, hmem⟩

/-- **A batch of writes that counts as a change leaves a notification** that the binder is to hear. -/
theorem pends_of_write (hs : Steady n b id fields version m inner) (hb : Attentive b id)
    {entries : List (String × Value)} (hwrites : m.Writes id entries m' base) :
    ∃ top, m'.stack = top ++ base ∧ (m'.store.fields id = m.store.fields id ∧
      (m'.store.record id).version = (m.store.record id).version ∨ ∃ g ∈ top, Pends n id g) := by
  obtain ⟨s, hextends, -, hstore, hstack⟩ := hwrites.spec
  refine ⟨_, hstack, ?_⟩
  have hthere : id.number < s.records.size := Nat.lt_of_lt_of_le hs.there hextends.records
  rw [hstore, ← hextends.fields id hs.there, ← hextends.version id]
  cases halive : (s.record id).alive with
  | false =>
    rw [write_of_dead halive]
    exact .inl ⟨rfl, rfl⟩
  | true =>
    cases hchanged : ((s.record id).batch entries).changed.isEmpty with
    | true =>
      rw [write_of_unchanged halive hchanged]
      exact .inl ⟨(fields_stored s entries hthere).trans (Record.fields_batch hchanged),
        (version_stored halive entries).trans (if_pos hchanged)⟩
    | false =>
      rw [write_of_changed halive hchanged]
      refine .inr ⟨_, List.mem_cons_self, _, _, _, rfl, ?_⟩
      have hsound : Scene.Sound ⟨s, m.calls⟩ := (Effects.extended hextends m.calls).sound hs.sound.scene
      have hstored : Effects ⟨s, m.calls⟩ [.wrote id] ⟨s.stored id entries, m.calls⟩ := stored_effects s id entries
      have hfollows := hstored.follows hsound
      have hbinder : (s.stored id entries).binder n = b := by
        rw [hfollows.binder n rfl, hextends.binder]
        exact hs.binder
      -- storing the values alters neither the binder nor whether the record is alive
      refine mem_live_changes (hstored.sound hsound).store_wired ?_ ?_ ?_
      · exact hbinder ▸ hb.registry
      · exact (hfollows.alive id hthere (by simp)).trans halive
      · exact hbinder ▸ hb.bound

/-- **While a callback is running, the binder and the fields stay as they were**, or the binder is still to hear
that the fields did not. -/
theorem Steady.turn {f : Frame} (hs : Steady n b id fields version m (f :: inner)) (hb : Attentive b id)
    (h : m.stack = f :: (inner ++ below)) {t : Turn} (hturn : m.turn? t = some m')
    (hquiet : actsOf n (m.turnDeeds t) = []) {pushed : List Frame} (hpushed : m'.stack = pushed ++ (inner ++ below)) :
    Steady n b id fields version m' (pushed ++ inner) := by
  have hdoes := does_turn hs.sound hturn
  have hfollows := hdoes.effects.follows hs.sound.scene
  refine ⟨hdoes.sound hs.sound, (hfollows.binder n hquiet).trans hs.binder,
    Nat.lt_of_lt_of_le hs.there hfollows.records, ?_⟩
  have hlive : (m.store.binder n).retired = false := hs.binder ▸ hb.live
  rcases hs.kept with ⟨hfields, hversion⟩ | ⟨g, hg, hpends⟩
  · by_cases hwrote : Deed.wrote id ∈ m.turnDeeds t
    · obtain ⟨entries, base, hwrites⟩ := writes_of_wrote hturn hwrote
      obtain ⟨upper, hupper⟩ := hwrites.base_eq h
      obtain ⟨top, htop, hsame | ⟨g, hg, hpends⟩⟩ := pends_of_write hs hb hwrites
      · exact .inl ⟨hsame.1.trans hfields, hsame.2.trans hversion⟩
      · have heq : pushed = top ++ upper := by
          refine (List.append_left_inj (inner ++ below)).mp ?_
          rw [List.append_assoc, ← hupper, ← htop, hpushed]
        exact .inr ⟨g, List.mem_append_left _ (heq ▸ List.mem_append_left _ hg), hpends⟩
    · exact .inl ⟨(hfollows.fields id hs.there hwrote).trans hfields, (hfollows.version id hwrote).trans hversion⟩
  · rcases List.mem_cons.mp hg with rfl | hg
    · obtain ⟨g, hg, hpends⟩ := pends_of_turn h hpends hturn hquiet hlive hpushed
      exact .inr ⟨g, List.mem_append_left _ hg, hpends⟩
    · exact .inr ⟨g, List.mem_append_right _ hg, hpends⟩

theorem Steady.settled (hs : Steady n b id fields version m []) :
    m.store.fields id = fields ∧ (m.store.record id).version = version := by
  rcases hs.kept with hsame | ⟨f, hf, -⟩
  · exact hsame
  · cases hf

/-- Something done in which nothing is done to the binder, and nothing is written. -/
theorem Steady.of_does {ds : List Deed} (hs : Steady n b id fields version m []) (hdoes : m.Does ds m')
    (hacts : actsOf n ds = []) (hplain : Plain ds) (inner : List Frame) : Steady n b id fields version m' inner := by
  have hfollows := hdoes.effects.follows hs.sound.scene
  exact ⟨hdoes.sound hs.sound, (hfollows.binder n hacts).trans hs.binder,
    Nat.lt_of_lt_of_le hs.there hfollows.records,
    .inl ⟨(hfollows.fields id hs.there (hplain.wrote id)).trans hs.settled.1,
      (hfollows.version id (hplain.wrote id)).trans hs.settled.2⟩⟩

theorem hear_of_binder? {l : Listener} {k : Nat} (h : l.binder? = some k) (s : Session) (signal : Signal) :
    s.hear l signal = (s.withStore (Session.react s.workspace.store l signal), []) := by
  cases l with
  | callback => cases h
  | _ => rfl

/-- A listener leaves a script at most. -/
theorem inner_hear (s : Session) (l : Listener) (signal : Signal) : Inner (s.hear l signal).2 := by
  cases l with
  | callback k =>
    unfold Session.hear Session.call
    simp only
    split
    · exact .inl rfl
    · split
      · exact .inl rfl
      · exact .inr ⟨[], _, rfl⟩
  | _ => exact .inl rfl

/-- **A property that lasts while nothing is done to a binder.** It may speak of what stands above a notification; at a
cut point that is nothing. -/
structure Endures (n : Nat) (P : Machine → List Frame → Prop) : Prop where
  sound : ∀ {m : Machine} {inner : List Frame}, P m inner → m.Sound
  /-- A turn on what stands above the notification. -/
  within : ∀ {m m' : Machine} {f : Frame} {inner below pushed : List Frame} {t : Turn}, P m (f :: inner) →
    m.stack = f :: (inner ++ below) → m.turn? t = some m' → actsOf n (m.turnDeeds t) = [] →
    m'.stack = pushed ++ (inner ++ below) → P m' (pushed ++ inner)
  /-- A turn of the notification itself. -/
  between : ∀ {m m' : Machine} {ds : List Deed}, P m [] → m.Does ds m' → actsOf n ds = [] → Plain ds →
    ∀ inner, P m' inner

theorem Attentive.endures (hb : Attentive b id) : Endures n (Steady n b id fields version) where
  sound := Steady.sound
  within hs h hturn hquiet hpushed := hs.turn hb h hturn hquiet hpushed
  between hs hdoes hquiet hplain inner := hs.of_does hdoes hquiet hplain inner

/-- A binder is as it was. -/
structure Rests (n : Nat) (b : Binder) (m : Machine) (inner : List Frame) : Prop where
  sound : m.Sound
  binder : m.store.binder n = b

theorem Rests.of_does {ds : List Deed} (h : Rests n b m inner) (hdoes : m.Does ds m') (hquiet : actsOf n ds = [])
    (inner' : List Frame) : Rests n b m' inner' :=
  ⟨hdoes.sound h.sound, ((hdoes.effects.follows h.sound.scene).binder n hquiet).trans h.binder⟩

theorem endures_rests (n : Nat) (b : Binder) : Endures n (Rests n b) where
  sound := Rests.sound
  within h _ hturn hquiet _ := h.of_does (does_turn h.sound hturn) hquiet _
  between h hdoes hquiet _ inner := h.of_does hdoes hquiet inner

section

variable {P P' : Machine → List Frame → Prop} {ch : Channel} {pinned : List Nat} {signal : Signal} {l : Listener}
  {waiting : List Listener}

/-- **From what a listener left to the end of it**: a script is running all the time, nothing is done to the binder. -/
theorem quiet_of_inner (hP : Endures n P) (hbelow : ∃ mid, below = mid ++ base) (hp : P m inner)
    (hinner : Inner inner) (hstack : m.stack = inner ++ below) (hreturns : m.Returns below turns m')
    (hund : m.Undisturbed n base turns) : actsOf n (m.deeds turns) = [] ∧ P m' [] := by
  induction hreturns generalizing inner with
  | @done m h =>
    have hnil : inner = [] := (List.append_left_eq_self).mp (hstack.symm.trans h)
    subst hnil
    exact ⟨rfl, hp⟩
  | @turn m m₁ m' t rest f top habove hturn hrest ih =>
    obtain ⟨hquiet, hund⟩ := hund
    cases inner with
    | nil =>
      have hlength := congrArg List.length (habove.symm.trans hstack)
      simp only [List.length_append, List.length_cons, List.nil_append] at hlength
      omega
    | cons g inner =>
      -- a script stands in what is left, so a callback is running
      have hinterrupted : m.Interrupted base := by
        obtain ⟨mid, rfl⟩ := hbelow
        obtain ⟨cs, hcs⟩ := hinner.exists_script
        exact ⟨(g :: inner) ++ mid, cs, by rw [hstack, List.append_assoc], List.mem_append_left _ hcs⟩
      have hnone := hquiet hinterrupted
      rw [List.cons_append] at hstack
      obtain ⟨pushed, hpushed⟩ := turn_local hstack hturn
      have hp₁ := hP.within hp hstack hturn hnone hpushed
      have hinner₁ : Inner (pushed ++ inner) := by
        rcases hinner.uncons with ⟨cs, rfl, rfl⟩ | ⟨hne, hinner⟩
        · rw [List.append_nil]
          exact inner_of_script hstack hturn hpushed
        · exact hinner.cons hne pushed
      rw [← List.append_assoc] at hpushed
      obtain ⟨hlater, hp'⟩ := ih hp₁ hinner₁ hpushed (hund m₁ hturn)
      simp only [deeds, hturn, Option.elim_some, actsOf_append]
      exact ⟨by rw [hnone, hlater, List.nil_append], hp'⟩

/-- **A notification comes to its next listener.** What the last one left is over by then, and nothing was done to the
binder. -/
theorem next_of_notification (hP : Endures n P) (hbelow : ∃ mid, below = mid ++ base) (hp : P m inner)
    (hinner : Inner inner) (hstack : m.stack = inner ++ .task (.notify ch pinned signal waiting) :: below)
    (hreturns : m.Returns below turns m') (hund : m.Undisturbed n base turns) :
    ∃ before behind m₁ m₂, turns = before ++ .step :: behind ∧ m.walk? before = some m₁ ∧
      m₁.stack = .task (.notify ch pinned signal waiting) :: below ∧ actsOf n (m.deeds before) = [] ∧
      P m₁ [] ∧ m₁.turn? .step = some m₂ ∧ m₂ = m₁.runTask below (.notify ch pinned signal waiting) ∧
      m₂.Returns below behind m' ∧ m₂.Undisturbed n base behind := by
  obtain ⟨before, t, behind, m₁, m₂, rfl, hbefore, hturn, hbehind⟩ := hreturns.cut hstack
  obtain ⟨hund₀, hund₁⟩ := hund.append hbefore.walk
  obtain ⟨mid, rfl⟩ := hbelow
  obtain ⟨hnone, hp₁⟩ := quiet_of_inner hP ⟨_ :: mid, rfl⟩ hp hinner hstack hbefore hund₀
  obtain ⟨rfl, hm₂⟩ := step_of_task hbefore.stack hturn
  exact ⟨before, behind, m₁, m₂, rfl, hbefore.walk, hbefore.stack, hnone, hp₁, hturn, hm₂, hbehind, hund₁.2 m₂ hturn⟩

/-- **The turn in which a notification calls a listener** does what the listener does, and leaves a script at most. -/
theorem calls_of_notification (hm : m.Sound)
    (hstack : m.stack = .task (.notify ch pinned signal (l :: waiting)) :: below) (hturn : m.turn? .step = some m') :
    m.turnDeeds .step = m.store.reactDeeds l signal ∧ m.Does (m.store.reactDeeds l signal) m' ∧
      (l.binder?.isSome → m'.store = Session.react m.store l signal) ∧
      ∃ inner, Inner inner ∧ m'.stack = inner ++ .task (.notify ch pinned signal waiting) :: below := by
  obtain ⟨-, hm'⟩ := step_of_task hstack hturn
  have hdeeds : m.turnDeeds .step = m.store.reactDeeds l signal := by
    simp only [turnDeeds, stepDeeds, hstack]
    rfl
  refine ⟨hdeeds, hdeeds ▸ does_turn hm hturn, fun hown => ?_, _, inner_hear m.session l signal, hm' ▸ rfl⟩
  obtain ⟨k, hk⟩ := Option.isSome_iff_exists.mp hown
  rw [hm', runTask]
  simp only [hear_of_binder? hk m.session signal]
  rfl

/-- The call of a listener that is not the binder's. -/
theorem Endures.call_other (hP : Endures n P) (hp : P m []) (hother : l.binder? ≠ some n)
    (hdoes : m.Does (m.store.reactDeeds l signal) m') (inner : List Frame) : P m' inner :=
  hP.between hp hdoes (actsOf_reactDeeds_of_ne m.store hother signal) (.of_mild (mild_reactDeeds _ _ _)) inner

/-- **A notification that does not call the binder** does nothing to it. -/
theorem quiet_of_notification (hP : Endures n P) (hbelow : ∃ mid, below = mid ++ base)
    (hwaiting : ∀ l' ∈ waiting, l'.binder? ≠ some n) (hp : P m inner) (hinner : Inner inner)
    (hstack : m.stack = inner ++ .task (.notify ch pinned signal waiting) :: below)
    (hreturns : m.Returns below turns m') (hund : m.Undisturbed n base turns) :
    actsOf n (m.deeds turns) = [] ∧ P m' [] := by
  -- the induction is on the listeners still to be called
  induction waiting generalizing m inner turns with
  | nil =>
    obtain ⟨before, behind, m₁, m₂, rfl, hwalk, hstack₁, hnone, hp₁, hturn, hm₂, hbehind, -⟩ :=
      next_of_notification hP hbelow hp hinner hstack hreturns hund
    have hdeeds : m₁.turnDeeds .step = [] := by simp only [turnDeeds, stepDeeds, hstack₁]
    obtain ⟨rfl, rfl⟩ := hbehind.of_stack (by rw [hm₂]; rfl)
    have hdoes := does_turn (hP.sound hp₁) hturn
    rw [hdeeds] at hdoes
    refine ⟨?_, hP.between hp₁ hdoes rfl .nil []⟩
    rw [deeds_append hwalk, actsOf_append, hnone]
    simp only [deeds, hturn, Option.elim_some, hdeeds]
    rfl
  | cons l' waiting ih =>
    obtain ⟨before, behind, m₁, m₂, rfl, hwalk, hstack₁, hnone, hp₁, hturn, -, hbehind, hund₂⟩ :=
      next_of_notification hP hbelow hp hinner hstack hreturns hund
    have hother := hwaiting l' List.mem_cons_self
    obtain ⟨hdeeds, hdoes, -, inner₂, hinner₂, hstack₂⟩ := calls_of_notification (hP.sound hp₁) hstack₁ hturn
    obtain ⟨hlater, hp'⟩ := ih (fun l'' h => hwaiting l'' (List.mem_cons_of_mem _ h))
      (hP.call_other hp₁ hother hdoes inner₂) hinner₂ hstack₂ hbehind hund₂
    refine ⟨?_, hp'⟩
    rw [deeds_append hwalk, actsOf_append, hnone]
    simp only [deeds, hturn, Option.elim_some, actsOf_append, hdeeds, hlater,
      actsOf_reactDeeds_of_ne m₁.store hother signal, List.append_nil]

/-- **A notification that calls the binder once**, at one turn of its run: before it and after it nothing is done to the
binder. -/
theorem heard_of_notification (hP : Endures n P) (hP' : Endures n P') (hl : l.binder? = some n)
    (hcall : ∀ {m₁ m₂ : Machine} {inner : List Frame}, P m₁ [] → m₁.Does (m₁.store.reactDeeds l signal) m₂ →
      m₂.store = Session.react m₁.store l signal → P' m₂ inner)
    (hbelow : ∃ mid, below = mid ++ base) {front back : List Listener} (hfront : ∀ l' ∈ front, l'.binder? ≠ some n)
    (hback : ∀ l' ∈ back, l'.binder? ≠ some n) (hp : P m inner) (hinner : Inner inner)
    (hstack : m.stack = inner ++ .task (.notify ch pinned signal (front ++ l :: back)) :: below)
    (hreturns : m.Returns below turns m') (hund : m.Undisturbed n base turns) :
    ∃ before behind m₁ m₂, turns = before ++ .step :: behind ∧ m.walk? before = some m₁ ∧ m₁.turn? .step = some m₂ ∧
      m₂.walk? behind = some m' ∧ m₂.store = Session.react m₁.store l signal ∧
      m₁.turnDeeds .step = m₁.store.reactDeeds l signal ∧ actsOf n (m.deeds before) = [] ∧
      actsOf n (m₂.deeds behind) = [] ∧ P m₁ [] ∧ P' m' [] := by
  -- by induction on the listeners in front of the binder's: each leaves a state in which nothing was done to the binder
  induction front generalizing m inner turns with
  | nil =>
    obtain ⟨before, behind, m₁, m₂, rfl, hwalk, hstack₁, hnone, hp₁, hturn, -, hbehind, hund₂⟩ :=
      next_of_notification hP hbelow hp hinner hstack hreturns hund
    obtain ⟨hdeeds, hdoes, hstore, inner₂, hinner₂, hstack₂⟩ := calls_of_notification (hP.sound hp₁) hstack₁ hturn
    have hstore₂ := hstore (hl ▸ rfl)
    obtain ⟨hlater, hp'⟩ := quiet_of_notification hP' hbelow hback (hcall hp₁ hdoes hstore₂) hinner₂ hstack₂ hbehind hund₂
    exact ⟨before, behind, m₁, m₂, rfl, hwalk, hturn, hbehind.walk, hstore₂, hdeeds, hnone, hlater, hp₁, hp'⟩
  | cons l' front ih =>
    obtain ⟨before, behind, m₁, m₂, rfl, hwalk, hstack₁, hnone, hp₁, hturn, -, hbehind, hund₂⟩ :=
      next_of_notification hP hbelow hp hinner hstack hreturns hund
    have hother := hfront l' List.mem_cons_self
    obtain ⟨hdeeds, hdoes, -, inner₂, hinner₂, hstack₂⟩ := calls_of_notification (hP.sound hp₁) hstack₁ hturn
    obtain ⟨before', behind', m₃, m₄, rfl, hwalk', hturn', hbehind', hstore, hthis, hnone', hlater, hp₃, hp'⟩ :=
      ih (fun l'' h => hfront l'' (List.mem_cons_of_mem _ h)) (hP.call_other hp₁ hother hdoes inner₂) hinner₂ hstack₂
        hbehind hund₂
    refine ⟨before ++ .step :: before', behind', m₃, m₄, by simp, ?_, hturn', hbehind', hstore, hthis, ?_, hlater, hp₃, hp'⟩
    · rw [walk?_append, hwalk]
      simp only [Option.bind_some, walk?, hturn, hwalk']
    · rw [deeds_append hwalk, actsOf_append, hnone]
      simp only [deeds, hturn, Option.elim_some, actsOf_append, hdeeds, hnone',
        actsOf_reactDeeds_of_ne m₁.store hother signal, List.append_nil]

end

/-- A call that keeps the binder and the fields as they are. -/
theorem Steady.react {l : Listener} {signal : Signal} (hs : Steady n b id fields version m [])
    (hkeeps : ∀ s : Store, s.Keeps (Session.react s l signal)) (hdoes : m.Does (m.store.reactDeeds l signal) m')
    (hstore : m'.store = Session.react m.store l signal) (inner : List Frame) :
    Steady n b id fields version m' inner := by
  have hreact := hkeeps m.store
  rw [← hstore] at hreact
  exact ⟨hdoes.sound hs.sound, (hreact.binder n).trans hs.binder, Nat.lt_of_lt_of_le hs.there hreact.records,
    .inl ⟨(hreact.fields id hs.there).trans hs.settled.1, (hreact.version id).trans hs.settled.2⟩⟩

section

variable {ch : Channel} {pinned : List Nat} {signal : Signal} {l : Listener} {acts : List Act} {waiting : List Listener}

/-- **A notification that calls a binder once**, on the fields as they were when the notification began, whatever
callbacks do to others meanwhile. -/
theorem hears_of_notification (hb : Attentive b id) (hl : l.binder? = some n)
    (hkeeps : ∀ s : Store, s.Keeps (Session.react s l signal))
    (hacts : ∀ s : Store, s.binder n = b → s.fields id = fields → actsOf n (s.reactDeeds l signal) = acts)
    (hbelow : ∃ mid, below = mid ++ base) {front back : List Listener} (hfront : ∀ l' ∈ front, l'.binder? ≠ some n)
    (hback : ∀ l' ∈ back, l'.binder? ≠ some n) (hs : Steady n b id fields version m inner) (hinner : Inner inner)
    (hstack : m.stack = inner ++ .task (.notify ch pinned signal (front ++ l :: back)) :: below)
    (hreturns : m.Returns below turns m') (hund : m.Undisturbed n base turns) :
    ∃ before behind m₁ m₂, turns = before ++ .step :: behind ∧ m.walk? before = some m₁ ∧ m₁.turn? .step = some m₂ ∧
      m₂.walk? behind = some m' ∧ m₂.store = Session.react m₁.store l signal ∧
      actsOf n (m.deeds before) = [] ∧ actsOf n (m₁.turnDeeds .step) = acts ∧ actsOf n (m₂.deeds behind) = [] ∧
      Steady n b id fields version m₁ [] ∧ Steady n b id fields version m' [] := by
  obtain ⟨before, behind, m₁, m₂, rfl, hwalk, hturn, hbehind, hstore, hdeeds, hnone, hlater, hs₁, hs'⟩ :=
    heard_of_notification hb.endures hb.endures hl (fun hs₁ hdoes hstore => hs₁.react hkeeps hdoes hstore _) hbelow hfront
      hback hs hinner hstack hreturns hund
  refine ⟨before, behind, m₁, m₂, rfl, hwalk, hturn, hbehind, hstore, hnone, ?_, hlater, hs₁, hs'⟩
  rw [hdeeds, hacts m₁.store hs₁.binder hs₁.settled.1]

/-- **A notification from its beginning to its end.** A binder that has one listener waiting does what that listener
does. -/
theorem acts_of_notification (hb : Attentive b id) (hkeeps : ∀ s : Store, s.Keeps (Session.react s l signal))
    (hacts : ∀ s : Store, s.binder n = b → s.fields id = fields → actsOf n (s.reactDeeds l signal) = acts)
    (hbelow : ∃ mid, below = mid ++ base) (hwaiting : waiting.filter (·.binder? = some n) = [l])
    (hs : Steady n b id fields version m [])
    (hstack : m.stack = .task (.notify ch pinned signal waiting) :: below) (hreturns : m.Returns below turns m')
    (hund : m.Undisturbed n base turns) :
    actsOf n (m.deeds turns) = acts ∧ Steady n b id fields version m' [] := by
  obtain ⟨front, back, rfl, hfront, hl, hback⟩ := List.filter_eq_cons_iff.mp hwaiting
  obtain ⟨before, behind, m₁, m₂, rfl, hwalk, hturn, -, -, hnone, hthis, hlater, -, hs'⟩ :=
    hears_of_notification hb (decide_eq_true_iff.mp hl) hkeeps hacts hbelow (fun l' hl' => by simpa using hfront l' hl')
      (fun l' hl' => by simpa using List.filter_eq_nil_iff.mp hback l' hl') hs (.inl rfl) hstack hreturns hund
  refine ⟨?_, hs'⟩
  rw [deeds_append hwalk, actsOf_append, hnone]
  simp only [deeds, hturn, Option.elim_some, actsOf_append, hthis, hlater, List.nil_append, List.append_nil]

end

/-! ## Runs in which callbacks keep apart -/

/-- Whether a run returns to a stack of a given height and does nothing to a binder while a script is running. -/
def returnsApart (n height : Nat) (m : Machine) : List Turn → Bool
  | [] => m.stack.length == height
  | t :: rest => decide (height < m.stack.length) &&
    (m.stack.all (fun f => f matches .task _) || (actsOf n (m.turnDeeds t)).isEmpty) &&
    (m.turn? t).any (·.returnsApart n height rest)

theorem returns_of_returnsApart {top : List Frame} (hstack : m.stack = top ++ base)
    (h : m.returnsApart n base.length turns = true) : ∃ m', m.Returns base turns m' ∧ m.Undisturbed n base turns := by
  induction turns generalizing m top with
  | nil =>
    have hlength : m.stack.length = base.length := beq_iff_eq.mp h
    rw [hstack, List.length_append] at hlength
    rw [List.eq_nil_of_length_eq_zero (l := top) (by omega), List.nil_append] at hstack
    exact ⟨m, .done hstack, trivial⟩
  | cons t rest ih =>
    simp only [returnsApart, Bool.and_eq_true, Bool.or_eq_true, decide_eq_true_iff, List.all_eq_true,
      List.isEmpty_iff] at h
    obtain ⟨⟨habove, hquiet⟩, hrest⟩ := h
    obtain ⟨next, hturn, hrest⟩ := (Option.any_eq_true _ _).mp hrest
    cases top with
    | nil =>
      rw [hstack, List.nil_append] at habove
      exact absurd habove (Nat.lt_irrefl _)
    | cons f top =>
      rw [List.cons_append] at hstack
      obtain ⟨pushed, hpushed⟩ := turn_local hstack hturn
      rw [← List.append_assoc] at hpushed
      obtain ⟨m', hreturns, hund⟩ := ih hpushed hrest
      refine ⟨m', .turn hstack hturn hreturns, ?_, fun m₁ hm₁ => ?_⟩
      · rintro ⟨upper, cs, heq, hscript⟩
        refine hquiet.resolve_left fun htasks => ?_
        have htask := htasks (.script cs) (heq ▸ List.mem_append_left _ hscript)
        cases htask
      · cases hturn.symm.trans hm₁
        exact hund

/-- Whether a run returns to a stack of a given height, with no script on the way. -/
def returnsQuietly (height : Nat) (m : Machine) : List Turn → Bool
  | [] => m.stack.length == height
  | t :: rest => decide (height < m.stack.length) && m.stack.all (fun f => f matches .task _) &&
    (m.turn? t).any (·.returnsQuietly height rest)

theorem returnsApart_of_returnsQuietly {height : Nat} (h : m.returnsQuietly height turns = true) (n : Nat) :
    m.returnsApart n height turns = true := by
  induction turns generalizing m with
  | nil => exact h
  | cons t rest ih =>
    simp only [returnsQuietly, Bool.and_eq_true] at h
    obtain ⟨⟨habove, htasks⟩, hrest⟩ := h
    obtain ⟨next, hturn, hrest⟩ := (Option.any_eq_true _ _).mp hrest
    simp only [returnsApart, habove, htasks, Bool.true_or, Bool.and_self, Bool.true_and]
    exact (Option.any_eq_true _ _).mpr ⟨next, hturn, ih hrest⟩

/-- A run without scripts returns, and nothing disturbs it. -/
theorem returns_of_returnsQuietly (n : Nat) {top : List Frame} (hstack : m.stack = top ++ base)
    (h : m.returnsQuietly base.length turns = true) : ∃ m', m.Returns base turns m' ∧ m.Undisturbed n base turns :=
  returns_of_returnsApart hstack (returnsApart_of_returnsQuietly h n)

end Machine

end Databind
