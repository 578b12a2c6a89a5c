import Databind.Proofs.Rendering

/-!
# `Proofs.Rerender` — what a write renders

A batch of writes that alters fields of a record is notified once. A binder with bindings of the record has one
listener for it, so it hears the change once, and renders the bindings that the change triggers, in the order in
which they were put into effect and on the fields after the whole batch. If a write of the batch was refused, the
record then asks to be rendered, and every binding is rendered once more.
-/

namespace Databind

open Store

/-- What a binder does when it hears that fields of a record were altered. -/
def Binder.repainted (b : Binder) (n : Nat) (id : RecordId) (set : ChangeSet) (fields : Fields) : List Act :=
  .heard (.repaint n id) (.changed set) ::
    ((b.registry.bindingsOf id).filter (·.isTriggeredBy set)).map fun x => .rendered x.unguarded fields

/-- What a binder does when a record asks to be rendered. -/
def Binder.repaintedAll (b : Binder) (n : Nat) (id : RecordId) (fields : Fields) : List Act :=
  .heard (.repaintAll n id) .render :: (b.registry.bindingsOf id).map fun x => .rendered x.unguarded fields

/-- The bindings of a record in a sound registry are the record's own. -/
theorem Registry.Sound.record_of_mem {r : Registry} (h : r.Sound) {id : RecordId} {x : Binding}
    (hx : x ∈ r.bindingsOf id) : x.record = id := by
  obtain ⟨e, he, rfl⟩ := h.bindingsOf_ne_nil.mp (List.ne_nil_of_mem hx)
  rw [bindingsOf_of_entryOf? ((entryOf?_eq_some_iff h.records).mpr ⟨he, rfl⟩)] at hx
  exact (h.entries e he).own x hx

namespace Store

variable {s : Store} {n : Nat} {b : Binder} {id : RecordId} {fields : Fields}

theorem keeps_renderAll (s : Store) (n : Nat) (bs : List Binding) : s.Keeps (s.renderAll n bs) := by
  induction bs generalizing s with
  | nil => exact .refl s
  | cons x rest ih =>
    rw [renderAll_cons]
    exact (s.keeps_render n x).trans (ih _)

theorem keeps_repaint (s : Store) (n : Nat) (id : RecordId) (set : ChangeSet) :
    s.Keeps (Session.react s (.repaint n id) (.changed set)) := by
  simp only [Session.react, onChange]
  split
  · exact .refl s
  · split
    · exact (s.extends_log _ rfl).toKeeps
    · exact s.keeps_renderAll n _

theorem keeps_repaintAll (s : Store) (n : Nat) (id : RecordId) :
    s.Keeps (Session.react s (.repaintAll n id) .render) := by
  simp only [Session.react, onRequest]
  split
  · exact .refl s
  · exact (s.extends_log (.forcedRender id _) rfl).toKeeps.trans (keeps_renderAll _ n _)

theorem actsOf_renderDeeds (s : Store) (n : Nat) (bs : List Binding) :
    actsOf n (s.renderDeeds n bs) = bs.map fun x => .rendered x.unguarded (s.fields x.record) := by
  induction bs with
  | nil => rfl
  | cons x rest ih =>
    rw [renderDeeds, List.map_cons, ← List.singleton_append, actsOf_append, actsOf_act, ← renderDeeds, ih]
    rfl

/-- Bindings of a record are rendered on its fields. -/
theorem actsOf_renderDeeds_record (hr : b.registry.Sound) (hfields : s.fields id = fields) {bs : List Binding}
    (hbs : ∀ x ∈ bs, x ∈ b.registry.bindingsOf id) :
    actsOf n (s.renderDeeds n bs) = bs.map fun x => .rendered x.unguarded fields := by
  rw [actsOf_renderDeeds]
  refine List.map_congr_left fun x hx => ?_
  rw [hr.record_of_mem (hbs x hx), hfields]

theorem acts_of_repaint (hb : Machine.Attentive b id) (set : ChangeSet) (hbinder : s.binder n = b)
    (hfields : s.fields id = fields) :
    actsOf n (s.reactDeeds (.repaint n id) (.changed set)) = b.repainted n id set fields := by
  have hlive : (s.binder n).retired = false := hbinder ▸ hb.live
  simp only [reactDeeds, hlive, Bool.false_eq_true, if_false]
  rw [← List.singleton_append, actsOf_append, actsOf_act, hbinder,
    actsOf_renderDeeds_record hb.registry hfields fun x hx => (List.mem_filter.mp hx).1]
  rfl

theorem acts_of_repaintAll (hb : Machine.Attentive b id) (hbinder : s.binder n = b) (hfields : s.fields id = fields) :
    actsOf n (s.reactDeeds (.repaintAll n id) .render) = b.repaintedAll n id fields := by
  have hlive : (s.binder n).retired = false := hbinder ▸ hb.live
  simp only [reactDeeds, hlive, Bool.false_eq_true, if_false]
  rw [← List.singleton_append, actsOf_append, actsOf_act, hbinder,
    actsOf_renderDeeds_record hb.registry hfields fun x hx => hx]
  rfl

end Store

namespace Machine

variable {m m₀ m' : Machine} {base : List Frame} {n : Nat} {id : RecordId} {entries : List (String × Value)}

/-! ## While no notification is in progress -/

theorem calls_of_silent (h : m.Silent) {call : Channel × List Nat} (hcall : call ∈ m.calls) :
    ∃ tree, call.1 = .delegations tree := by
  obtain ⟨f, hf, hcall⟩ := List.mem_filterMap.mp hcall
  cases f with
  | script cs => cases hcall
  | task t =>
    cases t with
    | notify channel pinned signal waiting => exact absurd hf (h channel pinned signal waiting)
    | dispatch tree pinned event waiting =>
      cases hcall
      exact ⟨tree, rfl⟩
    | _ => cases hcall

/-- No call list of listeners is running. -/
theorem Silent.calls_ne (h : m.Silent) {ch : Channel} (hch : ch.tree? = none) : ∀ call ∈ m.calls, call.1 ≠ ch := by
  rintro call hcall rfl
  obtain ⟨tree, htree⟩ := calls_of_silent h hcall
  rw [htree] at hch
  cases hch

theorem Silent.calm (h : m.Silent) (hm : m.Sound) {ch : Channel} (hch : ch.tree? = none) : m.store.Calm ch :=
  calm_of_calls hm.scene.pinned (h.calls_ne hch)

theorem silent_of_idle (h : m.stack = []) : m.Silent := fun _ _ _ _ hmem => absurd (h ▸ hmem) List.not_mem_nil

/-- A batch of writes leaves no other notification below it. -/
theorem Writes.silent (h : m.Writes id entries m₀ base) (hsilent : m.Silent)
    (hstack : m'.stack = .task (.request id) :: base) :
    m'.Silent := by
  intro channel pinned signal waiting hmem
  rw [hstack] at hmem
  cases h with
  | host => simp at hmem
  | script h =>
    simp only [List.mem_cons, reduceCtorEq, Frame.task.injEq, false_or] at hmem
    exact hsilent channel pinned signal waiting (h ▸ List.mem_cons_of_mem _ hmem)
  | handler h =>
    simp only [List.mem_cons, reduceCtorEq, Frame.task.injEq, false_or] at hmem
    exact hsilent channel pinned signal waiting (h ▸ List.mem_cons_of_mem _ hmem)

theorem Writes.sound (h : m.Writes id entries m₀ base) (hm : m.Sound) : m₀.Sound := by
  cases h with
  | host hidle => exact (does_start hm hidle _).sound hm
  | script _ _ hstep => exact (does_step hm hstep).sound hm
  | handler _ _ _ hstep => exact (does_step hm hstep).sound hm

/-- A batch of writes is told of, from the beginning to the end. -/
theorem Writes.tells (h : m.Writes id entries m₀ base) (hm : m.Sound) {turns : List Turn}
    (hreturns : m₀.Returns base turns m') : m.store.Tells (m₀.deeds turns) m'.store := by
  obtain ⟨s, hextends, -, hstore, -⟩ := h.spec
  have hsound : Scene.Sound ⟨s, m.calls⟩ := (Effects.extended hextends m.calls).sound hm.scene
  have hnone : m₀.store.renderings = m.store.renderings := by
    rw [hstore, renderings_write hsound, hextends.renderings]
  have hbefore : m.store.Tells [] m₀.store := tells_of_eq hnone rfl
  exact hbefore.append (hreturns.tells (h.sound hm))

/-! ## Two notifications -/

/-- A binder with bindings of a record listens to its changes. -/
theorem attentive_of_bound (hm : m.Sound) (hr : m.store.Registered)
    (hbound : (m.store.binder n).registry.bindingsOf id ≠ []) : Attentive (m.store.binder n) id := by
  refine ⟨?_, hr n, hbound⟩
  cases hretired : (m.store.binder n).retired with
  | false => rfl
  | true =>
    have hempty : (m.store.binder n).registry = [] := ((hm.scene.store_wired.fit n).retired hretired).1
    rw [hempty] at hbound
    exact absurd rfl hbound

/-- **The machine right after a batch of writes**: the binder is as it was, the fields are those of the batch, and a
notification that begins calls the binder once. -/
theorem steady_of_write (hm : m.Sound) (hr : m.store.Registered) (hsilent : m.Silent)
    (hwrites : m.Writes id entries m₀ base) (halive : (m.store.record id).alive = true)
    (hbound : (m.store.binder n).registry.bindingsOf id ≠ [])
    (hchanged : ((m.store.record id).batch entries).changed.isEmpty = false) :
    Steady n (m.store.binder n) id ((m.store.record id).batch entries).fields ((m.store.record id).version + 1) m₀ [] ∧
      ∃ pinned waiting, waiting.filter (·.binder? = some n) = [.repaint n id] ∧
        m₀.stack = .task (.notify (.changes id) pinned (.changed ((m.store.record id).batch entries).changed) waiting) ::
          ((requestsOf id ((m.store.record id).batch entries)).map .task ++ base) := by
  obtain ⟨s, hextends, hrecords, hstore, hstack⟩ := hwrites.spec
  have hrecord : s.record id = m.store.record id := by simp only [Store.record, hrecords]
  have hthere : id.number < s.records.size := hrecords ▸ lt_of_alive _ halive
  rw [write_of_changed (hrecord ▸ halive) (hrecord ▸ hchanged), hrecord] at hstore hstack
  have hsound : Scene.Sound ⟨s, m.calls⟩ := (Effects.extended hextends m.calls).sound hm.scene
  -- the values are stored first, and the notification begins on what was stored
  have hstored : Effects ⟨s, m.calls⟩ [.wrote id] ⟨s.stored id entries, m.calls⟩ := stored_effects s id entries
  have hfollows := hstored.follows hsound
  have hsound' := hstored.sound hsound
  have hbinder : (s.stored id entries).binder n = m.store.binder n :=
    (hfollows.binder n rfl).trans (hextends.binder n)
  have hnotify : Follows [] (s.stored id entries) m₀.store := by
    rw [hstore]
    exact follows_notify _ (.changes id) (.changed ((m.store.record id).batch entries).changed)
  have hthere' : id.number < (s.stored id entries).records.size := Nat.lt_of_lt_of_le hthere hfollows.records
  constructor
  · refine ⟨hwrites.sound hm, (hnotify.binder n rfl).trans hbinder, Nat.lt_of_lt_of_le hthere' hnotify.records,
      .inl ⟨?_, ?_⟩⟩
    · rw [hnotify.fields id hthere' List.not_mem_nil, fields_stored s entries hthere, hrecord]
    · rw [hnotify.version id List.not_mem_nil, version_stored (hrecord ▸ halive) entries, hrecord, hchanged]
      rfl
  · refine ⟨_, _, ?_, hstack⟩
    have halive' : ((s.stored id entries).record id).alive = true :=
      (hfollows.alive id hthere (by simp)).trans (hrecord ▸ halive)
    have hcalm : (s.stored id entries).Calm (.changes id) := calm_of_calls hsound'.pinned (hsilent.calls_ne rfl)
    have hlive := live_changes (n := n) hsound'.store_wired (hbinder ▸ hr n) hcalm
    rw [if_pos ⟨halive', hbinder ▸ hbound⟩] at hlive
    rw [List.filter_map]
    exact hlive

/-- **The notification of a change.** -/
theorem acts_of_change (hm : m.Sound) (hr : m.store.Registered) (hsilent : m.Silent)
    (hwrites : m.Writes id entries m₀ base) (halive : (m.store.record id).alive = true)
    (hbound : (m.store.binder n).registry.bindingsOf id ≠ [])
    (hchanged : ((m.store.record id).batch entries).changed.isEmpty = false) {turns : List Turn}
    (hund : m₀.Undisturbed n base turns)
    (hreturns : m₀.Returns ((requestsOf id ((m.store.record id).batch entries)).map .task ++ base) turns m') :
    actsOf n (m₀.deeds turns) = (m.store.binder n).repainted n id ((m.store.record id).batch entries).changed
        ((m.store.record id).batch entries).fields ∧
      Steady n (m.store.binder n) id ((m.store.record id).batch entries).fields ((m.store.record id).version + 1)
        m' [] := by
  obtain ⟨hsteady, pinned, waiting, hwaiting, hstack⟩ :=
    steady_of_write hm hr hsilent hwrites halive hbound hchanged
  have hb := attentive_of_bound hm hr hbound
  exact acts_of_notification hb (fun s => keeps_repaint s n id _) (fun _ => acts_of_repaint hb _) ⟨_, rfl⟩ hwaiting
    hsteady hstack hreturns hund

/-- **A request to be rendered begins its notification**, which calls the binder once if the record is not destroyed. -/
theorem calls_of_request {b : Binder} {fields : Fields} {version : Nat} (hb : Attentive b id)
    (hs : Steady n b id fields version m []) (hstack : m.stack = .task (.request id) :: base) (hsilent : m.Silent)
    {turns : List Turn} (hreturns : m.Returns base turns m') :
    ∃ behind m₁ pinned waiting, turns = .step :: behind ∧ m.turn? .step = some m₁ ∧ m.turnDeeds .step = [] ∧
      Steady n b id fields version m₁ [] ∧ m₁.stack = .task (.notify (.requests id) pinned .render waiting) :: base ∧
      m₁.Returns base behind m' ∧ waiting.filter (·.binder? = some n) =
        if (m.store.record id).alive = true then [.repaintAll n id] else [] := by
  cases hreturns with
  | done h =>
    have hlength := congrArg List.length (h.symm.trans hstack)
    simp at hlength
  | @turn _ m₁ _ t rest f top habove hturn hrest =>
    obtain ⟨rfl, hm₁⟩ := step_of_task hstack hturn
    have hnone : m.turnDeeds .step = [] := by simp only [turnDeeds, stepDeeds, hstack]
    have hdoes := does_turn hs.sound hturn
    rw [hnone] at hdoes
    have hcalm : m.store.Calm (.requests id) := hsilent.calm hs.sound rfl
    have hlive := live_requests hs.sound.scene.store_wired (n := n) (hs.binder ▸ hb.registry) hcalm
    have hbound : (m.store.binder n).registry.bindingsOf id ≠ [] := hs.binder ▸ hb.bound
    refine ⟨rest, m₁, (m.store.record id).requests.live.map (·.id),
      (m.store.record id).requests.live.map (·.listener), rfl, hturn, hnone, hs.of_does hdoes rfl .nil [], ?_, hrest, ?_⟩
    · rw [hm₁]
      rfl
    · rw [List.filter_map]
      exact Eq.trans hlive (if_congr (and_iff_left hbound) rfl rfl)

/-- **The notification of a request to be rendered**, if the record is not destroyed. -/
theorem acts_of_request {b : Binder} {fields : Fields} {version : Nat} (hb : Attentive b id)
    (hs : Steady n b id fields version m []) (hstack : m.stack = .task (.request id) :: base) (hsilent : m.Silent)
    {turns : List Turn} (hund : m.Undisturbed n base turns) (hreturns : m.Returns base turns m') :
    actsOf n (m.deeds turns) = if (m.store.record id).alive = true then b.repaintedAll n id fields else [] := by
  obtain ⟨behind, m₁, pinned, waiting, rfl, hturn, hnone, hs₁, hstack₁, hbehind, hfilter⟩ :=
    calls_of_request hb hs hstack hsilent hreturns
  simp only [deeds, hturn, Option.elim_some, hnone, List.nil_append]
  split
  · next halive =>
    rw [if_pos halive] at hfilter
    exact (acts_of_notification hb (fun s => keeps_repaintAll s n id) (fun _ => acts_of_repaintAll hb) ⟨[], rfl⟩ hfilter hs₁
      hstack₁ hbehind (hund.2 m₁ hturn)).1
  · next hdead =>
    rw [if_neg hdead] at hfilter
    exact (quiet_of_notification hb.endures ⟨[], rfl⟩
      (fun l' hl' => by simpa using List.filter_eq_nil_iff.mp hfilter l' hl') hs₁ (.inl rfl) hstack₁ hbehind
      (hund.2 m₁ hturn)).1

/-- **What a batch of writes renders.** While no notification is in progress, a batch of writes alters fields of a
record that a binder has bindings of. The batch returns. If callbacks do nothing to the binder meanwhile, the binder
hears the change once and renders the bindings that it triggers, each once, in order, on the fields after the whole
batch. That is all if no write was refused. Otherwise the record asks to be rendered, unless it is destroyed by
then, and every binding is rendered once more. The journal tells of these renderings and of those of other binders,
and of no other. -/
theorem renders_of_write (h : m.Reached) (hsilent : m.Silent) (hwrites : m.Writes id entries m₀ base)
    (halive : (m.store.record id).alive = true) (hbound : (m.store.binder n).registry.bindingsOf id ≠ [])
    (hchanged : ((m.store.record id).batch entries).changed.isEmpty = false) :
    (∃ turns m', m₀.Returns base turns m') ∧
    ∀ turns m', m₀.Returns base turns m' → m₀.Undisturbed n base turns →
      m.store.Tells (m₀.deeds turns) m'.store ∧ ∃ tail, actsOf n (m₀.deeds turns) =
          (m.store.binder n).repainted n id ((m.store.record id).batch entries).changed
            ((m.store.record id).batch entries).fields ++ tail ∧
        (((m.store.record id).batch entries).refused = [] → tail = []) ∧
        (((m.store.record id).batch entries).refused ≠ [] → (m'.store.record id).alive = true →
          tail = (m.store.binder n).repaintedAll n id ((m.store.record id).batch entries).fields) ∧
        (tail = [] ∨ tail = (m.store.binder n).repaintedAll n id ((m.store.record id).batch entries).fields) := by
  have hm := h.sound
  have hr := h.registered
  have hb := attentive_of_bound hm hr hbound
  constructor
  · obtain ⟨s, -, -, -, hstack⟩ := hwrites.spec
    exact exists_returns m₀ hstack
  · intro turns m' hreturns hund
    refine ⟨hwrites.tells hm hreturns, ?_⟩
    obtain ⟨-, pinned, waiting, -, hstack⟩ := steady_of_write hm hr hsilent hwrites halive hbound hchanged
    obtain ⟨before, behind, m₁, rfl, hbefore, hbehind⟩ := hreturns.split (List.singleton_append ▸ hstack)
    obtain ⟨hund₀, hund₁⟩ := hund.append hbefore.walk
    obtain ⟨hacts, hsteady⟩ := acts_of_change hm hr hsilent hwrites halive hbound hchanged hund₀ hbefore
    rw [deeds_append hbefore.walk, actsOf_append, hacts]
    refine ⟨_, rfl, ?_⟩
    have hstack₁ := hbefore.stack
    unfold requestsOf at hstack₁
    by_cases hrefused : ((m.store.record id).batch entries).refused = []
    · rw [hrefused] at hstack₁
      obtain ⟨rfl, rfl⟩ := hbehind.of_stack hstack₁
      exact ⟨fun _ => rfl, fun hne => absurd hrefused hne, .inl rfl⟩
    · rw [if_neg (fun hempty => hrefused (List.isEmpty_iff.mp hempty))] at hstack₁
      have hrequest := acts_of_request hb hsteady hstack₁ (hwrites.silent hsilent hstack₁) hund₁ hbehind
      refine ⟨fun heq => absurd heq hrefused, fun _ halive' => ?_, ?_⟩
      · have hfollows := (walk_does hsteady.sound hbehind.walk).effects.follows hsteady.sound.scene
        rw [hrequest, if_pos (hfollows.dead id hsteady.there halive')]
      · rw [hrequest]
        split
        · exact .inr rfl
        · exact .inl rfl

end Machine

namespace Machine

/-- A record that refuses every value of one field, with a binding of that field and one of another. -/
def guarded : List Turn :=
  [.command (.act (.tree (.make "tree" (.node (.ofTag "root") [])))), .step,
    .command (.act (.record (.make "record" [("a", .null), ("b", .null)]))), .step,
    .command (.act (.record (.install "record" (Rule.reject.validator (some "b"))))), .step,
    .command (.act (.binder (.make "binder" "tree" (.given none none none)))), .step,
    .command (.act (.binder (.bind "binder" "record" (.field "a") ⟨"", ""⟩ .off false))), .step,
    .command (.act (.binder (.bind "binder" "record" (.field "b") ⟨"", "title"⟩ .off false))), .step]

/-- The host writes to the record. -/
def written (m : Machine) (entries : List (String × Value)) : Machine :=
  .start m.session (.act (.record (.write "record" entries)))

/-- A write to the other field renders its binding alone. -/
theorem renders_of_write_guarded :
    ∃ (m : Machine) (turns : List Turn) (m' : Machine), initial.walk? guarded = some m ∧
      m.store.Tells ((m.written [("a", .bool true)]).deeds turns) m'.store ∧
      actsOf 0 ((m.written [("a", .bool true)]).deeds turns) =
        (m.store.binder 0).repainted 0 ⟨1⟩ (.single "a")
          ((m.store.record ⟨1⟩).batch [("a", .bool true)]).fields := by
  have hrun : (initial.walk? guarded).map (fun m =>
      (m.stack, m.session.workspace.record? "record", (m.store.record ⟨1⟩).alive,
        ((m.store.binder 0).registry.bindingsOf ⟨1⟩).length,
        ((m.store.record ⟨1⟩).batch [("a", .bool true)]).changed,
        ((m.store.record ⟨1⟩).batch [("a", .bool true)]).refused,
        (m.written [("a", .bool true)]).returnsQuietly 1 [.step, .step])) =
      some ([], .ok ⟨1⟩, true, 2, .single "a", [], true) := by rfl
  obtain ⟨m, hwalk, heq⟩ := Option.map_eq_some_iff.mp hrun
  simp only [Prod.mk.injEq] at heq
  obtain ⟨hidle, hname, halive, hlength, hchanged, hrefused, hquiet⟩ := heq
  have hwrites : m.Writes ⟨1⟩ [("a", .bool true)] (m.written [("a", .bool true)]) [.task (.reply .done)] :=
    .host hidle hname
  have hbound : (m.store.binder 0).registry.bindingsOf ⟨1⟩ ≠ [] := fun hnil => by
    rw [hnil] at hlength
    cases hlength
  obtain ⟨s, -, -, -, hstack⟩ := hwrites.spec
  obtain ⟨m', hreturns, hund⟩ := returns_of_returnsQuietly 0 hstack hquiet
  have hrenders := (renders_of_write (n := 0) ⟨_, hwalk⟩ (silent_of_idle hidle) hwrites halive hbound (by rw [hchanged]; rfl)).2
  obtain ⟨htells, tail, hacts, htail, -⟩ := hrenders _ m' hreturns hund
  rw [htail hrefused, hchanged, List.append_nil] at hacts
  exact ⟨m, _, m', hwalk, htells, hacts⟩

/-- **A batch with a refused write renders more than the change triggers**, though no callback does anything. -/
theorem refused_write_renders_all :
    ∃ m base turns m', initial.walk? guarded = some m ∧
      (m.Silent ∧ m.Writes ⟨1⟩ [("a", .bool true), ("b", .bool true)]
        (m.written [("a", .bool true), ("b", .bool true)]) base) ∧
      ((m.store.record ⟨1⟩).alive = true ∧ (m.store.binder 0).registry.bindingsOf ⟨1⟩ ≠ [] ∧
        ((m.store.record ⟨1⟩).batch [("a", .bool true), ("b", .bool true)]).changed.names = ["a"]) ∧
      ((m.written [("a", .bool true), ("b", .bool true)]).Returns base turns m' ∧
        (m.written [("a", .bool true), ("b", .bool true)]).Undisturbed 0 base turns) ∧
      (m.store.renderings = [] ∧ m'.store.renderings = [.rendered ⟨1⟩ ⟨"", ""⟩ (.bool true) 1,
        .rendered ⟨1⟩ ⟨"", ""⟩ (.bool true) 1, .rendered ⟨1⟩ ⟨"", "title"⟩ .null 1]) ∧
      (((m.store.binder 0).registry.bindingsOf ⟨1⟩).filter
        (·.isTriggeredBy (.single "a"))).map (·.key) = [⟨"", ""⟩] := by
  have hrun : (initial.walk? guarded).map (fun m =>
      (m.stack, m.session.workspace.record? "record", (m.store.record ⟨1⟩).alive,
        ((m.store.record ⟨1⟩).batch [("a", .bool true), ("b", .bool true)]).changed.names,
        (m.written [("a", .bool true), ("b", .bool true)]).returnsQuietly 1 [.step, .step, .step, .step, .step],
        m.store.renderings,
        ((m.written [("a", .bool true), ("b", .bool true)]).walk? [.step, .step, .step, .step, .step]).map
          (·.store.renderings),
        (((m.store.binder 0).registry.bindingsOf ⟨1⟩).filter
          (·.isTriggeredBy (.single "a"))).map (·.key))) =
      some ([], .ok ⟨1⟩, true, ["a"], true, [], some [.rendered ⟨1⟩ ⟨"", ""⟩ (.bool true) 1,
        .rendered ⟨1⟩ ⟨"", ""⟩ (.bool true) 1, .rendered ⟨1⟩ ⟨"", "title"⟩ .null 1], [⟨"", ""⟩]) := by rfl
  obtain ⟨m, hwalk, heq⟩ := Option.map_eq_some_iff.mp hrun
  simp only [Prod.mk.injEq] at heq
  obtain ⟨hidle, hname, halive, hchanged, hquiet, hbefore, hafter, htriggered⟩ := heq
  have hwrites : m.Writes ⟨1⟩ [("a", .bool true), ("b", .bool true)]
      (m.written [("a", .bool true), ("b", .bool true)]) [.task (.reply .done)] := .host hidle hname
  have hbound : (m.store.binder 0).registry.bindingsOf ⟨1⟩ ≠ [] := fun hnil => by
    rw [hnil] at htriggered
    cases htriggered
  obtain ⟨s, -, -, -, hstack⟩ := hwrites.spec
  obtain ⟨m', hreturns, hund⟩ := returns_of_returnsQuietly 0 hstack hquiet
  rw [hreturns.walk] at hafter
  have hrenderings := Option.some.inj hafter
  exact ⟨m, _, _, m', hwalk, ⟨silent_of_idle hidle, hwrites⟩, ⟨halive, hbound, hchanged⟩, ⟨hreturns, hund⟩,
    ⟨hbefore, hrenderings⟩, htriggered⟩

end Machine

end Databind
