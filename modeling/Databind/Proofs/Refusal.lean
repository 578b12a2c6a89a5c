import Databind.Proofs.Announcement
import Databind.Proofs.Dropping
import Databind.Proofs.Reading
import Databind.Proofs.Rerender

/-!
# `Proofs.Refusal` — an edit that is refused is taken back

An edit of an element is written back, and the validator of the record refuses it. Nothing is stored then and no change
is announced; the record asks to be rendered instead. A binder that has bindings of the record shows every one of them,
whatever triggers it, in order, on the fields as they are. So every element that a binding selects in that round shows
what is stored, unless a later binding paints over it.

## Main definitions

* `Machine.SnapsBack` — the record stays as it is, and a binder shows its bindings once.
-/

namespace Databind

open Store

namespace Machine

variable {m m₀ m' : Machine} {base below inner : List Frame} {turns : List Turn} {n : Nat} {b : Binder} {id : RecordId}
  {fields : Fields} {version : Nat}

/-! ## A batch that is refused -/

/-- **A batch that alters nothing and is refused in part** asks for the record to be rendered, and leaves it as it is. -/
theorem steady_of_refused {entries : List (String × Value)} (hm : m.Sound) (hwrites : m.Writes id entries m₀ base)
    (halive : (m.store.record id).alive = true)
    (hchanged : ((m.store.record id).batch entries).changed.isEmpty = true)
    (hrefused : ((m.store.record id).batch entries).refused ≠ []) (n : Nat) :
    m₀.stack = .task (.request id) :: base ∧ (m₀.store.record id).alive = true ∧
      Steady n (m.store.binder n) id (m.store.fields id) (m.store.record id).version m₀ [] := by
  obtain ⟨s, hextends, hrecords, hstore, hstack⟩ := hwrites.spec
  have hrecord : s.record id = m.store.record id := by simp only [Store.record, hrecords]
  have hthere : id.number < s.records.size := hrecords ▸ lt_of_alive _ halive
  rw [write_of_unchanged (hrecord ▸ halive) (hrecord ▸ hchanged), hrecord] at hstore hstack
  have hsound : Scene.Sound ⟨s, m.calls⟩ := (Effects.extended hextends m.calls).sound hm.scene
  have hstored : Effects ⟨s, m.calls⟩ [.wrote id] ⟨s.stored id entries, m.calls⟩ := stored_effects s id entries
  have hfollows := hstored.follows hsound
  have hrequests : requestsOf id ((m.store.record id).batch entries) = [.request id] :=
    if_neg fun hempty => hrefused (List.isEmpty_iff.mp hempty)
  rw [hrequests] at hstack
  refine ⟨hstack, ?_, hwrites.sound hm, ?_, ?_, .inl ⟨?_, ?_⟩⟩
  · rw [hstore, hfollows.alive id hthere (by simp), hrecord, halive]
  · rw [hstore, hfollows.binder n rfl, hextends.binder]
  · rw [hstore]
    exact lt_size_stored hthere entries
  · rw [hstore, fields_stored s entries hthere, hrecord, Record.fields_batch hchanged]
    rfl
  · rw [hstore, version_stored (hrecord ▸ halive) entries, hrecord, if_pos hchanged]

/-- **An edit is taken back.** The record is as it was before, and no change of it was announced. The binder shows every
binding of the record once, in order, at one turn of the run and does nothing else; after that turn, every element shows
the value of the binding that painted it last, and it shows it to the end if nobody alters the element. -/
structure SnapsBack (m : Machine) (n : Nat) (id : RecordId) (m₀ : Machine) (turns : List Turn) (m' : Machine) : Prop where
  fields : m'.store.fields id = m.store.fields id
  version : (m'.store.record id).version = (m.store.record id).version
  unannounced : m.begun m₀ = [] ∧ (m₀.emitted turns).filter (·.1 = id) = []
  acts : actsOf n (m₀.deeds turns) = (m.store.binder n).repaintedAll n id (m.store.fields id)
  journal : m.store.Tells (m₀.deeds turns) m'.store
  shown : ∃ before behind m₁ m₂, turns = before ++ .step :: behind ∧ m₀.walk? before = some m₁ ∧
    m₁.turn? .step = some m₂ ∧ m₂.walk? behind = some m' ∧
    actsOf n (m₁.turnDeeds .step) = (m.store.binder n).repaintedAll n id (m.store.fields id) ∧
    let tree := (m.store.binder n).scope.tree
    ∀ c x, x < (m₁.store.arena tree).size → m₁.store.PaintsLast tree x (n, c) (m₁.store.arena tree)
        (((m.store.binder n).registry.bindingsOf id).map (n, ·)) →
      (m₂.store.arena tree).Shows x c.target (c.value (m.store.fields id)) ∧
        ((m'.store.arena tree).content x = (m₂.store.arena tree).content x →
          (m'.store.arena tree).children x = (m₂.store.arena tree).children x →
          (m'.store.arena tree).Shows x c.target (c.value (m.store.fields id)))

/-- **What a binder shows when it hears that a record is to be rendered.** -/
theorem shows_of_repaintAll {m₁ m₂ : Machine} (hs : Steady n b id fields version m₁ []) (hb : Attentive b id)
    (hstore : m₂.store = Session.react m₁.store (.repaintAll n id) .render) {c : Binding} {x : Nat}
    (hx : x < (m₁.store.arena b.scope.tree).size)
    (hlast : m₁.store.PaintsLast b.scope.tree x (n, c) (m₁.store.arena b.scope.tree)
      ((b.registry.bindingsOf id).map (n, ·))) :
    (m₂.store.arena b.scope.tree).Shows x c.target (c.value fields) := by
  have htree : b.scope.tree < m₁.store.trees.size :=
    hs.binder ▸ hs.sound.scene.store_wired.scopes n (hs.binder ▸ hb.live)
  have hshows := (shows_react htree (.repaintAll n id) Signal.repaints_render).arena
  rw [← hstore] at hshows
  simp only [shownBy, hs.binder, hb.live, Bool.false_eq_true, if_false] at hshows
  have hvalue := shows_of_paintsLast hlast hx
  obtain ⟨c', hc, heq⟩ := List.mem_map.mp (mem_of_paintsLast hlast)
  cases heq
  rw [← hshows, hb.registry.record_of_mem hc, hs.settled.1] at hvalue
  exact hvalue

/-- A value that a validator refuses leaves a batch with nothing else in it. -/
theorem batch_of_error {r : Record} {validate : Validator} (hvalidator : r.validator = some validate) {name reason : String}
    {v : Value} (hrejected : validate name v = .error reason) :
    (r.batch [(name, v)]).changed.isEmpty = true ∧ (r.batch [(name, v)]).refused = [(name, reason)] := by
  simp only [Record.batch, List.foldl_cons, List.foldl_nil, Record.Batch.write, hvalidator, hrejected]
  exact ⟨rfl, rfl⟩

/-- Only a validator refuses a value. -/
theorem error_of_batch {r : Record} {name reason : String} {v : Value}
    (hrefused : (r.batch [(name, v)]).refused = [(name, reason)]) :
    ∃ validate, r.validator = some validate ∧ validate name v = .error reason := by
  have hstored (b : Record.Batch) (v : Value) : (b.store name v).refused = b.refused := by
    unfold Record.Batch.store
    split <;> rfl
  simp only [Record.batch, List.foldl_cons, List.foldl_nil, Record.Batch.write] at hrefused
  split at hrefused
  · rw [hstored] at hrefused
    cases hrefused
  · next validate hvalidator =>
    refine ⟨validate, hvalidator, ?_⟩
    split at hrefused
    · rw [hstored] at hrefused
      cases hrefused
    · next heq =>
      cases hrefused
      exact heq

/-- **Rejected write-backs snap back.** While no notification is in progress, the handler of a two-way binding of a
living record is to write back what an element shows, and the validator of the record refuses it. The write-back returns,
and if callbacks do nothing to the binder meanwhile, the edit is taken back. -/
theorem snapsBack_of_rejected (h : m.Reached) (hsilent : m.Silent) (halive : (m.store.record id).alive = true)
    {c : Binding} (hc : c ∈ (m.store.binder n).registry.bindingsOf id) {name : String} (hfield : c.accessor = .field name)
    {tree root x : Nat} {pinned : List Nat} {event : String} {waiting : List (EventHandler × Nat)} {rest : List Frame}
    (hstack : m.stack = .task (.dispatch tree pinned event (((c.delegation root).handler, x) :: waiting)) :: rest)
    {validate : Validator} (hvalidator : (m.store.record id).validator = some validate) {reason : String}
    (hrejected : validate name (((m.store.arena tree).readBack x c.target).coerce
      ((m.store.fields id).get name).kind c.negate) = .error reason) (hstep : m.step? = some m₀) :
    (∃ turns m', m₀.Returns (.task (.dispatch tree pinned event waiting) :: rest) turns m') ∧
      ∀ turns m', m₀.Returns (.task (.dispatch tree pinned event waiting) :: rest) turns m' →
        m₀.Undisturbed n (.task (.dispatch tree pinned event waiting) :: rest) turns → m.SnapsBack n id m₀ turns m' := by
  have hm := h.sound
  have hbound : (m.store.binder n).registry.bindingsOf id ≠ [] := List.ne_nil_of_mem hc
  have hb := attentive_of_bound hm h.registered hbound
  have hhandler : (c.delegation root).handler = .writeBack ⟨id, name, c.target, c.negate⟩ := by
    rw [Binding.delegation, hb.registry.record_of_mem hc, hfield]
    rfl
  rw [hhandler] at hstack
  have hwrites := Writes.handler hstack rfl rfl hstep
  obtain ⟨hchanged, hrefused⟩ := batch_of_error hvalidator hrejected
  obtain ⟨hstack₀, halive₀, hs₀⟩ := steady_of_refused hm hwrites halive hchanged (by rw [hrefused]; simp) n
  refine ⟨@exists_returns _ m₀ [_] hstack₀, fun turns m' hreturns hund => ?_⟩
  obtain ⟨behind, m₁, pinned₁, called, rfl, hturn, hnone, hs₁, hstack₁, hbehind, hcalled⟩ :=
    calls_of_request hb hs₀ hstack₀ (hwrites.silent hsilent hstack₀) hreturns
  rw [if_pos halive₀] at hcalled
  obtain ⟨front, back, rfl, hfront, -, hback⟩ := List.filter_eq_cons_iff.mp hcalled
  obtain ⟨before, after, m₂, m₃, rfl, hwalk, hturn₂, hafter, hstore, hearlier, hacts, hlater, hs₂, hs'⟩ :=
    hears_of_notification (l := .repaintAll n id) hb rfl (fun s => keeps_repaintAll s n id)
      (fun _ => acts_of_repaintAll hb) ⟨[], rfl⟩ (fun l' hl' => by simpa using hfront l' hl')
      (fun l' hl' => by simpa using List.filter_eq_nil_iff.mp hback l' hl') hs₁ (.inl rfl) hstack₁ hbehind
      (hund.2 m₁ hturn)
  have hversion := version_walk hs₀.sound hreturns.walk id
  have hbegun := (hwrites.outcome.resolve_right fun hannounced => ?_).begun
  · refine {
      fields := hs'.settled.1
      version := hs'.settled.2
      unannounced := ⟨hbegun, ?_⟩
      acts := ?_
      journal := hwrites.tells hm hreturns
      shown := ⟨.step :: before, after, m₂, m₃, rfl, ?_, hturn₂, hafter, hacts, fun c' y hy hlast => ?_⟩ }
    · rw [hs'.settled.2, hs₀.settled.2] at hversion
      exact List.eq_nil_of_length_eq_zero (by omega)
    · rw [deeds, hturn, Option.elim_some, hnone, List.nil_append, deeds_append hwalk, actsOf_append,
        hearlier, List.nil_append, deeds, hturn₂, Option.elim_some, actsOf_append, hacts, hlater, List.append_nil]
    · simp only [walk?, hturn, Option.bind_some, hwalk]
    · have hshows := shows_of_repaintAll hs₂ hb hstore hy hlast
      refine ⟨hshows, fun hcontent hchildren => ?_⟩
      rw [Arena.Shows, hcontent, hchildren]
      exact hshows
  · obtain ⟨set, hannounces⟩ := hannounced
    have hcounted := hannounces.counted
    rw [hs₀.settled.2] at hcounted
    omega

/-! ## Runs -/

/-- A `div` and a `p` in a page. -/
def framed : Spec := .node (.ofTag "main") [.node (.ofTag "div") [], .node (.ofTag "p") []]

/-- A record that refuses everything. Its field is shown as the text of the `div`; then the `div` gets an `input`, and the
field is bound to the values of the `input` and of the `p` as well, two-way. -/
def refusing : List Turn :=
  [.command (.act (.tree (.make "tree" framed))), .step,
    .command (.act (.record (.make "record" [("a", .string "ok")]))), .step,
    .command (.act (.record (.install "record" (Rule.reject.validator none)))), .step,
    .command (.act (.binder (.make "binder" "tree" (.given none none none)))), .step,
    .command (.act (.binder (.bind "binder" "record" (.field "a") ⟨"div", ""⟩ .off true))), .step,
    .command (.act (.tree (.append "input" (.first "tree" "div") "tree" (.node (.ofTag "input") [])))), .step,
    .command (.act (.binder (.bind "binder" "record" (.field "a") ⟨"input", "value"⟩ .defaultEvent true))), .step,
    .command (.act (.binder (.bind "binder" "record" (.field "a") ⟨"p", "value"⟩ .defaultEvent true))), .step]

/-- A listener that alters the value of the `p` when the record is to be rendered. -/
def meddling : List Turn :=
  [.command (.listen (.requests "record") "guard" "A"
    [.act (.tree (.change (.first "tree" "p") .value (.string "other")))] 1), .step]

/-- A user types into an element. -/
def typing (selector : String) : List Turn :=
  [.command (.act (.tree (.change (.first "tree" selector) .value (.string "bad")))), .step]

/-- The event of the element is dispatched. -/
def fired (selector : String) (m : Machine) : Machine :=
  .start m.session (.act (.tree (.dispatch "tree" "change" (.first "tree" selector))))

/-- A machine in which an event has just come to an element, whose handler is to write back what the record refuses. -/
structure Refuses (m : Machine) (c : Binding) (x : Nat) : Prop where
  reached : m.Reached
  silent : m.Silent
  alive : (m.store.record ⟨1⟩).alive = true
  bound : c ∈ (m.store.binder 0).registry.bindingsOf ⟨1⟩
  accessor : c.accessor = .field "a"
  target : c.target = .value
  stack : ∃ pinned, m.stack =
    .task (.dispatch 0 pinned "change" [((c.delegation 0).handler, x)]) :: [.task (.reply (.count 1))]
  rejected : ∃ validate, (m.store.record ⟨1⟩).validator = some validate ∧
    validate "a" (((m.store.arena 0).readBack x c.target).coerce ((m.store.fields ⟨1⟩).get "a").kind c.negate) =
      .error "rejected"

/-- **An event has come to an element in which "bad" was typed**, with or without the listener that meddles. -/
theorem refuses_of_typing {listening : List Turn} {selector : String} {x : Nat}
    (h : listening = [] ∧ selector = "p" ∧ x = 2 ∨ listening = meddling ∧ selector = "input" ∧ x = 3) :
    ∃ m c, initial.walk? (refusing ++ listening ++ typing selector) = some m ∧ m.stack = [] ∧
      (m.fired selector).Refuses c x := by
  have hnamed : ((initial.walk? (refusing ++ listening ++ typing selector)).map fun m =>
      (m.stack.isEmpty, (m.session.workspace.scope? "tree").toOption,
        m.session.workspace.element? (.first "tree" selector))) = some (true, some ⟨0, 0⟩, some x) := by
    rcases h with ⟨rfl, rfl, rfl⟩ | ⟨rfl, rfl, rfl⟩ <;> decide +kernel
  have hmet : ((initial.walk? (refusing ++ listening ++ typing selector)).map fun m =>
      (handlersMet (m.store.tree 0) "change" x).map fun p => (p.1.listener.handler, p.2)) =
      some [(.writeBack ⟨⟨1⟩, "a", .value, false⟩, x)] := by
    rcases h with ⟨rfl, rfl, rfl⟩ | ⟨rfl, rfl, rfl⟩ <;> decide +kernel
  have hbound : ((initial.walk? (refusing ++ listening ++ typing selector)).map fun m =>
      (((m.fired selector).store.binder 0).registry.bindingsOf ⟨1⟩).map fun c =>
        (c.accessor.field?, c.target, c.negate, (c.delegation 0).handler)) =
      some [(some "a", .text, false, .writeBack ⟨⟨1⟩, "a", .text, false⟩),
        (some "a", .value, false, .writeBack ⟨⟨1⟩, "a", .value, false⟩),
        (some "a", .value, false, .writeBack ⟨⟨1⟩, "a", .value, false⟩)] := by
    rcases h with ⟨rfl, rfl, rfl⟩ | ⟨rfl, rfl, rfl⟩ <;> decide +kernel
  have hrejected : ((initial.walk? (refusing ++ listening ++ typing selector)).map fun m =>
      let s := (m.fired selector).store
      ((s.record ⟨1⟩).alive, ((s.record ⟨1⟩).batch [("a", ((s.arena 0).readBack x .value).coerce
        ((s.fields ⟨1⟩).get "a").kind false)]).refused)) = some (true, [("a", "rejected")]) := by
    rcases h with ⟨rfl, rfl, rfl⟩ | ⟨rfl, rfl, rfl⟩ <;> decide +kernel
  obtain ⟨m, hwalk, hidle⟩ := Option.map_eq_some_iff.mp hnamed
  rw [hwalk, Option.map_some, Option.some.injEq] at hmet hbound hrejected
  simp only [Prod.mk.injEq] at hidle hrejected
  obtain ⟨hidle, hscope, htarget⟩ := hidle
  obtain ⟨halive, hrejected⟩ := hrejected
  have hidle := List.isEmpty_iff.mp hidle
  -- the binding that was made last
  obtain ⟨_, cs, hcs, -, hbound⟩ := List.map_eq_cons_iff.mp hbound
  obtain ⟨_, cs', rfl, -, hbound⟩ := List.map_eq_cons_iff.mp hbound
  obtain ⟨c, rfl, hfacts⟩ := List.map_eq_singleton_iff.mp hbound
  simp only [Prod.mk.injEq] at hfacts
  obtain ⟨hfield, htype, hnegate, hhandler⟩ := hfacts
  have hfires : m.Fires 0 "change" x (m.fired selector) fun count => [.task (.reply (.count count))] :=
    .host hidle (ok_of_toOption hscope) rfl htarget
  obtain ⟨pinned, hstack⟩ := hfires.stack
  rw [hmet, ← List.length_map, hmet] at hstack
  refine ⟨m, c, hwalk, hidle, ?_, ?_, halive, ?_, Accessor.eq_of_field? hfield, htype,
    ⟨pinned, by rw [hstack, hhandler]; rfl⟩, ?_⟩
  · have hreached : m.Reached := ⟨_, hwalk⟩
    have hturn : m.walk? [.command (.act (.tree (.dispatch "tree" "change" (.first "tree" selector))))] =
        some (m.fired selector) := by
      simp only [walk?, turn?, hidle, List.isEmpty_nil, if_true, Option.bind_some]
      rfl
    exact hreached.walk hturn
  · intro channel pinned signal waiting hmem
    rw [hstack] at hmem
    simp at hmem
  · rw [hcs]
    simp
  · rw [htype, hnegate]
    exact error_of_batch hrejected

/-- The write-back and the run to its end, if the run is one in which callbacks keep apart. -/
theorem Refuses.returns {c : Binding} {x : Nat} (h : m.Refuses c x) {rest : List Turn}
    (hrun : (m.step?.map fun m₀ => m₀.returnsApart 0 2 rest) = some true) :
    ∃ m₀ pinned m', m.step? = some m₀ ∧
      m.stack = .task (.dispatch 0 pinned "change" [((c.delegation 0).handler, x)]) :: [.task (.reply (.count 1))] ∧
      m₀.Returns [.task (.dispatch 0 pinned "change" []), .task (.reply (.count 1))] rest m' ∧
      m₀.Undisturbed 0 [.task (.dispatch 0 pinned "change" []), .task (.reply (.count 1))] rest := by
  obtain ⟨m₀, hstep, hrun⟩ := Option.map_eq_some_iff.mp hrun
  obtain ⟨pinned, hstack⟩ := h.stack
  have htask : m.runTask [.task (.reply (.count 1))]
      (.dispatch 0 pinned "change" [((c.delegation 0).handler, x)]) = m₀ := by
    simpa only [step?, hstack, Option.some.injEq] using hstep
  subst htask
  obtain ⟨m', hreturns, hund⟩ := @returns_of_returnsApart _ [.task (.dispatch 0 pinned "change" []),
    .task (.reply (.count 1))] _ _ _ rfl hrun
  exact ⟨_, pinned, m', hstep, hstack, hreturns, hund⟩

/-- What was typed into the `p` is taken back. -/
theorem snapsBack_of_rejected_typed :
    ∃ m c m₀ turns m', initial.walk? (refusing ++ [] ++ typing "p") = some m ∧ (m.fired "p").Refuses c 2 ∧
      (m.fired "p").step? = some m₀ ∧ ((m₀.store.arena 0).content 2).value = "bad" ∧
      (m.fired "p").SnapsBack 0 ⟨1⟩ m₀ turns m' ∧ ((m'.store.arena 0).content 2).value = "ok" := by
  have hrun : ((initial.walk? (refusing ++ [] ++ typing "p")).bind fun m => (m.fired "p").step?.map fun m₀ =>
      (m₀.returnsApart 0 2 [.step, .step, .step], ((m₀.store.arena 0).content 2).value,
        (m₀.walk? [.step, .step, .step]).map fun m' => ((m'.store.arena 0).content 2).value)) =
      some (true, "bad", some "ok") := by decide +kernel
  obtain ⟨m, c, hwalk, hidle, hrefuses⟩ := refuses_of_typing (.inl ⟨rfl, rfl, rfl⟩)
  rw [hwalk, Option.bind_some] at hrun
  obtain ⟨m₀, hstep, hfacts⟩ := Option.map_eq_some_iff.mp hrun
  simp only [Prod.mk.injEq] at hfacts
  obtain ⟨hapart, htyped, hshown⟩ := hfacts
  obtain ⟨m₁, pinned, m', hstep', hstack, hreturns, hund⟩ :=
    hrefuses.returns (by rw [hstep, Option.map_some, hapart])
  cases hstep.symm.trans hstep'
  obtain ⟨validate, hvalidator, hrejected⟩ := hrefuses.rejected
  have hsnaps := (snapsBack_of_rejected hrefuses.reached hrefuses.silent hrefuses.alive hrefuses.bound hrefuses.accessor
    hstack hvalidator hrejected hstep).2 _ m' hreturns hund
  rw [hreturns.walk] at hshown
  exact ⟨m, c, m₀, _, m', hwalk, hrefuses, hstep, htyped, hsnaps, Option.some.inj hshown⟩

/-- **A refused edit can stay on its element, and what was shown can be painted over.** The binder shows the text of the
`div` first, which takes the `input` out of the tree, so that the selector of the second binding finds it no more: the
`input` keeps what was typed, though no later binding writes its value. The third binding shows its value on the `p`; the
listener is called after the binder, does nothing to the binder, and alters that value. -/
theorem rejected_edit_stays :
    ∃ m c m₀ base turns m', initial.walk? (refusing ++ meddling ++ typing "input") = some m ∧
      (m.fired "input").Refuses c 3 ∧ (m.fired "input").step? = some m₀ ∧ m₀.Returns base turns m' ∧
      m₀.Undisturbed 0 base turns ∧ ((m.store.binder 0).registry.bindingsOf ⟨1⟩).map (·.key) =
        [⟨"div", ""⟩, ⟨"input", "value"⟩, ⟨"p", "value"⟩] ∧
      (m.store.select ⟨0, 0⟩ "input").2 = [3] ∧ (m.store.select ⟨0, 0⟩ "p").2 = [2] ∧
      (m'.store.fields ⟨1⟩).get "a" = .string "ok" ∧ ((m'.store.arena 0).content 3).value = "bad" ∧
      ((m'.store.arena 0).content 2).value = "other" := by
  have hbefore : ((initial.walk? (refusing ++ meddling ++ typing "input")).map fun m =>
      (((m.store.binder 0).registry.bindingsOf ⟨1⟩).map (·.key), (m.store.select ⟨0, 0⟩ "input").2,
        (m.store.select ⟨0, 0⟩ "p").2)) =
      some ([⟨"div", ""⟩, ⟨"input", "value"⟩, ⟨"p", "value"⟩], [3], [2]) := by decide +kernel
  have hrun : ((initial.walk? (refusing ++ meddling ++ typing "input")).bind fun m => (m.fired "input").step?.map fun m₀ =>
      (m₀.returnsApart 0 2 (List.replicate 7 .step), (m₀.walk? (List.replicate 7 .step)).map fun m' =>
        ((m'.store.fields ⟨1⟩).get "a", ((m'.store.arena 0).content 3).value, ((m'.store.arena 0).content 2).value))) =
      some (true, some (.string "ok", "bad", "other")) := by decide +kernel
  obtain ⟨m, c, hwalk, hidle, hrefuses⟩ := refuses_of_typing (.inr ⟨rfl, rfl, rfl⟩)
  rw [hwalk, Option.bind_some] at hrun
  rw [hwalk, Option.map_some, Option.some.injEq] at hbefore
  obtain ⟨m₀, hstep, hfacts⟩ := Option.map_eq_some_iff.mp hrun
  simp only [Prod.mk.injEq] at hfacts hbefore
  obtain ⟨hkeys, hinput, hp⟩ := hbefore
  obtain ⟨m₁, pinned, m', hstep', -, hreturns, hund⟩ :=
    hrefuses.returns (by rw [hstep, Option.map_some, hfacts.1])
  cases hstep.symm.trans hstep'
  rw [hreturns.walk] at hfacts
  simp only [Option.map_some, Option.some.injEq, Prod.mk.injEq] at hfacts
  obtain ⟨-, hstored, htyped, haltered⟩ := hfacts
  exact ⟨m, c, m₀, _, _, m', hwalk, hrefuses, hstep, hreturns, hund, hkeys, hinput, hp, hstored, htyped, haltered⟩

end Machine

end Databind
