import Databind.Proofs.Standing

/-!
# `Proofs.Failure` — what fails changes nothing

Attaching a map fails exactly if one of the checks it consists of does, wherever in the map that is: reading a
key, compiling an expression, finding a member, normalizing a property, or finding the record alive. All checks
come before the first change, so a failure leaves nothing behind but notices.

## Main definitions

* `FirstFailure` — a check fails on an element of a list, after others that pass.
* `Store.Faulty` — a map at fault.
* `Store.Untouched` — nothing but the notices differs.
-/

namespace Databind

/-- A check fails on an element of a list, and on none before it. -/
def FirstFailure {ε α β : Type} (check : α → Except ε β) (xs : List α) (e : ε) : Prop :=
  ∃ before x behind, xs = before ++ x :: behind ∧ (∀ y ∈ before, ∃ b, check y = .ok b) ∧ check x = .error e

section

variable {ε α β : Type} {check : α → Except ε β} {e : ε}

theorem not_firstFailure_nil : ¬FirstFailure check [] e := by
  rintro ⟨before, x, behind, hsplit, -⟩
  cases before <;> cases hsplit

theorem firstFailure_cons_of_error {x : α} {e' : ε} (hx : check x = .error e') (rest : List α) :
    FirstFailure check (x :: rest) e ↔ e' = e := by
  constructor
  · rintro ⟨before, y, behind, hsplit, hbefore, hy⟩
    cases before with
    | nil =>
      cases hsplit
      exact Except.error.inj (hx.symm.trans hy)
    | cons z before =>
      cases hsplit
      obtain ⟨b, hz⟩ := hbefore x List.mem_cons_self
      cases hx.symm.trans hz
  · rintro rfl
    exact ⟨[], x, rest, rfl, fun y hy => absurd hy List.not_mem_nil, hx⟩

theorem firstFailure_cons_of_ok {x : α} {b : β} (hx : check x = .ok b) (rest : List α) :
    FirstFailure check (x :: rest) e ↔ FirstFailure check rest e := by
  constructor
  · rintro ⟨before, y, behind, hsplit, hbefore, hy⟩
    cases before with
    | nil =>
      cases hsplit
      cases hx.symm.trans hy
    | cons z before =>
      cases hsplit
      exact ⟨before, y, behind, rfl, fun w hw => hbefore w (List.mem_cons_of_mem _ hw), hy⟩
  · rintro ⟨before, y, behind, rfl, hbefore, hy⟩
    refine ⟨x :: before, y, behind, rfl, fun w hw => ?_, hy⟩
    rcases List.mem_cons.mp hw with rfl | hw
    · exact ⟨b, hx⟩
    · exact hbefore w hw

/-- **A recursion that checks a list and puts the results together fails where a check does first.** -/
theorem eq_error_iff_firstFailure {γ : Type} (collect : List α → Except ε γ) (put : β → γ → γ) {start : γ}
    (hnil : collect [] = .ok start)
    (hcons : ∀ x rest, collect (x :: rest) = (check x).bind fun b => (collect rest).map (put b)) (xs : List α) :
    collect xs = .error e ↔ FirstFailure check xs e := by
  induction xs with
  | nil =>
    rw [hnil]
    exact iff_of_false (fun h => by cases h) not_firstFailure_nil
  | cons x rest ih =>
    rw [hcons]
    cases hx : check x with
    | error e' => rw [firstFailure_cons_of_error hx, Except.bind, Except.error.injEq]
    | ok b =>
      rw [firstFailure_cons_of_ok hx, ← ih, Except.bind]
      cases collect rest with
      | error e' => exact Iff.rfl
      | ok c => exact iff_of_false (fun h => by cases h) fun h => by cases h

end

namespace Store

/-! ## Checks of a map -/

/-- Check an entry of a map on one record. -/
def checkEntry (s : Store) (n : Nat) (autoRender : Bool) (id : RecordId) (entry : String × MapValue) :
    Except BindError Prepared := do
  let descriptor ← Descriptor.parse entry.1 (s.binder n).config.defaultEvent
  let property ← entry.2.property? entry.1
  s.prepareAt n autoRender id descriptor property

/-- Check an entry of a plan. -/
def checkPlanned (s : Store) (n : Nat) (autoRender : Bool) (planned : Planned) : Except BindError Prepared :=
  s.prepareAt n autoRender planned.record planned.descriptor planned.property

/-- **A map at fault**: the first check that fails, and why. Under a collection the whole map is expanded before
the bindings of its plan are checked. -/
def Faulty (s : Store) (n : Nat) (source : Source) (map : BindingMap) (autoRender : Bool) (e : BindError) : Prop :=
  match source with
  | .none => False
  | .record id => FirstFailure (s.checkEntry n autoRender id) map.entries e
  | .collection c =>
    let event := (s.binder n).config.defaultEvent
    FirstFailure (fun entry => s.expandEntry c event entry.1 entry.2) map.entries e ∨
      ∃ plan, s.expand c map event = .ok plan ∧ FirstFailure (s.checkPlanned n autoRender) plan e

variable {s : Store} {n : Nat} {autoRender : Bool} {e : BindError}

/-- **A map for one record is refused** with what is wrong with the first of its entries that is wrong. -/
theorem prepareRecord_eq_error {id : RecordId} (entries : List (String × MapValue)) :
    s.prepareRecord n autoRender id entries = .error e ↔
      FirstFailure (s.checkEntry n autoRender id) entries e := by
  refine eq_error_iff_firstFailure (s.prepareRecord n autoRender id) List.cons rfl (fun entry rest => ?_) entries
  obtain ⟨key, value⟩ := entry
  simp only [prepareRecord, checkEntry, Bind.bind]
  cases Descriptor.parse key (s.binder n).config.defaultEvent with
  | error e => rfl
  | ok descriptor =>
    cases value.property? key with
    | error e => rfl
    | ok property =>
      simp only [Except.bind]
      cases s.prepareAt n autoRender id descriptor property with
      | error e => rfl
      | ok p => cases s.prepareRecord n autoRender id rest <;> rfl

/-- A plan for a collection is refused with what is wrong with the first of its bindings that is. -/
theorem preparePlan_eq_error (plan : List Planned) :
    s.preparePlan n autoRender plan = .error e ↔ FirstFailure (s.checkPlanned n autoRender) plan e := by
  refine eq_error_iff_firstFailure (s.preparePlan n autoRender) List.cons rfl (fun planned rest => ?_) plan
  simp only [preparePlan, checkPlanned, Bind.bind]
  cases s.prepareAt n autoRender planned.record planned.descriptor planned.property with
  | error e => rfl
  | ok p => cases s.preparePlan n autoRender rest <;> rfl

/-- A map cannot be expanded for the first of its entries that cannot. -/
theorem expandEntries_eq_error {c : Nat} {event : String} (entries : List (String × MapValue)) :
    s.expandEntries c event entries = .error e ↔
      FirstFailure (fun entry => s.expandEntry c event entry.1 entry.2) entries e := by
  refine eq_error_iff_firstFailure (s.expandEntries c event) List.append rfl (fun entry rest => ?_) entries
  obtain ⟨parent, value⟩ := entry
  simp only [expandEntries, Bind.bind]
  cases s.expandEntry c event parent value with
  | error e => rfl
  | ok here => cases s.expandEntries c event rest <;> rfl

/-! ## Failures -/

/-- **Nothing but the notices differs**: every binder with its registry, every record, collection and tree with
its listeners, and every event that was observed are as before. -/
structure Untouched (s s' : Store) : Prop where
  binders : s'.binders = s.binders
  records : s'.records = s.records
  collections : s'.collections = s.collections
  trees : s'.trees = s.trees
  views : s'.views = s.views
  lists : s'.lists = s.lists
  events : s'.journal.events = s.journal.events

theorem Untouched.refl (s : Store) : s.Untouched s := ⟨rfl, rfl, rfl, rfl, rfl, rfl, rfl⟩

theorem untouched_log (s : Store) (notice : Notice) : s.Untouched (s.log notice) :=
  ⟨rfl, rfl, rfl, rfl, rfl, rfl, rfl⟩

/-- A map without entries is not at fault. -/
theorem not_faulty_of_isEmpty {source : Source} {map : BindingMap} (h : map.isEmpty = true) :
    ¬s.Faulty n source map autoRender e := by
  have hentries : map.entries = [] := List.isEmpty_iff.mp h
  cases source with
  | none => exact id
  | record id =>
    rw [Faulty, hentries]
    exact not_firstFailure_nil
  | collection c =>
    rw [Faulty, expand, hentries]
    rintro (hentry | ⟨plan, hplan, hplanned⟩)
    · exact not_firstFailure_nil hentry
    · cases hplan
      exact not_firstFailure_nil hplanned

/-- **Attaching fails exactly if the map is at fault.** -/
theorem attach_eq_some_iff {source : Source} {map : BindingMap} {autoRender : Option Bool} :
    (s.attach n source map autoRender).2 = some e ↔
      s.Faulty n source map (autoRender.getD (s.binder n).config.autoRender) e := by
  unfold attach
  split
  · next hempty => exact iff_of_false (fun h => by cases h) (not_faulty_of_isEmpty hempty)
  · cases source with
    | none => exact iff_of_false (fun h => by cases h) id
    | record id =>
      simp only [attachRecord, Faulty]
      rw [← prepareRecord_eq_error]
      split
      · next e' herror => rw [herror, Option.some.injEq, Except.error.injEq]
      · next ps hps => rw [hps]; exact iff_of_false (fun h => by cases h) fun h => by cases h
    | collection c =>
      simp only [attachCollection, Faulty]
      rw [← expandEntries_eq_error, ← expand]
      cases hexpand : s.expand c map (s.binder n).config.defaultEvent with
      | error e' => simp
      | ok plan =>
        simp only [preparePlan_log, reduceCtorEq, false_or, Except.ok.injEq, exists_eq_left']
        rw [← preparePlan_eq_error]
        split
        · next e' herror => rw [herror, Option.some.injEq, Except.error.injEq]
        · next ps hps => rw [hps]; exact iff_of_false (fun h => by cases h) fun h => by cases h

/-- **An attachment that fails leaves everything as it is**, but for a notice. -/
theorem untouched_of_attach {source : Source} {map : BindingMap} {autoRender : Option Bool}
    (h : (s.attach n source map autoRender).2 = some e) : s.Untouched (s.attach n source map autoRender).1 := by
  unfold attach at h ⊢
  split at h
  · cases h
  · next hempty =>
    rw [if_neg hempty]
    cases source with
    | none => cases h
    | record id =>
      simp only [attachRecord] at h ⊢
      split at h
      · exact .refl s
      · cases h
    | collection c =>
      simp only [attachCollection] at h ⊢
      split at h
      · exact .refl s
      · split at h
        · exact s.untouched_log _
        · cases h

/-- **A binding that is refused leaves everything as it is**, but for a notice. -/
theorem untouched_of_bind {id : RecordId} {property : Property} {key : BindingKey} {twoWay : TwoWay}
    (h : (s.bind n id property key twoWay autoRender).2 = some e) :
    s.Untouched (s.bind n id property key twoWay autoRender).1 := by
  unfold Store.bind at h ⊢
  split at h
  · cases h
  · exact .refl s

/-- **Failures change nothing.** Attaching a map fails exactly if the map is at fault, whatever valid entries it has
beside the first one that fails; an attachment or a binding that fails leaves everything but the notices as it
was. -/
theorem untouched_of_failure (s : Store) (n : Nat) :
    (∀ source map autoRender e, (s.attach n source map autoRender).2 = some e →
      s.Untouched (s.attach n source map autoRender).1) ∧
    (∀ source map autoRender e, (s.attach n source map autoRender).2 = some e ↔
      s.Faulty n source map (autoRender.getD (s.binder n).config.autoRender) e) ∧
    ∀ id property key twoWay autoRender e, (s.bind n id property key twoWay autoRender).2 = some e →
      s.Untouched (s.bind n id property key twoWay autoRender).1 :=
  ⟨fun _ _ _ _ => untouched_of_attach, fun _ _ _ _ => attach_eq_some_iff, fun _ _ _ _ _ _ => untouched_of_bind⟩

/-- A map with an entry at fault between two others. -/
def mixed : BindingMap :=
  ⟨[("", .property (.field "a")), ("[title]", .property (.field "")), ("li", .property (.field "b"))]⟩

/-- Neither the map nor a function that is to be written back changes anything, although there is a binding under
the key of either. -/
theorem untouched_of_failure_rebound :
    ∃ m, Machine.initial.walk? Machine.rebound = some m ∧
      ((m.store.attach 0 (.record ⟨1⟩) mixed none).2 = some (.invalidProperty .emptyField) ∧
        m.store.Untouched (m.store.attach 0 (.record ⟨1⟩) mixed none).1) ∧
      (m.store.bind 0 ⟨1⟩ (.computed fun _ => .null) ⟨"", "title"⟩ .defaultEvent true).2 =
          some (.invalidCombination "" "title") ∧
        m.store.Untouched (m.store.bind 0 ⟨1⟩ (.computed fun _ => .null) ⟨"", "title"⟩ .defaultEvent true).1 := by
  have hrun : (Machine.initial.walk? Machine.rebound).map (fun m =>
      ((m.store.attach 0 (.record ⟨1⟩) mixed none).2,
        (m.store.bind 0 ⟨1⟩ (.computed fun _ => .null) ⟨"", "title"⟩ .defaultEvent true).2)) =
      some (some (.invalidProperty .emptyField), some (.invalidCombination "" "title")) := by rfl
  obtain ⟨m, hwalk, heq⟩ := Option.map_eq_some_iff.mp hrun
  obtain ⟨hattach, hbind⟩ := Prod.mk.inj heq
  obtain ⟨huntouched, -, huntouched'⟩ := untouched_of_failure m.store 0
  exact ⟨m, hwalk, ⟨hattach, huntouched _ _ _ _ hattach⟩, hbind, huntouched' _ _ _ _ _ _ hbind⟩

end Store

end Databind
