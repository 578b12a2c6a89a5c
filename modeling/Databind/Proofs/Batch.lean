import Databind.Proofs.Announcement
import Mathlib.Data.List.Induction

/-!
# `Proofs.Batch` — what a batch of writes comes to

A batch is told write by write. Each write has a fate: the validator refuses it, or it leaves its field as it is, or it
alters the field (`Record.Takes`). The fates of a batch and the fields that it leaves are determined by the fields that it
starts from (`Record.Course`), and everything else follows from the fates: the names of the notification are those of the
altering writes, each where it first stands, the version counts it, and a refused write is answered by a request to be
rendered once the notification is over.

The names may repeat, and a field that is altered and altered back is named. A value that is not equal to itself alters a
field that holds it.

## Main definitions

* `Record.Fate`, `Record.Takes`, `Record.Course` — what becomes of a write, and of a batch.
* `Machine.Lands` — what a batch of writes to a record leads to.
-/

namespace Databind

open Store

namespace Record

/-! ## The fates of writes -/

/-- The value that a write comes with, if the validator accepts it. -/
def accepted? (validator : Option Validator) (entry : String × Value) : Option Value :=
  match validator with
  | none => some entry.2
  | some validate => (validate entry.1 entry.2).toOption

/-- What a field holds that a value is written to: `undefined` removes it. -/
def held (v : Value) : Option Value := if v = .undefined then none else some v

/-- **A value leaves a field as it is**: one that equals what is stored, or `undefined` where nothing is. -/
def Leaves (fields : Fields) (name : String) (v : Value) : Prop :=
  match Dict.get? fields name with
  | none => v = .undefined
  | some old => v ≠ .undefined ∧ old.strictEqual v = true

instance (fields : Fields) (name : String) (v : Value) : Decidable (Leaves fields name v) :=
  match hget : Dict.get? fields name with
  | none => decidable_of_iff (v = .undefined) (by rw [Leaves, hget])
  | some old => decidable_of_iff (v ≠ .undefined ∧ old.strictEqual v = true) (by rw [Leaves, hget])

/-- What becomes of a write. -/
inductive Fate where
  | refused
  | kept
  | altered
deriving DecidableEq

/-- **One write of a batch**: its fate, and the fields after it. -/
inductive Takes (validator : Option Validator) (fields : Fields) (entry : String × Value) : Fate → Fields → Prop
  | refused (h : accepted? validator entry = none) : Takes validator fields entry .refused fields
  | kept {v : Value} (h : accepted? validator entry = some v) (hleaves : Leaves fields entry.1 v) :
    Takes validator fields entry .kept fields
  | altered {v : Value} {fields' : Fields} (h : accepted? validator entry = some v) (hleaves : ¬ Leaves fields entry.1 v)
    (hfields : ∀ name, Dict.get? fields' name = if name = entry.1 then held v else Dict.get? fields name) :
    Takes validator fields entry .altered fields'

/-- **A batch of writes**, one after the other: their fates, and the fields after the last. -/
inductive Course (validator : Option Validator) : Fields → List (String × Value) → List Fate → Fields → Prop
  | nil {fields : Fields} : Course validator fields [] [] fields
  | cons {fields fields' fields'' : Fields} {entry : String × Value} {entries : List (String × Value)} {fate : Fate}
    {fates : List Fate} (here : Takes validator fields entry fate fields')
    (behind : Course validator fields' entries fates fields'') :
    Course validator fields (entry :: entries) (fate :: fates) fields''

/-- The fields that writes alter, in order, one that is altered again as often. -/
def alteredNames : List (String × Value) → List Fate → List String
  | entry :: entries, .altered :: fates => entry.1 :: alteredNames entries fates
  | _ :: entries, _ :: fates => alteredNames entries fates
  | _, _ => []

variable {validator : Option Validator} {fields fields' fields'' : Fields} {entry : String × Value}
  {entries : List (String × Value)} {fate fate' : Fate} {fates fates' : List Fate}

/-- A write has one fate. -/
theorem Takes.unique (h : Takes validator fields entry fate fields') (h' : Takes validator fields entry fate' fields'') :
    fate' = fate ∧ fields'' = fields' := by
  cases h with
  | refused hnone =>
    cases h' with
    | refused _ => exact ⟨rfl, rfl⟩
    | kept hsome _ => cases hnone.symm.trans hsome
    | altered hsome _ _ => cases hnone.symm.trans hsome
  | kept hsome hleaves =>
    cases h' with
    | refused hnone => cases hnone.symm.trans hsome
    | kept _ _ => exact ⟨rfl, rfl⟩
    | altered hsome' halters _ =>
      cases hsome.symm.trans hsome'
      exact absurd hleaves halters
  | altered hsome halters hfields =>
    cases h' with
    | refused hnone => cases hnone.symm.trans hsome
    | kept hsome' hleaves =>
      cases hsome.symm.trans hsome'
      exact absurd hleaves halters
    | altered hsome' _ hfields' =>
      cases hsome.symm.trans hsome'
      refine ⟨rfl, Dict.ext_get? ?_⟩
      intro name
      rw [hfields, hfields']

/-- **A batch has one course.** -/
theorem Course.unique (h : Course validator fields entries fates fields')
    (h' : Course validator fields entries fates' fields'') : fates' = fates ∧ fields'' = fields' := by
  -- the other course goes through the same writes, and each of them leaves the same fields to the next
  induction h generalizing fates' fields'' with
  | nil =>
    cases h'
    exact ⟨rfl, rfl⟩
  | cons here _ ih =>
    cases h' with
    | cons here' behind' =>
      obtain ⟨rfl, rfl⟩ := here.unique here'
      obtain ⟨rfl, rfl⟩ := ih behind'
      exact ⟨rfl, rfl⟩

/-- A write alters no field but its own, and that one only if it is its fate. -/
theorem Takes.get? (h : Takes validator fields entry fate fields') {name : String}
    (hname : fate = .altered → name ≠ entry.1) : Dict.get? fields' name = Dict.get? fields name := by
  cases h with
  | refused _ => rfl
  | kept _ _ => rfl
  | altered _ _ hfields => rw [hfields, if_neg (hname rfl)]

/-- **A batch leaves the fields alone that it does not alter.** -/
theorem Course.get? (h : Course validator fields entries fates fields') {name : String}
    (hname : name ∉ alteredNames entries fates) : Dict.get? fields' name = Dict.get? fields name := by
  induction h with
  | nil => rfl
  | @cons _ _ _ entry entries fate fates here _ ih =>
    cases fate with
    | altered =>
      rw [alteredNames, List.mem_cons, not_or] at hname
      rw [ih hname.2, here.get? fun _ => hname.1]
    | refused => rw [ih hname, here.get? fun hfate => by cases hfate]
    | kept => rw [ih hname, here.get? fun hfate => by cases hfate]

/-- A batch names a field if it alters one. -/
theorem Course.mem_iff (h : Course validator fields entries fates fields') :
    .altered ∈ fates ↔ alteredNames entries fates ≠ [] := by
  induction h with
  | nil => simp [alteredNames]
  | @cons _ _ _ entry entries fate fates _ _ ih => cases fate <;> simp [alteredNames, ih]

/-! ## The fates of a batch -/

/-- Storing a value alters nothing exactly if it leaves the field as it is. -/
theorem store?_eq_none_iff {name : String} {v : Value} : fields.store? name v = none ↔ Leaves fields name v := by
  unfold Fields.store? Leaves Fields.has Dict.contains
  cases v <;> cases Dict.get? fields name <;> simp [Value.isUndefined]

/-- What is stored reads back. -/
theorem get?_of_store? {name : String} {v : Value} (h : fields.store? name v = some fields') (other : String) :
    Dict.get? fields' other = if other = name then held v else Dict.get? fields other := by
  unfold Fields.store? at h
  split at h
  · next hundefined =>
    have hheld : held v = none := by cases v <;> first | rfl | cases hundefined
    split at h
    · cases h
      rw [Dict.get?_erase, hheld]
    · cases h
  · next hdefined =>
    have hheld : held v = some v := by
      rw [held, if_neg]
      rintro rfl
      exact hdefined rfl
    split at h
    · cases h
    · cases h
      rw [Dict.get?_insert, hheld]

/-- The change set after a write of some fate. -/
def Fate.insert (fate : Fate) (set : ChangeSet) (name : String) : ChangeSet :=
  match fate with
  | altered => set.insert name
  | _ => set

/-- **What a write does to a batch**: its fate says it all. -/
structure Batch.Goes (validator : Option Validator) (b : Batch) (entry : String × Value) (fate : Fate) (b' : Batch) :
    Prop where
  takes : Takes validator b.fields entry fate b'.fields
  changed : b'.changed = fate.insert b.changed entry.1
  refused : b'.refused = [] ↔ b.refused = [] ∧ fate ≠ .refused

/-- An accepted value is stored. -/
theorem Batch.goes_store (b : Batch) {v : Value} (h : accepted? validator entry = some v) :
    ∃ fate, b.Goes validator entry fate (b.store entry.1 v) := by
  unfold store
  cases hstore : b.fields.store? entry.1 v with
  | none => exact ⟨.kept, .kept h (store?_eq_none_iff.mp hstore), rfl, by simp⟩
  | some fields =>
    have halters : ¬ Leaves b.fields entry.1 v := by
      rw [← store?_eq_none_iff, hstore]
      exact Option.some_ne_none _
    exact ⟨.altered, .altered h halters (get?_of_store? hstore), rfl, by simp⟩

/-- **Every write has a fate.** -/
theorem Batch.goes_write (validator : Option Validator) (b : Batch) (entry : String × Value) :
    ∃ fate, b.Goes validator entry fate (b.write validator entry) := by
  unfold write
  cases validator with
  | none => exact b.goes_store rfl
  | some validate =>
    have haccepted : accepted? (some validate) entry = (validate entry.1 entry.2).toOption := rfl
    cases hvalidate : validate entry.1 entry.2 with
    | ok v =>
      rw [hvalidate] at haccepted
      -- that the validator was asked does not matter to the fields
      obtain ⟨fate, hgoes⟩ := Batch.goes_store { b with consulted := b.consulted ++ [entry] } haccepted
      simp only [hvalidate]
      exact ⟨fate, hgoes.takes, hgoes.changed, hgoes.refused⟩
    | error reason =>
      rw [hvalidate] at haccepted
      simp only [hvalidate]
      exact ⟨.refused, .refused haccepted, rfl, by simp⟩

/-- The change set of names that are added one after the other. -/
theorem names_ofList (names : List String) : (ChangeSet.ofList names).names = names.eraseDups := by
  -- names are added at the end of a change set, so the list is taken apart from there
  induction names using List.reverseRecOn with
  | nil => rfl
  | append_singleton names name ih =>
    have hlast : ChangeSet.ofList (names ++ [name]) = (ChangeSet.ofList names).insert name := List.foldl_append
    rw [hlast, ChangeSet.insert, eraseDups_concat, ← ih]
    have hiff : name ∈ (ChangeSet.ofList names).names ↔ name ∈ names := ih ▸ List.mem_eraseDups
    by_cases hmem : name ∈ names
    · rw [dif_pos (hiff.mpr hmem), if_pos hmem]
    · rw [dif_neg (mt hiff.mp hmem), if_neg hmem]

/-- **The course of the writes that are left**: the names of those that alter are added to the change set. -/
theorem Batch.course_foldl (validator : Option Validator) (entries : List (String × Value)) (b : Batch) :
    ∃ fates, Course validator b.fields entries fates (entries.foldl (Batch.write validator) b).fields ∧
      (entries.foldl (Batch.write validator) b).changed = (alteredNames entries fates).foldl ChangeSet.insert b.changed ∧
      ((entries.foldl (Batch.write validator) b).refused = [] ↔ b.refused = [] ∧ .refused ∉ fates) := by
  -- the batch carries what the writes so far have done, so the induction is about any batch to begin with
  induction entries generalizing b with
  | nil => exact ⟨[], .nil, rfl, by simp⟩
  | cons entry entries ih =>
    obtain ⟨fate, hgoes⟩ := b.goes_write validator entry
    obtain ⟨fates, hcourse, hchanged, hrefused⟩ := ih (b.write validator entry)
    refine ⟨fate :: fates, .cons hgoes.takes hcourse, ?_, ?_⟩
    · rw [List.foldl_cons, hchanged, hgoes.changed]
      cases fate <;> rfl
    · rw [List.foldl_cons, hrefused, hgoes.refused, List.mem_cons, not_or, and_assoc]
      exact and_congr_right fun _ => and_congr_left fun _ => not_congr eq_comm

/-- **Every batch has a course**, and what it leaves to notify is told by its fates. -/
theorem course_batch (r : Record) (entries : List (String × Value)) :
    ∃ fates, Course r.validator r.fields entries fates (r.batch entries).fields ∧
      (r.batch entries).changed.names = (alteredNames entries fates).eraseDups ∧
      ((r.batch entries).changed.isEmpty = true ↔ .altered ∉ fates) ∧
      ((r.batch entries).refused = [] ↔ .refused ∉ fates) := by
  obtain ⟨fates, hcourse, hchanged, hrefused⟩ := Batch.course_foldl r.validator entries (.start r.fields)
  have hnames : (r.batch entries).changed.names = (alteredNames entries fates).eraseDups := by
    rw [← names_ofList]
    exact congrArg ChangeSet.names hchanged
  refine ⟨fates, hcourse, hnames, ?_, hrefused.trans (and_iff_right rfl)⟩
  rw [hcourse.mem_iff, not_not, ChangeSet.isEmpty, List.isEmpty_iff, hnames]
  cases alteredNames entries fates with
  | nil => simp
  | cons name names => simp [List.eraseDups_cons]

end Record

/-! ## What a batch leads to -/

namespace Machine

open Record

variable {m m' m'' : Machine} {id : RecordId} {entries : List (String × Value)} {base : List Frame}

/-- **A record asks to be rendered, once**: the run begins with that, calls those who listen at that time, and ends when
they are called. -/
def AsksOnce (m : Machine) (id : RecordId) (base : List Frame) (turns : List Turn) (m'' : Machine) : Prop :=
  ∃ m' rest pinned, turns = .step :: rest ∧ m.step? = some m' ∧
    m'.stack = .task (.notify (.requests id) pinned .render ((m.store.record id).requests.live.map (·.listener))) :: base ∧
    m'.Returns base rest m''

/-- The request that a batch with such fates leaves. -/
def following (id : RecordId) (fates : List Fate) : List Frame :=
  if .refused ∈ fates then [.task (.request id)] else []

/-- **What a batch of writes to a record leads to.** -/
structure Lands (m : Machine) (id : RecordId) (entries : List (String × Value)) (m' : Machine) (base : List Frame)
    (fates : List Fate) : Prop where
  /-- The fields are what the writes leave, one after the other. -/
  course : Course (m.store.record id).validator (m.store.fields id) entries fates (m'.store.fields id)
  untouched : ∀ name, name ∉ alteredNames entries fates →
    Dict.get? (m'.store.fields id) name = Dict.get? (m.store.fields id) name
  /-- If a write alters its field, one notification is emitted, to all who listen, and a request may wait below it. -/
  announced : .altered ∈ fates → (m'.store.record id).version = (m.store.record id).version + 1 ∧
    ∃ set pinned, set.names = (alteredNames entries fates).eraseDups ∧ m.begun m' = [(id, set)] ∧
      m'.stack = .task (.notify (.changes id) pinned (.changed set) ((m.store.record id).changes.live.map (·.listener))) ::
        (following id fates ++ base)
  /-- If none does, none is emitted. -/
  silent : .altered ∉ fates → (m'.store.record id).version = (m.store.record id).version ∧ m.begun m' = [] ∧
    m'.stack = following id fates ++ base
  /-- When the notification is over, the record asks to be rendered exactly if a write was refused, and that is all. -/
  requested : ∀ turns m'', m'.Returns base turns m'' → ∃ before behind mid, turns = before ++ behind ∧
    m'.Returns (following id fates ++ base) before mid ∧ (.refused ∈ fates → mid.AsksOnce id base behind m'') ∧
    (.refused ∉ fates → behind = [] ∧ m'' = mid)

/-- A request that is on top is carried out first. -/
theorem asksOnce_of_returns (hstack : m.stack = .task (.request id) :: base) {turns : List Turn}
    (h : m.Returns base turns m'') : m.AsksOnce id base turns m'' := by
  cases h with
  | done hdone =>
    -- the request is still there
    have hlength := congrArg List.length (hdone.symm.trans hstack)
    simp at hlength
  | @turn _ m' _ t rest f top habove hturn hrest =>
    obtain ⟨rfl, rfl⟩ := step_of_task hstack hturn
    exact ⟨_, rest, _, rfl, hturn, rfl, hrest⟩

theorem following_eq {fates : List Fate} {b : Record.Batch} (h : b.refused = [] ↔ .refused ∉ fates) :
    (requestsOf id b).map Frame.task = following id fates := by
  unfold requestsOf following
  by_cases hrefused : Fate.refused ∈ fates
  · rw [if_pos hrefused, if_neg]
    · rfl
    · rw [List.isEmpty_iff, h, not_not]
      exact hrefused
  · rw [if_neg hrefused, if_pos (List.isEmpty_iff.mpr (h.mpr hrefused))]
    rfl

/-- What is left to do is the notification, and then the request. -/
theorem requested_of_stack {top : List Frame} {fates : List Fate}
    (hstack : m'.stack = top ++ (following id fates ++ base)) {turns : List Turn} (h : m'.Returns base turns m'') :
    ∃ before behind mid, turns = before ++ behind ∧ m'.Returns (following id fates ++ base) before mid ∧
      (.refused ∈ fates → mid.AsksOnce id base behind m'') ∧ (.refused ∉ fates → behind = [] ∧ m'' = mid) := by
  obtain ⟨before, behind, mid, rfl, hbefore, hbehind⟩ := h.split hstack
  refine ⟨before, behind, mid, rfl, hbefore, ?_, ?_⟩
  · intro hrefused
    have hmid := hbefore.stack
    rw [following, if_pos hrefused] at hmid
    exact asksOnce_of_returns hmid hbehind
  · intro hrefused
    have hmid := hbefore.stack
    rw [following, if_neg hrefused, List.nil_append] at hmid
    exact hbehind.of_stack hmid

/-- **A batch of writes to a living record**: it is stored, what it altered is told to all who listen, and what it refused
is still to be answered. -/
theorem Writes.settled (h : m.Writes id entries m' base) (halive : (m.store.record id).alive = true) {b : Record.Batch}
    (hb : (m.store.record id).batch entries = b) :
    m'.store.fields id = b.fields ∧
      (b.changed.isEmpty = true → (m'.store.record id).version = (m.store.record id).version ∧ m.begun m' = [] ∧
        m'.stack = (requestsOf id b).map .task ++ base) ∧
      (b.changed.isEmpty = false → (m'.store.record id).version = (m.store.record id).version + 1 ∧
        m.begun m' = [(id, b.changed)] ∧ ∃ pinned,
          m'.stack = .task (.notify (.changes id) pinned (.changed b.changed)
            ((m.store.record id).changes.live.map (·.listener))) :: ((requestsOf id b).map .task ++ base)) := by
  obtain ⟨s, -, hrecords, hstore, hstack⟩ := h.spec
  have hrecord : s.record id = m.store.record id := by simp only [Store.record, hrecords]
  rw [← hrecord] at halive hb ⊢
  have hstored := s.record_stored halive entries
  have hchanging := changing_of_stack _ _ hstack
  rw [h.changing_base] at hchanging
  rw [hb] at hstored
  cases hchanged : b.changed.isEmpty with
  | true =>
    rw [write_of_unchanged halive (hb ▸ hchanged), hb] at hstore hstack hchanging
    rw [change?_requestsOf] at hchanging
    have hafter : m'.store.record id = (s.record id).commit b := hstore ▸ hstored
    refine ⟨congrArg Record.fields hafter, fun _ => ⟨?_, begun_of_same hchanging, hstack⟩, fun hfalse => by cases hfalse⟩
    rw [hafter, Record.commit, hchanged]
    rfl
  | false =>
    have hkept := follows_notify (s.stored id entries) (.changes id) (.changed b.changed)
    have hthere := lt_size_stored (s.lt_of_alive halive) entries
    rw [write_of_changed halive (hb ▸ hchanged), hb] at hstore hstack hchanging
    rw [List.filterMap_cons, change?_requestsOf] at hchanging
    rw [← hstore] at hkept
    refine ⟨?_, fun htrue => (by cases htrue), fun _ => ⟨?_, begun_of_append hchanging, ?_⟩⟩
    · rw [hkept.fields id hthere List.not_mem_nil]
      exact congrArg Record.fields hstored
    · rw [hkept.version id List.not_mem_nil, hstored, Record.commit, hchanged]
      rfl
    · -- those who listen are the same before and after everything is stored
      have hlisteners : ((s.stored id entries).record id).changes = (s.record id).changes := by rw [hstored]; rfl
      rw [← hlisteners]
      exact ⟨_, hstack⟩

/-- **The law of batches.** On a living record, the writes of a batch are validated and stored one after the other, whatever
names repeat. The batch has one course, which says what it leads to, and it returns. -/
theorem lands_of_writes (h : m.Writes id entries m' base) (halive : (m.store.record id).alive = true) :
    ∃ fates, m.Lands id entries m' base fates ∧
      (∀ fates' fields', Course (m.store.record id).validator (m.store.fields id) entries fates' fields' →
        fates' = fates ∧ fields' = m'.store.fields id) ∧
      ∃ turns m'', m'.Returns base turns m'' := by
  obtain ⟨fates, hcourse, hnames, hempty, hrefused⟩ := course_batch (m.store.record id) entries
  obtain ⟨hfields, hsilent, hannounced⟩ := h.settled halive rfl
  rw [← hfields] at hcourse
  rw [following_eq hrefused] at hsilent hannounced
  obtain ⟨top, hstack⟩ : ∃ top, m'.stack = top ++ (following id fates ++ base) := by
    cases hchanged : ((m.store.record id).batch entries).changed.isEmpty with
    | true => exact ⟨[], (hsilent hchanged).2.2⟩
    | false =>
      obtain ⟨-, -, pinned, hstack⟩ := hannounced hchanged
      exact ⟨[_], hstack⟩
  refine ⟨fates, ⟨hcourse, fun name => hcourse.get?, ?_, ?_, fun turns m'' => requested_of_stack hstack⟩,
    fun fates' fields' => hcourse.unique, ?_⟩
  · intro haltered
    obtain ⟨hversion, hbegun, pinned, hstack⟩ := hannounced (by simpa [haltered] using hempty)
    exact ⟨hversion, _, pinned, hnames, hbegun, hstack⟩
  · intro hunaltered
    exact hsilent (hempty.mpr hunaltered)
  · rw [← List.append_assoc] at hstack
    exact exists_returns m' hstack

/-- A record with a value that is not equal to itself, and a field that nothing may be written to. -/
def guardedField : List Turn :=
  [.command (.act (.record (.make "r" [("a", .number .nan), ("b", .bool true), ("c", .string "x")]))), .step,
    .command (.act (.record (.install "r" (Rule.reject.validator (some "c"))))), .step]

/-- A batch that writes a field away and back again, and two more. -/
def mixed : List (String × Value) :=
  [("b", .undefined), ("a", .number .nan), ("b", .null), ("c", .string "y"), ("b", .null)]

/-- The field written twice is named once, the one that is refused is not, and the last write comes too late to alter
anything. -/
theorem lands_of_writes_mixed :
    ∃ m m' base, initial.walk? guardedField = some m ∧ m.Writes ⟨1⟩ mixed m' base ∧ (m.store.record ⟨1⟩).alive = true ∧
      m.Lands ⟨1⟩ mixed m' base [.altered, .altered, .altered, .refused, .kept] ∧
      (alteredNames mixed [.altered, .altered, .altered, .refused, .kept]).eraseDups = ["b", "a"] := by
  let fields : Fields := .ofEntries [("a", .number .nan), ("b", .bool true), ("c", .string "x")]
  have hrun : (initial.walk? guardedField).map (fun m => (m.stack, m.session.workspace.record? "r",
      (m.store.record ⟨1⟩).alive, (m.store.record ⟨1⟩).validator, m.store.fields ⟨1⟩)) =
      some ([], .ok ⟨1⟩, true, some (Rule.reject.validator (some "c")), fields) := by rfl
  obtain ⟨m, hwalk, heq⟩ := Option.map_eq_some_iff.mp hrun
  simp only [Prod.mk.injEq] at heq
  obtain ⟨hidle, hname, halive, hvalidator, hfields⟩ := heq
  have hwrites : m.Writes ⟨1⟩ mixed _ _ := .host hidle hname
  obtain ⟨fates, hlands, honly, -⟩ := lands_of_writes hwrites halive
  rw [hvalidator, hfields] at honly
  have hcourse : Course (some (Rule.reject.validator (some "c"))) fields mixed
      [.altered, .altered, .altered, .refused, .kept]
      (((fields.erase "b").insert "a" (.number .nan)).insert "b" .null) := by
    refine .cons (.altered rfl (by decide) fun name => Dict.get?_erase _ _ _) ?_
    refine .cons (.altered rfl (by decide) fun name => Dict.get?_insert _ _ _ _) ?_
    refine .cons (.altered rfl (by decide) fun name => Dict.get?_insert _ _ _ _) ?_
    exact .cons (.refused rfl) (.cons (.kept rfl (by decide)) .nil)
  rw [← (honly _ _ hcourse).1] at hlands
  exact ⟨m, _, _, hwalk, hwrites, halive, hlands, rfl⟩

end Machine

end Databind
