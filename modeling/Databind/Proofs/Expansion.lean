import Databind.Proofs.Failure
import Mathlib.Data.List.Forall2

/-!
# `Proofs.Expansion` — the plan of a map under a collection

A map under a collection expands entry by entry. An entry whose text has an index marker asks for one binding, on
the member that the marker means. Any other asks for the same bindings on every member, each narrowed to the
element in the member's position. The relations below say this by places in lists; the expansion succeeds exactly
if they hold of every entry, and without markers it never asks who the members are.

## Main definitions

* `Store.Resolves` — the member that a key means.
* `Planned.Spread` — the same bindings on every member.
* `Store.Unfolds` — what one entry of a map asks for.
-/

namespace Databind

/-- The bindings that an entry without an index marker asks for on each member: those of a nested map in order, or a
single one on the member's element itself. -/
def MapValue.Inner (defaultEvent parent : String) (value : MapValue) (inner : List (Descriptor × Property)) : Prop :=
  match value with
  | .nested entries =>
    List.Forall₂ (fun entry binding => Descriptor.parse entry.1 defaultEvent = .ok binding.1 ∧
      entry.2.property? entry.1 = .ok binding.2) entries inner
  | single => ∃ property, single.property? parent = .ok property ∧ inner = [(⟨"", "", none⟩, property)]

/-- **The same bindings on every member**: member by member and binding by binding, each with its selector narrowed
to the member's position from one, its attribute and its event as they are. -/
structure Planned.Spread (parent : String) (inner : List (Descriptor × Property)) (members : List RecordId)
    (part : List Planned) : Prop where
  length : part.length = members.length * inner.length
  planned : ∀ i j (hi : i < members.length) (hj : j < inner.length), part[i * inner.length + j]? =
    some ⟨members[i],
      { inner[j].1 with selector := (inner[j].1.narrowed parent (i + 1)).selector }, inner[j].2⟩

namespace Store

/-- A member is known by a key: the key is how its identity or its field `id` is shown. -/
def Knows (s : Store) (key : String) (id : RecordId) : Prop :=
  id.display = key ∨ (s.fields id).has "id" = true ∧ ((s.fields id).get "id").display = key

/-- **The member that a key means**: the first one known by it, or, if nobody is, the one at the position that the
key denotes. -/
inductive Resolves (s : Store) (members : List RecordId) (key : String) : RecordId → Prop
  | known {before behind : List RecordId} {id : RecordId} (hsplit : members = before ++ id :: behind)
    (hknown : s.Knows key id) (hfirst : ∀ other ∈ before, ¬s.Knows key other) : Resolves s members key id
  | position {i : Nat} (hnobody : ∀ other ∈ members, ¬s.Knows key other)
    (hread : Text.readSize? key.toList = some i) (hbelow : i < members.length) : Resolves s members key members[i]

/-- **What one entry of a map asks for** under a collection. -/
inductive Unfolds (s : Store) (c : Nat) (defaultEvent : String) (entry : String × MapValue) (part : List Planned) :
    Prop
  /-- One binding, on the member that the marker means. -/
  | marked {text key rest : String} {id : RecordId} {descriptor : Descriptor} {expression : Expression.Compiled}
    (hvalue : entry.2 = .expression text) (hmarker : splitIndexMarker text = some (key, rest))
    (hmember : s.Resolves (s.collection c).members key id)
    (hkey : Descriptor.parse entry.1 defaultEvent = .ok descriptor)
    (hcompiled : Expression.compile rest = .ok expression)
    (hpart : part = [⟨id, descriptor, .compiled expression⟩])
  /-- The same bindings on every member. -/
  | spread {inner : List (Descriptor × Property)} (hmarker : markerOf entry.2 = none)
    (hinner : entry.2.Inner defaultEvent entry.1 inner)
    (hpart : Planned.Spread entry.1 inner (s.collection c).members part)

variable {s : Store} {c : Nat} {defaultEvent : String}

/-! ## Members -/

theorem isKnownAs_iff {key : String} {id : RecordId} : s.isKnownAs key id = true ↔ s.Knows key id := by
  simp [isKnownAs, Knows]

/-- **A key means at most one member, and it is the one that a lookup finds.** -/
theorem resolveMember_eq_ok {key : String} {id : RecordId} :
    s.resolveMember c key = .ok id ↔ s.Resolves (s.collection c).members key id := by
  unfold resolveMember findMember
  cases hfind : (s.collection c).members.find? (s.isKnownAs key) with
  | some found =>
    obtain ⟨hknown, before, behind, hsplit, hbefore⟩ := List.find?_eq_some_iff_append.mp hfind
    have hfirst : ∀ other ∈ before, ¬s.Knows key other := fun other hother hknows => by
      have hno := hbefore other hother
      rw [isKnownAs_iff.mpr hknows] at hno
      cases hno
    constructor
    · intro h
      cases h
      exact .known hsplit (isKnownAs_iff.mp hknown) hfirst
    · intro h
      cases h with
      | known hsplit' hknown' hfirst' =>
        -- both are the first member known by the key
        have hfind' : (s.collection c).members.find? (s.isKnownAs key) = some id := by
          refine List.find?_eq_some_iff_append.mpr ⟨isKnownAs_iff.mpr hknown', _, _, hsplit', fun other hother => ?_⟩
          rw [Bool.not_eq_true', ← Bool.not_eq_true]
          exact fun h => hfirst' other hother (isKnownAs_iff.mp h)
        rw [Option.some.inj (hfind.symm.trans hfind')]
        rfl
      | position hnobody =>
        exact absurd (isKnownAs_iff.mp hknown) (hnobody found (List.mem_of_find?_eq_some hfind))
  | none =>
    have hnobody : ∀ other ∈ (s.collection c).members, ¬s.Knows key other := fun other hother hknows =>
      List.find?_eq_none.mp hfind other hother (isKnownAs_iff.mpr hknows)
    constructor
    · intro h
      rw [show (none <|> (Text.readSize? key.toList).bind (s.memberAt c)) =
        (Text.readSize? key.toList).bind (s.memberAt c) from rfl] at h
      split at h
      · next found hat =>
        cases h
        obtain ⟨i, hread, hmember⟩ := Option.bind_eq_some_iff.mp hat
        obtain ⟨hbelow, hid⟩ := List.getElem?_eq_some_iff.mp hmember
        exact hid ▸ .position hnobody hread hbelow
      · cases h
    · intro h
      cases h with
      | known hsplit hknown => exact absurd hknown (hnobody id (hsplit ▸ List.mem_append_right _ List.mem_cons_self))
      | position _ hread hbelow =>
        simp [hread, memberAt, hbelow]

/-- A key that means nobody is an error. -/
theorem resolveMember_eq_error {key : String} (h : ∀ id, ¬s.Resolves (s.collection c).members key id) :
    s.resolveMember c key = .error (.noSuchMember key) := by
  cases hresolve : s.resolveMember c key with
  | ok id => exact absurd (resolveMember_eq_ok.mp hresolve) (h id)
  | error e =>
    unfold resolveMember at hresolve
    split at hresolve <;> cases hresolve
    rfl

/-! ## Entries -/

/-- **Reading the bindings of an entry** reads its keys and values in order. -/
theorem innerBindings_eq_ok {parent : String} {value : MapValue} {inner : List (Descriptor × Property)} :
    innerBindings defaultEvent parent value = .ok inner ↔ value.Inner defaultEvent parent inner := by
  have hsingle : ∀ single : MapValue, (do
        let descriptor ← Descriptor.parse "" defaultEvent
        let property ← single.property? parent
        .ok [(descriptor, property)] : Except BindError (List (Descriptor × Property))) = .ok inner ↔
      ∃ property, single.property? parent = .ok property ∧ inner = [(⟨"", "", none⟩, property)] := by
    intro single
    rw [show Descriptor.parse "" defaultEvent = .ok ⟨"", "", none⟩ from rfl]
    simp only [Bind.bind, Except.bind]
    cases single.property? parent with
    | error e => simp
    | ok property => simp [eq_comm]
  have hnested : ∀ (entries : List (String × MapValue)) (inner : List (Descriptor × Property)),
      innerEntries defaultEvent entries = .ok inner ↔ List.Forall₂ (fun entry binding =>
        Descriptor.parse entry.1 defaultEvent = .ok binding.1 ∧ entry.2.property? entry.1 = .ok binding.2)
          entries inner := by
    intro entries
    induction entries with
    | nil => intro inner; simp [innerEntries, eq_comm]
    | cons entry rest ih =>
      intro inner
      obtain ⟨key, value⟩ := entry
      simp only [innerEntries, Bind.bind, List.forall₂_cons_left_iff, ← ih]
      cases Descriptor.parse key defaultEvent with
      | error e => simp [Except.bind]
      | ok descriptor =>
        cases value.property? key with
        | error e => simp [Except.bind]
        | ok property => cases innerEntries defaultEvent rest <;> simp [Except.bind, eq_comm]
  cases value with
  | expression text => exact hsingle (.expression text)
  | property p => exact hsingle (.property p)
  | nested entries => exact hnested entries inner

/-- Places in a list of blocks of one size: the block, and the place in it. -/
theorem getElem?_flatMap_of_length {α β : Type} {f : α → List β} {k : Nat} {xs : List α}
    (hlength : ∀ x ∈ xs, (f x).length = k) {i j : Nat} (hj : j < k) :
    (xs.flatMap f)[i * k + j]? = (xs[i]?).bind fun x => (f x)[j]? := by
  induction xs generalizing i with
  | nil => simp
  | cons x rest ih =>
    have hx : (f x).length = k := hlength x List.mem_cons_self
    rw [List.flatMap_cons]
    cases i with
    | zero => rw [Nat.zero_mul, Nat.zero_add, List.getElem?_append_left (by omega)]; rfl
    | succ i =>
      have hplace : (i + 1) * k + j - (f x).length = i * k + j := by rw [hx, Nat.succ_mul]; omega
      have hbehind : (f x).length ≤ (i + 1) * k + j := by rw [hx, Nat.succ_mul]; omega
      rw [List.getElem?_append_right hbehind, hplace, ih fun y hy => hlength y (List.mem_cons_of_mem _ hy)]
      rfl

/-- **Spreading bindings over members** puts each of them on every member. -/
theorem spread_spread (parent : String) (inner : List (Descriptor × Property)) (members : List RecordId) :
    Planned.Spread parent inner members (spread parent inner members) where
  length := by
    rw [spread, List.length_flatMap]
    simp
  planned i j hi hj := by
    rw [spread, getElem?_flatMap_of_length (fun _ _ => List.length_map ..) hj]
    simp [hi, hj, Descriptor.narrowed]

/-- Where every member has its bindings there is nothing else. -/
theorem eq_spread {parent : String} {inner : List (Descriptor × Property)} {members : List RecordId}
    {part : List Planned} (h : Planned.Spread parent inner members part) : part = spread parent inner members := by
  have hspread := spread_spread parent inner members
  refine List.ext_getElem? fun place => ?_
  by_cases hplace : place < members.length * inner.length
  · -- the place is that of one binding on one member
    have hpos : 0 < inner.length := Nat.pos_of_mul_pos_left (Nat.zero_lt_of_lt hplace)
    have hj := Nat.mod_lt place hpos
    have hi : place / inner.length < members.length := Nat.div_lt_of_lt_mul (Nat.mul_comm _ _ ▸ hplace)
    rw [← Nat.div_add_mod' place inner.length, h.planned _ _ hi hj, hspread.planned _ _ hi hj]
  · rw [List.getElem?_eq_none (h.length ▸ Nat.le_of_not_lt hplace),
      List.getElem?_eq_none (hspread.length ▸ Nat.le_of_not_lt hplace)]

theorem markerOf_eq_some {value : MapValue} {marker : String × String} :
    markerOf value = some marker ↔ ∃ text, value = .expression text ∧ splitIndexMarker text = some marker := by
  cases value <;> simp [markerOf]

/-- **The plan of one entry.** -/
theorem expandEntry_eq_ok {entry : String × MapValue} {part : List Planned} :
    s.expandEntry c defaultEvent entry.1 entry.2 = .ok part ↔ s.Unfolds c defaultEvent entry part := by
  unfold expandEntry
  cases hmarker : markerOf entry.2 with
  | some marker =>
    obtain ⟨key, rest⟩ := marker
    obtain ⟨text, hvalue, hsplit⟩ := markerOf_eq_some.mp hmarker
    simp only [Bind.bind]
    constructor
    · intro h
      -- the member, the key and the expression must be found, in this order
      cases hmember : s.resolveMember c key with
      | error e => rw [hmember] at h; cases h
      | ok id =>
        cases hkey : Descriptor.parse entry.1 defaultEvent with
        | error e => rw [hmember, hkey] at h; cases h
        | ok descriptor =>
          cases hcompiled : Expression.compile rest with
          | error e => rw [hmember, hkey, hcompiled] at h; cases h
          | ok expression =>
            rw [hmember, hkey, hcompiled] at h
            cases h
            exact .marked hvalue hsplit (resolveMember_eq_ok.mp hmember) hkey hcompiled rfl
    · intro h
      cases h with
      | marked hvalue' hsplit' hmember hkey hcompiled hpart =>
        cases hvalue.symm.trans hvalue'
        cases hsplit.symm.trans hsplit'
        rw [resolveMember_eq_ok.mpr hmember, hkey, hcompiled, hpart]
        rfl
      | spread hno => cases hno.symm.trans hmarker
  | none =>
    simp only [Bind.bind]
    constructor
    · intro h
      cases hinner : innerBindings defaultEvent entry.1 entry.2 with
      | error e => rw [hinner] at h; cases h
      | ok inner =>
        rw [hinner] at h
        cases h
        exact .spread hmarker (innerBindings_eq_ok.mp hinner) (spread_spread ..)
    · intro h
      cases h with
      | marked hvalue hsplit => cases hmarker.symm.trans (markerOf_eq_some.mpr ⟨_, hvalue, hsplit⟩)
      | spread _ hinner hpart =>
        rw [innerBindings_eq_ok.mpr hinner, eq_spread hpart]
        rfl

/-- **The plan of a map** is that of its entries, one after the other. -/
theorem expandEntries_eq_ok {entries : List (String × MapValue)} {plan : List Planned} :
    s.expandEntries c defaultEvent entries = .ok plan ↔
      ∃ parts, List.Forall₂ (s.Unfolds c defaultEvent) entries parts ∧ plan = parts.flatten := by
  induction entries generalizing plan with
  | nil => simp [expandEntries, eq_comm]
  | cons entry rest ih =>
    simp only [expandEntries, Bind.bind, List.forall₂_cons_left_iff, ← expandEntry_eq_ok]
    cases s.expandEntry c defaultEvent entry.1 entry.2 with
    | error e => simp [Except.bind]
    | ok here =>
      cases hbehind : s.expandEntries c defaultEvent rest with
      | error e =>
        refine iff_of_false (fun h => by cases h) ?_
        rintro ⟨_, ⟨_, parts, -, hparts, rfl⟩, -⟩
        cases hbehind.symm.trans (ih.mpr ⟨parts, hparts, rfl⟩)
      | ok behind =>
        obtain ⟨parts, hparts, hflat⟩ := ih.mp hbehind
        constructor
        · intro h
          cases h
          exact ⟨here :: parts, ⟨here, parts, rfl, hparts, rfl⟩, by rw [hflat, List.flatten_cons]⟩
        · rintro ⟨_, ⟨_, parts', ⟨⟩, hparts', rfl⟩, rfl⟩
          cases hbehind.symm.trans (ih.mpr ⟨parts', hparts', rfl⟩)
          rfl

/-! ## Failures -/

/-- An entry whose marker means nobody fails, whatever its key and the rest of its text are. -/
theorem expandEntry_of_unresolved {parent key rest : String} {value : MapValue}
    (hmarker : markerOf value = some (key, rest)) (hnobody : ∀ id, ¬s.Resolves (s.collection c).members key id) :
    s.expandEntry c defaultEvent parent value = .error (.noSuchMember key) := by
  rw [expandEntry, hmarker]
  simp only [resolveMember_eq_error hnobody]
  rfl

theorem expandEntries_append (before behind : List (String × MapValue)) :
    s.expandEntries c defaultEvent (before ++ behind) = (s.expandEntries c defaultEvent before).bind fun plan =>
      (s.expandEntries c defaultEvent behind).map (plan ++ ·) := by
  induction before with
  | nil =>
    simp only [List.nil_append, expandEntries, Except.bind]
    cases s.expandEntries c defaultEvent behind <;> rfl
  | cons entry before ih =>
    simp only [List.cons_append, expandEntries, ih, Bind.bind]
    cases s.expandEntry c defaultEvent entry.1 entry.2 with
    | error e => rfl
    | ok here =>
      cases s.expandEntries c defaultEvent before with
      | error e => rfl
      | ok plan =>
        simp only [Except.bind]
        cases s.expandEntries c defaultEvent behind with
        | error e => rfl
        | ok more => simp [Except.map]

/-- Without markers an entry fails under every collection alike. -/
theorem expandEntry_eq_error {s' : Store} {c' : Nat} {parent : String} {value : MapValue} {e : BindError}
    (hmarker : markerOf value = none) (h : s.expandEntry c defaultEvent parent value = .error e) :
    s'.expandEntry c' defaultEvent parent value = .error e := by
  rw [expandEntry, hmarker] at h ⊢
  simp only [Bind.bind] at h ⊢
  cases hinner : innerBindings defaultEvent parent value with
  | error e' => rw [hinner] at h; exact h
  | ok inner => rw [hinner] at h; cases h

/-- **A map without markers fails under every collection alike.** -/
theorem expandEntries_eq_error_of_unmarked {s' : Store} {c' : Nat} {entries : List (String × MapValue)} {e : BindError}
    (hmarkers : ∀ entry ∈ entries, markerOf entry.2 = none)
    (h : s.expandEntries c defaultEvent entries = .error e) : s'.expandEntries c' defaultEvent entries = .error e := by
  induction entries with
  | nil => cases h
  | cons entry rest ih =>
    have hmarker := hmarkers entry List.mem_cons_self
    simp only [expandEntries, Bind.bind] at h ⊢
    cases hhere : s.expandEntry c defaultEvent entry.1 entry.2 with
    | error e' =>
      rw [hhere] at h
      rw [expandEntry_eq_error hmarker hhere]
      exact h
    | ok here =>
      rw [hhere] at h
      cases hhere' : s'.expandEntry c' defaultEvent entry.1 entry.2 with
      | error e' => cases hhere.symm.trans (expandEntry_eq_error hmarker hhere')
      | ok here' =>
        cases hbehind : s.expandEntries c defaultEvent rest with
        | error e' =>
          rw [hbehind] at h
          cases h
          rw [ih (fun entry hentry => hmarkers entry (List.mem_cons_of_mem _ hentry)) hbehind]
          rfl
        | ok behind => rw [hbehind] at h; cases h

/-- **The plan of a map under a collection.** The expansion succeeds exactly if every entry unfolds, and then the plan
is what they unfold to, one after the other. An entry whose marker means nobody fails the whole expansion, for that
reason unless an entry before it fails. Without markers neither success nor the reason of a failure depends on the
collection. -/
theorem expand_plan (s : Store) (c : Nat) (map : BindingMap) (defaultEvent : String) :
    (∀ plan, s.expand c map defaultEvent = .ok plan ↔
      ∃ parts, List.Forall₂ (s.Unfolds c defaultEvent) map.entries parts ∧ plan = parts.flatten) ∧
    (∀ before parent text behind key rest, map.entries = before ++ (parent, .expression text) :: behind →
      splitIndexMarker text = some (key, rest) → (∀ id, ¬s.Resolves (s.collection c).members key id) →
      ∃ e, s.expand c map defaultEvent = .error e ∧
        ∀ plan, s.expand c ⟨before⟩ defaultEvent = .ok plan → e = .noSuchMember key) ∧
    ((∀ entry ∈ map.entries, markerOf entry.2 = none) → ∀ (s' : Store) (c' : Nat),
      ((∃ plan, s.expand c map defaultEvent = .ok plan) ↔ ∃ plan, s'.expand c' map defaultEvent = .ok plan) ∧
      ∀ e, s.expand c map defaultEvent = .error e ↔ s'.expand c' map defaultEvent = .error e) := by
  refine ⟨fun plan => expandEntries_eq_ok, ?_, fun hmarkers s' c' => ?_⟩
  · intro before parent text behind key rest hentries hsplit hnobody
    have hfails : s.expandEntries c defaultEvent ((parent, .expression text) :: behind) =
        .error (.noSuchMember key) := by
      rw [expandEntries, expandEntry_of_unresolved (markerOf_eq_some.mpr ⟨text, rfl, hsplit⟩) hnobody]
      rfl
    rw [expand, hentries, expandEntries_append, hfails]
    cases hbefore : s.expandEntries c defaultEvent before with
    | error e =>
      refine ⟨e, rfl, fun plan hplan => ?_⟩
      cases hbefore.symm.trans hplan
    | ok plan => exact ⟨.noSuchMember key, rfl, fun _ _ => rfl⟩
  · have herror : ∀ e, s.expand c map defaultEvent = .error e ↔ s'.expand c' map defaultEvent = .error e := fun e =>
      ⟨expandEntries_eq_error_of_unmarked hmarkers, expandEntries_eq_error_of_unmarked hmarkers⟩
    refine ⟨?_, herror⟩
    -- what does not fail succeeds
    cases hhere : s.expand c map defaultEvent with
    | error e => simp [(herror e).mp hhere]
    | ok plan =>
      cases hthere : s'.expand c' map defaultEvent with
      | error e => cases hhere.symm.trans ((herror e).mpr hthere)
      | ok plan' => simp

/-- Two records in a collection. -/
def paired : Store :=
  ((empty.addRecord (.ofFields (.ofEntries [("id", .string "one")]))).addRecord
    (.ofFields (.ofEntries [("id", .string "two")]))).addCollection (.ofMembers [⟨1⟩, ⟨2⟩])

/-- A marker finds a member by its field, and one that finds nobody fails the map; a map without markers expands under
an empty collection as well. -/
theorem expand_plan_paired :
    (∃ parts, List.Forall₂ (paired.Unfolds 0 "change")
        [("b", .expression "[two]{x}"), ("li", .nested [("[title]a", .property (.field "y"))])] parts ∧
      [(⟨⟨2⟩, ⟨"b", "", none⟩⟩ : RecordId × Descriptor), ⟨⟨1⟩, ⟨"li:nth-of-type(1) a", "title", none⟩⟩,
        ⟨⟨2⟩, ⟨"li:nth-of-type(2) a", "title", none⟩⟩] = parts.flatten.map fun b => (b.record, b.descriptor)) ∧
    (splitIndexMarker "[third]{x}" = some ("third", "{x}") ∧
      ∃ e, paired.expand 0 ⟨[("a", .property (.field "y")), ("b", .expression "[third]{x}")]⟩ "change" = .error e ∧
        ∀ plan, paired.expand 0 ⟨[("a", .property (.field "y"))]⟩ "change" = .ok plan → e = .noSuchMember "third") ∧
    ((∃ plan, paired.expand 0 ⟨[("a", .property (.field "y"))]⟩ "change" = .ok plan) ↔
      ∃ plan, empty.expand 0 ⟨[("a", .property (.field "y"))]⟩ "change" = .ok plan) := by
  refine ⟨?_, ⟨by rfl, ?_⟩, ?_⟩
  · have hrun : (paired.expand 0 ⟨[("b", .expression "[two]{x}"),
        ("li", .nested [("[title]a", .property (.field "y"))])]⟩ "change").map
          (·.map fun b => (b.record, b.descriptor)) =
        .ok [(⟨2⟩, ⟨"b", "", none⟩), (⟨1⟩, ⟨"li:nth-of-type(1) a", "title", none⟩),
          (⟨2⟩, ⟨"li:nth-of-type(2) a", "title", none⟩)] := by rfl
    cases hplan : paired.expand 0 ⟨[("b", .expression "[two]{x}"),
        ("li", .nested [("[title]a", .property (.field "y"))])]⟩ "change" with
    | error e => rw [hplan] at hrun; cases hrun
    | ok plan =>
      obtain ⟨parts, hparts, hflat⟩ := ((expand_plan paired 0 _ _).1 plan).mp hplan
      rw [hplan] at hrun
      exact ⟨parts, hparts, hflat ▸ (Except.ok.inj hrun).symm⟩
  · refine (expand_plan paired 0 _ _).2.1 [("a", .property (.field "y"))] "b" "[third]{x}" [] "third" "{x}" rfl
      (by rfl) fun id hid => ?_
    have hnobody : paired.resolveMember 0 "third" = .error (.noSuchMember "third") := by rfl
    cases hnobody.symm.trans (resolveMember_eq_ok.mpr hid)
  · refine ((expand_plan paired 0 ⟨[("a", .property (.field "y"))]⟩ "change").2.2 (fun entry hentry => ?_) empty 0).1
    rw [List.mem_singleton.mp hentry]
    rfl

end Store

end Databind
