import Databind.BindingMap.Document
import Databind.Proofs.Triggers
import Mathlib.Data.List.Permutation

/-!
# `Proofs.Decoding` — what JSON binding maps say

A text is delivered as a tree of values whose members stand in order, repeated names included. What a tree says as a
binding map is told here by the tree itself: which members bind something, and what (`Json.Means`). The members of a
map merge: a name stands once, where it stood first, with the value that it has last (`Merges`). Decoding a document
says the same, or fails if some member at some depth binds nothing, also one whose name is given another value later.

A document is a tree without numbers, nulls and broken strings (`Document.toJson`), so both sides are compared on
documents, along their members. How a text is read does not matter here: everything is said of whatever reader delivers
the tree.

## Main definitions

* `Json.Delivers` — the tree that a reader delivers a text as.
* `Json.Binds` — a value that binds something.
* `Json.Means` — what a value binds.
* `Merges` — members merged into entries.
-/

namespace Databind

open Expression (bind_eq_ok map_eq_ok)

/-! ## Trees -/

/-- **Members merged into entries**: every name stands once, where it stands first, with the value it has last. -/
structure Merges (values entries : List (String × MapValue)) : Prop where
  keys : entries.map (·.1) = (values.map (·.1)).eraseDups
  last : ∀ key, entries.lookup key = values.reverse.lookup key

namespace Json

/-- The value that stands last under a name. -/
def last? (key : String) (members : List (Option String × Json)) : Option Json := members.reverse.lookup (some key)

/-- The list of some texts. -/
def ofNames (names : List String) : Json := .array (names.map fun name => .string (some name))

/-- **The members of a structured property**: they have no other names, and some property is a text. -/
structure IsStructured (members : List (Option String × Json)) : Prop where
  names : ∀ m ∈ members, m.1 = some "property" ∨ m.1 = some "negate" ∨ m.1 = some "triggers"
  property : ∃ field, (some "property", .string (some field)) ∈ members

/-- **A member of a structured property has a value of the right kind.** -/
structure IsValid (m : Option String × Json) : Prop where
  property : m.1 = some "property" → ∃ field, m.2 = .string (some field)
  negate : m.1 = some "negate" → ∃ b, m.2 = .bool b
  triggers : m.1 = some "triggers" → ∃ names, m.2 = ofNames names

/-- **What the members of a structured property say**: the last of each name counts. -/
structure Says (members : List (Option String × Json)) (field : String) (negate : Bool)
    (triggers : Option (List String)) : Prop where
  property : last? "property" members = some (.string (some field))
  negate : (last? "negate" members).getD (.bool false) = .bool negate
  triggers : last? "triggers" members = triggers.map ofNames

/-- **A value that binds something**: a text, the valid members of a structured property, or other members that all bind
something. -/
inductive Binds : Json → Prop
  | text (s : String) : Binds (.string (some s))
  | structured {members : List (Option String × Json)} (h : IsStructured members) (hvalid : ∀ m ∈ members, IsValid m) :
    Binds (.object members)
  | nested {members : List (Option String × Json)} (h : ¬IsStructured members)
    (hnames : ∀ m ∈ members, m.1.isSome = true) (hvalues : ∀ m ∈ members, Binds m.2) : Binds (.object members)

mutual

/-- **What a value binds.** -/
inductive Means : Json → MapValue → Prop
  | text (s : String) : Means (.string (some s)) (.expression s)
  | structured {members : List (Option String × Json)} {field : String} {negate : Bool}
    {triggers : Option (List String)} (h : IsStructured members) (hvalid : ∀ m ∈ members, IsValid m)
    (htold : Says members field negate triggers) :
    Means (.object members) (.property (.structured (.field field) negate triggers))
  | nested {members : List (Option String × Json)} {values entries : List (String × MapValue)}
    (h : ¬IsStructured members) (hlists : Lists members values) (hmerges : Merges values entries) :
    Means (.object members) (.nested entries)

/-- What members bind, one after the other. -/
inductive Lists : List (Option String × Json) → List (String × MapValue) → Prop
  | nil : Lists [] []
  | cons {key : String} {json : Json} {value : MapValue} {members : List (Option String × Json)}
    {values : List (String × MapValue)} (h : Means json value) (hrest : Lists members values) :
    Lists ((some key, json) :: members) ((key, value) :: values)

end

mutual

/-- How deep containers are nested in a value. -/
def depth : Json → Nat
  | .array items => depthOfItems items + 1
  | .object members => depthOfMembers members + 1
  | _ => 0

/-- How deep containers are nested in items. -/
def depthOfItems : List Json → Nat
  | [] => 0
  | item :: rest => max item.depth (depthOfItems rest)

/-- How deep containers are nested in members. -/
def depthOfMembers : List (Option String × Json) → Nat
  | [] => 0
  | (_, value) :: rest => max value.depth (depthOfMembers rest)

end

/-- **The tree that a reader delivers a text as**: all of the text is one value, not nested deeper than a document may
be. -/
structure Delivers (reader : Reader) (s : String) (json : Json) : Prop where
  read : ∃ rest, reader.read? s = some (json, rest) ∧ reader.atEnd rest = true
  depth : json.depth ≤ Document.maxDepth

end Json

/-! ## Merging -/

section

variable {values entries entries' : List (String × MapValue)} {key : String}

theorem nodup_eraseDups (l : List String) : l.eraseDups.Nodup := by
  induction l using List.reverseRecOn with
  | nil => exact .nil
  | append_singleton l a ih =>
    -- the last element is kept only if it is new
    rw [eraseDups_concat]
    split
    · exact ih
    · next ha =>
      refine List.nodup_append.mpr ⟨ih, List.nodup_singleton a, ?_⟩
      rintro b hb b' hb' rfl
      rw [List.mem_singleton.mp hb'] at hb
      exact ha (List.mem_eraseDups.mp hb)

theorem lookup_of_not_mem (h : key ∉ entries.map (·.1)) : entries.lookup key = none := by
  refine List.lookup_eq_none_iff.mpr fun entry hentry => ?_
  have hne : key ≠ entry.1 := fun heq => h (List.mem_map.mpr ⟨entry, hentry, heq.symm⟩)
  simpa using hne

/-- Entries are determined by their names, if none is repeated, and by what stands under them. -/
theorem entries_ext (hkeys : entries.map (·.1) = entries'.map (·.1)) (hnodup : (entries.map (·.1)).Nodup)
    (h : ∀ key, entries.lookup key = entries'.lookup key) : entries = entries' := by
  induction entries generalizing entries' with
  | nil => exact (List.map_eq_nil_iff.mp hkeys.symm).symm
  | cons entry rest ih =>
    cases entries' with
    | nil => cases hkeys
    | cons entry' rest' =>
      obtain ⟨key, value⟩ := entry
      obtain ⟨key', value'⟩ := entry'
      rw [List.map_cons, List.map_cons, List.cons.injEq] at hkeys
      obtain ⟨rfl, hrest⟩ := hkeys
      rw [List.map_cons, List.nodup_cons] at hnodup
      obtain ⟨habsent, hnodup⟩ := hnodup
      have hvalue := h key
      simp only [List.lookup_cons_self, Option.some.injEq] at hvalue
      refine congrArg₂ _ (hvalue ▸ rfl) (ih hrest hnodup fun other => ?_)
      by_cases hother : other = key
      · rw [hother, lookup_of_not_mem habsent, lookup_of_not_mem (hrest ▸ habsent)]
      · have hlookup := h other
        rwa [Dict.lookup_cons_ite, Dict.lookup_cons_ite, if_neg hother, if_neg hother] at hlookup

/-- **Members merge in one way only.** -/
theorem Merges.unique (h : Merges values entries) (h' : Merges values entries') : entries = entries' :=
  entries_ext (h.keys.trans h'.keys.symm) (h.keys ▸ nodup_eraseDups _) fun key => (h.last key).trans (h'.last key).symm

theorem lookup_insertEntry (key : String) (value : MapValue) (entries : List (String × MapValue)) (other : String) :
    (BindingMap.insertEntry key value entries).lookup other =
      if other = key then some value else entries.lookup other := by
  induction entries with
  | nil => exact Dict.lookup_cons_ite other (key, value) []
  | cons entry rest ih =>
    unfold BindingMap.insertEntry
    split
    · next hkey =>
      rw [Dict.lookup_cons_ite, Dict.lookup_cons_ite, hkey]
      by_cases hother : other = key <;> simp only [hother, if_true, if_false]
    · next hkey =>
      rw [Dict.lookup_cons_ite, Dict.lookup_cons_ite, ih]
      by_cases hother : other = key
      · rw [hother, if_neg (Ne.symm hkey), if_pos rfl, if_pos rfl]
      · simp only [hother, if_false]

/-- **Inserting members one after the other merges them.** -/
theorem merges_insertEntries (values : List (String × MapValue)) :
    Merges values (values.foldl (fun entries v => BindingMap.insertEntry v.1 v.2 entries) []) := by
  induction values using List.reverseRecOn with
  | nil => exact ⟨rfl, fun _ => rfl⟩
  | append_singleton values v ih =>
    rw [List.foldl_append]
    change Merges _ (BindingMap.insertEntry v.1 v.2 _)
    generalize values.foldl (fun entries v => BindingMap.insertEntry v.1 v.2 entries) [] = entries at ih
    constructor
    · rw [BindingMap.keys_insertEntry, ih.keys, List.map_append, List.map_singleton, eraseDups_concat]
      simp only [List.mem_eraseDups]
    · intro key
      rw [lookup_insertEntry, ih.last, List.reverse_concat, Dict.lookup_cons_ite]

theorem merges_iff : Merges values entries ↔
    entries = values.foldl (fun entries v => BindingMap.insertEntry v.1 v.2 entries) [] :=
  ⟨fun h => h.unique (merges_insertEntries values), fun h => h ▸ merges_insertEntries values⟩

end

/-! ## Documents -/

namespace Document

mutual

/-- **The tree of a document.** -/
def toJson : Document → Json
  | text s => .string (some s)
  | flag b => .bool b
  | list items => .array (toItems items)
  | entries members => .object (toMembers members)

/-- The trees of items. -/
def toItems : List Document → List Json
  | [] => []
  | item :: rest => item.toJson :: toItems rest

/-- The trees of members. -/
def toMembers : List (String × Document) → List (Option String × Json)
  | [] => []
  | (key, value) :: rest => (some key, value.toJson) :: toMembers rest

end

mutual

/-- A tree that is no deeper than a reader goes is read as the document whose tree it is. -/
theorem ofJson?_toJson (document : Document) {depth : Nat} (h : document.toJson.depth ≤ depth) :
    ofJson? depth document.toJson = some document := by
  cases document with
  | text s => rfl
  | flag b => rfl
  | list items =>
    cases depth with
    | zero => cases h
    | succ depth => rw [toJson, ofJson?, ofItems?_toItems items (Nat.le_of_succ_le_succ h), Option.map_some]
  | entries members =>
    cases depth with
    | zero => cases h
    | succ depth => rw [toJson, ofJson?, ofMembers?_toMembers members (Nat.le_of_succ_le_succ h), Option.map_some]

theorem ofItems?_toItems (items : List Document) {depth : Nat} (h : Json.depthOfItems (toItems items) ≤ depth) :
    ofItems? depth (toItems items) = some items := by
  cases items with
  | nil => rfl
  | cons item rest =>
    obtain ⟨hitem, hrest⟩ := Nat.max_le.mp h
    rw [toItems, ofItems?, ofJson?_toJson item hitem, ofItems?_toItems rest hrest]
    rfl

theorem ofMembers?_toMembers (members : List (String × Document)) {depth : Nat}
    (h : Json.depthOfMembers (toMembers members) ≤ depth) : ofMembers? depth (toMembers members) = some members := by
  cases members with
  | nil => rfl
  | cons member rest =>
    obtain ⟨key, value⟩ := member
    obtain ⟨hvalue, hrest⟩ := Nat.max_le.mp h
    rw [toMembers, ofMembers?, ofJson?_toJson value hvalue, ofMembers?_toMembers rest hrest]
    rfl

end

mutual

/-- What is read as a document is its tree, and no deeper than the reader goes. -/
theorem toJson_of_ofJson? (json : Json) {depth : Nat} {document : Document} (h : ofJson? depth json = some document) :
    document.toJson = json ∧ json.depth ≤ depth := by
  cases json with
  | null => cases h
  | number => cases h
  | bool b =>
    cases h
    exact ⟨rfl, Nat.zero_le _⟩
  | string s =>
    obtain ⟨s, rfl, rfl⟩ := Option.map_eq_some_iff.mp h
    exact ⟨rfl, Nat.zero_le _⟩
  | array items =>
    cases depth with
    | zero => cases h
    | succ depth =>
      obtain ⟨items', hitems, rfl⟩ := Option.map_eq_some_iff.mp h
      obtain ⟨heq, hdepth⟩ := toItems_of_ofItems? items hitems
      exact ⟨congrArg Json.array heq, Nat.succ_le_succ hdepth⟩
  | object members =>
    cases depth with
    | zero => cases h
    | succ depth =>
      obtain ⟨members', hmembers, rfl⟩ := Option.map_eq_some_iff.mp h
      obtain ⟨heq, hdepth⟩ := toMembers_of_ofMembers? members hmembers
      exact ⟨congrArg Json.object heq, Nat.succ_le_succ hdepth⟩

theorem toItems_of_ofItems? (items : List Json) {depth : Nat} {items' : List Document}
    (h : ofItems? depth items = some items') : toItems items' = items ∧ Json.depthOfItems items ≤ depth := by
  cases items with
  | nil =>
    cases h
    exact ⟨rfl, Nat.zero_le _⟩
  | cons item rest =>
    rw [ofItems?] at h
    obtain ⟨document, hdocument, h⟩ := Option.bind_eq_some_iff.mp h
    obtain ⟨rest', hrest, h⟩ := Option.bind_eq_some_iff.mp h
    cases h
    obtain ⟨heq, hdepth⟩ := toJson_of_ofJson? item hdocument
    obtain ⟨heqs, hdepths⟩ := toItems_of_ofItems? rest hrest
    exact ⟨by rw [toItems, heq, heqs], Nat.max_le.mpr ⟨hdepth, hdepths⟩⟩

theorem toMembers_of_ofMembers? (members : List (Option String × Json)) {depth : Nat}
    {members' : List (String × Document)} (h : ofMembers? depth members = some members') :
    toMembers members' = members ∧ Json.depthOfMembers members ≤ depth := by
  cases members with
  | nil =>
    cases h
    exact ⟨rfl, Nat.zero_le _⟩
  | cons member rest =>
    obtain ⟨key, value⟩ := member
    rw [ofMembers?] at h
    obtain ⟨key', hkey, h⟩ := Option.bind_eq_some_iff.mp h
    obtain ⟨document, hdocument, h⟩ := Option.bind_eq_some_iff.mp h
    obtain ⟨rest', hrest, h⟩ := Option.bind_eq_some_iff.mp h
    cases h
    subst hkey
    obtain ⟨heq, hdepth⟩ := toJson_of_ofJson? value hdocument
    obtain ⟨heqs, hdepths⟩ := toMembers_of_ofMembers? rest hrest
    exact ⟨by rw [toMembers, heq, heqs], Nat.max_le.mpr ⟨hdepth, hdepths⟩⟩

end

/-! ## Structured properties -/

theorem toItems_eq_map (items : List Document) : toItems items = items.map toJson := by
  induction items with
  | nil => rfl
  | cons item rest ih => rw [toItems, ih, List.map_cons]

theorem toMembers_eq_map (members : List (String × Document)) :
    toMembers members = members.map fun m => (some m.1, m.2.toJson) := by
  induction members with
  | nil => rfl
  | cons member rest ih => rw [toMembers, ih, List.map_cons]

/-- Triggers are read if they are a list of texts. -/
theorem triggerNames_eq_ok_iff {key : String} {items : List Document} {names : List String} :
    triggerNames key items = .ok names ↔ (list items).toJson = Json.ofNames names := by
  rw [toJson, Json.ofNames, Json.array.injEq]
  induction items generalizing names with
  | nil => cases names <;> simp [triggerNames, toItems]
  | cons item rest ih =>
    cases item with
    | text name =>
      cases names with
      | nil =>
        cases hrest : triggerNames key rest <;> simp [triggerNames, toItems, hrest, Except.map]
      | cons name' names =>
        have hiff := @ih names
        cases hrest : triggerNames key rest with
        | error fault => simp [triggerNames, toItems, toJson, hrest, Except.map, ← hiff]
        | ok names' =>
          rw [hrest, Except.ok.injEq] at hiff
          simp [triggerNames, toItems, toJson, hrest, Except.map, ← hiff]
    | flag b => cases names <;> simp [triggerNames, toItems, toJson]
    | list items => cases names <;> simp [triggerNames, toItems, toJson]
    | entries members => cases names <;> simp [triggerNames, toItems, toJson]

end Document

namespace Json

theorem last?_concat (key : String) (members : List (Option String × Json)) (m : Option String × Json) :
    last? key (members ++ [m]) = if m.1 = some key then some m.2 else last? key members := by
  obtain ⟨name, value⟩ := m
  unfold last?
  rw [List.reverse_append, List.reverse_singleton, List.singleton_append, List.lookup_cons]
  by_cases h : name = some key
  · simp [h]
  · have hne : (some key == name) = false := by simpa using Ne.symm h
    simp [h, hne]

/-- What stands under a name at all stands there last. -/
theorem exists_last? {key : String} {members : List (Option String × Json)} {value : Json}
    (h : (some key, value) ∈ members) : ∃ value', last? key members = some value' := by
  refine Option.ne_none_iff_exists'.mp fun hnone => ?_
  have hne := List.lookup_eq_none_iff.mp hnone _ (List.mem_reverse.mpr h)
  simp at hne

theorem ofNames_injective : Function.Injective ofNames := by
  intro names names' h
  exact List.map_injective_iff.mpr (fun a b hab => Option.some.inj (Json.string.inj hab)) (Json.array.inj h)

end Json

namespace Document

variable {key : String} {s s' : Structured} {entry : String × Document} {members : List (String × Document)}

/-- What the entries read so far say, whether or not there is a property among them. -/
structure Structured.Tells (members : List (Option String × Json)) (s : Structured) : Prop where
  property : Json.last? "property" members = s.field.map fun field => .string (some field)
  negate : (Json.last? "negate" members).getD (.bool false) = .bool s.negate
  triggers : Json.last? "triggers" members = s.triggers.map Json.ofNames

/-- **An entry that is read** is of the right kind, and says more than those before it. -/
theorem tells_of_readEntry (hread : readEntry key s entry = .ok s') {members : List (Option String × Json)}
    (h : s.Tells members) :
    Json.IsValid (some entry.1, entry.2.toJson) ∧ s'.Tells (members ++ [(some entry.1, entry.2.toJson)]) := by
  obtain ⟨name, value⟩ := entry
  cases value with
  | text field =>
    simp only [readEntry] at hread
    split at hread
    · next hname =>
      cases hread
      subst hname
      refine ⟨⟨fun _ => ⟨field, rfl⟩, by simp, by simp⟩, ?_⟩
      constructor <;> simp [Json.last?_concat, h.negate, h.triggers, toJson]
    · cases hread
  | flag b =>
    simp only [readEntry] at hread
    split at hread
    · next hname =>
      cases hread
      subst hname
      refine ⟨⟨by simp, fun _ => ⟨b, rfl⟩, by simp⟩, ?_⟩
      constructor <;> simp [Json.last?_concat, h.property, h.triggers, toJson]
    · cases hread
  | list items =>
    simp only [readEntry] at hread
    split at hread
    · next hname =>
      subst hname
      obtain ⟨names, hnames, rfl⟩ := map_eq_ok hread
      have hlist := triggerNames_eq_ok_iff.mp hnames
      refine ⟨⟨by simp, by simp, fun _ => ⟨names, hlist⟩⟩, ?_⟩
      constructor <;> simp [Json.last?_concat, h.property, h.negate, hlist]
    · cases hread
  | entries members => cases hread

/-- An entry of the right kind is read. -/
theorem exists_readEntry (hname : entry.1 = "property" ∨ entry.1 = "negate" ∨ entry.1 = "triggers")
    (hvalid : Json.IsValid (some entry.1, entry.2.toJson)) (key : String) (s : Structured) :
    ∃ s', readEntry key s entry = .ok s' := by
  obtain ⟨name, value⟩ := entry
  obtain rfl | rfl | rfl := hname
  · obtain ⟨field, hvalue⟩ := hvalid.property rfl
    cases value with
    | text s => exact ⟨_, rfl⟩
    | flag b => cases hvalue
    | list items => cases hvalue
    | entries members => cases hvalue
  · obtain ⟨b, hvalue⟩ := hvalid.negate rfl
    cases value with
    | text s => cases hvalue
    | flag b => exact ⟨_, rfl⟩
    | list items => cases hvalue
    | entries members => cases hvalue
  · obtain ⟨names, hvalue⟩ := hvalid.triggers rfl
    cases value with
    | text s => cases hvalue
    | flag b => cases hvalue
    | list items =>
      refine ⟨{ s with triggers := some names }, ?_⟩
      simp only [readEntry, if_true, triggerNames_eq_ok_iff.mpr hvalue]
      rfl
    | entries members => cases hvalue

theorem readEntries_concat (key : String) (s : Structured) (members : List (String × Document))
    (entry : String × Document) :
    readEntries key s (members ++ [entry]) = readEntries key s members >>= (readEntry key · entry) := by
  induction members generalizing s with
  | nil =>
    rw [List.nil_append, readEntries]
    cases hread : readEntry key s entry <;> simp [readEntries, hread, bind, Except.bind]
  | cons first rest ih =>
    rw [List.cons_append, readEntries, readEntries]
    cases hread : readEntry key s first with
    | error fault => rfl
    | ok s' => exact ih s'

/-- **Entries that are read** are of the right kind, and the last of each name counts. -/
theorem tells_of_readEntries (hread : readEntries key {} members = .ok s) :
    (∀ m ∈ toMembers members, Json.IsValid m) ∧ s.Tells (toMembers members) := by
  induction members using List.reverseRecOn generalizing s with
  | nil =>
    cases hread
    exact ⟨fun m hm => (nomatch hm), rfl, rfl, rfl⟩
  | append_singleton members entry ih =>
    rw [readEntries_concat] at hread
    obtain ⟨s', hfront, hread⟩ := bind_eq_ok hread
    obtain ⟨hvalid, htells⟩ := ih hfront
    obtain ⟨hlast, htells'⟩ := tells_of_readEntry hread htells
    rw [toMembers_eq_map, List.map_append, List.map_singleton, ← toMembers_eq_map]
    refine ⟨fun m hm => ?_, htells'⟩
    obtain hm | hm := List.mem_append.mp hm
    · exact hvalid m hm
    · rw [List.mem_singleton.mp hm]
      exact hlast

/-- Entries of the right kind are read. -/
theorem exists_readEntries (h : ∀ entry ∈ members, entry.1 = "property" ∨ entry.1 = "negate" ∨ entry.1 = "triggers")
    (hvalid : ∀ m ∈ toMembers members, Json.IsValid m) (key : String) (s : Structured) :
    ∃ s', readEntries key s members = .ok s' := by
  induction members generalizing s with
  | nil => exact ⟨s, rfl⟩
  | cons entry rest ih =>
    obtain ⟨s', hread⟩ := exists_readEntry (h entry List.mem_cons_self) (hvalid _ List.mem_cons_self) key s
    obtain ⟨s'', hrest⟩ := ih (fun entry hentry => h entry (List.mem_cons_of_mem _ hentry))
      (fun m hm => hvalid m (List.mem_cons_of_mem _ hm)) s'
    exact ⟨s'', by rw [readEntries, hread]; exact hrest⟩

theorem isText_iff {document : Document} :
    document.isText = true ↔ ∃ field, document.toJson = .string (some field) := by
  cases document <;> simp [isText, toJson]

/-- **Members are taken for a structured property** exactly if their tree is one. -/
theorem isStructured_iff : isStructured members = true ↔ Json.IsStructured (toMembers members) := by
  unfold isStructured
  rw [Bool.and_eq_true, List.any_eq_true, List.all_eq_true, toMembers_eq_map]
  -- member by member, a document and its tree have the same names and the same texts
  constructor
  · rintro ⟨⟨m, hm, hproperty⟩, hnames⟩
    obtain ⟨hname, htext⟩ := of_decide_eq_true hproperty
    obtain ⟨field, hfield⟩ := isText_iff.mp htext
    refine ⟨fun m' hm' => ?_, field, List.mem_map.mpr ⟨m, hm, by rw [hname, hfield]⟩⟩
    obtain ⟨m, hm, rfl⟩ := List.mem_map.mp hm'
    simpa using hnames m hm
  · intro h
    obtain ⟨field, hfield⟩ := h.property
    obtain ⟨m, hm, heq⟩ := List.mem_map.mp hfield
    obtain ⟨hname, hvalue⟩ := Prod.mk.inj heq
    refine ⟨⟨m, hm, decide_eq_true ⟨Option.some.inj hname, isText_iff.mpr ⟨field, hvalue⟩⟩⟩, fun m hm => ?_⟩
    have hnames := h.names _ (List.mem_map.mpr ⟨m, hm, rfl⟩)
    simpa using hnames

/-- Entries say one thing only. -/
theorem Structured.Tells.unique {members : List (Option String × Json)} (h : s.Tells members) (h' : s'.Tells members) :
    s = s' := by
  have hfield : s.field = s'.field := by
    have hmap := h.property.symm.trans h'.property
    exact Option.map_injective (fun a b hab => Option.some.inj (Json.string.inj hab)) hmap
  have hnegate : s.negate = s'.negate := Json.bool.inj (h.negate.symm.trans h'.negate)
  have htriggers : s.triggers = s'.triggers :=
    Option.map_injective Json.ofNames_injective (h.triggers.symm.trans h'.triggers)
  cases s
  cases s'
  cases hfield
  cases hnegate
  cases htriggers
  rfl

/-- **A structured property is read** exactly if all its members are of the right kind, and is what they say. -/
theorem structured_eq_ok_iff (h : Json.IsStructured (toMembers members)) {property : Property} :
    structured key members = .ok property ↔ (∀ m ∈ toMembers members, Json.IsValid m) ∧ ∃ field negate triggers,
      Json.Says (toMembers members) field negate triggers ∧ property = .structured (.field field) negate triggers := by
  unfold structured
  constructor
  · intro hread
    obtain ⟨s, hentries, rfl⟩ := map_eq_ok hread
    obtain ⟨hvalid, htells⟩ := tells_of_readEntries hentries
    -- a property is among the members, so the last one is known
    obtain ⟨field, hfield⟩ : ∃ field, s.field = some field := by
      obtain ⟨field, hmem⟩ := h.property
      obtain ⟨value, hvalue⟩ := Json.exists_last? hmem
      obtain ⟨field', hfield, -⟩ := Option.map_eq_some_iff.mp (htells.property.symm.trans hvalue)
      exact ⟨field', hfield⟩
    refine ⟨hvalid, field, s.negate, s.triggers, ⟨?_, htells.negate, htells.triggers⟩, ?_⟩
    · rw [htells.property, hfield]
      rfl
    · rw [hfield]
      rfl
  · rintro ⟨hvalid, field, negate, triggers, htold, rfl⟩
    have hnames : ∀ entry ∈ members, entry.1 = "property" ∨ entry.1 = "negate" ∨ entry.1 = "triggers" := by
      intro entry hentry
      have hname := h.names (some entry.1, entry.2.toJson)
        (toMembers_eq_map members ▸ List.mem_map.mpr ⟨entry, hentry, rfl⟩)
      simpa using hname
    obtain ⟨s, hread⟩ := exists_readEntries hnames hvalid key {}
    have hsame : s = ⟨some field, negate, triggers⟩ :=
      (tells_of_readEntries hread).2.unique ⟨htold.property, htold.negate, htold.triggers⟩
    rw [hread, hsame]
    rfl

/-! ## Values and maps -/

mutual

/-- **What a document binds** is what its tree means; a document whose tree means nothing is refused. -/
theorem mapValue_eq_ok_iff (key : String) (document : Document) {value : MapValue} :
    mapValue key document = .ok value ↔ document.toJson.Means value := by
  cases document with
  | text s =>
    refine ⟨fun h => ?_, fun h => ?_⟩
    · cases h
      exact .text s
    · cases h
      rfl
  | flag b => exact ⟨nofun, nofun⟩
  | list items => exact ⟨nofun, nofun⟩
  | entries members =>
    rw [mapValue, toJson]
    by_cases hstructured : isStructured members = true
    · have htree := isStructured_iff.mp hstructured
      rw [if_pos hstructured]
      constructor
      · intro h
        obtain ⟨property, hread, rfl⟩ := map_eq_ok h
        obtain ⟨hvalid, field, negate, triggers, htold, rfl⟩ := (structured_eq_ok_iff htree).mp hread
        exact .structured htree hvalid htold
      · intro h
        cases h with
        | structured _ hvalid htold => rw [(structured_eq_ok_iff htree).mpr ⟨hvalid, _, _, _, htold, rfl⟩]; rfl
        | nested hplain _ _ => exact absurd htree hplain
    · have htree := mt isStructured_iff.mpr hstructured
      rw [if_neg hstructured]
      constructor
      · intro h
        obtain ⟨entries, hread, rfl⟩ := map_eq_ok h
        obtain ⟨values, hlists, heq⟩ := (mapEntries_eq_ok_iff [] members).mp hread
        exact .nested htree hlists (merges_iff.mpr heq)
      · intro h
        cases h with
        | structured hproperty _ _ => exact absurd hproperty htree
        | nested _ hlists hmerges => rw [(mapEntries_eq_ok_iff [] members).mpr ⟨_, hlists, merges_iff.mp hmerges⟩]; rfl

/-- What members bind, one inserted after the other. -/
theorem mapEntries_eq_ok_iff (done : List (String × MapValue)) (members : List (String × Document))
    {entries : List (String × MapValue)} :
    mapEntries done members = .ok entries ↔ ∃ values, Json.Lists (toMembers members) values ∧
      entries = values.foldl (fun entries v => BindingMap.insertEntry v.1 v.2 entries) done := by
  cases members with
  | nil =>
    constructor
    · intro h
      cases h
      exact ⟨[], .nil, rfl⟩
    · rintro ⟨values, hlists, rfl⟩
      cases hlists
      rfl
  | cons member rest =>
    obtain ⟨key, document⟩ := member
    rw [mapEntries, toMembers]
    constructor
    · intro h
      obtain ⟨value, hvalue, h⟩ := bind_eq_ok h
      obtain ⟨values, hlists, heq⟩ := (mapEntries_eq_ok_iff _ rest).mp h
      exact ⟨(key, value) :: values, .cons ((mapValue_eq_ok_iff key document).mp hvalue) hlists, heq⟩
    · rintro ⟨values, hlists, rfl⟩
      cases hlists with
      | cons hmeans hrest =>
        rw [(mapValue_eq_ok_iff key document).mpr hmeans]
        exact (mapEntries_eq_ok_iff _ rest).mpr ⟨_, hrest, rfl⟩

end

end Document

namespace Json

variable {json : Json} {members : List (Option String × Json)} {key : String} {value : MapValue}

/-! ## Values that bind something -/

theorem mem_of_last? {value : Json} (h : last? key members = some value) : (some key, value) ∈ members := by
  obtain ⟨before, behind, heq, -⟩ := List.lookup_eq_some_iff.mp h
  rw [← List.mem_reverse, heq]
  exact List.mem_append_right _ List.mem_cons_self

/-- The valid members of a structured property say something. -/
theorem exists_says (h : IsStructured members) (hvalid : ∀ m ∈ members, IsValid m) :
    ∃ field negate triggers, Says members field negate triggers := by
  obtain ⟨field, hfield⟩ : ∃ field, last? "property" members = some (.string (some field)) := by
    obtain ⟨field, hmem⟩ := h.property
    obtain ⟨value, hvalue⟩ := exists_last? hmem
    obtain ⟨field', rfl⟩ := (hvalid _ (mem_of_last? hvalue)).property rfl
    exact ⟨field', hvalue⟩
  obtain ⟨negate, hnegate⟩ : ∃ negate, (last? "negate" members).getD (.bool false) = .bool negate := by
    cases hvalue : last? "negate" members with
    | none => exact ⟨false, rfl⟩
    | some value => exact (hvalid _ (mem_of_last? hvalue)).negate rfl
  obtain ⟨triggers, htriggers⟩ :
      ∃ triggers : Option (List String), last? "triggers" members = triggers.map ofNames := by
    cases hvalue : last? "triggers" members with
    | none => exact ⟨none, rfl⟩
    | some value =>
      obtain ⟨names, rfl⟩ := (hvalid _ (mem_of_last? hvalue)).triggers rfl
      exact ⟨some names, rfl⟩
  exact ⟨field, negate, triggers, hfield, hnegate, htriggers⟩

theorem exists_lists (hnames : ∀ m ∈ members, m.1.isSome = true) (hvalues : ∀ m ∈ members, ∃ value, m.2.Means value) :
    ∃ values, Lists members values := by
  induction members with
  | nil => exact ⟨[], .nil⟩
  | cons member rest ih =>
    obtain ⟨name, json⟩ := member
    obtain ⟨key, rfl⟩ := Option.isSome_iff_exists.mp (hnames _ List.mem_cons_self)
    obtain ⟨value, hvalue⟩ := hvalues _ List.mem_cons_self
    obtain ⟨values, hrest⟩ := ih (fun m hm => hnames m (List.mem_cons_of_mem _ hm))
      fun m hm => hvalues m (List.mem_cons_of_mem _ hm)
    exact ⟨(key, value) :: values, .cons hvalue hrest⟩

theorem Binds.exists_means (h : json.Binds) : ∃ value, json.Means value := by
  induction h with
  | text s => exact ⟨_, .text s⟩
  | structured h hvalid =>
    obtain ⟨field, negate, triggers, htold⟩ := exists_says h hvalid
    exact ⟨_, .structured h hvalid htold⟩
  | nested h hnames _ ih =>
    obtain ⟨values, hlists⟩ := exists_lists hnames ih
    exact ⟨_, .nested h hlists (merges_insertEntries values)⟩

mutual

theorem Means.binds {json : Json} {value : MapValue} (h : json.Means value) : json.Binds := by
  cases h with
  | text s => exact .text s
  | structured h hvalid _ => exact .structured h hvalid
  | nested h hlists _ => exact .nested h (fun m hm => (hlists.binds m hm).1) fun m hm => (hlists.binds m hm).2

theorem Lists.binds {members : List (Option String × Json)} {values : List (String × MapValue)}
    (h : Lists members values) : ∀ m ∈ members, m.1.isSome = true ∧ m.2.Binds := by
  cases h with
  | nil => exact fun m hm => nomatch hm
  | cons hvalue hrest => exact List.forall_mem_cons.mpr ⟨⟨rfl, hvalue.binds⟩, hrest.binds⟩

end

/-- **A value means something exactly if it binds something.** -/
theorem binds_iff : json.Binds ↔ ∃ value, json.Means value := ⟨Binds.exists_means, fun ⟨_, h⟩ => h.binds⟩

/-- Members with names, whose values are trees of documents, are those of a document. -/
theorem exists_document_of_members (h : ∀ m ∈ members, ∃ key, ∃ document : Document, m = (some key, document.toJson)) :
    ∃ document : Document, document.toJson = .object members := by
  suffices hmembers : ∃ members', Document.toMembers members' = members by
    obtain ⟨members', rfl⟩ := hmembers
    exact ⟨.entries members', rfl⟩
  induction members with
  | nil => exact ⟨[], rfl⟩
  | cons member rest ih =>
    obtain ⟨key, document, rfl⟩ := h _ List.mem_cons_self
    obtain ⟨rest', rfl⟩ := ih fun m hm => h m (List.mem_cons_of_mem _ hm)
    exact ⟨(key, document) :: rest', rfl⟩

/-- **What binds something is the tree of a document.** -/
theorem Binds.exists_document (h : json.Binds) : ∃ document : Document, document.toJson = json := by
  induction h with
  | text s => exact ⟨.text s, rfl⟩
  | structured h hvalid =>
    refine exists_document_of_members fun m hm => ?_
    obtain ⟨name, value⟩ := m
    obtain hname | hname | hname := h.names _ hm
    · obtain ⟨field, hvalue⟩ := (hvalid _ hm).property hname
      exact ⟨"property", .text field, Prod.ext hname hvalue⟩
    · obtain ⟨b, hvalue⟩ := (hvalid _ hm).negate hname
      exact ⟨"negate", .flag b, Prod.ext hname hvalue⟩
    · obtain ⟨names, hvalue⟩ := (hvalid _ hm).triggers hname
      refine ⟨"triggers", .list (names.map .text), Prod.ext hname (hvalue.trans ?_)⟩
      rw [Document.toJson, Document.toItems_eq_map, List.map_map]
      rfl
  | nested h hnames _ ih =>
    refine exists_document_of_members fun m hm => ?_
    obtain ⟨key, hkey⟩ := Option.isSome_iff_exists.mp (hnames m hm)
    obtain ⟨document, hdocument⟩ := ih m hm
    exact ⟨key, document, Prod.ext hkey hdocument.symm⟩

theorem Lists.exists_document {values : List (String × MapValue)} (h : Lists members values) :
    ∃ document : Document, document.toJson = .object members := by
  refine exists_document_of_members fun m hm => ?_
  obtain ⟨hname, hbinds⟩ := h.binds m hm
  obtain ⟨key, hkey⟩ := Option.isSome_iff_exists.mp hname
  obtain ⟨document, hdocument⟩ := hbinds.exists_document
  exact ⟨key, document, Prod.ext hkey hdocument.symm⟩

end Json

/-! ## Maps -/

namespace BindingMap

variable {reader : Json.Reader} {s : String} {json : Json}

/-- **A document is a binding map** exactly if it is an object whose members all mean something, and the map is what
they merge to. -/
theorem ofDocument_eq_ok_iff {document : Document} {map : BindingMap} : ofDocument document = .ok map ↔
    ∃ members values, document.toJson = .object members ∧ Json.Lists members values ∧ Merges values map.entries := by
  cases document with
  | text s => exact ⟨nofun, fun ⟨_, _, htree, _⟩ => nomatch htree⟩
  | flag b => exact ⟨nofun, fun ⟨_, _, htree, _⟩ => nomatch htree⟩
  | list items => exact ⟨nofun, fun ⟨_, _, htree, _⟩ => nomatch htree⟩
  | entries members =>
    rw [ofDocument, Document.toJson]
    constructor
    · intro h
      obtain ⟨entries, hread, rfl⟩ := map_eq_ok h
      obtain ⟨values, hlists, heq⟩ := (Document.mapEntries_eq_ok_iff [] members).mp hread
      exact ⟨_, values, rfl, hlists, merges_iff.mpr heq⟩
    · rintro ⟨_, values, htree, hlists, hmerges⟩
      cases htree
      rw [(Document.mapEntries_eq_ok_iff [] members).mpr ⟨values, hlists, merges_iff.mp hmerges⟩]
      rfl

/-- **A text that is delivered is decoded as the document whose tree it is delivered as**, whoever read it, and refused
if there is none. -/
theorem ofText_eq_ok_iff (h : Json.Delivers reader s json) {map : BindingMap} :
    ofText reader s = .ok map ↔ ∃ document : Document, document.toJson = json ∧ ofDocument document = .ok map := by
  obtain ⟨rest, hread, hend⟩ := h.read
  unfold ofText
  simp only [hread]
  cases hdocument : Document.ofJson? Document.maxDepth json with
  | none =>
    refine ⟨nofun, ?_⟩
    rintro ⟨document, rfl, -⟩
    rw [Document.ofJson?_toJson document h.depth] at hdocument
    cases hdocument
  | some document =>
    obtain ⟨rfl, -⟩ := Document.toJson_of_ofJson? json hdocument
    simp only [hend, if_true]
    constructor
    · intro hmap
      obtain ⟨map', hof, hmap⟩ := bind_eq_ok hmap
      cases hmap
      exact ⟨document, rfl, hof⟩
    · rintro ⟨document', htree, hmap⟩
      rw [← htree, Document.ofJson?_toJson document' (htree ▸ h.depth)] at hdocument
      cases hdocument
      rw [hmap]
      rfl

/-- A text that is decoded is delivered as some tree. -/
theorem exists_delivers {map : BindingMap} (h : ofText reader s = .ok map) : ∃ json, Json.Delivers reader s json := by
  unfold ofText at h
  split at h
  · cases h
  · next json rest hread =>
    split at h
    · cases h
    · next document hdocument =>
      refine ⟨json, ⟨rest, hread, ?_⟩, (Document.toJson_of_ofJson? json hdocument).2⟩
      obtain ⟨map', -, h⟩ := bind_eq_ok h
      by_contra hend
      rw [if_neg hend] at h
      cases h

/-- **Binding maps are decoded completely and in order**, by whatever reader. Only a text that the reader delivers as a
tree is decoded, and then if and only if the tree is an object whose members all have a name and bind something, also
those whose name is given another value later. The map has every name once, where it stands first, with what the last
value under it means: a text is an expression, a structured property is what the last member of each of its names says,
any other object is a map of its own, merged in the same way. -/
theorem ofText_decodes (reader : Json.Reader) (s : String) :
    (∀ map, ofText reader s = .ok map → ∃ json, Json.Delivers reader s json) ∧
      ∀ json, Json.Delivers reader s json →
        ((∃ map, ofText reader s = .ok map) ↔
          ∃ members, json = .object members ∧ ∀ m ∈ members, m.1.isSome = true ∧ m.2.Binds) ∧
        ∀ map, ofText reader s = .ok map ↔
          ∃ members values, json = .object members ∧ Json.Lists members values ∧ Merges values map.entries := by
  refine ⟨fun map => exists_delivers, fun json hdelivers => ?_⟩
  have hmap : ∀ map, ofText reader s = .ok map ↔
      ∃ members values, json = .object members ∧ Json.Lists members values ∧ Merges values map.entries := by
    intro map
    rw [ofText_eq_ok_iff hdelivers]
    constructor
    · rintro ⟨document, rfl, hof⟩
      exact ofDocument_eq_ok_iff.mp hof
    · rintro ⟨members, values, rfl, hlists, hmerges⟩
      obtain ⟨document, hdocument⟩ := hlists.exists_document
      exact ⟨document, hdocument, ofDocument_eq_ok_iff.mpr ⟨members, values, hdocument, hlists, hmerges⟩⟩
  refine ⟨?_, hmap⟩
  constructor
  · rintro ⟨map, h⟩
    obtain ⟨members, values, rfl, hlists, -⟩ := (hmap map).mp h
    exact ⟨members, rfl, hlists.binds⟩
  · rintro ⟨members, rfl, hbinds⟩
    obtain ⟨values, hlists⟩ := Json.exists_lists (fun m hm => (hbinds m hm).1) fun m hm => Json.binds_iff.mp (hbinds m hm).2
    exact ⟨⟨_⟩, (hmap _).mpr ⟨members, values, rfl, hlists, merges_insertEntries values⟩⟩

/-- A document in which names are repeated, among the entries and in a structured property. -/
def repeating : String :=
  "\x7b\"z\": \"one\", \"a\": \x7b\"property\": \"p\", \"negate\": true, \"property\": \"q\"\x7d, " ++
    "\"ul\": \x7b\"li\": \"x\"\x7d, \"z\": \"two\"\x7d"

/-- Its members. -/
def repeatingMembers : List (Option String × Json) :=
  [(some "z", .string (some "one")),
    (some "a", .object [(some "property", .string (some "p")), (some "negate", .bool true),
      (some "property", .string (some "q"))]),
    (some "ul", .object [(some "li", .string (some "x"))]), (some "z", .string (some "two"))]

/-- What it says. -/
def repeatingMap : BindingMap :=
  ⟨[("z", .expression "two"), ("a", .property (.structured (.field "q") true none)),
    ("ul", .nested [("li", .expression "x")])]⟩

/-- A name that is repeated keeps its first place and has its last value. -/
theorem ofText_decodes_repeating :
    Json.Delivers Json.reader repeating (.object repeatingMembers) ∧ ofText Json.reader repeating = .ok repeatingMap ∧
      (∀ m ∈ repeatingMembers, m.1.isSome = true ∧ m.2.Binds) ∧
      ∃ values, Json.Lists repeatingMembers values ∧ Merges values repeatingMap.entries := by
  have hread : Json.read? repeating = some (.object repeatingMembers, []) := by cbv
  have hdelivers : Json.Delivers Json.reader repeating (.object repeatingMembers) := ⟨⟨[], hread, rfl⟩, by decide +kernel⟩
  have hmap : ofText Json.reader repeating = .ok repeatingMap := by cbv
  obtain ⟨hsucceeds, hdecodes⟩ := (ofText_decodes Json.reader repeating).2 _ hdelivers
  obtain ⟨members, htree, hbinds⟩ := hsucceeds.mp ⟨_, hmap⟩
  obtain ⟨members', values, htree', hlists, hmerges⟩ := (hdecodes _).mp hmap
  cases htree
  cases htree'
  exact ⟨hdelivers, hmap, hbinds, values, hlists, hmerges⟩

/-- A member that binds nothing is refused, though its name is given a text later. -/
example : ofText Json.reader "\x7b\"a\": true, \"a\": \"x\"\x7d" = .error (.badValue "a") := by cbv

end BindingMap

end Databind
