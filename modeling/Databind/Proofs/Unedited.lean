import Databind.Proofs.Announcement
import Databind.Proofs.Dropping
import Databind.Proofs.Reading
import Databind.Proofs.Sweep

/-!
# `Proofs.Unedited` — an event at an element that nobody has edited

An event of a two-way binding writes back what its elements show. If that is what the field holds, the write finds the
value stored already: it alters nothing, and nobody is told. Every element that the event passes was painted by the
binding if the selector selects what it selected then, for an event meets the binding's handler exactly at the elements
that its selector selects.
-/

namespace Databind

open Store

namespace Store

variable {s : Store} {id : RecordId} {name : String} {v : Value}

/-- A change that leaves a record as it is. -/
theorem modifyRecord_eq_self {f : Record → Record} (h : f (s.record id) = s.record id) : s.modifyRecord id f = s := by
  have hrecords : s.records.modify id.number f = s.records := by
    refine Array.ext (Array.size_modify ..) fun i hi hi' => ?_
    rw [Array.getElem_modify]
    split
    · next heq =>
      subst heq
      have hrecord : s.record id = s.records[id.number] := by simp [record, hi']
      rw [← hrecord, h]
    · rfl
  rw [modifyRecord, hrecords]

/-- **Writing a value that is stored already does nothing**, if no validator is asked. -/
theorem write_of_stored (hvalidator : (s.record id).validator = none) (hdefined : v.isUndefined = false)
    (hstored : ((s.fields id).get name).strictEqual v = true) :
    ∃ j, s.write id [(name, v)] = ({ s with journal := j }, []) := by
  cases halive : (s.record id).alive with
  | false => exact ⟨_, write_of_dead halive⟩
  | true =>
    have hsame : (s.record id).fields.store? name v = none := by
      have hget : (Dict.get? (s.record id).fields name).any (·.strictEqual v) = true := by
        unfold Fields.get at hstored
        cases hfield : Dict.get? (s.fields id) name with
        | none =>
          rw [hfield] at hstored
          cases v <;> cases hstored
          cases hdefined
        | some w =>
          rw [hfield] at hstored
          exact (congrArg (Option.any _) hfield).trans hstored
      rw [Fields.store?, hdefined, if_neg Bool.false_ne_true, if_pos hget]
    have hbatch : (s.record id).batch [(name, v)] = .start (s.record id).fields := by
      simp only [Record.batch, List.foldl_cons, List.foldl_nil, hvalidator, Record.Batch.write, Record.Batch.store,
        Record.Batch.start, hsame]
    refine ⟨s.journal, ?_⟩
    rw [write_of_unchanged halive (by rw [hbatch]; rfl), stored, hbatch]
    have hcommit : (s.record id).commit (.start (s.record id).fields) = s.record id := rfl
    exact congrArg (·, ([] : List Task)) (modifyRecord_eq_self hcommit)

/-- **Writing an element back that shows what its field holds** does nothing. -/
theorem writeBack_of_shows {tree : Nat} {context : WriteBack} {x : Nat}
    (hvalidator : (s.record context.record).validator = none)
    (hmirrors : context.attr.Mirrors context.negate ((s.fields context.record).get context.field))
    (hshows : (s.arena tree).Shows x context.attr (if context.negate then
      .bool !((s.fields context.record).get context.field).truthy else (s.fields context.record).get context.field))
    (event : String) : ∃ j, s.writeBack tree event context x = ({ s with journal := j }, []) := by
  obtain ⟨hdefined, hstored⟩ := hmirrors.coerce hshows
  exact write_of_stored (s := s.log _) hvalidator hdefined hstored

end Store

namespace Machine

variable {m m' m₁ : Machine} {turns : List Turn} {k : Nat} {event : String}

/-- **A dispatch whose handlers write back what their elements show** alters no record and tells nobody. -/
theorem records_of_shown (context : WriteBack) {base : List Frame} {pinned : List Nat} {waiting : List (EventHandler × Nat)}
    (hstack : m.stack = .task (.dispatch k pinned event waiting) :: base)
    (hvalidator : (m.store.record context.record).validator = none)
    (hmirrors : context.attr.Mirrors context.negate ((m.store.fields context.record).get context.field))
    (hwaiting : ∀ p ∈ waiting, p.1 = .writeBack context ∧
      (m.store.arena k).Shows p.2 context.attr (if context.negate then
        .bool !((m.store.fields context.record).get context.field).truthy
        else (m.store.fields context.record).get context.field))
    (hreturns : m.Returns base turns m') : m'.store.records = m.store.records ∧ m.emitted turns = [] := by
  -- by induction on the handlers that wait: each writes back what is stored, which leaves all but the journal as it is
  induction waiting generalizing m turns with
  | nil =>
    cases hreturns with
    | done h =>
      have hlength := congrArg List.length (h.symm.trans hstack)
      simp at hlength
    | turn _ hturn hrest =>
      obtain ⟨rfl, rfl⟩ := step_of_task hstack hturn
      obtain ⟨rfl, rfl⟩ := hrest.of_stack rfl
      refine ⟨rfl, ?_⟩
      simp only [emitted, hturn, Option.elim_some, List.append_nil]
      exact begun_of_same (by simp only [changing, hstack]; rfl)
  | cons p waiting ih =>
    obtain ⟨handler, x⟩ := p
    obtain ⟨rfl, hshows⟩ := hwaiting (handler, x) List.mem_cons_self
    cases hreturns with
    | done h =>
      have hlength := congrArg List.length (h.symm.trans hstack)
      simp at hlength
    | @turn _ m₁ _ t rest _ _ _ hturn hrest =>
      obtain ⟨rfl, hm₁⟩ := step_of_task hstack hturn
      obtain ⟨j, hback⟩ := writeBack_of_shows hvalidator hmirrors hshows event
      have hnext : m₁.store = { m.store with journal := j } ∧
          m₁.stack = .task (.dispatch k pinned event waiting) :: base := by
        have hmeet : m.session.meet k event (.writeBack context) x =
            (m.session.withStore { m.store with journal := j }, []) := by
          simp only [Session.meet]
          rw [show m.session.workspace.store.writeBack k event context x = _ from hback]
          rfl
        rw [hm₁]
        simp only [runTask, hmeet]
        exact ⟨rfl, rfl⟩
      obtain ⟨hstore, hstack₁⟩ := hnext
      have hlater := ih (m := m₁) hstack₁ (by rw [hstore]; exact hvalidator) (by rw [hstore]; exact hmirrors)
        (fun p hp => by rw [hstore]; exact hwaiting p (List.mem_cons_of_mem _ hp)) hrest
      refine ⟨hlater.1.trans (by rw [hstore]), ?_⟩
      simp only [emitted, hturn, Option.elim_some, hlater.2, List.append_nil]
      exact begun_of_same (by simp only [changing, hstack, hstack₁]; rfl)

end Machine

/-! ## What a binding painted -/

namespace Store

variable {s₀ s : Store} {n k root x : Nat} {b : Binding} {name event : String}

/-- **Nothing has happened since a binding was rendered**: in `s₀` the binder rendered it, no element of the tree has
changed since, the selector selects the same elements, and the field that is shown is what it was. -/
structure Unedited (s₀ s : Store) (n : Nat) (b : Binding) (name : String) : Prop where
  arena : s.arena (s₀.binder n).scope.tree = (s₀.render n b).arena (s₀.binder n).scope.tree
  selected : (s.select (s₀.binder n).scope b.key.selector).2 = (s₀.select (s₀.binder n).scope b.key.selector).2
  stored : (s.fields b.record).get name = (s₀.fields b.record).get name

/-- **Then every selected element shows the field.** -/
theorem Unedited.shows (h : Unedited s₀ s n b name) (hscope : (s₀.binder n).scope = ⟨k, root⟩)
    (htree : k < s₀.trees.size) (haccessor : b.accessor = .field name)
    (hx : x ∈ (s.select ⟨k, root⟩ b.key.selector).2) (hsize : x < (s.arena k).size) :
    (s.arena k).Shows x b.target
      (if b.negate then .bool !((s.fields b.record).get name).truthy else (s.fields b.record).get name) := by
  have hrendered := (shows_render htree n b).arena
  have helements : s₀.elementsOf k (s₀.arena k) (n, b) = (s₀.select ⟨k, root⟩ b.key.selector).2 := by
    rw [elementsOf, hscope, if_pos rfl, (shows_select s₀ k ⟨k, root⟩ b).2]
  have hvalue : b.value (s₀.fields b.record) =
      if b.negate then .bool !((s₀.fields b.record).get name).truthy else (s₀.fields b.record).get name := by
    rw [Binding.value, haccessor]
    rfl
  have harena := h.arena
  have hselected := h.selected
  rw [hscope] at harena hselected
  simp only [List.foldl_cons, List.foldl_nil, shown, helements, hvalue] at hrendered
  rw [harena, hrendered, size_paintAll] at hsize
  rw [hselected] at hx
  rw [harena, hrendered, h.stored]
  exact Arena.shows_paintAll hx hsize _ _

theorem accepts_of_selected {scope : Scope} {text : String} (h : x ∈ (s.select scope text).2) :
    Binding.accepts text = true := by
  unfold select at h
  unfold Binding.accepts
  split at h
  · next hblank => simp [hblank]
  · next hblank =>
    cases hparse : Selector.parse (Text.trim text) with
    | ok selector => simp [Except.isOk, Except.toBool]
    | error e =>
      rw [hparse] at h
      cases h

/-- **An event meets the handler of a binding at elements that its selector selects**, if it meets nobody else. -/
theorem handlersMet_delegation {target : Nat} (hlinked : (s.arena k).Linked) (hevent : b.event = some event)
    (honly : ∀ e ∈ (s.tree k).delegations.live, e.listener.event = event → e.listener = b.delegation root)
    {met : Roster.Entry Delegation × Nat} (hmet : met ∈ handlersMet (s.tree k) event target) :
    met.1.listener = b.delegation root ∧ met.2 ≤ target ∧
      (Binding.accepts b.key.selector = true → met.2 ∈ (s.select ⟨k, root⟩ b.key.selector).2) := by
  obtain ⟨y, hy, hmet⟩ := List.mem_flatMap.mp hmet
  obtain ⟨e, he, rfl⟩ := List.mem_map.mp hmet
  obtain ⟨hlive, hmeets⟩ := List.mem_filter.mp he
  simp only [Bool.decide_and, Bool.and_eq_true, decide_eq_true_eq] at hmeets
  obtain ⟨hthis, hmeets⟩ := hmeets
  have hlistener := honly e hlive hthis
  refine ⟨hlistener, ?_, fun haccepts => ?_⟩
  · obtain rfl | hy := List.mem_cons.mp hy
    · exact Nat.le_refl _
    · exact Nat.le_of_lt (hlinked.lt_of_below (Arena.below_of_mem_ancestors hy))
  · refine (mem_select_iff (a := ⟨event, b.key.selector, root, (b.delegation root).handler⟩) hlinked).mpr
      ⟨b.delegation root, ?_, hlistener ▸ hmeets⟩
    unfold Asked.attached?
    unfold Binding.accepts at haccepts
    split
    · next hblank => simp [Binding.delegation, hevent, hblank]
    · next hblank =>
      cases hparse : Selector.parse (Text.trim b.key.selector) with
      | ok selector => simp [Binding.delegation, hevent, hblank, hparse, Except.toOption]
      | error e => simp [hblank, hparse, Except.isOk, Except.toBool] at haccepts

end Store

namespace Machine

variable {m m₁ : Machine} {k target : Nat} {event : String} {base : Nat → List Frame}

/-- Beginning a dispatch emits no change. -/
theorem Fires.begun (h : m.Fires k event target m₁ base) : m.begun m₁ = [] := by
  obtain ⟨pinned, hdispatch⟩ := h.stack
  cases h with
  | host hidle => exact begun_of_same (by simp only [changing, hdispatch, hidle]; rfl)
  | script hstack => exact begun_of_same (by simp only [changing, hdispatch, hstack]; rfl)
  | trigger hstack => exact begun_of_same (by simp only [changing, hdispatch, hstack]; rfl)

/-- **An unedited event writes nothing.** After a binder has rendered a two-way binding of a field whose value comes back
from its attribute as it was shown, with no change to the tree and to the field since, and with the selector selecting
the same elements: the binding's event at any of them, whatever elements of the selection it passes on its way up, runs
to its end, leaves every record as it is, and emits no change, if its handler is the only one and nobody validates. -/
theorem records_of_unedited {s₀ : Store} {n root : Nat} {b : Binding} {name : String}
    (hunedited : s₀.Unedited m.store n b name) (hscope : (s₀.binder n).scope = ⟨k, root⟩) (htree : k < s₀.trees.size)
    (hgrown : (m.store.arena k).Grown) (haccessor : b.accessor = .field name) (hevent : b.event = some event)
    (honly : ∀ e ∈ (m.store.tree k).delegations.live, e.listener.event = event → e.listener = b.delegation root)
    (hvalidator : (m.store.record b.record).validator = none)
    (hmirrors : b.target.Mirrors b.negate ((m.store.fields b.record).get name))
    (htarget : target ∈ (m.store.select ⟨k, root⟩ b.key.selector).2) (hsize : target < (m.store.arena k).size)
    (hfires : m.Fires k event target m₁ base) :
    ∃ count, (∃ turns m', m₁.Returns (base count) turns m') ∧ ∀ turns m', m₁.Returns (base count) turns m' →
      m'.store.records = m.store.records ∧ m.begun m₁ = [] ∧ m₁.emitted turns = [] := by
  have hlinked := Arena.Linked.of_grown hgrown
  obtain ⟨pinned, hstack⟩ := hfires.stack
  obtain ⟨hrecords, harena⟩ := hfires.store
  have hrecord : m₁.store.record b.record = m.store.record b.record := by simp only [record, hrecords]
  have hfields : m₁.store.fields b.record = m.store.fields b.record := congrArg Record.fields hrecord
  refine ⟨_, @exists_returns _ m₁ [_] hstack, fun turns m' hreturns => ?_⟩
  have hback := records_of_shown ⟨b.record, name, b.target, b.negate⟩ hstack (hrecord ▸ hvalidator)
    (hfields ▸ hmirrors) (fun p hp => ?_) hreturns
  · exact ⟨hback.1.trans hrecords, hfires.begun, hback.2⟩
  · obtain ⟨met, hmet, rfl⟩ := List.mem_map.mp hp
    obtain ⟨hlistener, hle, hselected⟩ := handlersMet_delegation hlinked hevent honly hmet
    have hshows := hunedited.shows hscope htree haccessor (hselected (accepts_of_selected htarget))
      (Nat.lt_of_le_of_lt hle hsize)
    refine ⟨?_, by simpa only [hfields, harena] using hshows⟩
    rw [hlistener, Binding.delegation, haccessor]
    rfl

/-! ## Runs -/

/-- A list in an item of a list. -/
def nestedItems : Spec := .node (.ofTag "ul") [.node (.ofTag "li") [.node (.ofTag "li") []]]

/-- A two-way binding of a field on the values of the items, which is rendered when another field changes, and has not
been rendered yet. -/
def itemsBound : List Turn :=
  [.command (.act (.tree (.make "tree" nestedItems))), .step,
    .command (.act (.record (.make "record" [("a", .string "old")]))), .step,
    .command (.act (.binder (.make "binder" "tree" (.given none none none)))), .step,
    .command (.act (.binder (.bind "binder" "record" (.structured (.field "a") false (some ["b"])) ⟨"li", "value"⟩
      .defaultEvent false))), .step]

/-- The binder renders. -/
def itemsRendered : List Turn := [.command (.act (.binder (.render "binder" none))), .step]

/-- The host writes the field. -/
def itemsWritten : List Turn := [.command (.act (.record (.write "record" [("a", .string "new")]))), .step, .step, .step]

/-- The event at the inner item. -/
def itemsEvent : Command := .act (.tree (.dispatch "tree" "change" (.first "tree" "li li")))

/-- The items after the binding was rendered on them, with a text in its field. -/
structure ItemsStand (m₀ m : Machine) (b : Binding) (v : String) : Prop where
  bound : (m₀.store.binder 0).registry.bindings = [b]
  record : b.record = ⟨1⟩
  key : b.key = ⟨"li", "value"⟩
  accessor : b.accessor = .field "a"
  negate : b.negate = false
  event : b.event = some "change"
  scope : (m₀.store.binder 0).scope = ⟨0, 0⟩
  tree : 0 < m₀.store.trees.size
  arena : m.store.arena 0 = (m₀.store.render 0 b).arena 0
  selected : (m.store.select ⟨0, 0⟩ "li").2 = [1, 2]
  selected₀ : (m₀.store.select ⟨0, 0⟩ "li").2 = [1, 2]
  grown : (m.store.arena 0).Grown
  size : 2 < (m.store.arena 0).size
  only : (m.store.tree 0).delegations.live.map (·.listener) = [b.delegation 0]
  validator : (m.store.record ⟨1⟩).validator = none
  stored : (m.store.fields ⟨1⟩).get "a" = .string v
  stored₀ : (m₀.store.fields ⟨1⟩).get "a" = .string "old"
  idle : m.stack = []
  fires : m.Fires 0 "change" 2 (.start m.session itemsEvent) fun count => [.task (.reply (.count count))]

/-- They stand so, whether or not the field was written since. -/
theorem items_stand {later : List Turn} {v : String}
    (hlater : later = [] ∧ v = "old" ∨ later = itemsWritten ∧ v = "new") :
    ∃ m₀ m b, initial.walk? itemsBound = some m₀ ∧ m₀.walk? (itemsRendered ++ later) = some m ∧ ItemsStand m₀ m b v := by
  have hkey : (initial.walk? itemsBound).map (fun m₀ => (m₀.store.binder 0).registry.bindings.map fun b =>
      (b.record, b.key, b.accessor.field?)) = some [(⟨1⟩, ⟨"li", "value"⟩, some "a")] := by decide +kernel
  have hevent : (initial.walk? itemsBound).map (fun m₀ => (m₀.store.binder 0).registry.bindings.map fun b =>
      (b.negate, b.event)) = some [(false, some "change")] := by decide +kernel
  have hscope : (initial.walk? itemsBound).map (fun m₀ => ((m₀.store.binder 0).scope, m₀.store.trees.size,
      (m₀.store.select ⟨0, 0⟩ "li").2, (m₀.store.fields ⟨1⟩).get "a")) =
      some (⟨0, 0⟩, 1, [1, 2], .string "old") := by decide +kernel
  have hrendered : ((initial.walk? itemsBound).bind fun m₀ => (m₀.walk? (itemsRendered ++ later)).map fun m =>
      (m₀.store.binder 0).registry.bindings.map fun b =>
        (decide (m.store.arena 0 = (m₀.store.render 0 b).arena 0),
          decide ((m.store.tree 0).delegations.live.map (·.listener) = [b.delegation 0]))) = some [(true, true)] := by
    rcases hlater with ⟨rfl, rfl⟩ | ⟨rfl, rfl⟩ <;> decide +kernel
  have hstate : ((initial.walk? itemsBound).bind fun m₀ => (m₀.walk? (itemsRendered ++ later)).map fun m =>
      ((m.store.select ⟨0, 0⟩ "li").2, m.store.trees.size, (m.store.arena 0).size,
        (m.store.record ⟨1⟩).validator.isNone, (m.store.fields ⟨1⟩).get "a")) = some ([1, 2], 1, 3, true, .string v) := by
    rcases hlater with ⟨rfl, rfl⟩ | ⟨rfl, rfl⟩ <;> decide +kernel
  have hown : (initial.deeds (itemsBound ++ (itemsRendered ++ later))).any Deed.isStrayed = false := by
    rcases hlater with ⟨rfl, rfl⟩ | ⟨rfl, rfl⟩ <;> decide +kernel
  have hnamed : ((initial.walk? itemsBound).bind fun m₀ => (m₀.walk? (itemsRendered ++ later)).map fun m =>
      (m.stack.isEmpty, (m.session.workspace.scope? "tree").toOption,
        m.session.workspace.element? (.first "tree" "li li"))) = some (true, some ⟨0, 0⟩, some 2) := by
    rcases hlater with ⟨rfl, rfl⟩ | ⟨rfl, rfl⟩ <;> decide +kernel
  obtain ⟨m₀, h₀, hbindings⟩ := Option.map_eq_some_iff.mp hkey
  rw [h₀] at hscope hevent
  rw [h₀, Option.bind_some] at hrendered hstate hnamed
  obtain ⟨m, h, hrendered⟩ := Option.map_eq_some_iff.mp hrendered
  rw [h] at hstate hnamed
  obtain ⟨b, hb, hfacts⟩ := List.map_eq_singleton_iff.mp hbindings
  rw [Option.map_some, hb] at hevent
  rw [hb] at hrendered
  simp only [Option.map_some, Option.some.injEq, Prod.mk.injEq, List.map_cons, List.map_nil, List.cons.injEq, and_true,
    decide_eq_true_eq] at hrendered hstate hnamed hfacts hscope hevent
  obtain ⟨hselected, htrees, hsize, hvalidator, hvalue⟩ := hstate
  obtain ⟨hscope, hsize₀, hselected₀, hvalue₀⟩ := hscope
  obtain ⟨hidle, htree, htarget⟩ := hnamed
  have hidle := List.isEmpty_iff.mp hidle
  have hwalk : initial.walk? (itemsBound ++ (itemsRendered ++ later)) = some m := by
    rw [walk?_append, h₀]
    exact h
  exact ⟨m₀, m, b, h₀, h, {
    bound := hb, record := hfacts.1, key := hfacts.2.1, accessor := Accessor.eq_of_field? hfacts.2.2
    negate := hevent.1, event := hevent.2
    scope := hscope, tree := hsize₀ ▸ Nat.zero_lt_one, arena := hrendered.1, selected := hselected
    selected₀ := hselected₀, grown := grown_of_walk hwalk (strayed_not_mem hown) (htrees ▸ Nat.zero_lt_one)
    size := hsize ▸ Nat.lt_succ_self 2, only := hrendered.2
    validator := Option.isNone_iff_eq_none.mp hvalidator, stored := hvalue, stored₀ := hvalue₀, idle := hidle
    fires := .host hidle (ok_of_toOption htree) rfl htarget }⟩

/-- An event at the inner item passes both items, on which a text is shown, and writes it back twice in vain. -/
theorem records_of_unedited_items :
    ∃ m₀ m b, initial.walk? itemsBound = some m₀ ∧ m₀.walk? itemsRendered = some m ∧ ItemsStand m₀ m b "old" ∧
      ∃ count, (∃ turns m', (start m.session itemsEvent).Returns [.task (.reply (.count count))] turns m') ∧
        ∀ turns m', (start m.session itemsEvent).Returns [.task (.reply (.count count))] turns m' →
          m'.store.records = m.store.records ∧ m.begun (.start m.session itemsEvent) = [] ∧
            (start m.session itemsEvent).emitted turns = [] := by
  obtain ⟨m₀, m, b, h₀, h, hitems⟩ := items_stand (.inl ⟨rfl, rfl⟩)
  have htarget : b.target = .value := by
    rw [Binding.target, hitems.key]
    rfl
  have hunedited : m₀.store.Unedited m.store 0 b "a" := by
    refine ⟨?_, ?_, ?_⟩
    · rw [hitems.scope]
      exact hitems.arena
    · rw [hitems.scope, hitems.key]
      exact hitems.selected.trans hitems.selected₀.symm
    · rw [hitems.record]
      exact hitems.stored.trans hitems.stored₀.symm
  refine ⟨m₀, m, b, h₀, h, hitems,
    records_of_unedited hunedited hitems.scope hitems.tree hitems.grown hitems.accessor hitems.event (fun e he _ => ?_)
      (hitems.record ▸ hitems.validator) ?_ ?_ hitems.size hitems.fires⟩
  · have hmem : e.listener ∈ [b.delegation 0] := hitems.only ▸ List.mem_map_of_mem he
    exact List.mem_singleton.mp hmem
  · rw [htarget, hitems.negate, hitems.record, hitems.stored]
    exact ⟨rfl, .inl (.inr rfl)⟩
  · rw [hitems.key, hitems.selected]
    exact List.mem_cons_of_mem _ List.mem_cons_self

/-- **A field that was written since is overwritten.** The binding was rendered, and nothing has happened to its elements
since; but it is not rendered when its field changes, and so the event at an element that nobody has edited writes the
value that the field held before over the one that it holds. -/
theorem stale_written :
    ∃ m₀ m b m', initial.walk? itemsBound = some m₀ ∧ m₀.walk? (itemsRendered ++ itemsWritten) = some m ∧
      ItemsStand m₀ m b "new" ∧ (start m.session itemsEvent).walk? (List.replicate 6 .step) = some m' ∧ m'.stack = [] ∧
      (m'.store.fields ⟨1⟩).get "a" = .string "old" := by
  obtain ⟨m₀, m, b, h₀, h, hitems⟩ := items_stand (.inr ⟨rfl, rfl⟩)
  have hrun : ((initial.walk? itemsBound).bind fun m₀ => (m₀.walk? (itemsRendered ++ itemsWritten)).bind fun m =>
      ((start m.session itemsEvent).walk? (List.replicate 6 .step)).map fun m' =>
        (m'.stack.isEmpty, (m'.store.fields ⟨1⟩).get "a")) = some (true, .string "old") := by decide +kernel
  rw [h₀, Option.bind_some, h, Option.bind_some] at hrun
  obtain ⟨m', h', hfacts⟩ := Option.map_eq_some_iff.mp hrun
  simp only [Prod.mk.injEq] at hfacts
  exact ⟨m₀, m, b, m', h₀, h, hitems, h', List.isEmpty_iff.mp hfacts.1, hfacts.2⟩

end Machine

end Databind
