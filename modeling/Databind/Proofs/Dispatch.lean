import Databind.Proofs.GrownTrees
import Databind.Proofs.Notification
import Databind.Proofs.Placement

/-!
# `Proofs.Dispatch` — whom an event invokes

A dispatch walks up from its target and asks of every handler whether it is to be invoked there; a query walks down from
a root and asks which elements its selector selects. Both say the same: an event invokes a handler at an element of its
way up exactly if the element is among those that the handler's selector text selects from the handler's own root.

Who is invoked is settled when the dispatch begins. Handlers may do anything afterwards, and the dispatch goes on
through the list it drew up: the stack below a running handler does not change.

## Main definitions

* `Asked`, `Tree.Delegates` — handlers by the selector texts for which they were attached.
* `Store.due` — whom an event is to invoke, in terms of queries.
* `Machine.Fires` — an event begins its way up.
* `Machine.invoked` — whom a dispatch invokes in a run.
-/

namespace Databind

open Store

/-- What was asked for when a handler was to be attached. -/
structure Asked where
  event : String
  /-- The selector text. -/
  text : String
  root : Nat
  handler : EventHandler

/-- The delegation that comes of it; none if the text is no selector. -/
def Asked.attached? (a : Asked) : Option Delegation :=
  if Text.isBlankText a.text then some ⟨a.event, none, a.root, a.handler⟩
  else
    match Selector.parse (Text.trim a.text) with
    | .ok selector => some ⟨a.event, some selector, a.root, a.handler⟩
    | .error _ => none

/-- **The live delegations of a tree are those that were asked for**, in order; what was asked for with a text that is no
selector is not among them. -/
def Tree.Delegates (t : Tree) (asked : List Asked) : Prop :=
  t.delegations.live.map (·.listener) = asked.filterMap Asked.attached?

/-- One invocation of a handler: the event, and the element it has come to. -/
structure Invocation where
  tree : Nat
  event : String
  handler : EventHandler
  /-- The current target. -/
  element : Nat
deriving DecidableEq

namespace Store

variable {s : Store} {k x : Nat} {a : Asked} {asked : List Asked}

/-- **Whom an event is to invoke on its way up**: at each element, whoever was asked for with this event and a text that
selects the element from the root it was asked for. -/
def due (s : Store) (k : Nat) (event : String) (asked : List Asked) (path : List Nat) : List Invocation :=
  path.flatMap fun x =>
    (asked.filter fun a => a.event = event ∧ x ∈ (s.select ⟨k, a.root⟩ a.text).2).map fun a =>
      ⟨k, event, a.handler, x⟩

/-! ## Handlers and queries -/

theorem attached?_eq_some {d : Delegation} (h : a.attached? = some d) : d.event = a.event ∧ d.handler = a.handler := by
  unfold Asked.attached? at h
  split at h
  · cases h
    exact ⟨rfl, rfl⟩
  · split at h
    · cases h
      exact ⟨rfl, rfl⟩
    · cases h

/-- **A query selects an element exactly if a handler attached for its text is met there.** -/
theorem mem_select_iff (h : (s.arena k).Linked) :
    x ∈ (s.select ⟨k, a.root⟩ a.text).2 ↔ ∃ d, a.attached? = some d ∧ d.meets (s.arena k) x = true := by
  unfold select Asked.attached?
  by_cases hblank : Text.isBlankText a.text = true
  · -- a blank text selects the root, and its handler is the root's own
    rw [if_pos hblank, if_pos hblank]
    simp [Delegation.meets]
  · rw [if_neg hblank, if_neg hblank]
    cases Selector.parse (Text.trim a.text) with
    | ok selector =>
      simp only [Option.some.injEq, exists_eq_left', Delegation.meets, Arena.matching, List.mem_filter,
        h.mem_descendants_iff, Bool.and_eq_true, h.isDescendantOf_iff]
    | error e => simp

theorem tree_select (s : Store) (scope : Scope) (text : String) (k : Nat) :
    (s.select scope text).1.tree k = s.tree k := by
  unfold select
  split
  · rfl
  · split <;> rfl

theorem records_select (s : Store) (scope : Scope) (text : String) : (s.select scope text).1.records = s.records := by
  unfold select
  split
  · rfl
  · split <;> rfl

/-- At one element, an event meets whoever was asked for with a text that selects the element. -/
theorem filter_attached (h : (s.arena k).Linked) (event : String) (asked : List Asked) (x : Nat) :
    ((asked.filterMap Asked.attached?).filter fun d => d.event = event ∧ d.meets (s.arena k) x).map
        (fun d => (⟨k, event, d.handler, x⟩ : Invocation)) =
      (asked.filter fun a => a.event = event ∧ x ∈ (s.select ⟨k, a.root⟩ a.text).2).map
        fun a => ⟨k, event, a.handler, x⟩ := by
  induction asked with
  | nil => rfl
  | cons a rest ih =>
    have hselect := mem_select_iff (a := a) (x := x) h
    cases ha : a.attached? with
    | none =>
      have hnot : x ∉ (s.select ⟨k, a.root⟩ a.text).2 := by
        rw [hselect]
        rintro ⟨d, hd, -⟩
        cases ha.symm.trans hd
      rw [List.filterMap_cons_none ha, ih, List.filter_cons_of_neg (by simp [hnot])]
    | some d =>
      obtain ⟨hevent, hhandler⟩ := attached?_eq_some ha
      have hmeets : d.meets (s.arena k) x = true ↔ x ∈ (s.select ⟨k, a.root⟩ a.text).2 := by
        rw [hselect, ha]
        simp
      rw [List.filterMap_cons_some ha]
      by_cases hmet : a.event = event ∧ x ∈ (s.select ⟨k, a.root⟩ a.text).2
      · rw [List.filter_cons_of_pos (by simpa [hevent, hmeets] using hmet), List.filter_cons_of_pos (by simpa using hmet),
          List.map_cons, List.map_cons, ih, hhandler]
      · rw [List.filter_cons_of_neg (by simpa [hevent, hmeets] using hmet),
          List.filter_cons_of_neg (by simpa using hmet), ih]

/-- **Whom an event meets on its way up is due.** -/
theorem map_handlersMet (h : (s.arena k).Linked) (hasked : (s.tree k).Delegates asked) (event : String) (target : Nat) :
    (handlersMet (s.tree k) event target).map (fun p => (⟨k, event, p.1.listener.handler, p.2⟩ : Invocation)) =
      s.due k event asked (target :: (s.arena k).ancestors target) := by
  unfold handlersMet due
  rw [List.map_flatMap]
  apply List.flatMap_congr
  intro x _
  rw [← filter_attached h event asked x, ← hasked, List.filter_map, List.map_map, List.map_map]
  rfl

end Store

/-- The number of the element that a command names. -/
def Workspace.element? (w : Workspace) : ElementRef → Option Nat
  | .saved name =>
    match w.handle? name with
    | some (.element _ x) => some x
    | _ => none
  | .first tree selector =>
    match w.scope? tree with
    | .ok scope => (w.store.select scope selector).2.head?
    | .error _ => none

/-- A command on an element goes on with the element, and with the trees and the records as they were. -/
theorem Workspace.withElement_eq {w : Workspace} {ref : ElementRef} {x : Nat} (h : w.element? ref = some x)
    (go : Workspace → Nat → Nat → Workspace × List Task) :
    ∃ store tree, w.withElement ref go = go (w.withStore store) tree x ∧ (∀ k, store.tree k = w.store.tree k) ∧
      store.records = w.store.records := by
  cases ref with
  | saved name =>
    simp only [element?] at h
    split at h
    · next tree x' hname =>
      cases h
      refine ⟨w.store, tree, ?_, fun _ => rfl, rfl⟩
      simp only [withElement, hname]
      rfl
    · cases h
  | first tree selector =>
    simp only [element?] at h
    split at h
    · next scope hscope =>
      have htrees := tree_select w.store scope selector
      have hrecords := records_select w.store scope selector
      generalize hselect : w.store.select scope selector = r at h htrees hrecords
      obtain ⟨store, found⟩ := r
      obtain ⟨rest, rfl⟩ := List.head?_eq_some_iff.mp h
      refine ⟨store, scope.tree, ?_, htrees, hrecords⟩
      simp only [withElement, withFound, hscope, hselect]
    · cases h

namespace Machine

variable {m m' m'' : Machine} {base : List Frame} {turns : List Turn} {k target : Nat} {event : String}

/-! ## From the beginning of a dispatch to its end -/

/-- **An event begins its way up from a target**: the machine after it, and what is left to do below it, which is told
how many handlers are invoked. -/
inductive Fires (m : Machine) (k : Nat) (event : String) (target : Nat) : Machine → (Nat → List Frame) → Prop
  /-- The host dispatches. -/
  | host {tree : String} {ref : ElementRef} {scope : Scope} (hidle : m.stack = [])
    (hscope : m.session.workspace.scope? tree = .ok scope) (htree : scope.tree = k)
    (htarget : m.session.workspace.element? ref = some target) :
    Fires m k event target (.start m.session (.act (.tree (.dispatch tree event ref))))
      fun count => [.task (.reply (.count count))]
  /-- A callback dispatches. -/
  | script {tree : String} {ref : ElementRef} {scope : Scope} {cs : List Command} {rest : List Frame} {m' : Machine}
    (hstack : m.stack = .script (.act (.tree (.dispatch tree event ref)) :: cs) :: rest)
    (hscope : m.session.workspace.scope? tree = .ok scope) (htree : scope.tree = k)
    (htarget : m.session.workspace.element? ref = some target) (hstep : m.step? = some m') :
    Fires m k event target m' fun count => .task (.reply (.count count)) :: .script cs :: rest
  /-- One of the elements of a trigger is fired at. -/
  | trigger {targets : List Nat} {sofar : Nat} {rest : List Frame} {m' : Machine}
    (hstack : m.stack = .task (.trigger event k (target :: targets) sofar) :: rest) (hstep : m.step? = some m') :
    Fires m k event target m' fun count => .task (.trigger event k targets (sofar + count)) :: rest

/-- A dispatch begins with the handlers that the event meets. -/
theorem Fires.stack {base : Nat → List Frame} (h : m.Fires k event target m' base) :
    ∃ pinned, m'.stack = .task (.dispatch k pinned event
      ((handlersMet (m.store.tree k) event target).map fun p => (p.1.listener.handler, p.2))) ::
        base (handlersMet (m.store.tree k) event target).length := by
  have hperform {tree : String} {ref : ElementRef} {scope : Scope}
      (hscope : m.session.workspace.scope? tree = .ok scope) (htree : scope.tree = k)
      (htarget : m.session.workspace.element? ref = some target) :
      ∃ pinned, (m.session.perform (.act (.tree (.dispatch tree event ref)))).2 =
        [.dispatch k pinned event
          ((handlersMet (m.store.tree k) event target).map fun p => (p.1.listener.handler, p.2)),
        .reply (.count (handlersMet (m.store.tree k) event target).length)] := by
    subst htree
    obtain ⟨store, tree', heq, htrees, -⟩ := Workspace.withElement_eq htarget fun w _ x =>
      let fired := w.store.fire scope.tree event x
      (w.withStore fired.1, [fired.2.1, .reply (.count fired.2.2)])
    refine ⟨(handlersMet (m.store.tree scope.tree) event target).map (·.1.id), ?_⟩
    simp only [Session.perform, Action.perform, TreeCommand.perform, Workspace.withFound, hscope]
    rw [heq]
    simp only [Workspace.withStore, fire, drawEvent, htrees]
    rfl
  cases h with
  | host hidle hscope htree htarget =>
    obtain ⟨pinned, htasks⟩ := hperform hscope htree htarget
    exact ⟨pinned, by simp only [start, htasks]; rfl⟩
  | script hstack hscope htree htarget hstep =>
    obtain ⟨pinned, htasks⟩ := hperform hscope htree htarget
    simp only [step?, hstack, htasks, Option.some.injEq] at hstep
    subst hstep
    exact ⟨pinned, rfl⟩
  | trigger hstack hstep =>
    simp only [step?, hstack, Option.some.injEq] at hstep
    subst hstep
    exact ⟨_, rfl⟩

/-- Beginning a dispatch changes no record and no element. -/
theorem Fires.store {base : Nat → List Frame} (h : m.Fires k event target m' base) :
    m'.store.records = m.store.records ∧ ∀ j, m'.store.arena j = m.store.arena j := by
  have hfire (s : Store) : (s.fire k event target).1.records = s.records ∧
      ∀ j, (s.fire k event target).1.arena j = s.arena j := by
    refine ⟨rfl, fun j => ?_⟩
    simp only [fire, drawEvent, arena, tree_modifyTree]
    split
    · next h => rw [h.1]
    · rfl
  have hperform {tree : String} {ref : ElementRef} {scope : Scope}
      (hscope : m.session.workspace.scope? tree = .ok scope) (htree : scope.tree = k)
      (htarget : m.session.workspace.element? ref = some target) :
      let s := (m.session.perform (.act (.tree (.dispatch tree event ref)))).1.workspace.store
      s.records = m.store.records ∧ ∀ j, s.arena j = m.store.arena j := by
    subst htree
    obtain ⟨store, tree', heq, htrees, hrecords⟩ := Workspace.withElement_eq htarget fun w _ x =>
      let fired := w.store.fire scope.tree event x
      (w.withStore fired.1, [fired.2.1, .reply (.count fired.2.2)])
    simp only [Session.perform, Action.perform, TreeCommand.perform, Workspace.withFound, hscope]
    rw [heq]
    refine ⟨(hfire store).1.trans hrecords, fun j => ((hfire store).2 j).trans ?_⟩
    exact congrArg Tree.arena (htrees j)
  cases h with
  | host hidle hscope htree htarget => exact hperform hscope htree htarget
  | script hstack hscope htree htarget hstep =>
    simp only [step?, hstack, Option.some.injEq] at hstep
    subst hstep
    exact hperform hscope htree htarget
  | trigger hstack hstep =>
    simp only [step?, hstack, Option.some.injEq] at hstep
    subst hstep
    exact hfire m.store

/-- What the dispatch above so many levels is about to invoke; none while something stands above the dispatch. -/
def invokes? (m : Machine) (height : Nat) : Option Invocation :=
  match m.stack with
  | .task (.dispatch tree _ event ((handler, x) :: _)) :: below =>
    if below.length = height then some ⟨tree, event, handler, x⟩ else none
  | _ => none

/-- **Whom the dispatch above so many levels invokes in a run**, in order. -/
def invoked (height : Nat) (m : Machine) : List Turn → List Invocation
  | [] => []
  | t :: rest => (m.invokes? height).toList ++ (m.turn? t).elim [] (·.invoked height rest)

theorem invoked_append {before : List Turn} (h : m.walk? before = some m') (height : Nat) (behind : List Turn) :
    m.invoked height (before ++ behind) = m.invoked height before ++ m'.invoked height behind := by
  induction before generalizing m with
  | nil =>
    cases h
    rfl
  | cons t rest ih =>
    obtain ⟨next, hturn, h⟩ := walk?_cons h
    simp only [List.cons_append, invoked, hturn, Option.elim_some, ih h, List.append_assoc]

/-- While something stands above a dispatch, it invokes nobody. -/
theorem Returns.not_invoked {f : Frame} (h : m.Returns (f :: base) turns m') : m.invoked base.length turns = [] := by
  induction h with
  | done => rfl
  | @turn m m₁ m' t rest g top habove hturn hrest ih =>
    have hnobody : m.invokes? base.length = none := by
      unfold invokes?
      rw [habove]
      split
      · next heq =>
        obtain ⟨-, rfl⟩ := List.cons.inj heq
        refine if_neg ?_
        intro hlength
        rw [List.length_append, List.length_cons] at hlength
        omega
      · rfl
    simp only [invoked, hnobody, hturn, Option.elim_some, ih]
    rfl

/-- **A dispatch invokes its list from front to back**, whatever the handlers do. -/
theorem invoked_of_returns {pinned : List Nat} {waiting : List (EventHandler × Nat)} {inner : List Frame}
    (hstack : m.stack = inner ++ .task (.dispatch k pinned event waiting) :: base) (h : m.Returns base turns m') :
    m.invoked base.length turns = waiting.map fun p => ⟨k, event, p.1, p.2⟩ := by
  -- the induction is on the list; each handler's run is split off where the dispatch goes on
  induction waiting generalizing m inner turns with
  | nil =>
    obtain ⟨before, t, behind, m₁, m₂, rfl, hbefore, hturn, hbehind⟩ := h.cut hstack
    obtain ⟨rfl, hm₂⟩ := step_of_task hbefore.stack hturn
    obtain ⟨rfl, rfl⟩ := hbehind.of_stack (by rw [hm₂]; rfl)
    rw [invoked_append hbefore.walk, hbefore.not_invoked]
    simp [invoked, invokes?, hbefore.stack, hturn]
  | cons met waiting ih =>
    obtain ⟨handler, x⟩ := met
    obtain ⟨before, t, behind, m₁, m₂, rfl, hbefore, hturn, hbehind⟩ := h.cut hstack
    obtain ⟨rfl, hm₂⟩ := step_of_task hbefore.stack hturn
    have hnext : m₁.invokes? base.length = some ⟨k, event, handler, x⟩ := by
      simp only [invokes?, hbefore.stack, if_true]
    have hstack₂ : m₂.stack = (m₁.session.meet k event handler x).2 ++
        .task (.dispatch k pinned event waiting) :: base := by
      rw [hm₂]
      rfl
    rw [invoked_append hbefore.walk, hbefore.not_invoked, List.nil_append]
    simp only [invoked, hnext, hturn, Option.elim_some, ih hstack₂ hbehind]
    rfl

/-- **Queries and events agree.** In every tree that can be built, with whatever handlers were attached: an event that
begins its way up from a target runs to its end, and invokes, at each element of the way up from the target to the
topmost one, nearest first, and in order of attachment, exactly the handlers of this event whose text selects the element
from the root they were attached at, in the state in which the event began; the current target is that element. The count
that is returned is the number of invocations, whatever the handlers do meanwhile. -/
theorem invoked_of_fires {asked : List Asked} {base : Nat → List Frame} (hgrown : (m.store.arena k).Grown)
    (hasked : (m.store.tree k).Delegates asked) (hfires : m.Fires k event target m' base) :
    ∃ path, (m.store.arena k).Ascends target path ∧
      (∃ turns m'', m'.Returns (base (m.store.due k event asked path).length) turns m'') ∧
      ∀ turns m'', m'.Returns (base (m.store.due k event asked path).length) turns m'' →
        m'.invoked (base (m.store.due k event asked path).length).length turns = m.store.due k event asked path := by
  have hlinked := Arena.Linked.of_grown hgrown
  have hmet := map_handlersMet hlinked hasked event target
  have hcount : (handlersMet (m.store.tree k) event target).length =
      (m.store.due k event asked (target :: (m.store.arena k).ancestors target)).length := by
    rw [← hmet, List.length_map]
  obtain ⟨pinned, hstack⟩ := hfires.stack
  rw [hcount] at hstack
  refine ⟨target :: (m.store.arena k).ancestors target, hlinked.ascends_ancestors target, ?_, ?_⟩
  · exact @exists_returns _ m' [_] hstack
  · intro turns m'' hreturns
    have hinvoked := @invoked_of_returns m' m'' _ turns k event pinned _ [] hstack hreturns
    rw [hinvoked, ← hmet, List.map_map]
    rfl

/-- A link in an item of a list in a page. -/
def linkPage : Spec :=
  .node (.ofTag "main") [.node (.ofTag "ul") [.node (.ofTag "li") [.node (.ofTag "a") []]]]

/-- Handlers on a tree and on the part of it that is the list; the first, when it is invoked, takes the item out. -/
def listening : List Turn :=
  [.command (.act (.tree (.make "tree" linkPage))), .step,
    .command (.act (.tree (.subtree "list" "tree" "ul"))), .step,
    .command (.listen (.events "tree" "click" "li") "first" "A"
      [.act (.tree (.change (.first "tree" "ul") .text (.string "")))] 1), .step,
    .command (.listen (.events "list" "click" "main li") "second" "B" [] 0), .step,
    .command (.listen (.events "list" "click" " ") "third" "C" [] 0), .step,
    .command (.listen (.events "list" "click" "li[") "fourth" "D" [] 0), .step]

/-- What was asked for. -/
def askedFor : List Asked :=
  [⟨"click", "li", 0, .callback 0⟩, ⟨"click", "main li", 1, .callback 1⟩, ⟨"click", " ", 1, .callback 2⟩,
    ⟨"click", "li[", 1, .callback 3⟩]

/-- The item is met by the handlers of both roots, the list by its own, though the first handler takes the item out. -/
theorem invoked_of_fires_bubbling :
    ∃ m m', initial.walk? listening = some m ∧
      m.Fires 0 "click" 3 m' (fun count => [.task (.reply (.count count))]) ∧
      (∃ turns m'', m'.Returns [.task (.reply (.count 3))] turns m'') ∧
      ∀ turns m'', m'.Returns [.task (.reply (.count 3))] turns m'' →
        m'.invoked 1 turns =
          [⟨0, "click", .callback 0, 2⟩, ⟨0, "click", .callback 1, 2⟩, ⟨0, "click", .callback 2, 1⟩] := by
  have hrun : (initial.walk? listening).map (fun m => (m.stack.isEmpty, m.store.arena 0,
      (m.store.tree 0).delegations.live.map (·.listener))) =
      some (true, .ofSpec linkPage, askedFor.filterMap Asked.attached?) := by decide +kernel
  have hnamed : (initial.walk? listening).map (fun m => ((m.session.workspace.scope? "tree").toOption,
      m.session.workspace.element? (.first "tree" "a"), m.store.trees.size)) = some (some ⟨0, 0⟩, some 3, 1) := by
    decide +kernel
  have hdue : (initial.walk? listening).map (fun m => m.store.due 0 "click" askedFor [3, 2, 1, 0]) =
      some [⟨0, "click", .callback 0, 2⟩, ⟨0, "click", .callback 1, 2⟩, ⟨0, "click", .callback 2, 1⟩] := by
    decide +kernel
  obtain ⟨m, hwalk, heq⟩ := Option.map_eq_some_iff.mp hrun
  rw [hwalk, Option.map_some, Option.some.injEq] at hnamed hdue
  simp only [Prod.mk.injEq] at heq hnamed
  obtain ⟨hidle, harena, hasked⟩ := heq
  obtain ⟨hscope, htarget, htrees⟩ := hnamed
  have hscope : m.session.workspace.scope? "tree" = .ok ⟨0, 0⟩ := by
    cases h : m.session.workspace.scope? "tree" with
    | ok scope => rw [h] at hscope; exact congrArg _ (Option.some.inj hscope)
    | error e => rw [h] at hscope; cases hscope
  have hfires : m.Fires 0 "click" 3 _ fun count => [.task (.reply (.count count))] :=
    .host (List.isEmpty_iff.mp hidle) hscope rfl htarget
  have hgrown : (m.store.arena 0).Grown :=
    grown_of_walk hwalk (strayed_not_mem (by decide +kernel)) (htrees ▸ Nat.zero_lt_one)
  obtain ⟨path, hpath, hreturns, hinvoked⟩ := invoked_of_fires hgrown hasked hfires
  have hway : (m.store.arena 0).Ascends 3 [3, 2, 1, 0] := by
    rw [harena]
    exact .up rfl (.up rfl (.up rfl (.top rfl)))
  rw [hpath.unique hway, hdue] at hreturns hinvoked
  exact ⟨m, _, hwalk, hfires, hreturns, hinvoked⟩

end Machine

end Databind
