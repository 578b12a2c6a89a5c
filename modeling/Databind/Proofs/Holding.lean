import Databind.Proofs.FreeList
import Databind.Proofs.Ledger
import Databind.Proofs.Performance

/-!
# `Proofs.Holding` — names hold subscriptions

A subscription on a free list is held as long as a name denotes it, and a name denotes one thing at a time. What a
command does to one free list is therefore a sequence of moves of its ledger (`Session.perform_moves`), in which
the held subscriptions are read off the names.

The signed callbacks are not read off anything. `Session.signs` says what a command does to them: a subscription
on the list signs a callback under the next identity, and clearing the list strikes all of them off. A command
that does neither passes the list by (`Workspace.Passes`), though it may begin an emission on it, and may drop a
subscription by giving its name to something else.
-/

namespace Databind

open Store

/-- The identity of the subscription on a list that a handle is. -/
def Handle.heldOn? (n : Nat) : Handle → Option Nat
  | .subscription (some g) => if g.channel = .list n then some g.id else none
  | _ => none

/-- The call lists of one list among call lists. -/
def callsOn (n : Nat) (calls : List (Channel × List Nat)) : List (List Nat) :=
  calls.filterMap fun call => if call.1 = .list n then some call.2 else none

theorem callsOn_of_offCalls {tasks : List Task} (h : OffCalls tasks) (n : Nat) : callsOn n (callsOf tasks) = [] := by
  apply List.filterMap_eq_nil_iff.mpr
  intro call hcall
  obtain ⟨t, ht, hcall⟩ := List.mem_filterMap.mp hcall
  have hnone : call.1.list? = none := h t ht call hcall
  apply if_neg
  intro hch
  rw [hch] at hnone
  cases hnone

theorem callsOn_cons (n : Nat) (call : Channel × List Nat) (calls : List (Channel × List Nat)) :
    callsOn n (call :: calls) = (if call.1 = .list n then [call.2] else []) ++ callsOn n calls := by
  unfold callsOn
  by_cases hch : call.1 = .list n <;> simp [hch]

theorem callsOn_append (n : Nat) (calls calls' : List (Channel × List Nat)) :
    callsOn n (calls ++ calls') = callsOn n calls ++ callsOn n calls' := List.filterMap_append ..

namespace Workspace

variable {w : Workspace} {n : Nat} {calls : List (List Nat)} {signed : List (Nat × Nat)}

/-- The subscriptions on a list that names denote. -/
def heldOn (w : Workspace) (n : Nat) : List Nat := w.names.filterMap (·.2.heldOn? n)

/-- The ledger of a list. -/
def ledger (w : Workspace) (n : Nat) (calls : List (List Nat)) (signed : List (Nat × Nat)) : Ledger :=
  ⟨w.store.list n, w.heldOn n, calls, signed⟩

/-! ## Dropping handles -/

/-- A change of one channel alters its own list only. -/
theorem list_modifyRoster (s : Store) {f : {α : Type} → Roster α → Roster α} (hf : Roster.Uniform f) (ch : Channel)
    (n : Nat) : (s.modifyRoster ch f).list n = if ch = .list n then f (s.list n) else s.list n := by
  have hroster : (s.modifyRoster ch f).roster (.list n) = if .list n = ch then f (s.roster ch) else s.roster (.list n) :=
    s.roster_modifyRoster hf ch (.list n)
  refine Roster.map_injective (fun _ _ heq => Hearer.listener.inj heq) (hroster.trans ?_)
  by_cases hch : ch = .list n
  · rw [if_pos hch, if_pos hch.symm, hch, hf.map]
    rfl
  · rw [if_neg hch, if_neg fun heq => hch heq.symm]
    rfl

theorem spares_retireUnreached (w : Workspace) (n : Nat) : w.store.Spares (w.retireUnreached n).store := by
  unfold retireUnreached
  split
  · exact .refl _
  · exact spares_retire

/-- **Letting go of a handle** drops the subscription that it is. -/
theorem letGo_moves (hoff : w.store.OffLists) (h : Handle) {before behind : List Nat}
    (hheld : w.heldOn n = before ++ behind) :
    Ledger.Moves ⟨w.store.list n, before ++ (h.heldOn? n).toList ++ behind, calls, signed⟩
      ((w.letGo h).ledger n calls signed) := by
  have hnames : (w.letGo h).heldOn n = before ++ behind := by
    rw [heldOn, names_letGo]
    exact hheld
  -- a handle that is no subscription on the list leaves its listeners alone
  have same (hnone : h.heldOn? n = none) (hlist : (w.letGo h).store.list n = w.store.list n) :
      Ledger.Moves ⟨w.store.list n, before ++ (h.heldOn? n).toList ++ behind, calls, signed⟩
        ((w.letGo h).ledger n calls signed) := by
    rw [ledger, hlist, hnames, hnone]
    simp only [Option.toList_none, List.append_nil]
    exact .refl _
  cases h with
  | subscription guard =>
    cases guard with
    | none => exact same rfl rfl
    | some g =>
      have hdrop : (w.letGo (.subscription (some g))).store.list n =
          if g.channel = .list n then (w.store.list n).release g.id else w.store.list n :=
        list_modifyRoster w.store (Roster.uniform_release g.id) g.channel n
      by_cases hch : g.channel = .list n
      · rw [if_pos hch] at hdrop
        rw [ledger, hdrop, hnames]
        simp only [Handle.heldOn?, if_pos hch, Option.toList_some, List.append_assoc, List.singleton_append]
        exact .single (.dropped g.id)
      · rw [if_neg hch] at hdrop
        exact same (by simp only [Handle.heldOn?, if_neg hch]) hdrop
  | binder m => exact same rfl ((w.spares_retireUnreached m hoff).1 n)
  | view v =>
    have hspares : w.store.Spares (w.letGo (.view v)).store :=
      (spares_unmount v).trans (spares_retireUnreached { w with store := w.store.unmount v } _)
    exact same rfl ((hspares hoff).1 n)
  | _ => exact same rfl rfl

/-- A name that is taken away takes away the subscription that it denoted, and no other. -/
theorem heldOn_filter (hkeys : (w.names.map Prod.fst).Nodup) {name : String} {old : Handle}
    (hold : w.handle? name = some old) :
    ∃ before behind, w.heldOn n = before ++ (old.heldOn? n).toList ++ behind ∧
      (w.names.filter (·.1 ≠ name)).filterMap (·.2.heldOn? n) = before ++ behind := by
  obtain ⟨before, behind, hsplit, -⟩ := List.lookup_eq_some_iff.mp hold
  refine ⟨before.filterMap (·.2.heldOn? n), behind.filterMap (·.2.heldOn? n), ?_, ?_⟩
  · rw [heldOn, hsplit, List.filterMap_append]
    cases ho : old.heldOn? n <;> simp [ho]
  · rw [hsplit, List.map_append, List.map_cons, List.nodup_middle, List.nodup_cons, ← List.map_append] at hkeys
    have hother : ∀ p ∈ before ++ behind, decide (p.1 ≠ name) = true := by
      intro p hp
      apply decide_eq_true
      intro heq
      exact hkeys.1 (List.mem_map.mpr ⟨p, hp, heq⟩)
    rw [hsplit, List.filter_append, List.filter_cons_of_neg (by simp), ← List.filter_append,
      List.filter_eq_self.mpr hother, List.filterMap_append]

/-- **A name that is given to an object** may drop the subscription that it denoted. -/
theorem assign_moves (hoff : w.store.OffLists) (hkeys : (w.names.map Prod.fst).Nodup) (name : String) (h : Handle) :
    Ledger.Moves ⟨w.store.list n, (h.heldOn? n).toList ++ w.heldOn n, calls, signed⟩
      ((w.assign name h).ledger n calls signed) := by
  -- the object is named first, and then what the name denoted is let go of
  let given : Workspace := { w with names := (name, h) :: w.names.filter (·.1 ≠ name) }
  have hgiven : given.heldOn n = (h.heldOn? n).toList ++ (w.names.filter (·.1 ≠ name)).filterMap (·.2.heldOn? n) := by
    unfold heldOn
    cases hh : h.heldOn? n <;> simp [given, hh]
  unfold assign
  cases hold : w.handle? name with
  | none =>
    rw [filter_names_of_none hold] at hgiven
    unfold heldOn at hgiven ⊢
    rw [← hgiven]
    exact .refl _
  | some old =>
    obtain ⟨before, behind, hbefore, hfilter⟩ := heldOn_filter (n := n) hkeys hold
    rw [hfilter, ← List.append_assoc] at hgiven
    have hmoves : Ledger.Moves ⟨w.store.list n, _, calls, signed⟩ ((given.letGo old).ledger n calls signed) :=
      letGo_moves (w := given) hoff old hgiven
    rw [hbefore]
    simp only [List.append_assoc] at hmoves ⊢
    exact hmoves

theorem forget_moves (hoff : w.store.OffLists) (hkeys : (w.names.map Prod.fst).Nodup) (name : String) :
    (w.ledger n calls signed).Moves ((w.forget name).1.ledger n calls signed) := by
  unfold forget
  cases hold : w.handle? name with
  | none => exact .refl _
  | some old =>
    obtain ⟨before, behind, hbefore, hfilter⟩ := heldOn_filter (n := n) hkeys hold
    rw [ledger, hbefore]
    exact letGo_moves (w := { w with names := w.names.filter (·.1 ≠ name) }) hoff old hfilter

/-! ## Commands that pass a list by -/

/-- **What is done passes a list by**: subscriptions on it may be dropped and emissions on it may begin, but nobody
is signed, and nobody is struck off. -/
def Passes (n : Nat) (w : Workspace) (r : Workspace × List Task) : Prop :=
  w.store.OffLists → (w.names.map Prod.fst).Nodup → ∀ calls signed,
    (w.ledger n calls signed).Moves (r.1.ledger n (callsOn n (callsOf r.2) ++ calls) signed)

theorem passes_store {s' : Store} (h : w.store.Spares s') {tasks : List Task} (htasks : OffCalls tasks) :
    w.Passes n (w.withStore s', tasks) := by
  intro hoff _ calls signed
  simp only [callsOn_of_offCalls htasks, List.nil_append, ledger, withStore, (h hoff).1 n]
  exact .refl _

theorem passes_answer (w : Workspace) (outcome : Outcome) : w.Passes n (w.answer outcome) :=
  passes_store (.refl w.store) (.reply outcome)

theorem passes_answered {s' : Store} (h : w.store.Spares s') (outcome : Outcome) :
    w.Passes n ((w.withStore s').answer outcome) := passes_store h (.reply outcome)

theorem passes_found {α : Type} {found : Except Outcome α} {go : α → Workspace × List Task}
    (h : ∀ a, w.Passes n (go a)) : w.Passes n (w.withFound found go) := by
  cases found with
  | ok a => exact h a
  | error outcome => exact w.passes_answer outcome

theorem passes_built {α : Type} {built : Except BindError α} {go : α → Workspace × List Task}
    (h : ∀ a, w.Passes n (go a)) : w.Passes n (w.withBuilt built go) := by
  cases built with
  | ok a => exact h a
  | error e => exact w.passes_answer (.failed e)

/-- Then something is done that passes the list by. -/
theorem Passes.after {s' : Store} {r : Workspace × List Task} (h : w.store.Spares s')
    (h' : (w.withStore s').Passes n r) : w.Passes n r := by
  intro hoff hkeys calls signed
  have hmoves := h' (h hoff).2 hkeys calls signed
  simp only [ledger, withStore, (h hoff).1 n] at hmoves
  exact hmoves

/-- A new object that is no subscription, under a name. -/
theorem passes_assign {s' : Store} (h : w.store.Spares s') {handle : Handle} (hhandle : handle.heldOn? n = none)
    (name : String) (outcome : Outcome) : w.Passes n (((w.withStore s').assign name handle).answer outcome) := by
  apply Passes.after h
  intro hoff hkeys calls signed
  have hmoves : Ledger.Moves ⟨s'.list n, _, calls, signed⟩
      (((w.withStore s').assign name handle).ledger n calls signed) := assign_moves hoff hkeys name handle
  rw [hhandle] at hmoves
  exact hmoves

theorem passes_element {ref : ElementRef} {go : Workspace → Nat → Nat → Workspace × List Task}
    (h : ∀ (w : Workspace) tree x, w.Passes n (go w tree x)) : w.Passes n (w.withElement ref go) := by
  cases ref with
  | saved name =>
    simp only [withElement]
    split
    · exact h w _ _
    · exact w.passes_answer _
  | first tree selector =>
    apply passes_found
    intro scope
    obtain ⟨store, found, hselect, hextends⟩ := w.store.exists_select scope selector
    rw [hselect]
    cases found with
    | nil => exact passes_answered (.of_extends hextends) _
    | cons x rest => exact (h _ _ _).after (.of_extends hextends)

end Workspace

open Workspace

variable {w : Workspace} {n : Nat}

theorem RecordCommand.passes (command : RecordCommand) : w.Passes n (command.perform w) := by
  cases command with
  | make as fields =>
    exact passes_assign (.of_extends (w.store.extends_addRecord (Fields.proper_ofEntries fields))) rfl as _
  | write record entries =>
    apply passes_found
    intro id
    have hwrite := spares_write (s := w.store) id entries
    exact passes_store hwrite.1 (hwrite.2.append (.reply _))
  | get record names | has record name | state record => exact passes_found fun id => w.passes_answer _
  | requestRender record =>
    apply passes_found
    intro id
    exact passes_store (.refl w.store) ((OffCalls.reply _).silent rfl)
  | destroy record => exact passes_found fun id => passes_answered (.of_same rfl rfl) _
  | install record validator | clearValidator record => exact passes_found fun id => passes_answered (.of_same rfl rfl) _

theorem CollectionCommand.passes (command : CollectionCommand) : w.Passes n (command.perform w) := by
  cases command with
  | make as members => exact passes_found fun ids => passes_assign (.of_extends (w.store.extends_addCollection ids)) rfl as _
  | listMembers collection | size collection | atIndex collection index | find collection key =>
    exact passes_found fun c => w.passes_answer _
  | resolve collection key => exact passes_found fun c => passes_built fun id => w.passes_answer _
  | add collection record => exact passes_found fun c => passes_found fun id => passes_answered (.of_same rfl rfl) _
  | remove collection member =>
    apply passes_found
    intro c
    apply passes_found
    intro id
    have hremove := spares_removeMember (s := w.store) c id
    exact passes_store hremove.1 hremove.2
  | reset collection members =>
    apply passes_found
    intro c
    apply passes_found
    intro ids
    have hreset := spares_resetMembers (s := w.store) c ids
    exact passes_store hreset.1 hreset.2
  | reorder collection order => exact passes_found fun c => passes_answered (.of_same rfl rfl) _
  | expand collection map defaultEvent =>
    exact passes_found fun c => passes_built fun map => passes_built fun plan => w.passes_answer _

theorem BinderCommand.passes (command : BinderCommand) : w.Passes n (command.perform w) := by
  have settled {result : Store × Option BindError} (h : w.store.Spares result.1) :
      w.Passes n (w.settled result) := passes_answered h _
  cases command with
  | make as tree config =>
    exact passes_found fun scope => passes_built fun config => passes_assign (spares_addBinder scope config) rfl as _
  | clone as binder => exact passes_found fun m => passes_assign (.refl w.store) rfl as _
  | bind binder record property key twoWay autoRender =>
    exact passes_found fun m => passes_found fun id => passes_built fun property => settled (spares_bind _ _ _ _ _)
  | unbind binder record key => exact passes_found fun m => passes_found fun id => passes_answered (spares_unbind id key) _
  | unbindAll binder record => exact passes_found fun m => passes_found fun id => passes_answered (spares_unbindAll id) _
  | render binder record => exact passes_found fun m => passes_found fun id => passes_answered (spares_renderAll _) _
  | attach binder source map autoRender =>
    exact passes_found fun m => passes_found fun source => passes_built fun map => settled (spares_attach _ _ _)
  | detach binder => exact passes_found fun m => passes_answered spares_detach _
  | state binder | settings binder => exact passes_found fun m => w.passes_answer _
  | observing binder record => exact passes_found fun m => passes_found fun id => w.passes_answer _
  | query binder selector =>
    apply passes_found
    intro m
    have hquery := (w.store.extends_observe (.query selector)).trans
      (extends_select _ (w.store.binder m).scope selector)
    simp only
    generalize (w.store.observe (.query selector)).select (w.store.binder m).scope selector = r at hquery ⊢
    exact passes_answered (.of_extends hquery) _

theorem ViewCommand.passes (command : ViewCommand) : w.Passes n (command.perform w) := by
  have hview {v : Nat} {f : View → View} : w.store.Spares (w.store.modifyView v f) := .of_same rfl rfl
  cases command with
  | make as host source map =>
    apply passes_found
    intro source
    have place {s' : Store} (h : w.store.Spares s') (m : Nat) (source : Source) (map : BindingMap) :
        w.Passes n (place (w.withStore s') as m source map) := by
      have hadded : w.store.Spares (s'.addView (.ofBinder m source map)) := h.trans (.of_same rfl rfl)
      exact passes_assign hadded rfl as _
    cases host with
    | shared binder => exact passes_found fun m => passes_built fun map => place (.refl w.store) m source map
    | fresh tree config =>
      exact passes_found fun scope => passes_built fun config => passes_built fun map =>
        place (spares_addBinder scope config) _ source map
  | mount view =>
    exact passes_found fun v => passes_answered (spares_mount v) _
  | unmount view => exact passes_found fun v => passes_answered (spares_unmount v) _
  | render view => exact passes_found fun v => passes_answered (spares_renderAll _) _
  | state view => exact passes_found fun v => w.passes_answer _
  | setSource view source => exact passes_found fun v => passes_found fun source => passes_answered hview _
  | setBindings view map => exact passes_found fun v => passes_built fun map => passes_answered hview _
  | handle as view => exact passes_found fun v => passes_assign (.refl w.store) rfl as _

theorem TreeCommand.passes (command : TreeCommand) : w.Passes n (command.perform w) := by
  have paint (w : Workspace) (tree : Nat) (f : Arena → Arena) : w.store.Spares (w.store.modifyArena tree f) :=
    .of_keeps (w.store.keeps_modifyArena tree f)
  cases command with
  | make as spec => exact passes_assign (.of_extends (w.store.extends_addTree (.ofSpec spec))) rfl as _
  | subtree as tree selector =>
    apply passes_found
    intro scope
    obtain ⟨store, found, hselect, hextends⟩ := w.store.exists_select scope selector
    rw [hselect]
    cases found with
    | nil => exact passes_answered (.of_extends hextends) _
    | cons x rest => exact passes_assign (.of_extends hextends) rfl as _
  | save as tree selector nth =>
    apply passes_found
    intro scope
    obtain ⟨store, found, hselect, hextends⟩ := w.store.exists_select scope selector
    simp only [hselect]
    cases found[nth]? with
    | none => exact passes_answered (.of_extends hextends) _
    | some x => exact passes_assign (.of_extends hextends) rfl as _
  | select tree selector =>
    apply passes_found
    intro scope
    obtain ⟨store, found, hselect, hextends⟩ := w.store.exists_select scope selector
    simp only [hselect]
    exact passes_answered (.of_extends hextends) _
  | append as parent tree spec =>
    exact passes_found fun scope => passes_element fun w _ x => passes_assign (paint w scope.tree _) rfl as _
  | look element aspects | readBack element attr => exact passes_element fun w _ _ => w.passes_answer _
  | change element aspect value =>
    apply passes_element
    intro w tree x
    split
    · exact passes_answered (paint w tree _) _
    · exact w.passes_answer _
  | paint element attr value => exact passes_element fun w tree _ => passes_answered (paint w tree _) _
  | dump tree aspects =>
    apply passes_found
    intro scope
    obtain ⟨store, found, hselect, hextends⟩ := w.store.exists_select scope "*"
    simp only [hselect]
    exact passes_answered (.of_extends hextends) _
  | dispatch tree event target =>
    apply passes_found
    intro scope
    apply passes_element
    intro w _ x
    exact passes_store (spares_fire scope.tree event x) ((OffCalls.reply _).calling rfl rfl)
  | trigger tree event selector =>
    apply passes_found
    intro scope
    obtain ⟨store, found, hselect, hextends⟩ := w.store.exists_select scope selector
    simp only [hselect]
    exact passes_store (.of_extends hextends) (OffCalls.nil.silent rfl)
  | delegations tree => exact passes_found fun scope => w.passes_answer _

/-! ## Commands on a list -/

/-- **An emission on a list begins** by drawing up its call list. -/
theorem NameCommand.emit_passes (list text : String) : w.Passes n (perform w (.emit list text)) := by
  apply passes_found
  intro m _ _ calls signed
  have hlist := list_modifyRoster w.store (Roster.uniform_draw ((w.store.list m).live.map (·.id))) (.list m) n
  by_cases hmn : m = n
  · subst hmn
    rw [if_pos rfl] at hlist
    have hdrew : Ledger.Moves (w.ledger m calls signed) ⟨(w.store.list m).prune.pin ((w.store.list m).live.map (·.id)),
        w.heldOn m, (w.store.list m).live.map (·.id) :: calls, signed⟩ := .single .drew
    rw [← hlist] at hdrew
    simp only [callsOf, List.filterMap_cons, Task.call?, List.filterMap_nil, Store.notify, callsOn_cons, if_true]
    exact hdrew
  · have hne : ¬(Channel.list m = .list n) := fun heq => hmn (Channel.list.inj heq)
    rw [if_neg hne] at hlist
    have hsame : Ledger.Moves (w.ledger n calls signed) ⟨w.store.list n, w.heldOn n, calls, signed⟩ := .refl _
    rw [← hlist] at hsame
    simp only [callsOf, List.filterMap_cons, Task.call?, List.filterMap_nil, Store.notify, callsOn_cons, if_neg hne]
    exact hsame

/-- A command on names that strikes nobody off. -/
theorem NameCommand.passes (command : NameCommand) (h : ∀ list, command ≠ .clear list) :
    w.Passes n (command.perform w) := by
  cases command with
  | makeList as => exact passes_assign (.of_extends w.store.extends_addList) rfl as _
  | emit list text => exact emit_passes list text
  | clear list => exact absurd rfl (h list)
  | listState list => exact passes_found fun m => w.passes_answer _
  | drop name => exact fun hoff hkeys calls signed => forget_moves hoff hkeys name
  | inspect name =>
    simp only [perform]
    split <;> exact w.passes_answer _

/-- A command that subscribes nothing and strikes nobody off. -/
theorem Action.passes (action : Action) (h : ∀ list, action ≠ .name (.clear list)) : w.Passes n (action.perform w) := by
  cases action with
  | tree command => exact command.passes
  | record command => exact command.passes
  | collection command => exact command.passes
  | binder command => exact command.passes
  | view command => exact command.passes
  | name command => exact command.passes fun list heq => h list (congrArg Action.name heq)

/-- **What a command does to the callbacks that are signed on a list.** -/
def Session.signs (s : Session) (n : Nat) (signed : List (Nat × Nat)) : Command → List (Nat × Nat)
  | .act (.name (.clear list)) => if (s.workspace.list? list).toOption = some n then [] else signed
  | .listen (.list list) _ _ _ _ =>
    if (s.workspace.list? list).toOption = some n then
      signed ++ [((s.workspace.store.list n).next, s.callbacks.length)]
    else signed
  | _ => signed

/-- A command that clears nothing strikes nobody off. -/
theorem Session.signs_act {s : Session} {signed : List (Nat × Nat)} {action : Action}
    (h : ∀ list, action ≠ .name (.clear list)) : s.signs n signed (.act action) = signed := by
  unfold signs
  split
  · next list heq => exact absurd (Command.act.inj heq) (h list)
  · next heq => cases heq
  · rfl

/-- A subscription that is on no free list signs nobody. -/
theorem Session.signs_listen {s : Session} {signed : List (Nat × Nat)} {site : Site} {as tag : String}
    {script : List Command} {limit : Nat} (h : ∀ list, site ≠ .list list) :
    s.signs n signed (.listen site as tag script limit) = signed := by
  unfold signs
  split
  · next heq => cases heq
  · next list _ _ _ _ heq => exact absurd (Command.listen.inj heq).1 (h list)
  · rfl

/-- A subscription that is on no free list. -/
theorem Workspace.subscribeAt_spares {k : Nat} {site : Site} (hsite : ∀ list, site ≠ .list list) {store : Store}
    {guard : Option Guard} (h : w.subscribeAt k site = .ok (store, guard)) :
    w.store.Spares store ∧ (Handle.subscription guard).heldOn? n = none := by
  have off {g : Guard} (hg : g.channel.list? = none) : (Handle.subscription (some g)).heldOn? n = none := by
    apply if_neg
    intro hch
    rw [hch] at hg
    cases hg
  have bound {ε α β : Type} {found : Except ε α} {go : α → Except ε β} {b : β} (h : found.bind go = .ok b) :
      ∃ a, found = .ok a ∧ go a = .ok b := by
    cases found with
    | error e => cases h
    | ok a => exact ⟨a, rfl, h⟩
  cases site with
  | list list => exact absurd rfl (hsite list)
  | events tree event selector =>
    obtain ⟨scope, -, h⟩ := bound h
    have hdelegate := @spares_delegate w.store scope event selector (.callback k)
    rw [Except.ok.inj h] at hdelegate
    refine ⟨hdelegate.1, ?_⟩
    cases guard with
    | none => rfl
    | some g => exact off (hdelegate.2 g rfl)
  | changes record | requests record | removals collection | resets collection =>
    obtain ⟨a, -, h⟩ := bound h
    cases Except.ok.inj h
    exact ⟨.of_same rfl rfl, off rfl⟩

/-- A subscription on a free list that is there. -/
theorem Workspace.list_subscribe {m : Nat} (hm : m < w.store.lists.size) (l : Listener) :
    (w.store.subscribe (.list m) l).1.list n = if m = n then (w.store.list n).subscribe l else w.store.list n := by
  have hlist := w.store.list_modifyList m n fun r => r.subscribe l
  by_cases hmn : m = n
  · subst hmn
    rw [if_pos ⟨rfl, hm⟩] at hlist
    rw [if_pos rfl]
    exact hlist
  · rw [if_neg fun heq => hmn heq.1.symm] at hlist
    rw [if_neg hmn]
    exact hlist

/-- Clearing a list strikes off whoever is signed on it. -/
theorem NameCommand.clear_moves (w : Workspace) (list : String) (n : Nat) (calls : List (List Nat))
    (signed : List (Nat × Nat)) :
    (w.ledger n calls signed).Moves ((perform w (.clear list)).1.ledger n calls
      (if (w.list? list).toOption = some n then [] else signed)) := by
  cases hfound : w.list? list with
  | error outcome =>
    simp only [perform, withFound, hfound]
    exact .refl _
  | ok m =>
    have hlist := list_modifyRoster w.store Roster.uniform_clear (.list m) n
    simp only [perform, withFound, hfound, Except.toOption, Option.some.injEq]
    by_cases hmn : m = n
    · subst hmn
      rw [if_pos rfl] at hlist
      have hcleared : (w.ledger m calls signed).Moves ⟨(w.store.list m).clear, w.heldOn m, calls, []⟩ :=
        .single .cleared
      rw [← hlist] at hcleared
      rw [if_pos rfl]
      exact hcleared
    · rw [if_neg fun heq => hmn (Channel.list.inj heq)] at hlist
      have hsame : (w.ledger n calls signed).Moves ⟨w.store.list n, w.heldOn n, calls, signed⟩ := .refl _
      rw [← hlist] at hsame
      rw [if_neg hmn]
      exact hsame

/-- **Subscribing a callback on a list** signs it under the next identity. -/
theorem Workspace.subscribe_moves (hoff : w.store.OffLists) (hkeys : (w.names.map Prod.fst).Nodup) {m : Nat}
    (hm : m < w.store.lists.size) (k : Nat) (as : String) (calls : List (List Nat)) (signed : List (Nat × Nat)) :
    (w.ledger n calls signed).Moves
      (((w.withStore (w.store.subscribe (.list m) (.callback k)).1).assign as
          (.subscription (some (w.store.subscribe (.list m) (.callback k)).2))).ledger n calls
        (if m = n then signed ++ [((w.store.list n).next, k)] else signed)) := by
  have hlist := list_subscribe (n := n) hm (.callback k)
  have hassign : Ledger.Moves ⟨(w.store.subscribe (.list m) (.callback k)).1.list n, _, calls,
      if m = n then signed ++ [((w.store.list n).next, k)] else signed⟩ _ :=
    assign_moves (w := w.withStore (w.store.subscribe (.list m) (.callback k)).1) hoff hkeys as
      (.subscription (some (w.store.subscribe (.list m) (.callback k)).2))
  by_cases hmn : m = n
  · subst hmn
    simp only [if_true] at hlist hassign ⊢
    have hsigned : (w.ledger m calls signed).Moves ⟨(w.store.list m).subscribe (.callback k),
        (w.store.list m).next :: w.heldOn m, calls, signed ++ [((w.store.list m).next, k)]⟩ :=
      .single (.subscribed k)
    rw [← hlist] at hsigned
    refine hsigned.trans ?_
    -- the name that the subscription is given to holds it
    have hheld : ((Handle.subscription (some (w.store.subscribe (.list m) (.callback k)).2)).heldOn? m).toList ++
        (w.withStore (w.store.subscribe (.list m) (.callback k)).1).heldOn m =
        (w.store.list m).next :: w.heldOn m := by
      simp only [Handle.heldOn?, Store.subscribe, if_true]
      rfl
    rw [hheld] at hassign
    exact hassign
  · have hnone : (Handle.subscription (some (w.store.subscribe (.list m) (.callback k)).2)).heldOn? n = none :=
      if_neg fun heq => hmn (Channel.list.inj heq)
    simp only [if_neg hmn] at hlist hassign ⊢
    rw [hnone] at hassign
    have hsame : (w.ledger n calls signed).Moves ⟨w.store.list n, w.heldOn n, calls, signed⟩ := .refl _
    rw [← hlist] at hsame
    exact hsame.trans hassign

/-- **What a command does to a list are moves of its ledger.** -/
theorem Session.perform_moves (s : Session) {running : List (Channel × List Nat)} (hw : s.workspace.Sound running)
    (c : Command) (n : Nat) (calls : List (List Nat)) (signed : List (Nat × Nat)) :
    (s.workspace.ledger n calls signed).Moves
      ((s.perform c).1.workspace.ledger n (callsOn n (callsOf (s.perform c).2) ++ calls) (s.signs n signed c)) := by
  have hoff := hw.scene.store_wired.offLists
  have hkeys := hw.named.keys
  cases c with
  | act action =>
    -- clearing a list is the one action that does not pass it by
    by_cases hclear : ∃ list, action = .name (.clear list)
    · obtain ⟨list, rfl⟩ := hclear
      have htasks : callsOn n (callsOf (s.perform (.act (.name (.clear list)))).2) = [] := by
        simp only [perform, Action.perform, NameCommand.perform]
        cases s.workspace.list? list <;> rfl
      rw [htasks]
      exact NameCommand.clear_moves s.workspace list n calls signed
    · have hother : ∀ list, action ≠ .name (.clear list) := fun list heq => hclear ⟨list, heq⟩
      rw [signs_act hother]
      exact action.passes hother hoff hkeys calls signed
  | listen site as tag script limit =>
    by_cases hlist : ∃ list, site = .list list
    · obtain ⟨list, rfl⟩ := hlist
      cases hfound : s.workspace.list? list with
      | error outcome =>
        simp only [perform, Workspace.subscribeAt, hfound, signs]
        exact .refl _
      | ok m =>
        simp only [perform, Workspace.subscribeAt, hfound, signs, Except.toOption, Option.some.injEq]
        exact subscribe_moves hoff hkeys (valid_list? hw.named hfound) s.callbacks.length as calls signed
    · have hother : ∀ list, site ≠ .list list := fun list heq => hlist ⟨list, heq⟩
      rw [signs_listen hother]
      unfold perform
      simp only
      split
      · exact .refl _
      · next store guard hsite =>
        obtain ⟨hspares, hguard⟩ := subscribeAt_spares (n := n) hother hsite
        exact passes_assign hspares hguard as .done hoff hkeys calls signed

end Databind
