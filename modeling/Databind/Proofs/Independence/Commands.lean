import Databind.Proofs.Independence.WorkspaceComparison
import Databind.Proofs.Performance

/-!
# `Proofs.Independence.Commands` — commands keep twins alike

A command does the same in two workspaces that are the same but for the stranger. What it shows of the stranger and of
its tree may differ, and the answers with it; so a command must not carry over what differs to something else. It is
discreet if it gives no name to what it finds in the stranger's tree, fires no event there, and makes no further handle
to the stranger through the one name that may be gone.

## Main definitions

* `Command.Discreet` — a command that carries nothing over from the stranger.
-/

namespace Databind

open Store Workspace

variable {b : Stranger} {w w' : Workspace}

/-! ## Elements -/

namespace Workspace

/-- A name denotes no part of the stranger's tree. -/
def Away (b : Stranger) (w : Workspace) (tree : String) : Prop :=
  ∀ scope, w.scope? tree = .ok scope → scope.tree ≠ b.tree

/-- The element that a command names is not in the stranger's tree. -/
def Elsewhere (b : Stranger) (w : Workspace) : ElementRef → Prop
  | .saved name => ∀ k x, w.handle? name = some (.element k x) → k ≠ b.tree
  | .first tree _ => w.Away b tree

/-- The same elements are found in a tree that is not the stranger's. -/
theorem Twin.selected (h : w.Twin b w') {scope : Scope} (hscope : scope.tree ≠ b.tree) (text : String) :
    ∃ s s' found, w.store.select scope text = (s, found) ∧ w'.store.select scope text = (s', found) ∧
      Paired b w.store w'.store s s' := by
  have hfound := h.store.select hscope text
  have hp := h.store.hushed (.select w.store scope text) (.select w'.store scope text)
  generalize w.store.select scope text = r, w'.store.select scope text = r' at hfound hp
  exact ⟨r.1, r'.1, r.2, rfl, hfound ▸ rfl, hp⟩

/-- A name denotes the same element, or none on either side. -/
theorem Twin.element? (h : w.Twin b w') (name : String) :
    (∃ k x, w.handle? name = some (.element k x) ∧ w'.handle? name = some (.element k x)) ∨
      (∀ k x, w.handle? name ≠ some (.element k x)) ∧ ∀ k x, w'.handle? name ≠ some (.element k x) := by
  have hiff (k x : Nat) := h.handle?_eq name (.element k x) nofun nofun
  by_cases hsome : ∃ k x, w.handle? name = some (.element k x)
  · obtain ⟨k, x, hhandle⟩ := hsome
    exact .inl ⟨k, x, hhandle, (hiff k x).mp hhandle⟩
  · exact .inr ⟨fun k x hhandle => hsome ⟨k, x, hhandle⟩, fun k x hhandle => hsome ⟨k, x, (hiff k x).mpr hhandle⟩⟩

theorem elementDeeds_nil (w : Workspace) (ref : ElementRef) : w.elementDeeds ref (fun _ _ _ => []) = [] := by
  cases ref with
  | saved name =>
    simp only [elementDeeds]
    split <;> rfl
  | first tree selector =>
    simp only [elementDeeds]
    cases w.scope? tree with
    | error outcome => rfl
    | ok scope =>
      simp only [foundDeeds]
      split <;> rfl

variable {deeds : Workspace → Nat → Nat → List Deed} {go : Workspace → Nat → Nat → Workspace × List Task}

theorem elementDeeds_of_not {name : String} (h : ∀ k x, w.handle? name ≠ some (.element k x)) :
    w.elementDeeds (.saved name) deeds = [] := by
  simp only [elementDeeds]

theorem withElement_of_not {name : String} (h : ∀ k x, w.handle? name ≠ some (.element k x)) :
    w.withElement (.saved name) go = w.answer (.unknown name) := by
  simp only [withElement]

/-- Going on with an element that is found in the stranger's tree. -/
theorem aloof_first (h : w.store.Kept b)
    (hgo : ∀ (u : Workspace) (x : Nat), u.store.Kept b → u.Aloof b (deeds u b.tree x) (go u b.tree x))
    {tree : String} {scope : Scope} (hscope : w.scope? tree = .ok scope) (hk : scope.tree = b.tree) (selector : String) :
    w.Aloof b (w.elementDeeds (.first tree selector) deeds) (w.withElement (.first tree selector) go) := by
  have hselect := h.hushed (.select w.store scope selector)
  simp only [elementDeeds, withElement, hscope, foundDeeds, withFound]
  generalize w.store.select scope selector = r at hselect ⊢
  obtain ⟨store, found⟩ := r
  cases found with
  | nil => exact aloof_answered hselect rfl _
  | cons x rest =>
    obtain ⟨hdeeds, s, outcome, hdone, haside⟩ := hgo (w.withStore store) x hselect.kept
    simp only [hk]
    exact ⟨hdeeds, s, outcome, hdone, hselect.trans haside⟩

/-- **Going on with an element in both workspaces.** One of the stranger's tree is excepted, or what is done with it is
done aside. -/
theorem concert_element (h : w.Twin b w') {ref : ElementRef}
    (hgo : ∀ (u u' : Workspace) (k x : Nat), u.Twin b u' → k ≠ b.tree →
      Concert b u.store u'.store (deeds u k x) (deeds u' k x) (go u k x) (go u' k x))
    (haside : w.Elsewhere b ref ∨
      ∀ (u : Workspace) (x : Nat), u.store.Kept b → u.Aloof b (deeds u b.tree x) (go u b.tree x)) :
    Concert b w.store w'.store (w.elementDeeds ref deeds) (w'.elementDeeds ref deeds) (w.withElement ref go)
      (w'.withElement ref go) := by
  cases ref with
  | saved name =>
    rcases h.element? name with ⟨k, x, hhandle, hhandle'⟩ | ⟨hno, hno'⟩
    · simp only [elementDeeds, withElement, hhandle, hhandle']
      by_cases hk : k = b.tree
      · subst hk
        have hown := haside.resolve_left fun helse => helse _ x hhandle rfl
        exact concert_aloof h (hown w x h.store.kept) (hown w' x h.store.kept')
      · exact hgo w w' k x h hk
    · rw [elementDeeds_of_not hno, elementDeeds_of_not hno', withElement_of_not hno, withElement_of_not hno']
      exact concert_answer h _ _
  | first tree selector =>
    have hfound := h.scope? tree
    cases hscope : w.scope? tree with
    | error outcome =>
      simp only [elementDeeds, withElement, ← hfound, hscope]
      exact concert_answer h _ _
    | ok scope =>
      by_cases hk : scope.tree = b.tree
      · have hown := haside.resolve_left fun helse => helse scope hscope hk
        exact concert_aloof h (aloof_first h.store.kept hown hscope hk selector)
          (aloof_first h.store.kept' hown (hfound ▸ hscope) hk selector)
      · obtain ⟨s, s', found, hselect, hselect', hp⟩ := h.selected hk selector
        simp only [elementDeeds, withElement, ← hfound, hscope, foundDeeds, withFound, hselect, hselect']
        cases found with
        | nil => exact concert_answered h rfl hp _ _
        | cons x rest => exact .after hp (hgo _ _ _ x (h.withStore hp) hk)

theorem concert_element_nothing (h : w.Twin b w') {ref : ElementRef}
    (hgo : ∀ (u u' : Workspace) (k x : Nat), u.Twin b u' → k ≠ b.tree →
      Concert b u.store u'.store [] [] (go u k x) (go u' k x))
    (haside : w.Elsewhere b ref ∨
      ∀ (u : Workspace) (x : Nat), u.store.Kept b → u.Aloof b [] (go u b.tree x)) :
    Concert b w.store w'.store [] [] (w.withElement ref go) (w'.withElement ref go) := by
  have hboth : Concert b w.store w'.store (w.elementDeeds ref fun _ _ _ => []) (w'.elementDeeds ref fun _ _ _ => [])
      (w.withElement ref go) (w'.withElement ref go) := concert_element h hgo haside
  rwa [elementDeeds_nil, elementDeeds_nil] at hboth

end Workspace

/-! ## Trees -/

/-- A command on trees and elements that carries nothing over from the stranger's tree. -/
def TreeCommand.Discreet (b : Stranger) (w : Workspace) : TreeCommand → Prop
  | subtree _ tree _ => w.Away b tree
  | save _ tree _ _ => w.Away b tree
  | append _ parent tree _ => w.Away b tree ∧ w.Elsewhere b parent
  | dispatch tree _ target => w.Away b tree ∧ w.Elsewhere b target
  | trigger tree _ _ => w.Away b tree
  | _ => True

theorem TreeCommand.concert (h : w.Twin b w') {command : TreeCommand} (hdiscreet : command.Discreet b w) :
    Concert b w.store w'.store (command.deeds w) (command.deeds w') (command.perform w) (command.perform w') := by
  have hquiet (scope : Scope) (text : String) := h.store.hushed (.select _ scope text) (.select _ scope text)
  cases command with
  | make as spec =>
    have hsize : w.store.trees.size = w'.store.trees.size := congrArg Sizes.trees h.store.sizes
    simp only [TreeCommand.perform, TreeCommand.deeds, ← hsize]
    exact concert_assign h (h.store.addTree (.ofSpec spec)) (.same (by simp)) as _ _
  | subtree as tree selector =>
    refine concert_found h (h.scope? tree) fun scope hscope => ?_
    -- both trees hold the same elements, so the same element is found, or none
    obtain ⟨s, s', found, hselect, hselect', hp⟩ := h.selected (hdiscreet scope hscope) selector
    rw [hselect, hselect']
    cases found with
    | nil => exact concert_answered h rfl hp _ _
    | cons x rest => exact concert_assign h hp (.same (by simp)) as _ _
  | save as tree selector nth =>
    refine concert_found h (h.scope? tree) fun scope hscope => ?_
    obtain ⟨s, s', found, hselect, hselect', hp⟩ := h.selected (hdiscreet scope hscope) selector
    simp only [hselect, hselect']
    cases found[nth]? with
    | none => exact concert_answered h rfl hp _ _
    | some x => exact concert_assign h hp (.same (by simp)) as _ _
  | select tree selector =>
    refine concert_found_nothing h (h.scope? tree) fun scope _ => ?_
    -- the answer may differ where the tree is the stranger's, but only the journal grows
    have hp := hquiet scope selector
    generalize w.store.select scope selector = r, w'.store.select scope selector = r' at hp ⊢
    exact concert_answered h rfl hp _ _
  | append as parent tree spec =>
    refine concert_found h (h.scope? tree) fun scope hscope => concert_element h ?_ (.inl hdiscreet.2)
    intro u u' k x hu hk
    unfold strayDeeds
    rw [← hu.store.arena (hdiscreet.1 scope hscope)]
    exact (concert_assign hu (hu.store.modifyArena _ fun _ => rfl) (.same (by simp)) as _ _).behind _
  | look element aspects | readBack element attr =>
    simp only [TreeCommand.perform, TreeCommand.deeds]
    exact concert_element_nothing h (fun u u' k x hu _ => concert_answer hu _ _)
      (.inr fun u x hkept => aloof_answer hkept _)
  | change element aspect value =>
    simp only [TreeCommand.perform, TreeCommand.deeds]
    refine concert_element_nothing h (fun u u' k x hu hk => ?_) (.inr fun u x hkept => ?_)
    · rw [← hu.store.arena hk]
      cases (u.store.arena k).change? x aspect value with
      | none => exact concert_answer hu _ _
      | some arena => exact concert_answered hu rfl (hu.store.modifyArena _ fun _ => rfl) _ _
    · cases (u.store.arena b.tree).change? x aspect value with
      | none => exact aloof_answer hkept _
      | some arena => exact aloof_answered (hkept.modifyTree rfl _) rfl _
  | paint element attr value =>
    simp only [TreeCommand.perform, TreeCommand.deeds]
    refine concert_element_nothing h (fun u u' k x hu hk => ?_) (.inr fun u x hkept => ?_)
    · exact concert_answered hu rfl (hu.store.modifyArena _ fun _ => rfl) _ _
    · exact aloof_answered (hkept.modifyTree rfl _) rfl _
  | dump tree aspects =>
    refine concert_found_nothing h (h.scope? tree) fun scope _ => ?_
    have hp := hquiet scope "*"
    generalize w.store.select scope "*" = r, w'.store.select scope "*" = r' at hp ⊢
    exact concert_answered h rfl hp _ _
  | dispatch tree event target =>
    refine concert_found_nothing h (h.scope? tree) fun scope hscope => concert_element_nothing h ?_ (.inl hdiscreet.2)
    intro u u' k x hu hk
    obtain ⟨hp, -, htask⟩ := hu.store.fire (hdiscreet.1 scope hscope) event x
    exact concert_store hu rfl ⟨hp, .cons htask (.cons (.reply _ _) .nil)⟩
  | trigger tree event selector =>
    refine concert_found_nothing h (h.scope? tree) fun scope hscope => ?_
    obtain ⟨s, s', found, hselect, hselect', hp⟩ := h.selected (hdiscreet scope hscope) selector
    rw [hselect, hselect']
    exact concert_store h rfl ⟨hp, .cons (.trigger (hdiscreet scope hscope) event found 0) .nil⟩
  | delegations tree => exact concert_found_nothing h (h.scope? tree) fun scope _ => concert_answer h _ _

/-! ## Records and collections -/

theorem RecordCommand.concert (h : w.Twin b w') (command : RecordCommand) :
    Concert b w.store w'.store (command.deeds w) (command.deeds w') (command.perform w) (command.perform w') := by
  cases command with
  | make as fields =>
    have hnext : w.store.nextRecord = w'.store.nextRecord :=
      congrArg RecordId.mk (congrArg Sizes.records h.store.sizes)
    simp only [RecordCommand.perform, RecordCommand.deeds, ← hnext]
    exact concert_assign h (h.store.addRecord (Fields.proper_ofEntries fields)) (.same (by simp)) as _ _
  | write record entries =>
    refine concert_found h (h.record? record) fun id _ => ?_
    have hwrite := h.store.write id entries
    refine concert_store h (congrArg _ (h.store.writeDeeds id)) ⟨hwrite.paired, ?_⟩
    exact List.rel_append hwrite.tasks (.cons (.reply _ _) .nil)
  | get record names => exact concert_found_nothing h (h.record? record) fun id _ => concert_answer h _ _
  | has record name => exact concert_found_nothing h (h.record? record) fun id _ => concert_answer h _ _
  | state record => exact concert_found_nothing h (h.record? record) fun id _ => concert_answer h _ _
  | requestRender record =>
    refine concert_found_nothing h (h.record? record) fun id _ => ?_
    exact concert_store h rfl ⟨.refl h.store, .cons (.request id) (.cons (.reply _ _) .nil)⟩
  | destroy record =>
    exact concert_found h (h.record? record) fun id _ => concert_answered h rfl (h.store.destroy id) _ _
  | install record validator =>
    refine concert_found_nothing h (h.record? record) fun id _ => concert_answered h rfl ?_ _ _
    exact h.store.modifyRecord_data id (fun r r' hr => congrArg (fun r => { r with validator := some validator }) hr)
      fun _ => ⟨rfl, rfl⟩
  | clearValidator record =>
    refine concert_found_nothing h (h.record? record) fun id _ => concert_answered h rfl ?_ _ _
    exact h.store.modifyRecord_data id (fun r r' hr => congrArg (fun r => { r with validator := none }) hr)
      fun _ => ⟨rfl, rfl⟩

theorem CollectionCommand.concert (h : w.Twin b w') (command : CollectionCommand) :
    Concert b w.store w'.store (command.deeds w) (command.deeds w') (command.perform w) (command.perform w') := by
  cases command with
  | make as members =>
    have hsize : w.store.collections.size = w'.store.collections.size := congrArg Sizes.collections h.store.sizes
    simp only [CollectionCommand.perform, CollectionCommand.deeds, ← hsize]
    exact concert_found h (h.records? members) fun ids _ =>
      concert_assign h (h.store.addCollection ids) (.same (by simp)) as _ _
  | listMembers collection | size collection | atIndex collection index | find collection key =>
    exact concert_found_nothing h (h.collection? collection) fun c _ => concert_answer h _ _
  | resolve collection key =>
    refine concert_found_nothing h (h.collection? collection) fun c _ => ?_
    rw [← h.store.resolveMember]
    exact concert_built_nothing h fun id => concert_answer h _ _
  | add collection record =>
    exact concert_found_nothing h (h.collection? collection) fun c _ =>
      concert_found_nothing h (h.record? record) fun id _ =>
        concert_answered h rfl (h.store.modifyMembers c (· ++ [id])) _ _
  | remove collection member =>
    exact concert_found_nothing h (h.collection? collection) fun c _ =>
      concert_found_nothing h (h.recordRef? member) fun id _ => concert_store h rfl (h.store.removeMember c id)
  | reset collection members =>
    exact concert_found_nothing h (h.collection? collection) fun c _ =>
      concert_found_nothing h (h.records? members) fun ids _ => concert_store h rfl (h.store.resetMembers c ids)
  | reorder collection order =>
    exact concert_found_nothing h (h.collection? collection) fun c _ =>
      concert_answered h rfl (h.store.modifyMembers c fun members => order.filterMap (members[·]?)) _ _
  | expand collection map defaultEvent =>
    refine concert_found_nothing h (h.collection? collection) fun c _ => concert_built_nothing h fun map => ?_
    rw [← h.store.expand]
    exact concert_built_nothing h fun plan => concert_answer h _ _

/-! ## Binders -/

/-- A query changes nothing but the journal. -/
theorem Store.hushed_query (s : Store) (n : Nat) (selector : String) :
    s.Hushed ((s.observe (.query selector)).select (s.binder n).scope selector).1 :=
  (Hushed.observe s _).trans (.select (s.observe (.query selector)) (s.binder n).scope selector)

namespace BinderCommand

/-- The binder that a command is given to. -/
def target? : BinderCommand → Option String
  | make _ _ _ => none
  | clone _ _ => none
  | bind binder _ _ _ _ _ => some binder
  | unbind binder _ _ => some binder
  | unbindAll binder _ => some binder
  | render binder _ => some binder
  | attach binder _ _ _ => some binder
  | detach binder => some binder
  | state binder => some binder
  | observing binder _ => some binder
  | settings binder => some binder
  | query binder _ => some binder

/-- A command on a binder that makes no further handle to the stranger. -/
def Discreet (b : Stranger) : BinderCommand → Prop
  | clone _ binder => b.name ≠ some binder
  | _ => True

/-- **A command to the stranger shows nowhere else.** -/
theorem aloof (h : w.store.Kept b) (hw : w.Named) {command : BinderCommand} {name : String}
    (htarget : command.target? = some name) (hname : ∀ n, w.binder? name = .ok n → n = b.binder) :
    w.Aloof b (command.deeds w) (command.perform w) := by
  cases command with
  | make as tree config | clone as binder => cases htarget
  | bind binder record property key twoWay autoRender =>
    cases htarget
    refine aloof_found h fun n hn => aloof_found h fun id _ => aloof_built h fun property => ?_
    obtain rfl := hname n hn
    exact aloof_answered (h.bind id property key twoWay autoRender) (besides_bindDeeds ..) _
  | unbind binder record key =>
    cases htarget
    refine aloof_found h fun n hn => aloof_found h fun id _ => ?_
    obtain rfl := hname n hn
    exact aloof_answered (h.unbind id key) (b.besides_own fun d hd => List.mem_singleton.mp hd ▸ beq_self_eq_true _) _
  | unbindAll binder record =>
    cases htarget
    refine aloof_found h fun n hn => aloof_found h fun id _ => ?_
    obtain rfl := hname n hn
    exact aloof_answered (h.unbindAll id) (b.besides_own fun d hd => List.mem_singleton.mp hd ▸ beq_self_eq_true _) _
  | render binder record =>
    cases htarget
    refine aloof_found h fun n hn => aloof_found h fun id _ => ?_
    obtain rfl := hname n hn
    exact aloof_answered (h.renderBindings id) (besides_renderBindingsDeeds _ id) _
  | attach binder source map autoRender =>
    cases htarget
    refine aloof_found h fun n hn => aloof_found h fun source hsource => aloof_built h fun map => ?_
    obtain rfl := hname n hn
    exact aloof_answered (h.attach (valid_source? hw hsource) map autoRender) (besides_attachDeeds ..) _
  | detach binder =>
    cases htarget
    refine aloof_found h fun n hn => ?_
    obtain rfl := hname n hn
    exact aloof_answered h.detach besides_detachDeeds _
  | state binder | settings binder => exact aloof_found_nothing h fun n _ => aloof_answer h _
  | observing binder record =>
    exact aloof_found_nothing h fun n _ => aloof_found_nothing h fun id _ => aloof_answer h _
  | query binder selector =>
    refine aloof_found_nothing h fun n _ => ?_
    have hquery := h.hushed (w.store.hushed_query n selector)
    generalize (w.store.observe (.query selector)).select (w.store.binder n).scope selector = r at hquery ⊢
    exact aloof_answered hquery rfl _

/-- A new handle to a binder. -/
theorem concert_of_make (h : w.Twin b w') {command : BinderCommand} (htarget : command.target? = none)
    (hdiscreet : command.Discreet b) :
    Concert b w.store w'.store (command.deeds w) (command.deeds w') (command.perform w) (command.perform w') := by
  cases command with
  | make as tree config =>
    have hsize : w.store.binders.size = w'.store.binders.size := congrArg Sizes.binders h.store.sizes
    simp only [BinderCommand.perform, BinderCommand.deeds, ← hsize]
    exact concert_found h (h.scope? tree) fun scope _ => concert_built h fun config =>
      (concert_assign h (h.store.addBinder scope config) (.same (by simp)) as _ _).behind [_]
  | clone as binder =>
    have heq := (h.binder? binder).resolve_right fun hhidden => hdiscreet hhidden.1
    simp only [BinderCommand.perform, BinderCommand.deeds]
    exact concert_found h heq fun n _ => concert_assign h (.refl h.store) (.same (by simp)) as _ _
  | _ => cases htarget

/-- **A command to the same binder on both sides.** -/
theorem concert_of_target (h : w.Twin b w') (hw : w.Named) {command : BinderCommand} {name : String}
    (htarget : command.target? = some name) (heq : w.binder? name = w'.binder? name) :
    Concert b w.store w'.store (command.deeds w) (command.deeds w') (command.perform w) (command.perform w') := by
  cases command with
  | make as tree config | clone as binder => cases htarget
  | bind binder record property key twoWay autoRender =>
    cases htarget
    simp only [BinderCommand.perform, BinderCommand.deeds]
    refine concert_found h heq fun n _ => concert_found h (h.record? record) fun id _ => concert_built h fun property => ?_
    exact concert_answered h (congrArg _ (h.store.bindDeeds ..)) (h.store.bind n id property key twoWay autoRender) _ _
  | unbind binder record key =>
    cases htarget
    simp only [BinderCommand.perform, BinderCommand.deeds]
    refine concert_found h heq fun n _ => concert_found h (h.recordRef? record) fun id _ => ?_
    exact concert_answered h rfl (h.store.unbind_any n id key) _ _
  | unbindAll binder record =>
    cases htarget
    simp only [BinderCommand.perform, BinderCommand.deeds]
    refine concert_found h heq fun n _ => concert_found h (h.optionalRecord? record) fun id _ => ?_
    exact concert_answered h rfl (h.store.unbindAll_any n id) _ _
  | render binder record =>
    cases htarget
    simp only [BinderCommand.perform, BinderCommand.deeds]
    refine concert_found h heq fun n _ => concert_found h (h.optionalRecord? record) fun id _ => ?_
    exact concert_answered h (h.store.renderBindingsDeeds n id) (h.store.renderBindings n id) _ _
  | attach binder source map autoRender =>
    cases htarget
    simp only [BinderCommand.perform, BinderCommand.deeds]
    refine concert_found h heq fun n _ => concert_found h (h.source? source) fun source hsource =>
      concert_built h fun map => ?_
    exact concert_answered h (congrArg _ (h.store.attachDeeds ..))
      (h.store.attach n (valid_source? hw hsource) map autoRender) _ _
  | detach binder =>
    cases htarget
    simp only [BinderCommand.perform, BinderCommand.deeds]
    exact concert_found h heq fun n _ => concert_answered h rfl (h.store.detach_any n) _ _
  | state binder | settings binder =>
    cases htarget
    simp only [BinderCommand.perform, BinderCommand.deeds]
    exact concert_found_nothing h heq fun n _ => concert_answer h _ _
  | observing binder record =>
    cases htarget
    simp only [BinderCommand.perform, BinderCommand.deeds]
    exact concert_found_nothing h heq fun n _ => concert_found_nothing h (h.recordRef? record) fun id _ =>
      concert_answer h _ _
  | query binder selector =>
    cases htarget
    simp only [BinderCommand.perform, BinderCommand.deeds]
    refine concert_found_nothing h heq fun n _ => ?_
    have hquery := h.store.hushed (w.store.hushed_query n selector) (w'.store.hushed_query n selector)
    generalize (w.store.observe (.query selector)).select (w.store.binder n).scope selector = r,
      (w'.store.observe (.query selector)).select (w'.store.binder n).scope selector = r' at hquery ⊢
    exact concert_answered h rfl hquery _ _

/-- **A command to any binder.** -/
theorem concert (h : w.Twin b w') (hw : w.Named) (hw' : w'.Named) {command : BinderCommand}
    (hdiscreet : command.Discreet b) :
    Concert b w.store w'.store (command.deeds w) (command.deeds w') (command.perform w) (command.perform w') := by
  cases htarget : command.target? with
  | none => exact concert_of_make h htarget hdiscreet
  | some name =>
    rcases h.binder? name with heq | ⟨-, hown, hown'⟩
    · exact concert_of_target h hw htarget heq
    · exact concert_aloof h (aloof h.store.kept hw htarget hown) (aloof h.store.kept' hw' htarget hown')

end BinderCommand

/-! ## Views -/

namespace ViewCommand

/-- A command on a view that makes no further handle to the stranger. -/
def Discreet (b : Stranger) : ViewCommand → Prop
  | make _ (.shared binder) _ _ => b.name ≠ some binder
  | _ => True

theorem concert_place (h : w.Twin b w') (as : String) (n : Nat) {source : Source}
    (hsource : ∀ c, source = .collection c → c < w.store.collections.size) (map : BindingMap) :
    Concert b w.store w'.store (placeDeeds w as n source map) (placeDeeds w' as n source map)
      (place w as n source map) (place w' as n source map) := by
  have hsize : w.store.views.size = w'.store.views.size := congrArg Sizes.views h.store.sizes
  have hview : Paired b w.store w'.store (w.store.addView (.ofBinder n source map))
      (w'.store.addView (.ofBinder n source map)) := h.store.addView hsource
  unfold placeDeeds place
  rw [← hsize]
  exact concert_assign h hview (.same (by simp)) as _ _

/-- What a view is to attach is replaced. -/
theorem concert_replace (h : w.Twin b w') (v : Nat) {f : View → View}
    (hf : ∀ n (x : View), (f x).apart n = f (x.apart n)) :
    Concert b w.store w'.store [] [] ((w.withStore (w.store.modifyView v f)).answer .done)
      ((w'.withStore (w'.store.modifyView v f)).answer .done) := by
  refine concert_answered h rfl (h.store.modifyView v ?_) _ _
  rw [hf, hf, h.store.view_apart]

theorem concert (h : w.Twin b w') (hw : w.Named) {command : ViewCommand} (hdiscreet : command.Discreet b) :
    Concert b w.store w'.store (command.deeds w) (command.deeds w') (command.perform w) (command.perform w') := by
  cases command with
  | make as host source map =>
    refine concert_found h (h.source? source) fun source hsource => ?_
    have hcollection := valid_source? hw hsource
    cases host with
    | shared binder =>
      have heq := (h.binder? binder).resolve_right fun hhidden => hdiscreet hhidden.1
      exact concert_found h heq fun n _ => concert_built h fun map => concert_place h as n hcollection map
    | fresh tree config =>
      refine concert_found h (h.scope? tree) fun scope _ => concert_built h fun config => concert_built h fun map => ?_
      have hbinder := h.store.addBinder scope config
      have hsize : w.store.binders.size = w'.store.binders.size := congrArg Sizes.binders h.store.sizes
      simp only [← hsize]
      exact .after hbinder ((concert_place (h.withStore hbinder) as _ hcollection map).behind [_])
  | mount view =>
    exact concert_found h (h.view? view) fun v _ => concert_answered h (congrArg _ (h.store.mountDeeds v))
      (h.store.mount v hw.sourced) _ _
  | unmount view =>
    exact concert_found h (h.view? view) fun v _ => concert_answered h (h.store.unmountDeeds v) (h.store.unmount v) _ _
  | render view =>
    refine concert_found h (h.view? view) fun v _ => ?_
    rw [← h.store.view_binder v]
    exact concert_answered h (h.store.renderBindingsDeeds _ none) (h.store.renderBindings _ none) _ _
  | state view => exact concert_found_nothing h (h.view? view) fun v _ => concert_answer h _ _
  | setSource view source =>
    refine concert_found_nothing h (h.view? view) fun v _ => concert_found_nothing h (h.source? source) fun source _ =>
      concert_replace h v fun n x => ?_
    unfold View.apart
    split <;> rfl
  | setBindings view map =>
    refine concert_found_nothing h (h.view? view) fun v _ => concert_built_nothing h fun map =>
      concert_replace h v fun n x => ?_
    unfold View.apart
    split <;> rfl
  | handle as view =>
    refine concert_found h (h.view? view) fun v _ => ?_
    rw [← h.store.view_binder v]
    exact concert_assign h (.refl h.store) (.same (by simp)) as _ _

end ViewCommand

/-! ## Names -/

theorem NameCommand.concert (h : w.Twin b w') (command : NameCommand) :
    Concert b w.store w'.store (command.deeds w) (command.deeds w') (command.perform w) (command.perform w') := by
  cases command with
  | makeList as =>
    have hsize : w.store.lists.size = w'.store.lists.size := congrArg Sizes.lists h.store.sizes
    simp only [NameCommand.perform, NameCommand.deeds, ← hsize]
    exact concert_assign h h.store.addList (.same (by simp)) as _ _
  | emit list text =>
    refine concert_found_nothing h (h.list? list) fun n _ => ?_
    obtain ⟨hp, htask⟩ := h.store.notify (.list n) rfl (.emitted text)
    exact concert_store h rfl ⟨hp, .cons htask (.cons (.reply _ _) .nil)⟩
  | clear list =>
    exact concert_found_nothing h (h.list? list) fun n _ => concert_answered h rfl (h.store.clearList n) _ _
  | listState list => exact concert_found_nothing h (h.list? list) fun n _ => concert_answer h _ _
  | drop name => exact concert_forget h name _ _
  | inspect name =>
    simp only [NameCommand.perform, NameCommand.deeds]
    split <;> split <;> exact concert_answer h _ _

/-! ## Commands -/

/-- **A command that carries nothing over from the stranger.** -/
def Action.Discreet (b : Stranger) (w : Workspace) : Action → Prop
  | tree command => command.Discreet b w
  | binder command => command.Discreet b
  | view command => command.Discreet b
  | _ => True

/-- **A command that carries nothing over from the stranger.** -/
def Command.Discreet (b : Stranger) (w : Workspace) : Command → Prop
  | .act action => action.Discreet b w
  | .listen _ _ _ _ _ => True

theorem Action.concert (h : w.Twin b w') (hw : w.Named) (hw' : w'.Named) {action : Action}
    (hdiscreet : action.Discreet b w) :
    Concert b w.store w'.store (action.deeds w) (action.deeds w') (action.perform w) (action.perform w') := by
  cases action with
  | tree command => exact TreeCommand.concert h hdiscreet
  | record command => exact RecordCommand.concert h command
  | collection command => exact CollectionCommand.concert h command
  | binder command => exact BinderCommand.concert h hw hw' hdiscreet
  | view command => exact ViewCommand.concert h hw hdiscreet
  | name command => exact NameCommand.concert h command

/-- **A callback listens to the same in both workspaces**, or to nothing. -/
theorem Workspace.Twin.subscribeAt (h : w.Twin b w') (hw : w.Named) (n : Nat) (site : Site) :
    (∃ outcome, w.subscribeAt n site = .error outcome ∧ w'.subscribeAt n site = .error outcome) ∨
      ∃ s s' guard guard', w.subscribeAt n site = .ok (s, guard) ∧ w'.subscribeAt n site = .ok (s', guard') ∧
        Paired b w.store w'.store s s' ∧ s.SameGuard? b s' guard guard' := by
  have hsame : site.channel? w = site.channel? w' := by
    cases site <;> simp only [Site.channel?, h.record?, h.collection?, h.list?]
  cases hchannel : site.channel? w with
  | some found =>
    rw [subscribeAt_of_channel? hchannel, subscribeAt_of_channel? (hsame ▸ hchannel)]
    cases found with
    | error outcome => exact .inl ⟨outcome, rfl, rfl⟩
    | ok ch =>
      obtain ⟨hch, hthere⟩ := Site.hasChannel_of_channel? hw hchannel
      obtain ⟨hp, hguard⟩ := h.store.subscribe ch hch hthere (.callback n) rfl
      exact .inr ⟨_, _, _, _, rfl, rfl, hp, .some hguard⟩
  | none =>
    obtain ⟨tree, event, selector, rfl⟩ := Site.eq_events_of_channel? hchannel
    simp only [Workspace.subscribeAt, ← h.scope? tree]
    cases w.scope? tree with
    | error outcome => exact .inl ⟨outcome, rfl, rfl⟩
    | ok scope =>
      have hdelegate := h.store.delegate scope event selector (.callback n)
      simp only [Bind.bind, Except.bind]
      generalize w.store.delegate scope event selector (.callback n) = r,
        w'.store.delegate scope event selector (.callback n) = r' at hdelegate ⊢
      exact .inr ⟨r.1, r'.1, r.2, r'.2, rfl, rfl, hdelegate⟩

namespace Session

variable {x x' : Session}

/-- **Any command in both sessions.** -/
theorem perform_concert (h : x.workspace.Twin b x'.workspace) (hcallbacks : x.callbacks = x'.callbacks)
    (hw : x.workspace.Named) (hw' : x'.workspace.Named) {c : Command} (hdiscreet : c.Discreet b x.workspace) :
    Concert b x.workspace.store x'.workspace.store (x.deeds c) (x'.deeds c)
        ((x.perform c).1.workspace, (x.perform c).2) ((x'.perform c).1.workspace, (x'.perform c).2) ∧
      (x.perform c).1.callbacks = (x'.perform c).1.callbacks := by
  cases c with
  | act action => exact ⟨Action.concert h hw hw' hdiscreet, hcallbacks⟩
  | listen site as tag script limit =>
    simp only [Session.perform, Session.deeds, hcallbacks]
    rcases h.subscribeAt hw x'.callbacks.length site with ⟨outcome, hsite, hsite'⟩ | ⟨s, s', guard, guard', hsite, hsite',
      hp, hguard⟩
    · rw [hsite, hsite']
      exact ⟨concert_answer h _ _, hcallbacks⟩
    · rw [hsite, hsite']
      exact ⟨concert_assign h hp (.subscription hguard) as _ _, rfl⟩

end Session

end Databind
