import Databind.Proofs.Naming

/-!
# `Proofs.Performance` — commands are made of effects

Carrying out a command is a sequence of effects with the deeds of the command, and keeps names in order
(`Command.perform_does`). The lemmas follow the commands: lookups first, then each kind of command by its own
cases.
-/

namespace Databind

open Store

namespace Workspace

/-- A workspace between two operations: its scene is sound and its names are in order. -/
structure Sound (w : Workspace) (calls : List (Channel × List Nat)) : Prop where
  scene : Scene.Sound ⟨w.store, calls⟩
  named : w.Named

/-- Something done in a workspace: its effects have the given deeds, the tasks it leaves run call lists of their
own, and names are in order again. -/
structure Does (w : Workspace) (calls : List (Channel × List Nat)) (ds : List Deed)
    (r : Workspace × List Task) : Prop where
  effects : Effects ⟨w.store, calls⟩ ds ⟨r.1.store, callsOf r.2 ++ calls⟩
  named : r.1.Named

variable {w : Workspace} {calls : List (Channel × List Nat)} {ds : List Deed}

theorem does_answer (hw : w.Sound calls) (outcome : Outcome) : w.Does calls [] (w.answer outcome) :=
  ⟨.refl _, hw.named⟩

/-- **A command that looks something up** does nothing if it is not found. -/
theorem does_found {α : Type} (hw : w.Sound calls) {found : Except Outcome α} {deeds : α → List Deed}
    {go : α → Workspace × List Task} (h : ∀ a, found = .ok a → w.Does calls (deeds a) (go a)) :
    w.Does calls (foundDeeds found deeds) (w.withFound found go) := by
  cases found with
  | ok a => exact h a rfl
  | error outcome => exact does_answer hw outcome

/-- A command whose argument cannot be built does nothing. -/
theorem does_built {α : Type} (hw : w.Sound calls) {built : Except BindError α} {deeds : α → List Deed}
    {go : α → Workspace × List Task} (h : ∀ a, built = .ok a → w.Does calls (deeds a) (go a)) :
    w.Does calls (foundDeeds built deeds) (w.withBuilt built go) := by
  cases built with
  | ok a => exact h a rfl
  | error e => exact does_answer hw (.failed e)

/-- A command that has no deeds after a lookup. -/
theorem does_found_nothing {α : Type} (hw : w.Sound calls) {found : Except Outcome α}
    {go : α → Workspace × List Task} (h : ∀ a, found = .ok a → w.Does calls [] (go a)) :
    w.Does calls [] (w.withFound found go) := by
  cases found with
  | ok a => exact h a rfl
  | error outcome => exact does_answer hw outcome

theorem does_built_nothing {α : Type} (hw : w.Sound calls) {built : Except BindError α}
    {go : α → Workspace × List Task} (h : ∀ a, built = .ok a → w.Does calls [] (go a)) :
    w.Does calls [] (w.withBuilt built go) := by
  cases built with
  | ok a => exact h a rfl
  | error e => exact does_answer hw (.failed e)

/-- **A change of the store alone.** -/
theorem does_store (hw : w.Sound calls) {s' : Store} {tasks : List Task}
    (h : Effects ⟨w.store, calls⟩ ds ⟨s', callsOf tasks ++ calls⟩) (hlasting : Lasting ds) :
    w.Does calls ds (w.withStore s', tasks) :=
  ⟨h, hw.named.of_lasting (h.follows hw.scene) hlasting⟩

theorem lasting_nil : Lasting [] := by simp [Lasting, actsOf]

/-- A command that only adds something, or notes something. -/
theorem does_extends (hw : w.Sound calls) {s' : Store} (h : w.store.Extends s') (outcome : Outcome) :
    w.Does calls [] ((w.withStore s').answer outcome) :=
  does_store hw (.extended h calls) lasting_nil

/-- **A new object under a name**, after some effects. -/
theorem does_assign_after (hw : w.Sound calls) {s' : Store} (h : Effects ⟨w.store, calls⟩ ds ⟨s', calls⟩)
    (hlasting : Lasting ds) {handle : Handle} (hvalid : handle.Valid s') (name : String) (outcome : Outcome) :
    w.Does calls (ds ++ (w.withStore s').assignDeeds name handle)
      (((w.withStore s').assign name handle).answer outcome) := by
  have hnamed := hw.named.of_lasting (h.follows hw.scene) hlasting
  have hassign := assign_effects (w := w.withStore s') (h.sound hw.scene) (Named.but hnamed (some handle)) hvalid name
  exact ⟨h.trans hassign.1, hassign.2⟩

/-- **A command that makes something and names it**: what the name denoted is let go of. -/
theorem does_assign (hw : w.Sound calls) {s' : Store} (h : w.store.Extends s') {handle : Handle}
    (hvalid : handle.Valid s') (name : String) (outcome : Outcome) :
    w.Does calls ((w.withStore s').assignDeeds name handle)
      (((w.withStore s').assign name handle).answer outcome) :=
  does_assign_after hw (.extended h calls) lasting_nil hvalid name outcome

/-- A workspace whose store was extended is sound again. -/
theorem Sound.of_extends (hw : w.Sound calls) {s' : Store} (h : w.store.Extends s') :
    (w.withStore s').Sound calls :=
  ⟨(Effects.extended h calls).sound hw.scene,
    hw.named.of_lasting ((Effects.extended h calls).follows hw.scene) lasting_nil⟩

theorem Does.after_extends {s' : Store} {r : Workspace × List Task} (h : w.store.Extends s')
    (h' : (w.withStore s').Does calls ds r) : w.Does calls ds r :=
  ⟨.after_extends h h'.effects, h'.named⟩

/-! ## Lookups -/

theorem valid_of_handle? (hw : w.Named) {name : String} {h : Handle} (hh : w.handle? name = some h) :
    h.Valid w.store := hw.valid _ (mem_of_handle? hh)

/-- A tree that is looked up is there, and so is everything else that a name denotes. -/
theorem valid_scope? (hw : w.Named) {name : String} {scope : Scope} (h : w.scope? name = .ok scope) :
    scope.tree < w.store.trees.size := by
  unfold scope? at h
  split at h
  · next scope' hh =>
    cases h
    exact valid_of_handle? hw hh
  · cases h

theorem valid_record? (hw : w.Named) {name : String} {id : RecordId} (h : w.record? name = .ok id) :
    id.number < w.store.records.size := by
  unfold record? at h
  split at h
  · next id' hh =>
    cases h
    exact valid_of_handle? hw hh
  · cases h

theorem valid_collection? (hw : w.Named) {name : String} {c : Nat} (h : w.collection? name = .ok c) :
    c < w.store.collections.size := by
  unfold collection? at h
  split at h
  · next c' hh =>
    cases h
    exact valid_of_handle? hw hh
  · cases h

/-- A binder that a name denotes is not retired. -/
theorem valid_binder? (hw : w.Named) {name : String} {n : Nat} (h : w.binder? name = .ok n) :
    (w.store.binder n).retired = false := by
  unfold binder? at h
  split at h
  · next n' hh =>
    cases h
    exact valid_of_handle? hw hh
  · cases h

/-- The binder of a view that a name denotes is not retired either. -/
theorem valid_view? (hw : w.Named) {name : String} {v : Nat} (h : w.view? name = .ok v) :
    v < w.store.views.size ∧ (w.store.binder (w.store.view v).binder).retired = false := by
  unfold view? at h
  split at h
  · next v' hh =>
    cases h
    exact valid_of_handle? hw hh
  · cases h

theorem valid_list? (hw : w.Named) {name : String} {n : Nat} (h : w.list? name = .ok n) :
    n < w.store.lists.size := by
  unfold list? at h
  split at h
  · next n' hh =>
    cases h
    exact valid_of_handle? hw hh
  · cases h

/-- A collection that something is to be attached to is there. -/
theorem valid_source? (hw : w.Named) {ref : SourceRef} {source : Source} (h : w.source? ref = .ok source) :
    ∀ c, source = .collection c → c < w.store.collections.size := by
  rintro c rfl
  cases ref with
  | none => cases h
  | record name =>
    cases hrecord : w.record? name <;> simp [source?, hrecord, Except.map] at h
  | collection name =>
    cases hcollection : w.collection? name with
    | error e => simp [source?, hcollection, Except.map] at h
    | ok c' =>
      simp only [source?, hcollection, Except.map, Except.ok.injEq, Source.collection.injEq] at h
      exact h ▸ valid_collection? hw hcollection

end Workspace

/-! ## Records and collections -/

open Workspace

variable {w : Workspace} {calls : List (Channel × List Nat)}

theorem callsOf_reply (tasks : List Task) (outcome : Outcome) :
    callsOf (tasks ++ [.reply outcome]) = callsOf tasks := by
  simp [callsOf, Task.call?]

theorem lasting_writeDeeds (s : Store) (id : RecordId) : Lasting (s.writeDeeds id) := by
  unfold writeDeeds
  split <;> simp [Lasting, actsOf]

/-- **Commands to records.** -/
theorem RecordCommand.perform_does (hw : w.Sound calls) (command : RecordCommand) :
    w.Does calls (command.deeds w) (command.perform w) := by
  cases command with
  | make as fields =>
    refine does_assign hw (w.store.extends_addRecord (Fields.proper_ofEntries fields)) ?_ as _
    simp [Handle.Valid, addRecord, nextRecord]
  | write record entries =>
    refine does_found hw fun id _ => does_store hw ?_ ?_
    · rw [callsOf_reply]
      exact write_effects w.store id entries
    · exact lasting_writeDeeds _ id
  | get record names | has record name | state record =>
    exact does_found_nothing hw fun id _ => does_answer hw _
  | requestRender record =>
    exact does_found_nothing hw fun id _ => ⟨.refl _, hw.named⟩
  | destroy record =>
    refine does_found hw fun id _ => does_store hw ?_ (by simp [Lasting, actsOf])
    exact .after_extends (w.store.extends_log _ rfl) (.single (.destroyed id))
  | install record validator | clearValidator record =>
    refine does_found_nothing hw fun id _ => does_extends hw (w.store.extends_modifyRecord id ?_) _
    exact fun _ => ⟨rfl, rfl, rfl, rfl, rfl⟩

/-- **Commands to collections.** -/
theorem CollectionCommand.perform_does (hw : w.Sound calls) (command : CollectionCommand) :
    w.Does calls (command.deeds w) (command.perform w) := by
  cases command with
  | make as members =>
    refine does_found hw fun ids _ => does_assign hw (w.store.extends_addCollection ids) ?_ as _
    simp [Handle.Valid, addCollection]
  | listMembers collection | size collection | atIndex collection index | find collection key =>
    exact does_found_nothing hw fun c _ => does_answer hw _
  | resolve collection key =>
    exact does_found_nothing hw fun c _ => does_built_nothing hw fun id _ => does_answer hw _
  | add collection record =>
    refine does_found_nothing hw fun c _ => does_found_nothing hw fun id _ =>
      does_extends hw (w.store.extends_modifyCollection c ?_) _
    exact fun _ => ⟨rfl, rfl⟩
  | remove collection member =>
    exact does_found_nothing hw fun c _ => does_found_nothing hw fun id _ =>
      does_store hw (removeMember_effects w.store c id) lasting_nil
  | reset collection members =>
    exact does_found_nothing hw fun c _ => does_found_nothing hw fun ids _ =>
      does_store hw (resetMembers_effects w.store c ids) lasting_nil
  | reorder collection order =>
    refine does_found_nothing hw fun c _ => does_extends hw (w.store.extends_modifyCollection c ?_) _
    exact fun _ => ⟨rfl, rfl⟩
  | expand collection map defaultEvent =>
    exact does_found_nothing hw fun c _ => does_built_nothing hw fun map _ =>
      does_built_nothing hw fun plan _ => does_answer hw _

/-! ## Binders and views -/

theorem lasting_renderDeeds (s : Store) (n : Nat) (bs : List Binding) : Lasting (s.renderDeeds n bs) :=
  (mild_renderDeeds s n bs).lasting

/-- The answer of something that may fail to bind. -/
theorem Workspace.does_settled (hw : w.Sound calls) {ds : List Deed} {result : Store × Option BindError}
    (h : Effects ⟨w.store, calls⟩ ds ⟨result.1, calls⟩) (hmild : Mild ds) :
    w.Does calls ds (w.settled result) := does_store hw h hmild.lasting

/-- The binders of a workspace with one more. -/
theorem Workspace.Sound.addBinder (hw : w.Sound calls) {scope : Scope}
    (hscope : scope.tree < w.store.trees.size) (config : Config) {s' : Store}
    (h : (w.store.addBinder (.ofScope scope config)).Extends s') {handle : Handle}
    (hvalid : handle.Valid s') (hreaches : reaches s' w.store.binders.size handle = true) (name : String)
    (outcome : Outcome) :
    w.Does calls (.act w.store.binders.size .made :: (w.withStore s').assignDeeds name handle)
      (((w.withStore s').assign name handle).answer outcome) := by
  have heffects : Effects ⟨w.store, calls⟩ [.act w.store.binders.size .made] ⟨s', calls⟩ :=
    (Effects.single (.addedBinder scope config hscope)).then_extends h
  have hf := heffects.follows hw.scene
  -- a handle from before does not reach the new binder
  have hother : ∀ entry ∈ w.names, ∀ n, reaches w.store n entry.2 = true → n ≠ w.store.binders.size := by
    rintro ⟨name, handle⟩ hentry n hn rfl
    have hvalid := hw.named.valid _ hentry
    cases handle with
    | binder n =>
      have hlt := w.store.lt_of_not_retired hvalid
      have heq : n = w.store.binders.size := by simpa [reaches] using hn
      omega
    | view v =>
      have hlt := w.store.lt_of_not_retired hvalid.2
      have heq : (w.store.view v).binder = w.store.binders.size := by simpa [reaches] using hn
      omega
    | _ => simp [reaches] at hn
  have hnamed : NamedBut (some handle) (w.withStore s') := by
    refine ⟨hw.named.keys, fun entry hentry => ?_, fun n hn => ?_, hf.sourced hw.named.sourced⟩
    · refine (hw.named.valid entry hentry).of_follows hf fun n hn => ?_
      rw [actsOf_act_of_ne (hother entry hentry n hn)]
      simp
    · by_cases hnew : n = w.store.binders.size
      · exact .inr ⟨handle, rfl, hnew ▸ hreaches⟩
      · have hlive : (w.store.binder n).retired = false := by
          rw [← hf.binder n (actsOf_act_of_ne hnew _)]
          exact hn
        rcases hw.named.reached n hlive with ⟨entry, hentry, hreaches⟩ | ⟨_, hnone, -⟩
        · exact .inl ⟨entry, hentry, ((hw.named.valid entry hentry).reaches hf n).trans hreaches⟩
        · cases hnone
  have hassign := assign_effects (w := w.withStore s') (heffects.sound hw.scene) hnamed hvalid name
  exact ⟨heffects.trans hassign.1, hassign.2⟩

/-- **Commands to binders.** -/
theorem BinderCommand.perform_does (hw : w.Sound calls) (command : BinderCommand) :
    w.Does calls (command.deeds w) (command.perform w) := by
  cases command with
  | make as tree config =>
    refine does_found hw fun scope hscope => does_built hw fun config _ => ?_
    refine hw.addBinder (valid_scope? hw.named hscope) config (.refl _) ?_ (by simp [reaches]) as _
    simp [Handle.Valid, binder_addBinder, Binder.ofScope]
  | clone as binder =>
    refine does_found hw fun n hn => ?_
    have hvalid : (Handle.binder n).Valid w.store := valid_binder? hw.named hn
    exact does_assign hw (.refl w.store) hvalid as _
  | bind binder record property key twoWay autoRender =>
    refine does_found hw fun n hn => does_found hw fun id _ => does_built hw fun property _ => ?_
    refine does_settled hw (bind_effects hw.scene.store_wired (valid_binder? hw.named hn) ..) ?_
    unfold bindDeeds
    split
    · exact mild_commitDeeds _ _ _
    · simp [Mild]
  | unbind binder record key =>
    exact does_found hw fun n _ => does_found hw fun id _ =>
      does_store hw (unbind_effects w.store n id key) (by simp [Mild, Deed.isMild] : Mild _).lasting
  | unbindAll binder record =>
    exact does_found hw fun n _ => does_found hw fun id _ =>
      does_store hw (.single (.cleared n id)) (by simp [Mild, Deed.isMild] : Mild _).lasting
  | render binder record =>
    exact does_found hw fun n _ => does_found hw fun id _ =>
      does_store hw (renderBindings_effects w.store n id) (lasting_renderDeeds _ _ _)
  | attach binder source map autoRender =>
    refine does_found hw fun n hn => does_found hw fun source hsource => does_built hw fun map _ => ?_
    exact does_settled hw (attach_effects hw.scene (valid_binder? hw.named hn) (valid_source? hw.named hsource)
      map autoRender) (mild_attachDeeds _ _ _ _ _)
  | detach binder =>
    exact does_found hw fun n _ =>
      does_store hw (detach_effects w.store n) (mild_detachDeeds n).lasting
  | state binder | settings binder => exact does_found_nothing hw fun n _ => does_answer hw _
  | observing binder record =>
    exact does_found_nothing hw fun n _ => does_found_nothing hw fun id _ => does_answer hw _
  | query binder selector =>
    refine does_found_nothing hw fun n _ => ?_
    have hextends := (w.store.extends_observe (.query selector)).trans
      (extends_select _ (w.store.binder n).scope selector)
    generalize (w.store.observe (.query selector)).select (w.store.binder n).scope selector = r at hextends ⊢
    exact does_extends hw hextends _

/-- **Commands to views.** -/
theorem ViewCommand.perform_does (hw : w.Sound calls) (command : ViewCommand) :
    w.Does calls (command.deeds w) (command.perform w) := by
  -- a new view of a binder that is not retired, in a store that may have a new binder
  have hvalid (s : Store) (n : Nat) (source : Source) (map : BindingMap) (hn : (s.binder n).retired = false) :
      (Handle.view s.views.size).Valid (s.addView (.ofBinder n source map)) ∧
        reaches (s.addView (.ofBinder n source map)) n (.view s.views.size) = true := by
    have hview : (s.addView (.ofBinder n source map)).view s.views.size = .ofBinder n source map := by
      simp only [view, addView, getD_push, if_true]
    refine ⟨⟨by simp [addView], ?_⟩, ?_⟩
    · rw [hview]
      exact hn
    · simp only [reaches, hview]
      exact beq_self_eq_true n
  cases command with
  | make as host source map =>
    refine does_found hw fun source hsource => ?_
    have hsource := valid_source? hw.named hsource
    cases host with
    | shared binder =>
      refine does_found hw fun n hn => does_built hw fun map _ => ?_
      exact does_assign hw (w.store.extends_addView hsource)
        (hvalid _ n source map (valid_binder? hw.named hn)).1 as _
    | fresh tree config =>
      refine does_found hw fun scope hscope => does_built hw fun config _ => does_built hw fun map _ => ?_
      have hn : ((w.store.addBinder (.ofScope scope config)).binder w.store.binders.size).retired = false := by
        simp [binder_addBinder, Binder.ofScope]
      have hplace := hvalid _ _ source map hn
      exact hw.addBinder (valid_scope? hw.named hscope) config (extends_addView _ hsource) hplace.1 hplace.2
        as _
  | mount view =>
    refine does_found hw fun v hv => ?_
    exact does_settled hw (mount_effects hw.scene (valid_view? hw.named hv).2 hw.named.sourced)
      (mild_attachDeeds _ _ _ _ _)
  | unmount view =>
    exact does_found hw fun v _ => does_store hw (unmount_effects w.store v) (mild_unmountDeeds _ v).lasting
  | render view =>
    exact does_found hw fun v _ =>
      does_store hw (renderBindings_effects w.store _ none) (lasting_renderDeeds _ _ _)
  | state view => exact does_found_nothing hw fun v _ => does_answer hw _
  | setSource view source =>
    refine does_found_nothing hw fun v _ => does_found_nothing hw fun source hsource => ?_
    refine does_extends hw (w.store.extends_modifyView v ?_ ?_) _
    · exact fun _ => rfl
    · exact fun _ c hc => .inr (valid_source? hw.named hsource c hc)
  | setBindings view map =>
    refine does_found_nothing hw fun v _ => does_built_nothing hw fun map _ => ?_
    refine does_extends hw (w.store.extends_modifyView v ?_ ?_) _
    · exact fun _ => rfl
    · exact fun _ _ h => .inl h
  | handle as view =>
    refine does_found hw fun v hv => ?_
    have hvalid : (Handle.binder (w.store.view v).binder).Valid w.store := (valid_view? hw.named hv).2
    exact does_assign hw (.refl w.store) hvalid as _

/-! ## Trees, names and callbacks -/

/-- A command to an element: a query may come first, to find it. -/
theorem Workspace.does_element (hw : w.Sound calls) {ref : ElementRef}
    {deeds : Workspace → Nat → Nat → List Deed} {go : Workspace → Nat → Nat → Workspace × List Task}
    (h : ∀ w : Workspace, w.Sound calls → ∀ tree x, w.Does calls (deeds w tree x) (go w tree x)) :
    w.Does calls (w.elementDeeds ref deeds) (w.withElement ref go) := by
  cases ref with
  | saved name =>
    cases hh : w.handle? name with
    | none => simpa only [elementDeeds, withElement, hh] using does_answer hw _
    | some handle =>
      cases handle with
      | element tree x => simpa only [elementDeeds, withElement, hh] using h w hw tree x
      | _ => simpa only [elementDeeds, withElement, hh] using does_answer hw _
  | first tree selector =>
    refine does_found hw fun scope _ => ?_
    obtain ⟨store, found, hselect, hextends⟩ := w.store.exists_select scope selector
    rw [hselect]
    cases found with
    | nil => exact does_extends hw hextends _
    | cons x rest => exact (h _ (hw.of_extends hextends) _ _).after_extends hextends

/-- A command on an element that has no deeds. -/
theorem Workspace.does_element_nothing (hw : w.Sound calls) {ref : ElementRef}
    {go : Workspace → Nat → Nat → Workspace × List Task}
    (h : ∀ w : Workspace, w.Sound calls → ∀ tree x, w.Does calls [] (go w tree x)) :
    w.Does calls [] (w.withElement ref go) := by
  cases ref with
  | saved name =>
    simp only [withElement]
    split
    · exact h w hw _ _
    · exact does_answer hw _
  | first tree selector =>
    refine does_found_nothing hw fun scope _ => ?_
    obtain ⟨store, found, hselect, hextends⟩ := w.store.exists_select scope selector
    rw [hselect]
    cases found with
    | nil => exact does_extends hw hextends _
    | cons x rest => exact (h _ (hw.of_extends hextends) _ _).after_extends hextends

/-- **Commands to trees.** -/
theorem TreeCommand.perform_does (hw : w.Sound calls) (command : TreeCommand) :
    w.Does calls (command.deeds w) (command.perform w) := by
  cases command with
  | make as spec =>
    refine does_assign hw (w.store.extends_addTree (.ofSpec spec)) ?_ as _
    simp [Handle.Valid, addTree]
  | subtree as tree selector =>
    refine does_found hw fun scope hscope => ?_
    obtain ⟨store, found, hselect, hextends⟩ := w.store.exists_select scope selector
    rw [hselect]
    cases found with
    | nil => exact does_extends hw hextends _
    | cons x rest =>
      have htree := valid_scope? hw.named hscope
      have hvalid : (Handle.tree ⟨scope.tree, x⟩).Valid store := Nat.lt_of_lt_of_le htree hextends.trees
      exact does_assign hw hextends hvalid as _
  | save as tree selector nth =>
    refine does_found hw fun scope _ => ?_
    obtain ⟨store, found, hselect, hextends⟩ := w.store.exists_select scope selector
    simp only [hselect]
    cases found[nth]? with
    | none => exact does_extends hw hextends _
    | some x =>
      have hvalid : (Handle.element scope.tree x).Valid store := trivial
      exact does_assign hw hextends hvalid as _
  | select tree selector =>
    refine does_found_nothing hw fun scope _ => ?_
    obtain ⟨store, found, hselect, hextends⟩ := w.store.exists_select scope selector
    rw [hselect]
    exact does_extends hw hextends _
  | append as parent tree spec =>
    refine does_found hw fun scope _ => does_element hw fun w hw _ x => ?_
    have hvalid : (Handle.element scope.tree (w.store.arena scope.tree).size).Valid
        (w.store.modifyArena scope.tree fun arena => arena.append x spec) := trivial
    unfold strayDeeds
    split
    · next hx => exact does_assign hw (w.store.extends_modifyArena fun h => h.append hx spec) hvalid as _
    · exact does_assign_after hw (.single (.strayed scope.tree _)) (by simp [Lasting, actsOf]) hvalid as _
  | look element aspects | readBack element attr =>
    simp only [perform, deeds]
    exact does_element_nothing hw fun w hw _ _ => does_answer hw _
  | change element aspect value =>
    simp only [perform, deeds]
    refine does_element_nothing hw fun w hw tree x => ?_
    split
    · next arena hchange => exact does_extends hw (w.store.extends_modifyArena fun h => h.change? hchange) _
    · exact does_answer hw _
  | paint element attr value =>
    simp only [perform, deeds]
    exact does_element_nothing hw fun w hw tree x =>
      does_extends hw (w.store.extends_modifyArena fun h => h.paint x _ value) _
  | dump tree aspects =>
    refine does_found_nothing hw fun scope _ => ?_
    obtain ⟨store, found, hselect, hextends⟩ := w.store.exists_select scope "*"
    rw [hselect]
    exact does_extends hw hextends _
  | dispatch tree event target =>
    refine does_found_nothing hw fun scope _ => does_element_nothing hw fun w hw _ x => ?_
    exact does_store hw (fire_effects w.store scope.tree event x) lasting_nil
  | trigger tree event selector =>
    refine does_found_nothing hw fun scope _ => ?_
    obtain ⟨store, found, hselect, hextends⟩ := w.store.exists_select scope selector
    rw [hselect]
    exact does_store hw (.extended hextends calls) lasting_nil
  | delegations tree => exact does_found_nothing hw fun scope _ => does_answer hw _

/-- **Commands to names and free lists.** -/
theorem NameCommand.perform_does (hw : w.Sound calls) (command : NameCommand) :
    w.Does calls (command.deeds w) (command.perform w) := by
  cases command with
  | makeList as =>
    refine does_assign hw w.store.extends_addList ?_ as _
    simp [Handle.Valid, addList]
  | emit list text =>
    exact does_found_nothing hw fun n _ =>
      does_store hw (notify_effects w.store (.list n) (.emitted text)) lasting_nil
  | clear list =>
    exact does_found_nothing hw fun n _ => does_store hw (.single (.clearedList n)) lasting_nil
  | listState list => exact does_found_nothing hw fun n _ => does_answer hw _
  | drop name =>
    have hforget := forget_effects hw.scene hw.named name
    exact ⟨hforget.1, hforget.2⟩
  | inspect name =>
    simp only [perform]
    split <;> exact does_answer hw _

/-- **A command that subscribes nothing.** -/
theorem Action.perform_does (hw : w.Sound calls) (action : Action) :
    w.Does calls (action.deeds w) (action.perform w) := by
  cases action with
  | tree command => exact command.perform_does hw
  | record command => exact command.perform_does hw
  | collection command => exact command.perform_does hw
  | binder command => exact command.perform_does hw
  | view command => exact command.perform_does hw
  | name command => exact command.perform_does hw

/-- A new subscription of a callback is a callback's. -/
theorem valid_subscription {s s' : Store} (hs : s.Wired []) {ch : Channel} {x : Hearer} (hx : x.IsCallback)
    (hroster : s'.roster ch = (s.roster ch).subscribe x) :
    (Handle.subscription (some ⟨ch, (s.roster ch).next⟩)).Valid s' := by
  intro g hg
  cases hg
  simp only [Held, hroster]
  refine ⟨Nat.lt_succ_self _, fun y hy => ?_⟩
  rcases (Roster.holds_subscribe _ _).mp hy with hy | ⟨-, rfl⟩
  · exact absurd ((hs.rosters ch).lt_next hy) (Nat.lt_irrefl _)
  · exact hx

/-- The channel that a site names. Events have none: they are listened to on a tree. -/
def Site.channel? (w : Workspace) : Site → Option (Except Outcome Channel)
  | changes record => some ((w.record? record).map .changes)
  | requests record => some ((w.record? record).map .requests)
  | removals collection => some ((w.collection? collection).map .removals)
  | resets collection => some ((w.collection? collection).map .resets)
  | list name => some ((w.list? name).map .list)
  | events .. => none

/-- The channel that a site names is there. -/
theorem Site.hasChannel_of_channel? (hw : w.Named) {site : Site} {ch : Channel} (h : site.channel? w = some (.ok ch)) :
    ch.tree? = none ∧ w.store.HasChannel ch := by
  have hmap {α : Type} {found : Except Outcome α} {f : α → Channel} (h : some (found.map f) = some (.ok ch)) :
      ∃ a, found = .ok a ∧ ch = f a := by
    cases found with
    | error outcome => cases h
    | ok a => exact ⟨a, rfl, (Except.ok.inj (Option.some.inj h)).symm⟩
  cases site with
  | changes name | requests name =>
    obtain ⟨id, hfound, rfl⟩ := hmap h
    exact ⟨rfl, valid_record? hw hfound⟩
  | removals name | resets name =>
    obtain ⟨c, hfound, rfl⟩ := hmap h
    exact ⟨rfl, valid_collection? hw hfound⟩
  | list name =>
    obtain ⟨n, hfound, rfl⟩ := hmap h
    exact ⟨rfl, valid_list? hw hfound⟩
  | events tree event selector => cases h

/-- Any other site is one for events. -/
theorem Site.eq_events_of_channel? {site : Site} (h : site.channel? w = none) :
    ∃ tree event selector, site = .events tree event selector := by
  cases site with
  | events tree event selector => exact ⟨tree, event, selector, rfl⟩
  | _ => cases h

theorem subscribeAt_of_channel? {site : Site} {found : Except Outcome Channel} (h : site.channel? w = some found)
    (k : Nat) : w.subscribeAt k site = found.map fun ch =>
      ((w.store.subscribe ch (.callback k)).1, some (w.store.subscribe ch (.callback k)).2) := by
  cases site with
  | changes name | requests name =>
    cases h
    simp only [subscribeAt]
    cases w.record? name <;> rfl
  | removals name | resets name =>
    cases h
    simp only [subscribeAt]
    cases w.collection? name <;> rfl
  | list name =>
    cases h
    simp only [subscribeAt]
    cases w.list? name <;> rfl
  | events tree event selector => cases h

/-- **Where a callback is subscribed**: on the channel of the site, or as a handler on a tree. -/
theorem subscribeAt_eq_ok {k : Nat} {site : Site} {result : Store × Option Guard}
    (h : w.subscribeAt k site = .ok result) :
    (∃ ch, site.channel? w = some (.ok ch) ∧
      result = ((w.store.subscribe ch (.callback k)).1, some (w.store.subscribe ch (.callback k)).2)) ∨
    ∃ tree event selector scope, site = .events tree event selector ∧ w.scope? tree = .ok scope ∧
      result = w.store.delegate scope event selector (.callback k) := by
  cases hchannel : site.channel? w with
  | some found =>
    rw [subscribeAt_of_channel? hchannel] at h
    cases found with
    | error outcome => cases h
    | ok ch => exact .inl ⟨ch, rfl, (Except.ok.inj h).symm⟩
  | none =>
    obtain ⟨tree, event, selector, rfl⟩ := Site.eq_events_of_channel? hchannel
    simp only [subscribeAt] at h
    cases hscope : w.scope? tree with
    | error outcome =>
      rw [hscope] at h
      cases h
    | ok scope =>
      rw [hscope] at h
      exact .inr ⟨tree, event, selector, scope, rfl, hscope, (Except.ok.inj h).symm⟩

/-- Subscribing a callback on a channel that is there. -/
theorem subscribe_valid (hw : w.Sound calls) {ch : Channel} (htree : ch.tree? = none)
    (hthere : w.store.HasChannel ch) (k : Nat) :
    Effects ⟨w.store, calls⟩ [] ⟨(w.store.subscribe ch (.callback k)).1, calls⟩ ∧
      (Handle.subscription (some (w.store.subscribe ch (.callback k)).2)).Valid
        (w.store.subscribe ch (.callback k)).1 := by
  refine ⟨.single (.subscribed ch k), ?_⟩
  rw [guard_subscribe w.store _ htree]
  refine valid_subscription (x := .listener (.callback k)) hw.scene.store_wired ⟨k, rfl⟩ ?_
  rw [roster_subscribe w.store _ htree, if_pos ⟨rfl, hthere⟩]

/-- A callback attached to a tree is named by its guard, or by none if its text is no selector. -/
theorem delegate_valid (hw : w.Sound calls) {scope : Scope} (hscope : scope.tree < w.store.trees.size)
    (event text : String) (k : Nat) :
    Effects ⟨w.store, calls⟩ [] ⟨(w.store.delegate scope event text (.callback k)).1, calls⟩ ∧
      (Handle.subscription (w.store.delegate scope event text (.callback k)).2).Valid
        (w.store.delegate scope event text (.callback k)).1 := by
  have hattach (selector : Option Selector) :
      (Handle.subscription (some (w.store.attachHandler scope event selector (.callback k)).2)).Valid
        (w.store.attachHandler scope event selector (.callback k)).1 := by
    refine valid_subscription (x := .handler ⟨event, selector, scope.root, .callback k⟩)
      hw.scene.store_wired ⟨k, rfl⟩ ?_
    rw [roster_attachHandler, if_pos ⟨rfl, hscope⟩]
  unfold delegate
  split
  · exact ⟨.single (.delegated scope event none k), hattach none⟩
  · split
    · next selector _ => exact ⟨.single (.delegated scope event (some selector) k), hattach _⟩
    · exact ⟨.extended (w.store.extends_log _ rfl) calls, fun g hg => by cases hg⟩

/-- **A callback subscribes at a site**, and the guard that it gets is its own. -/
theorem subscribeAt_valid (hw : w.Sound calls) {k : Nat} {site : Site} {store : Store} {guard : Option Guard}
    (h : w.subscribeAt k site = .ok (store, guard)) :
    Effects ⟨w.store, calls⟩ [] ⟨store, calls⟩ ∧ (Handle.subscription guard).Valid store := by
  obtain ⟨ch, hsite, heq⟩ | ⟨tree, event, selector, scope, -, hscope, heq⟩ := subscribeAt_eq_ok h
  · obtain ⟨rfl, rfl⟩ := Prod.mk.inj heq
    obtain ⟨hch, hthere⟩ := Site.hasChannel_of_channel? hw.named hsite
    exact subscribe_valid hw hch hthere k
  · have hdelegate := delegate_valid hw (valid_scope? hw.named hscope) event selector k
    rwa [← heq] at hdelegate

/-- **Every command** is made of effects with its deeds, and keeps names in order. -/
theorem Session.perform_does (s : Session) (hw : s.workspace.Sound calls) (c : Command) :
    s.workspace.Does calls (s.deeds c) ((s.perform c).1.workspace, (s.perform c).2) := by
  cases c with
  | act action =>
    have h := action.perform_does hw
    simp only [Session.perform, Session.deeds]
    exact h
  | listen site as tag script limit =>
    simp only [Session.perform, Session.deeds]
    cases hsite : s.workspace.subscribeAt s.callbacks.length site with
    | error outcome => exact does_answer hw outcome
    | ok found =>
      obtain ⟨store, guard⟩ := found
      obtain ⟨heffects, hvalid⟩ := subscribeAt_valid hw hsite
      have hnamed := hw.named.of_lasting (heffects.follows hw.scene) lasting_nil
      have hassign := assign_effects (w := s.workspace.withStore store) (heffects.sound hw.scene)
        (Named.but hnamed (some (.subscription guard))) hvalid as
      exact ⟨heffects.trans hassign.1, hassign.2⟩

end Databind
