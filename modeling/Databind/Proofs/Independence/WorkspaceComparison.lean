import Databind.Proofs.Independence.SharedDeeds
import Databind.Proofs.Holding

/-!
# `Proofs.Independence.WorkspaceComparison` — workspaces that are the same but for the stranger

Names denote the same objects in twin workspaces; a subscription is the same if its guards are tied. One name is
excepted: it may denote the stranger on one side and nothing on the other, which is what dropping it leaves.

## Main definitions

* `Workspace.Twin` — two workspaces that are the same but for the stranger.
* `Workspace.Concert` — something done in both of them, with its deeds and what it leaves to do.
* `Workspace.Aloof` — something done in one of them that shows nowhere but in the stranger.
-/

namespace Databind

open Store

/-! ## Handles and names -/

/-- What a name denotes on either side: the same object, or the same subscription. -/
inductive Handle.Twin (b : Stranger) (s s' : Store) : Handle → Handle → Prop
  | same {h : Handle} (hh : ∀ guard, h ≠ .subscription guard) : Handle.Twin b s s' h h
  | subscription {guard guard' : Option Guard} (hguard : s.SameGuard? b s' guard guard') :
    Handle.Twin b s s' (.subscription guard) (.subscription guard')

/-- A name denotes nothing, or the stranger. -/
def Stranger.Hides (b : Stranger) (handle : Option Handle) : Prop := ∀ h, handle = some h → h = .binder b.binder

/-- A handle denotes the same on both sides after a change. -/
theorem Store.Paired.handle {b : Stranger} {s s' t t' : Store} (hp : Paired b s s' t t') {h h' : Handle}
    (hh : h.Twin b s s' h') : h.Twin b t t' h' := by
  cases hh with
  | same hh => exact .same hh
  | subscription hguard => exact .subscription (rel_imp (fun _ _ => hp.guard) hguard)

theorem Handle.Twin.symm {b : Stranger} {s s' : Store} {h h' : Handle} (hh : h.Twin b s s' h') : h'.Twin b s' s h := by
  cases hh with
  | same hh => exact .same hh
  | subscription hguard => exact .subscription (rel_symm (fun _ _ hg => hg.symm) hguard)

namespace Workspace

variable {b : Stranger} {w w' : Workspace} {s s' : Store}

/-- **Two workspaces are the same but for the stranger**, and for the name that may denote it or nothing. -/
structure Twin (b : Stranger) (w w' : Workspace) : Prop where
  store : w.store.Twin b w'.store
  keys : (w.names.map Prod.fst).Nodup
  keys' : (w'.names.map Prod.fst).Nodup
  names : ∀ name, Option.Rel (Handle.Twin b w.store w'.store) (w.handle? name) (w'.handle? name) ∨
    b.name = some name ∧ b.Hides (w.handle? name) ∧ b.Hides (w'.handle? name)

/-- **Something done in both workspaces**, with its deeds and what it leaves to do. -/
structure Concert (b : Stranger) (s s' : Store) (ds ds' : List Deed) (r r' : Workspace × List Task) : Prop where
  twin : r.1.Twin b r'.1
  paired : Paired b s s' r.1.store r'.1.store
  tasks : List.Forall₂ (Task.Twin b r.1.store r'.1.store) r.2 r'.2
  deeds : b.besides ds = b.besides ds'

/-- **Something done aside**: it gives an answer, and shows nowhere but in the stranger. -/
def Aloof (b : Stranger) (w : Workspace) (ds : List Deed) (r : Workspace × List Task) : Prop :=
  b.besides ds = [] ∧ ∃ s outcome, r = (w.withStore s).answer outcome ∧ w.store.Aside b s

namespace Twin

variable (h : w.Twin b w')
include h

theorem symm : w'.Twin b w where
  store := h.store.symm
  keys := h.keys'
  keys' := h.keys
  names name := (h.names name).imp (rel_symm fun _ _ hh => hh.symm) fun ⟨hname, hhides, hhides'⟩ =>
    ⟨hname, hhides', hhides⟩

/-- The store of a workspace is exchanged on both sides. -/
theorem withStore (hp : Paired b w.store w'.store s s') : (w.withStore s).Twin b (w'.withStore s') where
  store := hp.twin
  keys := h.keys
  keys' := h.keys'
  names name := (h.names name).imp_left (rel_imp fun _ _ => hp.handle)

/-! ## Lookups -/

/-- **What a name denotes is the same**, if it is neither a binder nor a subscription. -/
theorem handle?_eq (name : String) (handle : Handle) (hbinder : ∀ n, handle ≠ .binder n)
    (hsubscription : ∀ guard, handle ≠ .subscription guard) :
    w.handle? name = some handle ↔ w'.handle? name = some handle := by
  have hone {w w' : Workspace} (h : w.Twin b w') (hhandle : w.handle? name = some handle) :
      w'.handle? name = some handle := by
    rcases h.names name with hrel | ⟨-, hhides, -⟩
    · rw [hhandle] at hrel
      generalize w'.handle? name = handle' at hrel ⊢
      cases hrel with
      | some hh =>
        cases hh with
        | same => rfl
        | subscription => exact absurd rfl (hsubscription _)
    · exact absurd (hhides handle hhandle) (hbinder _)
  exact ⟨hone h, hone h.symm⟩

theorem scope? (name : String) : w.scope? name = w'.scope? name := by
  have hiff (scope : Scope) := h.handle?_eq name (.tree scope) nofun nofun
  unfold Workspace.scope?
  split
  · next scope hscope => rw [(hiff scope).mp hscope]
  · next hno =>
    split
    · next scope hscope => exact absurd ((hiff scope).mpr hscope) (hno scope)
    · rfl

theorem record? (name : String) : w.record? name = w'.record? name := by
  have hiff (id : RecordId) := h.handle?_eq name (.record id) nofun nofun
  unfold Workspace.record?
  split
  · next id hid => rw [(hiff id).mp hid]
  · next hno =>
    split
    · next id hid => exact absurd ((hiff id).mpr hid) (hno id)
    · rfl

theorem collection? (name : String) : w.collection? name = w'.collection? name := by
  have hiff (c : Nat) := h.handle?_eq name (.collection c) nofun nofun
  unfold Workspace.collection?
  split
  · next c hc => rw [(hiff c).mp hc]
  · next hno =>
    split
    · next c hc => exact absurd ((hiff c).mpr hc) (hno c)
    · rfl

theorem view? (name : String) : w.view? name = w'.view? name := by
  have hiff (v : Nat) := h.handle?_eq name (.view v) nofun nofun
  unfold Workspace.view?
  split
  · next v hv => rw [(hiff v).mp hv]
  · next hno =>
    split
    · next v hv => exact absurd ((hiff v).mpr hv) (hno v)
    · rfl

theorem list? (name : String) : w.list? name = w'.list? name := by
  have hiff (n : Nat) := h.handle?_eq name (.list n) nofun nofun
  unfold Workspace.list?
  split
  · next n hn => rw [(hiff n).mp hn]
  · next hno =>
    split
    · next n hn => exact absurd ((hiff n).mpr hn) (hno n)
    · rfl

/-- A reference to a record is looked up by name, or is a number. -/
theorem recordRef? (ref : RecordRef) : w.recordRef? ref = w'.recordRef? ref := by
  cases ref with
  | named name => exact h.record? name
  | raw id => rfl

theorem optionalRecord? (ref : Option RecordRef) : w.optionalRecord? ref = w'.optionalRecord? ref := by
  cases ref with
  | none => rfl
  | some ref => simp only [Workspace.optionalRecord?, h.recordRef?]

theorem records? (names : List String) : w.records? names = w'.records? names := by
  induction names with
  | nil => rfl
  | cons name rest ih => simp only [Workspace.records?, h.record?, ih]

/-- A source denotes the same record, or the same collection. -/
theorem source? (ref : SourceRef) : w.source? ref = w'.source? ref := by
  cases ref <;> simp only [Workspace.source?, h.record?, h.collection?]

/-- **A name denotes the same binder**, or may denote the stranger on one side and nothing on the other. -/
theorem binder? (name : String) : w.binder? name = w'.binder? name ∨
    b.name = some name ∧ (∀ n, w.binder? name = .ok n → n = b.binder) ∧
      ∀ n, w'.binder? name = .ok n → n = b.binder := by
  have hhidden {w : Workspace} (hhides : b.Hides (w.handle? name)) (n : Nat) (hn : w.binder? name = .ok n) :
      n = b.binder := by
    unfold Workspace.binder? at hn
    split at hn
    · next m hm =>
      cases hn
      exact Handle.binder.inj (hhides _ hm)
    · cases hn
  rcases h.names name with hrel | ⟨hname, hhides, hhides'⟩
  · left
    unfold Workspace.binder?
    generalize w.handle? name = handle, w'.handle? name = handle' at hrel
    cases hrel with
    | none => rfl
    | some hh => cases hh <;> rfl
  · exact .inr ⟨hname, hhidden hhides, hhidden hhides'⟩

end Twin

/-! ## Answers -/

/-- Something is done to the stores, and leaves tasks. -/
theorem concert_store (h : w.Twin b w') {ds ds' : List Deed} (hds : b.besides ds = b.besides ds')
    {tasks tasks' : List Task} (hr : Concerted b w.store w'.store (s, tasks) (s', tasks')) :
    Concert b w.store w'.store ds ds' (w.withStore s, tasks) (w'.withStore s', tasks') :=
  ⟨h.withStore hr.paired, hr.paired, hr.tasks, hds⟩

/-- Something is done to the stores, and an answer is given: answers may tell of the stranger. -/
theorem concert_answered (h : w.Twin b w') {ds ds' : List Deed} (hds : b.besides ds = b.besides ds')
    (hp : Paired b w.store w'.store s s') (outcome outcome' : Outcome) :
    Concert b w.store w'.store ds ds' ((w.withStore s).answer outcome) ((w'.withStore s').answer outcome') :=
  concert_store h hds ⟨hp, .cons (.reply _ _) .nil⟩

theorem concert_answer (h : w.Twin b w') (outcome outcome' : Outcome) :
    Concert b w.store w'.store [] [] (w.answer outcome) (w'.answer outcome') := concert_answered h rfl (.refl h.store) _ _

/-- **What is done aside in both workspaces.** -/
theorem concert_aloof (h : w.Twin b w') {ds ds' : List Deed} {r r' : Workspace × List Task} (hr : w.Aloof b ds r)
    (hr' : w'.Aloof b ds' r') : Concert b w.store w'.store ds ds' r r' := by
  obtain ⟨hds, s, outcome, rfl, haside⟩ := hr
  obtain ⟨hds', s', outcome', rfl, haside'⟩ := hr'
  exact concert_answered h (hds.trans hds'.symm) (h.store.aside haside haside') _ _

/-- First something is done to both stores. -/
theorem Concert.after {t t' : Store} (hp : Paired b s s' t t') {ds ds' : List Deed} {r r' : Workspace × List Task}
    (hr : Concert b t t' ds ds' r r') : Concert b s s' ds ds' r r' :=
  ⟨hr.twin, hp.trans hr.paired, hr.tasks, hr.deeds⟩

/-- Deeds that come first on both sides. -/
theorem Concert.behind {ds ds' : List Deed} {r r' : Workspace × List Task} (h : Concert b s s' ds ds' r r')
    (first : List Deed) : Concert b s s' (first ++ ds) (first ++ ds') r r' :=
  ⟨h.twin, h.paired, h.tasks, by rw [b.besides_append, h.deeds, b.besides_append]⟩

/-- **A lookup that comes to the same** on both sides, and what is done then. -/
theorem concert_found {α : Type} {found found' : Except Outcome α} {deeds deeds' : α → List Deed}
    {go go' : α → Workspace × List Task} (h : w.Twin b w') (hfound : found = found')
    (hgo : ∀ a, found = .ok a → Concert b w.store w'.store (deeds a) (deeds' a) (go a) (go' a)) :
    Concert b w.store w'.store (foundDeeds found deeds) (foundDeeds found' deeds') (w.withFound found go)
      (w'.withFound found' go') := by
  subst hfound
  cases found with
  | ok a => exact hgo a rfl
  | error outcome => exact concert_answer h _ _

/-- An argument that is built, and what is done then. -/
theorem concert_built {α : Type} {built : Except BindError α} {deeds deeds' : α → List Deed}
    {go go' : α → Workspace × List Task} (h : w.Twin b w')
    (hgo : ∀ a, Concert b w.store w'.store (deeds a) (deeds' a) (go a) (go' a)) :
    Concert b w.store w'.store (foundDeeds built deeds) (foundDeeds built deeds') (w.withBuilt built go)
      (w'.withBuilt built go') := by
  cases built with
  | ok a => exact hgo a
  | error e => exact concert_answer h _ _

theorem foundDeeds_nil {ε α : Type} (found : Except ε α) : foundDeeds found (fun _ => []) = [] := by
  cases found <;> rfl

/-- The same where nothing is done to anybody. -/
theorem concert_found_nothing {α : Type} {found found' : Except Outcome α} {go go' : α → Workspace × List Task}
    (h : w.Twin b w') (hfound : found = found')
    (hgo : ∀ a, found = .ok a → Concert b w.store w'.store [] [] (go a) (go' a)) :
    Concert b w.store w'.store [] [] (w.withFound found go) (w'.withFound found' go') := by
  have hboth : Concert b w.store w'.store (foundDeeds found fun _ => []) (foundDeeds found' fun _ => []) _ _ :=
    concert_found h hfound hgo
  rwa [foundDeeds_nil, foundDeeds_nil] at hboth

theorem concert_built_nothing {α : Type} {built : Except BindError α} {go go' : α → Workspace × List Task}
    (h : w.Twin b w') (hgo : ∀ a, Concert b w.store w'.store [] [] (go a) (go' a)) :
    Concert b w.store w'.store [] [] (w.withBuilt built go) (w'.withBuilt built go') := by
  have hboth : Concert b w.store w'.store (foundDeeds built fun _ => []) (foundDeeds built fun _ => []) _ _ :=
    concert_built h hgo
  rwa [foundDeeds_nil] at hboth

theorem aloof_answered (h : w.store.Aside b s) {ds : List Deed} (hds : b.besides ds = []) (outcome : Outcome) :
    w.Aloof b ds ((w.withStore s).answer outcome) := ⟨hds, s, outcome, rfl, h⟩

theorem aloof_answer (h : w.store.Kept b) (outcome : Outcome) : w.Aloof b [] (w.answer outcome) :=
  aloof_answered h.refl rfl outcome

/-- A lookup on one side only, and what is done to the stranger then. -/
theorem aloof_found {α : Type} {found : Except Outcome α} {deeds : α → List Deed} {go : α → Workspace × List Task}
    (h : w.store.Kept b) (hgo : ∀ a, found = .ok a → w.Aloof b (deeds a) (go a)) :
    w.Aloof b (foundDeeds found deeds) (w.withFound found go) := by
  cases found with
  | ok a => exact hgo a rfl
  | error outcome => exact aloof_answer h _

theorem aloof_found_nothing {α : Type} {found : Except Outcome α} {go : α → Workspace × List Task} (h : w.store.Kept b)
    (hgo : ∀ a, found = .ok a → w.Aloof b [] (go a)) : w.Aloof b [] (w.withFound found go) := by
  have hdone : w.Aloof b (foundDeeds found fun _ => []) (w.withFound found go) := aloof_found h hgo
  rwa [foundDeeds_nil] at hdone

/-- An argument that is built on one side only. -/
theorem aloof_built {α : Type} {built : Except BindError α} {deeds : α → List Deed} {go : α → Workspace × List Task}
    (h : w.store.Kept b) (hgo : ∀ a, w.Aloof b (deeds a) (go a)) :
    w.Aloof b (foundDeeds built deeds) (w.withBuilt built go) := by
  cases built with
  | ok a => exact hgo a
  | error e => exact aloof_answer h _

/-! ## Giving and dropping names -/

/-- A handle reaches the same binders on both sides. -/
theorem reaches_eq (h : s.Twin b s') {handle handle' : Handle} (hh : handle.Twin b s s' handle') (n : Nat) :
    reaches s n handle = reaches s' n handle' := by
  cases hh with
  | same => cases handle <;> simp only [reaches, h.view_binder]
  | subscription => rfl

/-- The same binders other than the stranger are reached. -/
theorem Twin.reached (h : w.Twin b w') {n : Nat} (hn : n ≠ b.binder) :
    (w.names.any fun entry => reaches w.store n entry.2) = (w'.names.any fun entry => reaches w'.store n entry.2) := by
  have hone {w w' : Workspace} (h : w.Twin b w')
      (hany : (w.names.any fun entry => reaches w.store n entry.2) = true) :
      (w'.names.any fun entry => reaches w'.store n entry.2) = true := by
    obtain ⟨⟨name, handle⟩, hentry, hreaches⟩ := List.any_eq_true.mp hany
    have hhandle : w.handle? name = some handle := handle?_of_nodup h.keys hentry
    rcases h.names name with hrel | ⟨-, hhides, -⟩
    · rw [hhandle] at hrel
      cases hhandle' : w'.handle? name with
      | none =>
        rw [hhandle'] at hrel
        cases hrel
      | some handle' =>
        rw [hhandle'] at hrel
        obtain ⟨hh⟩ := hrel
        exact List.any_eq_true.mpr ⟨(name, handle'), mem_of_handle? hhandle', reaches_eq h.store hh n ▸ hreaches⟩
    · rw [hhides _ hhandle] at hreaches
      exact absurd (beq_iff_eq.mp hreaches).symm hn
  exact Bool.eq_iff_iff.mpr ⟨hone h, hone h.symm⟩

/-- Retiring the stranger shows nowhere else. -/
theorem aside_retireUnreached (h : w.store.Kept b) : w.store.Aside b (w.retireUnreached b.binder).store := by
  unfold retireUnreached
  split
  · exact h.refl
  · exact h.retire

/-- **A binder that no name reaches retires** on both sides: the one name that may differ reaches the stranger only.
-/
theorem Twin.retireUnreached (h : w.Twin b w') (n : Nat) :
    Paired b w.store w'.store (w.retireUnreached n).store (w'.retireUnreached n).store := by
  by_cases hn : n = b.binder
  · subst hn
    exact h.store.aside (aside_retireUnreached h.store.kept) (aside_retireUnreached h.store.kept')
  · unfold Workspace.retireUnreached
    rw [h.reached hn]
    split
    · exact .refl h.store
    · exact h.store.retire hn

/-- Nothing is done but to the stranger when it is retired. -/
theorem besides_retireDeeds (w : Workspace) : b.besides (w.retireDeeds b.binder) = [] := by
  unfold retireDeeds
  split
  · rfl
  · exact b.besides_own fun d hd => List.mem_singleton.mp hd ▸ beq_self_eq_true _

/-- A binder retires on both sides, or on neither, unless it is the stranger. -/
theorem Twin.retireDeeds (h : w.Twin b w') (n : Nat) :
    b.besides (w.retireDeeds n) = b.besides (w'.retireDeeds n) := by
  by_cases hn : n = b.binder
  · subst hn
    rw [besides_retireDeeds, besides_retireDeeds]
  · unfold Workspace.retireDeeds
    rw [h.reached hn]

/-- **Letting go of the same handle.** -/
theorem Twin.letGo (h : w.Twin b w') {old old' : Handle} (hold : old.Twin b w.store w'.store old') :
    Paired b w.store w'.store (w.letGo old).store (w'.letGo old').store := by
  cases hold with
  | subscription hguard => exact h.store.dropAll (rel_toList hguard)
  | same hh =>
    cases old with
    | binder n => exact h.retireUnreached n
    | view v =>
      have hunmount := h.store.unmount v
      simp only [Workspace.letGo]
      rw [← h.store.view_binder]
      exact hunmount.trans ((h.withStore hunmount).retireUnreached _)
    | subscription guard => exact absurd rfl (hh guard)
    | _ => exact .refl h.store

/-- What is let go of is the same but for the stranger. -/
theorem Twin.letGoDeeds (h : w.Twin b w') {old old' : Handle} (hold : old.Twin b w.store w'.store old') :
    b.besides (w.letGoDeeds old) = b.besides (w'.letGoDeeds old') := by
  cases hold with
  | subscription hguard => rfl
  | same hh =>
    cases old with
    | binder n => exact h.retireDeeds n
    | view v =>
      have hretired := (h.withStore (h.store.unmount v)).retireDeeds (w.store.view v).binder
      simp only [Workspace.letGoDeeds, b.besides_append, h.store.unmountDeeds v]
      rw [← h.store.view_binder]
      exact congrArg _ hretired
    | _ => rfl

def letGoDeeds? (w : Workspace) (old : Option Handle) : List Deed := old.elim [] w.letGoDeeds

/-- **Letting go of the stranger shows nowhere else.** -/
theorem aside_letGo? (h : w.store.Kept b) {old : Option Handle} (hold : b.Hides old) :
    w.store.Aside b (w.letGo? old).store ∧ b.besides (w.letGoDeeds? old) = [] := by
  cases old with
  | none => exact ⟨h.refl, rfl⟩
  | some old =>
    obtain rfl := hold _ rfl
    exact ⟨aside_retireUnreached h, besides_retireDeeds w⟩

/-- **A name that stops denoting what it denoted**, on both sides. -/
theorem Twin.letGo? (h : w.Twin b w') {old old' : Option Handle}
    (hold : Option.Rel (Handle.Twin b w.store w'.store) old old' ∨ b.Hides old ∧ b.Hides old')
    (outcome outcome' : Outcome) :
    Concert b w.store w'.store (w.letGoDeeds? old) (w'.letGoDeeds? old') ((w.letGo? old).answer outcome)
      ((w'.letGo? old').answer outcome') := by
  have hdone : Paired b w.store w'.store (w.letGo? old).store (w'.letGo? old').store ∧
      b.besides (w.letGoDeeds? old) = b.besides (w'.letGoDeeds? old') := by
    rcases hold with hrel | ⟨hhides, hhides'⟩
    · cases hrel with
      | none => exact ⟨.refl h.store, rfl⟩
      | some hh => exact ⟨h.letGo hh, h.letGoDeeds hh⟩
    · obtain ⟨haside, hdeeds⟩ := aside_letGo? h.store.kept hhides
      obtain ⟨haside', hdeeds'⟩ := aside_letGo? h.store.kept' hhides'
      exact ⟨h.store.aside haside haside', hdeeds.trans hdeeds'.symm⟩
  have hsame (w : Workspace) (old : Option Handle) : w.letGo? old = w.withStore (w.letGo? old).store :=
    congrArg (Workspace.mk _) (names_letGo? w old)
  rw [hsame w old, hsame w' old']
  exact concert_answered h hdone.2 hdone.1 _ _

/-- A name is taken away on both sides. -/
theorem Twin.unnamed (h : w.Twin b w') (name : String) :
    Twin b { w with names := w.names.filter (·.1 ≠ name) } { w' with names := w'.names.filter (·.1 ≠ name) } where
  store := h.store
  keys := keys_filter h.keys name
  keys' := keys_filter h.keys' name
  names name' := by
    have hhandle (w : Workspace) : handle? { w with names := w.names.filter (·.1 ≠ name) } name' =
        if name' = name then none else w.handle? name' := w.handle?_filter name name'
    rw [hhandle, hhandle]
    split
    · exact .inl .none
    · exact h.names name'

/-- A name is given on both sides. -/
theorem Twin.named (h : w.Twin b w') (name : String) {handle handle' : Handle}
    (hh : handle.Twin b w.store w'.store handle') :
    Twin b { w with names := (name, handle) :: w.names.filter (·.1 ≠ name) }
      { w' with names := (name, handle') :: w'.names.filter (·.1 ≠ name) } where
  store := h.store
  keys := by simpa using keys_filter h.keys name
  keys' := by simpa using keys_filter h.keys' name
  names name' := by
    have hhandle (w : Workspace) (handle : Handle) :
        handle? { w with names := (name, handle) :: w.names.filter (·.1 ≠ name) } name' =
          if name' = name then some handle else w.handle? name' := by
      simp only [handle?, Dict.lookup_cons_ite, handle?_filter]
      split <;> rfl
    rw [hhandle, hhandle]
    split
    · exact .inl (.some hh)
    · exact h.names name'

/-- **Giving a name to the same object.** -/
theorem concert_assign (h : w.Twin b w') (hp : Paired b w.store w'.store s s') {handle handle' : Handle}
    (hh : handle.Twin b s s' handle') (name : String) (outcome outcome' : Outcome) :
    Concert b w.store w'.store ((w.withStore s).assignDeeds name handle) ((w'.withStore s').assignDeeds name handle')
      (((w.withStore s).assign name handle).answer outcome) (((w'.withStore s').assign name handle').answer outcome') :=
  have htwin := h.withStore hp
  .after hp ((htwin.named name hh).letGo? ((htwin.names name).imp_right And.right) _ _)

/-- **A name is dropped** on both sides. -/
theorem concert_forget (h : w.Twin b w') (name : String) (outcome outcome' : Outcome) :
    Concert b w.store w'.store (w.forgetDeeds name) (w'.forgetDeeds name) ((w.forget name).1.answer outcome)
      ((w'.forget name).1.answer outcome') := by
  rw [forget_eq, forget_eq]
  exact (h.unnamed name).letGo? ((h.names name).imp_right And.right) _ _

end Workspace

end Databind
