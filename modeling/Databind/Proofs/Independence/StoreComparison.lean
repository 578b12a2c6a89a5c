import Databind.Proofs.Independence.BinderComparison
import Databind.Proofs.Independence.RosterComparison

/-!
# `Proofs.Independence.StoreComparison` — two stores that differ in one binder

One binder, the stranger, is left out of account, with its listeners and the tree into which it renders. Twins are two
stores that are the same but for it. Of the other binders they have the same up to the identities in their guards, which
are tied on the rosters of both sides.

## Main definitions

* `Stranger` — the binder that is left out of account.
* `Store.Kept` — the stranger renders into its tree, and its guards are of its own listeners.
* `Store.Twin` — two stores are the same but for the stranger.
* `Store.Paired` — twins become twins, and what was tied stays tied.
-/

namespace Databind

/-- A binder that is left out of account, the tree into which it renders, and a name that may denote it on one side
and nothing on the other. -/
structure Stranger where
  binder : Nat
  tree : Nat
  name : Option String

/-- A record without those who listen to it. -/
def Record.plain (r : Record) : Record := { r with changes := .empty, requests := .empty }

/-- A view without what it holds of a binder. -/
def View.apart (n : Nat) (x : View) : View := if x.binder = n then { x with owned := [], ownsCollection := false } else x

/-- How many objects there are of each kind. -/
structure Sizes where
  records : Nat
  collections : Nat
  trees : Nat
  binders : Nat
  views : Nat
  lists : Nat

/-- What a store shows of its objects: neither listeners nor what binders keep, and nothing of one tree. -/
structure Outline where
  record : RecordId → Record
  members : Nat → List RecordId
  tree : Nat → Tree
  view : Nat → View
  settings : Nat → Scope × Config
  sizes : Sizes

namespace Store

/-- How many objects of each kind there are. -/
def sizes (s : Store) : Sizes :=
  ⟨s.records.size, s.collections.size, s.trees.size, s.binders.size, s.views.size, s.lists.size⟩

variable (b : Stranger)

/-- **All that a store shows but for the stranger**: the rosters are compared apart, by their ties. -/
def outline (s : Store) : Outline where
  record id := (s.record id).plain
  members c := (s.collection c).members
  tree k := if k = b.tree then default else s.tree k
  view v := (s.view v).apart b.binder
  settings n := ((s.binder n).scope, (s.binder n).config)
  sizes := s.sizes

/-- **Identities on a channel are tied**: apart from the stranger's they are those of the same listeners. Those on its
own tree do not matter. -/
structure Tied (s s' : Store) (ch : Channel) (ids ids' : List Nat) : Prop where
  roster : ch.tree? = none → (s.roster ch).Tied b.binder (s'.roster ch) ids ids'
  tree : ∀ k, ch.tree? = some k → k ≠ b.tree → ids = ids'

/-- Two guards of the same subscription. -/
structure SameGuard (s s' : Store) (g g' : Guard) : Prop where
  channel : g.channel = g'.channel
  tied : s.Tied b s' g.channel [g.id] [g'.id]

/-- The stranger renders into its tree, and its guards are of its own listeners. -/
structure Kept (s : Store) : Prop where
  there : b.binder < s.binders.size
  tree : (s.binder b.binder).scope.tree = b.tree
  rosters : ∀ ch, ch.tree? = none → (s.roster ch).Sound
  own : ∀ g ∈ (s.binder b.binder).guards, s.Tied b s g.channel [g.id] []

/-- **Two stores are the same but for the stranger.** -/
structure Twin (s s' : Store) : Prop where
  outline : s.outline b = s'.outline b
  tied : ∀ ch, s.Tied b s' ch [] []
  binder : ∀ n, n ≠ b.binder → (s.binder n).Alike (s.SameGuard b s') (s'.binder n)
  kept : s.Kept b
  kept' : s'.Kept b

/-- **Two stores that are the same but for the stranger become two others**; what is there stays there, and what was
tied stays tied. -/
structure Paired (s s' t t' : Store) : Prop where
  twin : t.Twin b t'
  there : ∀ ch, s.HasChannel ch → t.HasChannel ch
  ties : ∀ ch ids ids', s.Tied b s' ch ids ids' → t.Tied b t' ch ids ids'

variable {b} {s s' t t' u u' : Store}

namespace Tied

variable {ch : Channel} {ids ids' ids'' : List Nat}

theorem symm (h : s.Tied b s' ch ids ids') : s'.Tied b s ch ids' ids :=
  ⟨fun hch => (h.roster hch).symm, fun k hk hne => (h.tree k hk hne).symm⟩

/-- Identities are compared through a third store. -/
theorem trans {s'' : Store} (h : s.Tied b s' ch ids ids') (h' : s'.Tied b s'' ch ids' ids'') :
    s.Tied b s'' ch ids ids'' :=
  ⟨fun hch => (h.roster hch).trans (h'.roster hch), fun k hk hne => (h.tree k hk hne).trans (h'.tree k hk hne)⟩

/-- Identities are tied as before where rosters are as before. -/
theorem congr (h : s.Tied b s' ch ids ids') (hroster : ch.tree? = none → t.roster ch = s.roster ch)
    (hroster' : ch.tree? = none → t'.roster ch = s'.roster ch) : t.Tied b t' ch ids ids' :=
  ⟨fun hch => by rw [hroster hch, hroster' hch]; exact h.roster hch, h.tree⟩

end Tied

/-- A guard stands for the same listener whichever store is looked at first. -/
theorem SameGuard.symm {g g' : Guard} (h : s.SameGuard b s' g g') : s'.SameGuard b s g' g :=
  ⟨h.channel.symm, h.channel ▸ h.tied.symm⟩

namespace Twin

variable (h : s.Twin b s')
include h

/-! ## What twins have in common -/

/-- Records are the same but for their listeners. -/
theorem record (id : RecordId) : (s.record id).plain = (s'.record id).plain :=
  congrFun (congrArg Outline.record h.outline) id

theorem fields (id : RecordId) : s.fields id = s'.fields id := (congrArg Record.fields (h.record id) :)

theorem alive (id : RecordId) : (s.record id).alive = (s'.record id).alive := (congrArg Record.alive (h.record id) :)

/-- Collections have the same members in the same order. -/
theorem members (c : Nat) : (s.collection c).members = (s'.collection c).members :=
  congrFun (congrArg Outline.members h.outline) c

/-- **Every tree but the stranger's is the same**, with its handlers and their identities. -/
theorem tree {k : Nat} (hk : k ≠ b.tree) : s.tree k = s'.tree k := by
  have htree := congrFun (congrArg Outline.tree h.outline) k
  simpa only [Store.outline, if_neg hk] using htree

theorem arena {k : Nat} (hk : k ≠ b.tree) : s.arena k = s'.arena k := by
  rw [Store.arena, h.tree hk]
  rfl

/-- Views are the same, but for what a view of the stranger owns. -/
theorem view_apart (v : Nat) : (s.view v).apart b.binder = (s'.view v).apart b.binder :=
  congrFun (congrArg Outline.view h.outline) v

/-- Binders keep the scope that they were made with, the stranger too. -/
theorem scope (n : Nat) : (s.binder n).scope = (s'.binder n).scope :=
  congrArg Prod.fst (congrFun (congrArg Outline.settings h.outline) n)

theorem config (n : Nat) : (s.binder n).config = (s'.binder n).config :=
  congrArg Prod.snd (congrFun (congrArg Outline.settings h.outline) n)

theorem sizes : s.sizes = s'.sizes := congrArg Outline.sizes h.outline

/-- Rosters are the same but for the listeners of the stranger. -/
theorem roster {ch : Channel} (hch : ch.tree? = none) :
    (s.roster ch).Tied b.binder (s'.roster ch) [] [] := (h.tied ch).roster hch

theorem symm : s'.Twin b s where
  outline := h.outline.symm
  tied ch := (h.tied ch).symm
  binder n hn := (h.binder n hn).symm fun _ _ hg => hg.symm
  kept := h.kept'
  kept' := h.kept

/-! ## Changes on both sides -/

/-- The stranger's guards stay those of its own listeners as long as ties last. -/
theorem kept_of_ties (htied : ∀ ch, t.Tied b t' ch [] [])
    (hties : ∀ ch ids ids', s.Tied b s' ch ids ids' → t.Tied b t' ch ids ids')
    (hrosters : ∀ ch, ch.tree? = none → (t.roster ch).Sound) (hown : t.binder b.binder = s.binder b.binder)
    (hsize : s.binders.size ≤ t.binders.size) : t.Kept b where
  there := Nat.lt_of_lt_of_le h.kept.there hsize
  tree := hown ▸ h.kept.tree
  rosters := hrosters
  own g hg := by
    have hbefore := (h.kept.own g (hown ▸ hg)).trans (h.tied g.channel)
    exact (hties _ _ _ hbefore).trans (htied g.channel).symm

/-- **A change of both stores that keeps what is tied.** -/
theorem paired (houtline : t.outline b = t'.outline b) (hthere : ∀ ch, s.HasChannel ch → t.HasChannel ch)
    (hties : ∀ ch ids ids', s.Tied b s' ch ids ids' → t.Tied b t' ch ids ids')
    (hrosters : ∀ ch, ch.tree? = none → (t.roster ch).Sound)
    (hrosters' : ∀ ch, ch.tree? = none → (t'.roster ch).Sound)
    (hbinder : ∀ n, n ≠ b.binder → (t.binder n).Alike (t.SameGuard b t') (t'.binder n))
    (hown : t.binder b.binder = s.binder b.binder) (hown' : t'.binder b.binder = s'.binder b.binder)
    (hsize : s.binders.size ≤ t.binders.size) : Paired b s s' t t' := by
  have htied : ∀ ch, t.Tied b t' ch [] [] := fun ch => hties ch _ _ (h.tied ch)
  have hsize' : s'.binders.size ≤ t'.binders.size := by
    have hs : s.binders.size = s'.binders.size := congrArg Sizes.binders h.sizes
    have ht : t.binders.size = t'.binders.size := congrArg (fun o : Outline => o.sizes.binders) houtline
    omega
  refine ⟨⟨houtline, htied, hbinder, h.kept_of_ties htied hties hrosters hown hsize, ?_⟩, hthere, hties⟩
  exact h.symm.kept_of_ties (fun ch => (htied ch).symm) (fun ch ids ids' hids => (hties ch _ _ hids.symm).symm)
    hrosters' hown' hsize'

/-- A change of both stores that leaves their binders alone. -/
theorem paired_of_binders (houtline : t.outline b = t'.outline b) (hthere : ∀ ch, s.HasChannel ch → t.HasChannel ch)
    (hties : ∀ ch ids ids', s.Tied b s' ch ids ids' → t.Tied b t' ch ids ids')
    (hrosters : ∀ ch, ch.tree? = none → (t.roster ch).Sound)
    (hrosters' : ∀ ch, ch.tree? = none → (t'.roster ch).Sound)
    (hbinders : t.binders = s.binders) (hbinders' : t'.binders = s'.binders) : Paired b s s' t t' := by
  have hbinder (n : Nat) : t.binder n = s.binder n := by simp only [Store.binder, hbinders]
  have hbinder' (n : Nat) : t'.binder n = s'.binder n := by simp only [Store.binder, hbinders']
  have hsize : s.binders.size ≤ t.binders.size := Nat.le_of_eq (congrArg Array.size hbinders.symm)
  refine h.paired houtline hthere hties hrosters hrosters' (fun n hn => ?_) (hbinder _) (hbinder' _) hsize
  rw [hbinder, hbinder']
  exact (h.binder n hn).imp fun g g' hg => ⟨hg.channel, hties _ _ _ hg.tied⟩

/-- A change of both stores that leaves their binders and all listeners of notifications alone. -/
theorem paired_of_rosters (houtline : t.outline b = t'.outline b) (hthere : ∀ ch, s.HasChannel ch → t.HasChannel ch)
    (hroster : ∀ ch, ch.tree? = none → t.roster ch = s.roster ch)
    (hroster' : ∀ ch, ch.tree? = none → t'.roster ch = s'.roster ch)
    (hbinders : t.binders = s.binders) (hbinders' : t'.binders = s'.binders) : Paired b s s' t t' := by
  refine h.paired_of_binders houtline hthere (fun ch ids ids' hids => hids.congr (hroster ch) (hroster' ch))
    (fun ch hch => ?_) (fun ch hch => ?_) hbinders hbinders'
  · rw [hroster ch hch]
    exact h.kept.rosters ch hch
  · rw [hroster' ch hch]
    exact h.kept'.rosters ch hch

end Twin

end Store

end Databind
