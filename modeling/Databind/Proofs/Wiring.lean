import Databind.Proofs.Frame
import Databind.Proofs.Registry

/-!
# `Proofs.Wiring` — guards, and the listeners they guard

A post is a guard that a binder keeps, with the listener it stands for: two for each entry of its registry,
one for each binding that writes back, and those on collections. `Store.Wired` says that the posts and the
listeners of binders that are held are the same, except on the channels of destroyed records, where nobody is
held.

An operation takes posts and gives them back one after the other. Guards in its hands are loose: `Wired` has
them as a second argument, and `Rewire` is one such move.
-/

namespace Databind

/-- A guard with the listener it stands for. -/
abbrev Post := Guard × Hearer

/-! ## The posts of a binder -/

namespace Binding

/-- Whether a handler can be attached for a selector text: it is blank, or a selector. -/
def accepts (text : String) : Bool := Text.isBlankText text || (Selector.parse (Text.trim text)).isOk

/-- Whether edits are written back: the binding has an event, and a selector to attach a handler for. -/
def writesBack (b : Binding) : Bool := b.event.isSome && accepts b.key.selector

/-- The handler that writes edits of a binding back. -/
def delegation (b : Binding) (root : Nat) : Delegation where
  event := b.event.getD ""
  selector :=
    if Text.isBlankText b.key.selector then none else (Selector.parse (Text.trim b.key.selector)).toOption
  root
  handler := .writeBack ⟨b.record, b.accessor.field?.getD "", b.target, b.negate⟩

def posts (root : Nat) (b : Binding) : List Post :=
  b.guard.toList.map fun g => (g, .handler (b.delegation root))

/-- A binding keeps the guard of a handler exactly if it writes back, and then it reads a field. -/
structure Fit (tree : Nat) (b : Binding) : Prop where
  guard : b.guard.isSome = b.writesBack
  channel : ∀ g, b.guard = some g → g.channel = .delegations tree
  field : b.event.isSome → b.accessor.field?.isSome

end Binding

namespace Registry.Entry

def posts (n root : Nat) (e : Entry) : List Post :=
  e.bindings.flatMap (·.posts root) ++
    [(e.onChange, .listener (.repaint n e.record)), (e.onRequest, .listener (.repaintAll n e.record))]

/-- The listeners of an entry are on its own record, and its bindings are fit. -/
structure Fit (tree : Nat) (e : Entry) : Prop where
  onChange : e.onChange.channel = .changes e.record
  onRequest : e.onRequest.channel = .requests e.record
  bindings : ∀ b ∈ e.bindings, b.Fit tree

end Registry.Entry

namespace Binder

/-- Who listens to a collection for a binder. -/
def collectionListener (n : Nat) : Channel → Listener
  | .removals _ => .dropMember n
  | _ => .dropAll n

def posts (n : Nat) (b : Binder) : List Post :=
  b.registry.flatMap (Registry.Entry.posts n b.scope.root) ++
    b.collectionGuards.map fun g => (g, .listener (collectionListener n g.channel))

/-- The shape of a binder: its entries are tidy and fit, and a retired one keeps nothing. -/
structure Fit (b : Binder) : Prop where
  tidy : b.registry.Tidy
  entries : ∀ e ∈ b.registry, e.Fit b.scope.tree
  collections : ∀ g ∈ b.collectionGuards, ∃ c, g.channel = .removals c ∨ g.channel = .resets c
  retired : b.retired = true → b.registry = [] ∧ b.collectionGuards = []

theorem fit_default : (default : Binder).Fit :=
  ⟨Registry.sound_nil.toTidy, fun _ he => absurd he (by simp [default, ofScope]),
    fun _ hg => absurd hg (by simp [default, ofScope]), fun _ => ⟨rfl, rfl⟩⟩

end Binder

/-- The guards of an entry's posts are all the guards it owns. -/
theorem guards_entry (n root : Nat) (e : Registry.Entry) :
    (e.posts n root).map Prod.fst = Store.entryGuards e := by
  have hbindings : ∀ bs : List Binding,
      (bs.flatMap (·.posts root)).map Prod.fst = Store.handlerGuards bs := by
    intro bs
    induction bs with
    | nil => rfl
    | cons b rest ih =>
      rw [List.flatMap_cons, List.map_append, ih]
      cases hguard : b.guard <;> simp [Binding.posts, Store.handlerGuards, hguard]
  simp [Registry.Entry.posts, Store.entryGuards, hbindings]

theorem guards_binder (n : Nat) (b : Binder) :
    (b.posts n).map Prod.fst = b.registry.flatMap Store.entryGuards ++ b.collectionGuards := by
  simp [Binder.posts, List.map_flatMap, guards_entry, Function.comp_def]

namespace Store

/-- A listener holds under a guard. -/
def Held (s : Store) (g : Guard) (x : Hearer) : Prop := (s.roster g.channel).Holds g.id x

/-- A channel on which binders may listen: its record, if it has one, is not destroyed. -/
def Open (s : Store) : Channel → Prop
  | .changes id => (s.record id).alive = true
  | .requests id => (s.record id).alive = true
  | _ => True

/-- All posts of all binders. -/
def posts (s : Store) : List Post :=
  (List.range s.binders.size).flatMap fun n => (s.binder n).posts n

/-- **Posts and listeners agree.** Besides the posts there may be loose guards. -/
structure Wired (s : Store) (loose : List Post) : Prop where
  rosters : ∀ ch, (s.roster ch).Sound
  nodup : ((s.posts ++ loose).map Prod.fst).Nodup
  fresh : ∀ p ∈ s.posts ++ loose, p.1.id < (s.roster p.1.channel).next
  held : ∀ g x, ¬x.IsCallback → (s.Held g x ↔ (g, x) ∈ s.posts ++ loose ∧ s.Open g.channel)
  fit : ∀ n, (s.binder n).Fit
  scopes : ∀ n, (s.binder n).retired = false → (s.binder n).scope.tree < s.trees.size

theorem mem_posts {s : Store} {p : Post} : p ∈ s.posts ↔ ∃ n, p ∈ (s.binder n).posts n := by
  unfold posts
  rw [List.mem_flatMap]
  constructor
  · rintro ⟨n, -, hp⟩
    exact ⟨n, hp⟩
  · rintro ⟨n, hp⟩
    refine ⟨n, List.mem_range.mpr ?_, hp⟩
    by_contra hn
    rw [s.binder_of_size_le hn] at hp
    exact absurd hp (by simp [Binder.posts, default, Binder.ofScope])

theorem posts_congr {s s' : Store} (h : s'.binders = s.binders) : s'.posts = s.posts := by
  simp only [posts, Store.binder, h]

/-- A change of one binder changes the posts as it changes those of the binder. -/
theorem posts_modifyBinder {s : Store} {n : Nat} (hn : n < s.binders.size) {f : Binder → Binder}
    {l l' : List Post} (h : ((f (s.binder n)).posts n ++ l').Perm ((s.binder n).posts n ++ l)) :
    ((s.modifyBinder n f).posts ++ l').Perm (s.posts ++ l) := by
  obtain ⟨before, behind, hsplit⟩ := List.append_of_mem (List.mem_range.mpr hn)
  have hnodup : (before ++ n :: behind).Nodup := hsplit ▸ List.nodup_range
  have hnot : n ∉ before ∧ n ∉ behind := by
    rw [List.nodup_middle, List.nodup_cons, List.mem_append, not_or] at hnodup
    exact hnodup.1
  have hother : ∀ ms : List Nat, n ∉ ms →
      (ms.flatMap fun m => ((s.modifyBinder n f).binder m).posts m) =
        ms.flatMap fun m => (s.binder m).posts m := by
    intro ms hms
    refine List.flatMap_congr fun m hm => ?_
    rw [binder_modifyBinder, if_neg]
    rintro ⟨rfl, -⟩
    exact hms hm
  have hsize : (s.modifyBinder n f).binders.size = s.binders.size := Array.size_modify ..
  have hself : (s.modifyBinder n f).binder n = f (s.binder n) := by
    rw [binder_modifyBinder, if_pos ⟨rfl, hn⟩]
  unfold posts
  rw [hsize, hsplit]
  simp only [List.flatMap_append, List.flatMap_cons, hother before hnot.1, hother behind hnot.2, hself,
    List.append_assoc]
  refine List.Perm.append_left _ ?_
  have hcomm : ∀ xs ys zs : List Post, (xs ++ (ys ++ zs)).Perm (ys ++ (xs ++ zs)) := fun xs ys zs => by
    rw [← List.append_assoc, ← List.append_assoc]
    exact List.Perm.append_right zs List.perm_append_comm
  exact (hcomm _ _ _).trans ((List.Perm.append_left _ h).trans (hcomm _ _ _))

/-- Channels are open as before if no record was destroyed. -/
theorem open_iff {s s' : Store} {ds : List Deed} (h : Follows ds s s') (hds : ∀ id, Deed.destroyed id ∉ ds)
    {ch : Channel} (hthere : s.HasChannel ch) : s'.Open ch ↔ s.Open ch := by
  cases ch with
  | changes id | requests id => simp only [Open, h.alive id hthere (hds id)]
  | _ => exact Iff.rfl

namespace Wired

variable {s s' : Store} {l l' : List Post}

/-- Every post is on a channel that is there. -/
theorem there (h : s.Wired l) {p : Post} (hp : p ∈ s.posts ++ l) : s.HasChannel p.1.channel := by
  by_contra hno
  have hlt := h.fresh p hp
  rw [s.roster_of_not_hasChannel hno] at hlt
  exact Nat.not_lt_zero _ hlt

/-- A change that leaves binders and what is held for them as they are. -/
theorem congr (h : s.Wired l) {ds : List Deed} (hfollows : Follows ds s s')
    (hds : ∀ id, Deed.destroyed id ∉ ds) (hbinders : s'.binders = s.binders)
    (hsound : ∀ ch, (s.roster ch).Sound → (s'.roster ch).Sound)
    (hheld : ∀ g x, ¬x.IsCallback → (s'.Held g x ↔ s.Held g x)) : s'.Wired l where
  rosters ch := hsound ch (h.rosters ch)
  nodup := by rw [posts_congr hbinders]; exact h.nodup
  fresh p hp := by
    rw [posts_congr hbinders] at hp
    exact Nat.lt_of_lt_of_le (h.fresh p hp) (hfollows.rosters _).next
  held g x hx := by
    rw [hheld g x hx, h.held g x hx, posts_congr hbinders]
    exact and_congr_right fun hp => (open_iff hfollows hds (h.there hp)).symm
  fit n := by simp only [Store.binder, hbinders]; exact h.fit n
  scopes n hn := by
    simp only [Store.binder, hbinders] at hn ⊢
    exact Nat.lt_of_lt_of_le (h.scopes n hn) hfollows.trees

theorem of_keeps (h : s.Wired l) (h' : s.Keeps s') : s'.Wired l :=
  h.congr (h'.follows []) (fun _ => List.not_mem_nil) h'.binders (fun ch hs => by rwa [h'.roster]) fun g x _ => by
    simp only [Held, h'.roster]

/-- **A new listener of a binder, its guard loose.** -/
theorem subscribe (h : s.Wired l) (hfollows : Follows [] s s') (hbinders : s'.binders = s.binders)
    {ch : Channel} {x : Hearer}
    (hroster : ∀ ch', s'.roster ch' = if ch' = ch then (s.roster ch).subscribe x else s.roster ch')
    (hthere : s.HasChannel ch) (hopen : s.Open ch) : s'.Wired ((⟨ch, (s.roster ch).next⟩, x) :: l) := by
  have hposts : (s'.posts ++ (⟨ch, (s.roster ch).next⟩, x) :: l).Perm
      ((⟨ch, (s.roster ch).next⟩, x) :: (s.posts ++ l)) := by
    rw [posts_congr hbinders]
    exact List.perm_middle
  constructor
  case rosters =>
    intro ch'
    rw [hroster]
    split
    · exact Roster.sound_subscribe (h.rosters ch) x
    · exact h.rosters ch'
  case nodup =>
    -- the new identity is above all that were given out on the channel
    rw [(hposts.map Prod.fst).nodup_iff, List.map_cons, List.nodup_cons]
    refine ⟨fun hmem => ?_, h.nodup⟩
    obtain ⟨p, hp, hguard⟩ := List.mem_map.mp hmem
    have hlt := h.fresh p hp
    rw [hguard] at hlt
    exact Nat.lt_irrefl _ hlt
  case fresh =>
    intro p hp
    rcases List.mem_cons.mp (hposts.mem_iff.mp hp) with rfl | hp
    · rw [hroster, if_pos rfl]
      exact Nat.lt_succ_self _
    · exact Nat.lt_of_lt_of_le (h.fresh p hp) (hfollows.rosters _).next
  case held =>
    intro g y hy
    have hheld : s'.Held g y ↔ s.Held g y ∨ g = ⟨ch, (s.roster ch).next⟩ ∧ y = x := by
      unfold Held
      rw [hroster]
      split
      · next heq =>
        rw [Roster.holds_subscribe, heq]
        cases g
        simp_all
      · next hne =>
        have hguard : g ≠ ⟨ch, (s.roster ch).next⟩ := fun heq => hne (congrArg Guard.channel heq)
        simp [hguard]
    rw [hheld, h.held g y hy, hposts.mem_iff, List.mem_cons]
    constructor
    · rintro (⟨hp, hch⟩ | ⟨rfl, rfl⟩)
      · exact ⟨.inr hp, (open_iff hfollows (fun _ => List.not_mem_nil) (h.there hp)).mpr hch⟩
      · exact ⟨.inl rfl, (open_iff hfollows (fun _ => List.not_mem_nil) hthere).mpr hopen⟩
    · rintro ⟨heq | hp, hch⟩
      · exact .inr (Prod.mk.injEq .. ▸ heq)
      · exact .inl ⟨hp, (open_iff hfollows (fun _ => List.not_mem_nil) (h.there hp)).mp hch⟩
  case fit =>
    intro n
    simp only [Store.binder, hbinders]
    exact h.fit n
  case scopes =>
    intro n hn
    simp only [Store.binder, hbinders] at hn ⊢
    exact Nat.lt_of_lt_of_le (h.scopes n hn) hfollows.trees

theorem binders_drop (s : Store) (g : Guard) : (s.drop g).binders = s.binders := by
  unfold Store.drop modifyRoster
  cases g.channel <;> rfl

theorem held_drop (s : Store) (g g' : Guard) (x : Hearer) :
    (s.drop g).Held g' x ↔ s.Held g' x ∧ g' ≠ g := by
  unfold Held Store.drop
  rw [s.roster_modifyRoster (Roster.uniform_release g.id)]
  split
  · next heq =>
    rw [Roster.holds_release, heq]
    cases g
    cases g'
    simp_all
  · next hne =>
    have hguard : g' ≠ g := fun heq => hne (congrArg Guard.channel heq)
    simp [hguard]

theorem sound_drop {s : Store} (g : Guard) (ch : Channel) (h : (s.roster ch).Sound) :
    ((s.drop g).roster ch).Sound := by
  unfold Store.drop
  rw [s.roster_modifyRoster (Roster.uniform_release g.id)]
  split
  · next heq => exact Roster.sound_release (heq ▸ h) _
  · exact h

/-- **A loose guard is dropped.** -/
theorem drop {g : Guard} {x : Hearer} (h : s.Wired ((g, x) :: l)) : (s.drop g).Wired l := by
  have hbinders := binders_drop s g
  have hfollows := follows_drop (s := s) [] g
  have hposts : (s.posts ++ (g, x) :: l).Perm ((g, x) :: (s.posts ++ l)) := List.perm_middle
  have hnodup := h.nodup
  rw [(hposts.map Prod.fst).nodup_iff, List.map_cons, List.nodup_cons] at hnodup
  constructor
  case rosters =>
    intro ch
    exact sound_drop g ch (h.rosters ch)
  case nodup =>
    rw [posts_congr hbinders]
    exact hnodup.2
  case fresh =>
    intro p hp
    rw [posts_congr hbinders] at hp
    refine Nat.lt_of_lt_of_le (h.fresh p (hposts.mem_iff.mpr (List.mem_cons_of_mem _ hp))) ?_
    exact (hfollows.rosters _).next
  case held =>
    intro g' y hy
    have hopen (hp : (g', y) ∈ s.posts ++ l) : (s.drop g).Open g'.channel ↔ s.Open g'.channel :=
      open_iff hfollows (fun _ => List.not_mem_nil) (h.there (hposts.mem_iff.mpr (.tail _ hp)))
    rw [held_drop, h.held g' y hy, hposts.mem_iff, List.mem_cons, posts_congr hbinders]
    constructor
    · rintro ⟨⟨heq | hp, hch⟩, hne⟩
      · exact absurd (congrArg Prod.fst heq) hne
      · exact ⟨hp, (hopen hp).mpr hch⟩
    · rintro ⟨hp, hch⟩
      refine ⟨⟨.inr hp, (hopen hp).mp hch⟩, ?_⟩
      -- the guard that is dropped is nobody else's
      rintro rfl
      exact hnodup.1 (List.mem_map.mpr ⟨_, hp, rfl⟩)
  case fit =>
    intro n
    simp only [Store.binder, hbinders]
    exact h.fit n
  case scopes =>
    intro n hn
    simp only [Store.binder, hbinders] at hn ⊢
    exact Nat.lt_of_lt_of_le (h.scopes n hn) hfollows.trees

/-- **A binder takes loose guards or lets go of some of its own.** -/
theorem rebind (h : s.Wired l) {n : Nat} (hn : n < s.binders.size) {f : Binder → Binder}
    (hposts : ((f (s.binder n)).posts n ++ l').Perm ((s.binder n).posts n ++ l))
    (hfit : (f (s.binder n)).Fit) (hscope : (f (s.binder n)).scope = (s.binder n).scope)
    (hretired : (f (s.binder n)).retired = false → (s.binder n).retired = false) :
    (s.modifyBinder n f).Wired l' := by
  have hperm := posts_modifyBinder hn hposts
  have hbinder : ∀ m, (s.modifyBinder n f).binder m = if m = n then f (s.binder n) else s.binder m := by
    intro m
    rw [binder_modifyBinder]
    simp [hn]
  constructor
  case rosters => exact h.rosters
  case nodup => exact (hperm.map _).nodup_iff.mpr h.nodup
  case fresh =>
    intro p hp
    exact h.fresh p (hperm.mem_iff.mp hp)
  case held =>
    intro g x hx
    rw [hperm.mem_iff]
    exact h.held g x hx
  case fit =>
    intro m
    rw [hbinder]
    split
    · exact hfit
    · exact h.fit m
  case scopes =>
    intro m hm
    rw [hbinder] at hm ⊢
    split at hm
    · next heq => rw [if_pos heq, hscope]; exact h.scopes n (hretired hm)
    · next hne => rw [if_neg hne]; exact h.scopes m hm

end Wired

end Store

end Databind
