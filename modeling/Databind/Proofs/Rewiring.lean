import Databind.Proofs.Wiring

/-!
# `Proofs.Rewiring` — operations of a binder, guard by guard

Whatever is done to a binder is a sequence of moves: subscribing gives a loose guard, the binder takes loose
guards in and lets its own go, and dropping ends what a loose guard stands for. `Rewire` has the moves of one
act, with the loose guards before and after; each operation starts and ends without a guard in hand.
-/

namespace Databind.Store

/-- One move on a binder, as part of an act. -/
inductive Rewire (n : Nat) (a : Act) : Store × List Post → Store × List Post → Prop
  | extended {s s' l} (h : Store.Extends s s') : Rewire n a (s, l) (s', l)
  | subscribed {s l} (ch : Channel) (listener : Listener) (htree : ch.tree? = none)
    (hthere : s.HasChannel ch) (hopen : s.Open ch) :
    Rewire n a (s, l) ((s.subscribe ch listener).1, (⟨ch, (s.roster ch).next⟩, .listener listener) :: l)
  | delegated {s l} (scope : Scope) (event : String) (selector : Option Selector) (handler : EventHandler)
    (hthere : scope.tree < s.trees.size) :
    Rewire n a (s, l) ((s.attachHandler scope event selector handler).1,
      (⟨.delegations scope.tree, (s.roster (.delegations scope.tree)).next⟩,
        .handler ⟨event, selector, scope.root, handler⟩) :: l)
  | dropped {s l} (g : Guard) (x : Hearer) : Rewire n a (s, (g, x) :: l) (s.drop g, l)
  | rebound {s l} (l' : List Post) (f : Binder → Binder) (hn : n < s.binders.size)
    (hsettings : ∀ b, (f b).scope = b.scope ∧ (f b).config = b.config)
    (hretired : (∀ b, (f b).retired = b.retired) ∨ a = .retired ∧ ∀ b, (f b).retired = true)
    (hposts : ((f (s.binder n)).posts n ++ l').Perm ((s.binder n).posts n ++ l))
    (hfit : (f (s.binder n)).Fit) : Rewire n a (s, l) (s.modifyBinder n f, l')

/-- A sequence of moves on a binder. -/
inductive Rewires (n : Nat) (a : Act) : Store × List Post → Store × List Post → Prop
  | refl (x : Store × List Post) : Rewires n a x x
  | tail {x y z : Store × List Post} (h : Rewires n a x y) (h' : Rewire n a y z) : Rewires n a x z

variable {n : Nat} {a : Act} {s s' : Store} {l l' : List Post}

namespace Rewires

theorem trans {x y z : Store × List Post} (h : Rewires n a x y) (h' : Rewires n a y z) :
    Rewires n a x z := by
  induction h' with
  | refl => exact h
  | tail _ hlast ih => exact ih.tail hlast

theorem single {x y : Store × List Post} (h : Rewire n a x y) : Rewires n a x y := (refl x).tail h

theorem extended (h : s.Extends s') (l : List Post) : Rewires n a (s, l) (s', l) := single (.extended h)

/-- **Dropping guards drops their listeners.** -/
theorem dropAll (ps : List Post) (l : List Post) (s : Store) :
    Rewires n a (s, ps ++ l) (s.dropAll (ps.map Prod.fst), l) := by
  induction ps generalizing s with
  | nil => exact refl _
  | cons p rest ih => exact (single (.dropped p.1 p.2)).trans (ih _)

end Rewires

/-! ## What moves preserve -/

theorem actsOf_act (n : Nat) (a : Act) : actsOf n [.act n a] = [a] := by simp [actsOf]

theorem actsOf_act_of_ne {m : Nat} (h : m ≠ n) (a : Act) : actsOf m [.act n a] = [] := by
  have hne : ¬n = m := fun heq => h heq.symm
  simp [actsOf, hne]

/-- **A move changes nothing that its act leaves out.** -/
theorem Rewire.follows {x y : Store × List Post} (h : Rewire n a x y) : Follows [.act n a] x.1 y.1 := by
  cases h with
  | extended h => exact h.follows _
  | subscribed ch listener => exact follows_subscribe _ ch listener
  | delegated scope event selector handler => exact follows_attachHandler _ scope event selector handler
  | dropped g => exact follows_drop _ g
  | rebound l' f _ hsettings hretired =>
    refine follows_modifyBinder hsettings (by simp [actsOf_act]) fun hnot => ?_
    rcases hretired with hsame | ⟨rfl, -⟩
    · exact hsame
    · exact absurd (List.mem_singleton_self _) (actsOf_act n .retired ▸ hnot)

/-- **A move keeps posts and listeners together.** -/
theorem Rewire.wired {x y : Store × List Post} (h : Rewire n a x y) (hw : x.1.Wired x.2) :
    y.1.Wired y.2 := by
  cases h with
  | extended h => exact hw.of_keeps h.toKeeps
  | @subscribed s l ch listener htree hthere hopen =>
    refine hw.subscribe (follows_subscribe _ ch listener) (by cases ch <;> rfl) (fun ch' => ?_) hthere hopen
    rw [roster_subscribe s listener htree]
    simp [hthere]
  | @delegated s l scope event selector handler hthere =>
    refine hw.subscribe (follows_attachHandler _ scope event selector handler) rfl (fun ch' => ?_) hthere
      trivial
    rw [roster_attachHandler]
    simp [hthere]
  | dropped g => exact hw.drop
  | rebound l' f hn hsettings hretired hposts hfit =>
    refine hw.rebind hn hposts hfit (hsettings _).1 fun hlive => ?_
    rcases hretired with hsame | ⟨-, htrue⟩
    · rwa [hsame] at hlive
    · rw [htrue] at hlive
      exact absurd hlive (by simp)

theorem pinsBelow_drop {ch : Channel} {bound : Nat → Nat} (hpins : (s.roster ch).PinsBelow bound) (g : Guard) :
    ((s.drop g).roster ch).PinsBelow bound := by
  unfold Store.drop
  rw [roster_modifyRoster s (Roster.uniform_release g.id)]
  split
  · next h => exact (h ▸ hpins).release _
  · exact hpins

/-- **A move pins nobody.** -/
theorem Rewire.pinsBelow {x y : Store × List Post} (h : Rewire n a x y) {ch : Channel} {bound : Nat → Nat}
    (hpins : (x.1.roster ch).PinsBelow bound) : (y.1.roster ch).PinsBelow bound := by
  cases h with
  | extended h => rwa [h.roster]
  | @subscribed s l ch' listener htree =>
    rw [roster_subscribe s listener htree]
    split
    · next h => exact (h.1 ▸ hpins).subscribe _
    · exact hpins
  | delegated =>
    rw [roster_attachHandler]
    split
    · next h => exact (h.1 ▸ hpins).subscribe _
    · exact hpins
  | dropped g => exact pinsBelow_drop hpins g
  | rebound => exact hpins

namespace Rewires

theorem follows {x y : Store × List Post} (h : Rewires n a x y) : Follows [.act n a] x.1 y.1 := by
  induction h with
  | refl => exact .refl _ _
  | tail _ hlast ih => exact ih.trans hlast.follows

theorem wired {x y : Store × List Post} (h : Rewires n a x y) (hw : x.1.Wired x.2) : y.1.Wired y.2 := by
  induction h with
  | refl => exact hw
  | tail _ hlast ih => exact hlast.wired ih

theorem pinsBelow {x y : Store × List Post} (h : Rewires n a x y) {ch : Channel} {bound : Nat → Nat}
    (hpins : (x.1.roster ch).PinsBelow bound) : (y.1.roster ch).PinsBelow bound := by
  induction h with
  | refl => exact hpins
  | tail _ hlast ih => exact hlast.pinsBelow ih

end Rewires

/-! ## Posts after a change of the registry -/

section Posts

open Registry

variable (n : Nat) (b : Binder)

/-- The posts of an entry that are no handlers. -/
def listenerPosts (e : Entry) : List Post :=
  [(e.onChange, .listener (.repaint n e.record)), (e.onRequest, .listener (.repaintAll n e.record))]

theorem posts_entry (root : Nat) (e : Entry) :
    e.posts n root = e.bindings.flatMap (·.posts root) ++ listenerPosts n e := rfl

theorem posts_openEntry (e : Entry) :
    (Binder.posts n { b with registry := openEntry e b.registry }).Perm
      (e.posts n b.scope.root ++ b.posts n) := by
  have hperm := (openEntry_perm e b.registry).flatMap_right (Entry.posts n b.scope.root)
  unfold Binder.posts
  rw [← List.append_assoc]
  exact hperm.append_right _

/-- **A new binding takes its post and gives up that of the one it replaces.** -/
theorem posts_insert (hfit : b.Fit) {x : Binding} {e : Entry} (he : b.registry.entryOf? x.record = some e) :
    (Binder.posts n { b with registry := b.registry.insert x } ++
        (b.registry.find? x.record x.key).toList.flatMap (·.posts b.scope.root)).Perm
      (b.posts n ++ x.posts b.scope.root) := by
  classical
  obtain ⟨before, behind, hsplit, hmodify, -⟩ := hfit.tidy.split he
  have hold := (perm_filter_key (hfit.tidy.entries e (entryOf?_eq_some he).1).keys x.key).flatMap_right
    (·.posts b.scope.root)
  have hinsert : b.registry.insert x = before ++ e.add x :: behind := hmodify (·.add x)
  have hadd : (e.add x).posts n b.scope.root =
      (e.bindings.filter (·.key ≠ x.key)).flatMap (·.posts b.scope.root) ++ x.posts b.scope.root ++
        listenerPosts n e := by
    simp [posts_entry, Entry.add, listenerPosts]
  have hfind : b.registry.find? x.record x.key = e.bindings.find? (·.key = x.key) := by
    unfold Registry.find?
    rw [bindingsOf_of_entryOf? he]
  unfold Binder.posts
  simp only [hinsert, hfind]
  rw [hsplit]
  simp only [List.flatMap_append, List.flatMap_cons, hadd, posts_entry] at hold ⊢
  refine List.perm_iff_count.mpr fun p => ?_
  have hcount := hold.count_eq p
  simp only [List.count_append] at hcount ⊢
  omega

/-- **Removing a binding gives up its post, and with the last one those of its entry.** -/
theorem posts_remove (hfit : b.Fit) {id : RecordId} {e : Entry} (he : b.registry.entryOf? id = some e)
    (key : BindingKey) :
    (Binder.posts n { b with registry := b.registry.remove id key } ++
        ((b.registry.find? id key).toList.flatMap (·.posts b.scope.root) ++
          if b.registry.isLast id key then listenerPosts n e else [])).Perm (b.posts n) := by
  classical
  obtain ⟨before, behind, hsplit, hmodify, hclose⟩ := hfit.tidy.split he
  have hold := (perm_filter_key (hfit.tidy.entries e (entryOf?_eq_some he).1).keys key).flatMap_right
    (·.posts b.scope.root)
  have hfind : b.registry.find? id key = e.bindings.find? (·.key = key) := by
    unfold Registry.find?
    rw [bindingsOf_of_entryOf? he]
  refine List.perm_iff_count.mpr fun p => ?_
  have hcount := hold.count_eq p
  unfold Binder.posts Registry.remove
  by_cases hlast : b.registry.isLast id key = true
  · have hnil : e.bindings.filter (·.key ≠ key) = [] := by
      refine List.filter_eq_nil_iff.mpr fun x hx => ?_
      rw [isLast, bindingsOf_of_entryOf? he, List.all_eq_true] at hlast
      simpa using hlast x hx
    simp only [if_pos hlast, hclose, hfind]
    rw [hsplit]
    simp only [List.flatMap_append, List.flatMap_cons, posts_entry, List.count_append, hnil,
      List.flatMap_nil, List.count_nil] at hcount ⊢
    omega
  · have hwithout : (e.without key).posts n b.scope.root =
        (e.bindings.filter (·.key ≠ key)).flatMap (·.posts b.scope.root) ++ listenerPosts n e := rfl
    simp only [if_neg hlast, hmodify (·.without key), hfind]
    rw [hsplit]
    simp only [List.flatMap_append, List.flatMap_cons, hwithout, posts_entry, List.count_append,
      List.count_nil] at hcount ⊢
    omega

theorem posts_filter (p : Entry → Bool) :
    (Binder.posts n { b with registry := b.registry.filter fun e => !p e } ++
        (b.registry.filter p).flatMap (Entry.posts n b.scope.root)).Perm (b.posts n) := by
  classical
  have hperm := (List.filter_append_perm p b.registry).flatMap_right (Entry.posts n b.scope.root)
  refine List.perm_iff_count.mpr fun x => ?_
  have hcount := hperm.count_eq x
  unfold Binder.posts
  simp only [List.flatMap_append, List.count_append] at hcount ⊢
  omega

end Posts

theorem binders_dropAll (gs : List Guard) (s : Store) : (s.dropAll gs).binders = s.binders := by
  induction gs generalizing s with
  | nil => rfl
  | cons g rest ih => exact (ih _).trans (Wired.binders_drop s g)

/-! ## Making bindings -/

theorem binder_log (notice : Notice) : (s.log notice).binder n = s.binder n := rfl

theorem binder_subscribe (ch : Channel) (listener : Listener) :
    (s.subscribe ch listener).1.binder n = s.binder n := by cases ch <;> rfl

theorem extends_warnMissing (config : Config) (id : RecordId) (triggers : Option (List String)) :
    s.Extends (s.warnMissing config id triggers) := by
  unfold warnMissing
  split
  · exact s.extends_logAll _ _ fun _ => rfl
  · exact .refl s

/-- A change of the registry that keeps the shape of its binder. -/
theorem fit_registry {b : Binder} (hfit : b.Fit) (hlive : b.retired = false) {registry : Registry}
    (htidy : registry.Tidy) (hentries : ∀ e ∈ registry, e.Fit b.scope.tree) :
    Binder.Fit { b with registry } :=
  ⟨htidy, hentries, hfit.collections, fun hretired => by simp [hlive] at hretired⟩

/-- The binder after an entry was opened. -/
theorem binder_listen (hn : n < s.binders.size) (id : RecordId) :
    (s.listen n id).binder n = { s.binder n with
      registry := Registry.openEntry ⟨id, [], ⟨.changes id, (s.roster (.changes id)).next⟩,
        ⟨.requests id, ((s.subscribe (.changes id) (.repaint n id)).1.roster (.requests id)).next⟩⟩
          (s.binder n).registry } := by
  have hsize : n < ((s.subscribe (.changes id) (.repaint n id)).1.subscribe (.requests id)
      (.repaintAll n id)).1.binders.size := hn
  unfold listen modifyRegistry
  rw [binder_modifyBinder, if_pos ⟨rfl, hsize⟩]
  rfl

/-- **Opening an entry subscribes its two listeners.** -/
theorem listen_rewires (hn : n < s.binders.size) (hfit : (s.binder n).Fit)
    (hlive : (s.binder n).retired = false) {id : RecordId} (halive : (s.record id).alive = true)
    (hno : (s.binder n).registry.entryOf? id = none) : Rewires n a (s, l) (s.listen n id, l) := by
  have hthere : s.HasChannel (.changes id) := s.lt_of_alive halive
  have hfollows : Follows [] s (s.subscribe (.changes id) (.repaint n id)).1 := follows_subscribe _ _ _
  have halive' : ((s.subscribe (.changes id) (.repaint n id)).1.record id).alive = true := by
    rw [hfollows.alive id hthere (List.not_mem_nil)]
    exact halive
  have hfirst := Rewires.single (.subscribed (n := n) (a := a) (l := l) (.changes id) (.repaint n id) rfl
    hthere halive)
  have hsecond := hfirst.tail (.subscribed (.requests id) (.repaintAll n id) rfl
    (Store.lt_of_alive _ halive') halive')
  refine (hsecond.tail (.extended (extends_log _ (.attached id) rfl))).tail
    (.rebound l _ hn (fun _ => ⟨rfl, rfl⟩) (.inl fun _ => rfl) ?_ ?_)
  · have hposts := posts_openEntry n (s.binder n) ⟨id, [], ⟨.changes id, (s.roster (.changes id)).next⟩,
      ⟨.requests id, ((s.subscribe (.changes id) (.repaint n id)).1.roster (.requests id)).next⟩⟩
    refine (hposts.append_right l).trans ?_
    rw [posts_entry]
    simp only [List.flatMap_nil, List.nil_append, listenerPosts, List.cons_append]
    exact (List.Perm.swap ..).trans (List.perm_append_comm_assoc [_, _] _ _)
  · refine fit_registry hfit hlive (Registry.tidy_openEntry hfit.tidy hno rfl) fun e he => ?_
    rcases List.mem_cons.mp ((Registry.openEntry_perm _ _).mem_iff.mp he) with rfl | he
    · exact ⟨rfl, rfl, by simp⟩
    · exact hfit.entries e he

theorem guards_posts (root : Nat) (b : Binding) : (b.posts root).map Prod.fst = b.guard.toList := by
  simp [Binding.posts, Function.comp_def]

/-- The selector that a two-way binding with some text for it listens with. -/
def listenedWith (text : String) : Option Selector :=
  if Text.isBlankText text then none else (Selector.parse (Text.trim text)).toOption

/-- **A handler with the selector that is listened with** gives a guard that the binding can keep. -/
theorem attachBack_rewires (hscope : (s.binder n).scope.tree < s.trees.size) {p : Prepared} {event field : String}
    (hevent : p.event = some event) (hfield : p.normalized.accessor.field? = some field) {selector : Option Selector}
    (hselector : selector = listenedWith p.key.selector) (haccepts : Binding.accepts p.key.selector = true) :
    let r := (s.observe (.delegate event p.key.selector)).attachHandler (s.binder n).scope event selector
      (.writeBack ⟨p.record, field, Attribute.classify p.key.attr, p.normalized.negate⟩)
    Rewires n a (s, l) (r.1, (Prepared.binding p (some r.2)).posts (s.binder n).scope.root ++ l) ∧
      (Prepared.binding p (some r.2)).Fit (s.binder n).scope.tree := by
  intro r
  have hdelegation : (Prepared.binding p (some r.2)).delegation (s.binder n).scope.root =
      ⟨event, selector, (s.binder n).scope.root,
        .writeBack ⟨p.record, field, Attribute.classify p.key.attr, p.normalized.negate⟩⟩ := by
    simp [Prepared.binding, Binding.delegation, Binding.target, listenedWith, hevent, hfield, hselector]
  have hposts : (Prepared.binding p (some r.2)).posts (s.binder n).scope.root =
      [(⟨.delegations (s.binder n).scope.tree,
        ((s.observe (.delegate event p.key.selector)).roster (.delegations (s.binder n).scope.tree)).next⟩,
        .handler ⟨event, selector, (s.binder n).scope.root,
          .writeBack ⟨p.record, field, Attribute.classify p.key.attr, p.normalized.negate⟩⟩)] := by
    rw [Binding.posts, hdelegation]
    rfl
  refine ⟨?_, ?_, ?_, ?_⟩
  · rw [hposts]
    exact (Rewires.extended (s.extends_observe _) l).tail (.delegated _ _ _ _ hscope)
  · simp [Prepared.binding, Binding.writesBack, hevent, haccepts]
  · intro g hg
    rw [← Option.some.inj hg]
    rfl
  · intro _
    simp [Prepared.binding, hfield]

/-- **The handler that writes a binding back is attached exactly if it can be.** -/
theorem listenBack_rewires (hscope : (s.binder n).scope.tree < s.trees.size) {p : Prepared}
    (hfield : p.event.isSome → p.normalized.accessor.field?.isSome) :
    Rewires n a (s, l) ((s.listenBack n p).1,
        (Prepared.binding p (s.listenBack n p).2).posts (s.binder n).scope.root ++ l) ∧
      (Prepared.binding p (s.listenBack n p).2).Fit (s.binder n).scope.tree := by
  cases hevent : p.event with
  | none =>
    have hnone : s.listenBack n p = (s, none) := by simp only [listenBack, hevent]
    rw [hnone]
    refine ⟨.refl _, ?_, by simp [Prepared.binding], by simp [Prepared.binding, hevent]⟩
    simp [Prepared.binding, Binding.writesBack, hevent]
  | some event =>
    obtain ⟨field, hfield⟩ := Option.isSome_iff_exists.mp (hfield (by simp [hevent]))
    simp only [listenBack, hevent, hfield, delegate]
    split
    · next hblank =>
      exact attachBack_rewires hscope hevent hfield (by simp [listenedWith, hblank])
        (by simp [Binding.accepts, hblank])
    · next hblank =>
      split
      · next selector hparse =>
        exact attachBack_rewires hscope hevent hfield (by simp [listenedWith, hblank, hparse, Except.toOption])
          (by simp [Binding.accepts, hparse, Except.isOk, Except.toBool])
      · next error hparse =>
        -- a selector that is refused leaves a message and no guard, and the binding does not write back
        refine ⟨?_, ?_, by simp [Prepared.binding], fun _ => by simp [Prepared.binding, hfield]⟩
        · exact (Rewires.extended (s.extends_observe _) l).tail (.extended (extends_log _ _ rfl))
        · simp [Prepared.binding, Binding.writesBack, Binding.accepts, hevent, hblank, hparse, Except.isOk,
            Except.toBool]

/-- **Registering a binding swaps its post for that of the binding it replaces.** -/
theorem register_rewires (hn : n < s.binders.size) (hfit : (s.binder n).Fit)
    (hlive : (s.binder n).retired = false) {b : Binding} (hb : b.Fit (s.binder n).scope.tree)
    {e : Registry.Entry} (he : (s.binder n).registry.entryOf? b.record = some e) :
    Rewires n a (s, b.posts (s.binder n).scope.root ++ l) (s.register n b, l) := by
  let old := (s.binder n).registry.find? b.record b.key
  have hfit' : Binder.Fit { s.binder n with registry := (s.binder n).registry.insert b } := by
    refine fit_registry hfit hlive (Registry.tidy_insert hfit.tidy b) fun x hx => ?_
    obtain ⟨y, hy, rfl⟩ := List.mem_map.mp hx
    have hentry := hfit.entries y hy
    split
    · refine ⟨hentry.onChange, hentry.onRequest, fun z hz => ?_⟩
      rcases List.mem_append.mp hz with hz | hz
      · exact hentry.bindings z (List.mem_filter.mp hz).1
      · rw [List.mem_singleton.mp hz]
        exact hb
    · exact hentry
  have hposts := (posts_insert n _ hfit he).append_right l
  rw [List.append_assoc, List.append_assoc] at hposts
  have hinsert : Rewires n a (s, b.posts (s.binder n).scope.root ++ l)
      (s.modifyRegistry n (·.insert b), old.toList.flatMap (·.posts (s.binder n).scope.root) ++ l) :=
    .single (.rebound _ _ hn (fun _ => ⟨rfl, rfl⟩) (.inl fun _ => rfl) hposts hfit')
  unfold register
  cases hold : (s.binder n).registry.find? b.record b.key with
  | none => simpa [old, hold] using hinsert
  | some x =>
    simp only [old, hold, Option.toList_some, List.flatMap_cons, List.flatMap_nil, List.append_nil] at hinsert
    have hdrop := Rewires.dropAll (n := n) (a := a) (x.posts (s.binder n).scope.root) l
      ((s.modifyRegistry n (·.insert b)).log (.replaced b.record b.key))
    rw [guards_posts] at hdrop
    exact (hinsert.tail (.extended (extends_log _ _ rfl))).trans hdrop

theorem Rewire.fit {x y : Store × List Post} (h : Rewire n a x y) (hfit : (x.1.binder n).Fit) :
    (y.1.binder n).Fit := by
  cases h with
  | extended h => rwa [h.binder]
  | subscribed => rwa [binder_subscribe]
  | delegated => exact hfit
  | @dropped s l g => simpa only [Store.binder, Wired.binders_drop] using hfit
  | rebound l' f hn _ _ _ hfit' => rwa [binder_modifyBinder, if_pos ⟨rfl, hn⟩]

theorem Rewires.fit {x y : Store × List Post} (h : Rewires n a x y) (hfit : (x.1.binder n).Fit) :
    (y.1.binder n).Fit := by
  induction h with
  | refl => exact hfit
  | tail _ hlast ih => exact hlast.fit ih

/-- The store in which the entry of a binding's record is open. -/
def opened (s : Store) (n : Nat) (p : Prepared) : Store :=
  let s := s.warnMissing (s.binder n).config p.record p.normalized.triggers
  if (s.binder n).registry.has p.record then s else s.listen n p.record

/-- Putting a binding into effect: open the entry, attach the handler, register, and maybe render. -/
theorem commit_eq (s : Store) (n : Nat) (p : Prepared) :
    s.commit n p =
      let r := (s.opened n p).listenBack n p
      let b := Prepared.binding p r.2
      if p.autoRender then (r.1.register n b).render n b else r.1.register n b := rfl

/-- The registry in which the entry of a binding's record is open. -/
theorem opened_registry (hn : n < s.binders.size) (p : Prepared) :
    ∃ e, ((s.opened n p).binder n).registry.entryOf? p.record = some e ∧
      (∀ id, ((s.opened n p).binder n).registry.bindingsOf id = (s.binder n).registry.bindingsOf id) ∧
      ∀ x ∈ ((s.opened n p).binder n).registry, x ∈ (s.binder n).registry ∨ x.record = p.record := by
  have hextends := s.extends_warnMissing (s.binder n).config p.record p.normalized.triggers
  unfold opened
  simp only
  split
  · next hhas =>
    obtain ⟨e, he⟩ := Option.isSome_iff_exists.mp hhas
    exact ⟨e, he, fun id => by rw [hextends.binder], fun x hx => .inl (by rwa [hextends.binder] at hx)⟩
  · next hhas =>
    have hno := Option.not_isSome_iff_eq_none.mp hhas
    rw [hextends.binder] at hno
    have hn' := hn
    rw [← hextends.binders] at hn'
    rw [binder_listen hn', hextends.binder]
    refine ⟨_, (Registry.entryOf?_openEntry hno _).trans (if_pos rfl), Registry.bindingsOf_openEntry hno rfl,
      fun x hx => ?_⟩
    rcases List.mem_cons.mp ((Registry.openEntry_perm _ _).mem_iff.mp hx) with rfl | hx
    · exact .inr rfl
    · exact .inl hx

theorem opened_rewires (hn : n < s.binders.size) (hfit : (s.binder n).Fit)
    (hlive : (s.binder n).retired = false) {p : Prepared} (halive : (s.record p.record).alive = true) :
    Rewires n a (s, l) (s.opened n p, l) := by
  have hextends := s.extends_warnMissing (s.binder n).config p.record p.normalized.triggers
  have hwarn := Rewires.extended (n := n) (a := a) hextends l
  unfold opened
  simp only
  split
  · exact hwarn
  · next hhas =>
    have hno := Option.not_isSome_iff_eq_none.mp hhas
    refine hwarn.trans (listen_rewires ?_ ?_ ?_ ?_ hno)
    · rwa [hextends.binders]
    · rwa [hextends.binder]
    · rwa [hextends.binder]
    · rwa [hextends.alive _ (s.lt_of_alive halive)]

theorem binders_listenBack (s : Store) (n : Nat) (p : Prepared) :
    (s.listenBack n p).1.binders = s.binders := by
  unfold listenBack delegate
  split
  · split
    · rfl
    · split <;> rfl
  · rfl

/-- **Putting a checked binding into effect ends with no guard in hand.** -/
theorem commit_rewires (hn : n < s.binders.size) (hfit : (s.binder n).Fit)
    (hlive : (s.binder n).retired = false) (hscope : (s.binder n).scope.tree < s.trees.size) {p : Prepared}
    (halive : (s.record p.record).alive = true)
    (hfield : p.event.isSome → p.normalized.accessor.field?.isSome) :
    Rewires n (.bound p) (s, l) (s.commit n { p with autoRender := false }, l) := by
  let q : Prepared := { p with autoRender := false }
  have hopen : Rewires n (.bound p) (s, l) (s.opened n q, l) := opened_rewires hn hfit hlive halive
  obtain ⟨e, he, -, -⟩ := opened_registry hn q
  have hfollows := hopen.follows
  have hsettings := (hfollows.settings n (by simp [actsOf_act])).1
  have hlive' : ((s.opened n q).binder n).retired = false := by
    rw [hfollows.retired n (by simp [actsOf_act]) (by simp [actsOf_act]), hlive]
  have hscope' : ((s.opened n q).binder n).scope.tree < (s.opened n q).trees.size := by
    rw [hsettings]
    exact Nat.lt_of_lt_of_le hscope hfollows.trees
  have hback := listenBack_rewires (n := n) (a := .bound p) (l := l) hscope' (p := q) hfield
  have hbinders := binders_listenBack (s.opened n q) n q
  have hbinder : ((s.opened n q).listenBack n q).1.binder n = (s.opened n q).binder n := by
    simp only [Store.binder, hbinders]
  have hregister := register_rewires (n := n) (a := .bound p) (l := l)
    (s := ((s.opened n q).listenBack n q).1) (b := Prepared.binding q ((s.opened n q).listenBack n q).2)
    (e := e)
    (by rw [hbinders]; exact Nat.lt_of_lt_of_le hn hfollows.binders)
    (by rw [hbinder]; exact hopen.fit hfit) (by rw [hbinder]; exact hlive') (by rw [hbinder]; exact hback.2)
    (by rw [hbinder]; exact he)
  rw [hbinder] at hregister
  exact (hopen.trans hback.1).trans hregister

/-! ## Removing bindings, and collections -/

/-- The binder of a registry with entries is there. -/
theorem lt_of_entryOf? {id : RecordId} {e : Registry.Entry} (h : (s.binder n).registry.entryOf? id = some e) :
    n < s.binders.size := by
  by_contra hn
  rw [s.binder_of_size_le hn] at h
  simp [default, Binder.ofScope, Registry.entryOf?] at h

/-- A key that is found stands in an entry. -/
theorem entryOf?_of_find? {registry : Registry} {id : RecordId} {key : BindingKey}
    (h : (registry.find? id key).isSome) : ∃ e, registry.entryOf? id = some e := by
  cases he : registry.entryOf? id with
  | some e => exact ⟨e, rfl⟩
  | none => simp [Registry.find?, Registry.bindingsOf_of_none he] at h

/-- A binder with an entry is not retired. -/
theorem not_live_of_entry (hfit : (s.binder n).Fit) {id : RecordId} {e : Registry.Entry}
    (h : (s.binder n).registry.entryOf? id = some e) : (s.binder n).retired = false := by
  by_contra hretired
  have hnil := (hfit.retired (Bool.not_eq_false _ ▸ hretired)).1
  rw [hnil] at h
  simp [Registry.entryOf?] at h

/-- **Removing a binding drops its guards**, and with the last one those of its entry. -/
theorem removeBinding_rewires (hfit : (s.binder n).Fit) {id : RecordId} {key : BindingKey}
    (h : ((s.binder n).registry.find? id key).isSome) :
    Rewires n a (s, l) (s.removeBinding n id key, l) := by
  obtain ⟨e, he⟩ := entryOf?_of_find? h
  have hlive := not_live_of_entry hfit he
  have hposts := (posts_remove n _ hfit he key).append_right l
  rw [List.append_assoc] at hposts
  have hfit' : Binder.Fit { s.binder n with registry := (s.binder n).registry.remove id key } := by
    refine fit_registry hfit hlive (Registry.tidy_remove hfit.tidy id key) fun x hx => ?_
    unfold Registry.remove at hx
    split at hx
    · exact hfit.entries x (List.mem_filter.mp hx).1
    · obtain ⟨y, hy, rfl⟩ := List.mem_map.mp hx
      have hentry := hfit.entries y hy
      split
      · exact ⟨hentry.onChange, hentry.onRequest, fun z hz => hentry.bindings z (List.mem_filter.mp hz).1⟩
      · exact hentry
  -- what is dropped are the guards of the posts that are given up
  have hguards : (((s.binder n).registry.find? id key).toList.flatMap (·.posts (s.binder n).scope.root) ++
      if (s.binder n).registry.isLast id key then listenerPosts n e else []).map Prod.fst =
      handlerGuards ((s.binder n).registry.find? id key).toList ++
        if (s.binder n).registry.isLast id key then
          (((s.binder n).registry.entryOf? id).map fun e => [e.onChange, e.onRequest]).getD []
        else [] := by
    obtain ⟨b, hb⟩ := Option.isSome_iff_exists.mp h
    cases hguard : b.guard <;> cases hlast : (s.binder n).registry.isLast id key <;>
      simp [hb, he, handlerGuards, Binding.posts, hguard, listenerPosts]
  have hremove : Rewires n a (s, l) (s.modifyRegistry n (·.remove id key), _) :=
    .single (.rebound _ _ (lt_of_entryOf? he) (fun _ => ⟨rfl, rfl⟩) (.inl fun _ => rfl) hposts hfit')
  have hdrop := hremove.trans (.dropAll _ l _)
  rw [hguards] at hdrop
  exact hdrop

/-- A change of a binder that is not there changes nothing. -/
theorem modifyBinder_of_size_le (hn : ¬n < s.binders.size) (f : Binder → Binder) : s.modifyBinder n f = s := by
  have hmodify : s.binders.modify n f = s.binders := by
    refine Array.ext (Array.size_modify ..) fun i hi _ => ?_
    have hne : n ≠ i := fun heq => hn (by rw [heq]; simpa using hi)
    simp [Array.getElem_modify, hne]
  simp only [modifyBinder, hmodify]

/-- Letting go of guards that a binder keeps, then dropping them. -/
theorem release_rewires (f : Binder → Binder) (gone : List Post)
    (hsettings : ∀ b, (f b).scope = b.scope ∧ (f b).config = b.config)
    (hretired : (∀ b, (f b).retired = b.retired) ∨ a = .retired ∧ ∀ b, (f b).retired = true)
    (hposts : ((f (s.binder n)).posts n ++ gone).Perm ((s.binder n).posts n))
    (hfit : (f (s.binder n)).Fit) : Rewires n a (s, l) (s.modifyBinder n f, gone ++ l) := by
  by_cases hn : n < s.binders.size
  · refine .single (.rebound _ f hn hsettings hretired ?_ hfit)
    rw [← List.append_assoc]
    exact hposts.append_right l
  · have hnil : gone = [] := by
      have hsub := hposts.length_eq
      rw [s.binder_of_size_le hn] at hsub
      have hempty : (default : Binder).posts n = [] := by simp [Binder.posts, default, Binder.ofScope]
      rw [hempty, List.length_append] at hsub
      exact List.length_eq_zero_iff.mp (by simp at hsub; exact hsub.2 ▸ rfl)
    rw [modifyBinder_of_size_le hn, hnil]
    exact .refl _

/-- **Closing entries drops all their guards.** -/
theorem unbindAll_rewires (hfit : (s.binder n).Fit) (id : Option RecordId) :
    Rewires n a (s, l) (s.unbindAll n id, l) := by
  let closes : Registry.Entry → Bool := fun e => id.all (e.record = ·)
  have hgone := release_rewires (s := s) (n := n) (a := a) (l := l)
    (fun b => { b with registry := b.registry.filter fun e => !closes e })
    (((s.binder n).registry.filter closes).flatMap (Registry.Entry.posts n (s.binder n).scope.root))
    (fun _ => ⟨rfl, rfl⟩) (.inl fun _ => rfl) (posts_filter n _ closes)
    ⟨Registry.tidy_filter hfit.tidy _, fun e he => hfit.entries e (List.mem_filter.mp he).1,
      hfit.collections, fun h => ⟨by rw [(hfit.retired h).1]; rfl, (hfit.retired h).2⟩⟩
  have hguards : (((s.binder n).registry.filter closes).flatMap
      (Registry.Entry.posts n (s.binder n).scope.root)).map Prod.fst =
      ((s.binder n).registry.filter closes).flatMap entryGuards := by
    simp [List.map_flatMap, guards_entry]
  have hdrop := (hgone.tail (.extended (extends_logAll _
    (fun e : Registry.Entry => .detachedAll e.record e.bindings.length)
    ((s.binder n).registry.filter closes) fun _ => rfl))).trans (.dropAll _ l _)
  rw [hguards] at hdrop
  exact hdrop

theorem leaveCollections_rewires (hfit : (s.binder n).Fit) :
    Rewires n a (s, l) (s.leaveCollections n, l) := by
  have hgone := release_rewires (s := s) (n := n) (a := a) (l := l)
    (fun b => { b with collectionGuards := [] })
    ((s.binder n).collectionGuards.map fun g => (g, .listener (Binder.collectionListener n g.channel)))
    (fun _ => ⟨rfl, rfl⟩) (.inl fun _ => rfl) (by simp [Binder.posts])
    ⟨hfit.tidy, hfit.entries, fun _ hg => absurd hg (by simp), fun h => ⟨(hfit.retired h).1, rfl⟩⟩
  have hdrop := hgone.trans (.dropAll _ l _)
  rw [List.map_map] at hdrop
  simpa [leaveCollections, Function.comp_def] using hdrop

/-- **A retired binder keeps no guard.** -/
theorem retire_rewires : Rewires n .retired (s, l) (s.retire n, l) := by
  have hgone := release_rewires (s := s) (n := n) (a := .retired) (l := l)
    (fun b => { b with registry := [], collectionGuards := [], retired := true }) ((s.binder n).posts n)
    (fun _ => ⟨rfl, rfl⟩) (.inr ⟨rfl, fun _ => rfl⟩) (by simp [Binder.posts])
    ⟨Registry.sound_nil.toTidy, fun _ he => absurd he (by simp), fun _ hg => absurd hg (by simp),
      fun _ => ⟨rfl, rfl⟩⟩
  have hdrop := hgone.trans (.dropAll _ l _)
  rw [guards_binder] at hdrop
  exact hdrop

/-- **Listening to a collection takes two posts.** -/
theorem listenCollection_rewires (hn : n < s.binders.size) (hfit : (s.binder n).Fit)
    (hlive : (s.binder n).retired = false) {c : Nat} (hc : c < s.collections.size) :
    Rewires n a (s, l) (s.listenCollection n c, l) := by
  have hfollows : Follows [] s (s.subscribe (.removals c) (.dropMember n)).1 := follows_subscribe _ _ _
  have hfirst := Rewires.single (.subscribed (n := n) (a := a) (l := l) (.removals c) (.dropMember n) rfl hc
    trivial)
  have hsecond := hfirst.tail (.subscribed (.resets c) (.dropAll n) rfl
    (Nat.lt_of_lt_of_le hc hfollows.collections) trivial)
  refine hsecond.tail (.rebound l _ hn (fun _ => ⟨rfl, rfl⟩) (.inl fun _ => rfl) ?_ ?_)
  · rw [binder_subscribe, binder_subscribe]
    simp only [Binder.posts, List.map_append, List.append_assoc, List.map_cons, List.map_nil]
    refine (List.Perm.append_left _ (List.Perm.append_left _ ?_))
    exact List.Perm.swap ..
  · rw [binder_subscribe, binder_subscribe]
    refine ⟨hfit.tidy, hfit.entries, fun g hg => ?_, fun h => absurd h (by simp [hlive])⟩
    rcases List.mem_append.mp hg with hg | hg
    · exact hfit.collections g hg
    · rcases List.mem_pair.mp hg with rfl | rfl
      · exact ⟨c, .inl rfl⟩
      · exact ⟨c, .inr rfl⟩

end Databind.Store
