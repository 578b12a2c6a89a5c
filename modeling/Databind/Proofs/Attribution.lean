import Databind.Proofs.Accounting
import Databind.Proofs.Run

/-!
# `Proofs.Attribution` — whose listener a guard stands for

Posts say who is held under a guard. Under the guard of a post nobody else is listed either, be it as a listener whose
guard was dropped and who is pinned still, or on the channels of a record that was destroyed: identities are given out
once, and nobody is listed under one that was given to somebody else.

## Main definitions

* `Store.Attributed` — whoever is listed under the guard of a post is its listener.
-/

namespace Databind

namespace Store

/-- **Whoever is listed under the guard of a post is its listener**, held or not. -/
def Attributed (s : Store) (ps : List Post) : Prop :=
  ∀ p ∈ ps, ∀ e ∈ (s.roster p.1.channel).entries, e.id = p.1.id → e.listener = p.2

variable {s s' : Store} {n : Nat} {a : Act}

namespace Attributed

variable {ps ps' l : List Post}

/-- Listeners come and go, and no posts are new. -/
theorem of_grows (h : s.Attributed ps) (hfresh : ∀ p ∈ ps, p.1.id < (s.roster p.1.channel).next)
    (hgrows : ∀ ch, (s.roster ch).Grows (s'.roster ch)) (hps : ∀ p ∈ ps', p ∈ ps) : s'.Attributed ps' := by
  intro p hp e he hid
  obtain ⟨e₀, he₀, hid₀, hlistener⟩ := (hgrows p.1.channel).listed e he (hid ▸ hfresh p (hps p hp))
  exact hlistener ▸ h p (hps p hp) e₀ he₀ (hid₀.trans hid)

/-- **A new listener is listed under its own guard.** -/
theorem subscribe (hw : s.Wired l) (h : s.Attributed (s.posts ++ l)) {ch : Channel} {x : Hearer}
    (hgrows : ∀ ch, (s.roster ch).Grows (s'.roster ch)) (hbinders : s'.binders = s.binders)
    (hroster : s'.roster ch = (s.roster ch).subscribe x) :
    s'.Attributed (s'.posts ++ (⟨ch, (s.roster ch).next⟩, x) :: l) := by
  have hold : s'.Attributed (s.posts ++ l) := h.of_grows hw.fresh hgrows fun _ => id
  rw [posts_congr hbinders]
  intro p hp
  rcases List.mem_cons.mp (List.perm_middle.mem_iff.mp hp) with rfl | hp
  · intro e he hid
    simp only [hroster, Roster.subscribe] at he
    rcases List.mem_append.mp he with he | he
    · exact absurd hid (Nat.ne_of_lt ((hw.rosters ch).fresh e he))
    · rw [List.mem_singleton.mp he]
  · exact hold p hp

end Attributed

/-! ## Moves -/

/-- **A move lists nobody under the guard of somebody else.** -/
theorem Rewire.attributed {x y : Store × List Post} (h : Rewire n a x y) (hw : x.1.Wired x.2)
    (hx : x.1.Attributed (x.1.posts ++ x.2)) : y.1.Attributed (y.1.posts ++ y.2) := by
  have hgrows := h.follows.rosters
  cases h with
  | extended h =>
    rw [posts_congr h.binders]
    exact hx.of_grows hw.fresh hgrows fun _ => id
  | @subscribed s l ch listener htree hthere hopen =>
    refine hx.subscribe hw hgrows (by cases ch <;> rfl) ?_
    rw [roster_subscribe s listener htree, if_pos ⟨rfl, hthere⟩]
  | @delegated s l scope event selector handler hthere =>
    refine hx.subscribe hw hgrows rfl ?_
    rw [roster_attachHandler, if_pos ⟨rfl, hthere⟩]
  | dropped g z =>
    refine hx.of_grows hw.fresh hgrows fun p hp => ?_
    rw [posts_congr (Wired.binders_drop _ g)] at hp
    exact List.perm_middle.mem_iff.mpr (List.mem_cons_of_mem _ hp)
  | rebound l' f hn hsettings hretired hposts hfit =>
    exact hx.of_grows hw.fresh hgrows fun p hp => (posts_modifyBinder hn hposts).mem_iff.mp hp

theorem Rewires.attributed {x y : Store × List Post} (h : Rewires n a x y) (hw : x.1.Wired x.2)
    (hx : x.1.Attributed (x.1.posts ++ x.2)) : y.1.Attributed (y.1.posts ++ y.2) := by
  induction h with
  | refl => exact hx
  | tail hfirst hlast ih => exact hlast.attributed (hfirst.wired hw) ih

end Store

open Store

/-! ## Effects and runs -/

/-- **One effect** lists nobody under the guard of somebody else. -/
theorem Effect.attributed {a b : Scene} {ds : List Deed} (h : Effect a ds b) (ha : a.Sound)
    (hposts : a.store.Attributed a.store.posts) : b.store.Attributed b.store.posts := by
  have hw := ha.wired
  have hgrows := (h.upkeep ha).1.rosters
  have rewires {s s' : Store} {n : Nat} (act : Act) (hr : Rewires n act (s, []) (s', [])) (hw : s.Wired [])
      (hs : s.Attributed s.posts) : s'.Attributed s'.posts := by
    have hdone := hr.attributed hw (by simpa using hs)
    simpa using hdone
  have same (hposts' : b.store.posts = a.store.posts) : b.store.Attributed b.store.posts := by
    rw [hposts']
    exact hposts.of_grows (fun p hp => hw.fresh p (List.mem_append_left _ hp)) hgrows fun _ => id
  cases h with
  | extended h => exact same (posts_congr h.binders)
  | addedBinder scope config hscope => exact same (posts_addBinder _ scope config)
  | bound n p hlive halive hfield =>
    exact rewires (.bound p) (commit_rewires (lt_of_not_retired _ hlive) (hw.fit n) hlive (hw.scopes n hlive) halive hfield)
      hw hposts
  | removed n id key h => exact rewires (.removed id key) (removeBinding_rewires (hw.fit n) h) hw hposts
  | cleared n id => exact rewires (.cleared id) (unbindAll_rewires (hw.fit n) id) hw hposts
  | joined n c hlive hc =>
    exact rewires (.joined c) (listenCollection_rewires (lt_of_not_retired _ hlive) (hw.fit n) hlive hc) hw hposts
  | left n => exact rewires .left (leaveCollections_rewires (hw.fit n)) hw hposts
  | retired n => exact rewires .retired retire_rewires hw hposts
  | @rendered s calls n x => exact same (posts_congr (s.keeps_render n x).binders)
  | subscribed ch k => exact same (posts_congr (by cases ch <;> rfl))
  | dropped g => exact same (posts_congr (Wired.binders_drop _ g))
  | drew ch => exact same (posts_congr (by cases ch <;> rfl))
  | finished ch ids => exact same (posts_congr (by cases ch <;> rfl))
  | strayed | read | wrote | destroyed | absent | heard | delegated | clearedList | drewEvent => exact same rfl

theorem Effects.attributed {a b : Scene} {ds : List Deed} (h : Effects a ds b) (ha : a.Sound)
    (hposts : a.store.Attributed a.store.posts) : b.store.Attributed b.store.posts := by
  induction h with
  | refl => exact hposts
  | tail hfirst hlast ih => exact hlast.attributed (hfirst.upkeep ha).2 ih

/-- **In every state of every run** whoever is listed under the guard of a post is its listener. -/
theorem Machine.Reached.attributed {m : Machine} (hm : m.Reached) : m.store.Attributed m.store.posts := by
  obtain ⟨turns, hwalk⟩ := hm
  exact (walk_does sound_initial hwalk).effects.attributed sound_initial.scene fun p hp => absurd hp List.not_mem_nil

end Databind
