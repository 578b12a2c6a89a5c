import Databind.Proofs.Dispatch
import Databind.Proofs.Holding
import Databind.Proofs.Possession

/-!
# `Proofs.Dropping` — handlers whose guard was dropped

A guard is kept by a name, or by a binding that writes back. When the last of them goes, the guard is dropped
(`Machine.not_held_of_dropped`): names and bindings never change hands without it.

A dropped handler is live only while a dispatch that has it on its call list is running. Once there is none the
handler is spent (`Scene.Spent`), and stays so: a call list is drawn up from live handlers, so nothing that happens can
put it on one again. A dispatch therefore invokes a handler that was dropped before only if a dispatch that has it on
its call list has been running ever since the drop (`Machine.invoked_of_dropped`).

## Main definitions

* `Machine.Keeps` — somebody keeps a guard.
* `Scene.Spent` — a guard was given out and dropped, and no running call list pins its listener.
-/

namespace Databind

open Store

/-! ## Names that keep a guard -/

namespace Workspace

variable {w : Workspace} {g : Guard}

/-- A name denotes the subscription that a guard is. -/
def Guards (w : Workspace) (g : Guard) : Prop := ∃ entry ∈ w.names, entry.2 = .subscription (some g)

instance : DecidablePred w.Guards := fun g =>
  inferInstanceAs (Decidable (∃ entry ∈ w.names, entry.2 = .subscription (some g)))

/-- **Something done takes no name from a subscription without dropping it.** -/
def Careful (w : Workspace) (r : Workspace × List Task) : Prop :=
  (w.names.map Prod.fst).Nodup → ∀ g, w.Guards g → r.1.Guards g ∨ ∀ x, ¬r.1.store.Held g x

theorem careful_of_names {r : Workspace × List Task} (h : r.1.names = w.names) : w.Careful r := by
  rintro - g ⟨entry, hentry, hg⟩
  exact .inl ⟨entry, h ▸ hentry, hg⟩

/-- Letting go of a subscription drops it. -/
theorem not_held_letGo (w : Workspace) (g : Guard) (x : Hearer) :
    ¬(w.letGo (.subscription (some g))).store.Held g x := by
  intro hheld
  exact ((Wired.held_drop w.store g g x).mp hheld).2 rfl

/-- **Taking a name away** leaves a subscription its other names, or lets go of it. -/
theorem guards_of_letGo (hkeys : (w.names.map Prod.fst).Nodup) (hg : w.Guards g) {name : String} {old : Handle}
    (hold : w.handle? name = some old) {names : List (String × Handle)}
    (hnames : ∀ entry ∈ w.names, entry.1 ≠ name → entry ∈ names) :
    (letGo { w with names } old).Guards g ∨ ∀ x, ¬(letGo { w with names } old).store.Held g x := by
  obtain ⟨entry, hentry, hsub⟩ := hg
  by_cases hname : entry.1 = name
  · -- the name is the one that is taken away
    have hsame := handle?_of_nodup hkeys hentry
    rw [hname, hold, hsub] at hsame
    exact .inr (Option.some.inj hsame ▸ not_held_letGo _ g)
  · refine .inl ⟨entry, ?_, hsub⟩
    rw [names_letGo]
    exact hnames entry hentry hname

theorem careful_assign (s' : Store) (name : String) (handle : Handle) (tasks : List Task) :
    w.Careful ((w.withStore s').assign name handle, tasks) := by
  intro hkeys g hg
  have hnames : ∀ entry ∈ w.names, entry.1 ≠ name → entry ∈ (name, handle) :: w.names.filter (·.1 ≠ name) := by
    intro entry hentry hne
    exact List.mem_cons_of_mem _ (List.mem_filter.mpr ⟨hentry, by simpa using hne⟩)
  simp only [assign]
  cases hold : (w.withStore s').handle? name with
  | none =>
    obtain ⟨entry, hentry, hsub⟩ := hg
    refine .inl ⟨entry, hnames entry hentry ?_, hsub⟩
    rintro rfl
    have hnone := List.lookup_eq_none_iff.mp hold entry hentry
    simp at hnone
  | some old => exact guards_of_letGo (w := w.withStore s') hkeys hg hold hnames

theorem careful_forget (name : String) (tasks : List Task) : w.Careful ((w.forget name).1, tasks) := by
  intro hkeys g hg
  simp only [forget]
  cases hold : w.handle? name with
  | none => exact .inl hg
  | some old =>
    refine guards_of_letGo hkeys hg hold ?_
    intro entry hentry hne
    exact List.mem_filter.mpr ⟨hentry, by simpa using hne⟩

theorem Becomes.careful {w' : Workspace} (h : w.Becomes w') (tasks : List Task) : w.Careful (w', tasks) := by
  cases h with
  | same => exact careful_of_names rfl
  | @named s' _ name handle => exact careful_assign s' name handle tasks
  | forgot name => exact careful_forget name tasks

end Workspace

open Workspace

/-- **Every command is careful with subscriptions.** -/
theorem Session.careful_perform (s : Session) (c : Command) :
    s.workspace.Careful ((s.perform c).1.workspace, (s.perform c).2) := by
  obtain ⟨name, v, -, -, hworkspace⟩ | ⟨name, v, -, -, hworkspace⟩ | hbecomes := s.perform_cases c
  · rw [hworkspace]
    exact careful_of_names rfl
  · rw [hworkspace]
    exact careful_of_names rfl
  · exact hbecomes.careful _

/-! ## Spent guards -/

/-- **A guard is spent**: it was given out and dropped, and no running call list pins its listener. -/
structure Scene.Spent (a : Scene) (g : Guard) : Prop where
  given : g.id < (a.store.roster g.channel).next
  dropped : ∀ x, ¬a.store.Held g x
  unpinned : pinsOf a.calls g.channel g.id = 0

theorem pinsOf_cons (calls : List (Channel × List Nat)) (ch ch' : Channel) (ids : List Nat) (id : Nat) :
    pinsOf ((ch, ids) :: calls) ch' id = pinsOf calls ch' id + if ch = ch' ∧ id ∈ ids then 1 else 0 := by
  simp [pinsOf, List.countP_cons]

/-- No running call list pins a listener exactly if none on its channel has it. -/
theorem pinsOf_eq_zero {calls : List (Channel × List Nat)} {ch : Channel} {id : Nat} :
    pinsOf calls ch id = 0 ↔ ¬∃ ids, (ch, ids) ∈ calls ∧ id ∈ ids := by
  simp only [pinsOf, List.countP_eq_zero, decide_eq_true_eq]
  constructor
  · rintro h ⟨ids, hcall, hid⟩
    exact h _ hcall ⟨rfl, hid⟩
  · rintro h ⟨ch', ids⟩ hcall ⟨rfl, hid⟩
    exact h ⟨ids, hcall, hid⟩

/-- Whoever an event meets is live. -/
theorem mem_live_of_met {t : Tree} {event : String} {target : Nat} {p : Roster.Entry Delegation × Nat}
    (h : p ∈ handlersMet t event target) : p.1 ∈ t.delegations.live := by
  obtain ⟨x, -, hp⟩ := List.mem_flatMap.mp h
  obtain ⟨e, he, rfl⟩ := List.mem_map.mp hp
  exact (List.mem_filter.mp he).1

namespace Scene.Spent

variable {a b : Scene} {g : Guard} {ds : List Deed}

/-- **Nobody is live under a spent guard.** -/
theorem not_live (h : a.Spent g) (hpinned : a.Pinned) : g.id ∉ (a.store.roster g.channel).live.map (·.id) := by
  intro hmem
  obtain ⟨e, he, hid⟩ := List.mem_map.mp hmem
  obtain ⟨hentry, hlive⟩ := List.mem_filter.mp he
  have hpins := hpinned g.channel e hentry
  rw [hid, h.unpinned] at hpins
  have hheld : e.held = true := by
    simpa [Roster.Entry.isLive, Nat.le_zero.mp hpins] using hlive
  exact h.dropped e.listener ⟨e, hentry, hid, rfl, hheld⟩

/-- **A spent guard stays spent**: a call list is drawn up from live listeners. -/
theorem effect (h : a.Spent g) (ha : a.Sound) (heffect : Effect a ds b) : b.Spent g := by
  have hgrows := (heffect.upkeep ha).1.rosters g.channel
  refine ⟨Nat.lt_of_lt_of_le h.given hgrows.next, fun x hx => h.dropped x (hgrows.held _ _ h.given hx), ?_⟩
  have hunpinned := h.unpinned
  have hlive := h.not_live ha.pinned
  cases heffect with
  | @drew s calls ch =>
    rw [pinsOf_cons, hunpinned, if_neg]
    rintro ⟨rfl, hid⟩
    cases htree : g.channel.tree? with
    | none =>
      rw [Store.roster_eq_listeners s htree, Roster.live_map] at hlive
      exact hlive hid
    | some k =>
      cases hch : g.channel with
      | delegations k => simp [hch, draw, listeners, Roster.empty, Roster.live] at hid
      | _ => simp [hch, Channel.tree?] at htree
  | @drewEvent s calls k event target =>
    rw [pinsOf_cons, hunpinned, if_neg]
    rintro ⟨hch, hid⟩
    rw [← hch, Store.roster, Roster.live_map] at hlive
    obtain ⟨p, hp, hpid⟩ := List.mem_map.mp hid
    exact hlive (List.mem_map.mpr ⟨p.1, mem_live_of_met hp, hpid⟩)
  | @finished s calls ch ids =>
    rw [pinsOf_cons] at hunpinned
    exact Nat.eq_zero_of_add_eq_zero_right hunpinned
  | _ => exact hunpinned

theorem effects (h : a.Spent g) (ha : a.Sound) (heffects : Effects a ds b) : b.Spent g := by
  induction heffects with
  | refl => exact h
  | tail hbefore hlast ih => exact ih.effect (hbefore.upkeep ha).2 hlast

end Scene.Spent

namespace Machine

variable {m₀ m m' m₁ m₂ : Machine} {g : Guard} {t : Turn} {meanwhile turns : List Turn} {k i target : Nat}
  {event : String}

/-! ## Who keeps a guard -/

/-- **A guard is kept**: a name denotes the subscription, or it is that of a binding. -/
def Keeps (m : Machine) (g : Guard) : Prop := m.session.workspace.Guards g ∨ ∃ n, (m.store.binder n).Owns g

theorem keeps_iff : m.Keeps g ↔ m.session.workspace.Guards g ∨
    ∃ n ∈ List.range m.store.binders.size, (m.store.binder n).Owns g := by
  refine or_congr_right ⟨?_, fun ⟨n, _, hn⟩ => ⟨n, hn⟩⟩
  rintro ⟨n, hn⟩
  refine ⟨n, List.mem_range.mpr ?_, hn⟩
  by_contra hlt
  rw [m.store.binder_of_size_le hlt] at hn
  obtain ⟨x, hx, -⟩ := hn
  exact absurd hx List.not_mem_nil

instance : DecidablePred m.Keeps := fun _ => decidable_of_iff _ keeps_iff.symm

theorem names_call (s : Session) (n : Nat) (report : Report) :
    (s.call n report).1.workspace.names = s.workspace.names := by
  unfold Session.call
  split
  · rfl
  · split <;> rfl

/-- A task gives and takes no names. -/
theorem names_runTask (m : Machine) (rest : List Frame) (task : Task) :
    (m.runTask rest task).session.workspace.names = m.session.workspace.names := by
  cases task with
  | reply outcome => cases rest <;> rfl
  | request id => rfl
  | trigger event tree targets count => cases targets <;> rfl
  | notify ch pinned signal waiting =>
    cases waiting with
    | nil => rfl
    | cons listener waiting =>
      cases listener with
      | callback n => exact names_call m.session n _
      | _ => rfl
  | dispatch tree pinned event waiting =>
    cases waiting with
    | nil => rfl
    | cons met waiting =>
      obtain ⟨handler, x⟩ := met
      cases handler with
      | callback n => exact names_call m.session n _
      | writeBack context => rfl

theorem guards_turn (hm : m.Sound) (h : m.turn? t = some m') (hg : m.session.workspace.Guards g) :
    m'.session.workspace.Guards g ∨ ∀ x, ¬m'.store.Held g x := by
  obtain ⟨c, -, hworkspace⟩ | ⟨-, ⟨task, rest, -, rfl⟩ | hsession | hsession⟩ := workspace_of_turn h
  · rw [store, hworkspace]
    exact m.session.careful_perform c hm.named.keys g hg
  · obtain ⟨entry, hentry, hsub⟩ := hg
    exact .inl ⟨entry, (names_runTask m rest task).symm ▸ hentry, hsub⟩
  · exact .inl (hsession ▸ hg)
  · exact .inl (hsession ▸ hg)

/-- What is not held under an identity that was given out is not held later. -/
theorem not_held_turn (hm : m.Sound) (h : m.turn? t = some m') (hgiven : g.id < (m.store.roster g.channel).next)
    (hdropped : ∀ x, ¬m.store.Held g x) : ∀ x, ¬m'.store.Held g x := by
  intro x hx
  exact hdropped x ((((does_turn hm h).effects.follows hm.scene).rosters g.channel).held _ _ hgiven hx)

/-- **Along a run a subscription keeps a name, or is dropped.** -/
theorem guards_walk (hm : m.Sound) (h : m.walk? turns = some m') (hgiven : g.id < (m.store.roster g.channel).next)
    (hg : m.session.workspace.Guards g ∨ ∀ x, ¬m.store.Held g x) :
    m'.session.workspace.Guards g ∨ ∀ x, ¬m'.store.Held g x := by
  induction turns generalizing m with
  | nil =>
    cases h
    exact hg
  | cons t rest ih =>
    obtain ⟨next, hturn, h⟩ := walk?_cons h
    have hdoes := does_turn hm hturn
    have hnext := ((hdoes.effects.follows hm.scene).rosters g.channel).next
    refine ih (hdoes.sound hm) h (Nat.lt_of_lt_of_le hgiven hnext) ?_
    exact hg.elim (guards_turn hm hturn) fun hdropped => .inr (not_held_turn hm hturn hgiven hdropped)

/-- A guard that somebody keeps was given out. -/
theorem Keeps.given (hm : m.Sound) (h : m.Keeps ⟨.delegations k, i⟩) : i < (m.store.roster (.delegations k)).next := by
  obtain ⟨entry, hentry, hsub⟩ | ⟨n, x, hx, hguard⟩ := h
  · have hvalid := hm.named.valid entry hentry
    rw [hsub] at hvalid
    exact (hvalid _ rfl).1
  · have hpost := (Binder.mem_posts_delegations (n := n) (hm.scene.store_wired.fit n)).mpr ⟨x, hx, hguard, rfl⟩
    exact hm.scene.store_wired.fresh _ (List.mem_append_left _ (mem_posts.mpr ⟨n, hpost⟩))

/-- **A guard that was kept and is kept no more is dropped.** -/
theorem not_held_of_dropped (hm : m₀.Sound) (hkept : m₀.Keeps ⟨.delegations k, i⟩)
    (hwalk : m₀.walk? meanwhile = some m) (hdropped : ¬m.Keeps ⟨.delegations k, i⟩) :
    ∀ x, ¬m.store.Held ⟨.delegations k, i⟩ x := by
  have hgiven := hkept.given hm
  have hdoes := walk_does hm hwalk
  have hgrows := (hdoes.effects.follows hm.scene).rosters (.delegations k)
  obtain hnamed | ⟨n, b, hb, hguard⟩ := hkept
  · -- a name kept it, and names let go of what they denote
    rcases guards_walk hm hwalk hgiven (.inl hnamed) with hnamed | hnone
    · exact absurd (.inl hnamed) hdropped
    · exact hnone
  · -- a binding kept it, so whoever is held under it is a reaction of a binder, and binders hold what they keep
    intro x hx
    have hwired := hm.scene.store_wired
    have hpost := (Binder.mem_posts_delegations (n := n) (hwired.fit n)).mpr ⟨b, hb, hguard, rfl⟩
    have hwriter : ¬(Hearer.handler (b.delegation (m₀.store.binder n).scope.root)).IsCallback := by
      rintro ⟨_, heq⟩
      cases heq
    have hbefore := (hwired.held ⟨.delegations k, i⟩ _ hwriter).mpr
      ⟨List.mem_append_left _ (mem_posts.mpr ⟨n, hpost⟩), trivial⟩
    obtain rfl := (hwired.rosters (.delegations k)).holds_unique hbefore (hgrows.held _ _ hgiven hx)
    have hwired' := (hdoes.sound hm).scene.store_wired
    have hpost' := ((hwired'.held ⟨.delegations k, i⟩ _ hwriter).mp hx).1
    rw [List.append_nil] at hpost'
    obtain ⟨n', hpost'⟩ := mem_posts.mp hpost'
    obtain ⟨b', hb', hguard', -⟩ := (Binder.mem_posts_delegations (hwired'.fit n')).mp hpost'
    exact hdropped (.inr ⟨n', b', hb', hguard'⟩)

/-! ## Dispatches after the drop -/

theorem ok_of_toOption {ε α : Type} {x : Except ε α} {a : α} (h : x.toOption = some a) : x = .ok a := by
  cases x with
  | ok a' => exact congrArg _ (Option.some.inj h)
  | error e => cases h

/-- The handlers that an event meets, each with the element where it does. -/
def met (m : Machine) (k : Nat) (event : String) (target : Nat) : List (Roster.Entry Delegation × Nat) :=
  handlersMet (m.store.tree k) event target

/-- **A dispatch runs to its end and invokes whom the event meets.** -/
theorem invoked_of_met {base : Nat → List Frame} (hfires : m₁.Fires k event target m₂ base) :
    (∃ inside m₃, m₂.Returns (base (m₁.met k event target).length) inside m₃) ∧
      ∀ inside m₃, m₂.Returns (base (m₁.met k event target).length) inside m₃ →
        m₂.invoked (base (m₁.met k event target).length).length inside =
          (m₁.met k event target).map fun p => ⟨k, event, p.1.listener.handler, p.2⟩ := by
  obtain ⟨pinned, hstack⟩ := hfires.stack
  refine ⟨@exists_returns _ m₂ [_] hstack, ?_⟩
  intro inside m₃ hreturns
  have hinvoked := @invoked_of_returns m₂ m₃ _ inside k event pinned _ [] hstack hreturns
  exact hinvoked.trans (List.map_map ..)

/-- **Dropped handlers.** Suppose the guard of a handler was kept, by a name or by a binding, and is kept no more. Any
event that begins its way up later runs to its end and invokes exactly the handlers that it meets. If the dropped one is
among them, then in every state since the drop a dispatch on the tree has been running that has it on its call list. So an
event invokes no handler that was dropped before, be it a callback or that of a binding, unless it begins inside a dispatch
that began before the drop and was to invoke the handler itself. -/
theorem invoked_of_dropped {base : Nat → List Frame} (h₀ : m₀.Reached) (hkept : m₀.Keeps ⟨.delegations k, i⟩)
    (hmeanwhile : m₀.walk? meanwhile = some m) (hdropped : ¬m.Keeps ⟨.delegations k, i⟩)
    (hwalk : m.walk? turns = some m₁) (hfires : m₁.Fires k event target m₂ base) :
    (∃ inside m₃, m₂.Returns (base (m₁.met k event target).length) inside m₃) ∧
      (∀ inside m₃, m₂.Returns (base (m₁.met k event target).length) inside m₃ →
        m₂.invoked (base (m₁.met k event target).length).length inside =
          (m₁.met k event target).map fun p => ⟨k, event, p.1.listener.handler, p.2⟩) ∧
      ∀ p ∈ m₁.met k event target, p.1.id = i → ∀ before behind mid, turns = before ++ behind →
        m.walk? before = some mid → ∃ ids, (.delegations k, ids) ∈ mid.calls ∧ i ∈ ids := by
  obtain ⟨hreturns, hinvoked⟩ := invoked_of_met hfires
  refine ⟨hreturns, hinvoked, ?_⟩
  rintro p hp rfl before behind mid rfl hbefore
  by_contra hnone
  -- with no such dispatch running the guard is spent, and stays so until the event begins
  have hm := (h₀.walk hmeanwhile).sound
  have hdoes := walk_does hm hbefore
  have hgrows := (hdoes.effects.follows hm.scene).rosters (.delegations k)
  have hgiven : p.1.id < (m.store.roster (.delegations k)).next :=
    Nat.lt_of_lt_of_le (hkept.given h₀.sound)
      (((walk_does h₀.sound hmeanwhile).effects.follows h₀.sound.scene).rosters _).next
  have hspent : mid.scene.Spent ⟨.delegations k, p.1.id⟩ := by
    refine ⟨Nat.lt_of_lt_of_le hgiven hgrows.next, fun x hx => ?_, pinsOf_eq_zero.mpr hnone⟩
    exact not_held_of_dropped h₀.sound hkept hmeanwhile hdropped x (hgrows.held _ _ hgiven hx)
  rw [walk?_append, hbefore] at hwalk
  have hrest := walk_does (hdoes.sound hm) hwalk
  have hlater := hspent.effects (hdoes.sound hm).scene hrest.effects
  refine hlater.not_live (hrest.sound (hdoes.sound hm)).scene.pinned ?_
  simp only [scene, Store.roster, Roster.live_map]
  exact List.mem_map_of_mem (mem_live_of_met hp)

/-- A field is bound both ways to the value of an element, and a handler that was attached before, when it is invoked,
unbinds it and fires the same event again. -/
def bidirectional : List Turn :=
  [.command (.act (.tree (.make "tree" (.node { Content.ofTag "input" with value := "new" } [])))), .step,
    .command (.act (.record (.make "record" [("a", .string "old")]))), .step,
    .command (.listen (.events "tree" "change" "") "guard" "A"
      [.act (.binder (.unbind "binder" (.named "record") ⟨"", "value"⟩)),
        .act (.tree (.dispatch "tree" "change" (.first "tree" "")))] 1), .step,
    .command (.act (.binder (.make "binder" "tree" (.given none none none)))), .step,
    .command (.act (.binder (.bind "binder" "record" (.field "a") ⟨"", "value"⟩ .defaultEvent false))), .step]

/-- The event is fired, and the first handler unbinds the field. -/
def unbinding : List Turn :=
  [.command (.act (.tree (.dispatch "tree" "change" (.first "tree" "")))), .step, .step]

/-- The binding keeps a guard before, and not after. -/
theorem keeps_unbinding :
    ∃ m₀ m, initial.walk? bidirectional = some m₀ ∧ m₀.Keeps ⟨.delegations 0, 1⟩ ∧ m₀.walk? unbinding = some m ∧
      ¬m.Keeps ⟨.delegations 0, 1⟩ := by
  have hkept : (initial.walk? bidirectional).map (fun m => decide (m.Keeps ⟨.delegations 0, 1⟩)) = some true := by
    decide +kernel
  have hdropped : ((initial.walk? bidirectional).bind (·.walk? unbinding)).map
      (fun m => decide (m.Keeps ⟨.delegations 0, 1⟩)) = some false := by decide +kernel
  obtain ⟨m₀, h₀, hkept⟩ := Option.map_eq_some_iff.mp hkept
  rw [h₀, Option.bind_some] at hdropped
  obtain ⟨m, hm, hdropped⟩ := Option.map_eq_some_iff.mp hdropped
  exact ⟨m₀, m, h₀, of_decide_eq_true hkept, hm, of_decide_eq_false hdropped⟩

/-- Once the dispatch is over that unbound the field, the event invokes the other handler alone. -/
theorem invoked_of_dropped_later :
    ∃ m₀ m m₁ m₂, initial.walk? bidirectional = some m₀ ∧ m₀.Keeps ⟨.delegations 0, 1⟩ ∧
      m₀.walk? unbinding = some m ∧ ¬m.Keeps ⟨.delegations 0, 1⟩ ∧
      m.walk? (List.replicate 11 .step) = some m₁ ∧
      m₁.Fires 0 "change" 0 m₂ (fun count => [.task (.reply (.count count))]) ∧
      (∃ inside m₃, m₂.Returns [.task (.reply (.count 1))] inside m₃) ∧
      ∀ inside m₃, m₂.Returns [.task (.reply (.count 1))] inside m₃ →
        m₂.invoked 1 inside = [⟨0, "change", .callback 0, 0⟩] := by
  obtain ⟨m₀, m, h₀, hkept, hm, hdropped⟩ := keeps_unbinding
  have hlater : ((initial.walk? bidirectional).bind (·.walk? (unbinding ++ List.replicate 11 .step))).map (fun m =>
      (m.stack.isEmpty, (m.session.workspace.scope? "tree").toOption, m.session.workspace.element? (.first "tree" ""),
        (m.met 0 "change" 0).map fun p => (p.1.listener.handler, p.2))) =
      some (true, some ⟨0, 0⟩, some 0, [(.callback 0, 0)]) := by decide +kernel
  rw [h₀, Option.bind_some, walk?_append, hm, Option.bind_some] at hlater
  obtain ⟨m₁, h₁, heq⟩ := Option.map_eq_some_iff.mp hlater
  simp only [Prod.mk.injEq] at heq
  obtain ⟨hidle, hscope, htarget, hmet⟩ := heq
  have hfires : m₁.Fires 0 "change" 0 _ fun count => [.task (.reply (.count count))] :=
    .host (List.isEmpty_iff.mp hidle) (ok_of_toOption hscope) rfl htarget
  obtain ⟨hreturns, hinvoked, -⟩ := invoked_of_dropped ⟨_, h₀⟩ hkept hm hdropped h₁ hfires
  have hlength : (m₁.met 0 "change" 0).length = 1 := by
    rw [← List.length_map, hmet]
    rfl
  have hwhom : (m₁.met 0 "change" 0).map (fun p => (⟨0, "change", p.1.listener.handler, p.2⟩ : Invocation)) =
      [⟨0, "change", .callback 0, 0⟩] := by
    have hmapped := congrArg (List.map fun p => (⟨0, "change", p.1, p.2⟩ : Invocation)) hmet
    rwa [List.map_map] at hmapped
  rw [hlength, hwhom] at hinvoked
  rw [hlength] at hreturns
  exact ⟨m₀, m, m₁, _, h₀, hkept, hm, hdropped, h₁, hfires, hreturns, hinvoked⟩

/-- The dispatch that a script is about to begin. -/
def begins? (m : Machine) : Option (String × String × ElementRef) :=
  match m.stack with
  | .script (.act (.tree (.dispatch tree event target)) :: _) :: _ => some (tree, event, target)
  | _ => none

/-- A dispatch that a script is about to begin begins with the next step. -/
theorem exists_fires {tree : String} {ref : ElementRef} {scope : Scope} (h : m.begins? = some (tree, event, ref))
    (hscope : m.session.workspace.scope? tree = .ok scope) (htarget : m.session.workspace.element? ref = some target) :
    ∃ m' base, m.step? = some m' ∧ m.Fires scope.tree event target m' base := by
  unfold begins? at h
  split at h
  · next cs rest hstack =>
    cases h
    have hstep : ∃ m', m.step? = some m' := by
      unfold step?
      rw [hstack]
      exact ⟨_, rfl⟩
    obtain ⟨m', hstep⟩ := hstep
    exact ⟨m', _, hstep, .script hstack hscope rfl htarget hstep⟩
  · cases h

/-- **A binding that was unbound writes to its record in an event that begins afterwards**, because the dispatch that
unbound it has its handler on its call list and is still running: nobody keeps the guard, the event is fired, and it
invokes the handler, which alters the field. -/
theorem invoked_of_unbound :
    ∃ m₀ m m₁ m₂ m₃ base, initial.walk? bidirectional = some m₀ ∧ m₀.Keeps ⟨.delegations 0, 1⟩ ∧
      m₀.walk? unbinding = some m ∧ ¬m.Keeps ⟨.delegations 0, 1⟩ ∧ m.walk? [.step] = some m₁ ∧
      m₁.Fires 0 "change" 0 m₂ base ∧ (m₁.met 0 "change" 0).map (·.1.id) = [0, 1] ∧
      (∃ inside m', m₂.Returns (base 2) inside m') ∧
      (∀ inside m', m₂.Returns (base 2) inside m' → m₂.invoked (base 2).length inside =
        [⟨0, "change", .callback 0, 0⟩, ⟨0, "change", .writeBack ⟨⟨1⟩, "a", .value, false⟩, 0⟩]) ∧
      (m₁.store.fields ⟨1⟩).get "a" = .string "old" ∧ m₂.walk? [.step, .step] = some m₃ ∧
      (m₃.store.fields ⟨1⟩).get "a" = .string "new" := by
  obtain ⟨m₀, m, h₀, hkept, hm, hdropped⟩ := keeps_unbinding
  have hnested : ((initial.walk? bidirectional).bind (·.walk? (unbinding ++ [.step]))).map (fun m =>
      (m.begins?, (m.session.workspace.scope? "tree").toOption, m.session.workspace.element? (.first "tree" ""))) =
      some (some ("tree", "change", .first "tree" ""), some ⟨0, 0⟩, some 0) := by decide +kernel
  have hmet : ((initial.walk? bidirectional).bind (·.walk? (unbinding ++ [.step]))).map (fun m =>
      ((m.met 0 "change" 0).map fun p => (p.1.id, p.1.listener.handler, p.2), (m.store.fields ⟨1⟩).get "a")) =
      some ([(0, .callback 0, 0), (1, .writeBack ⟨⟨1⟩, "a", .value, false⟩, 0)], .string "old") := by decide +kernel
  have hwritten : ((initial.walk? bidirectional).bind (·.walk? (unbinding ++ .step :: [.step, .step, .step]))).map
      (fun m => (m.store.fields ⟨1⟩).get "a") = some (.string "new") := by decide +kernel
  rw [h₀, Option.bind_some, walk?_append, hm, Option.bind_some] at hnested hmet hwritten
  obtain ⟨m₁, h₁, heq⟩ := Option.map_eq_some_iff.mp hnested
  obtain ⟨m₃, h₃, hnew⟩ := Option.map_eq_some_iff.mp hwritten
  rw [h₁, Option.map_some, Option.some.injEq] at hmet
  simp only [Prod.mk.injEq] at heq hmet
  obtain ⟨hbegins, hscope, htarget⟩ := heq
  obtain ⟨hmet, hold⟩ := hmet
  obtain ⟨m₂, base, hstep, hfires⟩ := exists_fires hbegins (ok_of_toOption hscope) htarget
  have h₂ : m.walk? [.step, .step, .step, .step] = m₂.walk? [.step, .step] := by
    rw [show ([.step, .step, .step, .step] : List Turn) = [.step] ++ [.step, .step, .step] from rfl, walk?_append, h₁]
    simp only [Option.bind_some, walk?, turn?, hstep]
  obtain ⟨hreturns, hinvoked⟩ := invoked_of_met hfires
  have hlength : (m₁.met 0 "change" 0).length = 2 := by
    rw [← List.length_map, hmet]
    rfl
  have hids := congrArg (List.map Prod.fst) hmet
  have hwhom := congrArg (List.map fun p => (⟨0, "change", p.2.1, p.2.2⟩ : Invocation)) hmet
  rw [List.map_map] at hids hwhom
  rw [hlength] at hreturns hinvoked
  refine ⟨m₀, m, m₁, m₂, m₃, base, h₀, hkept, hm, hdropped, h₁, hfires, hids, hreturns, ?_, hold, h₂ ▸ h₃, hnew⟩
  intro inside m' hreturns'
  exact (hinvoked inside m' hreturns').trans hwhom

end Machine

end Databind
