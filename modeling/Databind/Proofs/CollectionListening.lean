import Databind.Proofs.Dropping
import Databind.Proofs.Ownership
import Databind.Proofs.Removal
import Databind.Proofs.Independence.RosterComparison

/-!
# `Proofs.CollectionListening` — the collection that a binder listens to

A binder keeps the guards of its listeners on collections in a list of their own. What is on that list is said by the
acts of the binder alone: it joins a collection, and leaves all of them. A map is attached by leaving first, so in every
state of every run a binder listens to one collection at most, with one listener for removals and one for resets.

A binder that keeps no guard on a channel and is on no call list there stays so until it joins that collection
(`Scene.Rid`), and no call list drawn up meanwhile has it.

## Main definitions

* `Binder.channels`, `Act.channels` — the channels of collections on which a binder listens.
* `Binder.hearers` — whom a binder has listening on a channel.
* `Scene.Rid` — a binder has nothing to do with a channel any more.
-/

namespace Databind

open Store

/-- The channels of a binder's listeners on collections. -/
def Binder.channels (b : Binder) : List Channel := b.collectionGuards.map (·.channel)

/-- On which channels of collections a binder listens after an act. -/
def Act.channels (chs : List Channel) : Act → List Channel
  | .joined c => chs ++ [.removals c, .resets c]
  | .left | .retired => []
  | _ => chs

/-! ## What the acts say -/

section

variable {a b : Scene} {ds : List Deed} {n : Nat}

/-- Unbinding takes entries out of the registry, and nothing else. -/
theorem binder_unbindAll {s : Store} {n : Nat} (hn : n < s.binders.size) (id : Option RecordId) :
    (s.unbindAll n id).binder n =
      { s.binder n with registry := (s.binder n).registry.filter fun e => !id.all (e.record = ·) } := by
  unfold unbindAll modifyRegistry
  simp only
  rw [binder_dropAll, (extends_logAll _ _ _ fun _ => rfl).binder, binder_modifyBinder, if_pos ⟨rfl, hn⟩]

/-- **A binder that is detached** keeps its settings only. -/
theorem binder_detach {s : Store} {n : Nat} (hlive : (s.binder n).retired = false) :
    (s.detach n).binder n = { s.binder n with registry := [], collectionGuards := [] } := by
  have hunbound := binder_unbindAll (s.lt_of_not_retired hlive) none
  have hempty : ((s.binder n).registry.filter fun e => !Option.all (e.record = ·) none) = [] :=
    List.filter_eq_nil_iff.mpr fun _ _ => by simp
  rw [hempty] at hunbound
  have hleft (s' : Store) (hbinder : s'.binder n = (s.unbindAll n none).binder n) :
      (s'.leaveCollections n).binder n = { s.binder n with registry := [], collectionGuards := [] } := by
    rw [hunbound] at hbinder
    have hlive' : (s'.binder n).retired = false := by rw [hbinder, hlive]
    unfold leaveCollections
    rw [binder_dropAll, binder_modifyBinder, if_pos ⟨rfl, s'.lt_of_not_retired hlive'⟩, hbinder]
  unfold detach
  simp only
  split
  · exact hleft _ rfl
  · exact hleft _ (binder_log _)

/-- **What one effect does to the listeners on collections** its act says. -/
theorem Effect.channels (h : Effect a ds b) (ha : a.Sound) (n : Nat) :
    (b.store.binder n).channels = (actsOf n ds).foldl Act.channels (a.store.binder n).channels := by
  by_cases hnone : actsOf n ds = []
  · have hfollows := (h.upkeep ha).1
    rw [hnone, hfollows.binder n hnone]
    rfl
  -- from here on the binder is the one that the effect is about
  cases h with
  | addedBinder scope config =>
    obtain ⟨rfl, hacts⟩ := act_of_actsOf hnone
    rw [hacts, binder_addBinder, if_pos rfl, binder_of_size_le _ (Nat.lt_irrefl _)]
    rfl
  | bound k p =>
    obtain ⟨rfl, hacts⟩ := act_of_actsOf hnone
    rw [hacts, Binder.channels, collectionGuards_commit]
    rfl
  | removed k id key =>
    obtain ⟨rfl, hacts⟩ := act_of_actsOf hnone
    rw [hacts, Binder.channels, collectionGuards_removeBinding]
    rfl
  | absent k id key | heard k l signal =>
    obtain ⟨rfl, hacts⟩ := act_of_actsOf hnone
    rw [hacts]
    rfl
  | cleared k id =>
    obtain ⟨rfl, hacts⟩ := act_of_actsOf hnone
    rw [hacts, Binder.channels, collectionGuards_unbindAll]
    rfl
  | @joined s calls k c hlive =>
    obtain ⟨rfl, hacts⟩ := act_of_actsOf hnone
    rw [hacts]
    exact s.channels_listenTo (s.lt_of_not_retired hlive) (.collection c)
  | left k =>
    obtain ⟨rfl, hacts⟩ := act_of_actsOf hnone
    rw [hacts, Binder.channels, collectionGuards_leaveCollections, if_pos rfl]
    rfl
  | retired k =>
    obtain ⟨rfl, hacts⟩ := act_of_actsOf hnone
    rw [hacts, Binder.channels, collectionGuards_retire]
    rfl
  | @rendered s calls k x =>
    obtain ⟨rfl, hacts⟩ := act_of_actsOf hnone
    rw [hacts, (s.keeps_render n x).binder]
    rfl
  | _ => exact absurd rfl hnone

/-- **What any effects do to the listeners on collections** their acts say. -/
theorem Effects.channels (h : Effects a ds b) (ha : a.Sound) (n : Nat) :
    (b.store.binder n).channels = (actsOf n ds).foldl Act.channels (a.store.binder n).channels := by
  induction h with
  | refl => rfl
  | tail hbefore hlast ih =>
    rw [actsOf_append, List.foldl_append, ← ih]
    exact hlast.channels (hbefore.upkeep ha).2 n

end

/-- A channel is among those after some acts if it was among those before, or the binder joined its collection. -/
theorem Act.mem_foldl_channels {ch : Channel} {acts : List Act} {chs : List Channel} (h : ch ∈ acts.foldl channels chs) :
    ch ∈ chs ∨ ∃ c, .joined c ∈ acts ∧ (ch = .removals c ∨ ch = .resets c) := by
  induction acts generalizing chs with
  | nil => exact .inl h
  | cons x rest ih =>
    obtain hmem | ⟨c, hc, hch⟩ := ih h
    · cases x with
      | joined c =>
        rcases List.mem_append.mp hmem with hmem | hmem
        · exact .inl hmem
        · exact .inr ⟨c, List.mem_cons_self, List.mem_pair.mp hmem⟩
      | left | retired => cases hmem
      | _ => exact .inl hmem
    · exact .inr ⟨c, List.mem_cons_of_mem _ hc, hch⟩

/-- A channel stays if the binder neither leaves nor is retired. -/
theorem Act.mem_foldl_of_kept {ch : Channel} {acts : List Act} (hkept : ∀ a ∈ acts, a ≠ .left ∧ a ≠ .retired)
    {chs : List Channel} (h : ch ∈ chs) : ch ∈ acts.foldl channels chs := by
  induction acts generalizing chs with
  | nil => exact h
  | cons x rest ih =>
    have hx := hkept x List.mem_cons_self
    refine ih (fun a ha => hkept a (List.mem_cons_of_mem _ ha)) ?_
    cases x with
    | joined c => exact List.mem_append_left _ h
    | left => exact absurd rfl hx.1
    | retired => exact absurd rfl hx.2
    | _ => exact h

/-- **Whoever leaves and does not join a collection again** does not listen to it. -/
theorem Act.not_mem_foldl_of_left {c : Nat} {ch : Channel} (hch : ch = .removals c ∨ ch = .resets c) {acts : List Act}
    (hleft : .left ∈ acts) (hjoined : .joined c ∉ acts) (chs : List Channel) : ch ∉ acts.foldl channels chs := by
  obtain ⟨before, behind, rfl⟩ := List.append_of_mem hleft
  rw [List.foldl_append]
  -- by leaving, whatever was listened to before is given up
  intro hmem
  have hbehind : ch ∈ behind.foldl channels [] := hmem
  obtain hnone | ⟨c', hc', hch'⟩ := mem_foldl_channels hbehind
  · cases hnone
  · obtain rfl : c = c' := by rcases hch with rfl | rfl <;> simpa using hch'
    exact hjoined (List.mem_append_right _ (List.mem_cons_of_mem _ hc'))

/-! ## One collection at most -/

/-- Deeds by which no binder joins a collection. -/
def Unjoined (ds : List Deed) : Prop := ∀ n c, Deed.act n (.joined c) ∉ ds

/-- **Deeds after which a binder listens to one collection at most**, if it did before. -/
def Moors (ds : List Deed) : Prop :=
  ∀ n (source : Source), ∃ source' : Source, (actsOf n ds).foldl Act.channels source.channels = source'.channels

namespace Unjoined

variable {ds ds' : List Deed}

theorem nil : Unjoined [] := fun _ _ => List.not_mem_nil

theorem append (h : Unjoined ds) (h' : Unjoined ds') : Unjoined (ds ++ ds') := fun n c hmem =>
  (List.mem_append.mp hmem).elim (h n c) (h' n c)

theorem of_losing (h : Losing ds) : Unjoined ds := fun n c hmem => by cases h n _ hmem

theorem acts (h : Unjoined ds) (n c : Nat) : .joined c ∉ actsOf n ds := by
  intro hmem
  obtain ⟨d, hd, hact⟩ := List.mem_filterMap.mp hmem
  cases d with
  | act m x =>
    simp only [Option.ite_none_right_eq_some, Option.some.injEq] at hact
    exact h m c (hact.2 ▸ hd)
  | _ => cases hact

/-- Whoever listens to nothing and joins nothing goes on listening to nothing. -/
theorem channels_nil (h : Unjoined ds) (n : Nat) : (actsOf n ds).foldl Act.channels [] = [] := by
  refine List.eq_nil_iff_forall_not_mem.mpr fun ch hch => ?_
  obtain hmem | ⟨c, hc, -⟩ := Act.mem_foldl_channels hch
  · cases hmem
  · exact h.acts n c hc

/-- Whoever joins nothing listens to what it did, or to nothing. -/
theorem moors (h : Unjoined ds) : Moors ds := by
  intro n source
  have hacts := h.acts n
  generalize actsOf n ds = acts at hacts
  induction acts generalizing source with
  | nil => exact ⟨source, rfl⟩
  | cons x rest ih =>
    have hrest : ∀ c, .joined c ∉ rest := fun c hc => hacts c (List.mem_cons_of_mem _ hc)
    cases x with
    | joined c => exact absurd List.mem_cons_self (hacts c)
    | left | retired => exact ih .none hrest
    | _ => exact ih source hrest

end Unjoined

namespace Moors

variable {ds ds' : List Deed}

theorem nil : Moors [] := Unjoined.nil.moors

theorem of_losing (h : Losing ds) : Moors ds := (Unjoined.of_losing h).moors

theorem of_found {ε α : Type} {found : Except ε α} {deeds : α → List Deed} (h : ∀ a, Moors (deeds a)) :
    Moors (Workspace.foundDeeds found deeds) := by
  cases found with
  | ok a => exact h a
  | error e => exact nil

end Moors

namespace Store

variable (s : Store) (n : Nat)

theorem unjoined_renderDeeds (bs : List Binding) : Unjoined (s.renderDeeds n bs) := by
  intro m c hmem
  obtain ⟨x, -, heq⟩ := List.mem_map.mp hmem
  cases heq

theorem unjoined_commitDeeds (p : Prepared) : Unjoined (s.commitDeeds n p) := by
  intro m c hmem
  rcases List.mem_cons.mp hmem with heq | hmem
  · cases heq
  · split at hmem
    · exact s.unjoined_renderDeeds n _ m c hmem
    · cases hmem

theorem moors_bindDeeds (id : RecordId) (property : Property) (key : BindingKey) (twoWay : TwoWay) (autoRender : Bool) :
    Moors (s.bindDeeds n id property key twoWay autoRender) := by
  unfold bindDeeds
  split
  · exact (s.unjoined_commitDeeds n _).moors
  · exact .nil

theorem unjoined_flatMap_commitDeeds (ps : List Prepared) : Unjoined (ps.flatMap (s.commitDeeds n)) := by
  intro m c hmem
  obtain ⟨p, -, hp⟩ := List.mem_flatMap.mp hmem
  exact s.unjoined_commitDeeds n p m c hp

/-- **Attaching a map** leaves all collections before it joins one. -/
theorem moors_attachDeeds (source : Source) (map : BindingMap) (autoRender : Option Bool) :
    Moors (s.attachDeeds n source map autoRender) := by
  unfold attachDeeds
  split
  · exact .nil
  · split
    · next ps _ =>
      have hcommits := s.unjoined_flatMap_commitDeeds n ps
      intro m before
      rw [actsOf_append, List.foldl_append]
      by_cases hm : m = n
      · subst hm
        have hleft : (actsOf m (detachDeeds m)).foldl Act.channels before.channels = [] := by
          simp [detachDeeds, actsOf, Act.channels]
        rw [actsOf_append, List.foldl_append, hleft, hcommits.channels_nil]
        cases source with
        | collection c => exact ⟨.collection c, by simp [joinDeeds, actsOf, Act.channels, Source.channels]⟩
        | _ => exact ⟨.none, rfl⟩
      · have hjoin : actsOf m (joinDeeds n source) = [] := by
          cases source with
          | collection c => exact actsOf_act_of_ne hm _
          | _ => rfl
        rw [hjoin]
        exact ((Unjoined.of_losing (losing_detachDeeds n)).append hcommits).moors m before
    · exact .nil

theorem moors_reactDeeds (l : Listener) (signal : Signal) : Moors (s.reactDeeds l signal) := by
  refine Unjoined.moors fun m c hmem => ?_
  have heard (k : Nat) {ds : List Deed} (hds : Unjoined ds)
      (hmem : Deed.act m (.joined c) ∈ if (s.binder k).retired then [] else .act k (.heard l signal) :: ds) : False := by
    split at hmem
    · cases hmem
    · rcases List.mem_cons.mp hmem with heq | hmem
      · cases heq
      · exact hds m c hmem
  unfold reactDeeds at hmem
  simp only at hmem
  split at hmem
  · exact heard _ (s.unjoined_renderDeeds _ _) hmem
  · exact heard _ (s.unjoined_renderDeeds _ _) hmem
  · exact heard _ (.of_losing (.act rfl)) hmem
  · exact heard _ (.of_losing (losing_detachDeeds _)) hmem
  · cases hmem

end Store

open Workspace

variable {w : Workspace}

theorem BinderCommand.moors (command : BinderCommand) : Moors (command.deeds w) := by
  cases command with
  | make as tree config =>
    exact .of_found fun scope => .of_found fun config =>
      .of_losing ((Losing.act (a := .made) rfl).append (losing_assignDeeds _ _ _))
  | clone as binder => exact .of_found fun n => .of_losing (losing_assignDeeds _ _ _)
  | bind binder record property key twoWay autoRender =>
    exact .of_found fun n => .of_found fun id => .of_found fun property => moors_bindDeeds _ _ _ _ _ _ _
  | unbind binder record key => exact .of_found fun n => .of_found fun id => .of_losing (.act rfl)
  | unbindAll binder record => exact .of_found fun n => .of_found fun id => .of_losing (.act rfl)
  | render binder record => exact .of_found fun n => .of_found fun id => (unjoined_renderDeeds _ _ _).moors
  | attach binder source map autoRender =>
    exact .of_found fun n => .of_found fun source => .of_found fun map => moors_attachDeeds _ _ _ _ _
  | detach binder => exact .of_found fun n => .of_losing (losing_detachDeeds n)
  | _ => exact .nil

theorem ViewCommand.moors (command : ViewCommand) : Moors (command.deeds w) := by
  cases command with
  | make as host source map =>
    refine .of_found fun source => ?_
    cases host with
    | shared binder => exact .of_found fun n => .of_found fun map => .of_losing (losing_assignDeeds _ _ _)
    | fresh tree config =>
      exact .of_found fun scope => .of_found fun config => .of_found fun map =>
        .of_losing ((Losing.act (a := .made) rfl).append (losing_assignDeeds _ _ _))
  | mount view => exact .of_found fun v => moors_attachDeeds _ _ _ _ _
  | unmount view => exact .of_found fun v => .of_losing (losing_unmountDeeds _ v)
  | render view => exact .of_found fun v => (unjoined_renderDeeds _ _ _).moors
  | handle as view => exact .of_found fun v => .of_losing (losing_assignDeeds _ _ _)
  | _ => exact .nil

theorem Session.moors (s : Session) (c : Command) : Moors (s.deeds c) := by
  cases c with
  | act action =>
    cases action with
    | tree command => exact .of_losing command.losing
    | record command => exact .of_losing command.losing
    | collection command => exact .of_losing command.losing
    | binder command => exact command.moors
    | view command => exact command.moors
    | name command => exact .of_losing command.losing
  | listen site as tag script limit => exact .of_found fun found => .of_losing (losing_assignDeeds _ _ _)

namespace Machine

variable {m m' : Machine}

/-- **A turn** leaves a binder with one collection at most. -/
theorem moors_turn (m : Machine) (t : Turn) : Moors (m.turnDeeds t) := by
  cases t with
  | step =>
    show Moors m.stepDeeds
    unfold stepDeeds
    split
    · exact m.session.moors _
    · exact moors_reactDeeds _ _ _
    · next handler _ _ _ _ =>
      cases handler with
      | callback n => exact .nil
      | writeBack context => exact .of_losing (losing_writeDeeds _ _)
    · exact .nil
  | command c => exact m.session.moors c
  | ask cs => exact .nil
  | read => exact Unjoined.moors fun n c hmem => by simp [turnDeeds] at hmem

theorem moored_walk (hm : m.Sound) {n : Nat} {turns : List Turn} (hwalk : m.walk? turns = some m')
    (hmoored : ∃ source : Source, (m.store.binder n).channels = source.channels) :
    ∃ source : Source, (m'.store.binder n).channels = source.channels := by
  induction turns generalizing m with
  | nil =>
    cases hwalk
    exact hmoored
  | cons t rest ih =>
    obtain ⟨next, hturn, hwalk⟩ := walk?_cons hwalk
    have hdoes := does_turn hm hturn
    refine ih (hdoes.sound hm) hwalk ?_
    obtain ⟨source, hsource⟩ := hmoored
    obtain ⟨source', hsource'⟩ := m.moors_turn t n source
    exact ⟨source', (hdoes.effects.channels hm.scene n).trans (hsource ▸ hsource')⟩

/-- **In every state of every run, a binder listens to one collection at most**, with one listener for removals and
one for resets. -/
theorem Reached.moored (h : m.Reached) (n : Nat) : ∃ source : Source, (m.store.binder n).channels = source.channels := by
  obtain ⟨turns, hwalk⟩ := h
  exact moored_walk sound_initial hwalk ⟨.none, rfl⟩

/-- **A binder is attached to a collection**: one of the listeners is held that it got when it was attached to it. -/
def Attached (m : Machine) (n c : Nat) : Prop :=
  .removals c ∈ (m.store.binder n).channels ∨ .resets c ∈ (m.store.binder n).channels

theorem Attached.channels {n c : Nat} (h : m.Attached n c) (hm : m.Reached) :
    (m.store.binder n).channels = [.removals c, .resets c] := by
  obtain ⟨source, hsource⟩ := hm.moored n
  rw [Attached, hsource] at h
  cases source with
  | collection c' =>
    have hc : c = c' := by simpa [Source.channels] using h
    rw [hsource, hc]
    rfl
  | _ => simp [Source.channels] at h

/-- A binder that is attached to a collection stays so until it leaves it. -/
theorem Attached.walk {n c : Nat} (h : m.Attached n c) (hm : m.Sound) {turns : List Turn} (hwalk : m.walk? turns = some m')
    (hheld : ∀ a ∈ actsOf n (m.deeds turns), a ≠ .left ∧ a ≠ .retired) : m'.Attached n c := by
  have hchannels : (m'.store.binder n).channels =
      (actsOf n (m.deeds turns)).foldl Act.channels (m.store.binder n).channels :=
    (walk_does hm hwalk).effects.channels hm.scene n
  rw [Attached, hchannels]
  exact h.imp (Act.mem_foldl_of_kept hheld) (Act.mem_foldl_of_kept hheld)

end Machine

/-! ## Who listens -/

/-- On the channel of a collection there are no handlers of a tree. -/
theorem Channel.tree?_of_collection {c : Nat} {ch : Channel} (hch : ch = .removals c ∨ ch = .resets c) : ch.tree? = none := by
  rcases hch with rfl | rfl <;> rfl

/-- What a binder keeps guards for on the channel of a collection. -/
theorem Binder.mem_posts_collection {b : Binder} (hb : b.Fit) {n c : Nat} {ch : Channel}
    (hch : ch = .removals c ∨ ch = .resets c) {i : Nat} {y : Hearer} :
    (⟨ch, i⟩, y) ∈ b.posts n ↔ ⟨ch, i⟩ ∈ b.collectionGuards ∧ y = .listener (collectionListener n ch) := by
  have hother : (∀ id, ch ≠ .changes id ∧ ch ≠ .requests id) ∧ ∀ t, ch ≠ .delegations t := by
    rcases hch with rfl | rfl <;> simp
  rw [mem_posts]
  constructor
  · rintro (⟨x, hx, hpost⟩ | ⟨e, he, hpost | hpost⟩ | ⟨g, hg, hpost⟩)
    · have hchannel := (hb.binding hx).channel _ (mem_binding_posts.mp hpost).1
      exact absurd hchannel (hother.2 _)
    · have hchannel := (hb.entries e he).onChange
      rw [← (Prod.mk.inj hpost).1] at hchannel
      exact absurd hchannel (hother.1 _).1
    · have hchannel := (hb.entries e he).onRequest
      rw [← (Prod.mk.inj hpost).1] at hchannel
      exact absurd hchannel (hother.1 _).2
    · obtain ⟨rfl, rfl⟩ := Prod.mk.inj hpost
      exact ⟨hg, rfl⟩
  · rintro ⟨hg, rfl⟩
    exact .inr (.inr ⟨_, hg, rfl⟩)

/-- Whom a binder has listening on a channel, if nobody is destroyed. -/
def Binder.hearers (n : Nat) (b : Binder) : Channel → List Hearer
  | .changes id => if b.registry.bindingsOf id ≠ [] then [.listener (.repaint n id)] else []
  | .requests id => if b.registry.bindingsOf id ≠ [] then [.listener (.repaintAll n id)] else []
  | .delegations _ | .list _ => []
  | ch => (b.channels.filter (· = ch)).map fun ch => .listener (collectionListener n ch)

namespace Store

variable {s : Store} {n c : Nat} {ch : Channel}

theorem listenersOf_eq {r : Roster Listener} (hroster : s.roster ch = r.map .listener) (n : Nat) :
    s.listenersOf n ch = ((r.live.filter (·.listener.binder? = some n)).map (·.listener)).map .listener := by
  rw [listenersOf, hroster]
  simp only [Roster.live, Roster.map, List.filter_map, List.map_map, Function.comp_def, Hearer.isOf]
  rfl

/-- The listeners on the channel of a collection are those that the binder keeps guards for. -/
theorem listenersOf_collection (h : s.Wired []) (hcalm : s.Calm ch) (hch : ch = .removals c ∨ ch = .resets c) :
    s.listenersOf n ch =
      ((s.binder n).channels.filter (· = ch)).map fun ch => .listener (Binder.collectionListener n ch) := by
  have hroster := s.roster_eq_listeners (Channel.tree?_of_collection hch)
  have hopen : s.Open ch := by rcases hch with rfl | rfl <;> trivial
  have hfit := h.fit n
  let guards := (s.binder n).collectionGuards.filter (·.channel = ch)
  let xs := guards.map fun g => (g.id, Binder.collectionListener n ch)
  have hnodup : xs.Nodup := by
    have hguards : guards.Nodup := by
      have hposts := h.nodup_posts n
      rw [guards_binder] at hposts
      exact (List.Nodup.of_append_right hposts).filter _
    refine hguards.map_on fun g hg g' hg' heq => ?_
    obtain ⟨-, hchannel⟩ := List.mem_filter.mp hg
    obtain ⟨-, hchannel'⟩ := List.mem_filter.mp hg'
    have hsame : g.channel = g'.channel := (of_decide_eq_true hchannel).trans (of_decide_eq_true hchannel').symm
    cases g
    cases g'
    obtain ⟨rfl, -⟩ := Prod.mk.inj heq
    cases hsame
    rfl
  have hperm := live_of_posts h hcalm hroster n hnodup fun i l => by
    rw [Binder.mem_posts_collection hfit hch, List.mem_map]
    constructor
    · rintro ⟨g, hg, heq⟩
      obtain ⟨hmem, hchannel⟩ := List.mem_filter.mp hg
      obtain ⟨rfl, rfl⟩ := Prod.mk.inj heq
      have hguard : (⟨ch, g.id⟩ : Guard) = g := by rw [← of_decide_eq_true hchannel]
      exact ⟨⟨hguard ▸ hmem, rfl⟩, hopen⟩
    · rintro ⟨⟨hmem, heq⟩, -⟩
      exact ⟨⟨ch, i⟩, List.mem_filter.mpr ⟨hmem, decide_eq_true rfl⟩, by rw [Hearer.listener.inj heq]⟩
  -- they are all the same, so that their order does not matter
  have hlisteners := hperm.map Prod.snd
  simp only [xs, List.map_map, Function.comp_def, List.map_const'] at hlisteners
  rw [listenersOf_eq hroster, List.perm_replicate.mp hlisteners, Binder.channels, List.filter_map, List.map_map,
    List.map_replicate, ← List.map_const']
  refine List.map_congr_left fun g hg => ?_
  rw [Function.comp_apply, of_decide_eq_true (List.mem_filter.mp hg).2]

/-- Nobody listens to a list for a binder. -/
theorem listenersOf_list (h : s.Wired []) {k : Nat} (hcalm : s.Calm (.list k)) : s.listenersOf n (.list k) = [] := by
  have hperm := live_of_posts h hcalm rfl n List.nodup_nil fun i l => by
    refine ⟨fun hno => absurd hno List.not_mem_nil, ?_⟩
    rintro ⟨hpost, -⟩
    have hfit := h.fit n
    rcases Binder.mem_posts.mp hpost with ⟨x, hx, hpost⟩ | ⟨e, he, hpost | hpost⟩ | ⟨g, hg, hpost⟩
    · cases (hfit.binding hx).channel _ (Binder.mem_binding_posts.mp hpost).1
    · have hchannel := (hfit.entries e he).onChange
      rw [← (Prod.mk.inj hpost).1] at hchannel
      cases hchannel
    · have hchannel := (hfit.entries e he).onRequest
      rw [← (Prod.mk.inj hpost).1] at hchannel
      cases hchannel
    · obtain ⟨c, hc | hc⟩ := hfit.collections g hg <;> rw [← (Prod.mk.inj hpost).1] at hc <;> cases hc
  have hnone := List.map_eq_nil_iff.mp (List.perm_nil.mp hperm)
  rw [listenersOf_eq rfl]
  simp only [hnone, List.map_nil]

/-- **While nobody is being called on a channel**, the listeners of a binder there are those that it has guards for. -/
theorem listenersOf_of_calm (h : s.Wired []) (hr : (s.binder n).registry.Sound) (hcalm : s.Calm ch) :
    (s.Open ch → s.listenersOf n ch = (s.binder n).hearers n ch) ∧ (¬s.Open ch → s.listenersOf n ch = []) := by
  cases ch with
  | changes id =>
    rw [listenersOf_eq rfl, live_changes h hr hcalm]
    refine ⟨fun hopen => ?_, fun hdead => ?_⟩
    · have halive : (s.record id).alive = true := hopen
      simp only [halive, true_and, Binder.hearers]
      split <;> rfl
    · have hdead : ¬(s.record id).alive = true := hdead
      simp [hdead]
  | requests id =>
    rw [listenersOf_eq rfl, live_requests h hr hcalm]
    refine ⟨fun hopen => ?_, fun hdead => ?_⟩
    · have halive : (s.record id).alive = true := hopen
      simp only [halive, true_and, Binder.hearers]
      split <;> rfl
    · have hdead : ¬(s.record id).alive = true := hdead
      simp [hdead]
  | removals c => exact ⟨fun _ => listenersOf_collection h hcalm (.inl rfl), fun hno => absurd trivial hno⟩
  | resets c => exact ⟨fun _ => listenersOf_collection h hcalm (.inr rfl), fun hno => absurd trivial hno⟩
  | delegations k => exact ⟨fun _ => s.listenersOf_tree n k, fun _ => s.listenersOf_tree n k⟩
  | list k => exact ⟨fun _ => listenersOf_list h hcalm, fun hno => absurd trivial hno⟩

end Store

/-! ## Rid of a channel -/

namespace Roster

variable {n : Nat} {r r' : Roster Hearer} {ids : List Nat}

/-- **Identities that were given to others** than a binder's listeners. -/
structure Lacks (r : Roster Hearer) (n : Nat) (ids : List Nat) : Prop where
  given : ∀ i ∈ ids, i < r.next
  others : ∀ e ∈ r.entries, e.id ∈ ids → e.listener.isOf n = false

theorem Lacks.grows (h : r.Lacks n ids) (hgrows : r.Grows r') : r'.Lacks n ids where
  given i hi := Nat.lt_of_lt_of_le (h.given i hi) hgrows.next
  others e he hid := by
    obtain ⟨e₀, he₀, hsame, hlistener⟩ := hgrows.listed e he (h.given e.id hid)
    rw [← hlistener]
    exact h.others e₀ he₀ (hsame.symm ▸ hid)

/-- If nobody of the binder is live, the call list that is drawn up lacks it. -/
theorem lacks_live (h : r.Sound) (hlive : ∀ e ∈ r.live, e.listener.isOf n = false) : r.Lacks n (r.live.map (·.id)) where
  given i hi := by
    obtain ⟨e, he, rfl⟩ := List.mem_map.mp hi
    exact h.fresh e (List.mem_filter.mp he).1
  others e he hid := by
    obtain ⟨e₁, he₁, hsame⟩ := List.mem_map.mp hid
    obtain rfl := List.inj_on_of_nodup_map h.nodup (List.mem_filter.mp he₁).1 he hsame
    exact hlive e₁ he₁

end Roster

/-- **A binder is rid of a channel**: it keeps no guard there, and it is on no call list that is running. -/
structure Scene.Rid (a : Scene) (n : Nat) (ch : Channel) : Prop where
  unguarded : ch ∉ (a.store.binder n).channels
  uncalled : ∀ ids, (ch, ids) ∈ a.calls → (a.store.roster ch).Lacks n ids

namespace Scene.Rid

variable {a b : Scene} {n c : Nat} {ch : Channel} {ds : List Deed}

/-- **Who is rid of a channel is not live there.** -/
theorem not_live (h : a.Rid n ch) (ha : a.Sound) (hch : ch = .removals c ∨ ch = .resets c) :
    ∀ e ∈ (a.store.roster ch).live, e.listener.isOf n = false := by
  intro e he
  obtain ⟨hentry, hlive⟩ := List.mem_filter.mp he
  cases hown : e.listener.isOf n with
  | false => rfl
  | true =>
    exfalso
    -- a live listener is held, and then the binder keeps its guard, or it is pinned by a running call list
    rcases Bool.or_eq_true_iff.mp hlive with hheld | hpins
    · cases hlistener : e.listener with
      | handler d =>
        rw [hlistener] at hown
        cases hown
      | listener l =>
        rw [hlistener] at hown
        have hl : l.binder? = some n := of_decide_eq_true hown
        have hholds : a.store.Held ⟨ch, e.id⟩ (.listener l) := ⟨e, hentry, rfl, hlistener, hheld⟩
        obtain ⟨hpost, -⟩ := (ha.wired.held _ _ (Listener.not_isCallback hl)).mp hholds
        rw [List.append_nil] at hpost
        obtain ⟨k, hpost⟩ := mem_posts.mp hpost
        obtain rfl : k = n := Option.some.inj ((Binder.binder?_of_mem_posts hpost).symm.trans hl)
        have hguard := ((Binder.mem_posts_collection (ha.wired.fit k) hch).mp hpost).1
        exact h.unguarded (List.mem_map.mpr ⟨_, hguard, rfl⟩)
    · have hle := ha.pinned ch e hentry
      have hpos : 0 < pinsOf a.calls ch e.id := Nat.lt_of_lt_of_le (of_decide_eq_true hpins) hle
      have hcalled : ∃ ids, (ch, ids) ∈ a.calls ∧ e.id ∈ ids := by
        by_contra hnone
        rw [pinsOf_eq_zero.mpr hnone] at hpos
        exact Nat.lt_irrefl _ hpos
      obtain ⟨ids, hcall, hid⟩ := hcalled
      rw [(h.uncalled ids hcall).others e hentry hid] at hown
      cases hown

/-- **Who is rid of a channel stays so** until it joins the collection: a call list is drawn up from live listeners. -/
theorem effect (h : a.Rid n ch) (ha : a.Sound) (hch : ch = .removals c ∨ ch = .resets c) (heffect : Effect a ds b)
    (hjoined : .joined c ∉ actsOf n ds) : b.Rid n ch := by
  have hgrows := (heffect.upkeep ha).1.rosters ch
  have hunguarded : ch ∉ (b.store.binder n).channels := by
    rw [heffect.channels ha]
    intro hmem
    obtain hmem | ⟨c', hc', hch'⟩ := Act.mem_foldl_channels hmem
    · exact h.unguarded hmem
    · obtain rfl : c = c' := by rcases hch with rfl | rfl <;> simpa using hch'
      exact hjoined hc'
  -- an old call list lacks the binder as before
  have huncalled : ∀ ids, (ch, ids) ∈ a.calls → (b.store.roster ch).Lacks n ids := fun ids hcall =>
    (h.uncalled ids hcall).grows hgrows
  refine ⟨hunguarded, ?_⟩
  cases heffect with
  | @drew s calls ch' =>
    intro ids hcall
    rcases List.mem_cons.mp hcall with heq | hcall
    · -- a new one has those that are live
      obtain ⟨rfl, rfl⟩ := Prod.mk.inj heq
      have hdrawn := (Roster.lacks_live (ha.wired.rosters ch) (h.not_live ha hch)).grows hgrows
      rw [s.roster_eq_listeners (Channel.tree?_of_collection hch), Roster.live_map] at hdrawn
      exact hdrawn
    · exact huncalled ids hcall
  | @drewEvent s calls k event target =>
    intro ids hcall
    rcases List.mem_cons.mp hcall with heq | hcall
    · rcases hch with rfl | rfl <;> cases (Prod.mk.inj heq).1
    · exact huncalled ids hcall
  | finished ch' ids' => exact fun ids hcall => huncalled ids (List.mem_cons_of_mem _ hcall)
  | _ => exact huncalled

theorem effects (h : a.Rid n ch) (ha : a.Sound) (hch : ch = .removals c ∨ ch = .resets c) (heffects : Effects a ds b)
    (hjoined : .joined c ∉ actsOf n ds) : b.Rid n ch := by
  induction heffects with
  | refl => exact h
  | tail hbefore hlast ih =>
    rw [actsOf_append, List.mem_append, not_or] at hjoined
    exact (ih hjoined.1).effect (hbefore.upkeep ha).2 hch hlast hjoined.2

end Scene.Rid

end Databind
