import Databind.Proofs.Attribution
import Databind.Proofs.Independence.Runs

/-!
# `Proofs.Independence` — binders are independent

A command to one binder is carried out in a state of some run, or it is not. From there on every run of the one machine
is a run of the other, but for steps in which a listener of that binder hears a notification; and at its end every
binder that renders into another tree is found the same in both.

The commands of those runs must carry nothing over from the binder: what a selector finds in its tree depends on what it
renders, so no name is given to what is found there, and no events are fired there.

## Main definitions

* `Command.Concerns` — a command to the stranger, or the drop of a handle to it.
* `Insertion` — a command is carried out on the spot.
* `Store.SameOf` — what there is of a binder is the same in two stores.
* `Machine.Unaffected` — the runs of a machine are those of another but for the stranger.
-/

namespace Databind

open Store

variable {b : Stranger}

/-! ## A state is its own twin -/

theorem Registry.alike_self {G : Guard → Guard → Prop} {r : Registry} (h : ∀ g ∈ r.guards, G g g) : r.Alike G r := by
  refine List.forall₂_same.mpr fun e he => ⟨rfl, List.forall₂_same.mpr fun x hx => ⟨rfl, ?_⟩, ?_, ?_⟩
  · cases hguard : x.guard with
    | none => exact .none
    | some g => exact .some (h g (mem_guards.mpr ⟨e, he, mem_entryGuards.mpr (.inl ⟨x, hx, hguard⟩)⟩))
  · exact h _ (mem_guards.mpr ⟨e, he, mem_entryGuards.mpr (.inr (.inl rfl))⟩)
  · exact h _ (mem_guards.mpr ⟨e, he, mem_entryGuards.mpr (.inr (.inr rfl))⟩)

theorem Binder.alike_self {G : Guard → Guard → Prop} {x : Binder} (h : ∀ g ∈ x.guards, G g g) : x.Alike G x where
  registry := Registry.alike_self fun g hg => h g (List.mem_append_left _ hg)
  collections := List.forall₂_same.mpr fun g hg => h g (List.mem_append_right _ hg)
  retired := rfl

/-- **Who is behind a guard of a binder**: a handler in its tree, or a listener of its own. -/
theorem Binder.behind_guard {n : Nat} {x : Binder} (hx : x.Fit) {g : Guard} {y : Hearer} (h : (g, y) ∈ x.posts n) :
    g.channel = .delegations x.scope.tree ∨ g.channel.tree? = none ∧ y.isOf n = true := by
  rcases mem_posts.mp h with ⟨x, hbinding, hpost⟩ | ⟨e, he, hpost | hpost⟩ | ⟨g', hg, hpost⟩
  · exact .inl ((hx.binding hbinding).channel g (mem_binding_posts.mp hpost).1)
  · cases hpost
    exact .inr ⟨by rw [(hx.entries e he).onChange]; rfl, decide_eq_true rfl⟩
  · cases hpost
    exact .inr ⟨by rw [(hx.entries e he).onRequest]; rfl, decide_eq_true rfl⟩
  · cases hpost
    obtain ⟨c, hc | hc⟩ := hx.collections g hg <;> rw [hc] <;> exact .inr ⟨rfl, decide_eq_true rfl⟩

namespace Store

variable {s s' : Store}

/-- Identities that were given out are tied to themselves. -/
theorem tied_self (ch : Channel) {ids : List Nat} (h : ∀ i ∈ ids, i < (s.roster ch).next) : s.Tied b s ch ids ids :=
  ⟨fun _ => ⟨rfl, h, h⟩, fun _ _ _ => rfl⟩

theorem sameGuard_self {g : Guard} (h : g.id < (s.roster g.channel).next) : s.SameGuard b s g g :=
  ⟨rfl, tied_self _ fun _ hi => List.mem_singleton.mp hi ▸ h⟩

/-- A guard that a binder keeps stands for somebody. -/
theorem exists_post {n : Nat} {g : Guard} (h : g ∈ (s.binder n).guards) : ∃ x, (g, x) ∈ (s.binder n).posts n := by
  have hmem : g ∈ ((s.binder n).posts n).map Prod.fst := guards_binder n (s.binder n) ▸ h
  obtain ⟨p, hp, rfl⟩ := List.mem_map.mp hmem
  exact ⟨p.2, hp⟩

theorem Wired.given (hw : s.Wired []) {n : Nat} {g : Guard} (h : g ∈ (s.binder n).guards) :
    g.id < (s.roster g.channel).next := by
  obtain ⟨x, hx⟩ := exists_post h
  exact hw.fresh _ (List.mem_append_left _ (mem_posts.mpr ⟨n, hx⟩))

/-- **The guards of a binder find its own listeners alone.** -/
theorem kept_of_wired (hw : s.Wired []) (hs : s.Attributed s.posts) (hlive : (s.binder b.binder).retired = false)
    (htree : (s.binder b.binder).scope.tree = b.tree) : s.Kept b where
  there := s.lt_of_not_retired hlive
  tree := htree
  rosters ch _ := hw.rosters ch
  own g hg := by
    obtain ⟨y, hpost⟩ := exists_post hg
    have hgiven : ∀ i ∈ [g.id], i < (s.roster g.channel).next := fun i hi => List.mem_singleton.mp hi ▸ hw.given hg
    rcases Binder.behind_guard (hw.fit b.binder) hpost with hch | ⟨hch, hy⟩
    · rw [htree] at hch
      rw [hch]
      exact ⟨nofun, fun k hk hne => absurd (Option.some.inj hk).symm hne⟩
    · refine ⟨fun _ => ⟨List.map_congr_left fun e he => ?_, hgiven, nofun⟩, fun k hk => by simp [hch] at hk⟩
      obtain ⟨he, hother⟩ := List.mem_filter.mp he
      have hne : e.id ≠ g.id := by
        intro hid
        rw [hs _ (mem_posts.mpr ⟨b.binder, hpost⟩) e he hid, hy] at hother
        cases hother
      simp [Roster.Entry.shade, hne]

/-- **A store is its own twin.** -/
theorem Kept.twin_self (h : s.Kept b) (hw : s.Wired []) : s.Twin b s where
  outline := rfl
  tied ch := tied_self ch nofun
  binder _ _ := Binder.alike_self fun _ hg => sameGuard_self (hw.given hg)
  kept := h
  kept' := h

end Store

/-- **A workspace is its own twin.** -/
theorem Workspace.Named.twin_self {w : Workspace} (hw : w.Named) (h : w.store.Twin b w.store) : w.Twin b w where
  store := h
  keys := hw.keys
  keys' := hw.keys
  names name := by
    cases hhandle : w.handle? name with
    | none => exact .inl .none
    | some handle =>
      have hvalid := hw.valid _ (Workspace.mem_of_handle? hhandle)
      refine .inl (.some ?_)
      cases handle with
      | subscription guard =>
        refine .subscription ?_
        cases guard with
        | none => exact .none
        | some g => exact .some (sameGuard_self (hvalid g rfl).1)
      | _ => exact .same (by simp)

/-- What is left to do has nothing to do with the stranger: no notification is in progress, and no event is fired in its
tree. -/
def Frame.Apart (b : Stranger) : Frame → Prop
  | .task (.notify _ _ _ _) => False
  | .task (.dispatch k _ _ _) => k ≠ b.tree
  | .task (.trigger _ k _ _) => k ≠ b.tree
  | _ => True

theorem Frame.Apart.twin_self {s : Store} {f : Frame} (h : f.Apart b) : f.Twin b s s f := by
  cases f with
  | script rest => exact .script rest
  | task x =>
    cases x with
    | notify ch pinned signal rest => exact h.elim
    | dispatch k pinned event rest => exact .task (.dispatch h pinned event rest)
    | trigger event k targets count => exact .task (.trigger h event targets count)
    | request id => exact .task (.request id)
    | reply outcome => exact .task (.reply outcome outcome)

/-! ## Commands to the stranger -/

/-- **A command to the stranger, or the drop of a handle to it.** -/
inductive Command.Concerns (b : Stranger) (w : Workspace) : Command → Prop
  | told {command : BinderCommand} {name : String} (htarget : command.target? = some name)
    (hbinder : w.binder? name = .ok b.binder) : Command.Concerns b w (.act (.binder command))
  | dropped {name : String} (hname : b.name = some name) (hbinder : w.binder? name = .ok b.binder) :
    Command.Concerns b w (.act (.name (.drop name)))

namespace Workspace

variable {w : Workspace}

theorem handle?_of_binder? {name : String} {n : Nat} (h : w.binder? name = .ok n) :
    w.handle? name = some (.binder n) := by
  unfold Workspace.binder? at h
  split at h
  · next hhandle =>
    cases h
    exact hhandle
  · cases h

/-- **A handle to the stranger is dropped**, and nothing else differs. -/
theorem Twin.dropped (h : w.Twin b w) {name : String} (hname : b.name = some name)
    (hbinder : w.binder? name = .ok b.binder) :
    (w.forget name).1.Twin b w ∧ w.store.Aside b (w.forget name).1.store ∧ b.besides (w.forgetDeeds name) = [] := by
  have hhandle := handle?_of_binder? hbinder
  have hhides : b.Hides (some (.binder b.binder)) := fun _ heq => (Option.some.inj heq).symm
  obtain ⟨haside, hdeeds⟩ := aside_letGo? (w := { w with names := w.names.filter (·.1 ≠ name) }) h.store.kept hhides
  rw [forget_eq, forgetDeeds, hhandle]
  generalize hdone : Workspace.letGo? { w with names := w.names.filter (·.1 ≠ name) } (some (.binder b.binder)) = w₁
    at haside ⊢
  have hnames : w₁.names = w.names.filter (·.1 ≠ name) := hdone ▸ names_letGo? _ _
  have hp := haside.paired h.store
  refine ⟨⟨hp.twin, hnames ▸ Workspace.keys_filter h.keys name, h.keys, fun name' => ?_⟩, haside, hdeeds⟩
  have hfound : w₁.handle? name' = if name' = name then none else w.handle? name' := by
    rw [handle?, hnames, handle?_filter]
  rw [hfound]
  split
  · next heq =>
    subst heq
    exact .inr ⟨hname, fun _ hnone => (by cases hnone), hhandle ▸ hhides⟩
  · exact (h.names name').imp_left (rel_imp fun _ _ => hp.handle)

end Workspace

namespace Command.Concerns

variable {x : Session} {c : Command}

/-- The stranger has a handle. -/
theorem live (hc : c.Concerns b x.workspace) (hw : x.workspace.Named) :
    (x.workspace.store.binder b.binder).retired = false := by
  cases hc with
  | told _ hbinder | dropped _ hbinder =>
    exact hw.valid _ (Workspace.mem_of_handle? (Workspace.handle?_of_binder? hbinder))

/-- **A command that concerns the stranger** gives an answer at once, and nothing else differs. -/
theorem perform (hc : c.Concerns b x.workspace) (h : x.workspace.Twin b x.workspace) (hw : x.workspace.Named) :
    ∃ w outcome, x.perform c = (⟨w, x.callbacks⟩, [.reply outcome]) ∧ w.Twin b x.workspace ∧
      x.workspace.store.Aside b w.store ∧ b.besides (x.deeds c) = [] := by
  cases hc with
  | @told command name htarget hbinder =>
    obtain ⟨hdeeds, s, outcome, hdone, haside⟩ := BinderCommand.aloof h.store.kept hw htarget fun n hn =>
      Except.ok.inj (hn.symm.trans hbinder)
    refine ⟨x.workspace.withStore s, outcome, ?_, h.withStore (haside.paired h.store), haside, hdeeds⟩
    simp only [Session.perform, Action.perform, hdone, Workspace.answer]
  | @dropped name hname hbinder =>
    obtain ⟨htwin, haside, hdeeds⟩ := h.dropped hname hbinder
    exact ⟨_, _, rfl, htwin, haside, hdeeds⟩

/-- It has no other binder ask its tree for anything. -/
theorem queries (hc : c.Concerns b x.workspace) {n : Nat} (hn : n ≠ b.binder) : c.queries x.workspace n = [] := by
  cases hc with
  | dropped _ _ => rfl
  | @told command name htarget hbinder =>
    cases command with
    | query binder selector =>
      cases htarget
      simp only [Command.queries, hbinder, queryTo, if_neg hn.symm]
    | _ => rfl

end Command.Concerns

/-- **The turns in which a command is carried out on the spot**: the host gives it, or a callback that is running asks
for it. -/
inductive Insertion (c : Command) : List Turn → Prop
  | given : Insertion c [.command c, .step]
  | asked : Insertion c [.ask [c], .step, .step]

namespace Store

/-- **What there is of a binder is the same in two stores**: its bindings, its listeners on records and collections, and
its tree with the handlers in it; and so are the fields of all records. -/
structure SameOf (n : Nat) (s s' : Store) : Prop where
  registry : (s.binder n).registry.map (fun e => (e.record, e.bindings.map Binding.unguarded)) =
    (s'.binder n).registry.map fun e => (e.record, e.bindings.map Binding.unguarded)
  collections : (s.binder n).collectionGuards.map (·.channel) = (s'.binder n).collectionGuards.map (·.channel)
  retired : (s.binder n).retired = (s'.binder n).retired
  settings : (s.binder n).scope = (s'.binder n).scope ∧ (s.binder n).config = (s'.binder n).config
  listeners : ∀ ch, s.listenersOf n ch = s'.listenersOf n ch
  tree : s.tree (s.binder n).scope.tree = s'.tree (s'.binder n).scope.tree
  fields : ∀ id, s.fields id = s'.fields id

variable {s s' : Store}

theorem Twin.listenersOf (h : s.Twin b s') {n : Nat} (hn : n ≠ b.binder) (ch : Channel) :
    s.listenersOf n ch = s'.listenersOf n ch := by
  cases hch : ch.tree? with
  | some k =>
    obtain rfl : ch = .delegations k := by
      cases ch <;> simp [Channel.tree?] at hch
      rw [hch]
    rw [listenersOf_tree, listenersOf_tree]
  | none =>
    have hothers (r : Roster Hearer) : (r.live.map (·.listener)).filter (·.isOf n) =
        ((r.live.map (·.listener)).filter fun a => !a.isOf b.binder).filter (·.isOf n) := by
      rw [List.filter_filter]
      refine List.filter_congr fun a _ => ?_
      cases a with
      | handler d => rfl
      | listener l =>
        by_cases hl : l.binder? = some n <;> simp [Hearer.isOf, hl, hn]
    rw [Store.listenersOf, Store.listenersOf, hothers, hothers, Roster.live_of_shades, Roster.live_of_shades,
      (h.roster hch).shades]

/-- **Twins have the same of every binder in another tree.** -/
theorem Twin.sameOf (h : s.Twin b s') {n : Nat} (hn : n ≠ b.binder) (htree : (s.binder n).scope.tree ≠ b.tree) :
    SameOf n s s' where
  registry := map_eq_of_rel (fun _ _ he => congrArg₂ Prod.mk he.record
    (map_eq_of_rel (fun _ _ hx => Binding.Alike.unguarded hx) he.bindings)) (h.binder n hn).registry
  collections := map_eq_of_rel (fun _ _ hg => SameGuard.channel hg) (h.binder n hn).collections
  retired := (h.binder n hn).retired
  settings := ⟨h.scope n, h.config n⟩
  listeners := h.listenersOf hn
  tree := h.scope n ▸ h.tree htree
  fields := h.fields

end Store

namespace Machine

variable {m m' m₁ : Machine}

/-- Two machines are the same but for the stranger, as far as can be seen: both have something left to do or neither has,
and what there is of every binder in another tree is the same. -/
structure SameBut (b : Stranger) (m m' : Machine) : Prop where
  idle : m.stack.isEmpty = m'.stack.isEmpty
  binders : ∀ n, n ≠ b.binder → (m.store.binder n).scope.tree ≠ b.tree → SameOf n m.store m'.store

/-- **The runs of a machine are those of another but for the stranger.** -/
def Unaffected (b : Stranger) (m m' : Machine) : Prop :=
  ∀ turns last, m.walk? turns = some last → m.Discreet b turns →
    ∃ turns' last', m'.walk? turns' = some last' ∧ Matches b m m' turns turns' ∧ SameBut b last last'

theorem Twin.sameBut (h : m.Twin b m') : SameBut b m m' where
  idle := isEmpty_eq_of_rel h.stack
  binders _ hn htree := h.workspace.store.sameOf hn htree

theorem Twin.unaffected (h : m.Twin b m') (hm : m.Sound) (hm' : m'.Sound) : Unaffected b m m' := by
  intro turns last hwalk hdiscreet
  obtain ⟨turns', last', hwalk', hlast, hmatches⟩ := twin_of_walk h hm hm' hwalk hdiscreet
  exact ⟨turns', last', hwalk', hmatches, hlast.sameBut⟩

/-- **A state of a run is its own twin.** -/
theorem Reached.twin_self (hm : m.Reached) (hlive : (m.store.binder b.binder).retired = false)
    (htree : (m.store.binder b.binder).scope.tree = b.tree) (hapart : ∀ f ∈ m.stack, f.Apart b) : m.Twin b m where
  workspace :=
    have hw := hm.sound.scene.wired
    hm.sound.named.twin_self ((kept_of_wired hw hm.attributed hlive htree).twin_self hw)
  callbacks := rfl
  stack := List.forall₂_same.mpr fun f hf => (hapart f hf).twin_self

/-- What was done in the workspace shows nowhere but in the stranger. -/
theorem Twin.of_aside (h : m.Twin b m) {w : Workspace} (hw : w.Twin b m.session.workspace)
    (haside : m.store.Aside b w.store) (answer : Outcome) : Twin b ⟨⟨w, m.session.callbacks⟩, m.stack, answer⟩ m where
  workspace := hw
  callbacks := rfl
  stack := h.stack.imp fun _ _ => (haside.paired h.workspace.store).frame

/-- Giving an answer is not done to anybody, and nobody asks for anything. -/
theorem step_of_reply {outcome : Outcome} {rest : List Frame} (h : m.stack = .task (.reply outcome) :: rest) :
    m.turn? .step = some (m.deliver rest outcome) ∧ m.turnDeeds .step = [] ∧ ∀ n, m.turnQueries n .step = [] := by
  have hdeeds : m.stepDeeds = [] := by simp only [stepDeeds, h]
  exact ⟨by simp only [turn?, step?, h, runTask], hdeeds, fun n => by
    simp [turnQueries, commandOf, h, turnDeeds, hdeeds, queriesOf, actsOf]⟩

/-- **A command that concerns the stranger** is carried out on the spot, and nothing else differs. -/
theorem Twin.inserted (h : m.Twin b m) (hw : m.session.workspace.Named) {c : Command}
    (hc : c.Concerns b m.session.workspace) {turns : List Turn} (hturns : Insertion c turns)
    (hwalk : m.walk? turns = some m₁) :
    m₁.Twin b m ∧ b.besides (m.deeds turns) = [] ∧ ∀ n, n ≠ b.binder → m.queries n turns = [] := by
  obtain ⟨w, outcome, hdone, htwin, haside, hdeeds⟩ := hc.perform h.workspace hw
  have hnone (n : Nat) (hn : n ≠ b.binder) : c.queries m.session.workspace n ++ queriesOf n (m.session.deeds c) = [] := by
    have hnobody : queriesOf n (m.session.deeds c) = queriesOf n [] := queriesOf_eq hn hdeeds
    rw [hc.queries hn, hnobody]
    rfl
  cases hturns with
  | given =>
    -- the host gives the command, which takes two turns: the command and its answer
    obtain ⟨next, hturn, hrest⟩ := walk?_cons hwalk
    have hempty : m.stack.isEmpty = true := by
      by_contra hne
      simp [turn?, hne] at hturn
    obtain rfl : ⟨⟨w, m.session.callbacks⟩, [.task (.reply outcome)], .done⟩ = next := by
      simpa [turn?, hempty, start, hdone] using hturn
    obtain ⟨hstep, hsilent, hmute⟩ := step_of_reply (m := ⟨⟨w, m.session.callbacks⟩, [.task (.reply outcome)], .done⟩) rfl
    obtain rfl : ⟨⟨w, m.session.callbacks⟩, m.stack, outcome⟩ = m₁ := by
      rw [List.isEmpty_iff.mp hempty]
      simpa [walk?, hstep, deliver] using hrest
    refine ⟨h.of_aside htwin haside _, ?_, fun n hn => ?_⟩
    · rw [deeds_cons hturn, deeds_cons hstep, hsilent, List.nil_append, deeds, List.append_nil]
      exact hdeeds
    · rw [queries_cons hturn, queries_cons hstep, hmute]
      simpa [turnQueries, commandOf, turnDeeds, queries] using hnone n hn
  | asked =>
    -- a callback asks for the command, which takes three: the script grows by it first
    obtain ⟨ready, hask, hrest⟩ := walk?_cons hwalk
    obtain ⟨rest, below, hstack⟩ : ∃ rest below, m.stack = .script rest :: below := by
      simp only [turn?] at hask
      split at hask
      · next rest below hstack => exact ⟨rest, below, hstack⟩
      · cases hask
    obtain rfl : { m with stack := .script (c :: rest) :: below } = ready := by simpa [turn?, hstack] using hask
    obtain ⟨next, hturn, hrest⟩ := walk?_cons hrest
    obtain rfl : ⟨⟨w, m.session.callbacks⟩, .task (.reply outcome) :: .script rest :: below, m.answer⟩ = next := by
      simpa [turn?, step?, hdone] using hturn
    obtain ⟨hstep, hsilent, hmute⟩ := step_of_reply
      (m := ⟨⟨w, m.session.callbacks⟩, .task (.reply outcome) :: .script rest :: below, m.answer⟩) rfl
    obtain rfl : ⟨⟨w.withStore (w.store.observe (.did outcome)), m.session.callbacks⟩, m.stack, m.answer⟩ = m₁ := by
      rw [hstack]
      simpa [walk?, hstep, deliver, Session.observe, Session.withStore] using hrest
    have hobserved := haside.kept.hushed (.observe w.store (.did outcome))
    refine ⟨h.of_aside (htwin.withStore (hobserved.paired htwin.store)) (haside.trans hobserved) _, ?_, fun n hn => ?_⟩
    · rw [deeds_cons hask, deeds_cons hturn, deeds_cons hstep, hsilent, List.nil_append, deeds, List.append_nil]
      exact hdeeds
    · rw [queries_cons hask, queries_cons hturn, queries_cons hstep, hmute]
      simpa [turnQueries, commandOf, turnDeeds, stepDeeds, queries, queriesOf, actsOf] using hnone n hn

/-- **Binders are independent.** In a state of some run, while no notification is in progress and no event is fired in
its tree, a command to one binder is carried out, or a handle to it is dropped. Nothing is done to anybody else, and no
other binder asks its tree for anything. From there on the runs with the command and those without it are the same but for
that binder: the same is asked in both, the same is done besides, every other binder asks its tree for the same, and each
that renders into another tree has the same bindings, listeners and handlers there, and its tree shows the same. -/
theorem independent (hm : m.Reached) (htree : (m.store.binder b.binder).scope.tree = b.tree)
    (hapart : ∀ f ∈ m.stack, f.Apart b) {c : Command} (hc : c.Concerns b m.session.workspace) {turns : List Turn}
    (hturns : Insertion c turns) (hwalk : m.walk? turns = some m₁) :
    b.besides (m.deeds turns) = [] ∧ (∀ n, n ≠ b.binder → m.queries n turns = []) ∧ Unaffected b m m₁ ∧
      Unaffected b m₁ m := by
  have hself := hm.twin_self (hc.live hm.sound.named) htree hapart
  obtain ⟨htwin, hdeeds, hqueries⟩ := hself.inserted hm.sound.named hc hturns hwalk
  have hm₁ := (hm.walk hwalk).sound
  exact ⟨hdeeds, hqueries, htwin.symm.unaffected hm.sound hm₁, htwin.unaffected hm₁ hm.sound⟩

/-- Two binders that show one field, each in its own tree. -/
def showing : List Turn :=
  [.command (.act (.tree (.make "mine" (.node (.ofTag "root") [])))), .step,
    .command (.act (.tree (.make "theirs" (.node (.ofTag "root") [])))), .step,
    .command (.act (.record (.make "record" [("a", .string "x")]))), .step,
    .command (.act (.binder (.make "first" "mine" (.given none none none)))), .step,
    .command (.act (.binder (.make "second" "theirs" (.given none none none)))), .step,
    .command (.act (.binder (.bind "second" "record" (.field "a") ⟨"", "title"⟩ .off false))), .step,
    .command (.act (.binder (.bind "first" "record" (.field "a") ⟨"", "title"⟩ .off false))), .step]

/-- A write that both binders hear of. -/
def rewrite : Command := .act (.record (.write "record" [("a", .string "y")]))

/-- Steps that carry out no commands carry nothing over. -/
theorem discreet_steps {k : Nat}
    (h : ∀ i < k, ∀ m', m.walk? (List.replicate i .step) = some m' → m'.commandOf .step = none) :
    m.Discreet b (List.replicate k .step) := by
  induction k generalizing m with
  | zero => trivial
  | succ k ih =>
    refine ⟨fun c hc => ?_, fun next hnext => ih fun i hi m' hm' => h (i + 1) (Nat.succ_lt_succ hi) m' ?_⟩
    · rw [h 0 (Nat.succ_pos k) m rfl] at hc
      cases hc
    · rw [List.replicate_succ, walk?, hnext, Option.bind_some, hm']

/-- When the second binder is dropped, the first one shows what is written as before. -/
theorem independent_of_dropped :
    ∃ m m₁ last, initial.walk? showing = some m ∧
      m.walk? [.command (.act (.name (.drop "second"))), .step] = some m₁ ∧
      m.walk? (.command rewrite :: List.replicate 4 .step) = some last ∧
      ((last.store.arena 0).content 0).attribute? "title" = some "y" ∧
      ∃ turns' last', m₁.walk? turns' = some last' ∧
        Matches ⟨1, 1, some "second"⟩ m m₁ (.command rewrite :: List.replicate 4 .step) turns' ∧
        ((last'.store.arena 0).content 0).attribute? "title" = some "y" := by
  have hrun : (initial.walk? showing).bind (fun m =>
      (m.walk? [.command (.act (.name (.drop "second"))), .step]).bind fun m₁ =>
      (m.turn? (.command rewrite)).bind fun next => (next.walk? (List.replicate 4 .step)).map fun last =>
        (m.stack.isEmpty, (m.store.binder 1).scope.tree, m.session.workspace.handle? "second",
          (last.store.binder 0).scope.tree, ((last.store.arena 0).content 0).attribute? "title",
          (List.range 4).all fun i =>
            (next.walk? (List.replicate i .step)).elim true fun m' => (m'.commandOf .step).isNone)) =
      some (true, 1, some (.binder 1), 0, some "y", true) := by rfl
  obtain ⟨m, hwalk, hrun⟩ := Option.bind_eq_some_iff.mp hrun
  obtain ⟨m₁, hdrop, hrun⟩ := Option.bind_eq_some_iff.mp hrun
  obtain ⟨next, hwrite, hrun⟩ := Option.bind_eq_some_iff.mp hrun
  obtain ⟨last, hsteps, hrun⟩ := Option.map_eq_some_iff.mp hrun
  simp only [Prod.mk.injEq, List.isEmpty_iff, List.all_eq_true, List.mem_range] at hrun
  obtain ⟨hempty, htree, hhandle, hmine, htitle, hnone⟩ := hrun
  have hlast : m.walk? (.command rewrite :: List.replicate 4 .step) = some last := by
    rw [walk?, hwrite, Option.bind_some, hsteps]
  have hdiscreet : m.Discreet ⟨1, 1, some "second"⟩ (.command rewrite :: List.replicate 4 .step) := by
    refine ⟨fun c hc => ?_, fun next' hnext => ?_⟩
    · cases hc
      trivial
    · obtain rfl : next = next' := Option.some.inj (hwrite.symm.trans hnext)
      refine discreet_steps fun i hi m' hm' => ?_
      simpa [hm'] using hnone i hi
  have hbinder : m.session.workspace.binder? "second" = .ok 1 := by simp only [Workspace.binder?, hhandle]
  have hindependent := independent (b := ⟨1, 1, some "second"⟩) ⟨_, hwalk⟩ htree (by simp [hempty])
    (.dropped rfl hbinder) .given hdrop
  obtain ⟨turns', last', hwalk', hmatches, hsame⟩ := hindependent.2.2.1 _ _ hlast hdiscreet
  refine ⟨m, m₁, last, hwalk, hdrop, hlast, htitle, turns', last', hwalk', hmatches, ?_⟩
  have hfirst := (hsame.binders 0 (by decide) (by rw [hmine]; decide)).tree
  rw [← (hsame.binders 0 (by decide) (by rw [hmine]; decide)).settings.1, hmine] at hfirst
  rw [Store.arena, ← hfirst]
  exact htitle

end Machine

end Databind
