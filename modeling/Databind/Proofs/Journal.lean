import Databind.Proofs.Failure

/-!
# `Proofs.Journal` — what is done does not depend on notices

Operations of a binder give notices and never read them. A notice that was given earlier therefore changes nothing
about what they do: each operation commutes with `Store.noted`.
-/

namespace Databind.Store

/-- The store with notices that were given before its own. -/
def noted (s : Store) (notices : List Notice) : Store :=
  { s with journal := ⟨s.journal.events, notices ++ s.journal.notices⟩ }

section Noted

variable (s : Store) (ns : List Notice)

/-- The renderings that were noted before stand in front. -/
theorem renderings_noted : (s.noted ns).renderings = ns.filter Notice.isRendering ++ s.renderings :=
  List.filter_append ..

/-- A new notice stands behind those that were given before. -/
theorem log_noted (notice : Notice) : (s.noted ns).log notice = (s.log notice).noted ns := by
  simp only [noted, log, List.append_assoc]

theorem logAll_noted (notices : List Notice) : (s.noted ns).logAll notices = (s.logAll notices).noted ns := by
  induction notices generalizing s with
  | nil => rfl
  | cons notice rest ih => exact (congrArg (logAll · rest) (s.log_noted ns notice)).trans (ih _)

/-- Dropping a guard concerns a roster, and not the journal. -/
theorem drop_noted (g : Guard) : (s.noted ns).drop g = (s.drop g).noted ns := by
  unfold drop modifyRoster
  cases g.channel <;> rfl

theorem dropAll_noted (gs : List Guard) : (s.noted ns).dropAll gs = (s.dropAll gs).noted ns := by
  induction gs generalizing s with
  | nil => rfl
  | cons g rest ih => exact (congrArg (dropAll · rest) (s.drop_noted ns g)).trans (ih _)

/-- The guard of a subscription is counted by the roster, whatever was noted. -/
theorem subscribe_noted (ch : Channel) (l : Listener) :
    (s.noted ns).subscribe ch l = ((s.subscribe ch l).1.noted ns, (s.subscribe ch l).2) := by
  cases ch <;> rfl

/-- The elements selected are the same. A text that is no selector is noted behind what was noted before. -/
theorem select_noted (scope : Scope) (text : String) :
    (s.noted ns).select scope text = ((s.select scope text).1.noted ns, (s.select scope text).2) := by
  unfold select
  split
  · rfl
  · split
    · rfl
    · rw [log_noted]

/-- The same for a handler: its guard, or the notice that its text is no selector. -/
theorem delegate_noted (scope : Scope) (event text : String) (handler : EventHandler) :
    (s.noted ns).delegate scope event text handler =
      ((s.delegate scope event text handler).1.noted ns, (s.delegate scope event text handler).2) := by
  unfold delegate
  split
  · rfl
  · split
    · rfl
    · rw [log_noted]

/-- **Rendering** reads a tree and a record, and its notice stands behind. -/
theorem render_noted (n : Nat) (b : Binding) : (s.noted ns).render n b = (s.render n b).noted ns := by
  have hselect := (s.observe (.query b.key.selector)).select_noted ns (s.binder n).scope b.key.selector
  have hobserve : (s.noted ns).observe (.query b.key.selector) = (s.observe (.query b.key.selector)).noted ns := rfl
  have hbinder : (s.noted ns).binder n = s.binder n := rfl
  have hfields (s : Store) (id : RecordId) : (s.noted ns).fields id = s.fields id := rfl
  have harena (s : Store) (n : Nat) (f : Arena → Arena) :
      (s.noted ns).modifyArena n f = (s.modifyArena n f).noted ns := rfl
  unfold render
  simp only [hbinder, hobserve, hselect, hfields, log_noted, harena]
  split <;> rfl

/-- Warnings that fields are missing stand behind. -/
theorem warnMissing_noted (config : Config) (id : RecordId) (triggers : Option (List String)) :
    (s.noted ns).warnMissing config id triggers = (s.warnMissing config id triggers).noted ns := by
  unfold warnMissing
  split
  · exact s.logAll_noted ns _
  · rfl

/-- A binder that begins to listen to a record notes so behind. -/
theorem listen_noted (n : Nat) (id : RecordId) : (s.noted ns).listen n id = (s.listen n id).noted ns := by
  unfold listen
  simp only [subscribe_noted, log_noted]
  rfl

/-- Whether a record has an entry is read off the registry. -/
theorem opened_noted (n : Nat) (p : Prepared) : (s.noted ns).opened n p = (s.opened n p).noted ns := by
  have hbinder (s : Store) : (s.noted ns).binder n = s.binder n := rfl
  unfold opened
  simp only [warnMissing_noted, hbinder, listen_noted]
  split <;> rfl

/-- The handler that a two-way binding attaches. -/
theorem listenBack_noted (n : Nat) (p : Prepared) :
    (s.noted ns).listenBack n p = ((s.listenBack n p).1.noted ns, (s.listenBack n p).2) := by
  unfold listenBack
  split
  · exact delegate_noted (s.observe _) ns _ _ _ _
  · rfl

/-- That a binding is replaced is noted behind. -/
theorem register_noted (n : Nat) (b : Binding) : (s.noted ns).register n b = (s.register n b).noted ns := by
  have hbinder : (s.noted ns).binder n = s.binder n := rfl
  have hmodify : (s.noted ns).modifyRegistry n (·.insert b) = (s.modifyRegistry n (·.insert b)).noted ns := rfl
  unfold register
  simp only [hbinder, hmodify]
  split
  · rw [log_noted, dropAll_noted]
  · rfl

/-- **Putting a binding into effect does not depend on notices given earlier.** -/
theorem commit_noted (n : Nat) (p : Prepared) : (s.noted ns).commit n p = (s.commit n p).noted ns := by
  simp only [commit_eq, opened_noted, listenBack_noted, register_noted, render_noted]
  split <;> rfl

/-- The same for all bindings of a map. -/
theorem commitAll_noted (n : Nat) (ps : List Prepared) :
    (s.noted ns).commitAll n ps = (s.commitAll n ps).noted ns := by
  induction ps generalizing s with
  | nil => rfl
  | cons p rest ih => exact (congrArg (commitAll · n rest) (s.commit_noted ns n p)).trans (ih _)

/-- Leaving the collections drops guards only. -/
theorem leaveCollections_noted (n : Nat) :
    (s.noted ns).leaveCollections n = (s.leaveCollections n).noted ns := by
  unfold leaveCollections
  exact dropAll_noted (s.modifyBinder n fun b => { b with collectionGuards := [] }) ns _

/-- What is taken out is noted entry by entry, behind. -/
theorem unbindAll_noted (n : Nat) (id : Option RecordId) :
    (s.noted ns).unbindAll n id = (s.unbindAll n id).noted ns := by
  have hbinder : (s.noted ns).binder n = s.binder n := rfl
  have hmodify (f : Registry → Registry) : (s.noted ns).modifyRegistry n f = (s.modifyRegistry n f).noted ns := rfl
  unfold unbindAll
  simp only [hbinder, hmodify, logAll_noted, dropAll_noted]

/-- **Detaching** counts the collections that are left, not the notices. -/
theorem detach_noted (n : Nat) : (s.noted ns).detach n = (s.detach n).noted ns := by
  have hbinder (s : Store) : (s.noted ns).binder n = s.binder n := rfl
  unfold detach
  simp only [unbindAll_noted, hbinder, log_noted]
  split <;> rw [leaveCollections_noted]

/-- The two listeners on a collection. -/
theorem listenCollection_noted (n c : Nat) :
    (s.noted ns).listenCollection n c = (s.listenCollection n c).noted ns := by
  unfold listenCollection
  simp only [subscribe_noted]
  rfl

end Noted

/-- **A notice given before a map is put into effect** changes nothing but the notices. -/
theorem untouched_of_log (s : Store) (n c : Nat) (ps : List Prepared) {notice : Notice}
    (hnotice : notice.isRendering = false) :
    let quiet := ((s.detach n).commitAll n ps).listenCollection n c
    let loud := (((s.log notice).detach n).commitAll n ps).listenCollection n c
    quiet.Untouched loud ∧ loud.renderings = quiet.renderings := by
  -- both stores are the store without its notices, with different notices put back in front
  let s₀ : Store := { s with journal := ⟨s.journal.events, []⟩ }
  have hs : s = s₀.noted s.journal.notices := by simp [s₀, noted]
  have hlog : s.log notice = s₀.noted (s.journal.notices ++ [notice]) := by simp [s₀, noted, log]
  have hquiet : ((s.detach n).commitAll n ps).listenCollection n c =
      (((s₀.detach n).commitAll n ps).listenCollection n c).noted s.journal.notices := by
    conv_lhs => rw [hs]
    rw [detach_noted, commitAll_noted, listenCollection_noted]
  intro quiet loud
  have hloud : loud = (((s₀.detach n).commitAll n ps).listenCollection n c).noted (s.journal.notices ++ [notice]) := by
    simp only [loud, hlog, detach_noted, commitAll_noted, listenCollection_noted]
  rw [hloud, show quiet = _ from hquiet]
  refine ⟨⟨rfl, rfl, rfl, rfl, rfl, rfl, rfl⟩, ?_⟩
  rw [renderings_noted, renderings_noted, List.filter_append, List.filter_singleton, hnotice]
  simp

end Databind.Store
