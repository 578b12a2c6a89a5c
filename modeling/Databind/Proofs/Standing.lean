import Databind.Proofs.Registered
import Databind.Proofs.Run

/-!
# `Proofs.Standing` — what a registry holds after a run

Whatever was done to a binder, by the host or by a callback in the middle of a notification, its registry holds
the bindings that stand: each was put into effect by the last act on its key, and they come in the order of
those acts. No entry is empty, and none holds two bindings under one key or one of another record.
-/

namespace Databind

open Store

namespace Registry

/-- **No two bindings of a registry are of the same record and under the same key.** -/
theorem Sound.nodup_bindings {r : Registry} (h : r.Sound) :
    (r.bindings.map fun b => (b.record, b.key)).Nodup := by
  unfold bindings
  rw [List.map_flatMap, List.nodup_flatMap]
  constructor
  · intro e he
    have hkeys := (h.entries e he).keys
    refine List.Nodup.of_map Prod.snd ?_
    rwa [List.map_map]
  · have hrecords := List.pairwise_map.mp h.records
    refine hrecords.imp_of_mem fun {e e'} he he' hne => List.disjoint_left.mpr ?_
    intro p hp hp'
    obtain ⟨b, hb, rfl⟩ := List.mem_map.mp hp
    obtain ⟨b', hb', hsame⟩ := List.mem_map.mp hp'
    have hrecord : b'.record = b.record := congrArg Prod.fst hsame
    refine hne ?_
    rw [← (h.entries e he).own b hb, ← (h.entries e' he').own b' hb', hrecord]

end Registry

theorem registered_empty : Store.empty.Registered := fun _ => Registry.sound_nil

namespace Machine

variable {m : Machine}

/-- Registries in a run are sound, and hold what stands after its deeds. -/
theorem registered_of_walk {turns : List Turn} (h : initial.walk? turns = some m) :
    m.store.Registered ∧ ∀ n id, ((m.store.binder n).registry.bindingsOf id).map Binding.unguarded =
      (standing id (actsOf n (initial.deeds turns))).map (Prepared.binding · none) := by
  obtain ⟨hregistered, hyields⟩ :=
    (walk_does sound_initial h).effects.registered sound_initial.scene registered_empty
  refine ⟨hregistered, fun n id => ?_⟩
  have hnothing : ((initial.scene.store.binder n).registry.bindingsOf id) = [] := rfl
  have h := hyields n id
  rw [hnothing] at h
  exact h

/-- **Registries are sound in every state of every run**: entries are not empty and hold bindings of their own
record, no two bindings share a record and a key, and those of a record are the ones that stand after what was
done to the binder, in the order in which they were put into effect. -/
theorem registry_of_walk {turns : List Turn} (h : initial.walk? turns = some m) (n : Nat) :
    (∀ e ∈ (m.store.binder n).registry,
      e.bindings ≠ [] ∧ (∀ b ∈ e.bindings, b.record = e.record) ∧ (e.bindings.map (·.key)).Nodup) ∧
    (((m.store.binder n).registry.map (·.record)).Nodup ∧
      ((m.store.binder n).registry.bindings.map fun b => (b.record, b.key)).Nodup) ∧
    ∀ id, ((m.store.binder n).registry.bindingsOf id).map Binding.unguarded =
      (standing id (actsOf n (initial.deeds turns))).map (Prepared.binding · none) := by
  obtain ⟨hregistered, hstanding⟩ := registered_of_walk h
  have hsound := hregistered n
  refine ⟨fun e he => ?_, ⟨hsound.records, hsound.nodup_bindings⟩, hstanding n⟩
  exact ⟨hsound.nonempty e he, (hsound.entries e he).own, (hsound.entries e he).keys⟩

/-- Two bindings of a record, and the first one made anew. -/
def rebound : List Turn :=
  [.command (.act (.tree (.make "tree" (.node (.ofTag "root") [])))), .step,
    .command (.act (.record (.make "record" [("a", .null), ("b", .null)]))), .step,
    .command (.act (.binder (.make "binder" "tree" (.given none none none)))), .step,
    .command (.act (.binder (.bind "binder" "record" (.field "a") ⟨"", ""⟩ .off false))), .step,
    .command (.act (.binder (.bind "binder" "record" (.field "b") ⟨"", "title"⟩ .defaultEvent true))), .step,
    .command (.act (.binder (.bind "binder" "record" (.field "b") ⟨"", ""⟩ .off false))), .step]

/-- The binding made anew stands last. -/
theorem registry_of_walk_rebound :
    ∃ m, initial.walk? rebound = some m ∧
      ((m.store.binder 0).registry.bindingsOf ⟨1⟩).map (·.key) = [⟨"", "title"⟩, ⟨"", ""⟩] ∧
      ((m.store.binder 0).registry.bindingsOf ⟨1⟩).map Binding.unguarded =
        (standing ⟨1⟩ (actsOf 0 (initial.deeds rebound))).map (Prepared.binding · none) := by
  have hkeys : (initial.walk? rebound).map (fun m => ((m.store.binder 0).registry.bindingsOf ⟨1⟩).map (·.key)) =
      some [⟨"", "title"⟩, ⟨"", ""⟩] := by rfl
  obtain ⟨m, h, hkeys⟩ := Option.map_eq_some_iff.mp hkeys
  exact ⟨m, h, hkeys, (registry_of_walk h 0).2.2 ⟨1⟩⟩

end Machine

end Databind
