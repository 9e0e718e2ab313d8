import Valset.Proofs.Scan.Durability
import Valset.Proofs.Scan.OrderedDeliveries

/-!
# Repeated deliveries

What is dropped from events that arrive at most one block late. An event is forgotten only when a
standing one has come from two blocks further on, and then no event of the forgotten block can
arrive any more. Retractions and repetitions may stand anywhere among the events. The last block of
all is left out, because behind it the numbers of the blocks begin again.
-/

namespace Valset
namespace Scan

namespace Follow

/-- The events that are not passed over when they arrive. -/
def heeded (state : Follow) : List LiveEvent → List LiveEvent
  | [] => []
  | live :: rest =>
    if state.skips live then (state.step live).1.heeded rest
    else live :: (state.step live).1.heeded rest

/-- What is remembered of the events that were taken. Those that are not remembered are of a block
that lies two or more behind a standing event. -/
structure Recalls
    (past taken : List LiveEvent)
    (state : Follow) : Prop where
  taken_of_seen : ∀ identity ∈ state.seen, ∃ live ∈ taken, .ofLive live = identity
  recalled : ∀ live ∈ taken, .ofLive live ∈ state.seen ∨
    ∃ higher ∈ past, higher.removed = false ∧ live.block + 1 < higher.block

section Step

variable
  {past taken : List LiveEvent}
  {state : Follow}

/-- What is recalled stays so when nothing is forgotten but for a standing event of a block beyond
the next one, and only the event that is taken is remembered in addition. -/
theorem Recalls.extend
    (recalls : Recalls past taken state)
    (live : LiveEvent)
    {now : List LiveEvent}
    {after : Follow}
    (seen_old : ∀ identity ∈ after.seen,
      identity ∈ state.seen ∨ ∃ same ∈ now, .ofLive same = identity)
    (seen_keeps : ∀ identity ∈ state.seen,
      identity ∈ after.seen ∨ (live.removed = false ∧ identity.block + 1 < live.block))
    (seen_now : ∀ same ∈ now, .ofLive same ∈ after.seen) :
    Recalls (past ++ [live]) (taken ++ now) after := by
  refine ⟨fun identity remembered => ?_, fun other present => ?_⟩
  · rcases seen_old identity remembered with earlier | ⟨same, inNow, equal⟩
    · obtain ⟨other, recorded, equal⟩ := recalls.taken_of_seen identity earlier
      exact ⟨other, List.mem_append_left _ recorded, equal⟩
    · exact ⟨same, List.mem_append_right _ inNow, equal⟩
  · rcases List.mem_append.mp present with earlier | inNow
    · rcases recalls.recalled other earlier with remembered | ⟨higher, inPast, standing, beyond⟩
      · exact (seen_keeps _ remembered).imp id fun passed =>
          ⟨live, List.mem_append_right _ List.mem_cons_self, passed⟩
      · exact .inr ⟨higher, List.mem_append_left _ inPast, standing, beyond⟩
    · exact .inl (seen_now other inNow)

/-- One more event keeps what is recalled. -/
theorem Recalls.step
    (recalls : Recalls past taken state)
    (live : LiveEvent)
    (within : ∀ other ∈ taken ++ [live], other.block + 1 < UInt64.size) :
    Recalls (past ++ [live])
      (taken ++ if state.skips live || state.hasSeen live then [] else [live])
      (state.step live).1 := by
  rcases state.step_cases live with
    ⟨skipped, stepped⟩ | ⟨_, known, stepped⟩ | ⟨heeded, new, completing, stepped⟩ |
      ⟨heeded, new, _, stepped⟩
  · rw [skipped, stepped]
    exact recalls.extend live (fun _ remembered => .inl remembered)
      (fun _ remembered => .inl remembered) nofun
  · rw [known, Bool.or_true, stepped]
    exact recalls.extend live (fun _ remembered => .inl remembered)
      (fun _ remembered => .inl remembered) nofun
  · simp only [completes, Bool.and_eq_true, Bool.not_eq_true'] at completing
    rw [heeded, new, stepped]
    refine recalls.extend live (fun identity remembered => ?_) (fun identity remembered => ?_) ?_
    · rcases List.mem_cons.mp (List.mem_filter.mp remembered).1 with rfl | earlier
      · exact .inr ⟨live, List.mem_cons_self, rfl⟩
      · exact .inl earlier
    · obtain ⟨other, recorded, rfl⟩ := recalls.taken_of_seen identity remembered
      have next := blockAfter_of_lt (within other (List.mem_append_left _ recorded))
      by_cases recent : live.block ≤ other.block + 1
      · exact .inl (List.mem_filter.mpr
          ⟨List.mem_cons_of_mem _ remembered, decide_eq_true (next.symm ▸ recent)⟩)
      · exact .inr ⟨completing.1, Nat.lt_of_not_le recent⟩
    · intro same present
      have next := blockAfter_of_lt (within live (List.mem_append_right _ List.mem_cons_self))
      rw [List.mem_singleton.mp present]
      exact List.mem_filter.mpr
        ⟨List.mem_cons_self, decide_eq_true (next.symm ▸ Nat.le_succ live.block)⟩
  · rw [heeded, new, stepped]
    refine recalls.extend live (fun identity remembered => ?_)
      (fun _ remembered => .inl (List.mem_cons_of_mem _ remembered)) ?_
    · rcases List.mem_cons.mp remembered with rfl | earlier
      · exact .inr ⟨live, List.mem_cons_self, rfl⟩
      · exact .inl earlier
    · intro same present
      rw [List.mem_singleton.mp present]
      exact List.mem_cons_self

/-- An event that is at most one block late is remembered if it has been taken. -/
theorem Recalls.hasSeen_iff
    (recalls : Recalls past taken state)
    {live : LiveEvent}
    (atMostOneLate : ∀ earlier ∈ past, earlier.removed = false → earlier.block ≤ live.block + 1) :
    state.hasSeen live ↔ EventIdentity.ofLive live ∈ taken.map .ofLive := by
  rw [Follow.hasSeen_iff, List.mem_map]
  constructor
  · exact recalls.taken_of_seen _
  · rintro ⟨same, recorded, equal⟩
    rcases recalls.recalled same recorded with remembered | ⟨higher, inPast, standing, beyond⟩
    · exact equal ▸ remembered
    · have sameBlock : same.block = live.block := congrArg EventIdentity.block equal
      have late := atMostOneLate higher inPast standing
      omega

end Step

end Follow

/-- Two blocks late, an event is written again. -/
example :
    (((Follow.start 10).taken
      [.sample 11 0 false, .sample 13 0 false, .sample 11 0 false]).map (·.block)) =
        [11, 13, 11] := by
  decide

end Scan
end Valset
