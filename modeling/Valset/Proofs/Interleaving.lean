/-!
# Interleavings of streams

Several streams that are read as one. The items of each stream keep their order, and nothing else is
said about the order in which the streams get their turns.
-/

namespace Valset

variable {α : Type}

/-- A list takes its items from the front of streams, in any order of the streams, until they are
all empty. -/
inductive Merges : List (List α) → List α → Prop
  | done
      {streams : List (List α)}
      (exhausted : ∀ stream ∈ streams, stream = []) :
      Merges streams []
  | next
      {front back : List (List α)}
      {stream merged : List α}
      {item : α}
      (rest : Merges (front ++ stream :: back) merged) :
      Merges (front ++ (item :: stream) :: back) (item :: merged)

namespace Merges

variable
  {streams front back : List (List α)}
  {stream merged before after : List α}
  {item : α}

/-- An interleaving has the items of its streams. -/
theorem mem_iff (merges : Merges streams merged) :
    item ∈ merged ↔ ∃ stream ∈ streams, item ∈ stream := by
  induction merges with
  | done exhausted =>
      constructor
      · intro present
        cases present
      · rintro ⟨stream, inStreams, present⟩
        rw [exhausted stream inStreams] at present
        cases present
  | next rest inductionHypothesis =>
      rw [List.mem_cons, inductionHypothesis]
      simp only [List.mem_append, List.mem_cons, or_and_right, exists_or, exists_eq_left]
      constructor
      · rintro (first | inFront | present | inBack)
        · exact .inr (.inl (.inl first))
        · exact .inl inFront
        · exact .inr (.inl (.inr present))
        · exact .inr (.inr inBack)
      · rintro (inFront | (first | present) | inBack)
        · exact .inr (.inl inFront)
        · exact .inl first
        · exact .inr (.inr (.inl present))
        · exact .inr (.inr (.inr inBack))

theorem forall_mem_iff
    (merges : Merges streams merged)
    {property : α → Prop} :
    (∀ item ∈ merged, property item) ↔ ∀ stream ∈ streams, ∀ item ∈ stream, property item := by
  constructor
  · intro all stream inStreams item present
    exact all item (merges.mem_iff.mpr ⟨stream, inStreams, present⟩)
  · intro all item present
    obtain ⟨stream, inStreams, inStream⟩ := merges.mem_iff.mp present
    exact all stream inStreams item inStream

/-- What stands in front of an item in its stream comes before it. -/
theorem exists_split
    (merges : Merges streams merged)
    (split : merged = before ++ item :: after) :
    ∃ earlier later, earlier ++ item :: later ∈ streams ∧ ∀ other ∈ earlier, other ∈ before := by
  induction merges generalizing before with
  | done => simp at split
  | @next front back stream merged first rest inductionHypothesis =>
      cases before with
      | nil =>
          obtain ⟨rfl, rfl⟩ := List.cons.inj split
          exact ⟨[], stream, by simp, by simp⟩
      | cons head before =>
          obtain ⟨rfl, splitRest⟩ := List.cons.inj split
          obtain ⟨earlier, later, present, comeBefore⟩ := inductionHypothesis splitRest
          rcases List.mem_append.mp present with inFront | inRest
          · exact ⟨earlier, later, List.mem_append_left _ inFront,
              fun other inEarlier => List.mem_cons_of_mem _ (comeBefore other inEarlier)⟩
          · rcases List.mem_cons.mp inRest with rfl | inBack
            · refine ⟨first :: earlier, later, by simp, ?_⟩
              intro other inEarlier
              rcases List.mem_cons.mp inEarlier with rfl | inEarlier
              · exact List.mem_cons_self
              · exact List.mem_cons_of_mem _ (comeBefore other inEarlier)
            · exact ⟨earlier, later,
                List.mem_append_right _ (List.mem_cons_of_mem _ inBack),
                fun other inEarlier => List.mem_cons_of_mem _ (comeBefore other inEarlier)⟩

/-- A stream may be read to its end before any other one. -/
theorem drain (rest : Merges (front ++ [] :: back) merged) :
    Merges (front ++ stream :: back) (stream ++ merged) := by
  induction stream with
  | nil => exact rest
  | cons item stream inductionHypothesis => exact .next inductionHypothesis

/-- An exhausted stream adds nothing. -/
theorem cons_nil (merges : Merges streams merged) : Merges ([] :: streams) merged := by
  induction merges with
  | done exhausted =>
      refine .done ?_
      intro stream present
      rcases List.mem_cons.mp present with rfl | inStreams
      · rfl
      · exact exhausted stream inStreams
  | @next front back stream merged item _ inductionHypothesis =>
      have longer : Merges (([] :: front) ++ (item :: stream) :: back) (item :: merged) :=
        .next inductionHypothesis
      exact longer

/-- Streams can be read one after the other. -/
theorem flatten (streams : List (List α)) : Merges streams streams.flatten := by
  induction streams with
  | nil => exact .done (by simp)
  | cons stream streams inductionHypothesis =>
      have drained : Merges ([] ++ stream :: streams) (stream ++ streams.flatten) :=
        drain inductionHypothesis.cons_nil
      exact drained

/-- Every stream may be the first one to be read to its end. -/
theorem exists_append (present : stream ∈ streams) :
    ∃ rest, Merges streams (stream ++ rest) := by
  obtain ⟨front, back, rfl⟩ := List.append_of_mem present
  exact ⟨_, drain (flatten (front ++ [] :: back))⟩

end Merges
end Valset
