import Codel00p.Provider.ChatAssembly

/-! The slots that a stream of chat completions allocates for tool calls, by the indices that the server sends. -/

namespace Codel00p.ChatCompletions

/-- A slot takes 72 bytes, and an allocation at most `isize::MAX` of them. -/
def maxSlots : Nat := (2 ^ 63 - 1) / 72

/-- Add parts of tool calls, each in its slot; there is no room for an index beyond the limit, which panics. -/
def allocated : List StreamingToolCall → List ChatStreamToolCall → Option (List StreamingToolCall)
  | toolCalls, [] => some toolCalls
  | toolCalls, delta :: deltas =>
    if delta.index.getD 0 < maxSlots then allocated (ingestToolCall toolCalls delta).1 deltas else none

/-- The parts of tool calls that a stream brings. -/
def toolCallDeltas (chunks : List ChatCompletionsStreamChunk) : List ChatStreamToolCall :=
  (firstChoices chunks).flatMap (·.delta.toolCalls)

theorem allocated_eq_some_iff {deltas : List ChatStreamToolCall} {toolCalls slots : List StreamingToolCall} :
    allocated toolCalls deltas = some slots ↔
      (∀ delta ∈ deltas, delta.index.getD 0 < maxSlots) ∧ (ingestToolCalls toolCalls deltas).1 = slots := by
  induction deltas generalizing toolCalls with
  | nil => simp [allocated, ingestToolCalls]
  | cons delta deltas ih =>
    rw [allocated, List.forall_mem_cons, and_assoc]
    split
    · next below =>
      rw [ih, and_iff_right below]
      rfl
    · next beyond => exact iff_of_false (by simp) fun fits => beyond fits.1

theorem length_ingestToolCalls_le_iff (deltas : List ChatStreamToolCall) (toolCalls : List StreamingToolCall)
    (bound : Nat) : (ingestToolCalls toolCalls deltas).1.length ≤ bound ↔
      toolCalls.length ≤ bound ∧ ∀ delta ∈ deltas, delta.index.getD 0 < bound := by
  induction deltas generalizing toolCalls with
  | nil => simp [ingestToolCalls]
  | cons delta deltas ih =>
    have grown : (ingestToolCall toolCalls delta).1.length = max toolCalls.length (delta.index.getD 0 + 1) := by
      simp only [ingestToolCall, List.length_set, withSlot]
      split
      · omega
      · rw [List.length_append, List.length_replicate]
        omega
    rw [List.forall_mem_cons, ← and_assoc]
    refine (ih (ingestToolCall toolCalls delta).1).trans (and_congr_left' ?_)
    rw [grown]
    omega

theorem ingestToolCalls_append (deltas later : List ChatStreamToolCall) (toolCalls : List StreamingToolCall) :
    (ingestToolCalls toolCalls (deltas ++ later)).1 = (ingestToolCalls (ingestToolCalls toolCalls deltas).1 later).1 := by
  induction deltas generalizing toolCalls with
  | nil => rfl
  | cons delta deltas ih => exact ih _

theorem toolCalls_accumulate (codec : JsonCodec) (provider : String) (chunks : List ChatCompletionsStreamChunk) :
    ((accumulator codec provider).accumulate chunks).1.toolCalls = (ingestToolCalls [] (toolCallDeltas chunks)).1 := by
  induction chunks using List.reverseRecOn with
  | nil => rfl
  | append_singleton chunks chunk ih =>
    rw [Accumulator.accumulate_concat]
    show (StreamingAccumulator.ingest _ chunk).1.toolCalls = _
    unfold StreamingAccumulator.ingest
    cases first : chunk.choices.head? with
    | none => simpa [toolCallDeltas, firstChoices, List.filterMap_append, first] using ih
    | some choice =>
      have more : toolCallDeltas (chunks ++ [chunk]) = toolCallDeltas chunks ++ choice.delta.toolCalls := by
        simp [toolCallDeltas, firstChoices, List.filterMap_append, first]
      rw [more, ingestToolCalls_append, ← ih]
      dsimp only
      split
      · split <;> rfl
      · rfl

/-- No part panics, and the slots stay within the parts that were received, exactly if each part belongs to a slot that
is there or to the next one, below the limit of an allocation. -/
theorem slots_bounded_iff (codec : JsonCodec) (provider : String) (chunks : List ChatCompletionsStreamChunk) :
    ((∀ done rest, toolCallDeltas chunks = done ++ rest →
        ∃ slots, allocated [] done = some slots ∧ slots.length ≤ done.length) ↔
      ∀ done delta rest, toolCallDeltas chunks = done ++ delta :: rest →
        delta.index.getD 0 ≤ done.length ∧ delta.index.getD 0 < maxSlots) ∧
    ∀ slots, allocated [] (toolCallDeltas chunks) = some slots →
      ((accumulator codec provider).accumulate chunks).1.toolCalls = slots := by
  simp only [allocated_eq_some_iff]
  refine ⟨⟨?_, ?_⟩, fun slots taken => (toolCalls_accumulate codec provider chunks).trans taken.2⟩
  · intro bounded done delta rest split
    obtain ⟨slots, ⟨fits, rfl⟩, counted⟩ := bounded (done ++ [delta]) rest (by simp [split])
    have last : delta ∈ done ++ [delta] := by simp
    have within := ((length_ingestToolCalls_le_iff _ _ _).1 counted).2 delta last
    rw [List.length_append, List.length_singleton] at within
    exact ⟨Nat.le_of_lt_succ within, fits delta last⟩
  · intro near done rest split
    -- A part among those that are done has its own parts before it.
    have each : ∀ delta ∈ done, delta.index.getD 0 < done.length ∧ delta.index.getD 0 < maxSlots := by
      intro delta member
      obtain ⟨before, after, rfl⟩ := List.append_of_mem member
      have guarded := near before delta (after ++ rest) (by simp [split])
      rw [List.length_append, List.length_cons]
      omega
    refine ⟨_, ⟨fun delta member => (each delta member).2, rfl⟩, ?_⟩
    exact (length_ingestToolCalls_le_iff _ _ _).2 ⟨Nat.zero_le _, fun delta member => (each delta member).1⟩

/-- A chunk with one part of a call. -/
def partChunk (index : Nat) : ChatCompletionsStreamChunk :=
  { choices := [{ delta := { toolCalls := [{ index := some index }] } }] }

/-- One part with a far index allocates all slots up to it, and one with the largest index panics. -/
theorem far_index_allocates : (allocated [] (toolCallDeltas [partChunk 5])).map (·.length) = some 6 ∧
    (toolCallDeltas [partChunk 5]).length = 1 ∧ (allocated [] (toolCallDeltas [partChunk (2 ^ 64 - 1)])).isNone := by
  decide

end Codel00p.ChatCompletions
