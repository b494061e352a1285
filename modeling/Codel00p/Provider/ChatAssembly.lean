import Codel00p.Provider.Transport.ChatCompletions

/-! What a chat completion is put together to, for parts of several calls in any order. -/

namespace Codel00p

section

variable {α β : Type} (items : List α) (item : α)

theorem getLast?_filterMap_concat (field : α → Option β) :
    ((items ++ [item]).filterMap field).getLast? = (field item).or (items.filterMap field).getLast? := by
  cases given : field item <;> simp [List.filterMap_append, given]

theorem join_filterMap_concat (field : α → Option String) :
    String.join ((items ++ [item]).filterMap field) = String.join (items.filterMap field) ++ (field item).getD "" := by
  cases given : field item <;> simp [List.filterMap_append, given]

end

namespace ChatCompletions

section

variable (chunks : List ChatCompletionsStreamChunk) (index : Nat)

def firstChoices : List ChatStreamChoice := chunks.filterMap (·.choices.head?)

def contentDeltas : String := String.join ((firstChoices chunks).filterMap (·.delta.content))

def partsOf (deltas : List ChatStreamToolCall) : List ChatStreamToolCall := deltas.filter (·.index.getD 0 = index)

def partsAt : List ChatStreamToolCall := partsOf index ((firstChoices chunks).flatMap (·.delta.toolCalls))

def idAt : Option String := ((partsAt chunks index).filterMap (·.id)).getLast?

def nameAt : String := String.join ((partsAt chunks index).filterMap (·.function.bind (·.name)))

def argumentsAt : String := String.join ((partsAt chunks index).filterMap (·.function.bind (·.arguments)))

def lastFinishReason : Option String := ((firstChoices chunks).filterMap (·.finishReason)).getLast?

def lastUsage : Option ChatUsage := (chunks.filterMap (·.usage)).getLast?

end

theorem foldl_add (deltas : List ChatStreamToolCall) : deltas.foldl StreamingToolCall.add {} =
    { id := (deltas.filterMap (·.id)).getLast?
      name := String.join (deltas.filterMap (·.function.bind (·.name)))
      arguments := String.join (deltas.filterMap (·.function.bind (·.arguments))) } := by
  induction deltas using List.reverseRecOn with
  | nil => rfl
  | append_singleton deltas delta ih =>
    rw [List.foldl_append, ih, getLast?_filterMap_concat, join_filterMap_concat, join_filterMap_concat]
    rfl

section

variable (toolCalls : List StreamingToolCall)

include toolCalls

theorem getD_withSlot (index slot : Nat) : (withSlot toolCalls index).getD slot {} = toolCalls.getD slot {} := by
  unfold withSlot
  split
  · rfl
  · simp only [List.getD_eq_getElem?_getD, List.getElem?_append, List.getElem?_replicate]
    split <;> rename_i inside
    · rfl
    · rw [List.getElem?_eq_none (Nat.le_of_not_lt inside)]
      split <;> rfl

theorem lt_length_withSlot (index : Nat) : index < (withSlot toolCalls index).length := by
  unfold withSlot
  split
  · assumption
  · rw [List.length_append, List.length_replicate]
    omega

theorem getD_ingestToolCall (delta : ChatStreamToolCall) (slot : Nat) :
    (ingestToolCall toolCalls delta).1.getD slot {}
      = (partsOf slot [delta]).foldl StreamingToolCall.add (toolCalls.getD slot {}) := by
  have inside := lt_length_withSlot toolCalls (delta.index.getD 0)
  by_cases own : delta.index.getD 0 = slot
  · subst own
    simp only [ingestToolCall, partsOf, List.filter_singleton, decide_true, cond_true, List.foldl_cons, List.foldl_nil,
      List.getD_eq_getElem?_getD, List.getElem?_set_self inside, Option.getD_some]
    rw [← List.getD_eq_getElem?_getD, getD_withSlot, List.getD_eq_getElem?_getD]
  · simp only [ingestToolCall, partsOf, List.filter_singleton, decide_eq_false own, cond_false, List.foldl_nil,
      List.getD_eq_getElem?_getD, List.getElem?_set_ne own]
    rw [← List.getD_eq_getElem?_getD, getD_withSlot, List.getD_eq_getElem?_getD]

end

theorem getD_ingestToolCalls (slot : Nat) (deltas : List ChatStreamToolCall) (toolCalls : List StreamingToolCall) :
    (ingestToolCalls toolCalls deltas).1.getD slot {}
      = (partsOf slot deltas).foldl StreamingToolCall.add (toolCalls.getD slot {}) := by
  induction deltas generalizing toolCalls with
  | nil => rfl
  | cons delta deltas ih =>
    rw [ingestToolCalls, ih, getD_ingestToolCall, ← List.foldl_append, partsOf, partsOf, partsOf, ← List.filter_append]
    rfl

/-- What the chunks so far are put together to. -/
structure Assembled (chunks : List ChatCompletionsStreamChunk) (state : StreamingAccumulator) : Prop where
  content : state.content = contentDeltas chunks
  hasContent : state.hasContent = !(contentDeltas chunks).isEmpty
  finishReason : state.finishReason = lastFinishReason chunks
  usage : state.usage = (lastUsage chunks).map (·.normalize)
  slots : ∀ index, state.toolCalls.getD index {} = (partsAt chunks index).foldl StreamingToolCall.add {}

theorem Assembled.ingest {chunks : List ChatCompletionsStreamChunk} {state : StreamingAccumulator}
    (assembled : Assembled chunks state) (chunk : ChatCompletionsStreamChunk) :
    Assembled (chunks ++ [chunk]) (state.ingest chunk).1 := by
  have usage : (chunk.usage.map (·.normalize)).or state.usage = (lastUsage (chunks ++ [chunk])).map (·.normalize) := by
    rw [lastUsage, getLast?_filterMap_concat, assembled.usage, lastUsage]
    cases chunk.usage <;> rfl
  unfold StreamingAccumulator.ingest
  cases first : chunk.choices.head? with
  | none =>
    -- A chunk without a choice, such as the one with the usage, adds nothing else.
    have same : firstChoices (chunks ++ [chunk]) = firstChoices chunks := by
      simp [firstChoices, List.filterMap_append, first]
    refine ⟨?_, ?_, ?_, usage, fun index => ?_⟩
    · rw [contentDeltas, same]
      exact assembled.content
    · rw [contentDeltas, same]
      exact assembled.hasContent
    · rw [lastFinishReason, same]
      exact assembled.finishReason
    · rw [partsAt, same]
      exact assembled.slots index
  | some choice =>
    have more : firstChoices (chunks ++ [chunk]) = firstChoices chunks ++ [choice] := by
      simp [firstChoices, List.filterMap_append, first]
    have text : contentDeltas (chunks ++ [chunk]) = contentDeltas chunks ++ choice.delta.content.getD "" := by
      rw [contentDeltas, more, join_filterMap_concat, contentDeltas]
    have reason : choice.finishReason.or state.finishReason = lastFinishReason (chunks ++ [chunk]) := by
      rw [lastFinishReason, more, getLast?_filterMap_concat, assembled.finishReason, lastFinishReason]
    have slots : ∀ index, (ingestToolCalls state.toolCalls choice.delta.toolCalls).1.getD index {}
        = (partsAt (chunks ++ [chunk]) index).foldl StreamingToolCall.add {} := by
      intro index
      rw [getD_ingestToolCalls, assembled.slots, ← List.foldl_append, partsAt, partsAt, more]
      simp [partsOf, List.filter_append]
    dsimp only
    cases given : choice.delta.content with
    | none =>
      rw [given, Option.getD_none, String.append_empty] at text
      exact ⟨text ▸ assembled.content, text ▸ assembled.hasContent, reason, usage, slots⟩
    | some delta =>
      rw [given, Option.getD_some] at text
      by_cases empty : delta.isEmpty = true
      · rw [String.isEmpty_iff.1 empty, String.append_empty] at text
        simp only [empty, if_true]
        exact ⟨text ▸ assembled.content, text ▸ assembled.hasContent, reason, usage, slots⟩
      · simp only [if_neg empty]
        refine ⟨by rw [assembled.content, text], ?_, reason, usage, slots⟩
        simp [text, mt String.isEmpty_iff.2 empty]

theorem assembled_accumulate (codec : JsonCodec) (provider : String) (chunks : List ChatCompletionsStreamChunk) :
    Assembled chunks ((accumulator codec provider).accumulate chunks).1 := by
  induction chunks using List.reverseRecOn with
  | nil => exact ⟨rfl, rfl, rfl, rfl, fun _ => rfl⟩
  | append_singleton chunks chunk ih =>
    rw [Accumulator.accumulate_concat]
    exact Assembled.ingest ih chunk

/-- A stream of chunks is put together to its text, to the calls whose parts give a name, by index, and to the last
reason and usage; only if there is none of these, it is refused. -/
theorem chat_stream_assembled (codec : JsonCodec) (provider : String) (chunks : List ChatCompletionsStreamChunk) :
    ∃ indices : List Nat, indices.Pairwise (· < ·) ∧ (∀ index, index ∈ indices ↔ nameAt chunks index ≠ "")
      ∧ (accumulator codec provider).finish ((accumulator codec provider).accumulate chunks).1 =
        if contentDeltas chunks = "" ∧ indices = [] ∧ lastFinishReason chunks = none then
          .error (.invalidResponse provider "stream produced no events")
        else .ok
          { content := if contentDeltas chunks = "" then none else some (contentDeltas chunks)
            toolCalls := indices.map fun index =>
              { id := idAt chunks index, name := nameAt chunks index
                arguments := parseArguments codec (argumentsAt chunks index) }
            finishReason := lastFinishReason chunks
            usage := (lastUsage chunks).map (·.normalize) } := by
  obtain ⟨content, hasContent, finishReason, usage, slots⟩ := assembled_accumulate codec provider chunks
  show ∃ indices : List Nat, _ ∧ _ ∧ StreamingAccumulator.finish codec provider _ = _
  generalize ((accumulator codec provider).accumulate chunks).1 = state at *
  simp only [foldl_add] at slots
  -- The slots are those of the indices up to the largest one; beyond it no part has come.
  have listed : state.toolCalls = (List.range state.toolCalls.length).map fun index =>
      { id := idAt chunks index, name := nameAt chunks index, arguments := argumentsAt chunks index } := by
    refine List.ext_getElem (by simp) fun index inside _ => ?_
    have slot := slots index
    rw [List.getD_eq_getElem?_getD, List.getElem?_eq_getElem inside] at slot
    rw [List.getElem_map, List.getElem_range]
    exact slot
  have inside : ∀ index, nameAt chunks index ≠ "" → index < state.toolCalls.length := by
    intro index named
    by_contra beyond
    have slot := slots index
    rw [List.getD_eq_getElem?_getD, List.getElem?_eq_none (Nat.le_of_not_lt beyond)] at slot
    exact named (congrArg StreamingToolCall.name slot).symm
  refine ⟨(List.range state.toolCalls.length).filter (nameAt chunks · ≠ ""),
    List.pairwise_lt_range.filter _, fun index => ?_, ?_⟩
  · simp only [List.mem_filter, List.mem_range, decide_eq_true_eq]
    exact ⟨And.right, fun named => ⟨inside index named, named⟩⟩
  · have named : (state.toolCalls.filter fun call => !call.name.isEmpty) =
        ((List.range state.toolCalls.length).filter (nameAt chunks · ≠ "")).map fun index =>
          { id := idAt chunks index, name := nameAt chunks index, arguments := argumentsAt chunks index } := by
      conv_lhs => rw [listed, List.filter_map]
      refine congrArg _ (List.filter_congr fun index _ => ?_)
      rw [Bool.eq_iff_iff]
      simp
    simp only [StreamingAccumulator.finish, named, content, hasContent, finishReason, usage, List.map_map]
    by_cases empty : contentDeltas chunks = "" <;> simp [empty, Function.comp_def]

end ChatCompletions

end Codel00p
