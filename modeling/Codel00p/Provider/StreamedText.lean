import Codel00p.Lib.Except
import Codel00p.Provider.Transport.AnthropicMessages
import Codel00p.Provider.Transport.BedrockConverse
import Codel00p.Provider.Transport.ChatCompletions
import Codel00p.Provider.Transport.Gemini
import Codel00p.Provider.Transport.Responses

/-! The text of a streamed response against the tokens that were delivered while it arrived. -/

namespace Codel00p

inductive StreamTransport where
  | chatCompletions
  | azureChatCompletions
  | anthropicMessages
  | responses
  | gemini
  | bedrockConverse
  deriving DecidableEq, Repr

/-- How the payloads of each kind of stream are decoded. -/
structure StreamCodec where
  chat : String → Except String ChatCompletions.ChatCompletionsStreamChunk
  anthropic : String → Except String AnthropicMessages.AnthropicStreamEvent
  responses : String → Except String Responses.ResponsesStreamEvent
  gemini : String → Except String Gemini.GeminiResponse
  bedrock : List UInt8 → Except String Json
  json : JsonCodec

section

variable (codec : StreamCodec) (provider : String) (response : SseResponse)

def transportStreaming : StreamTransport → Except ProviderError InferenceResponse × List SinkEvent
  | .chatCompletions | .azureChatCompletions =>
    streamEvents codec.chat provider (ChatCompletions.accumulator codec.json provider) response
  | .anthropicMessages =>
    streamEvents codec.anthropic provider (AnthropicMessages.accumulator codec.json) response
  | .responses => streamEvents codec.responses provider (Responses.accumulator codec.json provider) response
  | .gemini => streamEvents codec.gemini provider (Gemini.accumulator codec.json) response
  | .bedrockConverse => BedrockConverse.streamFrames codec.bedrock codec.json provider response

def terminalResponse (events : List Responses.ResponsesStreamEvent) : Option Responses.ResponsesResponse :=
  (events.filterMap fun event => if event.isTerminal then event.response else none).getLast?

/-- The text blocks that the stream repeats at its end, if it is one of those that do so. -/
def terminalBlocks : StreamTransport → Option (List String)
  | .responses =>
    (terminalResponse (decodedEvents codec.responses
      (streamSse provider response (decodingConsumer codec.responses provider)).2)).map (·.textBlocks)
  | _ => none

end

/-! ### Streams whose text is collected -/

theorem ChatCompletions.delivered_ingestToolCalls (text : Option String) (deltas : List ChatStreamToolCall) :
    ∀ toolCalls, delivered text (ingestToolCalls toolCalls deltas).2 = text := by
  induction deltas with
  | nil => exact fun _ => rfl
  | cons delta deltas ih => exact fun toolCalls => ih _

/-- The text of chat completions is what was delivered. -/
theorem ChatCompletions.finish_content {codec : JsonCodec} {provider : String}
    {chunks : List ChatCompletionsStreamChunk} {final : InferenceResponse}
    (finished : (accumulator codec provider).finish ((accumulator codec provider).accumulate chunks).1 = .ok final) :
    final.content = delivered none ((accumulator codec provider).accumulate chunks).2 := by
  have collected := (accumulator codec provider).accumulate_invariant
    (fun state : StreamingAccumulator => Collected state.content state.hasContent) ⟨rfl, rfl⟩
    (fun state chunk text collected => by
      show Collected (state.ingest chunk).1.content (state.ingest chunk).1.hasContent
        (delivered text (state.ingest chunk).2)
      unfold StreamingAccumulator.ingest
      cases chunk.choices.head? with
      | none => exact collected
      | some choice =>
        -- The tool calls come after the text and leave it alone.
        simp only [delivered_append, delivered_ingestToolCalls]
        cases choice.delta.content with
        | none => exact collected
        | some delta =>
          by_cases empty : delta.isEmpty = true
          · simp only [empty, if_true]
            exact collected
          · simp only [if_neg empty]
            exact collected.token delta) chunks
  have content := collected.thenSome
  change StreamingAccumulator.finish codec provider _ = .ok final at finished
  unfold StreamingAccumulator.finish at finished
  simp only at finished
  split at finished
  · exact nomatch finished
  · cases finished
    exact content

namespace AnthropicMessages.AnthropicStreamAccumulator

variable {state : AnthropicStreamAccumulator} {text : Option String}

section

variable (collected : Collected state.content state.hasContent text)

include collected

theorem openBlock_collected (index : Option Nat) (block : Option AnthropicStreamContentBlock) :
    Collected (state.openBlock index block).1.content (state.openBlock index block).1.hasContent
      (delivered text (state.openBlock index block).2) := by
  unfold openBlock
  split
  · split <;> exact collected
  · exact collected

theorem addText_collected (added : Option String) :
    Collected (state.addText added).1.content (state.addText added).1.hasContent
      (delivered text (state.addText added).2) := by
  unfold addText
  split
  · split
    · exact collected
    · exact collected.token _
  · exact collected

theorem addJson_collected (index : Option Nat) (partialJson : Option String) :
    Collected (state.addJson index partialJson).1.content (state.addJson index partialJson).1.hasContent
      (delivered text (state.addJson index partialJson).2) := by
  unfold addJson
  split
  · split <;> exact collected
  · exact collected

theorem ingest_collected (event : AnthropicStreamEvent) :
    Collected (state.ingest event).1.content (state.ingest event).1.hasContent
      (delivered text (state.ingest event).2) := by
  unfold ingest
  split
  · split <;> exact collected
  · exact openBlock_collected collected _ _
  · split
    · rw [delivered_append]
      exact addJson_collected (addText_collected collected _) _ _
    · exact collected
  · dsimp only
    split <;> exact collected
  · exact collected

end

end AnthropicMessages.AnthropicStreamAccumulator

theorem AnthropicMessages.finish_content (codec : JsonCodec) (events : List AnthropicStreamEvent) :
    (((accumulator codec).accumulate events).1.finish codec).content =
      delivered none ((accumulator codec).accumulate events).2 :=
  Collected.thenSome ((accumulator codec).accumulate_invariant
    (fun state : AnthropicStreamAccumulator => Collected state.content state.hasContent) ⟨rfl, rfl⟩
    (fun _ event _ collected => AnthropicStreamAccumulator.ingest_collected collected event) events)

theorem Gemini.ingestParts_collected (codec : JsonCodec) (parts : List GeminiResponsePart) :
    ∀ (state : GeminiStreamAccumulator) (text : Option String), Collected state.content state.hasContent text →
        Collected (state.ingestParts codec parts).1.content (state.ingestParts codec parts).1.hasContent
          (delivered text (state.ingestParts codec parts).2) := by
  induction parts with
  | nil => exact fun _ _ collected => collected
  | cons part parts ih =>
    intro state text collected
    show Collected (GeminiStreamAccumulator.ingestParts codec (state.ingestPart codec part).1 parts).1.content
      (GeminiStreamAccumulator.ingestParts codec (state.ingestPart codec part).1 parts).1.hasContent
      (delivered text (_ ++ _))
    rw [delivered_append]
    refine ih _ _ ?_
    -- One part is a token, a whole function call, or nothing that is delivered.
    unfold GeminiStreamAccumulator.ingestPart
    cases part with
    | text added =>
      by_cases empty : added.isEmpty = true
      · simp only [empty, if_true]
        exact collected
      · simp only [if_neg empty]
        exact collected.token added
    | functionCall functionCall => exact collected
    | other => exact collected

theorem Gemini.finish_content (codec : JsonCodec) (chunks : List GeminiResponse) :
    ((accumulator codec).accumulate chunks).1.finish.content =
      delivered none ((accumulator codec).accumulate chunks).2 := by
  refine Collected.thenSome ((accumulator codec).accumulate_invariant
    (fun state : GeminiStreamAccumulator => Collected state.content state.hasContent) ⟨rfl, rfl⟩ ?_ chunks)
  intro state chunk text collected
  show Collected (GeminiStreamAccumulator.ingest codec state chunk).1.content
    (GeminiStreamAccumulator.ingest codec state chunk).1.hasContent
    (delivered text (GeminiStreamAccumulator.ingest codec state chunk).2)
  unfold GeminiStreamAccumulator.ingest
  cases chunk.candidates.head? with
  | none => exact collected
  | some candidate => exact ingestParts_collected codec candidate.parts _ text collected

namespace BedrockConverse.BedrockStreamAccumulator

variable {state : BedrockStreamAccumulator} {text : Option String}

theorem addText_collected (collected : Collected state.content state.hasContent text) (delta : Json) :
    Collected (state.addText delta).1.content (state.addText delta).1.hasContent
      (delivered text (state.addText delta).2) := by
  unfold addText
  split
  · split
    · exact collected
    · exact collected.token _
  · exact collected

theorem addInput_collected (collected : Collected state.content state.hasContent text) (index : Nat) (delta : Json) :
    Collected (state.addInput index delta).1.content (state.addInput index delta).1.hasContent
      (delivered text (state.addInput index delta).2) := by
  unfold addInput
  split <;> exact collected

theorem ingest_collected (collected : Collected state.content state.hasContent text) (event : BedrockStreamEvent) :
    Collected (state.ingest event).1.content (state.ingest event).1.hasContent
      (delivered text (state.ingest event).2) := by
  unfold ingest
  dsimp only
  split
  · unfold openBlock
    split <;> exact collected
  · split
    · rw [delivered_append]
      exact addInput_collected (addText_collected collected _) _ _
    · exact collected
  · exact collected
  · split <;> exact collected
  · exact collected

end BedrockConverse.BedrockStreamAccumulator

theorem BedrockConverse.finish_content (codec : JsonCodec) (events : List BedrockStreamEvent) :
    (((accumulator codec).accumulate events).1.finish codec).content =
      delivered none ((accumulator codec).accumulate events).2 :=
  Collected.thenSome ((accumulator codec).accumulate_invariant
    (fun state : BedrockStreamAccumulator => Collected state.content state.hasContent) ⟨rfl, rfl⟩
    (fun _ event _ collected => BedrockStreamAccumulator.ingest_collected collected event) events)

/-! ### Streams whose text is repeated -/

namespace Responses

structure Tracks (state : ResponsesStreamAccumulator) (text : Option String) : Prop where
  collected : Collected state.text state.hasText text
  nonempty : text ≠ some ""

theorem ingest_tracks {state : ResponsesStreamAccumulator} {text : Option String} (tracks : Tracks state text)
    (event : ResponsesStreamEvent) : Tracks (state.ingest event).1 (delivered text (state.ingest event).2) := by
  unfold ResponsesStreamAccumulator.ingest
  split
  · split
    · split
      · exact tracks
      · next added _ filled =>
        refine ⟨tracks.collected.token _, fun empty => filled ?_⟩
        have joined : text.getD "" ++ added = "" := Option.some.inj empty
        rw [String.isEmpty_iff]
        exact (String.append_eq_empty_iff.1 joined).2
    · exact tracks
  · split
    · exact ⟨tracks.collected, tracks.nonempty⟩
    · exact tracks

theorem ingest_completed (state : ResponsesStreamAccumulator) (event : ResponsesStreamEvent) :
    (state.ingest event).1.completed = (if event.isTerminal then event.response else none).or state.completed := by
  unfold ResponsesStreamAccumulator.ingest
  by_cases delta : event.kind = "response.output_text.delta"
  · -- A delta is no terminal event.
    have other : event.isTerminal = false := by
      rw [ResponsesStreamEvent.isTerminal, delta]
      decide
    rw [if_pos delta, other]
    split
    · split <;> rfl
    · rfl
  · rw [if_neg delta]
    by_cases terminal : event.isTerminal = true
    · simp only [if_pos terminal]
    · simp only [if_neg terminal]
      rfl

theorem terminalResponse_cons (event : ResponsesStreamEvent) (events : List ResponsesStreamEvent) :
    terminalResponse (event :: events) =
      (terminalResponse events).or (if event.isTerminal then event.response else none) := by
  unfold terminalResponse
  rw [List.filterMap_cons]
  cases (if event.isTerminal then event.response else none) with
  | none => exact (Option.or_none ..).symm
  | some response =>
    dsimp only
    rw [List.getLast?_cons]
    cases (events.filterMap _).getLast? <;> rfl

theorem accumulate_completed (codec : JsonCodec) (provider : String) (events : List ResponsesStreamEvent) :
    ((accumulator codec provider).accumulate events).1.completed = terminalResponse events := by
  have general : ∀ (events : List ResponsesStreamEvent) (state : ResponsesStreamAccumulator)
      (sunk : List SinkEvent),
      (events.foldl (fun (state, sunk) event =>
        (((accumulator codec provider).ingest state event).1,
          sunk ++ ((accumulator codec provider).ingest state event).2)) (state, sunk)).1.completed =
        (terminalResponse events).or state.completed := by
    intro events
    induction events with
    | nil => exact fun _ _ => rfl
    | cons event events ih =>
      intro state sunk
      refine (ih _ _).trans ?_
      show (terminalResponse events).or (state.ingest event).1.completed = _
      rw [ingest_completed, terminalResponse_cons, Option.or_assoc]
  exact (general events {} []).trans (Option.or_none ..)

variable {response : ResponsesResponse}

theorem textBlocks_ne_empty {block : String} (member : block ∈ response.textBlocks) : block ≠ "" := by
  obtain ⟨item, _, inside⟩ := List.mem_flatMap.1 member
  obtain ⟨content, _, text⟩ := List.mem_filterMap.1 inside
  unfold ResponsesOutputContent.intoText at text
  split at text
  · have filled := (Option.filter_eq_some_iff.1 text).2
    rintro rfl
    exact nomatch filled
  · exact nomatch text

theorem length_intercalate (first : String) (blocks : List String) :
    ("\n".intercalate (first :: blocks)).length = (String.join (first :: blocks)).length + blocks.length := by
  induction blocks generalizing first with
  | nil => simp
  | cons second blocks ih =>
    rw [String.intercalate_cons_cons, String.join_cons, String.length_append, String.length_append,
      String.length_append, ih, List.length_cons]
    have newline : "\n".length = 1 := by decide
    omega

theorem joined_eq_iff {blocks : List String} {text : Option String} (filled : ∀ block ∈ blocks, block ≠ "")
    (nonempty : text ≠ some "") (repeats : String.join blocks = text.getD "") :
    (if blocks.isEmpty then none else some ("\n".intercalate blocks)) = text ↔ blocks.length ≤ 1 := by
  match blocks with
  | [] =>
    -- No block is there, so that nothing was delivered either.
    have empty : text = none := by
      cases text with
      | none => rfl
      | some text => exact absurd (congrArg some repeats.symm) nonempty
    simp [empty]
  | [block] =>
    have same : text = some block := by
      cases text with
      | none =>
        have empty : block = "" := by simpa using repeats
        exact absurd empty (filled block List.mem_cons_self)
      | some text => simpa using repeats.symm
    simp [same]
  | first :: second :: blocks =>
    constructor
    · intro same
      -- The line break between two blocks was never delivered.
      have text_eq : text = some ("\n".intercalate (first :: second :: blocks)) := same.symm
      rw [text_eq, Option.getD_some] at repeats
      have lengths := length_intercalate first (second :: blocks)
      rw [← repeats, List.length_cons] at lengths
      omega
    · intro few
      simp at few

theorem normalize_content {codec : JsonCodec} {provider : String}
    {final : InferenceResponse} (normalized : response.normalize codec provider = .ok final) : final.content =
      if response.textBlocks.isEmpty then none else some ("\n".intercalate response.textBlocks) := by
  obtain ⟨toolCalls, _, made⟩ := Except.bind_eq_ok.1 normalized
  rw [← Except.pure_eq_ok.1 made]

theorem finish_content_iff {codec : JsonCodec} {provider : String} {events : List ResponsesStreamEvent}
    {final : InferenceResponse}
    (finished : (accumulator codec provider).finish ((accumulator codec provider).accumulate events).1 = .ok final)
    (repeats : ∀ response, terminalResponse events = some response → String.join response.textBlocks =
      (delivered none ((accumulator codec provider).accumulate events).2).getD "") :
    final.content = delivered none ((accumulator codec provider).accumulate events).2 ↔
      ∀ response, terminalResponse events = some response → response.textBlocks.length ≤ 1 := by
  have tracks := (accumulator codec provider).accumulate_invariant Tracks ⟨⟨rfl, rfl⟩, nofun⟩
    (fun _ event _ tracks => ingest_tracks tracks event) events
  have kept := accumulate_completed codec provider events
  change ResponsesStreamAccumulator.finish codec provider _ = .ok final at finished
  unfold ResponsesStreamAccumulator.finish at finished
  rw [kept] at finished
  cases repeated : terminalResponse events with
  | none =>
    -- Without a terminal event the text is the one that was collected.
    rw [repeated] at finished
    cases finished
    exact ⟨fun _ _ impossible => (nomatch impossible), fun _ => tracks.collected.thenSome⟩
  | some response =>
    rw [repeated] at finished
    rw [normalize_content finished, joined_eq_iff (fun _ => textBlocks_ne_empty) tracks.nonempty (repeats response repeated)]
    constructor
    · rintro few _ ⟨⟩
      exact few
    · exact fun few => few response rfl

end Responses

/-! ### All streams -/

theorem BedrockConverse.streamFrames_content {decode : List UInt8 → Except String Json} {codec : JsonCodec}
    {provider : String} {response : SseResponse} {final : InferenceResponse} {sunk : List SinkEvent}
    (succeeded : streamFrames decode codec provider response = (.ok final, sunk)) :
    final.content = delivered none sunk := by
  unfold streamFrames at succeeded
  split at succeeded
  · obtain ⟨finished, rfl⟩ := Accumulator.conclude_eq_ok succeeded
    rw [← Except.ok.inj finished]
    exact finish_content codec _
  · exact nomatch succeeded

/--
The text of a streamed response is what was delivered just when no more than one block is repeated at its end.

Only the Responses API repeats blocks; all others put the text together from what they deliver.
-/
theorem streamed_text_iff (codec : StreamCodec) (provider : String) (response : SseResponse)
    (transport : StreamTransport) (final : InferenceResponse) (sunk : List SinkEvent)
    (succeeded : transportStreaming codec provider response transport = (.ok final, sunk))
    (repeats : ∀ blocks, terminalBlocks codec provider response transport = some blocks →
      String.join blocks = (delivered none sunk).getD "") : final.content = delivered none sunk ↔
      ∀ blocks, terminalBlocks codec provider response transport = some blocks → blocks.length ≤ 1 := by
  -- A transport without terminal blocks only has to keep to the text.
  have collects : final.content = delivered none sunk → terminalBlocks codec provider response transport = none →
      (final.content = delivered none sunk ↔
        ∀ blocks, terminalBlocks codec provider response transport = some blocks → blocks.length ≤ 1) := by
    intro content absent
    exact ⟨fun _ _ present => (nomatch absent.symm.trans present), fun _ => content⟩
  cases transport with
  | chatCompletions | azureChatCompletions =>
    obtain ⟨finished, rfl⟩ := Accumulator.conclude_eq_ok succeeded
    exact collects (ChatCompletions.finish_content finished) rfl
  | anthropicMessages =>
    obtain ⟨finished, rfl⟩ := Accumulator.conclude_eq_ok succeeded
    refine collects ?_ rfl
    rw [← Except.ok.inj finished]
    exact AnthropicMessages.finish_content codec.json _
  | gemini =>
    obtain ⟨finished, rfl⟩ := Accumulator.conclude_eq_ok succeeded
    refine collects ?_ rfl
    rw [← Except.ok.inj finished]
    exact Gemini.finish_content codec.json _
  | bedrockConverse => exact collects (BedrockConverse.streamFrames_content succeeded) rfl
  | responses =>
    obtain ⟨finished, rfl⟩ := Accumulator.conclude_eq_ok succeeded
    refine (Responses.finish_content_iff finished fun response repeated => ?_).trans ?_
    · exact repeats _ (congrArg (Option.map _) repeated)
    · constructor
      · intro few blocks present
        obtain ⟨response, repeated, rfl⟩ := Option.map_eq_some_iff.1 present
        exact few response repeated
      · intro few response repeated
        exact few _ (congrArg (Option.map _) repeated)

def blocksCodec : StreamCodec where
  chat _ := .error "no chunk"
  anthropic _ := .error "no event"
  responses payload := .ok
    (match payload with
    | "a" => { kind := "response.output_text.delta", delta := some "a" }
    | "b" => { kind := "response.output_text.delta", delta := some "b" }
    | _ => { kind := "response.completed",
             response := some { output := [{ kind := "message", content :=
               if payload = "one" then [{ kind := "output_text", text := some "ab" }]
               else [{ kind := "output_text", text := some "a" }, { kind := "output_text", text := some "b" }] }] } })
  gemini _ := .error "no response"
  bedrock _ := .error "no frame"
  json := { parse := fun _ => none, render := fun _ => "" }

/-- A stream of two deltas and a terminal event. -/
def blocksResponse (terminal : String) : SseResponse where
  chunks := [.ok ("data: a\ndata: b\ndata: " ++ terminal ++ "\n").toUTF8.toList]

/-- One block is repeated as it was delivered. -/
theorem one_block_repeated : ∃ final, transportStreaming blocksCodec "openai" (blocksResponse "one") .responses =
        (.ok final, [.token "a", .token "b"]) ∧ final.content = delivered none [.token "a", .token "b"] := by
  have sunk : (transportStreaming blocksCodec "openai" (blocksResponse "one") .responses).2 =
      [.token "a", .token "b"] := by decide +kernel
  have blocks : terminalBlocks blocksCodec "openai" (blocksResponse "one") .responses = some ["ab"] := by
    decide +kernel
  obtain ⟨final, succeeded⟩ := Except.exists_ok_of_isSome
    (show (transportStreaming blocksCodec "openai" (blocksResponse "one") .responses).1.toOption.isSome = true by
      decide +kernel)
  rw [sunk] at succeeded
  refine ⟨final, succeeded, (streamed_text_iff blocksCodec "openai" (blocksResponse "one") .responses final _
    succeeded ?_).2 ?_⟩
  · intro repeated present
    cases blocks.symm.trans present
    decide
  · intro repeated present
    cases blocks.symm.trans present
    decide

/-- Two blocks are repeated with a line break that was not delivered. -/
theorem two_blocks_joined : terminalBlocks blocksCodec "openai" (blocksResponse "two") .responses = some ["a", "b"] ∧
      (transportStreaming blocksCodec "openai" (blocksResponse "two") .responses).2 = [.token "a", .token "b"] ∧
      delivered none [.token "a", .token "b"] = some (String.join ["a", "b"]) ∧
      (transportStreaming blocksCodec "openai" (blocksResponse "two") .responses).1.toOption.map (·.content) =
        some (some "a\nb") := by
  decide +kernel

end Codel00p
