import Codel00p.Harness.CodeExec
import Codel00p.Harness.Search
import Codel00p.Lib.Boundary

/-! Long outputs of which only the first characters are kept. -/

namespace Codel00p

def defaultDiffBytes : Nat := 16384

def maxDiffBytes : Nat := 131072

structure CappedString where
  content : String
  truncated : Bool

def capString (value : String) (maxBytes : Nat) : CappedString :=
  if value.utf8ByteSize ≤ maxBytes then { content := value, truncated := false }
  else { content := String.ofList (value.toList.take maxBytes), truncated := true }

def diffCap (input : Json) : Nat := min ((optionalUsize input "max_output_bytes").getD defaultDiffBytes) maxDiffBytes

/-- Show what `git` says of the changed files. -/
def gitDiff (git : List String → Except HarnessError String) (input : Json) : Except HarnessError Json := do
  let verbosity ← parseVerbosity "git_diff" input
  let diff ← git (["diff", "--no-ext-diff"] ++ if verbosity = .concise then ["--stat"] else [])
  let capped := capString diff (diffCap input)
  return .obj [("diff", .string capped.content), ("truncated", .bool capped.truncated)]

structure DelegationOutcome where
  summary : String
  childSessionId : String
  toolCalls : Nat
  diff : Option String := none

/-- What the parent is told of a finished task. -/
def DelegationOutcome.payload (outcome : DelegationOutcome) : Json :=
  .obj ([("summary", .string outcome.summary), ("child_session_id", .string outcome.childSessionId),
    ("tool_calls", .ofNat outcome.toolCalls)] ++ (outcome.diff.map fun diff => ("diff", .string diff)).toList)

/-- The diff an output shows, and whether the output says that there is more of it. -/
def shownDiff (output : Json) : CappedString where
  content := (output.getStr "diff").getD ""
  truncated := (output.get "truncated").bind Json.asBool = some true

/-- A prefix of a text within the cap, marked exactly if it is not the whole text. -/
structure KeepsCap (text : String) (cap : Nat) (kept : CappedString) : Prop where
  front : kept.content.toList <+: text.toList
  sized : kept.content.utf8ByteSize ≤ cap
  marked : kept.truncated = true ↔ kept.content ≠ text

theorem byteLength_le_length_iff {text : List Char} :
    byteLength text ≤ text.length ↔ ∀ c ∈ text, c.utf8Size = 1 := by
  have least : ∀ text : List Char, text.length ≤ byteLength text := by
    intro text
    induction text with
    | nil => exact Nat.le_refl 0
    | cons c text ih =>
      have := c.utf8Size_pos
      rw [byteLength_cons, List.length_cons]
      omega
  induction text with
  | nil => simp
  | cons c text ih =>
    have := c.utf8Size_pos
    have := least text
    rw [byteLength_cons, List.length_cons, List.forall_mem_cons]
    constructor
    · intro sized
      exact ⟨by omega, ih.1 (by omega)⟩
    · rintro ⟨single, others⟩
      have := ih.2 others
      omega

/-- Characters are counted where bytes are meant, so only characters of one byte are cut right. -/
theorem capString_capped_iff (text : String) (cap : Nat) :
    KeepsCap text cap (capString text cap) ↔ text.utf8ByteSize ≤ cap ∨ ∀ c ∈ text.toList.take cap, c.utf8Size = 1 := by
  by_cases short : text.utf8ByteSize ≤ cap
  · rw [capString, if_pos short]
    refine iff_of_true ?_ (.inl short)
    exact ⟨List.prefix_rfl, short, by simp⟩
  · rw [capString, if_neg short, or_iff_right short, ← byteLength_le_length_iff]
    have bytes : (String.ofList (text.toList.take cap)).utf8ByteSize = byteLength (text.toList.take cap) := by
      rw [utf8ByteSize_eq_byteLength, String.toList_ofList]
    constructor
    · rintro ⟨-, sized, marked⟩
      -- Something is dropped, so there are as many characters as the cap allows bytes.
      have dropped : cap < text.toList.length := by
        by_contra whole
        exact marked.1 rfl (by rw [List.take_of_length_le (by omega), String.ofList_toList])
      rw [List.length_take, Nat.min_eq_left (by omega)]
      exact bytes ▸ sized
    · intro single
      have sized : (String.ofList (text.toList.take cap)).utf8ByteSize ≤ cap := by
        rw [bytes]
        exact single.trans (by simp)
      refine ⟨by simpa using List.take_prefix _ _, sized, iff_of_true rfl fun whole => ?_⟩
      exact short (whole ▸ sized)

/-- Two of the outputs keep too much of a text with longer characters, and the third does not say what it drops. -/
theorem outputs_capped_iff (text : String) : (∀ input shown, gitDiff (fun _ => .ok text) input = .ok shown →
      (KeepsCap text (diffCap input) (shownDiff shown) ↔
        text.utf8ByteSize ≤ diffCap input ∨ ∀ c ∈ text.toList.take (diffCap input), c.utf8Size = 1)) ∧
    (∀ summary childSessionId toolCalls, KeepsCap text defaultDiffBytes (shownDiff (DelegationOutcome.payload
        { summary, childSessionId, toolCalls, diff := some (capString text defaultDiffBytes).content })) ↔
      text.utf8ByteSize ≤ defaultDiffBytes) ∧
    ∀ (codec : JsonCodec) value, codec.render value = text →
      capResult codec value = (let kept := capString text maxResultBytes
        if kept.truncated then (.string (kept.content ++ "…[truncated]"), true) else (value, false)) ∧
      (KeepsCap text maxResultBytes (capString text maxResultBytes) ↔
        text.utf8ByteSize ≤ maxResultBytes ∨ ∀ c ∈ text.toList.take maxResultBytes, c.utf8Size = 1) := by
  refine ⟨?_, ?_, ?_⟩
  · intro input shown done
    have kept : shownDiff shown = capString text (diffCap input) := by
      unfold gitDiff at done
      cases parsed : parseVerbosity "git_diff" input with
      | error error => simp [parsed, Bind.bind, Except.bind] at done
      | ok verbosity =>
        simp only [parsed, Bind.bind, Except.bind, pure, Except.pure, Except.ok.injEq] at done
        subst done
        simp [shownDiff, Json.obj, Assoc.lookup_insert_other, Json.getStr, Json.asStr, Json.asBool]
    rw [kept]
    exact capString_capped_iff text (diffCap input)
  · intro summary childSessionId toolCalls
    have kept : ∀ diff, shownDiff (DelegationOutcome.payload
        { summary, childSessionId, toolCalls, diff := some diff }) = { content := diff, truncated := false } := by
      intro diff
      simp [shownDiff, DelegationOutcome.payload, Json.obj, Assoc.lookup_insert_other, Json.getStr, Json.asStr]
    rw [kept]
    constructor
    · rintro ⟨-, sized, marked⟩
      -- Nothing is marked, so the whole text is there and within the cap.
      have whole : (capString text defaultDiffBytes).content = text := by simpa using marked
      exact whole ▸ sized
    · intro short
      simp only [capString, if_pos short]
      exact ⟨List.prefix_rfl, short, by simp⟩
  · rintro codec value rfl
    refine ⟨?_, capString_capped_iff _ _⟩
    by_cases short : (codec.render value).utf8ByteSize ≤ maxResultBytes
    · simp [capResult, capString, short]
    · simp [capResult, capString, short]

theorem accent_not_capped : ∃ shown, gitDiff (fun _ => .ok "é") (.object [("max_output_bytes", .ofNat 1)]) = .ok shown ∧
    ¬KeepsCap "é" 1 (shownDiff shown) := by
  refine ⟨_, rfl, fun capped => ?_⟩
  exact absurd capped.sized (by decide +kernel)

end Codel00p
