import Codel00p.Lib.Boundary

/-! Tool-result truncation: the preview of an output that is over its cap. -/

namespace Codel00p

/-- Go down to the largest character boundary at or below a place. -/
def floorFrom (text : List Char) : Nat → Nat
  | 0 => 0
  | index + 1 => if isCharBoundary text (index + 1) then index + 1 else floorFrom text index

/-- The largest character boundary at or below a place. -/
def floorBoundary (text : List Char) (index : Nat) : Nat :=
  if byteLength text ≤ index then byteLength text else floorFrom text index

/-- Go up to the smallest character boundary at or above a place, with so many bytes left. -/
def ceilFrom (text : List Char) : Nat → Nat → Nat
  | 0, index => index
  | left + 1, index => if isCharBoundary text index then index else ceilFrom text left (index + 1)

/-- The smallest character boundary at or above a place. -/
def ceilBoundary (text : List Char) (index : Nat) : Nat := ceilFrom text (byteLength text - index) index

/-- What is shown of an output that is over its cap. -/
structure Preview where
  head : List Char
  tail : List Char
  omitted : Nat
  deriving DecidableEq, Repr

/--
Split a text that exceeds its cap into a head and a tail.

A cut inside a character stops the program, which is the outer case of no answer; the inner one
is a text that fits. The product of the cap is a machine word.
-/
def Preview.of (text : List Char) (maxBytes : Nat) : Option (Option Preview) := do
  if byteLength text ≤ maxBytes then return none
  else
    let headBudget := maxBytes * 6 % 2 ^ 64 / 10
    let tailBudget := maxBytes - headBudget
    let headEnd := floorBoundary text headBudget
    let tailStart := ceilBoundary text (byteLength text - tailBudget)
    if tailStart ≤ headEnd then
      -- A tiny cap or an overlap keeps only the head.
      let head ← sliceTo headEnd text
      return some { head, tail := [], omitted := byteLength text - headEnd }
    else
      let head ← sliceTo headEnd text
      let tail ← sliceFrom tailStart text
      return some { head, tail, omitted := tailStart - headEnd }

/-- The cap on a tool result that is recorded for the model. -/
structure ToolOutputTruncation where
  maxBytes : Nat

/--
The text to record for the model.

The full output of a tool is kept in a file, whose place is given if it could be written.
-/
def ToolOutputTruncation.apply (truncation : ToolOutputTruncation) (persisted : Option String)
    (label : String) (text : List Char) : Option String := do
  match ← Preview.of text truncation.maxBytes with
  | none => return String.ofList text
  | some preview =>
    let location := (persisted.map fun path => "; full output at " ++ path).getD ""
    return String.ofList preview.head ++ "\n…[codel00p truncated " ++ toString preview.omitted
      ++ " bytes of `" ++ label ++ "` output" ++ location ++ "]…\n" ++ String.ofList preview.tail

variable (text : List Char)

/-! ### Boundaries near a place -/

theorem floorFrom_spec (index : Nat) :
    floorFrom text index ≤ index ∧ isCharBoundary text (floorFrom text index) = true := by
  -- Each step goes down by one byte, and the start of the text is a boundary.
  induction index with
  | zero => exact ⟨Nat.le_refl 0, isCharBoundary_iff.2 ⟨[], text, rfl, rfl⟩⟩
  | succ index ih =>
    rw [floorFrom]
    split
    · next between => exact ⟨Nat.le_refl _, between⟩
    · exact ⟨Nat.le_succ_of_le ih.1, ih.2⟩

theorem isCharBoundary_byteLength : isCharBoundary text (byteLength text) = true :=
  isCharBoundary_iff.2 ⟨text, [], by simp, rfl⟩

theorem floorBoundary_spec (index : Nat) :
    floorBoundary text index ≤ index ∧ isCharBoundary text (floorBoundary text index) = true := by
  rw [floorBoundary]
  split
  · next past => exact ⟨past, isCharBoundary_byteLength text⟩
  · exact floorFrom_spec text index

theorem ceilFrom_spec (left index : Nat) (sized : index + left = byteLength text) :
    index ≤ ceilFrom text left index ∧ isCharBoundary text (ceilFrom text left index) = true := by
  -- Each step uses up one of the bytes that are left, and the end of the text is a boundary.
  induction left generalizing index with
  | zero =>
    obtain rfl : index = byteLength text := by omega
    exact ⟨Nat.le_refl _, isCharBoundary_byteLength text⟩
  | succ left ih =>
    rw [ceilFrom]
    split
    · next between => exact ⟨Nat.le_refl _, between⟩
    · obtain ⟨above, between⟩ := ih (index + 1) (by omega)
      exact ⟨by omega, between⟩

theorem ceilBoundary_spec {index : Nat} (inside : index ≤ byteLength text) :
    index ≤ ceilBoundary text index ∧ isCharBoundary text (ceilBoundary text index) = true :=
  ceilFrom_spec text (byteLength text - index) index (by omega)

/-! ### The parts of a preview -/

/--
A preview of a text over its cap is a part at its front and a part at its end.

What is between them is left out and not empty, its size is reported, and the parts that are
shown are within the cap.
-/
theorem preview_partition (maxBytes : Nat) (exceeds : maxBytes < byteLength text) :
    ∃ preview middle, Preview.of text maxBytes = some (some preview) ∧
      text = preview.head ++ (middle ++ preview.tail) ∧ preview.omitted = byteLength middle ∧
      1 ≤ preview.omitted ∧ byteLength preview.head + byteLength preview.tail ≤ maxBytes := by
  -- The budgets add up to the cap, whatever the product of the cap wraps to.
  have headroom : maxBytes * 6 % 2 ^ 64 / 10 ≤ maxBytes := by
    have wraps := Nat.mod_le (maxBytes * 6) (2 ^ 64)
    omega
  generalize budget : maxBytes * 6 % 2 ^ 64 / 10 = headBudget at headroom
  obtain ⟨low, atHead⟩ := floorBoundary_spec text headBudget
  obtain ⟨high, atTail⟩ := ceilBoundary_spec text
    (show byteLength text - (maxBytes - headBudget) ≤ byteLength text by omega)
  generalize headEnd_eq : floorBoundary text headBudget = headEnd at low atHead
  generalize tailStart_eq : ceilBoundary text (byteLength text - (maxBytes - headBudget)) = tailStart at high atTail
  -- The head ends within its budget and the tail begins within its own, so they cannot meet.
  have apart : headEnd < tailStart := by omega
  obtain ⟨head, middle, tail, rfl, headSize, middleSize⟩ := exists_parts atHead atTail (Nat.le_of_lt apart)
  refine ⟨{ head, tail, omitted := tailStart - headEnd }, middle, ?_, rfl, ?_, ?_, ?_⟩
  · have shown : sliceFrom tailStart (head ++ (middle ++ tail)) = some tail := by
      rw [← List.append_assoc, ← middleSize, ← byteLength_append, sliceFrom_append]
    subst headSize
    simp only [Preview.of, budget, headEnd_eq, tailStart_eq, Nat.not_le.2 exceeds, Nat.not_le.2 apart, if_false,
      sliceTo_append, shown]
    rfl
  · show tailStart - headEnd = byteLength middle
    omega
  · show 1 ≤ tailStart - headEnd
    omega
  · simp only [byteLength_append] at high exceeds
    show byteLength head + byteLength tail ≤ maxBytes
    omega

/-- Eleven bytes under a cap of five: the character across byte three is left out with the middle. -/
theorem preview_partition_accents : 5 < byteLength "abéfghéij".toList ∧
    ∃ preview middle, Preview.of "abéfghéij".toList 5 = some (some preview) ∧
      "abéfghéij".toList = preview.head ++ (middle ++ preview.tail) ∧ preview.omitted = byteLength middle ∧
      1 ≤ preview.omitted ∧ byteLength preview.head + byteLength preview.tail ≤ 5 :=
  ⟨by decide, preview_partition "abéfghéij".toList 5 (by decide)⟩

example : Preview.of "abéfghéij".toList 5 =
    some (some { head := "ab".toList, tail := "ij".toList, omitted := 7 }) := by decide

end Codel00p
