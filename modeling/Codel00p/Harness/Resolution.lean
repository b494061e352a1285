import Codel00p.Harness.Template
import Codel00p.Lib.Scan

/-! Resolving references: what is replaced in a text, once and from left to right. -/

namespace Codel00p

def HasTemplate (text : List Char) : Prop :=
  ∃ before expr after, text = before ++ openBraces ++ (expr ++ closeBraces ++ after)

/-- Without the white space around it, a text is one template that has neither marker inside. -/
def IsTemplate (text : String) (expr : List Char) : Prop :=
  (trim text).toList = openBraces ++ (expr ++ closeBraces) ∧ ¬openBraces <:+: expr ∧ ¬closeBraces <:+: expr

/-- A template of a text, and the text before it. -/
structure Slot where
  literal : List Char
  expr : List Char

inductive Cut : List Char → List Slot → List Char → Prop
  | done {text : List Char} (bare : ¬HasTemplate text) : Cut text [] text
  | slot {literal expr text rest : List Char} {slots : List Slot}
      (opens : ∀ earlier, FitsAfter openBraces.length (· = openBraces)
        (literal ++ openBraces ++ (expr ++ closeBraces ++ text)) earlier → literal.length ≤ earlier.length)
      (closes : ∀ earlier, FitsAfter closeBraces.length (· = closeBraces) (expr ++ closeBraces ++ text) earlier →
        expr.length ≤ earlier.length)
      (more : Cut text slots rest) :
      Cut (literal ++ openBraces ++ (expr ++ closeBraces ++ text)) (⟨literal, expr⟩ :: slots) rest

/-- The text of some slots with something in the place of each template. -/
def filled (fill : List Char → List Char) (slots : List Slot) (rest : List Char) : List Char :=
  slots.flatMap (fun slot => slot.literal ++ fill slot.expr) ++ rest

/-! ### Cutting a text -/

theorem splitOnceChars_of_first {needle before after : List Char}
    (first : ∀ earlier, FitsAfter needle.length (· = needle) (before ++ needle ++ after) earlier →
      before.length ≤ earlier.length) : splitOnceChars needle (before ++ needle ++ after) = some (before, after) := by
  cases cut : splitOnceChars needle (before ++ needle ++ after) with
  | none => exact absurd (fitsAfter_eq_iff.2 ⟨after, rfl⟩) (splitOnceChars_eq_none cut before)
  | some parts =>
    obtain ⟨front, back⟩ := parts
    obtain ⟨spelled, earliest⟩ := splitOnceChars_eq_some cut
    -- Both are the first occurrence, so they are at the same place.
    have same : before.length = front.length :=
      Nat.le_antisymm (first front (fitsAfter_eq_iff.2 ⟨back, spelled⟩))
        (earliest before (fitsAfter_eq_iff.2 ⟨after, rfl⟩))
    rw [List.append_assoc, List.append_assoc] at spelled
    obtain ⟨rfl, behind⟩ := List.append_inj spelled same
    rw [List.append_cancel_left behind]

theorem closes_behind_first {literal behind : List Char}
    (first : ∀ earlier, FitsAfter openBraces.length (· = openBraces) (literal ++ openBraces ++ behind) earlier →
      literal.length ≤ earlier.length) (has : HasTemplate (literal ++ openBraces ++ behind)) :
    ∃ passed, FitsAfter closeBraces.length (· = closeBraces) behind passed := by
  obtain ⟨before, expr, after, spelled⟩ := has
  have later := first before (fitsAfter_eq_iff.2 ⟨_, spelled⟩)
  -- What is behind the first opening marker is the end of the text.
  have dropped : behind = (literal ++ openBraces ++ behind).drop (literal ++ openBraces).length := List.drop_left.symm
  rw [spelled, ← List.append_assoc, ← List.append_assoc, List.append_assoc _ closeBraces,
    List.drop_append_of_le_length (by simp only [List.length_append]; omega)] at dropped
  exact ⟨_, fitsAfter_eq_iff.2 ⟨after, dropped.trans (List.append_assoc _ _ _).symm⟩⟩

theorem exists_cut (text : List Char) : ∃ slots rest, Cut text slots rest := by
  -- Each cut takes up both markers, so the induction is on the length.
  induction sized : text.length using Nat.strongRecOn generalizing text with
  | ind length ih =>
    cases opened : splitOnceChars openBraces text with
    | none =>
      refine ⟨[], text, .done ?_⟩
      rintro ⟨before, expr, after, spelled⟩
      exact splitOnceChars_eq_none opened before (fitsAfter_eq_iff.2 ⟨_, spelled⟩)
    | some parts =>
      obtain ⟨literal, behind⟩ := parts
      obtain ⟨rfl, opens⟩ := splitOnceChars_eq_some opened
      cases closed : splitOnceChars closeBraces behind with
      | none =>
        refine ⟨[], _, .done ?_⟩
        intro has
        obtain ⟨passed, closes⟩ := closes_behind_first opens has
        exact splitOnceChars_eq_none closed passed closes
      | some parts =>
        obtain ⟨expr, after⟩ := parts
        obtain ⟨rfl, closes⟩ := splitOnceChars_eq_some closed
        obtain ⟨slots, rest, more⟩ := ih after.length (by simp [← sized, openBraces]; omega) after rfl
        exact ⟨_, rest, .slot opens closes more⟩

section

variable (codec : JsonCodec) (context : List (String × Json))

/-- Each template of a text is replaced once, by what its expression stands for. -/
theorem substitute_eq {text rest : List Char} {slots : List Slot} (cut : Cut text slots rest) {turns : Nat}
    (enough : text.length ≤ turns) : substitute codec context turns text =
      filled (fun expr => (referenceText codec context (String.ofList expr)).toList) slots rest := by
  -- The induction follows the cut; each slot takes one turn.
  induction cut generalizing turns with
  | @done text bare =>
    cases turns with
    | zero => rfl
    | succ turns =>
      rw [substitute]
      split
      · rfl
      · next literal behind opened =>
        obtain ⟨spelled, opens⟩ := splitOnceChars_eq_some opened
        split
        · rfl
        · next expr after closed =>
          exact absurd ⟨literal, expr, after, by rw [spelled, (splitOnceChars_eq_some closed).1]⟩ bare
  | @slot literal expr text rest slots opens closes more ih =>
    cases turns with
    | zero => simp [openBraces] at enough
    | succ turns =>
      have fewer : text.length ≤ turns := by
        simp only [List.length_append, openBraces, closeBraces, List.length_cons, List.length_nil] at enough
        omega
      rw [substitute, splitOnceChars_of_first opens]
      dsimp only
      rw [splitOnceChars_of_first closes]
      dsimp only
      rw [ih fewer]
      simp [filled]

end

/-! ### Texts that are one template -/

theorem HasTemplate.of_infix {text part : List Char} (has : HasTemplate part) (within : part <:+: text) :
    HasTemplate text := by
  obtain ⟨before, expr, after, rfl⟩ := has
  obtain ⟨front, back, rfl⟩ := within
  exact ⟨front ++ before, expr, after ++ back, by simp⟩

variable {text : String}

theorem IsTemplate.hasTemplate {expr : List Char} (is : IsTemplate text expr) : HasTemplate text.toList :=
  HasTemplate.of_infix ⟨[], expr, [], by simp [is.1]⟩ (trim_within text)

theorem wholeTemplate_markers {inner : List Char}
    (spelled : text.toList = openBraces ++ (inner ++ closeBraces)) : wholeTemplate text =
      if openBraces <:+: inner ∨ closeBraces <:+: inner then none else some (String.ofList inner) := by
  have begins : openBraces.isPrefixOf text.toList = true :=
    List.isPrefixOf_iff_prefix.2 ⟨inner ++ closeBraces, spelled.symm⟩
  have behind : text.toList.drop 2 = inner ++ closeBraces := by rw [spelled]; rfl
  have ends : closeBraces.isSuffixOf (text.toList.drop 2) = true := List.isSuffixOf_iff_suffix.2 ⟨inner, behind.symm⟩
  have cut : (text.toList.drop 2).take (text.toList.length - 4) = inner := by
    have length : text.toList.length - 4 = inner.length := by
      rw [spelled]
      simp only [List.length_append, openBraces, closeBraces, List.length_cons, List.length_nil]
      omega
    rw [behind, length, List.take_left]
  simp only [wholeTemplate, begins, ends, cut, Bool.and_self, if_true, Bool.or_eq_true, splitOnceChars_isSome_iff]

theorem wholeTemplate_other
    (other : ∀ inner, text.toList ≠ openBraces ++ (inner ++ closeBraces)) : wholeTemplate text = none := by
  rw [wholeTemplate]
  split
  · next marked =>
    obtain ⟨begins, ends⟩ := Bool.and_eq_true_iff.1 marked
    obtain ⟨back, spelled⟩ := List.isPrefixOf_iff_prefix.1 begins
    obtain ⟨inner, closed⟩ := List.isSuffixOf_iff_suffix.1 ends
    rw [← spelled] at closed
    exact absurd (by rw [← spelled, closed]; rfl) (other inner)
  · rfl

variable (codec : JsonCodec) (context : List (String × Json))

theorem resolveString_template {expr : List Char} (is : IsTemplate text expr) :
    resolveString codec context text = (lookupPath (trim (String.ofList expr)) context).getD .null := by
  obtain ⟨spelled, noOpen, noClose⟩ := is
  rw [resolveString, wholeTemplate_markers spelled, if_neg (by simp [noOpen, noClose])]

theorem resolveString_cut (other : ∀ expr, ¬IsTemplate text expr) {slots : List Slot}
    {rest : List Char} (cut : Cut text.toList slots rest) : resolveString codec context text = .string (String.ofList
        (filled (fun expr => (referenceText codec context (String.ofList expr)).toList) slots rest)) := by
  have whole : wholeTemplate (trim text) = none := by
    by_cases marked : ∃ inner, (trim text).toList = openBraces ++ (inner ++ closeBraces)
    · obtain ⟨inner, spelled⟩ := marked
      rw [wholeTemplate_markers spelled]
      split
      · rfl
      · next clear => exact absurd ⟨spelled, not_or.1 clear⟩ (other inner)
    · exact wholeTemplate_other fun inner spelled => marked ⟨inner, spelled⟩
  rw [resolveString, whole]
  dsimp only
  rw [substitute_eq codec context cut (Nat.le_of_eq String.length_toList)]

/-! ### Whole values -/

theorem resolveItems_eq (items : List Json) :
    resolveItems codec context items = items.map (resolveReferences codec context) := by
  induction items with
  | nil => rw [resolveItems, List.map_nil]
  | cons item items ih => rw [resolveItems, List.map_cons, ih]

theorem resolveFields_eq (fields : List (String × Json)) : resolveFields codec context fields =
    fields.map fun field => (field.1, resolveReferences codec context field.2) := by
  induction fields with
  | nil => rw [resolveFields, List.map_nil]
  | cons field fields ih => rw [resolveFields, List.map_cons, ih]

/--
References are resolved in a single pass.

A text without a template stays as it is. A text that is one template, but for the white space around
it, stands for the value that it refers to, or null. In any other text the templates are told by the
text alone, from left to right, and each of them is replaced once by the text of its value, which is
not looked at again. Arrays and objects keep their shape.
-/
theorem resolution_single_pass : (∀ text, ¬HasTemplate text.toList → ∀ codec context,
        resolveReferences codec context (.string text) = .string text) ∧
      (∀ text expr, IsTemplate text expr → ∀ codec context, resolveReferences codec context (.string text) =
        (lookupPath (trim (String.ofList expr)) context).getD .null) ∧
      (∀ text, (∀ expr, ¬IsTemplate text expr) → ∃ slots rest, Cut text.toList slots rest ∧
        ∀ codec context, resolveReferences codec context (.string text) = .string (String.ofList
          (filled (fun expr => (referenceText codec context (String.ofList expr)).toList) slots rest))) ∧
      (∀ codec context items, resolveReferences codec context (.array items) =
        .array (items.map (resolveReferences codec context))) ∧
      (∀ codec context fields, resolveReferences codec context (.object fields) =
        .object (fields.map fun field => (field.1, resolveReferences codec context field.2))) ∧
      ∀ codec context value, value.asStr = none → value.asArray = none → value.asObject = none →
        resolveReferences codec context value = value := by
  refine ⟨?_, ?_, ?_, ?_, ?_, ?_⟩
  · intro text bare codec context
    rw [resolveReferences, resolveString_cut codec context (fun expr is => bare is.hasTemplate) (.done bare)]
    simp [filled]
  · intro text expr is codec context
    rw [resolveReferences, resolveString_template codec context is]
  · intro text other
    obtain ⟨slots, rest, cut⟩ := exists_cut text.toList
    refine ⟨slots, rest, cut, fun codec context => ?_⟩
    rw [resolveReferences, resolveString_cut codec context other cut]
  · intro codec context items
    rw [resolveReferences, resolveItems_eq]
  · intro codec context fields
    rw [resolveReferences, resolveFields_eq]
  · intro codec context value noText noArray noObject
    cases value with
    | string text => cases noText
    | array items => cases noArray
    | object fields => cases noObject
    | _ => rw [resolveReferences] <;> simp

def boolCodec : JsonCodec where
  parse _ := none
  render value := if value.asBool = some true then "true" else "false"

/-- Blanks around a template are lost with it, and a third closing brace hides the reference. -/
theorem template_in_blanks :
    (resolveReferences boolCodec [("a", .bool true)] (.string " \x7b\x7ba\x7d\x7d ")).asBool = some true ∧
      (resolveReferences boolCodec [("a", .bool true)] (.string "\x7b\x7ba\x7d\x7d\x7d")).isNull = true := by
  decide +kernel

/-- A text with blanks and a template in front of a word has the template replaced. -/
theorem resolution_single_pass_word : (∀ expr, ¬IsTemplate " \x7b\x7ba\x7d\x7d b" expr) ∧
      ∃ slots rest, Cut " \x7b\x7ba\x7d\x7d b".toList slots rest ∧
        ∀ codec context, resolveReferences codec context (.string " \x7b\x7ba\x7d\x7d b") = .string (String.ofList
          (filled (fun expr => (referenceText codec context (String.ofList expr)).toList) slots rest)) := by
  have other : ∀ expr, ¬IsTemplate " \x7b\x7ba\x7d\x7d b" expr := by
    intro expr is
    have last := congrArg List.getLast? is.1
    simp [closeBraces] at last
    revert last
    decide +kernel
  exact ⟨other, resolution_single_pass.2.2.1 _ other⟩

end Codel00p
