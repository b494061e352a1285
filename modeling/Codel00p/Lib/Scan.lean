import Mathlib.Data.List.Infix
import Codel00p.Lib.Text

/-! Greedy scans: the windows of one length that fit, from left to right and without overlaps. -/

namespace Codel00p

variable {α : Type}

/-- A window that was found, with what was passed over before it. -/
structure Hit (α : Type) where
  passed : List α
  window : List α

def FitsAfter (size : Nat) (fits : List α → Prop) (text passed : List α) : Prop :=
  ∃ window rest, text = passed ++ window ++ rest ∧ window.length = size ∧ fits window

inductive Scan (size : Nat) (fits : List α → Prop) : List α → List (Hit α) → List α → Prop
  | done {text : List α} (unfit : ∀ passed, ¬FitsAfter size fits text passed) : Scan size fits text [] text
  | found {passed window text rest : List α} {hits : List (Hit α)} (sized : window.length = size)
      (fitting : fits window)
      (first : ∀ earlier, FitsAfter size fits (passed ++ window ++ text) earlier → passed.length ≤ earlier.length)
      (more : Scan size fits text hits rest) :
      Scan size fits (passed ++ window ++ text) (⟨passed, window⟩ :: hits) rest

namespace Scan

variable {size : Nat} {fits : List α → Prop} {text rest : List α} {hits : List (Hit α)}

section

variable (scan : Scan size fits text hits rest)

include scan

theorem text_eq : text = hits.flatMap (fun hit => hit.passed ++ hit.window) ++ rest := by
  induction scan with
  | done => rfl
  | found _ _ _ _ ih => simp [← ih]

theorem window_fits : ∀ hit ∈ hits, hit.window.length = size ∧ fits hit.window := by
  induction scan with
  | done => simp
  | found sized fitting _ _ ih => exact List.forall_mem_cons.2 ⟨⟨sized, fitting⟩, ih⟩

theorem hits_eq_nil_iff : hits = [] ↔ ∀ passed, ¬FitsAfter size fits text passed := by
  cases scan with
  | done unfit => exact iff_of_true rfl unfit
  | @found passed window text _ _ sized fitting first more =>
    exact iff_of_false (by simp) fun unfit => unfit passed ⟨window, text, rfl, sized, fitting⟩

end

/-- Pass over one element before a scan. -/
def skipped (x : α) : List (Hit α) × List α → List (Hit α) × List α
  | ([], rest) => ([], x :: rest)
  | (⟨passed, window⟩ :: hits, rest) => (⟨x :: passed, window⟩ :: hits, rest)

theorem skip {x : α} (unfit : ¬FitsAfter size fits (x :: text) []) (scan : Scan size fits text hits rest) :
    Scan size fits (x :: text) (skipped x (hits, rest)).1 (skipped x (hits, rest)).2 := by
  -- A window that fits somewhere behind the element fits in the rest of the text.
  have behind : ∀ passed, FitsAfter size fits (x :: text) passed →
      ∃ fewer, passed = x :: fewer ∧ FitsAfter size fits text fewer := by
    rintro passed ⟨window, after, spelled, fitting⟩
    cases passed with
    | nil => exact absurd ⟨window, after, spelled, fitting⟩ unfit
    | cons first fewer =>
      obtain ⟨rfl, same⟩ := List.cons.inj spelled
      exact ⟨fewer, rfl, window, after, same, fitting⟩
  cases scan with
  | done nowhere =>
    refine .done fun passed fitting => ?_
    obtain ⟨fewer, _, inside⟩ := behind passed fitting
    exact nowhere fewer inside
  | @found passed _ _ _ _ sized fitting first more =>
    refine @Scan.found _ size fits (x :: passed) _ _ _ _ sized fitting (fun earlier there => ?_) more
    obtain ⟨fewer, rfl, inside⟩ := behind earlier there
    exact Nat.succ_le_succ (first fewer inside)

end Scan

/-! ### The occurrences of a text -/

theorem fitsAfter_eq_iff {needle text passed : List α} :
    FitsAfter needle.length (· = needle) text passed ↔ ∃ rest, text = passed ++ needle ++ rest :=
  ⟨fun ⟨_, rest, spelled, _, same⟩ => ⟨rest, same ▸ spelled⟩, fun ⟨rest, spelled⟩ => ⟨needle, rest, spelled, rfl, rfl⟩⟩

theorem splitOnceChars_eq_some {needle text before after : List Char}
    (cut : splitOnceChars needle text = some (before, after)) : text = before ++ needle ++ after ∧
      ∀ earlier, FitsAfter needle.length (· = needle) text earlier → before.length ≤ earlier.length := by
  induction text generalizing before with
  | nil =>
    simp only [splitOnceChars] at cut
    split at cut
    · next empty =>
      obtain ⟨rfl, rfl⟩ := Prod.mk.inj (Option.some.inj cut)
      simp [List.isEmpty_iff.1 empty]
    · exact nomatch cut
  | cons c text ih =>
    simp only [splitOnceChars] at cut
    split at cut
    · next front =>
      obtain ⟨rfl, rfl⟩ := Prod.mk.inj (Option.some.inj cut)
      refine ⟨?_, fun _ _ => Nat.zero_le _⟩
      exact (List.prefix_iff_eq_append.1 (List.isPrefixOf_iff_prefix.1 front)).symm
    · next notFront =>
      obtain ⟨⟨fewer, rest⟩, found, same⟩ := Option.map_eq_some_iff.1 cut
      obtain ⟨rfl, rfl⟩ := Prod.mk.inj same
      obtain ⟨spelled, first⟩ := ih found
      refine ⟨by rw [spelled]; rfl, fun earlier there => ?_⟩
      obtain ⟨more, split⟩ := fitsAfter_eq_iff.1 there
      cases earlier with
      | nil => exact absurd (List.isPrefixOf_iff_prefix.2 ⟨more, split.symm⟩) notFront
      | cons d earlier =>
        obtain ⟨rfl, inside⟩ := List.cons.inj split
        exact Nat.succ_le_succ (first earlier (fitsAfter_eq_iff.2 ⟨more, inside⟩))

theorem splitOnceChars_eq_none {needle text : List Char} (uncut : splitOnceChars needle text = none)
    (passed : List Char) : ¬FitsAfter needle.length (· = needle) text passed := by
  rw [fitsAfter_eq_iff]
  induction text generalizing passed with
  | nil =>
    rintro ⟨rest, spelled⟩
    simp only [List.nil_eq, List.append_eq_nil_iff] at spelled
    simp [splitOnceChars, spelled] at uncut
  | cons c text ih =>
    simp only [splitOnceChars] at uncut
    split at uncut
    · exact nomatch uncut
    · next notFront =>
      rintro ⟨rest, spelled⟩
      cases passed with
      | nil => exact notFront (List.isPrefixOf_iff_prefix.2 ⟨rest, spelled.symm⟩)
      | cons d passed =>
        obtain ⟨rfl, inside⟩ := List.cons.inj spelled
        exact ih (Option.map_eq_none_iff.1 uncut) passed ⟨rest, inside⟩

/-- A text occurs twice in another one with the two occurrences overlapping: the second one begins inside the first. -/
def Overlaps (needle text : List α) : Prop :=
  ∃ shift, 0 < shift ∧ shift < needle.length ∧ needle <+: needle.take shift ++ needle ∧
    needle.take shift ++ needle <:+: text

/-- Where a scan finds one occurrence, there is no other one unless some overlap. -/
theorem Scan.only_iff {needle text rest : List α} {hit : Hit α}
    (scan : Scan needle.length (· = needle) text [hit] rest) :
    (∀ before after, text = before ++ needle ++ after → before = hit.passed) ↔ ¬Overlaps needle text := by
  cases scan with
  | @found passed window behind _ _ sized fitting first more =>
    subst fitting
    constructor
    · -- The two occurrences of an overlap are behind different parts.
      rintro only ⟨shift, positive, inside, ⟨tail, again⟩, front, back, spelled⟩
      have one := only front (tail ++ back) (by rw [← spelled, ← again]; simp)
      have two := only (front ++ window.take shift) back (by rw [← spelled]; simp)
      have longer := congrArg List.length (one.trans two.symm)
      rw [List.length_append, List.length_take] at longer
      omega
    · intro apart before after spelled
      have later := first before (fitsAfter_eq_iff.2 ⟨after, spelled⟩)
      -- The other occurrence begins behind the first one, after a gap.
      have front : passed <+: passed ++ window ++ behind := ⟨window ++ behind, by simp⟩
      have other : before <+: passed ++ window ++ behind := ⟨window ++ after, by simp [spelled]⟩
      obtain ⟨gap, rfl⟩ := List.prefix_of_prefix_length_le front other later
      have tails : window ++ behind = gap ++ window ++ after := by simpa using spelled
      have ownStart : window <+: gap ++ window ++ after := tails ▸ List.prefix_append _ _
      have gapStart : gap <+: gap ++ window ++ after := ⟨window ++ after, by simp⟩
      rcases Nat.lt_or_ge gap.length window.length with short | long
      · by_cases empty : gap = []
        · simp [empty]
        · -- A short gap is the front of the text that occurs, so the two overlap.
          have taken : window.take gap.length = gap :=
            (List.prefix_iff_eq_take.1 (List.prefix_of_prefix_length_le gapStart ownStart short.le)).symm
          refine absurd ⟨gap.length, List.length_pos_iff.2 empty, short, ?_, ?_⟩ apart
          · rw [taken]
            exact List.prefix_of_prefix_length_le ownStart (List.prefix_append _ after) (by simp)
          · exact ⟨passed, after, by rw [taken, spelled]; simp⟩
      · -- A long gap puts the other occurrence behind the one that was found.
        obtain ⟨fewer, rfl⟩ := List.prefix_of_prefix_length_le ownStart gapStart long
        refine absurd (fitsAfter_eq_iff.2 ⟨after, ?_⟩) (more.hits_eq_nil_iff.1 rfl fewer)
        simpa using tails

theorem splitOnceChars_isSome_iff {needle text : List Char} :
    (splitOnceChars needle text).isSome = true ↔ needle <:+: text := by
  cases cut : splitOnceChars needle text with
  | none =>
    refine iff_of_false (by simp) ?_
    rintro ⟨before, after, spelled⟩
    exact splitOnceChars_eq_none cut before (fitsAfter_eq_iff.2 ⟨after, spelled.symm⟩)
  | some parts =>
    exact iff_of_true rfl ⟨parts.1, parts.2, (splitOnceChars_eq_some cut).1.symm⟩

end Codel00p
