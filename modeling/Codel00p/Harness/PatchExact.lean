import Codel00p.Harness.PatchPieces

/-! Exact matching: what it replaces, and when the one match that it takes is the only one. -/

namespace Codel00p.Patch

variable (printable : Char → Bool)

variable {find original : List Char}

theorem infix_iff_fitsAfter : find <:+: original ↔ ∃ passed, FitsAfter find.length (· = find) original passed := by
  simp only [fitsAfter_eq_iff]
  exact ⟨fun ⟨before, after, spelled⟩ => ⟨before, after, spelled.symm⟩,
    fun ⟨before, after, spelled⟩ => ⟨before, after, spelled.symm⟩⟩

theorem applyStrategies_exact {rest : List Char} (replace : List Char) {hits : List (Hit Char)}
    (scan : Scan find.length (· = find) original hits rest)
    (exact : locateExact original find replace = some (located 0 (exactPieces find replace hits)))
    (replaceAll : Bool) (others : List (String × (List Char → List Char → List Char → Option (List Located)))) :
    applyStrategies printable original find replace replaceAll (("exact", locateExact) :: others) =
      if hits.isEmpty then applyStrategies printable original find replace replaceAll others
      else if 1 < hits.length && !replaceAll then some (.error (ambiguous hits.length "exact"))
      else some (.ok {
        patched := patched (exactPieces find replace hits) rest
        replacements := hits.length
        strategy := "exact" }) := by
  have count : (located 0 (exactPieces find replace hits)).length = hits.length := by simp [exactPieces]
  have none : (located 0 (exactPieces find replace hits)).isEmpty = hits.isEmpty := by
    rw [Bool.eq_iff_iff, List.isEmpty_iff_length_eq_zero, List.isEmpty_iff_length_eq_zero, count]
  have spliced := splice_located (exactPieces find replace hits) rest
  rw [unpatched_exactPieces scan] at spliced
  rw [applyStrategies, exact]
  simp only [Option.bind_eq_bind, Option.bind_some, count, none, spliced, Option.pure_def]

theorem not_exact {replace : List Char} {replaceAll : Bool} {outcome : ChangeOutcome}
    (applied : applyStrategies printable original find replace replaceAll strategies.tail = some (.ok outcome)) :
    outcome.strategy ≠ "exact" := by
  obtain ⟨entry, member, named, _⟩ := applyStrategies_eq_ok printable applied
  have others : ∀ entry ∈ strategies.tail, entry.1 ≠ "exact" := by simp [strategies]
  exact named ▸ others entry member

/-- A change that replaces all matches and matches exactly replaces what a greedy scan from left to right finds and
keeps the rest, and no other strategy matters once the text occurs. -/
theorem replaceAll_exact (original find replace : List Char) (nonempty : find ≠ []) :
    (find <:+: original → ∃ hits rest, Scan find.length (· = find) original hits rest ∧
        original = hits.flatMap (fun hit => hit.passed ++ find) ++ rest ∧
        applyChange printable original find replace true = some (.ok {
          patched := hits.flatMap (fun hit => hit.passed ++ replace) ++ rest
          replacements := hits.length
          strategy := "exact" })) ∧
      (∀ outcome, applyChange printable original find replace true = some (.ok outcome) →
        outcome.strategy = "exact" → find <:+: original) ∧
      (find <:+: original → ∀ replaceAll others more,
        applyStrategies printable original find replace replaceAll (("exact", locateExact) :: others) =
          applyStrategies printable original find replace replaceAll (("exact", locateExact) :: more)) := by
  obtain ⟨hits, rest, scan, exact⟩ := locateExact_scan original find replace nonempty
  have result := applyStrategies_exact printable replace scan exact
  have found : hits.isEmpty = false ↔ find <:+: original := by
    rw [infix_iff_fitsAfter, List.isEmpty_eq_false_iff, Ne, scan.hits_eq_nil_iff]
    push Not
    rfl
  refine ⟨fun occurs => ⟨hits, rest, scan, ?_, ?_⟩, fun outcome applied named => ?_, fun occurs replaceAll others more => ?_⟩
  · have pieces := @unpatched_exactPieces original find replace rest hits scan
    simpa [unpatched, exactPieces, List.flatMap_map] using pieces.symm
  · rw [applyChange, strategies, result, found.2 occurs]
    simp [patched, exactPieces, List.flatMap_map]
  · rw [← found]
    by_contra none
    rw [applyChange, strategies, result, Bool.not_eq_false _ |>.mp none, if_pos rfl] at applied
    exact not_exact printable applied named
  · rw [result, result, found.2 occurs]
    rfl

/-- Of three of the same letter, the first two are replaced. -/
theorem replaceAll_overlapping : applyChange (fun _ => true) ['a', 'a', 'a'] ['a', 'a'] ['b'] true =
        some (.ok { patched := ['b', 'a'], replacements := 1, strategy := "exact" }) ∧
      (['a', 'a'] <:+: ['a', 'a', 'a'] → ∀ replaceAll others more,
        applyStrategies (fun _ => true) ['a', 'a', 'a'] ['a', 'a'] ['b'] replaceAll (("exact", locateExact) :: others) =
          applyStrategies (fun _ => true) ['a', 'a', 'a'] ['a', 'a'] ['b'] replaceAll (("exact", locateExact) :: more)) :=
  ⟨by decide +kernel, (replaceAll_exact (fun _ => true) ['a', 'a', 'a'] ['a', 'a'] ['b'] (by simp)).2.2⟩

/-! ### The only match -/

def OccursAt (find original : List Char) (place : Nat) : Prop :=
  ∃ before after, original = before ++ find ++ after ∧ byteLength before = place

/-- An exact change of one match is made at the only place where the text occurs, just when it does not overlap itself. -/
theorem exact_unique_iff {original find replace : List Char} (nonempty : find ≠ []) {outcome : ChangeOutcome}
    (applied : applyChange printable original find replace false = some (.ok outcome))
    (exact : outcome.strategy = "exact") : (∃! place, OccursAt find original place) ↔ ¬Overlaps find original := by
  obtain ⟨hits, rest, scan, located⟩ := locateExact_scan original find replace nonempty
  rw [applyChange, strategies, applyStrategies_exact printable replace scan located] at applied
  -- The scan found one match, so the change is not left to another strategy and is not ambiguous.
  obtain ⟨hit, rfl⟩ : ∃ hit, hits = [hit] := by
    split at applied
    · exact absurd exact (not_exact printable applied)
    · next some =>
      split at applied
      · exact nomatch applied
      · next few =>
        simp only [Bool.not_false, Bool.and_true, decide_eq_true_eq] at few
        have positive := List.length_pos_iff.2 (fun none => some (List.isEmpty_iff.2 none))
        exact List.length_eq_one_iff.1 (by omega)
  rw [← scan.only_iff]
  have there : original = hit.passed ++ find ++ rest := by
    rw [scan.text_eq, ← (scan.window_fits hit (by simp)).2]
    simp
  constructor
  · -- Parts of one text that have the same number of bytes are the same part.
    rintro ⟨place, _, only⟩ before after spelled
    have first := only (byteLength before) ⟨before, after, spelled, rfl⟩
    have second := only (byteLength hit.passed) ⟨hit.passed, rest, there, rfl⟩
    refine @eq_of_byteLength_eq before hit.passed (find ++ after) (find ++ rest) ?_ (first.trans second.symm)
    rw [← List.append_assoc, ← List.append_assoc, ← spelled, there]
  · intro only
    refine ⟨byteLength hit.passed, ⟨hit.passed, rest, there, rfl⟩, ?_⟩
    rintro place ⟨before, after, spelled, rfl⟩
    rw [only before after spelled]

/-- The only occurrence of a word is changed. -/
theorem word_unique : applyChange (fun _ => true) ['a', ' ', 'b'] ['b'] ['c'] false =
        some (.ok { patched := ['a', ' ', 'c'], replacements := 1, strategy := "exact" }) ∧
      ((∃! place, OccursAt ['b'] ['a', ' ', 'b'] place) ↔ ¬Overlaps ['b'] ['a', ' ', 'b']) :=
  ⟨by decide +kernel, exact_unique_iff (fun _ => true) (by simp)
    (show applyChange (fun _ => true) ['a', ' ', 'b'] ['b'] ['c'] false =
      some (.ok { patched := ['a', ' ', 'c'], replacements := 1, strategy := "exact" }) by decide +kernel) rfl⟩

/-- A change is made although its text occurs at two places. -/
theorem overlapping_match_taken : applyChange (fun _ => true) ['a', 'a', 'a'] ['a', 'a'] ['b'] false =
        some (.ok { patched := ['b', 'a'], replacements := 1, strategy := "exact" }) ∧
      OccursAt ['a', 'a'] ['a', 'a', 'a'] 0 ∧ OccursAt ['a', 'a'] ['a', 'a', 'a'] 1 :=
  ⟨by decide +kernel, ⟨[], ['a'], rfl, rfl⟩, ⟨['a'], [], rfl, rfl⟩⟩

end Codel00p.Patch
