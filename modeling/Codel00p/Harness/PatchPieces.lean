import Codel00p.Lib.Scan
import Codel00p.Lib.Slices
import Codel00p.Harness.Patch

/-! What the find/replace engine does: it takes a text apart into what is kept and what is replaced. -/

namespace Codel00p.Patch

/-- A part of a text that is kept, and the part behind it that is replaced. -/
structure Piece where
  kept : List Char
  found : List Char
  replacement : List Char

/-- The text that pieces, and what is behind them, were taken from. -/
def unpatched (pieces : List Piece) (rest : List Char) : List Char :=
  pieces.flatMap (fun piece => piece.kept ++ piece.found) ++ rest

def patched (pieces : List Piece) (rest : List Char) : List Char :=
  pieces.flatMap (fun piece => piece.kept ++ piece.replacement) ++ rest

/-- Where the pieces are that begin at a place. -/
def located : Nat → List Piece → List Located
  | _, [] => []
  | offset, piece :: pieces =>
    let start := offset + byteLength piece.kept
    let stop := start + byteLength piece.found
    { start, stop, replacement := piece.replacement } :: located stop pieces

@[simp] theorem located_length (offset : Nat) (pieces : List Piece) :
    (located offset pieces).length = pieces.length := by
  induction pieces generalizing offset with
  | nil => rfl
  | cons piece pieces ih => simp [located, ih]

theorem le_start_of_mem_located {offset : Nat} {pieces : List Piece} {place : Located}
    (member : place ∈ located offset pieces) : offset ≤ place.start := by
  induction pieces generalizing offset with
  | nil => exact nomatch member
  | cons piece pieces ih =>
    rcases List.mem_cons.1 member with rfl | later
    · exact Nat.le_add_right _ _
    · have behind := ih later
      omega

theorem located_sorted (offset : Nat) (pieces : List Piece) :
    (located offset pieces).Pairwise fun a b => decide (a.start ≤ b.start) = true := by
  induction pieces generalizing offset with
  | nil => exact .nil
  | cons piece pieces ih =>
    refine .cons (fun place member => ?_) (ih _)
    have behind := le_start_of_mem_located member
    simp only [decide_eq_true_eq]
    omega

theorem spliceFrom_located (before : List Char) (pieces : List Piece) (rest : List Char) :
    spliceFrom (before ++ unpatched pieces rest) (byteLength before) (located (byteLength before) pieces) =
      some (patched pieces rest) := by
  induction pieces generalizing before with
  | nil => exact sliceFrom_append before rest
  | cons piece pieces ih =>
    have whole : before ++ unpatched (piece :: pieces) rest =
        before ++ (piece.kept ++ (piece.found ++ unpatched pieces rest)) := by simp [unpatched]
    have again := ih (before ++ piece.kept ++ piece.found)
    simp only [byteLength_append, List.append_assoc] at again
    rw [whole]
    simp [located, spliceFrom, slice_append, Nat.add_assoc, again]
    simp [patched]

theorem splice_located (pieces : List Piece) (rest : List Char) :
    splice (unpatched pieces rest) (located 0 pieces) = some (patched pieces rest) := by
  rw [splice, List.mergeSort_of_pairwise (located_sorted 0 pieces)]
  exact spliceFrom_located [] pieces rest

theorem applyStrategies_eq_ok (printable : Char → Bool) {original find replace : List Char} {replaceAll : Bool}
    {entries : List (String × (List Char → List Char → List Char → Option (List Located)))} {outcome : ChangeOutcome}
    (applied : applyStrategies printable original find replace replaceAll entries = some (.ok outcome)) :
    ∃ entry ∈ entries, entry.1 = outcome.strategy ∧ ∃ places, entry.2 original find replace = some places ∧
      places ≠ [] ∧ splice original places = some outcome.patched ∧ places.length = outcome.replacements := by
  induction entries with
  | nil => exact nomatch applied
  | cons first entries ih =>
    obtain ⟨strategy, locate⟩ := first
    obtain ⟨places, there, decided⟩ := Option.bind_eq_some_iff.1 applied
    split at decided
    · obtain ⟨entry, member, rest⟩ := ih decided
      exact ⟨entry, List.mem_cons_of_mem _ member, rest⟩
    · next some =>
      split at decided
      · exact nomatch decided
      · obtain ⟨text, spliced, made⟩ := Option.bind_eq_some_iff.1 decided
        obtain rfl := Except.ok.inj (Option.some.inj made)
        exact ⟨_, List.mem_cons_self, rfl, places, there, fun none => some (List.isEmpty_iff.2 none), spliced, rfl⟩

/-! ### What is located -/

theorem cutAfter_newlineOffsets (before line : List Char) (inside : '\n' ∉ line) (after : List Char) :
    cutAfter (before ++ (line ++ after)) (byteLength before)
      (newlineOffsets (byteLength before + byteLength line) after) = some (linesWithEnds (line ++ after)) := by
  -- The line that is being read is followed by the rest of the text.
  induction after generalizing before line with
  | nil =>
    rw [List.append_nil, newlineOffsets, cutAfter, linesWithEnds_last inside]
    by_cases empty : line = []
    · simp [empty]
    · have longer : 0 < byteLength line := Nat.pos_of_ne_zero (by simp [empty])
      simp [empty, longer]
  | cons c after ih =>
    by_cases ends : c = '\n'
    · subst ends
      have more := ih (before ++ (line ++ ['\n'])) [] (by simp)
      have size : Char.utf8Size '\n' = 1 := rfl
      simp only [List.append_assoc, List.nil_append, byteLength_append, byteLength_cons, byteLength_nil, size,
        Nat.add_zero, List.cons_append] at more
      have own := slice_append before (line ++ ['\n']) after
      simp only [byteLength_append, byteLength_cons, byteLength_nil, size, Nat.add_zero, List.append_assoc,
        List.cons_append, List.nil_append] at own
      rw [newlineOffsets, if_pos rfl, cutAfter, linesWithEnds_line inside]
      simp [Nat.add_assoc, own, more, Option.bind_eq_bind, Option.bind_some, Option.pure_def]
    · have more := ih before (line ++ [c]) (by simp [inside, Ne.symm ends])
      simp only [List.append_assoc, List.cons_append, List.nil_append, byteLength_append, byteLength_cons,
        byteLength_nil, Nat.add_zero] at more
      rw [newlineOffsets, if_neg ends, Nat.add_assoc]
      exact more

@[simp] theorem splitKeepEnds_eq (text : List Char) : splitKeepEnds text = some (linesWithEnds text) :=
  cutAfter_newlineOffsets [] [] (by simp) text

def exactPieces (find replace : List Char) (hits : List (Hit Char)) : List Piece :=
  hits.map fun hit => { kept := hit.passed, found := find, replacement := replace }

theorem locateExactFrom_scan (before text find replace : List Char) (nonempty : find ≠ []) {fuel : Nat}
    (enough : text.length < fuel) : ∃ hits rest, Scan find.length (· = find) text hits rest ∧
      locateExactFrom (before ++ text) find replace fuel (byteLength before) =
        some (located (byteLength before) (exactPieces find replace hits)) := by
  induction fuel generalizing before text with
  | zero => exact absurd enough (Nat.not_lt_zero _)
  | succ fuel ih =>
    rw [locateExactFrom, sliceFrom_append]
    simp only [Option.bind_eq_bind, Option.bind_some]
    cases cut : splitOnceChars find text with
    | none => exact ⟨[], text, .done (splitOnceChars_eq_none cut), rfl⟩
    | some parts =>
      obtain ⟨passed, after⟩ := parts
      obtain ⟨spelled, first⟩ := splitOnceChars_eq_some cut
      have shorter : after.length < fuel := by
        have := List.length_pos_iff.2 nonempty
        rw [spelled] at enough
        simp only [List.length_append] at enough
        omega
      obtain ⟨hits, rest, scan, more⟩ := ih (before ++ passed ++ find) after shorter
      rw [spelled] at first ⊢
      refine ⟨⟨passed, find⟩ :: hits, rest, .found rfl rfl first scan, ?_⟩
      simp only [byteLength_append, List.append_assoc] at more ⊢
      simp only [← Nat.add_assoc] at more ⊢
      simp only [more, Option.bind_some]
      simp [exactPieces, located, Nat.add_assoc]

theorem locateExact_scan (original find replace : List Char) (nonempty : find ≠ []) :
    ∃ hits rest, Scan find.length (· = find) original hits rest ∧
      locateExact original find replace = some (located 0 (exactPieces find replace hits)) :=
  locateExactFrom_scan [] original find replace nonempty (Nat.lt_succ_self _)

theorem unpatched_exactPieces {original find replace rest : List Char} {hits : List (Hit Char)}
    (scan : Scan find.length (· = find) original hits rest) :
    unpatched (exactPieces find replace hits) rest = original := by
  rw [scan.text_eq, unpatched, exactPieces, List.flatMap_map]
  congr 1
  refine List.flatMap_congr fun hit member => ?_
  rw [(scan.window_fits hit member).2]

end Codel00p.Patch
