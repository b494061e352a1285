import Codel00p.Harness.PatchExact
import Codel00p.Harness.PatchIndent
import Codel00p.Lib.Boundary

/-! Where a change is cut: every place is between characters, but for the indentation of a replacement. -/

namespace Codel00p.Patch

def Occurs (key : List Char → List Char) (original find : List Char) : Prop :=
  ∃ above window below, linesWithEnds original = above ++ window ++ below ∧
    window.length = (linesWithEnds find).length ∧ Matches key find window

def leastIndent (lines : List (List Char)) : Nat :=
  (((visibleLines lines).map fun line => byteLength ((stripEol line).takeWhile isWhitespace)).min?).getD 0

def CutInside (replace : List Char) : Prop :=
  ∃ line ∈ visibleLines (linesWithEnds replace), Straddled (stripEol line) (leastIndent (linesWithEnds replace))

/-! ### Re-indenting -/

theorem commonIndent_eq (lines : List (List Char)) : commonIndent lines = some (leastIndent lines) := by
  simp only [commonIndent, leadingWhitespace_eq, ← Option.pure_def, List.mapM_pure, pure_bind, List.map_map]
  rfl

theorem reindentLine_isSome (baseIndent line : List Char) (common : Nat) :
    (reindentLine baseIndent common line).isSome = true ↔
      (blank (stripEol line) = false → isCharBoundary (stripEol line) common = true) := by
  obtain ⟨eol, whole⟩ := stripEol_append line
  have cut : sliceFrom (byteLength (stripEol line)) line = some eol := by
    have behind := sliceFrom_append (stripEol line) eol
    rwa [← whole] at behind
  rw [reindentLine, cut]
  simp only [Option.bind_eq_bind, Option.bind_some]
  split
  · next empty => simp [empty]
  · next visible =>
    rw [← sliceFrom_isSome]
    cases rest : sliceFrom common (stripEol line) <;> simp [visible]

theorem leastIndent_le {lines : List (List Char)} {line : List Char} (member : line ∈ lines)
    (visible : blank (stripEol line) = false) : leastIndent lines ≤ byteLength (stripEol line) := by
  have own := commonIndent_le (commonIndent_eq lines) member visible
  have whole := byteLength_append ((stripEol line).takeWhile isWhitespace) ((stripEol line).dropWhile isWhitespace)
  rw [List.takeWhile_append_dropWhile] at whole
  omega

theorem reindent_isSome (replace baseIndent : List Char) :
    (reindent replace baseIndent).isSome = true ↔ ¬CutInside replace := by
  have lined : ((linesWithEnds replace).mapM
      (reindentLine baseIndent (leastIndent (linesWithEnds replace)))).isSome = true ↔ ¬CutInside replace := by
    simp only [mapM_isSome_iff, reindentLine_isSome, CutInside, visibleLines, List.mem_filter, Bool.not_eq_true',
      not_exists, not_and]
    constructor
    · intro between line member
      exact (isCharBoundary_iff_not_straddled.1 (between line member.1 member.2)).2
    · intro clear line member visible
      exact isCharBoundary_iff_not_straddled.2 ⟨leastIndent_le member visible, clear line ⟨member, visible⟩⟩
  rw [← lined, reindent, splitKeepEnds_eq]
  simp only [commonIndent_eq, Option.bind_eq_bind, Option.bind_some]
  split
  · next none => simp [List.isEmpty_iff.1 none]
  · rw [← Option.bind_eq_bind, isSome_bind_pure]

/-! ### Locating -/

theorem hits_ne_nil_iff {key : List Char → List Char} {original find : List Char} {hits : List (Hit (List Char))}
    {rest : List (List Char)}
    (scan : Scan (linesWithEnds find).length (Matches key find) (linesWithEnds original) hits rest) :
    hits ≠ [] ↔ Occurs key original find := by
  rw [ne_eq, scan.hits_eq_nil_iff, not_forall]
  simp only [not_not]
  rfl

section

variable (printable : Char → Bool) {original find replace : List Char} (replaceAll : Bool)
  (others : List (String × (List Char → List Char → List Char → Option (List Located))))

theorem applyStrategies_of_located {strategy : String} {locate : List Char → List Char → List Char → Option (List Located)}
    {pieces : List Piece} {rest : List Char} (there : locate original find replace = some (located 0 pieces))
    (whole : unpatched pieces rest = original) :
    (applyStrategies printable original find replace replaceAll ((strategy, locate) :: others)).isSome = true ↔
      pieces = [] → (applyStrategies printable original find replace replaceAll others).isSome = true := by
  have spliced := splice_located pieces rest
  rw [whole] at spliced
  rw [applyStrategies, there]
  simp only [Option.bind_eq_bind, Option.bind_some, spliced]
  cases pieces with
  | nil => simp [located]
  | cons piece pieces =>
    have some : (located 0 (piece :: pieces)).isEmpty = false := rfl
    rw [some, if_neg Bool.false_ne_true]
    refine iff_of_true ?_ fun none => absurd none (List.cons_ne_nil piece pieces)
    split <;> rfl

theorem applyStrategies_keyed (nonempty : find ≠ []) (strategy : String) (key : List Char → List Char)
    {replacement : List Char → List (List Char) → Option (List Char)}
    (every : ∀ window, (replacement replace window).isSome = true) :
    (applyStrategies printable original find replace replaceAll ((strategy, fun original find replace =>
        locateKeyed key (replacement replace) original find) :: others)).isSome = true ↔
      (¬Occurs key original find → (applyStrategies printable original find replace replaceAll others).isSome = true) := by
  obtain ⟨hits, rest, scan, found⟩ := locateKeyed_scan key (replacement replace) original find nonempty
  have all : replaceable (replacement replace) hits = true := List.all_eq_true.2 fun hit _ => every hit.window
  rw [if_pos all] at found
  rw [applyStrategies_of_located printable replaceAll others found (unpatched_linePieces scan _), ← hits_ne_nil_iff scan]
  simp [linePieces]

theorem applyStrategies_exact_isSome (nonempty : find ≠ []) :
    (applyStrategies printable original find replace replaceAll (("exact", locateExact) :: others)).isSome = true ↔
      (¬find <:+: original → (applyStrategies printable original find replace replaceAll others).isSome = true) := by
  obtain ⟨hits, rest, scan, found⟩ := locateExact_scan original find replace nonempty
  have none : exactPieces find replace hits = [] ↔ ¬find <:+: original := by
    rw [exactPieces, List.map_eq_nil_iff, scan.hits_eq_nil_iff, infix_iff_fitsAfter, not_exists]
  rw [applyStrategies_of_located printable replaceAll others found (unpatched_exactPieces scan), none]

theorem reindented_isSome (window : List (List Char)) : (reindented replace window).isSome = true ↔ ¬CutInside replace := by
  simp only [reindented, leadingWhitespace_eq, Option.bind_eq_bind, Option.bind_some]
  exact reindent_isSome replace _

theorem applyStrategies_indentation (nonempty : find ≠ []) :
    (applyStrategies printable original find replace replaceAll [("indentation", fun original find replace =>
        locateKeyed (·.dropWhile isWhitespace) (reindented replace) original find)]).isSome = true ↔
      ¬(Occurs (·.dropWhile isWhitespace) original find ∧ CutInside replace) := by
  by_cases cut : CutInside replace
  · obtain ⟨hits, rest, scan, found⟩ :=
      locateKeyed_scan (·.dropWhile isWhitespace) (reindented replace) original find nonempty
    rw [← hits_ne_nil_iff scan]
    cases hits with
    | nil => simp [applyStrategies, found, replaceable, linePieces, located]
    | cons hit hits =>
      -- The first window has no replacement.
      have stuck : (reindented replace hit.window).isSome = false := by
        rw [← Bool.not_eq_true, reindented_isSome]
        exact not_not.2 cut
      simp [applyStrategies, found, replaceable, stuck, cut]
  · rw [applyStrategies_keyed printable replaceAll [] nonempty "indentation" _ fun window => (reindented_isSome window).2 cut]
    simp [applyStrategies, cut]

end

structure Stopped (original find replace : List Char) : Prop where
  notExact : ¬find <:+: original
  notByLineEnding : ¬Occurs (dropEnd (· == '\r')) original find
  notByTrailingWhitespace : ¬Occurs (dropEnd isWhitespace) original find
  byIndentation : Occurs (·.dropWhile isWhitespace) original find
  cut : CutInside replace

/--
A change is applied or refused, without a cut inside a character, unless its replacement is cut by its indentation.

The least indentation is counted in bytes over all lines that are not blank,
and need not be between two characters in each of them.
-/
theorem change_never_stops_iff (printable : Char → Bool) (original find replace : List Char) (replaceAll : Bool)
    (nonempty : find ≠ []) :
    (applyChange printable original find replace replaceAll).isSome = true ↔ ¬Stopped original find replace := by
  rw [applyChange, strategies_eq, applyStrategies_exact_isSome printable replaceAll _ nonempty]
  simp only [lineStrategies, List.map_cons, List.map_nil]
  rw [applyStrategies_keyed printable replaceAll _ nonempty _ _ fun _ => rfl,
    applyStrategies_keyed printable replaceAll _ nonempty _ _ fun _ => rfl,
    applyStrategies_indentation printable replaceAll nonempty]
  constructor
  · rintro safe ⟨notExact, notEnding, notTrailing, found, cut⟩
    exact safe notExact notEnding notTrailing ⟨found, cut⟩
  · intro safe notExact notEnding notTrailing stopped
    exact safe ⟨notExact, notEnding, notTrailing, stopped.1, stopped.2⟩

/-- A replacement whose lines are indented by a blank of two bytes and by one of a single byte. -/
def wideIndent : List Char := [Char.ofNat 0xA0, 'b', '\n', ' ', 'c', '\n']

/-- A change with that replacement stops the program. -/
theorem wide_indent_stops : applyChange (fun _ => true) ['a', '\n'] [' ', 'a', '\n'] wideIndent false = none := by
  decide +kernel

/-- A change with lines that are indented alike does not. -/
theorem even_indent_applied :
    (applyChange (fun _ => true) ['a', '\n'] [' ', 'a', '\n'] [' ', 'b', '\n', ' ', 'c', '\n'] false).isSome = true ↔
      ¬Stopped ['a', '\n'] [' ', 'a', '\n'] [' ', 'b', '\n', ' ', 'c', '\n'] :=
  change_never_stops_iff _ _ _ _ _ (by simp)

end Codel00p.Patch
