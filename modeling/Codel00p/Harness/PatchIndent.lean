import Mathlib.Data.List.Forall2
import Codel00p.Harness.PatchWindows

/-! Indentation-tolerant matching: when the windows that it accepts are shifted as a whole. -/

namespace Codel00p.Patch

def Accepts (original find : List Char) (window : List (List Char)) : Prop :=
  ∃ replace places place above below, locateIndentation original find replace = some places ∧ place ∈ places ∧
    linesWithEnds original = above ++ window ++ below ∧ place.start = byteLength above.flatten ∧
    place.stop = place.start + byteLength window.flatten

/-- One change of the white space in front turns every line that is not blank into the line at its place. -/
def Shifted (lines window : List (List Char)) : Prop :=
  ∃ old new : List Char, old.all isWhitespace ∧ new.all isWhitespace ∧
    List.Forall₂ (fun line other => blank (stripEol line) = false →
      ∃ body, stripEol line = old ++ body ∧ stripEol other = new ++ body) lines window

def visibleLines (lines : List (List Char)) : List (List Char) := lines.filter fun line => !blank (stripEol line)

/-! ### Windows that are accepted match -/

theorem locateIndentation_eq (original find replace : List Char) : locateIndentation original find replace =
    locateKeyed (·.dropWhile isWhitespace) (reindented replace) original find :=
  rfl

theorem mem_located_linePieces {offset : Nat} {replacement : List (List Char) → Option (List Char)}
    {hits : List (Hit (List Char))} {place : Located} (member : place ∈ located offset (linePieces replacement hits)) :
    ∃ front hit back, hits = front ++ hit :: back ∧
      place.start = offset + byteLength (front.flatMap (fun hit => hit.passed ++ hit.window) ++ hit.passed).flatten ∧
      place.stop = place.start + byteLength hit.window.flatten := by
  induction hits generalizing offset with
  | nil => exact nomatch member
  | cons first hits ih =>
    rcases List.mem_cons.1 member with rfl | later
    · exact ⟨[], first, hits, rfl, rfl, rfl⟩
    · obtain ⟨front, hit, back, rfl, start, stop⟩ := ih later
      refine ⟨first :: front, hit, back, rfl, ?_, stop⟩
      rw [start]
      simp [Nat.add_assoc]

theorem lines_eq_of_byteLength {first second rest more : List (List Char)} (whole : [] ∉ first ++ rest)
    (same : first ++ rest = second ++ more) (sized : byteLength first.flatten = byteLength second.flatten) :
    first = second := by
  -- The one is the other with a gap behind it that has no bytes.
  have short : ∀ {shorter gap : List (List Char)}, [] ∉ gap →
      byteLength shorter.flatten = byteLength (shorter ++ gap).flatten → shorter = shorter ++ gap := by
    intro shorter gap nonempty equal
    rw [List.flatten_append, byteLength_append] at equal
    have empty : gap.flatten = [] := byteLength_eq_zero.1 (by omega)
    cases gap with
    | nil => simp
    | cons line gap => exact absurd (by simp [List.flatten_eq_nil_iff.1 empty line]) nonempty
  rcases List.append_eq_append_iff.1 same with ⟨gap, rfl, rfl⟩ | ⟨gap, rfl, _⟩
  · exact short (fun inside => whole (by simp [inside])) sized
  · exact (short (fun inside => whole (by simp [inside])) sized.symm).symm

variable {find : List Char} {window : List (List Char)}

theorem Accepts.matches {original : List Char} (accepted : Accepts original find window) :
    Matches (·.dropWhile isWhitespace) find window := by
  obtain ⟨replace, places, place, above, below, found, member, spelled, start, stop⟩ := accepted
  have nonempty : find ≠ [] := by
    rintro rfl
    obtain rfl : [] = places := Option.some.inj found
    exact nomatch member
  obtain ⟨hits, rest, scan, located⟩ := locateKeyed_scan (·.dropWhile isWhitespace) (reindented replace) original find
    nonempty
  rw [locateIndentation_eq, located] at found
  split at found
  · obtain rfl := Option.some.inj found
    obtain ⟨front, hit, back, rfl, begins, ends⟩ := mem_located_linePieces member
    -- The window is where the scan found one, and has as many bytes.
    have lines := (lines_linesWithEnds original).1.ne_nil
    have text : linesWithEnds original = (front.flatMap (fun hit => hit.passed ++ hit.window) ++ hit.passed) ++
        (hit.window ++ (back.flatMap (fun hit => hit.passed ++ hit.window) ++ rest)) := by
      rw [scan.text_eq]
      simp
    rw [spelled, List.append_assoc] at text lines
    obtain rfl := lines_eq_of_byteLength lines text (by omega)
    have behind := List.append_cancel_left text
    have inside : [] ∉ window ++ below := fun within => lines (List.mem_append_right _ within)
    obtain rfl := lines_eq_of_byteLength inside behind (by omega)
    exact (scan.window_fits hit (by simp)).2
  · exact nomatch found

/-! ### When all of them are shifted -/

theorem shifted_of_matches {lines : List (List Char)}
    (same : List.Forall₂ (fun line other => (stripEol line).dropWhile isWhitespace = (stripEol other).dropWhile isWhitespace)
      lines window) (one : (visibleLines lines).length ≤ 1) : Shifted lines window := by
  induction same with
  | nil => exact ⟨[], [], rfl, rfl, .nil⟩
  | @cons line other lines window equal rest ih =>
    by_cases visible : blank (stripEol line) = false
    · -- The others are blank, so the shift is the one of this line.
      have none : visibleLines lines = [] := by
        simp only [visibleLines, List.filter_cons, visible, Bool.not_false, if_true, List.length_cons] at one
        exact List.length_eq_zero_iff.1 (by simp only [visibleLines]; omega)
      refine ⟨(stripEol line).takeWhile isWhitespace, (stripEol other).takeWhile isWhitespace,
        List.all_takeWhile, List.all_takeWhile, .cons (fun _ => ?_) ?_⟩
      · refine ⟨(stripEol line).dropWhile isWhitespace, (List.takeWhile_append_dropWhile).symm, ?_⟩
        rw [equal, List.takeWhile_append_dropWhile]
      · have blanks : ∀ line ∈ lines, blank (stripEol line) = true := by
          simpa [visibleLines, List.filter_eq_nil_iff] using none
        refine ((List.forall₂_and_left _ _).2 ⟨blanks, rest⟩).imp fun line other ⟨empty, _⟩ shown => ?_
        exact nomatch shown.symm.trans empty
    · have fewer : (visibleLines lines).length ≤ 1 := by
        simpa [visibleLines, visible] using one
      obtain ⟨old, new, white, white', shifted⟩ := ih fewer
      exact ⟨old, new, white, white', .cons (fun shown => absurd shown visible) shifted⟩

theorem stripEol_cons {line : List Char} (nonempty : line ≠ []) : stripEol (' ' :: line) = ' ' :: stripEol line := by
  obtain ⟨front, last, rfl⟩ := (List.eq_nil_or_concat' line).resolve_left nonempty
  rw [← List.cons_append]
  simp only [stripEol, List.getLast?_concat, List.dropLast_concat, Option.some.injEq]
  split
  · rcases List.eq_nil_or_concat' front with rfl | ⟨body, end', rfl⟩
    · simp
    · rw [← List.cons_append]
      simp only [List.getLast?_concat, List.dropLast_concat, Option.some.injEq]
      split <;> rfl
  · rfl

theorem lines_indent {above below : List (List Char)} {line : List Char} (whole : Lines (above ++ line :: below)) :
    Lines (above ++ (' ' :: line) :: below) := by
  induction above with
  | nil =>
    cases whole with
    | last inside nonempty => exact .last (by simp [inside]) (by simp)
    | @cons body _ inside more => exact @Lines.cons (' ' :: body) below (by simp [inside]) more
  | cons first above ih =>
    rw [List.cons_append] at whole ⊢
    generalize rest : above ++ line :: below = lines at whole
    cases whole with
    | last => simp at rest
    | cons inside more => exact .cons inside (ih (rest ▸ more))

theorem accepts_whole {original : List Char} (nonempty : find ≠ [])
    (whole : linesWithEnds original = window) (sized : window.length = (linesWithEnds find).length)
    (fitting : Matches (·.dropWhile isWhitespace) find window) : Accepts original find window := by
  obtain ⟨hits, rest, scan, located⟩ := locateKeyed_scan (·.dropWhile isWhitespace) (reindented []) original find nonempty
  -- The replacement is nothing, which is never cut inside a character.
  have every : replaceable (reindented []) hits = true := by
    refine List.all_eq_true.2 fun hit _ => ?_
    rw [reindented, leadingWhitespace_eq]
    rfl
  rw [if_pos every] at located
  rw [whole] at scan
  cases scan with
  | done unfit => exact absurd ⟨window, [], by simp, sized, fitting⟩ (unfit [])
  | @found passed found text _ hits foundSized foundFits first more =>
    -- The window that is found is at the front, and there is nothing behind it.
    have front := first [] ⟨passed ++ found ++ text, [], by simp, sized, fitting⟩
    obtain rfl : passed = [] := List.length_eq_zero_iff.1 (Nat.le_zero.1 front)
    obtain rfl : text = [] := by
      simp only [List.nil_append, List.length_append] at sized
      exact List.length_eq_zero_iff.1 (by omega)
    exact ⟨[], _, _, [], [], located, List.mem_cons_self, by simpa using whole, rfl, by simp⟩

/-- Lines of which more than one is not blank match lines that are not shifted as a whole. -/
theorem exists_unshifted (two : 1 < (visibleLines (linesWithEnds find)).length) :
    ∃ original window, Accepts original find window ∧ ¬Shifted (linesWithEnds find) window := by
  obtain ⟨first, others, visible⟩ := List.exists_cons_of_length_pos (Nat.lt_trans Nat.one_pos two)
  have more : 0 < others.length := by simpa [visible] using two
  obtain ⟨above, below, split, _, shown, rest⟩ := List.filter_eq_cons_iff.1 visible
  obtain ⟨second, _, rfl⟩ := List.exists_cons_of_length_pos more
  have behind : second ∈ below ∧ (!blank (stripEol second)) = true := List.mem_filter.1 (rest ▸ List.mem_cons_self)
  have whole := (lines_linesWithEnds find).1
  have nonempty : first ≠ [] := fun none => whole.ne_nil (by simp [split, none])
  rw [split] at whole
  -- One blank is put before the first of the two lines.
  have cut := (lines_indent whole).linesWithEnds_flatten
  have some : find ≠ [] := by
    rintro rfl
    simp [linesWithEnds] at split
  refine ⟨_, _, accepts_whole some cut ?_ ?_, ?_⟩
  · rw [split]
    simp
  · rw [Matches, split]
    simp [keyed, stripEol_cons nonempty, show isWhitespace ' ' = true from rfl]
  · -- The second line says that the white space is not changed, the first one that it is.
    rintro ⟨old, new, _, _, shifted⟩
    rw [split] at shifted
    have later := List.forall₂_drop above.length shifted
    rw [List.drop_left, List.drop_left] at later
    obtain ⟨changed, same⟩ := List.forall₂_cons.1 later
    obtain ⟨body, old', new'⟩ := changed (by simpa using shown)
    obtain ⟨other, old'', new''⟩ := List.forall₂_same.1 same second behind.1 (by simpa using behind.2)
    obtain rfl := List.append_cancel_right (old''.symm.trans new'')
    rw [stripEol_cons nonempty, ← old'] at new'
    have longer := congrArg List.length new'
    simp at longer

/-- Every window that the indentation strategy accepts is shifted as a whole, whatever the text is, just when no more
than one of the lines to find is not blank. -/
theorem accepts_shifted_iff (find : List Char) :
    (∀ original window, Accepts original find window → Shifted (linesWithEnds find) window) ↔
      (visibleLines (linesWithEnds find)).length ≤ 1 := by
  constructor
  · intro shifted
    by_contra two
    obtain ⟨original, window, accepted, unshifted⟩ := exists_unshifted (Nat.lt_of_not_le two)
    exact unshifted (shifted original window accepted)
  · intro one original window accepted
    refine shifted_of_matches ?_ one
    have same : List.Forall₂ (· = ·) (keyed (·.dropWhile isWhitespace) (linesWithEnds find))
        (keyed (·.dropWhile isWhitespace) window) := by
      rw [List.forall₂_eq_eq_eq]
      exact accepted.matches.symm
    rwa [keyed, keyed, List.forall₂_map_left_iff, List.forall₂_map_right_iff] at same

/-- A second line that is indented under the first. -/
def nested : List Char := ['a', '\n', ' ', 'b', '\n']

/-- The same lines with the first one indented instead. -/
def unnested : List Char := [' ', 'a', '\n', 'b', '\n']

/-- Lines are replaced that no shift makes of those to find. -/
theorem unnested_accepted : applyChange (fun _ => true) unnested nested ['c', '\n'] false =
        some (.ok { patched := [' ', 'c', '\n'], replacements := 1, strategy := "indentation" }) ∧
      Accepts unnested nested [[' ', 'a', '\n'], ['b', '\n']] ∧
      ¬Shifted (linesWithEnds nested) [[' ', 'a', '\n'], ['b', '\n']] := by
  refine ⟨by decide +kernel, accepts_whole (by simp [nested]) rfl rfl rfl, ?_⟩
  rintro ⟨old, new, white, _, shifted⟩
  obtain ⟨one, later⟩ := List.forall₂_cons.1 shifted
  obtain ⟨two, _⟩ := List.forall₂_cons.1 later
  obtain ⟨body, front, front'⟩ := one (by decide)
  obtain ⟨rest, back, back'⟩ := two (by decide)
  -- Nothing is taken away from the first line, and a blank would have to be taken away from the second one.
  cases old with
  | nil =>
    obtain rfl := show ['a'] = body from front
    obtain rfl := show [' ', 'b'] = rest from back
    have longer := congrArg List.length (show ['b'] = new ++ [' ', 'b'] from back')
    simp at longer
  | cons c old =>
    obtain ⟨rfl, _⟩ := List.cons.inj (show 'a' :: [] = c :: (old ++ body) from front)
    exact nomatch (List.all_cons.symm.trans white : (isWhitespace 'a' && _) = true)

end Codel00p.Patch
