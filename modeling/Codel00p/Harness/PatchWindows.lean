import Mathlib.Data.List.TakeWhile
import Codel00p.Harness.PatchPieces

/-! Tolerant matching: the windows of lines that are replaced, and the lines outside of them. -/

namespace Codel00p.Patch

/-! ### The windows of lines that are located -/

def linePieces (replacement : List (List Char) → Option (List Char)) (hits : List (Hit (List Char))) : List Piece :=
  hits.map fun hit =>
    { kept := hit.passed.flatten
      found := hit.window.flatten
      replacement := (replacement hit.window).getD [] }

def replaceable (replacement : List (List Char) → Option (List Char)) (hits : List (Hit (List Char))) : Bool :=
  hits.all fun hit => (replacement hit.window).isSome

theorem fitsAfter_nil_iff {α : Type} {size : Nat} {fits : List α → Prop} {text : List α} :
    FitsAfter size fits text [] ↔ size ≤ text.length ∧ fits (text.take size) := by
  constructor
  · rintro ⟨window, rest, rfl, rfl, fitting⟩
    simpa using fitting
  · rintro ⟨enough, fitting⟩
    exact ⟨text.take size, text.drop size, by simp, by simp [enough], fitting⟩

variable {lines : List (List Char)} {text : List Char}

/-- Going through the lines locates the windows that a greedy scan finds, if each has a replacement. -/
theorem locateWindows_scan {window : Nat} (positive : 0 < window) (fits : List (List Char) → Bool)
    (replacement : List (List Char) → Option (List Char)) {fuel : Nat} (offset : Nat) (enough : lines.length ≤ fuel) :
    ∃ hits rest, Scan window (fits · = true) lines hits rest ∧
      locateWindows window fits replacement fuel offset lines =
        if replaceable replacement hits then some (located offset (linePieces replacement hits)) else none := by
  -- Lines that are too few for a window hold none.
  have short : ∀ {lines : List (List Char)}, lines.length < window →
      Scan window (fits · = true) lines [] lines := by
    refine fun few => .done fun passed ⟨found, rest, spelled, sized, _⟩ => ?_
    have total := congrArg List.length spelled
    simp only [List.length_append] at total
    omega
  induction fuel generalizing offset lines with
  | zero => exact ⟨[], lines, short (by omega), rfl⟩
  | succ fuel ih =>
    rw [locateWindows]
    by_cases few : lines.length < window
    · exact ⟨[], lines, short few, by rw [if_pos few]; rfl⟩
    rw [if_neg few]
    by_cases fitting : fits (lines.take window) = true
    · rw [if_pos fitting]
      obtain ⟨hits, rest, scan, more⟩ := ih (offset + byteLength (lines.take window).flatten)
        (show (lines.drop window).length ≤ fuel by rw [List.length_drop]; omega)
      refine ⟨⟨[], lines.take window⟩ :: hits, rest, ?_, ?_⟩
      · have found := @Scan.found _ window (fits · = true) [] _ _ _ _ (by simp; omega) fitting
          (fun _ _ => Nat.zero_le _) scan
        simpa using found
      · dsimp only
        rw [more]
        cases text : replacement (lines.take window) with
        | none => simp [replaceable, text]
        | some text' =>
          by_cases all : replaceable replacement hits = true
          · have every : replaceable replacement (⟨[], lines.take window⟩ :: hits) = true := by
              simpa [replaceable, text] using all
            rw [if_pos all, if_pos every]
            simp [linePieces, located, text]
          · have some : ¬replaceable replacement (⟨[], lines.take window⟩ :: hits) = true := by
              simpa [replaceable, text] using all
            rw [if_neg all, if_neg some]
            rfl
    · rw [if_neg fitting]
      obtain ⟨line, lines, rfl⟩ := List.exists_cons_of_length_pos (show 0 < lines.length by omega)
      obtain ⟨hits, rest, scan, more⟩ := ih (offset + byteLength line) (show lines.length ≤ fuel by simpa using enough)
      refine ⟨_, _, scan.skip fun front => fitting (fitsAfter_nil_iff.1 front).2, ?_⟩
      rw [List.headD_cons, List.drop_one, List.tail_cons, more]
      cases hits with
      | nil => rfl
      | cons hit hits =>
        simp [Scan.skipped, replaceable, linePieces, located, List.map_cons, List.all_cons, List.flatten_cons, byteLength_append, Nat.add_assoc]

/-- What the lines of a text are compared by. -/
def keyed (key : List Char → List Char) (lines : List (List Char)) : List (List Char) :=
  lines.map fun line => key (stripEol line)

def Matches (key : List Char → List Char) (find : List Char) (window : List (List Char)) : Prop :=
  keyed key window = keyed key (linesWithEnds find)

theorem locateKeyed_scan (key : List Char → List Char) (replacement : List (List Char) → Option (List Char))
    (original find : List Char) (nonempty : find ≠ []) :
    ∃ hits rest, Scan (linesWithEnds find).length (Matches key find) (linesWithEnds original) hits rest ∧
      locateKeyed key replacement original find =
        if replaceable replacement hits then some (located 0 (linePieces replacement hits)) else none := by
  have some : linesWithEnds find ≠ [] := fun none => nonempty (by rw [← flatten_linesWithEnds find, none]; rfl)
  obtain ⟨hits, rest, scan, found⟩ := locateWindows_scan (List.length_pos_iff.2 some)
    (fun window => keyed key window == keyed key (linesWithEnds find)) replacement 0
    (Nat.le_refl (linesWithEnds original).length)
  refine ⟨hits, rest, ?_, ?_⟩
  · simp only [beq_iff_eq] at scan
    exact scan
  · simp only [locateKeyed, splitKeepEnds_eq, Option.bind_eq_bind, Option.bind_some]
    rw [if_neg (by simpa using some)]
    exact found

theorem unpatched_linePieces_eq (replacement : List (List Char) → Option (List Char)) (hits : List (Hit (List Char)))
    (rest : List (List Char)) : unpatched (linePieces replacement hits) rest.flatten =
      (hits.flatMap (fun hit => hit.passed ++ hit.window) ++ rest).flatten := by
  induction hits with
  | nil => simp [unpatched, linePieces]
  | cons hit hits ih =>
    simp only [unpatched, linePieces] at ih
    simp [unpatched, linePieces, ih]

theorem unpatched_linePieces {size : Nat} {fits : List (List Char) → Prop} {original : List Char}
    {hits : List (Hit (List Char))} {rest : List (List Char)} (scan : Scan size fits (linesWithEnds original) hits rest)
    (replacement : List (List Char) → Option (List Char)) :
    unpatched (linePieces replacement hits) rest.flatten = original := by
  rw [unpatched_linePieces_eq, ← scan.text_eq, flatten_linesWithEnds]

/-! ### What a re-indented text ends with -/

@[simp] theorem leadingWhitespace_eq (line : List Char) : leadingWhitespace line = some (line.takeWhile isWhitespace) := by
  have whole := sliceTo_append (line.takeWhile isWhitespace) (line.dropWhile isWhitespace)
  rwa [List.takeWhile_append_dropWhile] at whole

theorem commonIndent_le {common : Nat} (indented : commonIndent lines = some common)
    {line : List Char} (member : line ∈ lines) (visible : blank (stripEol line) = false) :
    common ≤ byteLength ((stripEol line).takeWhile isWhitespace) := by
  simp only [commonIndent, leadingWhitespace_eq, ← Option.pure_def, List.mapM_pure, pure_bind] at indented
  obtain rfl := Option.some.inj indented
  have listed : byteLength ((stripEol line).takeWhile isWhitespace) ∈
      ((lines.filter fun line => !blank (stripEol line)).map
        fun line => (stripEol line).takeWhile isWhitespace).map byteLength :=
    List.mem_map_of_mem (List.mem_map_of_mem (List.mem_filter.2 ⟨member, by simp [visible]⟩))
  cases least : (((lines.filter fun line => !blank (stripEol line)).map
      fun line => (stripEol line).takeWhile isWhitespace).map byteLength).min? with
  | none => exact Nat.zero_le _
  | some common => exact (List.min?_eq_some_iff.1 least).2 _ listed

theorem stripEol_append (line : List Char) : ∃ eol, line = stripEol line ++ eol := by
  unfold stripEol
  split
  · next newline =>
    obtain ⟨body, rfl⟩ := List.getLast?_eq_some_iff.1 newline
    simp only [List.dropLast_concat]
    split
    · next carriage =>
      obtain ⟨front, rfl⟩ := List.getLast?_eq_some_iff.1 carriage
      exact ⟨['\r', '\n'], by simp⟩
    · exact ⟨['\n'], rfl⟩
  · exact ⟨[], by simp⟩

theorem reindentLine_getLast? {baseIndent line : List Char} {common : Nat}
    (reindented : reindentLine baseIndent common line = some text)
    (indented : blank (stripEol line) = false → common ≤ byteLength ((stripEol line).takeWhile isWhitespace)) :
    text.getLast? = line.getLast? := by
  obtain ⟨eol, whole⟩ := stripEol_append line
  have cut : sliceFrom (byteLength (stripEol line)) line = some eol := by
    nth_rewrite 2 [whole]
    exact sliceFrom_append _ _
  simp only [reindentLine, cut, Option.bind_eq_bind, Option.bind_some] at reindented
  split at reindented
  · obtain rfl := Option.some.inj reindented
    rw [← whole]
  · next visible =>
    obtain ⟨rest, kept, made⟩ := Option.bind_eq_some_iff.1 reindented
    obtain rfl := Option.some.inj made
    obtain ⟨front, body, sized⟩ := sliceFrom_eq_some kept
    -- Something that is not white space is left behind the indentation.
    have left : rest ≠ [] := by
      rintro rfl
      have short := indented (by simpa using visible)
      rw [← sized, show front = stripEol line by simpa using body.symm] at short
      have parts := congrArg byteLength (List.takeWhile_append_dropWhile (p := isWhitespace) (l := stripEol line))
      rw [byteLength_append] at parts
      have nothing : (stripEol line).dropWhile isWhitespace = [] := byteLength_eq_zero.1 (by omega)
      rw [List.dropWhile_eq_nil_iff] at nothing
      exact visible (List.all_eq_true.2 nothing)
    obtain ⟨last, rest', rfl⟩ := (List.eq_nil_or_concat' rest).resolve_left left
    rw [whole, body]
    simp [List.getLast?_append, List.getLast?_cons]

theorem flatten_getLast? {texts : List (List Char)} {change : List Char → Option (List Char)}
    (changed : lines.mapM change = some texts)
    (each : ∀ line ∈ lines, ∀ text, change line = some text → text.getLast? = line.getLast?) :
    texts.flatten.getLast? = lines.flatten.getLast? := by
  induction lines generalizing texts with
  | nil =>
    obtain rfl : [] = texts := by simpa using changed
    rfl
  | cons line lines ih =>
    rw [List.mapM_cons] at changed
    obtain ⟨text, one, rest⟩ := Option.bind_eq_some_iff.1 changed
    obtain ⟨more, others, made⟩ := Option.bind_eq_some_iff.1 rest
    obtain rfl := Option.some.inj made
    obtain ⟨first, each⟩ := List.forall_mem_cons.1 each
    simp [List.getLast?_append, ih others each, first text one]

theorem reindent_getLast? {replace baseIndent : List Char} (reindented : reindent replace baseIndent = some text) :
    text.getLast? = replace.getLast? := by
  simp only [reindent, splitKeepEnds_eq, Option.bind_eq_bind, Option.bind_some] at reindented
  split at reindented
  · rw [Option.some.inj reindented]
  · obtain ⟨common, indented, rest⟩ := Option.bind_eq_some_iff.1 reindented
    obtain ⟨texts, changed, made⟩ := Option.bind_eq_some_iff.1 rest
    obtain rfl := Option.some.inj made
    rw [flatten_getLast? changed, flatten_linesWithEnds]
    exact fun line member _ one => reindentLine_getLast? one (commonIndent_le indented member)

/-! ### The lines outside the windows -/

def Complete (before line after : List Char) : Prop := Ended before ∧ (line.getLast? = some '\n' ∨ after = [])

def OutsideKept (replacement : List (List Char) → Option (List Char)) (hits : List (Hit (List Char)))
    (rest : List (List Char)) : Prop :=
  (∀ front hit back above line below, hits = front ++ hit :: back → hit.passed = above ++ line :: below →
      Complete (patched (linePieces replacement front) above.flatten) line
        (below.flatten ++ (replacement hit.window).getD [] ++ patched (linePieces replacement back) rest.flatten)) ∧
    ∀ above line below, rest = above ++ line :: below →
      Complete (patched (linePieces replacement hits) above.flatten) line below.flatten

/-- No line outside the windows comes behind one of them. -/
def NoneBehind (hits : List (Hit (List Char))) (rest : List (List Char)) : Prop :=
  (∀ hit ∈ hits.tail, hit.passed = []) ∧ rest = []

section

variable {replacement : List (List Char) → Option (List Char)}

theorem patched_ended {hits : List (Hit (List Char))} {above after : List (List Char)}
    (whole : Lines (hits.flatMap (fun hit => hit.passed ++ hit.window) ++ above ++ after)) (more : after ≠ [])
    (replaced : ∀ hit ∈ hits, Ended ((replacement hit.window).getD [])) :
    Ended (patched (linePieces replacement hits) above.flatten) := by
  have each := whole.ended more
  clear whole
  induction hits with
  | nil => exact .flatten fun line member => .of_getLast? (each line (by simpa using member))
  | cons hit hits ih =>
    obtain ⟨ended, others⟩ := List.forall_mem_cons.1 replaced
    have kept : Ended hit.passed.flatten := .flatten fun line member => .of_getLast? (each line (by simp [member]))
    have later := ih others fun line member => each line (by
      rw [List.flatMap_cons, List.append_assoc]
      exact List.mem_append_right _ member)
    simpa [patched, linePieces] using (kept.append ended).append later

theorem ended_of_patched {hits : List (Hit (List Char))} {hit : Hit (List Char)}
    (whole : Ended (patched (linePieces replacement (hits ++ [hit])) [])) :
    Ended ((replacement hit.window).getD []) := by
  have parts : patched (linePieces replacement (hits ++ [hit])) [] =
      patched (linePieces replacement hits) hit.passed.flatten ++ (replacement hit.window).getD [] := by
    simp [patched, linePieces]
  exact (parts ▸ whole).of_append

section

variable {lines rest : List (List Char)} {size : Nat} {fits : List (List Char) → Prop} {hits : List (Hit (List Char))}

section

variable (scan : Scan size fits lines hits rest)

include scan

theorem complete_of_passed (whole : Lines lines) (positive : 0 < size) {front back : List (Hit (List Char))}
    {hit : Hit (List Char)} {above below : List (List Char)} {line after : List Char}
    (split : hits = front ++ hit :: back) (passed : hit.passed = above ++ line :: below)
    (replaced : ∀ hit ∈ front, Ended ((replacement hit.window).getD [])) :
    Complete (patched (linePieces replacement front) above.flatten) line after := by
  have window : hit.window ≠ [] := fun none => by
    have sized := (scan.window_fits hit (by simp [split])).1
    rw [none] at sized
    exact positive.ne sized
  have spelled : lines = front.flatMap (fun hit => hit.passed ++ hit.window) ++ above ++ [line] ++
      (below ++ hit.window ++ back.flatMap (fun hit => hit.passed ++ hit.window) ++ rest) := by
    rw [scan.text_eq, split]
    simp [passed]
  subst spelled
  refine ⟨patched_ended (List.append_assoc _ _ _ ▸ whole) (by simp) replaced, .inl ?_⟩
  exact whole.ended (by simp [window]) line (by simp)

theorem complete_of_rest (whole : Lines lines) {above below : List (List Char)} {line : List Char}
    (split : rest = above ++ line :: below) (replaced : ∀ hit ∈ hits, Ended ((replacement hit.window).getD [])) :
    Complete (patched (linePieces replacement hits) above.flatten) line below.flatten := by
  have spelled : lines = hits.flatMap (fun hit => hit.passed ++ hit.window) ++ above ++ [line] ++ below := by
    rw [scan.text_eq, split]
    simp
  subst spelled
  refine ⟨patched_ended (List.append_assoc _ _ _ ▸ whole) (by simp) replaced, ?_⟩
  by_cases last : below = []
  · exact .inr (by simp [last])
  · exact .inl (whole.ended last line (by simp))

/-- The lines outside the windows are kept just when the replacements end with a newline, or no such line is behind a
window. -/
theorem outsideKept_iff (whole : Lines lines) (positive : 0 < size)
    (nonempty : hits ≠ []) {ended : Prop} (same : ∀ hit ∈ hits, Ended ((replacement hit.window).getD []) ↔ ended) :
    OutsideKept replacement hits rest ↔ ended ∨ NoneBehind hits rest := by
  constructor
  · rintro ⟨withinHits, withinRest⟩
    by_cases holds : ended
    · exact .inl holds
    -- Before a line right behind a window there is the replacement of that window.
    have broken : ∀ {front : List (Hit (List Char))}, front ≠ [] → (∀ hit ∈ front, hit ∈ hits) →
        ¬Ended (patched (linePieces replacement front) []) := by
      intro front some among kept
      obtain ⟨others, hit, rfl⟩ := (List.eq_nil_or_concat' front).resolve_left some
      exact holds ((same hit (among hit (by simp))).1 (ended_of_patched kept))
    refine .inr ⟨fun hit member => ?_, ?_⟩
    · by_contra passed
      obtain ⟨line, below, passed⟩ := List.exists_cons_of_ne_nil passed
      obtain ⟨first, others, rfl⟩ := List.exists_cons_of_ne_nil nonempty
      obtain ⟨front, back, split⟩ := List.append_of_mem member
      rw [List.tail_cons] at split
      subst split
      exact broken (List.cons_ne_nil first front) (by simp +contextual)
        (withinHits (first :: front) hit back [] line below rfl passed).1
    · by_contra left
      obtain ⟨line, below, rfl⟩ := List.exists_cons_of_ne_nil left
      exact broken nonempty (fun _ => id) (withinRest [] line below rfl).1
  · rintro (holds | ⟨onlyFirst, rfl⟩)
    · refine ⟨fun front hit back above line below split passed => ?_, fun above line below split => ?_⟩
      · exact complete_of_passed scan whole positive split passed fun other member =>
          (same other (by simp [split, member])).2 holds
      · exact complete_of_rest scan whole split fun hit member => (same hit member).2 holds
    · refine ⟨fun front hit back above line below split passed => ?_, fun above line below split => by simp at split⟩
      refine complete_of_passed scan whole positive split passed fun other member => ?_
      -- Only the first window has lines before it.
      obtain ⟨first, front, rfl⟩ := List.exists_cons_of_ne_nil (List.ne_nil_of_mem member)
      simp [onlyFirst hit (by simp [split])] at passed

end

end

end

/-! ### The tolerant strategies -/

/-- A strategy that compares lines, and what it writes in the place of a window. -/
structure LineStrategy where
  name : String
  key : List Char → List Char
  replacement : List Char → List (List Char) → Option (List Char)

/-- What is written in the place of a window that may be indented otherwise. -/
def reindented (replace : List Char) (window : List (List Char)) : Option (List Char) := do
  let baseIndent ← leadingWhitespace (stripEol (window.headD []))
  reindent replace baseIndent

/-- The strategies after the exact one. -/
def lineStrategies : List LineStrategy :=
  [{ name := "line-ending"
     key := dropEnd (· == '\r')
     replacement := fun replace _ => some replace },
   { name := "trailing-whitespace"
     key := dropEnd isWhitespace
     replacement := fun replace _ => some replace },
   { name := "indentation"
     key := (·.dropWhile isWhitespace)
     replacement := reindented }]

theorem strategies_eq : strategies = ("exact", locateExact) :: lineStrategies.map fun strategy =>
    (strategy.name, fun original find replace => locateKeyed strategy.key (strategy.replacement replace) original find) :=
  rfl

theorem replacement_getLast? {strategy : LineStrategy} (known : strategy ∈ lineStrategies) {replace : List Char}
    {window : List (List Char)} (made : strategy.replacement replace window = some text) :
    text.getLast? = replace.getLast? := by
  simp only [lineStrategies, List.mem_cons, List.not_mem_nil, or_false] at known
  rcases known with rfl | rfl | rfl
  · rw [Option.some.inj made]
  · rw [Option.some.inj made]
  · simp only [reindented, leadingWhitespace_eq, Option.bind_eq_bind, Option.bind_some] at made
    exact reindent_getLast? made

/-- A tolerant change replaces windows of lines, and keeps every line outside of them a complete line just when the
replacement is empty or ends with a newline, or there is no such line behind a window. -/
theorem neighbours_kept_iff (printable : Char → Bool) {original find replace : List Char} {replaceAll : Bool}
    {outcome : ChangeOutcome} (applied : applyChange printable original find replace replaceAll = some (.ok outcome))
    (tolerant : outcome.strategy ≠ "exact") :
    ∃ strategy ∈ lineStrategies, strategy.name = outcome.strategy ∧ ∃ hits rest,
      Scan (linesWithEnds find).length (Matches strategy.key find) (linesWithEnds original) hits rest ∧
      hits.length = outcome.replacements ∧
      outcome.patched = patched (linePieces (strategy.replacement replace) hits) rest.flatten ∧
      (OutsideKept (strategy.replacement replace) hits rest ↔
        replace = [] ∨ replace.getLast? = some '\n' ∨ NoneBehind hits rest) := by
  rw [applyChange, strategies_eq] at applied
  obtain ⟨entry, member, named, places, found, some, spliced, counted⟩ := applyStrategies_eq_ok printable applied
  rcases List.mem_cons.1 member with rfl | member
  · exact absurd named.symm tolerant
  obtain ⟨strategy, known, rfl⟩ := List.mem_map.1 member
  dsimp only at named found
  -- Without anything to find, no window is located.
  have nonempty : find ≠ [] := by
    rintro rfl
    exact some (Option.some.inj found).symm
  obtain ⟨hits, rest, scan, located⟩ := locateKeyed_scan strategy.key (strategy.replacement replace) original find nonempty
  rw [located] at found
  split at found
  · next all =>
    obtain rfl := Option.some.inj found
    have count : hits.length = outcome.replacements := by rw [← counted]; simp [linePieces]
    rw [← unpatched_linePieces scan (strategy.replacement replace), splice_located] at spliced
    refine ⟨strategy, known, named, hits, rest, scan, count, (Option.some.inj spliced).symm, ?_⟩
    have lines : linesWithEnds find ≠ [] := fun none => nonempty (by rw [← flatten_linesWithEnds find, none]; rfl)
    have hit : hits ≠ [] := fun none => some (by simp [none, linePieces, Patch.located])
    have same : ∀ hit ∈ hits, Ended ((strategy.replacement replace hit.window).getD []) ↔ Ended replace := by
      intro hit among
      obtain ⟨text, made⟩ := Option.isSome_iff_exists.1 (List.all_eq_true.1 all hit among)
      rw [made, Option.getD_some, Ended, replacement_getLast? known made]
      rfl
    rw [outsideKept_iff scan (lines_linesWithEnds original).1 (List.length_pos_iff.2 lines) hit same, ← or_assoc]
    exact or_congr_left ended_iff
  · cases found

/-- A change of a line that keeps its newline. -/
def spaced : List Char := ['a', ' ', '\n', 'b', '\n', 'c', '\n']

/-- The lines around it are kept. -/
theorem spaced_line_kept : ∃ strategy ∈ lineStrategies, strategy.name = "trailing-whitespace" ∧ ∃ hits rest,
      Scan (linesWithEnds ['a', '\n', 'b', '\n']).length (Matches strategy.key ['a', '\n', 'b', '\n'])
        (linesWithEnds spaced) hits rest ∧ hits.length = 1 ∧
      ['d', '\n', 'c', '\n'] = patched (linePieces (strategy.replacement ['d', '\n']) hits) rest.flatten ∧
      (OutsideKept (strategy.replacement ['d', '\n']) hits rest ↔
        ['d', '\n'] = ([] : List Char) ∨ ['d', '\n'].getLast? = some '\n' ∨ NoneBehind hits rest) :=
  neighbours_kept_iff (fun _ => true)
    (show applyChange (fun _ => true) spaced ['a', '\n', 'b', '\n'] ['d', '\n'] false =
      some (.ok { patched := ['d', '\n', 'c', '\n'], replacements := 1, strategy := "trailing-whitespace" }) by
        decide +kernel) (by decide)

/-- A change without newlines runs into the next line. -/
theorem next_line_joined : applyChange (fun _ => true) spaced ['a', '\n', 'b'] ['d'] false =
        some (.ok { patched := ['d', 'c', '\n'], replacements := 1, strategy := "trailing-whitespace" }) ∧
      linesWithEnds spaced = [['a', ' ', '\n'], ['b', '\n'], ['c', '\n']] ∧
      ['c', '\n'] ∉ linesWithEnds ['d', 'c', '\n'] := by
  decide +kernel

end Codel00p.Patch
