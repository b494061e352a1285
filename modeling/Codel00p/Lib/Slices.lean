import Codel00p.Lib.Text

/-! Cutting texts at places that are counted in bytes, and into lines. -/

namespace Codel00p

@[simp] theorem byteLength_nil : byteLength [] = 0 := rfl

@[simp] theorem byteLength_cons (c : Char) (text : List Char) :
    byteLength (c :: text) = c.utf8Size + byteLength text := rfl

@[simp] theorem byteLength_append (first second : List Char) :
    byteLength (first ++ second) = byteLength first + byteLength second := by
  simp [byteLength]

variable {text : List Char}

@[simp] theorem byteLength_eq_zero : byteLength text = 0 ↔ text = [] := by
  cases text with
  | nil => simp
  | cons c text =>
    have positive := c.utf8Size_pos
    simp only [byteLength_cons, reduceCtorEq, iff_false]
    omega

theorem eq_of_byteLength_eq {first second rest more : List Char} (same : first ++ rest = second ++ more)
    (sized : byteLength first = byteLength second) : first = second := by
  rcases List.append_eq_append_iff.1 same with ⟨gap, rfl, _⟩ | ⟨gap, rfl, _⟩
  · have empty : byteLength gap = 0 := by rw [byteLength_append] at sized; omega
    simp [byteLength_eq_zero.1 empty]
  · have empty : byteLength gap = 0 := by rw [byteLength_append] at sized; omega
    simp [byteLength_eq_zero.1 empty]

@[simp] theorem sliceFrom_append (before after : List Char) :
    sliceFrom (byteLength before) (before ++ after) = some after := by
  induction before with
  | nil => cases after <;> rfl
  | cons c before ih =>
    have positive := c.utf8Size_pos
    obtain ⟨bytes, total⟩ : ∃ bytes, byteLength (c :: before) = bytes + 1 :=
      Nat.exists_eq_add_one.2 (by rw [byteLength_cons]; omega)
    have left : bytes + 1 - c.utf8Size = byteLength before := by rw [byteLength_cons] at total; omega
    rw [total, List.cons_append, sliceFrom, left, if_pos (by rw [byteLength_cons] at total; omega), ih]

@[simp] theorem sliceTo_append (before after : List Char) :
    sliceTo (byteLength before) (before ++ after) = some before := by
  induction before with
  | nil => cases after <;> rfl
  | cons c before ih =>
    have positive := c.utf8Size_pos
    obtain ⟨bytes, total⟩ : ∃ bytes, byteLength (c :: before) = bytes + 1 :=
      Nat.exists_eq_add_one.2 (by rw [byteLength_cons]; omega)
    have left : bytes + 1 - c.utf8Size = byteLength before := by rw [byteLength_cons] at total; omega
    rw [total, List.cons_append, sliceTo, left, if_pos (by rw [byteLength_cons] at total; omega), ih]
    rfl

theorem slice_append (before middle after : List Char) :
    slice (byteLength before) (byteLength before + byteLength middle) (before ++ (middle ++ after)) =
      some middle := by
  simp [slice]

theorem sliceFrom_eq_some {bytes : Nat} {rest : List Char} (cut : sliceFrom bytes text = some rest) :
    ∃ front, text = front ++ rest ∧ byteLength front = bytes := by
  induction text generalizing bytes with
  | nil =>
    cases bytes with
    | zero => exact ⟨[], by simpa [sliceFrom] using cut, rfl⟩
    | succ bytes => exact nomatch cut
  | cons c text ih =>
    cases bytes with
    | zero => exact ⟨[], by simpa [sliceFrom] using cut, rfl⟩
    | succ bytes =>
      rw [sliceFrom] at cut
      split at cut
      · obtain ⟨front, rfl, sized⟩ := ih cut
        exact ⟨c :: front, rfl, by rw [byteLength_cons]; omega⟩
      · exact nomatch cut

/-! ### Lines -/

theorem linesWithEnds_line {body : List Char} (inside : '\n' ∉ body) (rest : List Char) :
    linesWithEnds (body ++ '\n' :: rest) = (body ++ ['\n']) :: linesWithEnds rest := by
  induction body with
  | nil => rfl
  | cons c body ih =>
    obtain ⟨other, more⟩ := List.ne_and_not_mem_of_not_mem_cons inside
    simp [linesWithEnds, Ne.symm other, ih more]

theorem linesWithEnds_last {body : List Char} (inside : '\n' ∉ body) :
    linesWithEnds body = if body = [] then [] else [body] := by
  induction body with
  | nil => rfl
  | cons c body ih =>
    obtain ⟨other, more⟩ := List.ne_and_not_mem_of_not_mem_cons inside
    by_cases empty : body = []
    · simp [linesWithEnds, Ne.symm other, empty]
    · simp [linesWithEnds, Ne.symm other, ih more, empty]

/-- Whole lines one after the other, the last of which may have no newline. -/
inductive Lines : List (List Char) → Prop
  | nil : Lines []
  | last {body : List Char} (inside : '\n' ∉ body) (nonempty : body ≠ []) : Lines [body]
  | cons {body : List Char} {lines : List (List Char)} (inside : '\n' ∉ body) (more : Lines lines) :
      Lines ((body ++ ['\n']) :: lines)

theorem line_cases (text : List Char) : '\n' ∉ text ∨ ∃ body rest, '\n' ∉ body ∧ text = body ++ '\n' :: rest := by
  by_cases inside : '\n' ∈ text
  · obtain ⟨body, rest, rfl, first⟩ := List.eq_append_cons_of_mem inside
    exact .inr ⟨body, rest, first, rfl⟩
  · exact .inl inside

theorem lines_linesWithEnds (text : List Char) : Lines (linesWithEnds text) ∧ (linesWithEnds text).flatten = text := by
  -- The text is cut line by line, so the induction is on its length.
  induction sized : text.length using Nat.strongRecOn generalizing text with
  | ind length ih =>
    rcases line_cases text with inside | ⟨body, rest, inside, rfl⟩
    · rw [linesWithEnds_last inside]
      by_cases empty : text = []
      · simp [empty, Lines.nil]
      · simp [empty, Lines.last inside empty]
    · obtain ⟨lines, whole⟩ := ih rest.length (by simp [← sized]; omega) rest rfl
      rw [linesWithEnds_line inside, List.flatten_cons, whole]
      exact ⟨.cons inside lines, by simp⟩

@[simp] theorem flatten_linesWithEnds (text : List Char) : (linesWithEnds text).flatten = text :=
  (lines_linesWithEnds text).2

theorem Lines.linesWithEnds_flatten {lines : List (List Char)} (whole : Lines lines) :
    linesWithEnds lines.flatten = lines := by
  induction whole with
  | nil => rfl
  | last inside nonempty => simp [linesWithEnds_last inside, nonempty]
  | cons inside _ ih => simp [linesWithEnds_line inside, ih]

theorem Lines.ne_nil {lines : List (List Char)} (whole : Lines lines) : [] ∉ lines := by
  induction whole with
  | nil => simp
  | last _ nonempty => simp [nonempty.symm]
  | cons _ _ ih => simp [ih]

theorem Lines.ended {before after : List (List Char)} (whole : Lines (before ++ after)) (behind : after ≠ []) :
    ∀ line ∈ before, line.getLast? = some '\n' := by
  induction before with
  | nil => simp
  | cons first before ih =>
    rw [List.cons_append] at whole
    generalize rest : before ++ after = lines at whole
    cases whole with
    | last => simp [behind] at rest
    | cons inside more => exact List.forall_mem_cons.2 ⟨by simp, ih (rest ▸ more)⟩

/-- A text ends with a newline, if there is anything in it. -/
def Ended (text : List Char) : Prop := ∀ last, text.getLast? = some last → last = '\n'

theorem ended_iff : Ended text ↔ text = [] ∨ text.getLast? = some '\n' := by
  rw [Ended]
  cases last : text.getLast? with
  | none => simp [List.getLast?_eq_none_iff.1 last]
  | some c =>
    have nonempty : text ≠ [] := by
      rintro rfl
      exact nomatch last
    simp [nonempty]

namespace Ended

variable {first second : List Char}

theorem nil : Ended [] := nofun

theorem of_getLast? (ends : first.getLast? = some '\n') : Ended first :=
  fun _ last => Option.some.inj (last.symm.trans ends)

theorem append (one : Ended first) (two : Ended second) : Ended (first ++ second) := by
  intro last ends
  rw [List.getLast?_append] at ends
  cases behind : second.getLast? with
  | none => exact one last (by simpa [behind] using ends)
  | some other => exact two last (by simpa [behind] using ends)

theorem of_append (whole : Ended (first ++ second)) : Ended second := by
  intro last ends
  exact whole last (by simp [List.getLast?_append, ends])

theorem flatten {lines : List (List Char)} (each : ∀ line ∈ lines, Ended line) : Ended lines.flatten := by
  induction lines with
  | nil => exact nil
  | cons line lines ih =>
    obtain ⟨one, more⟩ := List.forall_mem_cons.1 each
    exact one.append (ih more)

end Ended

end Codel00p
