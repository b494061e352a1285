import Mathlib.Data.String.Basic
import Codel00p.Lib.Slices

/-! The places of a text, counted in bytes, that are between its characters. -/

namespace Codel00p

variable {text : List Char} {index : Nat}

/-- Whether a place is at either end of a text or between two of its characters. -/
def isCharBoundary (text : List Char) (index : Nat) : Bool := (sliceTo index text).isSome

/-- A character of a text lies across a place. -/
def Straddled (text : List Char) (index : Nat) : Prop :=
  ∃ before c after, text = before ++ c :: after ∧ byteLength before < index ∧ index < byteLength before + c.utf8Size

theorem utf8ByteSize_eq_byteLength (text : String) : text.utf8ByteSize = byteLength text.toList := by
  rw [← String.utf8Len_toList]
  induction text.toList with
  | nil => rfl
  | cons c rest ih => rw [String.utf8Len, ih, byteLength_cons, Nat.add_comm]

theorem sliceTo_eq_some {front : List Char} (cut : sliceTo index text = some front) :
    ∃ rest, text = front ++ rest ∧ byteLength front = index := by
  -- The cut goes through the text one character at a time.
  induction text generalizing index front with
  | nil =>
    cases index with
    | zero => exact ⟨[], by simp [← Option.some.inj cut], by simp [← Option.some.inj cut]⟩
    | succ index => cases cut
  | cons c text ih =>
    cases index with
    | zero => exact ⟨c :: text, by simp [← Option.some.inj cut], by simp [← Option.some.inj cut]⟩
    | succ index =>
      rw [sliceTo] at cut
      split at cut
      · obtain ⟨shorter, within, rfl⟩ := Option.map_eq_some_iff.1 cut
        obtain ⟨rest, rfl, sized⟩ := ih within
        exact ⟨rest, rfl, by rw [byteLength_cons]; omega⟩
      · cases cut

theorem isCharBoundary_iff :
    isCharBoundary text index = true ↔ ∃ front rest, text = front ++ rest ∧ byteLength front = index := by
  constructor
  · intro between
    obtain ⟨front, cut⟩ := Option.isSome_iff_exists.1 between
    obtain ⟨rest, whole, sized⟩ := sliceTo_eq_some cut
    exact ⟨front, rest, whole, sized⟩
  · rintro ⟨front, rest, rfl, rfl⟩
    simp [isCharBoundary]

/-- A place of a text is between characters unless one lies across it. -/
theorem isCharBoundary_iff_not_straddled :
    isCharBoundary text index = true ↔ index ≤ byteLength text ∧ ¬Straddled text index := by
  constructor
  · intro between
    obtain ⟨front, rest, rfl, rfl⟩ := isCharBoundary_iff.1 between
    refine ⟨by simp, ?_⟩
    rintro ⟨before, c, after, whole, starts, stops⟩
    -- The character is either within the part that ends here or behind it.
    rcases List.append_eq_append_iff.1 whole with ⟨gap, rfl, _⟩ | ⟨gap, rfl, behind⟩
    · rw [byteLength_append] at starts
      omega
    · cases gap with
      | nil => simp at starts
      | cons first gap =>
        obtain ⟨rfl, _⟩ := List.cons.inj behind
        rw [byteLength_append, byteLength_cons] at stops
        omega
  · rintro ⟨inside, clear⟩
    induction text generalizing index with
    | nil =>
      obtain rfl : index = 0 := by simpa using inside
      rfl
    | cons c text ih =>
      by_cases start : index = 0
      · exact isCharBoundary_iff.2 ⟨[], c :: text, rfl, start.symm⟩
      · have past : c.utf8Size ≤ index := by
          by_contra short
          exact clear ⟨[], c, text, rfl, by simp only [byteLength_nil]; omega, by
            simp only [byteLength_nil]; omega⟩
        -- The rest of the text is cut at the place that is left.
        have between : isCharBoundary text (index - c.utf8Size) = true := by
          apply ih
          · rw [byteLength_cons] at inside
            omega
          · rintro ⟨before, other, after, rfl, starts, stops⟩
            refine clear ⟨c :: before, other, after, rfl, ?_, ?_⟩
            · rw [byteLength_cons]
              omega
            · rw [byteLength_cons]
              omega
        obtain ⟨front, rest, rfl, sized⟩ := isCharBoundary_iff.1 between
        exact isCharBoundary_iff.2 ⟨c :: front, rest, rfl, by rw [byteLength_cons]; omega⟩

theorem exists_parts {start stop : Nat} (first : isCharBoundary text start = true)
    (second : isCharBoundary text stop = true) (ordered : start ≤ stop) :
    ∃ front middle rest, text = front ++ (middle ++ rest) ∧ byteLength front = start ∧
      byteLength front + byteLength middle = stop := by
  obtain ⟨front, behind, rfl, rfl⟩ := isCharBoundary_iff.1 first
  obtain ⟨longer, rest, whole, sized⟩ := isCharBoundary_iff.1 second
  rcases List.append_eq_append_iff.1 whole with ⟨middle, rfl, rfl⟩ | ⟨gap, rfl, rfl⟩
  · exact ⟨front, middle, rest, rfl, rfl, by rw [← sized, byteLength_append]⟩
  · -- The longer part is no shorter, so there is nothing between the two.
    rw [byteLength_append] at ordered
    have empty : gap = [] := byteLength_eq_zero.1 (by omega)
    subst empty
    exact ⟨longer, [], behind, by simp, by simp, by simpa using sized⟩

theorem sliceFrom_isSome : (sliceFrom index text).isSome = isCharBoundary text index := by
  rw [Bool.eq_iff_iff, isCharBoundary_iff, Option.isSome_iff_exists]
  constructor
  · rintro ⟨rest, cut⟩
    obtain ⟨front, whole, sized⟩ := sliceFrom_eq_some cut
    exact ⟨front, rest, whole, sized⟩
  · rintro ⟨front, rest, rfl, rfl⟩
    exact ⟨rest, sliceFrom_append front rest⟩

/-! ### Cuts one after the other -/

theorem isSome_bind_pure {α β : Type} (answer : Option α) (made : α → β) :
    (answer >>= fun value => pure (made value)).isSome = answer.isSome := by
  cases answer with
  | none => rfl
  | some value => rfl

theorem mapM_isSome_iff {α β : Type} (answer : α → Option β) (items : List α) :
    (items.mapM answer).isSome = true ↔ ∀ item ∈ items, (answer item).isSome = true := by
  induction items with
  | nil => simp
  | cons item items ih =>
    rw [List.mapM_cons, List.forall_mem_cons, ← ih]
    cases answer item with
    | none => simp
    | some first => simpa using isSome_bind_pure (items.mapM answer) (first :: ·)

end Codel00p
