import Codel00p.Lib.Numeral
import Codel00p.Lib.Text

/-! Cutting a text into the pieces between separators, and reading the numbers among them. -/

namespace Codel00p

/-- Put a piece in front of others, unless it is empty. -/
def closePiece (piece : List Char) (pieces : List String) : List String :=
  if piece.isEmpty then pieces else String.ofList piece.reverse :: pieces

/-- The pieces of a text from the first character on, with the piece that was begun in reverse. -/
def piecesFrom (separates : Char → Bool) (piece : List Char) : List Char → List String
  | [] => closePiece piece []
  | c :: rest =>
    if separates c then closePiece piece (piecesFrom separates [] rest)
    else piecesFrom separates (c :: piece) rest

variable {separates : Char → Bool}

theorem splitPieces_eq (separates : Char → Bool) (text : String) :
    splitPieces separates text = piecesFrom separates [] text.toList := by
  -- The loop keeps the pieces so far in reverse, and the one that was begun.
  have general : ∀ (chars piece : List Char) (pieces : List String),
      (closePiece (chars.foldl (fun (state : List Char × List String) c =>
          if separates c then ([], closePiece state.1 state.2) else (c :: state.1, state.2)) (piece, pieces)).1
        (chars.foldl (fun (state : List Char × List String) c =>
          if separates c then ([], closePiece state.1 state.2) else (c :: state.1, state.2)) (piece, pieces)).2).reverse =
        pieces.reverse ++ piecesFrom separates piece chars := by
    intro chars
    induction chars with
    | nil =>
      intro piece pieces
      cases piece with
      | nil | cons => simp [piecesFrom, closePiece]
    | cons c chars ih =>
      intro piece pieces
      rw [List.foldl_cons, piecesFrom]
      split
      · rw [ih]
        simp only [closePiece]
        split
        · simp
        · simp
      · rw [ih]
  exact general text.toList [] []

variable {front : List Char}

theorem piecesFrom_append (inside : ∀ c ∈ front, separates c = false) (piece rest : List Char) :
    piecesFrom separates piece (front ++ rest) = piecesFrom separates (front.reverse ++ piece) rest := by
  induction front generalizing piece with
  | nil => rfl
  | cons c front ih =>
    obtain ⟨first, more⟩ := List.forall_mem_cons.1 inside
    rw [List.cons_append, piecesFrom, first, if_neg (by simp), ih more]
    simp

theorem splitPieces_piece (nonempty : front ≠ []) (inside : ∀ c ∈ front, separates c = false)
    {separator : Char} (ends : separates separator = true) (rest : List Char) :
    splitPieces separates (String.ofList (front ++ separator :: rest)) =
      String.ofList front :: splitPieces separates (String.ofList rest) := by
  rw [splitPieces_eq, splitPieces_eq, String.toList_ofList, String.toList_ofList, piecesFrom_append inside,
    piecesFrom, if_pos ends, closePiece, if_neg (by simpa using nonempty)]
  simp

theorem splitPieces_last (nonempty : front ≠ []) (inside : ∀ c ∈ front, separates c = false) :
    splitPieces separates (String.ofList front) = [String.ofList front] := by
  have whole := piecesFrom_append inside [] []
  rw [List.append_nil, List.append_nil] at whole
  rw [splitPieces_eq, String.toList_ofList, whole, piecesFrom, closePiece, if_neg (by simpa using nonempty)]
  simp

theorem toList_toString (value : Nat) : (toString value).toList = Nat.toDigits 10 value := by
  simp [toString, Nat.repr]

theorem parseUsize_toString {value : Nat} (fits : value < 2 ^ 64) : parseUsize (toString value) = some value := by
  have digits := isDigitOf_toDigits (by omega : 1 < 10) (Nat.le_refl 10) value
  have decimal : (Nat.toDigits 10 value).all Char.isDigit = true := by
    refine List.all_eq_true.2 fun c member => ?_
    have digit := digits c member
    simp only [isDigitOf, Bool.and_eq_true, decide_eq_true_eq] at digit
    simp only [Char.isDigit, Bool.and_eq_true, decide_eq_true_eq, UInt32.le_iff_toNat_le]
    exact ⟨digit.1, by have below : c.toNat < 58 := digit.2; exact Nat.le_of_lt_succ below⟩
  have nonempty : (Nat.toDigits 10 value).isEmpty = false := List.isEmpty_eq_false_iff.2 Nat.toDigits_ne_nil
  have reads : (Nat.toDigits 10 value).foldl (fun value digit => value * 10 + (digit.toNat - '0'.toNat)) 0 = value := by
    have back : Nat.ofDigitChars 10 (Nat.toDigits 10 value) 0 = value :=
      Nat.ofDigitChars_toDigits (by omega) (Nat.le_refl 10)
    simpa only [Nat.ofDigitChars, Nat.mul_comm 10] using back
  simp only [parseUsize, toList_toString]
  split
  · -- A plus sign is no digit.
    next sign =>
    have plus := digits '+' (by rw [sign]; exact List.mem_cons_self)
    simp [isDigitOf] at plus
  · rw [decimal, nonempty, reads]
    simp only [Bool.not_true, Bool.or_self, Bool.false_eq_true, if_false]
    rw [if_pos (by omega)]

end Codel00p
