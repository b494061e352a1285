import Mathlib.Algebra.GroupWithZero.Nat
import Mathlib.Data.List.Basic
import Mathlib.Data.List.DropRight

/-! Text operations on characters: trimming, searching, splitting, and ASCII case. -/

namespace Codel00p

/-- The Unicode `White_Space` property of a character. -/
def isWhitespace (c : Char) : Bool :=
  let code := c.toNat
  -- The ASCII controls and the space come first, then the wider blanks of the other planes.
  (9 ≤ code && code ≤ 13) || code == 0x20 || code == 0x85 || code == 0xA0 || code == 0x1680
    || (0x2000 ≤ code && code ≤ 0x200A) || code == 0x2028 || code == 0x2029 || code == 0x202F
    || code == 0x205F || code == 0x3000

def trimEnd (text : String) : String := String.ofList (text.toList.reverse.dropWhile isWhitespace).reverse

def trimStart (text : String) : String := String.ofList (text.toList.dropWhile isWhitespace)

/-- Text without the white space at either end. -/
def trim (text : String) : String :=
  String.ofList ((text.toList.dropWhile isWhitespace).reverse.dropWhile isWhitespace).reverse

theorem trim_front (text : String) : ((text.toList.dropWhile isWhitespace).reverse.dropWhile isWhitespace).reverse <+:
      text.toList.dropWhile isWhitespace := by
  rw [← List.reverse_suffix, List.reverse_reverse]
  exact List.dropWhile_suffix _

theorem trim_within (text : String) : (trim text).toList <:+: text.toList := by
  rw [trim, String.toList_ofList]
  exact (trim_front text).isInfix.trans (List.dropWhile_suffix _).isInfix

theorem trim_newline (text : String) : trim (text ++ "\n") = trim text := by
  have blank : isWhitespace '\n' = true := by decide
  simp only [trim, String.toList_append, List.dropWhile_append]
  split
  · next none => simp [List.isEmpty_iff.1 none, List.dropWhile, blank]
  · simp [blank]

/-- A trimmed text, when anything is left of it. -/
def nonEmptyFilter (value : String) : Option String :=
  let trimmed := trim value
  if trimmed.isEmpty then none else some trimmed

/-- Whether a text is nothing but white space. -/
def isBlank (text : String) : Bool := (trim text).isEmpty

def toAsciiLowercase (text : String) : String := String.ofList (text.toList.map Char.toLower)

def stripFront (text front : String) : Option String :=
  if front.toList.isPrefixOf text.toList then some (String.ofList (text.toList.drop front.toList.length))
  else none

theorem stripFront_append (front text : String) : stripFront (front ++ text) front = some text := by
  simp [stripFront]

theorem stripFront_eq_some {text front rest : String} : stripFront text front = some rest ↔ text = front ++ rest := by
  constructor
  · intro found
    unfold stripFront at found
    split at found
    · next begins =>
      obtain ⟨after, whole⟩ := List.isPrefixOf_iff_prefix.1 begins
      rw [← whole, List.drop_left] at found
      have same : rest.toList = after := by rw [← Option.some.inj found, String.toList_ofList]
      exact String.toList_injective (by rw [String.toList_append, same, whole])
    · exact nomatch found
  · rintro rfl
    exact stripFront_append front rest

theorem head?_toList_of_eq {text : String} {first : Char} {rest : List Char}
    (spelled : text = String.ofList (first :: rest)) : text.toList.head? = some first := by
  rw [spelled, String.toList_ofList, List.head?_cons]

theorem head?_toList_append {front : String} {first : Char} (begins : front.toList.head? = some first)
    (rest : String) : (front ++ rest).toList.head? = some first := by
  rw [String.toList_append, List.head?_append, begins, Option.some_or]

/-- Cut a text around the first occurrence of a needle. -/
def splitOnceChars (needle : List Char) : List Char → Option (List Char × List Char)
  | [] => if needle.isEmpty then some ([], []) else none
  | c :: rest =>
    if needle.isPrefixOf (c :: rest) then some ([], (c :: rest).drop needle.length)
    else (splitOnceChars needle rest).map fun (before, after) => (c :: before, after)

/-- Cut a text around the first occurrence of a needle. -/
def splitOnce (text needle : String) : Option (String × String) :=
  (splitOnceChars needle.toList text.toList).map fun (before, after) =>
    (String.ofList before, String.ofList after)

def containsText (text needle : String) : Bool := (splitOnce text needle).isSome

def containsAny (text : String) (needles : List String) : Bool := needles.any (containsText text)

/-- The pieces of a text between the characters that satisfy a predicate, the empty ones left out. -/
def splitPieces (separates : Char → Bool) (text : String) : List String :=
  let close := fun (piece : List Char) (pieces : List String) =>
    if piece.isEmpty then pieces else String.ofList piece.reverse :: pieces
  let (piece, pieces) := text.toList.foldl (fun (piece, pieces) c =>
    if separates c then ([], close piece pieces) else (c :: piece, pieces)) ([], [])
  (close piece pieces).reverse

/-- The characters within the first bytes of a text, if the cut does not split a character. -/
def sliceTo : Nat → List Char → Option (List Char)
  | 0, _ => some []
  | _ + 1, [] => none
  | bytes + 1, c :: rest =>
    if c.utf8Size ≤ bytes + 1 then (sliceTo (bytes + 1 - c.utf8Size) rest).map (c :: ·) else none

def byteLength (text : List Char) : Nat := (text.map Char.utf8Size).sum

/-- The characters after the first bytes of a text, if the cut does not split a character. -/
def sliceFrom : Nat → List Char → Option (List Char)
  | 0, text => some text
  | _ + 1, [] => none
  | bytes + 1, c :: rest =>
    if c.utf8Size ≤ bytes + 1 then sliceFrom (bytes + 1 - c.utf8Size) rest else none

/-- The characters between two places of a text, if neither of them is inside a character. -/
def slice (start stop : Nat) (text : List Char) : Option (List Char) :=
  if start ≤ stop then (sliceFrom start text).bind (sliceTo (stop - start)) else none

/-- The lines of a text with the newlines that end them. -/
def linesWithEnds : List Char → List (List Char)
  | [] => []
  | c :: rest =>
    if c = '\n' then [c] :: linesWithEnds rest
    else match linesWithEnds rest with
      | [] => [[c]]
      | line :: lines => (c :: line) :: lines

def stripLineEnd (line : List Char) : List Char :=
  match line.reverse with
  | '\n' :: '\r' :: rest => rest.reverse
  | '\n' :: rest => rest.reverse
  | _ => line

def lines (text : String) : List String :=
  (linesWithEnds text.toList).map fun line => String.ofList (stripLineEnd line)

theorem length_linesWithEnds_le (text : List Char) : (linesWithEnds text).length ≤ text.length := by
  induction text with
  | nil => simp [linesWithEnds]
  | cons c rest ih =>
    rw [linesWithEnds]
    split
    · simpa using ih
    · split
      · simp
      · next line later found =>
        -- The character belongs to the first of the lines behind it.
        rw [found, List.length_cons] at ih
        simp only [List.length_cons]
        omega

theorem length_lines_le (text : String) : (lines text).length ≤ text.toList.length := by
  simpa [lines] using length_linesWithEnds_le text.toList

/-- An unsigned machine-sized number in decimal, with an optional plus sign. -/
def parseUsize (text : String) : Option Nat :=
  let digits := match text.toList with
    | '+' :: rest => rest
    | digits => digits
  if digits.isEmpty || !digits.all Char.isDigit then none
  else
    let value := digits.foldl (fun value digit => value * 10 + (digit.toNat - '0'.toNat)) 0
    if value ≤ 2 ^ 64 - 1 then some value else none

theorem natToString_injective : Function.Injective (toString : Nat → String) := by
  intro first second same
  have digits : Nat.toDigits 10 first = Nat.toDigits 10 second := String.ofList_injective same
  rw [← @Nat.ofDigitChars_toDigits 10 first (by decide) (by decide), digits,
    Nat.ofDigitChars_toDigits (by decide) (by decide)]

end Codel00p
