import Codel00p.Lib.Text

/-!
The find/replace engine of `apply_patch`.

Texts are lists of characters and places in them are counted in bytes. A cut inside a character
stops the program, which is the case of no answer.
-/

namespace Codel00p.Patch

/-- Result of applying a single change to a file's contents. -/
structure ChangeOutcome where
  patched : List Char
  replacements : Nat
  strategy : String
  deriving DecidableEq, Repr

/-- An occurrence of the text to find: where it is, and what is written in its place. -/
structure Located where
  start : Nat
  stop : Nat
  replacement : List Char
  deriving DecidableEq, Repr

/-- Where the newlines of a text are, counted from a place. -/
def newlineOffsets : Nat → List Char → List Nat
  | _, [] => []
  | offset, c :: rest =>
    if c = '\n' then offset :: newlineOffsets (offset + 1) rest
    else newlineOffsets (offset + c.utf8Size) rest

def cutAfter (text : List Char) : Nat → List Nat → Option (List (List Char))
  | start, [] => do
    if start < byteLength text then
      let last ← sliceFrom start text
      return [last]
    else return []
  | start, offset :: offsets => do
    let line ← slice start (offset + 1) text
    let lines ← cutAfter text (offset + 1) offsets
    return line :: lines

/-- Split into lines while keeping each line's trailing newline. -/
def splitKeepEnds (text : List Char) : Option (List (List Char)) := cutAfter text 0 (newlineOffsets 0 text)

/-- Strip a trailing newline and a carriage return before it. -/
def stripEol (line : List Char) : List Char :=
  if line.getLast? = some '\n' then
    let body := line.dropLast
    if body.getLast? = some '\r' then body.dropLast else body
  else line

def dropEnd (dropped : Char → Bool) (line : List Char) : List Char := (line.reverse.dropWhile dropped).reverse

/-- Whether a line is nothing but white space. -/
def blank (line : List Char) : Bool := line.all isWhitespace

def leadingWhitespace (line : List Char) : Option (List Char) :=
  sliceTo (byteLength (line.takeWhile isWhitespace)) line

def locateWindows (window : Nat) (fits : List (List Char) → Bool)
    (replacement : List (List Char) → Option (List Char)) :
    Nat → Nat → List (List Char) → Option (List Located)
  | 0, _, _ => some []
  | fuel + 1, offset, lines => do
    if lines.length < window then return []
    else if fits (lines.take window) then
      let stop := offset + byteLength (lines.take window).flatten
      let text ← replacement (lines.take window)
      let more ← locateWindows window fits replacement fuel stop (lines.drop window)
      return { start := offset, stop, replacement := text } :: more
    else
      let next := offset + byteLength (lines.headD [])
      locateWindows window fits replacement fuel next (lines.drop 1)

def locateKeyed (key : List Char → List Char) (replacement : List (List Char) → Option (List Char))
    (original find : List Char) : Option (List Located) := do
  let findLines ← splitKeepEnds find
  if findLines.isEmpty then return []
  else
    let lines ← splitKeepEnds original
    let keyed := fun (line : List Char) => key (stripEol line)
    locateWindows findLines.length (fun window => window.map keyed == findLines.map keyed) replacement
      lines.length 0 lines

def locateByLine (normalize : List Char → List Char) (original find replace : List Char) :
    Option (List Located) :=
  locateKeyed normalize (fun _ => some replace) original find

def locateTrailingWhitespace : List Char → List Char → List Char → Option (List Located) :=
  locateByLine (dropEnd isWhitespace)

def locateLineEnding : List Char → List Char → List Char → Option (List Located) := locateByLine (dropEnd (· == '\r'))

def commonIndent (lines : List (List Char)) : Option Nat := do
  let indents ← (lines.filter fun line => !blank (stripEol line)).mapM fun line =>
    leadingWhitespace (stripEol line)
  return ((indents.map byteLength).min?).getD 0

/-- One line of a replacement with its own indentation exchanged. -/
def reindentLine (baseIndent : List Char) (common : Nat) (line : List Char) : Option (List Char) := do
  let body := stripEol line
  let eol ← sliceFrom (byteLength body) line
  if blank body then return body ++ eol
  else
    let rest ← sliceFrom common body
    return baseIndent ++ rest ++ eol

/-- Re-indent the non-blank lines of a replacement so that the least indented one sits at an indentation. -/
def reindent (replace baseIndent : List Char) : Option (List Char) := do
  let lines ← splitKeepEnds replace
  if lines.isEmpty then return replace
  else
    let common ← commonIndent lines
    let reindented ← lines.mapM (reindentLine baseIndent common)
    return reindented.flatten

/-- Match line by line, ignoring leading white space, and re-indent the replacement to the file. -/
def locateIndentation (original find replace : List Char) : Option (List Located) :=
  locateKeyed (·.dropWhile isWhitespace) (fun window => do
    let baseIndent ← leadingWhitespace (stripEol (window.headD []))
    reindent replace baseIndent) original find

/--
Exact matching from a place on.

Every match takes up characters, so there are at most as many as the text has; the caller has
made sure that there is something to find.
-/
def locateExactFrom (original find replace : List Char) : Nat → Nat → Option (List Located)
  | 0, _ => some []
  | fuel + 1, start => do
    let rest ← sliceFrom start original
    match splitOnceChars find rest with
    | none => return []
    | some (before, _) =>
      let found := start + byteLength before
      let stop := found + byteLength find
      let more ← locateExactFrom original find replace fuel stop
      return { start := found, stop, replacement := replace } :: more

/-- Exact matching, the fast path. -/
def locateExact (original find replace : List Char) : Option (List Located) :=
  locateExactFrom original find replace (original.length + 1) 0

/-- Replace the located places one after the other. -/
def spliceFrom (original : List Char) : Nat → List Located → Option (List Char)
  | cursor, [] => sliceFrom cursor original
  | cursor, located :: rest => do
    let kept ← slice cursor located.start original
    let more ← spliceFrom original located.stop rest
    return kept ++ located.replacement ++ more

/-- Replace each located place, keeping every byte outside of them. -/
def splice (original : List Char) (located : List Located) : Option (List Char) :=
  spliceFrom original 0 (located.mergeSort fun a b => a.start ≤ b.start)

section

/- Which characters are shown as they are in a quoted text; the others are escaped by their code. -/
variable (printable : Char → Bool)

/-- A character of a quoted text. -/
def escapeDebug (c : Char) : List Char :=
  match c with
  | '\x00' => ['\\', '0']
  | '\t' => ['\\', 't']
  | '\r' => ['\\', 'r']
  | '\n' => ['\\', 'n']
  | '"' => ['\\', '"']
  | '\\' => ['\\', '\\']
  | c =>
    if printable c then [c]
    else ['\\', 'u', Char.ofNat 0x7B] ++ Nat.toDigits 16 c.toNat ++ [Char.ofNat 0x7D]

def quoted (text : List Char) : String := String.ofList ('"' :: text.flatMap (escapeDebug printable) ++ ['"'])

/-- Length of the shared leading part of two texts. -/
def sharedPrefixLen (a b : List Char) : Nat := ((a.zip b).takeWhile fun (x, y) => x == y).length

def trimmed (text : List Char) : List Char := dropEnd isWhitespace (text.dropWhile isWhitespace)

/-- A text with single blanks between its words. -/
def collapsed (text : List Char) : String := " ".intercalate (splitPieces isWhitespace (String.ofList text))

/-- The line with the longest shared beginning, the first one among equals. -/
def closestLine (target : List Char) (lines : List (List Char)) : Option (List Char) :=
  (lines.foldl (fun (best : Option (Nat × List Char)) line =>
    let score := sharedPrefixLen (trimmed line) target
    if score = 0 then best
    else match best with
      | some (bestScore, _) => if score ≤ bestScore then best else some (score, line)
      | none => some (score, line)) none).map (·.2)

def notFoundHint (original find : List Char) : String :=
  let lines := (linesWithEnds original).map stripEol
  let findFirst := trimmed ((((linesWithEnds find).map stripEol).head?).getD [])
  if findFirst.isEmpty then "find text was not present"
  else
    let differing := lines.find? fun line =>
      collapsed line == collapsed findFirst && trimmed line != findFirst
    match differing with
    | some line =>
      "find text was not present; a line differs only in whitespace: " ++ quoted printable line
    | none =>
      match closestLine findFirst lines with
      | some line => "find text was not present; closest line is: " ++ quoted printable (trimmed line)
      | none => "find text was not present"

/-- The ways to locate a text, in the order in which they are tried. -/
def strategies : List (String × (List Char → List Char → List Char → Option (List Located))) :=
  [("exact", locateExact), ("line-ending", locateLineEnding),
    ("trailing-whitespace", locateTrailingWhitespace), ("indentation", locateIndentation)]

/-- What is said when there is more than one match. -/
def ambiguous (count : Nat) (strategy : String) : String :=
  "found " ++ toString count ++ " matches for the `find` text via " ++ strategy
    ++ " matching; add surrounding context so it is unique, or set `replace_all` to true to replace "
    ++ "every occurrence"

/-- Apply the first of some strategies that yields a match. -/
def applyStrategies (original find replace : List Char) (replaceAll : Bool) :
    List (String × (List Char → List Char → List Char → Option (List Located))) → Option (Except String ChangeOutcome)
  | [] => some (.error (notFoundHint printable original find))
  | (strategy, locate) :: rest => do
    let located ← locate original find replace
    if located.isEmpty then applyStrategies original find replace replaceAll rest
    else if 1 < located.length && !replaceAll then return .error (ambiguous located.length strategy)
    else
      let patched ← splice original located
      return .ok { patched, replacements := located.length, strategy }

def applyChange (original find replace : List Char) (replaceAll : Bool) :
    Option (Except String ChangeOutcome) :=
  applyStrategies printable original find replace replaceAll strategies

end

end Codel00p.Patch
