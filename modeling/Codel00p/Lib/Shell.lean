import Mathlib.Data.List.Basic

/-!
How a POSIX shell reads a command line: tokens, quote removal, and lists of simple commands.

The reader covers blanks, single quotes, backslashes, plain words, and the operators `&&`, `;`, `>`.
A line that needs more of the language, such as an expansion, is not read at all.
-/

namespace Codel00p.Shell

/-- A word after quote removal, with whether no part of it was quoted, or an operator. -/
inductive Token where
  | word (text : List Char) (bare : Bool)
  | operator (symbol : List Char)
  deriving DecidableEq, Repr

inductive Reading where
  | outside (word : Option (List Char × Bool))
  | quoted (text : List Char)
  | escaped (text : List Char)
  | ampersand
  deriving DecidableEq, Repr

/-- The characters that stand for themselves outside quotes. -/
def isPlain (c : Char) : Bool := c.isAlphanum || c == '-' || c == '_' || c == '/' || c == '.'

def textOf (word : Option (List Char × Bool)) : List Char := (word.map Prod.fst).getD []

def ended (word : Option (List Char × Bool)) : List Token := (word.map fun parts => .word parts.1 parts.2).toList

/-- Read characters into tokens. -/
def tokens : Reading → List Char → Option (List Token)
  | .outside word, [] => some (ended word)
  | .outside word, c :: rest =>
    if c = ' ' ∨ c = '\t' then (tokens (.outside none) rest).map (ended word ++ ·)
    else if c = '\'' then tokens (.quoted (textOf word)) rest
    else if c = '\\' then tokens (.escaped (textOf word)) rest
    else if c = '&' then (tokens .ampersand rest).map (ended word ++ ·)
    else if c = ';' ∨ c = '>' then
      (tokens (.outside none) rest).map (ended word ++ .operator [c] :: ·)
    else if isPlain c then
      tokens (.outside (some (textOf word ++ [c], (word.map Prod.snd).getD true))) rest
    else none
  -- An unfinished quoting or operator is an error at the end of the line.
  | .quoted _, [] | .escaped _, [] | .ampersand, [] => none
  | .quoted text, c :: rest =>
    if c = '\'' then tokens (.outside (some (text, false))) rest
    else tokens (.quoted (text ++ [c])) rest
  -- A backslash before a line break joins two lines, which a command line does not have.
  | .escaped text, c :: rest =>
    if c = '\n' then none else tokens (.outside (some (text ++ [c], false))) rest
  | .ampersand, c :: rest =>
    if c = '&' then (tokens (.outside none) rest).map (.operator ['&', '&'] :: ·) else none

/-- The words with a meaning of their own at the front of a command, unless quoted. -/
def reserved : List String :=
  ["if", "then", "else", "elif", "fi", "do", "done", "case", "esac", "while", "until", "for", "in"]

/-- The simple commands of a list joined by `&&`, each with its words. -/
def andList (command : List String) : List Token → Option (List (List String))
  | [] => if command.isEmpty then none else some [command]
  | .word text bare :: rest =>
    if command.isEmpty ∧ bare = true ∧ String.ofList text ∈ reserved then none
    else andList (command ++ [String.ofList text]) rest
  | .operator symbol :: rest =>
    if command.isEmpty = false ∧ symbol = ['&', '&'] then (andList [] rest).map (command :: ·)
    else none

/-- What a shell runs for a command line: its simple commands, each with its words. -/
def read (line : String) : Option (List (List String)) :=
  if '\x00' ∈ line.toList then none else (tokens (.outside none) line.toList).bind (andList [])

@[simp] theorem tokens_end (text : List Char) (bare : Bool) :
    tokens (.outside (some (text, bare))) [] = some [.word text bare] := rfl

@[simp] theorem tokens_blank (word : Option (List Char × Bool)) (rest : List Char) :
    tokens (.outside word) (' ' :: rest) = (tokens (.outside none) rest).map (ended word ++ ·) := by
  simp [tokens]

theorem tokens_plain {c : Char} (plain : isPlain c = true) (word : Option (List Char × Bool)) (rest : List Char) :
    tokens (.outside word) (c :: rest) =
      tokens (.outside (some (textOf word ++ [c], (word.map Prod.snd).getD true))) rest := by
  have apart : ∀ d, isPlain d = false → c ≠ d := by
    rintro d special rfl
    simp [special] at plain
  simp [tokens, plain, apart ' ' (by decide), apart '\t' (by decide), apart '\'' (by decide),
    apart '\\' (by decide), apart '&' (by decide), apart ';' (by decide), apart '>' (by decide)]

theorem tokens_plain_onward (front text rest : List Char) (plain : ∀ c ∈ text, isPlain c = true) :
    tokens (.outside (some (front, true))) (text ++ ' ' :: rest) =
      (tokens (.outside none) rest).map (.word (front ++ text) true :: ·) := by
  induction text generalizing front with
  | nil => simp [ended]
  | cons c text ih =>
    rw [List.cons_append, tokens_plain (plain c List.mem_cons_self)]
    simpa [textOf] using ih (front ++ [c]) fun d member => plain d (.tail _ member)

theorem tokens_word (text rest : List Char) (plain : ∀ c ∈ text, isPlain c = true) (nonempty : text ≠ []) :
    tokens (.outside none) (text ++ ' ' :: rest) = (tokens (.outside none) rest).map (.word text true :: ·) := by
  cases text with
  | nil => exact absurd rfl nonempty
  | cons c text =>
    rw [List.cons_append, tokens_plain (plain c List.mem_cons_self)]
    exact tokens_plain_onward [c] text rest fun d member => plain d (.tail _ member)

theorem andList_words (command : List String) (words : List (List Char × Bool)) (rest : List Token)
    (started : command ≠ []) : andList command (words.map (fun word => .word word.1 word.2) ++ rest) =
      andList (command ++ words.map fun word => String.ofList word.1) rest := by
  induction words generalizing command with
  | nil => simp
  | cons word words ih =>
    rw [List.map_cons, List.cons_append, andList, if_neg (by simp [started]), ih _ (by simp)]
    simp

end Codel00p.Shell
