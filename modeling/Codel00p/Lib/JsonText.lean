import Codel00p.Lib.Json

/-! How texts and nested arrays are written in JSON, and when they are read back. -/

namespace Codel00p.JsonText

/-- The lowercase hexadecimal digit of a number below sixteen. -/
def hexDigit (value : Nat) : Char :=
  if value < 10 then Char.ofNat (48 + value) else Char.ofNat (87 + value)

/-- The number of a hexadecimal digit. -/
def hexValue (digit : Char) : Nat :=
  if digit.toNat < 58 then digit.toNat - 48 else digit.toNat - 87

/-- A character inside quotes: quotes, backslashes, and control characters are escaped. -/
def escapeChar (c : Char) : List Char :=
  if c = '"' then ['\\', '"']
  else if c = '\\' then ['\\', '\\']
  else if c = '\n' then ['\\', 'n']
  else if c = '\r' then ['\\', 'r']
  else if c = '\t' then ['\\', 't']
  else if c.toNat = 8 then ['\\', 'b']
  else if c.toNat = 12 then ['\\', 'f']
  else if c.toNat < 32 then ['\\', 'u', '0', '0', hexDigit (c.toNat / 16), hexDigit (c.toNat % 16)]
  else [c]

def quote (text : String) : List Char := '"' :: text.toList.flatMap escapeChar ++ ['"']

def quoteOption : Option String → List Char
  | none => ['n', 'u', 'l', 'l']
  | some text => quote text

/-- A member of an object: what stands before its value, and the value. -/
def field (label : String) (value : Option String) : List Char := label.toList ++ quoteOption value

/-- Read the first character of what is inside quotes, escaped or not. -/
def unescapeChar : List Char → Option (Char × List Char)
  | '\\' :: 'u' :: _ :: _ :: high :: low :: rest =>
    some (Char.ofNat (hexValue high * 16 + hexValue low), rest)
  | '\\' :: 'n' :: rest => some ('\n', rest)
  | '\\' :: 'r' :: rest => some ('\r', rest)
  | '\\' :: 't' :: rest => some ('\t', rest)
  | '\\' :: 'b' :: rest => some (Char.ofNat 8, rest)
  | '\\' :: 'f' :: rest => some (Char.ofNat 12, rest)
  | '\\' :: c :: rest => some (c, rest)
  | c :: rest => some (c, rest)
  | [] => none

theorem hexValue_hexDigit {value : Nat} (small : value < 16) : hexValue (hexDigit value) = value := by
  have each : ∀ digit : Fin 16, hexValue (hexDigit digit) = digit := by decide
  exact each ⟨value, small⟩

theorem char_eq_of_toNat {c : Char} {value : Nat} (same : c.toNat = value) : c = Char.ofNat value := by
  rw [← same, Char.ofNat_toNat]

theorem unescapeChar_escapeChar (c : Char) (rest : List Char) :
    unescapeChar (escapeChar c ++ rest) = some (c, rest) := by
  unfold escapeChar
  -- The cases are those of the writer, each undone by the reader's case for its letter.
  by_cases quoteMark : c = '"'
  · simp [quoteMark, unescapeChar]
  by_cases backslash : c = '\\'
  · simp [backslash, unescapeChar]
  by_cases newline : c = '\n'
  · simp [newline, unescapeChar]
  by_cases feedback : c = '\r'
  · simp [feedback, unescapeChar]
  by_cases tab : c = '\t'
  · simp [tab, unescapeChar]
  by_cases back : c.toNat = 8
  · rw [char_eq_of_toNat back]
    rfl
  by_cases feed : c.toNat = 12
  · rw [char_eq_of_toNat feed]
    rfl
  by_cases control : c.toNat < 32
  · simp only [if_neg quoteMark, if_neg backslash, if_neg newline, if_neg feedback, if_neg tab,
      if_neg back, if_neg feed, if_pos control, List.cons_append, List.nil_append, unescapeChar]
    have high : c.toNat / 16 < 16 := by omega
    have low : c.toNat % 16 < 16 := by omega
    rw [hexValue_hexDigit high, hexValue_hexDigit low, Nat.div_add_mod', Char.ofNat_toNat]
  · simp only [if_neg quoteMark, if_neg backslash, if_neg newline, if_neg feedback, if_neg tab,
      if_neg back, if_neg feed, if_neg control, List.cons_append, List.nil_append]
    unfold unescapeChar
    split <;> simp_all

theorem escapeChar_head_ne (c : Char) (rest tail : List Char) : escapeChar c ++ rest ≠ '"' :: tail := by
  unfold escapeChar
  split
  · simp
  · next differ => split_ifs <;> simp [differ]

variable {after after' : List Char}

theorem escaped_append_inj {left right : List Char}
    (same : left.flatMap escapeChar ++ '"' :: after = right.flatMap escapeChar ++ '"' :: after') :
    left = right ∧ after = after' := by
  induction left generalizing right with
  | nil =>
    cases right with
    | nil => exact ⟨rfl, by simpa using same⟩
    | cons c rest =>
      rw [List.flatMap_nil, List.nil_append, List.flatMap_cons, List.append_assoc] at same
      exact absurd same.symm (escapeChar_head_ne c _ _)
  | cons c rest ih =>
    rw [List.flatMap_cons, List.append_assoc] at same
    cases right with
    | nil => exact absurd same (escapeChar_head_ne c _ _)
    | cons d others =>
      -- The reader takes the same first character off both sides.
      rw [List.flatMap_cons, List.append_assoc] at same
      have read := congrArg unescapeChar same
      rw [unescapeChar_escapeChar, unescapeChar_escapeChar] at read
      obtain ⟨rfl, goesOn⟩ := Prod.mk.inj (Option.some.inj read)
      obtain ⟨rfl, rfl⟩ := ih goesOn
      exact ⟨rfl, rfl⟩

theorem quote_append_inj {text other : String}
    (same : quote text ++ after = quote other ++ after') : text = other ∧ after = after' := by
  simp only [quote, List.cons_append, List.append_assoc, List.nil_append, List.cons.injEq, true_and] at same
  obtain ⟨inside, rest⟩ := escaped_append_inj same
  exact ⟨String.toList_inj.1 inside, rest⟩

theorem quoteOption_append_inj {text other : Option String}
    (same : quoteOption text ++ after = quoteOption other ++ after') : text = other ∧ after = after' := by
  cases text with
  | none =>
    cases other with
    | none => exact ⟨rfl, by simpa [quoteOption] using same⟩
    | some other => simp [quoteOption, quote] at same
  | some text =>
    cases other with
    | none => simp [quoteOption, quote] at same
    | some other =>
      obtain ⟨rfl, rest⟩ := quote_append_inj same
      exact ⟨rfl, rest⟩

theorem field_append_inj {label : String} {text other : Option String}
    (same : field label text ++ after = field label other ++ after') : text = other ∧ after = after' := by
  rw [field, field, List.append_assoc, List.append_assoc] at same
  exact quoteOption_append_inj (List.append_cancel_left same)

def nestedText : Json → List Char
  | .array [] => ['[', ']']
  | .array [item] => '[' :: (nestedText item ++ [']'])
  | _ => ['\x7b', '\x7d']

/-- Read such a text down to a depth, and give up below it. -/
def readNested : Nat → List Char → Option (Json × List Char)
  | 0, _ => none
  | _ + 1, '[' :: ']' :: rest => some (.array [], rest)
  | depth + 1, '[' :: rest =>
    match readNested depth rest with
    | some (item, ']' :: rest) => some (.array [item], rest)
    | _ => none
  | _ + 1, '\x7b' :: '\x7d' :: rest => some (.object [], rest)
  | _ + 1, _ => none

/-- How nested arrays are written, and read down to 127 levels. -/
def nestedCodec : JsonCodec where
  parse text := (readNested 127 text.toList).map Prod.fst
  render value := String.ofList (nestedText value)

def nestedArray : Nat → Json
  | 0 => .array []
  | depth + 1 => .array [nestedArray depth]

theorem readNested_nestedText (depth limit : Nat) (rest : List Char) :
    readNested limit (nestedText (nestedArray depth) ++ rest) =
      if depth < limit then some (nestedArray depth, rest) else none := by
  -- Every bracket takes one level off the limit and one level off the array.
  induction depth generalizing limit rest with
  | zero => cases limit <;> simp [readNested, nestedText, nestedArray]
  | succ depth ih =>
    cases limit with
    | zero => simp [readNested]
    | succ limit =>
      -- What is inside opens with a bracket again, so the array is not read as an empty one.
      have opened : ∃ inner, nestedText (nestedArray depth) = '[' :: inner := by
        cases depth <;> exact ⟨_, by simp only [nestedText, nestedArray]; rfl⟩
      have inside : readNested (limit + 1) ('[' :: (nestedText (nestedArray depth) ++ (']' :: rest))) =
          match readNested limit (nestedText (nestedArray depth) ++ (']' :: rest)) with
          | some (item, ']' :: rest) => some (.array [item], rest)
          | _ => none := by
        obtain ⟨inner, text⟩ := opened
        rw [text]
        rfl
      have text : nestedText (nestedArray (depth + 1)) ++ rest =
          '[' :: (nestedText (nestedArray depth) ++ (']' :: rest)) := by
        simp [nestedText, nestedArray]
      rw [text, inside, ih]
      by_cases shallow : depth < limit <;> simp [shallow, nestedArray]

end Codel00p.JsonText
