import Mathlib.Data.List.Basic

/-! Decoding UTF-8 a byte at a time: a character that does not come to its end is replaced as a whole. -/

namespace Codel00p.Utf8

/-- The character that stands for bytes which are no text. -/
def replacement : Char := '�'

/-- The bytes that may continue a character anywhere but after some of the first bytes. -/
def tail : Nat × Nat := (0x80, 0xBF)

/-- The ranges of the bytes that have to follow a first byte, if it can begin a character. -/
def tails (lead : Nat) : Option (List (Nat × Nat)) :=
  if lead < 0x80 then some []
  else if lead < 0xC2 then none
  else if lead < 0xE0 then some [tail]
  -- The second byte is narrowed where a shorter encoding or a surrogate would fit.
  else if lead = 0xE0 then some [(0xA0, 0xBF), tail]
  else if lead = 0xED then some [(0x80, 0x9F), tail]
  else if lead < 0xF0 then some [tail, tail]
  else if lead = 0xF0 then some [(0x90, 0xBF), tail, tail]
  else if lead < 0xF4 then some [tail, tail, tail]
  else if lead = 0xF4 then some [(0x80, 0x8F), tail, tail]
  else none

/-- The character that is made of some bytes. -/
def assemble : List UInt8 → Char
  | [a] => .ofNat a.toNat
  | [a, b] => .ofNat (a.toNat % 32 * 64 + b.toNat % 64)
  | [a, b, c] => .ofNat (a.toNat % 16 * 4096 + b.toNat % 64 * 64 + c.toNat % 64)
  | [a, b, c, d] =>
    .ofNat (a.toNat % 8 * 262144 + b.toNat % 64 * 4096 + c.toNat % 64 * 64 + d.toNat % 64)
  | _ => replacement

/-- A character that has begun: its bytes so far, and the ranges of the bytes it is still owed. -/
structure Pending where
  taken : List UInt8
  owed : List (Nat × Nat)
  deriving DecidableEq, Repr

/-- What bytes are made of: characters, and bytes that are none. -/
inductive Piece where
  | char (c : Char)
  | broken (length : Nat)
  deriving DecidableEq, Repr

def begins (byte : UInt8) : List Piece × Option Pending :=
  match tails byte.toNat with
  | none => ([.broken 1], none)
  | some [] => ([.char (assemble [byte])], none)
  | some owed => ([], some ⟨[byte], owed⟩)

def step : Option Pending → UInt8 → List Piece × Option Pending
  | none, byte => begins byte
  | some ⟨_, []⟩, byte => begins byte
  | some ⟨taken, (low, high) :: owed⟩, byte =>
    if low ≤ byte.toNat ∧ byte.toNat ≤ high then
      if owed.isEmpty then ([.char (assemble (taken ++ [byte]))], none)
      else ([], some ⟨taken ++ [byte], owed⟩)
    else (.broken taken.length :: (begins byte).1, (begins byte).2)

/-- Take bytes one after the other: the pieces they complete, and the character that has begun. -/
def feed : Option Pending → List UInt8 → List Piece × Option Pending
  | pending, [] => ([], pending)
  | pending, byte :: bytes =>
    let (completed, next) := step pending byte
    let (more, ended) := feed next bytes
    (completed ++ more, ended)

def Piece.shown : Piece → Char
  | .char c => c
  | .broken _ => replacement

/-- What is shown of a character that has begun when there are no more bytes. -/
def flush : Option Pending → List Char
  | none => []
  | some _ => [replacement]

/-- The text of some bytes, with what is no text replaced. -/
def lossy (bytes : List UInt8) : List Char :=
  let (pieces, pending) := feed none bytes
  pieces.map Piece.shown ++ flush pending

/-- Where bytes stop being text, and how many of them are wrong unless they end too soon. -/
structure Utf8Error where
  validUpTo : Nat
  errorLen : Option Nat
  deriving DecidableEq, Repr

def Utf8Error.message (error : Utf8Error) : String :=
  match error.errorLen with
  | some length =>
    "invalid utf-8 sequence of " ++ toString length ++ " bytes from index " ++ toString error.validUpTo
  | none => "incomplete utf-8 byte sequence from index " ++ toString error.validUpTo

def textOf : Nat → List Piece → Option Pending → Except Utf8Error (List Char)
  | _, [], none => .ok []
  | index, [], some _ => .error ⟨index, none⟩
  | index, .broken length :: _, _ => .error ⟨index, some length⟩
  | index, .char c :: pieces, pending =>
    match textOf (index + c.utf8Size) pieces pending with
    | .ok text => .ok (c :: text)
    | .error error => .error error

def decode (bytes : List UInt8) : Except Utf8Error (List Char) :=
  let (pieces, pending) := feed none bytes
  textOf 0 pieces pending

theorem feed_append (pending : Option Pending) (bytes more : List UInt8) : feed pending (bytes ++ more) =
      ((feed pending bytes).1 ++ (feed (feed pending bytes).2 more).1, (feed (feed pending bytes).2 more).2) := by
  induction bytes generalizing pending with
  | nil => rfl
  | cons byte bytes ih => simp [feed, ih]

def Within (range : Nat × Nat) (byte : UInt8) : Prop := range.1 ≤ byte.toNat ∧ byte.toNat ≤ range.2

/-- The bytes of one character: a first byte and the bytes it asks for. -/
def WellFormed : List UInt8 → Prop
  | [] => False
  | lead :: rest => ∃ owed, tails lead.toNat = some owed ∧ List.Forall₂ Within owed rest

theorem feed_owed {owed : List (Nat × Nat)} {bytes : List UInt8} (fits : List.Forall₂ Within owed bytes)
    (some_owed : owed ≠ []) (taken : List UInt8) :
    feed (some ⟨taken, owed⟩) bytes = ([.char (assemble (taken ++ bytes))], none) := by
  induction fits generalizing taken with
  | nil => exact absurd rfl some_owed
  | @cons range byte owed bytes own fits ih =>
    obtain ⟨low, high⟩ := range
    have inside : low ≤ byte.toNat ∧ byte.toNat ≤ high := own
    simp only [feed, step, if_pos inside]
    cases fits with
    | nil => rfl
    | cons next later =>
      simp [ih (List.cons_ne_nil _ _)]

theorem feed_wellFormed {bytes : List UInt8} (formed : WellFormed bytes) :
    feed none bytes = ([.char (assemble bytes)], none) := by
  cases bytes with
  | nil => exact formed.elim
  | cons lead rest =>
    obtain ⟨owed, asks, fits⟩ := formed
    simp only [feed, step, begins, asks]
    cases fits with
    | nil => rfl
    | cons own later =>
      simp [feed_owed (.cons own later) (List.cons_ne_nil _ _)]

theorem toNat_scalar (c : Char) : c.toNat < 0xD800 ∨ (0xDFFF < c.toNat ∧ c.toNat < 0x110000) := by
  have valid := c.valid
  simp only [UInt32.isValidChar, Nat.isValidChar] at valid
  exact valid

theorem toNat_ofNat {value : Nat} (fits : value < 256) : (UInt8.ofNat value).toNat = value := by
  rw [UInt8.toNat_ofNat', Nat.mod_eq_of_lt fits]

theorem within_ofNat {low high value : Nat} (lower : low ≤ value) (upper : value ≤ high)
    (fits : value < 256) : Within (low, high) (UInt8.ofNat value) := by
  simp only [Within, toNat_ofNat fits]
  exact ⟨lower, upper⟩

/-- Every character is encoded as the bytes of one character. -/
theorem wellFormed_utf8EncodeChar (c : Char) : WellFormed (String.utf8EncodeChar c) := by
  have scalar := toNat_scalar c
  simp only [String.utf8EncodeChar, show c.val.toNat = c.toNat from rfl]
  generalize c.toNat = v at scalar
  have low : ∀ value : Nat, Within tail (UInt8.ofNat (value % 64 + 128)) := fun value =>
    within_ofNat (by omega) (by omega) (by omega)
  split
  · refine ⟨[], ?_, .nil⟩
    rw [toNat_ofNat (by omega), tails, if_pos (by omega)]
  split
  · refine ⟨[tail], ?_, .cons (low v) .nil⟩
    rw [toNat_ofNat (by omega), tails, if_neg (by omega), if_neg (by omega), if_pos (by omega)]
  split
  · have lead : (UInt8.ofNat (v / 4096 % 16 + 224)).toNat = v / 4096 + 224 := by
      rw [toNat_ofNat (by omega)]
      omega
    -- The narrowed ranges are those of the codes below 0x1000 and of those around the surrogates.
    rcases (by omega : v / 4096 = 0 ∨ v / 4096 = 13 ∨ (v / 4096 ≠ 0 ∧ v / 4096 ≠ 13)) with
      first | last | ⟨notFirst, notLast⟩
    · exact ⟨[(0xA0, 0xBF), tail], by rw [lead, first]; rfl,
        .cons (within_ofNat (by omega) (by omega) (by omega)) (.cons (low v) .nil)⟩
    · exact ⟨[(0x80, 0x9F), tail], by rw [lead, last]; rfl,
        .cons (within_ofNat (by omega) (by omega) (by omega)) (.cons (low v) .nil)⟩
    · refine ⟨[tail, tail], ?_, .cons (low _) (.cons (low v) .nil)⟩
      rw [lead, tails, if_neg (by omega), if_neg (by omega), if_neg (by omega), if_neg (by omega),
        if_neg (by omega), if_pos (by omega)]
  · have lead : (UInt8.ofNat (v / 262144 % 8 + 240)).toNat = v / 262144 + 240 := by
      rw [toNat_ofNat (by omega)]
      omega
    rcases (by omega : v / 262144 = 0 ∨ v / 262144 = 4 ∨ (v / 262144 ≠ 0 ∧ v / 262144 < 4)) with
      first | last | ⟨notFirst, notLast⟩
    · exact ⟨[(0x90, 0xBF), tail, tail], by rw [lead, first]; rfl,
        .cons (within_ofNat (by omega) (by omega) (by omega)) (.cons (low _) (.cons (low v) .nil))⟩
    · exact ⟨[(0x80, 0x8F), tail, tail], by rw [lead, last]; rfl,
        .cons (within_ofNat (by omega) (by omega) (by omega)) (.cons (low _) (.cons (low v) .nil))⟩
    · refine ⟨[tail, tail, tail], ?_, .cons (low _) (.cons (low _) (.cons (low v) .nil))⟩
      rw [lead, tails, if_neg (by omega), if_neg (by omega), if_neg (by omega), if_neg (by omega),
        if_neg (by omega), if_neg (by omega), if_neg (by omega), if_pos (by omega)]

theorem assemble_utf8EncodeChar (c : Char) : assemble (String.utf8EncodeChar c) = c := by
  have scalar := toNat_scalar c
  have same : ∀ code, code = c.toNat → Char.ofNat code = c := fun code own => own ▸ Char.ofNat_toNat c
  simp only [String.utf8EncodeChar, show c.val.toNat = c.toNat from rfl]
  split
  · refine same _ ?_
    rw [toNat_ofNat (by omega)]
  split
  · refine same _ ?_
    rw [toNat_ofNat (by omega), toNat_ofNat (by omega)]
    omega
  split
  · refine same _ ?_
    rw [toNat_ofNat (by omega), toNat_ofNat (by omega), toNat_ofNat (by omega)]
    omega
  · refine same _ ?_
    rw [toNat_ofNat (by omega), toNat_ofNat (by omega), toNat_ofNat (by omega), toNat_ofNat (by omega)]
    omega

theorem feed_utf8EncodeChar (c : Char) : feed none (String.utf8EncodeChar c) = ([.char c], none) := by
  rw [feed_wellFormed (wellFormed_utf8EncodeChar c), assemble_utf8EncodeChar]

theorem feed_flatMap_utf8EncodeChar (text : List Char) :
    feed none (text.flatMap String.utf8EncodeChar) = (text.map .char, none) := by
  induction text with
  | nil => rfl
  | cons c text ih =>
    rw [List.flatMap_cons, feed_append, feed_utf8EncodeChar, ih, List.singleton_append, List.map_cons]

theorem textOf_map_char (index : Nat) (text : List Char) : textOf index (text.map .char) none = .ok text := by
  induction text generalizing index with
  | nil => rfl
  | cons c text ih => rw [List.map_cons, textOf, ih]

theorem decode_flatMap_utf8EncodeChar (text : List Char) :
    decode (text.flatMap String.utf8EncodeChar) = .ok text := by
  simp [decode, feed_flatMap_utf8EncodeChar, textOf_map_char]

theorem toList_toUTF8 (text : String) : text.toUTF8.data.toList = text.toList.flatMap String.utf8EncodeChar := by
  conv_lhs => rw [← String.ofList_toList (s := text)]
  rw [String.toUTF8, String.toByteArray_ofList, List.utf8Encode, List.data_toByteArray]

def readText (bytes : ByteArray) : Except Utf8Error String := (decode bytes.data.toList).map String.ofList

/-- How many characters have begun and not ended. -/
def open_ (pending : Option Pending) : Nat := if pending.isSome then 1 else 0

theorem begins_length (byte : UInt8) : (begins byte).1.length + open_ (begins byte).2 = 1 := by
  unfold begins
  split <;> rfl

theorem step_length_le (pending : Option Pending) (byte : UInt8) :
    (step pending byte).1.length + open_ (step pending byte).2 ≤ open_ pending + 1 := by
  have single := begins_length byte
  unfold step
  split
  · simp [open_] at single ⊢
    omega
  · simp [open_] at single ⊢
    omega
  · split
    · split <;> simp [open_]
    · simp [open_] at single ⊢
      omega

theorem feed_length_le (pending : Option Pending) (bytes : List UInt8) :
    (feed pending bytes).1.length + open_ (feed pending bytes).2 ≤ open_ pending + bytes.length := by
  induction bytes generalizing pending with
  | nil => simp [feed]
  | cons byte bytes ih =>
    have first := step_length_le pending byte
    have later := ih (step pending byte).2
    simp only [feed, List.length_append, List.length_cons]
    omega

theorem pieces_of_textOf {index : Nat} {pieces : List Piece} {pending : Option Pending} {text : List Char}
    (read : textOf index pieces pending = .ok text) : pieces = text.map .char := by
  induction pieces generalizing index text with
  | nil =>
    cases pending with
    | none => cases read; rfl
    | some begun => cases read
  | cons piece pieces ih =>
    cases piece with
    | broken length => cases read
    | char c =>
      rw [textOf] at read
      split at read
      · next rest own =>
        cases read
        rw [List.map_cons, ih own]
      · cases read

theorem decode_take {text chars : List Char} {kept : Nat}
    (read : decode ((text.flatMap String.utf8EncodeChar).take kept) = .ok chars) : chars <+: text := by
  have front := pieces_of_textOf (show textOf 0 _ _ = .ok chars from read)
  have whole := feed_append none ((text.flatMap String.utf8EncodeChar).take kept)
    ((text.flatMap String.utf8EncodeChar).drop kept)
  rw [List.take_append_drop, feed_flatMap_utf8EncodeChar, front, Prod.mk.injEq] at whole
  exact (List.prefix_map_iff_of_injective fun _ _ => Piece.char.inj).1 ⟨_, whole.1.symm⟩

theorem readText_length_le {bytes : ByteArray} {text : String} (read : readText bytes = .ok text) :
    text.toList.length ≤ bytes.size := by
  rw [readText] at read
  cases decoded : decode bytes.data.toList with
  | error error => rw [decoded] at read; cases read
  | ok chars =>
    rw [decoded] at read
    cases read
    have same := congrArg List.length (pieces_of_textOf (show textOf 0 _ _ = .ok chars from decoded))
    have fewer := feed_length_le none bytes.data.toList
    simp only [open_, Option.isSome_none, Bool.false_eq_true, if_false, Nat.zero_add, Array.length_toList] at fewer
    rw [String.toList_ofList, ← List.length_map (f := Piece.char), ← same]
    exact Nat.le_trans (Nat.le_add_right _ _) fewer

theorem readText_toUTF8 (text : String) : readText text.toUTF8 = .ok text := by
  rw [readText, toList_toUTF8, decode_flatMap_utf8EncodeChar, Except.map, String.ofList_toList]

end Codel00p.Utf8
