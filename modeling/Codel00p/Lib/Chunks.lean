import Codel00p.Lib.Utf8
import Mathlib.Data.List.Forall2

/-! Text that arrives in chunks of bytes, each of which is decoded on its own. -/

namespace Codel00p.Utf8

/-- Where chunks end, in bytes, if the first one begins at a place. -/
def boundaries : Nat → List (List UInt8) → List Nat
  | _, [] => []
  | start, chunk :: chunks => (start + chunk.length) :: boundaries (start + chunk.length) chunks

/-- A chunk ends inside the character that begins at a place. -/
def Cut (ends : List Nat) (offset : Nat) (c : Char) : Prop :=
  ∃ boundary ∈ ends, offset < boundary ∧ boundary < offset + c.utf8Size

instance (ends : List Nat) (offset : Nat) (c : Char) : Decidable (Cut ends offset c) :=
  inferInstanceAs (Decidable (∃ boundary ∈ ends, _ ∧ _))

/-- No chunk ends inside a character of a text that begins at a place. -/
def Uncut (ends : List Nat) : Nat → List Char → Prop
  | _, [] => True
  | offset, c :: text => ¬Cut ends offset c ∧ Uncut ends (offset + c.utf8Size) text

instance decidableUncut (ends : List Nat) : ∀ offset text, Decidable (Uncut ends offset text)
  | _, [] => isTrue trivial
  | offset, c :: text =>
    let _ := decidableUncut ends (offset + c.utf8Size) text
    inferInstanceAs (Decidable (¬Cut ends offset c ∧ Uncut ends (offset + c.utf8Size) text))

inductive Shown (ends : List Nat) : Nat → List Char → List Char → Prop where
  | nil {offset : Nat} : Shown ends offset [] []
  | kept {offset : Nat} {c : Char} {text shown : List Char} (whole : ¬Cut ends offset c)
    (rest : Shown ends (offset + c.utf8Size) text shown) : Shown ends offset (c :: text) (c :: shown)
  | broken {offset : Nat} {c : Char} {text shown : List Char} {count : Nat} (cut : Cut ends offset c)
    (several : 2 ≤ count) (rest : Shown ends (offset + c.utf8Size) text shown) :
    Shown ends offset (c :: text) (List.replicate count replacement ++ shown)

theorem not_cut_of_size {ends : List Nat} {offset : Nat} {c : Char} (single : c.utf8Size = 1) :
    ¬Cut ends offset c := by
  rintro ⟨boundary, _, after, before⟩
  omega

def dropBytes : Nat → List (List UInt8) → List (List UInt8)
  | _, [] => []
  | count, chunk :: chunks =>
    if count ≤ chunk.length then chunk.drop count :: chunks else dropBytes (count - chunk.length) chunks

variable {start count : Nat} {chunks : List (List UInt8)} {bytes more : List UInt8} {owed : List (Nat × Nat)}

theorem le_of_mem_boundaries {boundary : Nat} (member : boundary ∈ boundaries start chunks) : start ≤ boundary := by
  induction chunks generalizing start with
  | nil => exact nomatch member
  | cons chunk chunks ih =>
    rcases List.mem_cons.1 member with rfl | later
    · omega
    · have := ih later
      omega

theorem mem_boundaries_dropBytes {boundary : Nat} (behind : start + count < boundary) :
    boundary ∈ boundaries (start + count) (dropBytes count chunks) ↔ boundary ∈ boundaries start chunks := by
  induction chunks generalizing start count with
  | nil => rfl
  | cons chunk chunks ih =>
    rw [dropBytes]
    split
    · next within =>
      have same : start + count + (chunk.length - count) = start + chunk.length := by omega
      simp [boundaries, same]
    · next beyond =>
      -- The whole chunk is dropped, and its end is not behind what was dropped.
      have place : start + count = start + chunk.length + (count - chunk.length) := by omega
      have notFirst : boundary ≠ start + chunk.length := by omega
      rw [place, ih (by omega), boundaries, List.mem_cons, or_iff_right notFirst]

theorem flatten_dropBytes (count : Nat) (chunks : List (List UInt8)) :
    (dropBytes count chunks).flatten = chunks.flatten.drop count := by
  induction chunks generalizing count with
  | nil => simp [dropBytes]
  | cons chunk chunks ih =>
    rw [dropBytes, List.flatten_cons, List.drop_append]
    split
    · next within => rw [List.flatten_cons, Nat.sub_eq_zero_of_le within, List.drop_zero]
    · next beyond =>
      have gone : chunk.drop count = [] := List.drop_eq_nil_of_le (by omega)
      rw [ih, gone, List.nil_append]

@[simp] theorem lossy_nil : lossy [] = [] := rfl

theorem lossy_append {pieces : List Piece} (ended : feed none bytes = (pieces, none))
    (more : List UInt8) : lossy (bytes ++ more) = pieces.map Piece.shown ++ lossy more := by
  simp [lossy, feed_append, ended]

theorem lossy_text_append (text : List Char) (more : List UInt8) :
    lossy (text.flatMap String.utf8EncodeChar ++ more) = text ++ lossy more := by
  rw [lossy_append (feed_flatMap_utf8EncodeChar text) more, List.map_map]
  exact congrArg (· ++ lossy more) (List.map_id text)

theorem lossy_text (text : List Char) : lossy (text.flatMap String.utf8EncodeChar) = text := by
  simpa using lossy_text_append text []

theorem tails_range {lead : Nat} (asks : tails lead = some owed) :
    ∀ range ∈ owed, 0x80 ≤ range.1 ∧ range.2 ≤ 0xBF := by
  unfold tails at asks
  repeat' split at asks
  all_goals cases asks
  all_goals decide

theorem within_of_forall₂
    (fits : List.Forall₂ Within owed bytes) (ranges : ∀ range ∈ owed, 0x80 ≤ range.1 ∧ range.2 ≤ 0xBF) :
    ∀ byte ∈ bytes, Within tail byte := by
  induction fits with
  | nil => exact nofun
  | @cons range byte owed bytes own fits ih =>
    intro other member
    rcases List.mem_cons.1 member with rfl | later
    · have common := ranges range List.mem_cons_self
      exact ⟨Nat.le_trans common.1 own.1, Nat.le_trans own.2 common.2⟩
    · exact ih (fun other inside => ranges other (List.mem_cons_of_mem _ inside)) other later

theorem feed_tail {byte : UInt8} (within : Within tail byte) : feed none [byte] = ([.broken 1], none) := by
  have none : tails byte.toNat = none := by
    obtain ⟨low, high⟩ : 0x80 ≤ byte.toNat ∧ byte.toNat ≤ 0xBF := within
    rw [tails, if_neg (by omega), if_pos (by omega)]
  simp [feed, step, begins, none]

theorem lossy_tails (within : ∀ byte ∈ bytes, Within tail byte) (more : List UInt8) :
    lossy (bytes ++ more) = List.replicate bytes.length replacement ++ lossy more := by
  induction bytes with
  | nil => rfl
  | cons byte bytes ih =>
    have one : lossy ([byte] ++ (bytes ++ more)) = [replacement] ++ lossy (bytes ++ more) :=
      lossy_append (feed_tail (within byte List.mem_cons_self)) _
    rw [List.cons_append, ← List.singleton_append, one,
      ih fun other member => within other (List.mem_cons_of_mem _ member), List.length_cons,
      List.replicate_succ, List.singleton_append, List.cons_append]

theorem feed_owed_part (fits : List.Forall₂ Within owed bytes) (part : count < bytes.length) (taken : List UInt8) :
    ∃ pending, feed (some ⟨taken, owed⟩) (bytes.take count) = ([], some pending) := by
  induction fits generalizing count taken with
  | nil => exact nomatch part
  | @cons range byte owed bytes own fits ih =>
    cases count with
    | zero => exact ⟨_, rfl⟩
    | succ count =>
      have left : owed.isEmpty = false := by
        cases fits with
        | nil => simp at part
        | cons _ _ => rfl
      have inside : range.1 ≤ byte.toNat ∧ byte.toNat ≤ range.2 := own
      obtain ⟨pending, goesOn⟩ := ih (by simpa using part) (taken ++ [byte])
      refine ⟨pending, ?_⟩
      simp [feed, step, inside, left, goesOn]

theorem lossy_part (formed : WellFormed bytes) (begun : 0 < count)
    (part : count < bytes.length) : lossy (bytes.take count) = [replacement] := by
  cases bytes with
  | nil => exact formed.elim
  | cons lead rest =>
    obtain ⟨owed, asks, fits⟩ := formed
    obtain ⟨more, rfl⟩ : ∃ more, count = more + 1 := ⟨count - 1, by omega⟩
    have some_owed : owed ≠ [] := by
      rintro rfl
      cases fits
      simp at part
    obtain ⟨pending, goesOn⟩ := feed_owed_part fits (by simpa using part) [lead]
    cases owed with
    | nil => exact absurd rfl some_owed
    | cons range owed =>
      simp [lossy, feed, step, begins, asks, goesOn, flush]

theorem append_cases {chunk rest : List UInt8} (whole : chunk ++ rest = bytes ++ more) :
    (∃ left, chunk = bytes ++ left ∧ more = left ++ rest) ∨
      (∃ left, left ≠ [] ∧ bytes = chunk ++ left ∧ rest = left ++ more) := by
  rcases List.append_eq_append_iff.1 whole with ⟨left, inBytes, inRest⟩ | ⟨left, inChunk, inMore⟩
  · by_cases empty : left = []
    · subst empty
      exact .inl ⟨[], by simpa using inBytes.symm, by simpa using inRest.symm⟩
    · exact .inr ⟨left, empty, inBytes, inRest⟩
  · exact .inl ⟨left, inChunk, inMore⟩

theorem flatMap_lossy_uncut {pieces : List Piece} (ended : feed none bytes = (pieces, none)) (nonempty : bytes ≠ [])
    (whole : chunks.flatten = bytes ++ more)
    (uncut : ∀ boundary ∈ boundaries start chunks, ¬(start < boundary ∧ boundary < start + bytes.length)) :
    chunks.flatMap lossy = pieces.map Piece.shown ++ (dropBytes bytes.length chunks).flatMap lossy := by
  induction chunks generalizing start with
  | nil => exact absurd (List.append_eq_nil_iff.1 whole.symm).1 nonempty
  | cons chunk chunks ih =>
    have some_bytes : 0 < bytes.length := List.length_pos_iff.2 nonempty
    rw [List.flatten_cons] at whole
    rcases append_cases whole with ⟨left, rfl, _⟩ | ⟨left, some_left, rfl, rest⟩
    · -- The whole character is in the first chunk.
      rw [dropBytes, if_pos (by simp), List.flatMap_cons, List.flatMap_cons, lossy_append ended,
        List.drop_left, List.append_assoc]
    · -- The first chunk ends before the character does, so it ends where it begins.
      have ends := uncut _ (List.mem_cons_self)
      have left_bytes : 0 < left.length := List.length_pos_iff.2 some_left
      have empty : chunk = [] := by
        rw [List.length_append] at ends
        exact List.eq_nil_of_length_eq_zero (by omega)
      subst empty
      rw [dropBytes, if_neg (by simpa using some_left), List.flatMap_cons, lossy_nil, List.nil_append]
      exact ih whole fun boundary member => uncut boundary (List.mem_cons_of_mem _ member)

theorem flatMap_lossy_tails (within : ∀ byte ∈ bytes, Within tail byte) (whole : chunks.flatten = bytes ++ more) :
    chunks.flatMap lossy =
      List.replicate bytes.length replacement ++ (dropBytes bytes.length chunks).flatMap lossy := by
  induction chunks generalizing bytes with
  | nil =>
    have empty := (List.append_eq_nil_iff.1 whole.symm).1
    subst empty
    rfl
  | cons chunk chunks ih =>
    rw [List.flatten_cons] at whole
    rcases append_cases whole with ⟨left, rfl, _⟩ | ⟨left, some_left, rfl, rest⟩
    · rw [dropBytes, if_pos (by simp), List.flatMap_cons, List.flatMap_cons, lossy_tails within,
        List.drop_left, List.append_assoc]
    · have first : lossy chunk = List.replicate chunk.length replacement := by
        simpa using lossy_tails (fun byte member => within byte (List.mem_append_left _ member)) []
      have left_bytes : 0 < left.length := List.length_pos_iff.2 some_left
      rw [dropBytes, if_neg (by rw [List.length_append]; omega), List.flatMap_cons, first,
        ih (fun byte member => within byte (List.mem_append_right _ member)) rest, List.length_append,
        Nat.add_sub_cancel_left, ← List.append_assoc, List.replicate_append_replicate]

/-- A character that is in more than one chunk is shown as several replacements. -/
theorem flatMap_lossy_cut (formed : WellFormed bytes) (whole : chunks.flatten = bytes ++ more)
    (cut : ∃ boundary ∈ boundaries start chunks, start < boundary ∧ boundary < start + bytes.length) :
    ∃ count, 2 ≤ count ∧ chunks.flatMap lossy =
      List.replicate count replacement ++ (dropBytes bytes.length chunks).flatMap lossy := by
  induction chunks generalizing start with
  | nil =>
    obtain ⟨_, member, _⟩ := cut
    exact nomatch member
  | cons chunk chunks ih =>
    obtain ⟨boundary, member, after, before⟩ := cut
    rw [List.flatten_cons] at whole
    rcases append_cases whole with ⟨left, rfl, _⟩ | ⟨left, some_left, rfl, rest⟩
    · -- A character that is in the first chunk is not cut by a later one.
      have late : start + (bytes ++ left).length ≤ boundary := by
        rcases List.mem_cons.1 member with rfl | later
        · exact Nat.le_refl _
        · exact le_of_mem_boundaries later
      rw [List.length_append] at late
      omega
    · have left_bytes : 0 < left.length := List.length_pos_iff.2 some_left
      have beyond : ¬(chunk ++ left).length ≤ chunk.length := by
        rw [List.length_append]
        omega
      rw [dropBytes, if_neg beyond, List.flatMap_cons]
      by_cases empty : chunk = []
      · subst empty
        have later : boundary ∈ boundaries start chunks := by
          rcases List.mem_cons.1 member with rfl | later
          · simp at after
          · exact later
        exact ih whole ⟨boundary, later, after, before⟩
      · -- What is in the first chunk is one replacement, and every other byte is one.
        have begun : 0 < chunk.length := List.length_pos_iff.2 empty
        have first : lossy chunk = [replacement] := by
          have part := lossy_part formed begun (by rw [List.length_append]; omega)
          rwa [List.take_left] at part
        have others : ∀ byte ∈ left, Within tail byte := by
          cases chunk with
          | nil => exact absurd rfl empty
          | cons lead chunk =>
            obtain ⟨owed, asks, fits⟩ := formed
            exact fun byte inside => within_of_forall₂ fits (tails_range asks) byte (List.mem_append_right _ inside)
        refine ⟨left.length + 1, by omega, ?_⟩
        rw [first, flatMap_lossy_tails others rest, List.length_append, Nat.add_sub_cancel_left,
          List.replicate_succ, List.singleton_append, List.cons_append]

/--
Text that arrives in chunks is shown with the characters replaced that a chunk ends in.

The induction is on the text: the chunks are what is left of them behind the characters so far.
-/
theorem shown_flatMap_lossy {ends : List Nat} {offset : Nat} {text : List Char}
    (whole : chunks.flatten = text.flatMap String.utf8EncodeChar)
    (same : ∀ boundary, offset < boundary → (boundary ∈ ends ↔ boundary ∈ boundaries offset chunks)) :
    Shown ends offset text (chunks.flatMap lossy) := by
  induction text generalizing offset chunks with
  | nil =>
    have nothing : chunks.flatMap lossy = [] := by
      refine List.flatMap_eq_nil_iff.2 fun chunk member => ?_
      rw [List.flatten_eq_nil_iff.1 whole chunk member, lossy_nil]
    rw [nothing]
    exact .nil
  | cons c text ih =>
    rw [List.flatMap_cons] at whole
    have size : (String.utf8EncodeChar c).length = c.utf8Size := String.length_utf8EncodeChar c
    have rest : Shown ends (offset + c.utf8Size) text ((dropBytes c.utf8Size chunks).flatMap lossy) := by
      refine ih ?_ fun boundary behind => ?_
      · rw [flatten_dropBytes, whole, ← size, List.drop_left]
      · rw [mem_boundaries_dropBytes behind, same boundary (by omega)]
    -- A boundary inside the character is the same for all chunks and for those that are left.
    have inside : Cut ends offset c ↔ ∃ boundary ∈ boundaries offset chunks,
        offset < boundary ∧ boundary < offset + (String.utf8EncodeChar c).length := by
      rw [size]
      constructor
      · rintro ⟨boundary, member, after, before⟩
        exact ⟨boundary, (same boundary after).1 member, after, before⟩
      · rintro ⟨boundary, member, after, before⟩
        exact ⟨boundary, (same boundary after).2 member, after, before⟩
    by_cases cut : Cut ends offset c
    · obtain ⟨count, several, shown⟩ :=
        flatMap_lossy_cut (wellFormed_utf8EncodeChar c) whole (inside.1 cut)
      rw [shown, size]
      exact .broken cut several rest
    · have shown := flatMap_lossy_uncut (feed_utf8EncodeChar c) (by simp [String.utf8EncodeChar_ne_nil]) whole
        fun boundary member wrong => cut (inside.2 ⟨boundary, member, wrong⟩)
      rw [shown, size]
      exact .kept cut rest

namespace Shown

variable {ends : List Nat} {offset : Nat} {text shown : List Char}

section

variable (shows : Shown ends offset text shown)

include shows

theorem eq_of_uncut (uncut : Uncut ends offset text) : shown = text := by
  induction shows with
  | nil => rfl
  | kept whole rest ih => rw [ih uncut.2]
  | broken cut several rest ih => exact absurd cut uncut.1

theorem count_le : text.count replacement ≤ shown.count replacement := by
  induction shows with
  | nil => exact Nat.le_refl _
  | @kept offset c text shown whole rest ih =>
    rw [List.count_cons, List.count_cons]
    omega
  | @broken offset c text shown count cut several rest ih =>
    have one : [c].count replacement ≤ 1 := List.count_le_length
    rw [List.count_cons, List.count_append, List.count_replicate_self]
    rw [List.count_singleton] at one
    omega

theorem count_lt (cut : ¬Uncut ends offset text) : text.count replacement < shown.count replacement := by
  induction shows with
  | nil => exact absurd trivial cut
  | @kept offset c text shown whole rest ih =>
    have later := ih fun uncut => cut ⟨whole, uncut⟩
    rw [List.count_cons, List.count_cons]
    omega
  | @broken offset c text shown count own several rest ih =>
    have one : [c].count replacement ≤ 1 := List.count_le_length
    have others := rest.count_le
    rw [List.count_cons, List.count_append, List.count_replicate_self]
    rw [List.count_singleton] at one
    omega

theorem prefix_iff {front : List Char} (single : ∀ c ∈ front, c.utf8Size = 1) : front <+: shown ↔ front <+: text := by
  induction shows generalizing front with
  | nil => exact Iff.rfl
  | kept whole rest ih =>
    cases front with
    | nil => simp
    | cons first front =>
      rw [List.cons_prefix_cons, List.cons_prefix_cons,
        ih fun other member => single other (List.mem_cons_of_mem _ member)]
  | @broken offset c text shown count cut several rest ih =>
    cases front with
    | nil => simp
    | cons first front =>
      have size := single first List.mem_cons_self
      obtain ⟨more, rfl⟩ : ∃ more, count = more + 1 := ⟨count - 1, by omega⟩
      rw [List.replicate_succ, List.cons_append, List.cons_prefix_cons, List.cons_prefix_cons]
      -- Neither the replacement nor a character that is cut is a single byte.
      have notReplacement : first ≠ replacement := by
        rintro rfl
        exact absurd size (by decide)
      have notCut : first ≠ c := by
        rintro rfl
        exact not_cut_of_size size cut
      simp [notReplacement, notCut]

end

end Shown

end Codel00p.Utf8
