import Codel00p.Lib.Chunks

/-! Output of background processes: a capped buffer that is read a window at a time. -/

namespace Codel00p

def maxStreamBytes : Nat := 256 * 1024

/-- The output of one stream, with how much of it has been read and whether some was dropped. -/
structure StreamBuffer where
  data : List UInt8 := []
  readCursor : Nat := 0
  truncated : Bool := false
  deriving DecidableEq, Repr

namespace StreamBuffer

/-- Add a chunk as far as the cap allows. -/
def append (buffer : StreamBuffer) (chunk : List UInt8) : StreamBuffer :=
  let remaining := maxStreamBytes - buffer.data.length
  if remaining = 0 then { buffer with truncated := true }
  else if remaining < chunk.length then
    { buffer with data := buffer.data ++ chunk.take remaining, truncated := true }
  else { buffer with data := buffer.data ++ chunk }

/-- The bytes of the next read: those behind the last one, as many as it may take. -/
def window (buffer : StreamBuffer) (maxBytes : Nat) : List UInt8 := (buffer.data.drop buffer.readCursor).take maxBytes

def takeNew (buffer : StreamBuffer) (maxBytes : Nat) : (List Char × Bool) × StreamBuffer :=
  let text := Utf8.lossy (buffer.window maxBytes)
  -- The cursor saturates above every length a buffer can have.
  ((text, buffer.truncated), { buffer with readCursor := min (buffer.readCursor + maxBytes) buffer.data.length })

end StreamBuffer

/-- What happens to a buffer: the process writes, or the model polls. -/
inductive StreamOp where
  | append (chunk : List UInt8)
  | takeNew (maxBytes : Nat)
  deriving DecidableEq, Repr

/-- Everything the process has written. -/
def written : List StreamOp → List UInt8
  | [] => []
  | .append chunk :: ops => chunk ++ written ops
  | .takeNew _ :: ops => written ops

/-- Each read of a run, with its text and where its window ended, and the buffer left behind. -/
def polls : List StreamOp → StreamBuffer → List (List Char × Nat) × StreamBuffer
  | [], buffer => ([], buffer)
  | .append chunk :: ops, buffer => polls ops (buffer.append chunk)
  | .takeNew maxBytes :: ops, buffer =>
    let ((text, _), next) := buffer.takeNew maxBytes
    let (reads, last) := polls ops next
    ((text, next.readCursor) :: reads, last)

/-- The texts of the reads, one after the other. -/
def polledText (ops : List StreamOp) : List Char := ((polls ops {}).1.map Prod.fst).flatten

/-- Where the windows of the reads ended. -/
def pollEnds (ops : List StreamOp) : List Nat := (polls ops {}).1.map Prod.snd

theorem StreamBuffer.append_data (buffer : StreamBuffer) (chunk : List UInt8) : (buffer.append chunk).data =
      buffer.data ++ chunk.take (maxStreamBytes - buffer.data.length) := by
  simp only [append]
  split
  · next full => simp [full]
  · split
    · rfl
    · next enough => rw [List.take_of_length_le (by omega)]

theorem StreamBuffer.append_readCursor (buffer : StreamBuffer) (chunk : List UInt8) :
    (buffer.append chunk).readCursor = buffer.readCursor := by
  simp only [append]
  split
  · rfl
  · split <;> rfl

theorem length_polls_le (ops : List StreamOp) (buffer : StreamBuffer) (capped : buffer.data.length ≤ maxStreamBytes) :
    (polls ops buffer).2.data.length ≤ maxStreamBytes := by
  induction ops generalizing buffer with
  | nil => exact capped
  | cons op ops ih =>
    cases op with
    | append chunk =>
      refine ih _ ?_
      rw [buffer.append_data, List.length_append, List.length_take]
      omega
    | takeNew maxBytes => exact ih _ capped

/--
The reads of a run that stays within the cap.

Their windows follow one another from the cursor on, and everything written is in the buffer.
-/
theorem polls_windows (ops : List StreamOp) (buffer : StreamBuffer) (inside : buffer.readCursor ≤ buffer.data.length)
    (fits : buffer.data.length + (written ops).length ≤ maxStreamBytes) : ∃ windows : List (List UInt8),
      (polls ops buffer).1.map Prod.fst = windows.map Utf8.lossy ∧
      (polls ops buffer).1.map Prod.snd = Utf8.boundaries buffer.readCursor windows ∧
      (polls ops buffer).2.data = buffer.data ++ written ops ∧
      (polls ops buffer).2.readCursor = buffer.readCursor + windows.flatten.length ∧
      windows.flatten <+: (buffer.data ++ written ops).drop buffer.readCursor := by
  induction ops generalizing buffer with
  | nil => exact ⟨[], rfl, rfl, by simp [polls, written], rfl, by simp⟩
  | cons op ops ih =>
    cases op with
    | append chunk =>
      simp only [written, List.length_append] at fits
      have grown : (buffer.append chunk).data = buffer.data ++ chunk := by
        rw [buffer.append_data, List.take_of_length_le (by omega)]
      have later := ih (buffer.append chunk)
        (by rw [grown, buffer.append_readCursor, List.length_append]; omega)
        (by rw [grown, List.length_append]; omega)
      rw [grown, buffer.append_readCursor, List.append_assoc] at later
      exact later
    | takeNew maxBytes =>
      -- The window is the first part of what is left, and the reads behind it continue from its end.
      have width : (buffer.window maxBytes).length = min maxBytes
          (buffer.data.length - buffer.readCursor) := by simp [StreamBuffer.window]
      have cursor : min (buffer.readCursor + maxBytes) buffer.data.length =
          buffer.readCursor + (buffer.window maxBytes).length := by omega
      obtain ⟨windows, texts, ends, data, last, rest, whole⟩ :=
        ih (buffer.takeNew maxBytes).2 (Nat.min_le_right ..) fits
      simp only [StreamBuffer.takeNew, cursor] at texts ends data last whole
      obtain ⟨more, next⟩ : buffer.window maxBytes <+:
          (buffer.data ++ written ops).drop buffer.readCursor := by
        rw [List.drop_append_of_le_length inside]
        exact (List.take_prefix ..).trans (List.prefix_append ..)
      rw [← List.drop_drop, ← next, List.drop_left] at whole
      refine ⟨buffer.window maxBytes :: windows, ?_, ?_, ?_, ?_, rest, ?_⟩
      · simp [polls, StreamBuffer.takeNew, cursor, texts]
      · simp [polls, StreamBuffer.takeNew, cursor, ends, Utf8.boundaries]
      · simpa [polls, StreamBuffer.takeNew, cursor, written] using data
      · simp [polls, StreamBuffer.takeNew, cursor, last, Nat.add_assoc]
      · rw [List.flatten_cons, List.append_assoc, whole]
        exact next

theorem uncut_snoc {ends : List Nat} {last offset : Nat} {text : List Char}
    (behind : offset + (text.flatMap String.utf8EncodeChar).length ≤ last) :
    Utf8.Uncut (ends ++ [last]) offset text ↔ Utf8.Uncut ends offset text := by
  induction text generalizing offset with
  | nil => exact Iff.rfl
  | cons c text ih =>
    rw [List.flatMap_cons, List.length_append, String.length_utf8EncodeChar] at behind
    have same : Utf8.Cut (ends ++ [last]) offset c ↔ Utf8.Cut ends offset c := by
      simp only [Utf8.Cut, List.mem_append, List.mem_singleton]
      constructor
      · rintro ⟨boundary, member | rfl, after, before⟩
        · exact ⟨boundary, member, after, before⟩
        · omega
      · rintro ⟨boundary, member, inside⟩
        exact ⟨boundary, .inl member, inside⟩
    rw [Utf8.Uncut, Utf8.Uncut, same, ih (by omega)]

theorem boundaries_snoc (start : Nat) (windows : List (List UInt8)) (last : List UInt8) :
    Utf8.boundaries start (windows ++ [last]) = Utf8.boundaries start windows
      ++ [start + windows.flatten.length + last.length] := by
  induction windows generalizing start with
  | nil => simp [Utf8.boundaries]
  | cons window windows ih => simp [Utf8.boundaries, ih, Nat.add_assoc]

/--
Polling the output of a process that writes a text.

A buffer never holds more than its cap.
While what was written stays within the cap,
the polled texts make up the front of the text if no read ends inside a character of it,
and once all of the text has been read they are the text exactly in that case:
a read that ends inside a character turns its parts into replacement characters.
-/
theorem polled_text (text : String) : (∀ ops, (polls ops {}).2.data.length ≤ maxStreamBytes) ∧
    ∀ ops rest, written ops ++ rest = text.toUTF8.data.toList → (written ops).length ≤ maxStreamBytes →
      (Utf8.Uncut (pollEnds ops) 0 text.toList → polledText ops <+: text.toList) ∧
      ((polls ops {}).2.readCursor = text.toUTF8.data.toList.length →
        (polledText ops = text.toList ↔ Utf8.Uncut (pollEnds ops) 0 text.toList)) := by
  refine ⟨fun ops => length_polls_le ops {} (Nat.zero_le _), fun ops rest stream fits => ?_⟩
  obtain ⟨windows, texts, ends, _, cursor, front⟩ := polls_windows ops {} (Nat.le_refl _) (by simpa using fits)
  simp only [List.nil_append, List.drop_zero, Nat.zero_add] at front cursor ends
  -- What has not been read yet is one more window, behind which nothing is left of the text.
  obtain ⟨unread, whole⟩ := front
  rw [Utf8.toList_toUTF8] at stream ⊢
  have all : (windows ++ [unread ++ rest]).flatten = text.toList.flatMap String.utf8EncodeChar := by
    rw [← stream, ← whole]
    simp
  have shows : Utf8.Shown (Utf8.boundaries 0 (windows ++ [unread ++ rest])) 0 text.toList _ :=
    Utf8.shown_flatMap_lossy all fun _ _ => Iff.rfl
  have same : Utf8.Uncut (Utf8.boundaries 0 (windows ++ [unread ++ rest])) 0 text.toList ↔
      Utf8.Uncut (pollEnds ops) 0 text.toList := by
    rw [boundaries_snoc, pollEnds, ends, uncut_snoc]
    rw [← all]
    simp
  have read : (windows ++ [unread ++ rest]).flatMap Utf8.lossy =
      polledText ops ++ Utf8.lossy (unread ++ rest) := by
    simp [polledText, texts, List.flatMap_def]
  rw [read] at shows
  refine ⟨fun uncut => ⟨_, shows.eq_of_uncut (same.2 uncut)⟩, fun complete => ?_⟩
  have none : unread ++ rest = [] := by
    rw [cursor, ← all] at complete
    rw [← List.length_eq_zero_iff]
    simp at complete ⊢
    omega
  rw [none] at same
  rw [none, Utf8.lossy_nil, List.append_nil] at shows
  refine ⟨fun equal => ?_, fun uncut => shows.eq_of_uncut (same.2 uncut)⟩
  -- Every character that is cut adds replacements, so the texts could not be the same.
  by_contra cut
  have more := shows.count_lt fun uncut => cut (same.1 uncut)
  rw [equal] at more
  exact Nat.lt_irrefl _ more

/-- A character that is read whole is polled as it was written. -/
theorem polled_text_whole : polledText [.append [0xC3, 0xA9], .takeNew 2] = "é".toList :=
  (((polled_text "é").2 [.append [0xC3, 0xA9], .takeNew 2] [] (by decide +kernel)
    (by decide +kernel)).2 (by decide +kernel)).2 (by decide +kernel)

/-- A character that is read in two halves is polled as two replacement characters. -/
theorem polled_halves : written [.append [0xC3, 0xA9], .takeNew 1, .takeNew 1] = "é".toUTF8.data.toList ∧
      ¬polledText [.append [0xC3, 0xA9], .takeNew 1, .takeNew 1] <+: "é".toList := by
  decide +kernel

end Codel00p
