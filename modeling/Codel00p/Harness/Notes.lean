import Codel00p.Harness.Patch
import Codel00p.Lib.Run
import Codel00p.Lib.Utf8

/-! The curated notes of an agent: two small files that are rewritten within a cap. -/

namespace Codel00p

open Function (update update_self)

/-- Which of the two files an operation is about. -/
inductive NoteTarget where
  | agent | user
  deriving DecidableEq, Repr

namespace NoteTarget

def fileName : NoteTarget → String
  | .agent => "NOTES.md"
  | .user => "USER.md"

def charCap : NoteTarget → Nat
  | .agent => 2000
  | .user => 1200

end NoteTarget

/-- The bytes of the files in an agent's home, where they exist. -/
abbrev NoteHome := NoteTarget → Option (List UInt8)

/-- What the disk makes of a write: all of it, nothing, or its first bytes and then an error. -/
inductive DiskAnswer where
  | written
  | refused (error : String)
  | torn (kept : Nat) (error : String)
  deriving DecidableEq, Repr

def noteBytes (text : String) : List UInt8 := text.toList.flatMap String.utf8EncodeChar

/-- The trimmed text of a file, empty if it is missing or no text. -/
def readNoteFile (home : NoteHome) (target : NoteTarget) : String :=
  match (home target).map Utf8.decode with
  | some (.ok chars) => trim (String.ofList chars)
  | _ => ""

def writeCapped (home : NoteHome) (target : NoteTarget) (contents : String) (disk : DiskAnswer) :
    Except String String × NoteHome :=
  let len := contents.toList.length
  if target.charCap < len then
    (.error (target.fileName ++ " would be " ++ toString len ++ " chars, over the "
      ++ toString target.charCap ++ "-char cap. Consolidate existing notes (replace/remove redundant "
      ++ "lines) before adding more — this layer is intentionally small because it is in context "
      ++ "every turn."), home)
  else
    let bytes := noteBytes (contents ++ "\n")
    match disk with
    | .written => (.ok contents, update home target (some bytes))
    | .refused error => (.error error, home)
    | .torn kept error => (.error error, update home target (some (bytes.take kept)))

def appendNote (home : NoteHome) (target : NoteTarget) (text : String) (disk : DiskAnswer) :
    Except String String × NoteHome :=
  let addition := trim text
  if addition.isEmpty then (.error "note text is empty", home)
  else
    let current := readNoteFile home target
    let next := if current.isEmpty then addition else current ++ "\n" ++ addition
    writeCapped home target next disk

section

/- Which characters are shown as they are in a quoted text. -/
variable (printable : Char → Bool)

def editNote (home : NoteHome) (target : NoteTarget) (find verb : String)
    (edit : String × String → String) (disk : DiskAnswer) : Except String String × NoteHome :=
  if find.isEmpty then (.error "`find` text is empty", home)
  else
    match splitOnce (readNoteFile home target) find with
    | none => (.error ("no match for " ++ Patch.quoted printable find.toList ++ " in "
        ++ target.fileName ++ " — nothing " ++ verb), home)
    | some around => writeCapped home target (trim (edit around)) disk

/-- Replace the first match of a text in the notes. -/
def replaceNote (home : NoteHome) (target : NoteTarget) (find replacement : String)
    (disk : DiskAnswer) : Except String String × NoteHome :=
  editNote printable home target find "replaced" (fun (before, after) => before ++ replacement ++ after) disk

def removeNote (home : NoteHome) (target : NoteTarget) (find : String) (disk : DiskAnswer) :
    Except String String × NoteHome :=
  editNote printable home target find "removed"
    (fun (before, after) => "\n".intercalate ((lines (before ++ after)).filter (!isBlank ·))) disk

inductive NoteOp where
  | append (text : String)
  | replace (find replacement : String)
  | remove (find : String)
  deriving DecidableEq, Repr

/-- Carry out an operation on a target, with what the disk makes of its write. -/
def NoteOp.run (home : NoteHome) : NoteTarget × NoteOp × DiskAnswer → Except String String × NoteHome
  | (target, .append text, disk) => appendNote home target text disk
  | (target, .replace find replacement, disk) => replaceNote printable home target find replacement disk
  | (target, .remove find, disk) => removeNote printable home target find disk

theorem NoteOp.run_cases (home : NoteHome) (target : NoteTarget) (op : NoteOp) (disk : DiskAnswer) :
    (∃ error, NoteOp.run printable home (target, op, disk) = (.error error, home)) ∨
      ∃ contents, NoteOp.run printable home (target, op, disk) = writeCapped home target contents disk := by
  have edited : ∀ find verb edit,
      (∃ error, editNote printable home target find verb edit disk = (.error error, home)) ∨
        ∃ contents, editNote printable home target find verb edit disk =
          writeCapped home target contents disk := by
    intro find verb edit
    unfold editNote
    split
    · exact .inl ⟨_, rfl⟩
    · split
      · exact .inl ⟨_, rfl⟩
      · exact .inr ⟨_, rfl⟩
  cases op with
  | append text =>
    simp only [run, appendNote]
    split
    · exact .inl ⟨_, rfl⟩
    · exact .inr ⟨_, rfl⟩
  | replace find replacement => exact edited ..
  | remove find => exact edited ..

end

/-- What a write within the cap can leave behind: the text with its line break, nothing, or a front of it. -/
inductive Written (home : NoteHome) (target : NoteTarget) (disk : DiskAnswer) :
    Except String String × NoteHome → Prop
  | stopped {error : String} : Written home target disk (.error error, home)
  | done {contents : String} (fits : contents.toList.length ≤ target.charCap) :
      Written home target disk (.ok contents, update home target (some (noteBytes (contents ++ "\n"))))
  | torn {contents error : String} {kept : Nat} (fits : contents.toList.length ≤ target.charCap)
      (broken : disk = .torn kept error) : Written home target disk
        (.error error, update home target (some ((noteBytes (contents ++ "\n")).take kept)))

theorem written_run (printable : Char → Bool) (home : NoteHome) (target : NoteTarget) (op : NoteOp)
    (disk : DiskAnswer) : Written home target disk (NoteOp.run printable home (target, op, disk)) := by
  rcases NoteOp.run_cases printable home target op disk with ⟨error, stops⟩ | ⟨contents, writes⟩
  · rw [stops]
    exact .stopped
  · rw [writes]
    unfold writeCapped
    by_cases above : target.charCap < contents.toList.length
    · simp only [if_pos above]
      exact .stopped
    · simp only [if_neg above]
      cases disk with
      | written => exact .done (Nat.le_of_not_lt above)
      | refused error => exact .stopped
      | torn kept error => exact .torn (Nat.le_of_not_lt above) rfl

def Capped (home : NoteHome) : Prop := ∀ target, (readNoteFile home target).toList.length ≤ target.charCap

theorem length_read_update_le {home : NoteHome} {target : NoteTarget} {contents : String}
    {bytes : List UInt8} (fits : contents.toList.length ≤ target.charCap)
    (front : ∀ chars, Utf8.decode bytes = .ok chars → chars <+: (contents ++ "\n").toList) :
    (readNoteFile (update home target (some bytes)) target).toList.length ≤ target.charCap := by
  simp only [readNoteFile, update_self, Option.map_some]
  cases read : Utf8.decode bytes with
  | error error => simp
  | ok chars =>
    -- A front with the line break is the whole text, of which the line break is trimmed.
    have begins : chars <+: contents.toList ++ ['\n'] := by simpa using front chars read
    show (trim (String.ofList chars)).toList.length ≤ target.charCap
    rcases List.prefix_concat_iff.1 begins with rfl | shorter
    · have joined : String.ofList (contents.toList ++ ['\n']) = contents ++ "\n" := by
        rw [String.ofList_append, String.ofList_toList]
      rw [joined, trim_newline]
      exact (trim_within contents).length_le.trans fits
    · have kept := (trim_within (String.ofList chars)).length_le
      rw [String.toList_ofList] at kept
      exact kept.trans (shorter.length_le.trans fits)

theorem Capped.written {home : NoteHome} (capped : Capped home) {target : NoteTarget}
    {disk : DiskAnswer} {result : Except String String × NoteHome}
    (written : Written home target disk result) : Capped result.2 := by
  have elsewhere : ∀ bytes, (readNoteFile (update home target (some bytes)) target).toList.length
      ≤ target.charCap → Capped (update home target (some bytes)) := by
    intro bytes own other
    by_cases same : other = target
    · exact same ▸ own
    · simpa [readNoteFile, Function.update_of_ne same] using capped other
  cases written with
  | stopped => exact capped
  | done fits =>
    refine elsewhere _ (length_read_update_le fits fun chars read => ?_)
    rw [noteBytes, Utf8.decode_flatMap_utf8EncodeChar, Except.ok.injEq] at read
    exact read ▸ List.prefix_rfl
  | torn fits broken => exact elsewhere _ (length_read_update_le fits fun chars => Utf8.decode_take)

/-- The home that a run of operations leaves behind. -/
def runNotes (printable : Char → Bool) (home : NoteHome)
    (ops : List (NoteTarget × NoteOp × DiskAnswer)) : NoteHome :=
  ops.foldl (fun home op => (NoteOp.run printable home op).2) home

/--
The curated notes over any run of operations, from files whose notes are within their caps.

After every operation both notes are within their caps.
A successful operation leaves its text in the file with a line break behind it,
so that the file itself may have one character more than the cap.
A failed operation leaves both files as they were unless the disk broke off its write,
and no operation changes the other file.
-/
theorem curated_notes (printable : Char → Bool) (home : NoteHome) (capped : Capped home)
    (done : List (NoteTarget × NoteOp × DiskAnswer)) (target : NoteTarget) (op : NoteOp) (disk : DiskAnswer) :
    let before := runNotes printable home done
    let result := NoteOp.run printable before (target, op, disk)
    Capped result.2 ∧
      (∀ contents, result.1 = .ok contents → contents.toList.length ≤ target.charCap ∧
        result.2 target = some (noteBytes (contents ++ "\n"))) ∧
      (∀ error, result.1 = .error error → (∀ kept, disk ≠ .torn kept error) → result.2 = before) ∧
      ∀ other, other ≠ target → result.2 other = before other := by
  intro before result
  have start : Capped before := Run.invariant _ Capped
    (fun home (target, op, disk) capped => capped.written (written_run printable home target op disk))
    capped done
  have written : Written before target disk result := written_run printable before target op disk
  refine ⟨start.written written, ?_⟩
  generalize result = result at written
  cases written with
  | stopped => simp
  | done fits => simp +contextual [fits]
  | torn fits broken => simp +contextual [broken]

/-- An empty home takes a first note. -/
theorem curated_notes_first :
    Capped (NoteOp.run (fun _ => true) (fun _ => none) (.user, .append " likes tabs ", .written)).2 :=
  (curated_notes (fun _ => true) (fun _ => none) (fun _ => Nat.zero_le _) [] .user
    (.append " likes tabs ") .written).1

theorem appendNote_first {target : NoteTarget} {contents : String} (trimmed : trim contents = contents)
    (nonempty : contents.isEmpty = false) (fits : contents.toList.length ≤ target.charCap) :
    appendNote (fun _ => none) target contents .written =
      (.ok contents, update (fun _ => none) target (some (noteBytes (contents ++ "\n")))) := by
  have first : readNoteFile (fun _ => none) target = "" := rfl
  simp [appendNote, trimmed, nonempty, first, writeCapped, Nat.not_lt.2 fits]

theorem appendNote_full {target : NoteTarget} {cap : Nat} (own : target.charCap = cap) (some : 0 < cap) :
    ∃ contents home chars, appendNote (fun _ => none) target contents .written = (.ok contents, home) ∧
      (home target).map Utf8.decode = Option.some (.ok chars) ∧ chars.length = cap + 1 := by
  refine ⟨String.ofList (List.replicate cap 'a'), _, List.replicate cap 'a' ++ ['\n'],
    appendNote_first ?_ ?_ ?_, ?_, by simp⟩
  · have letter : isWhitespace 'a' = false := by decide
    simp [trim, letter]
  · simpa using Nat.pos_iff_ne_zero.1 some
  · simp [own]
  · rw [update_self, Option.map_some, noteBytes, Utf8.decode_flatMap_utf8EncodeChar]
    simp

/-- A note of exactly the cap leaves a file with one character more, and a write can break off. -/
theorem notes_over_cap_and_torn :
    (∃ contents home chars, appendNote (fun _ => none) .agent contents .written = (.ok contents, home) ∧
      (home .agent).map Utf8.decode = some (.ok chars) ∧ chars.length = 2000 + 1) ∧
    (appendNote (fun _ => some (noteBytes "a\n")) .agent "b" (.torn 0 "disk full")).1 = .error "disk full" ∧
    (appendNote (fun _ => some (noteBytes "a\n")) .agent "b" (.torn 0 "disk full")).2 .agent = some [] :=
  ⟨appendNote_full rfl (by decide), by decide +kernel⟩

end Codel00p
