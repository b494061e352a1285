import Codel00p.Harness.Confinement
import Codel00p.Lib.Ways

/-! Moving a file: the data is kept unless both paths lead to the same file. -/

namespace Codel00p

open Program (exec)

def Files.Stores (files : Files) (path : List String) (contents : ByteArray) : Prop :=
  ∃ location, files.lookup path = .ok (.file location) ∧ files.node location = some (.file contents)

namespace LocalFs

theorem resolveExisting_kept {files more : Files} (ways : files.KeepsWays more) {root location : Location}
    {rel : String} {contents now : ByteArray} (resolved : resolveExisting root rel files = .ok location)
    (stored : files.node location = some (.file contents)) (still : more.node location = some (.file now)) :
    resolveExisting root rel more = .ok location := by
  obtain ⟨safe, led, inside⟩ := resolveExisting_eq_ok.1 resolved
  have opened : files.opens ((Path.parse rel).join root).steps = some location := by
    rw [Files.opens, files.lookup_of_canonicalize led stored]
  have leads := ways.lookup_file opened still
  exact resolveExisting_eq_ok.2 ⟨safe, by rw [Files.canonicalize, leads], inside⟩

theorem writeFile_effect {root : Location} {rel : String} {contents : ByteArray} {disk reached : Disk}
    (proper : Files.Proper root) (ran : exec (writeFile root rel contents) disk = (.ok (), reached)) :
    ∃ between place, disk.Grows between ∧ between.files.opens ((Path.parse rel).join root).steps = some place ∧
      (∃ settable, reached = between.after place (some (.file contents)) settable) ∧
      ∀ location old, disk.files.node location = some (.file old) →
        (place = location ↔ disk.files.opens ((Path.parse rel).join root).steps = some location) := by
  obtain ⟨up, name, parent, between, place, creatable, ran, made, opened, wrote⟩ := writeFile_eq_ok proper ran
  have grown : disk.Grows between := by
    have moved := Disk.createDirAll_grows up.reverse disk
    rwa [ran] at moved
  refine ⟨between, place, grown, opened, wrote, fun location old stored => ⟨?_, ?_⟩⟩
  · rintro rfl
    by_cases found : disk.files.isDirectory up = true
    · cases made.kept (by rw [List.reverse_reverse]; exact found)
      exact opened
    · -- The directory is new, so nothing was stored where the file is created.
      obtain ⟨-, free⟩ := opens_fresh proper creatable made (by simpa using found) opened
      cases free.symm.trans (grown place (.file old) stored)
  · intro before
    have leads := (Files.KeepsWays.of_extends grown).lookup_file before (grown location (.file old) stored)
    rw [Files.opens, leads] at opened
    cases opened
    rfl

end LocalFs

namespace Workspace

/--
After a move that succeeds the destination holds the bytes of the source exactly when
it did not lead to the file that is moved.

The bytes are written before the source is removed, and nothing compares the two paths.
-/
theorem move_keeps_data_iff (workspace : Workspace) (input : Json) {disk reached : Disk} {result : ToolResult}
    (ran : exec (workspace.moveFile input) disk = (.ok result, reached)) :
    ∃ source dest location bytes, input.getStr "from" = some source ∧ input.getStr "to" = some dest ∧
      LocalFs.resolveExisting workspace.root source disk.files = .ok location ∧
      disk.files.node location = some (.file bytes) ∧
      (reached.files.Stores ((Path.parse dest).join workspace.root).steps bytes ↔
        disk.files.opens ((Path.parse dest).join workspace.root).steps ≠ some location) := by
  obtain ⟨source, dest, location, bytes, written, given, wanted, resolved, stored, wrote, deleted⟩ :=
    moveFile_eq_ok ran
  refine ⟨source, dest, location, bytes, given, wanted, resolved, stored, ?_⟩
  obtain ⟨between, place, grown, opened, ⟨settable, rfl⟩, same⟩ := LocalFs.writeFile_effect workspace.proper wrote
  obtain ⟨removed, again, ran⟩ := exec_query_bind_eq_ok.1 deleted
  obtain ⟨gone, rfl⟩ := Disk.exec_removeFile_eq_ok (exec_ofIo_eq_ok.1 ran)
  rw [ne_eq, ← same location bytes stored]
  -- The source is found as before, because it still is a file.
  have ways := (Files.KeepsWays.of_extends grown).trans
    (.of_set settable fun old there => Files.file_of_opens opened there)
  have still : ∃ now, (between.after place (some (.file bytes)) settable).files.node location = some (.file now) := by
    by_cases own : location = place
    · exact ⟨bytes, if_pos own⟩
    · exact ⟨bytes, (if_neg own).trans (grown location (.file bytes) stored)⟩
  obtain ⟨now, still⟩ := still
  cases again.symm.trans (LocalFs.resolveExisting_kept ways resolved stored still)
  -- Without it, the destination leads to what is left where it was written.
  have ways := (Files.KeepsWays.of_set settable fun old there => Files.file_of_opens opened there).trans
    (.of_set gone fun old there => ⟨now, by cases still.symm.trans there; rfl⟩)
  constructor
  · rintro ⟨found, leads, -⟩ rfl
    obtain ⟨parent, name, nowhere⟩ := ways.lookup_gone opened (if_pos rfl)
    cases leads.symm.trans nowhere
  · intro apart
    have kept : ((between.after place (some (.file bytes)) settable).after location none gone).files.node place =
        some (.file bytes) := (if_neg apart).trans (if_pos rfl)
    exact ⟨place, ways.lookup_file opened kept, kept⟩

end Workspace

def moveDraft (dest : String) : Json :=
  .obj [("from", .string "draft"), ("to", .string dest), ("overwrite", .bool true)]

/-- A draft that is moved to another spelling of its own path is gone. -/
theorem move_onto_itself_loses :
    (exec (officeWorkspace.moveFile (moveDraft "./draft")) (office none none)).1.toOption.isSome = true ∧
      (office none none).files.lookup ["work", "draft"] = .ok (.file ["work", "draft"]) ∧
      (exec (officeWorkspace.moveFile (moveDraft "./draft")) (office none none)).2.files.lookup
        ["work", "draft"] = .ok (.missing ["work"] "draft") := by
  refine ⟨?_, ?_, ?_⟩
  all_goals decide +kernel

/-- A draft that is moved elsewhere is kept. -/
theorem move_elsewhere_keeps : ∃ source dest location bytes, (moveDraft "notes").getStr "from" = some source ∧
      (moveDraft "notes").getStr "to" = some dest ∧
      LocalFs.resolveExisting officeWorkspace.root source (office none none).files = .ok location ∧
      (office none none).files.node location = some (.file bytes) ∧
      ((exec (officeWorkspace.moveFile (moveDraft "notes")) (office none none)).2.files.Stores
          ((Path.parse dest).join officeWorkspace.root).steps bytes ↔
        (office none none).files.opens ((Path.parse dest).join officeWorkspace.root).steps ≠ some location) := by
  have succeeds : (exec (officeWorkspace.moveFile (moveDraft "notes")) (office none none)).1.toOption.isSome =
      true := by decide +kernel
  obtain ⟨result, ran⟩ := Except.exists_ok_of_isSome succeeds
  exact officeWorkspace.move_keeps_data_iff (moveDraft "notes") ran

end Codel00p
