import Codel00p.Harness.ApplyPatch
import Codel00p.Harness.Confinement

/-! The file that a change is to: how its path is recognized, and what is read and written by it. -/

namespace Codel00p

open LocalFs (resolveParent kindAt metadata)
open Program (exec exec_bind exec_reads exec_ofExcept exec_pure exec_attempt)

theorem exec_ofIo {α : Type} (operation : DiskM α) (disk : Disk) : exec (ofIo operation) disk =
      ((exec operation disk).1.mapError .io, (exec operation disk).2) := by
  simp [ofIo, exec_bind, exec_attempt, exec_ofExcept]

namespace Files.Rewrites

variable {files more : Files}

section

variable (rewrites : files.Rewrites more)

include rewrites

theorem firstExisting (path : List String) :
    Codel00p.firstExisting more path = Codel00p.firstExisting files path := by
  induction path with
  | nil => rw [Codel00p.firstExisting, Codel00p.firstExisting, rewrites.pathExists]
  | cons name up ih => rw [Codel00p.firstExisting, Codel00p.firstExisting, rewrites.pathExists, ih]

theorem resolveForCreate (root : Location) (rel : String) :
    LocalFs.resolveForCreate root rel more = LocalFs.resolveForCreate root rel files := by
  have parents : resolveParent more = resolveParent files := by
    funext parent
    simp [resolveParent, nearestExistingParent, rewrites.pathExists, rewrites.canonicalize, rewrites.firstExisting]
  simp [LocalFs.resolveForCreate, parents]

theorem resolveExisting (root : Location) (rel : String) :
    LocalFs.resolveExisting root rel more = LocalFs.resolveExisting root rel files := by
  simp [LocalFs.resolveExisting, rewrites.canonicalize]

theorem isFile (workspace : Workspace) (path : String) :
    workspace.isFile path more = workspace.isFile path files := by
  have kinds : ∀ location, (kindAt more location).map FileKind.isFile =
      (kindAt files location).map FileKind.isFile := by
    intro location
    rcases rewrites location with same | ⟨old, new, before, after⟩
    · simp [kindAt, same]
    · simp only [kindAt, before, after]
      rfl
  have found : (metadata workspace.root path more).map FileKind.isFile =
      (metadata workspace.root path files).map FileKind.isFile := by
    simp only [metadata, rewrites.resolveExisting]
    split
    · exact kinds _
    · rfl
    · rfl
  unfold Workspace.isFile Workspace.metadata
  cases rejectUnsafeComponents path with
  | error error => rfl
  | ok passed => exact found

theorem existingFileKey (workspace : Workspace) (tool path : String) :
    Codel00p.existingFileKey workspace tool path more = Codel00p.existingFileKey workspace tool path files := by
  simp [Codel00p.existingFileKey, rewrites.resolveForCreate, rewrites.isFile, rewrites.canonicalize]

end

end Files.Rewrites

structure PatchTarget (workspace : Workspace) (path : String) (key : Location) (files : Files) : Prop where
  /-- The text of the path may be written to. -/
  passed : Workspace.rejectForCreate path = .ok ()
  /-- It is resolved to a path next to the root. -/
  created : LocalFs.resolveForCreate workspace.root path files = .ok ((Path.parse path).join workspace.root)
  /-- That path leads to the file. -/
  there : files.lookup ((Path.parse path).join workspace.root).steps = .ok (.file key)
  /-- The file is inside the root. -/
  inside : LocalFs.resolveExisting workspace.root path files = .ok key
  /-- The directory of the path is there. -/
  above : ∃ up location, ((Path.parse path).join workspace.root).parent = some up ∧
    Files.Proper up ∧ files.lookup up = .ok (.directory location)

variable {path : String} {files : Files}

theorem rejectForCreate_eq_ok {root : Location} {destination : Path}
    (resolved : LocalFs.resolveForCreate root path files = .ok destination) :
    Workspace.rejectForCreate path = .ok () := by
  obtain ⟨_, passed, resolved⟩ := Except.bind_eq_ok.1 resolved
  split at resolved
  · exact nomatch resolved
  · next relative =>
    refine Except.bind_eq_ok.2 ⟨(), passed, ?_⟩
    rw [if_neg relative]
    rfl

theorem isFile_eq_ok {workspace : Workspace} (found : workspace.isFile path files = .ok true) :
    ∃ key contents, LocalFs.resolveExisting workspace.root path files = .ok key ∧
      files.node key = some (.file contents) := by
  obtain ⟨kind, looked, isFile⟩ := Except.bind_eq_ok.1 found
  obtain ⟨_, _, looked⟩ := Except.bind_eq_ok.1 looked
  have isFile := Except.pure_eq_ok.1 isFile
  unfold metadata at looked
  split at looked
  · next key resolved =>
    unfold kindAt at looked
    split at looked
    · next contents entry => exact ⟨key, contents, resolved, entry⟩
    · cases looked
      exact nomatch isFile
    · exact nomatch looked
  · -- A path that leads nowhere is no file.
    cases looked
    exact nomatch isFile
  · exact nomatch looked

theorem existingFileKey_eq_ok {workspace : Workspace} {tool : String} {key : Location}
    (found : existingFileKey workspace tool path files = .ok key) : PatchTarget workspace path key files := by
  obtain ⟨destination, created, found⟩ := Except.bind_eq_ok.1 found
  obtain ⟨joined, up, name, creatable⟩ := LocalFs.resolveForCreate_eq_ok created
  subst joined
  obtain ⟨isFile, asked, found⟩ := Except.bind_eq_ok.1 found
  cases isFile with
  | false => cases found
  | true =>
    obtain ⟨location, contents, resolved, entry⟩ := isFile_eq_ok asked
    have there := files.lookup_of_canonicalize (LocalFs.resolveExisting_eq_ok.1 resolved).2.1 entry
    have same : location = key := by
      simpa only [if_true, Files.canonicalize, there, Except.pure_eq_ok] using found
    subst same
    -- Only a directory can have a file in it.
    have opened : files.opens ((Path.parse path).join workspace.root).steps = some location := by
      rw [Files.opens, there]
    have names := (Files.names_of_opens opened).trans creatable.names
    have above : ∃ parent, files.lookup up = .ok (.directory parent) := by
      by_contra stuck
      obtain ⟨error, failed⟩ := files.lookup_append_error (not_exists.1 stuck) (List.cons_ne_nil name [])
      rw [← names, there] at failed
      cases failed
    obtain ⟨parent, above⟩ := above
    refine ⟨rejectForCreate_eq_ok created, created, there, resolved, up, parent, ?_, ?_, above⟩
    · simp [Path.parent, creatable.names]
    · exact fun other member => creatable.proper workspace.proper other (by simp [member])

namespace PatchTarget

variable {workspace : Workspace} {path : String} {key : Location} {disk : Disk}

theorem exec_readUtf8 (keyed : PatchTarget workspace path key disk.files) {contents : ByteArray}
    (entry : disk.files.node key = some (.file contents)) : exec (workspace.readUtf8 path) disk =
      ((Utf8.readText contents).mapError fun error => .io (.other error.message), disk) := by
  have passed := (LocalFs.resolveExisting_eq_ok.1 keyed.inside).1
  simp [Workspace.readUtf8, Workspace.readBytes, LocalFs.readFile, exec_bind, exec_ofExcept, passed, exec_query, keyed.inside, exec_ofIo, Disk.read, exec_reads, entry, exec_pure, Except.mapError]

theorem exec_writeThrough (keyed : PatchTarget workspace path key disk.files) (volume : Volume)
    (contents : ByteArray) :
    exec (workspace.writeThrough volume path contents) disk =
      match volume.refusal key with
      | some error => (.error (.io error), disk)
      | none => (.ok (), disk.written volume key contents) := by
  obtain ⟨up, location, parent, proper, above⟩ := keyed.above
  have led : disk.files.lookup up.reverse.reverse = .ok (.directory location) := by
    rw [List.reverse_reverse]
    exact above
  have made : exec (Disk.createDirAll up.reverse) disk = (.ok (), disk) :=
    Disk.exec_createDirAll_of_directory (fun name member => proper name (List.mem_reverse.1 member)) led
  simp only [Workspace.writeThrough, exec_bind, exec_ofExcept, keyed.passed, exec_query,
    keyed.created, LocalFs.makeParent, parent, exec_ofIo, made, Except.mapError,
    Disk.exec_writeThrough keyed.there]
  cases volume.refusal key <;> rfl

end PatchTarget

end Codel00p
