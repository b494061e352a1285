import Codel00p.Harness.Permission
import Codel00p.Lib.Disk
import Codel00p.Lib.Except

/-! The local file system of a workspace: how a path is resolved, checked, read, and written. -/

namespace Codel00p

open Program (exec Moves exec_bind exec_bind_eq_ok exec_ofExcept exec_attempt)

abbrev FsM := Program HarnessError Disk

def ofIo {α : Type} (operation : DiskM α) : FsM α := do
  let outcome ← Program.attempt operation
  Program.ofExcept (outcome.mapError .io)

/-- Ask the file system, without changing it. -/
def query {α : Type} (question : Files → Except HarnessError α) : FsM α := do
  Program.ofExcept (← Program.reads fun disk => question disk.files)

structure FileKind where
  pathExists : Bool
  isFile : Bool
  isDir : Bool
  /-- The size of a file, and zero for anything else. -/
  size : Nat
  deriving DecidableEq, Repr

/-- A path that leads nowhere. -/
def FileKind.missing : FileKind := { pathExists := false, isFile := false, isDir := false, size := 0 }

/-- Go through the components of a path for the first one that is not allowed. -/
def rejectComponents (path : String) : List String → Except HarnessError Unit
  | [] => .ok ()
  | name :: rest =>
    if name = ".." then .error (.workspaceEscape path)
    else if name = "" then .error (.invalidWorkspacePath path)
    else rejectComponents path rest

def rejectUnsafeComponents (path : String) : Except HarnessError Unit := rejectComponents path (Path.parse path).names

def firstExisting (files : Files) : List String → Option (List String)
  | [] => if files.pathExists [] then some [] else none
  | name :: up =>
    if files.pathExists (name :: up).reverse then some (name :: up).reverse else firstExisting files up

def nearestExistingParent (files : Files) (path : List String) : Except HarnessError (List String) :=
  match firstExisting files path.reverse with
  | some ancestor => .ok ancestor
  | none => .error (.invalidWorkspacePath (displayNames path))

namespace LocalFs

/-- Where an existing entry is, if that is inside the root; an absolute path is taken as it is. -/
def resolveExisting (root : Location) (rel : String) (files : Files) : Except HarnessError Location := do
  rejectUnsafeComponents rel
  let candidate := (Path.parse rel).join root
  let resolved ← (files.canonicalize candidate.steps).mapError .io
  if root.isPrefixOf resolved then return resolved else throw (.workspaceEscape rel)

def resolveParent (files : Files) (parent : List String) : Except HarnessError Location :=
  if files.pathExists parent then (files.canonicalize parent).mapError .io
  else do
    let ancestor ← nearestExistingParent files parent
    (files.canonicalize ancestor).mapError .io

def resolveForCreate (root : Location) (rel : String) (files : Files) : Except HarnessError Path := do
  rejectUnsafeComponents rel
  if (Path.parse rel).absolute then throw (.workspaceEscape rel)
  else
    let candidate := (Path.parse rel).join root
    match candidate.parent with
    | none => throw (.invalidWorkspacePath rel)
    | some parent =>
      let resolvedParent ← resolveParent files parent
      -- Only the parent was resolved: a link under the last name is returned as it is.
      if root.isPrefixOf resolvedParent then return candidate else throw (.workspaceEscape rel)

def readFile (root : Location) (rel : String) : FsM ByteArray := do
  let resolved ← query (resolveExisting root rel)
  ofIo (Disk.read resolved)

def makeParent (destination : Path) : FsM Unit :=
  match destination.parent with
  | some parent => ofIo (Disk.createDirAll parent.reverse)
  | none => pure ()

def writeFile (root : Location) (rel : String) (contents : ByteArray) : FsM Unit := do
  let destination ← query (resolveForCreate root rel)
  makeParent destination
  ofIo (Disk.write destination.steps contents)

def deleteFile (root : Location) (rel : String) : FsM Unit := do
  let resolved ← query (resolveExisting root rel)
  ofIo (Disk.removeFile resolved)

/-- Create a directory and what is missing above it. -/
def createDirAll (root : Location) (rel : String) : FsM Unit := do
  let destination ← query (resolveForCreate root rel)
  ofIo (Disk.createDirAllAt destination)

/-- What an entry is, by the place it was resolved to. -/
def kindAt (files : Files) (resolved : Location) : Except HarnessError FileKind :=
  match files.node resolved with
  | some (.file contents) => .ok { pathExists := true, isFile := true, isDir := false, size := contents.size }
  | some .directory => .ok { pathExists := true, isFile := false, isDir := true, size := 0 }
  | _ => .error (.io .notFound)

/-- Whether a path exists and what it is; a path that leads nowhere is no error. -/
def metadata (root : Location) (rel : String) (files : Files) : Except HarnessError FileKind :=
  match resolveExisting root rel files with
  | .ok resolved => kindAt files resolved
  | .error (.io .notFound) => .ok .missing
  | .error error => .error error

end LocalFs

variable {α : Type} {disk reached : Disk}

@[simp] theorem exec_query (question : Files → Except HarnessError α) (disk : Disk) :
    exec (query question) disk = (question disk.files, disk) := by
  simp [query, exec_bind]

theorem exec_query_bind_eq_ok {β : Type} {question : Files → Except HarnessError α} {next : α → FsM β} {result : β} :
    exec (query question >>= next) disk = (.ok result, reached) ↔
      ∃ value, question disk.files = .ok value ∧ exec (next value) disk = (.ok result, reached) := by
  rw [exec_bind, exec_query]
  cases question disk.files <;> simp

theorem query_moves {relation : Disk → Disk → Prop} [Std.Refl relation]
    (question : Files → Except HarnessError α) : Moves relation (query question) := by
  intro disk
  rw [exec_query]
  exact Std.Refl.refl disk

theorem ofIo_moves {relation : Disk → Disk → Prop} {operation : DiskM α}
    (moves : Moves relation operation) : Moves relation (ofIo operation) := by
  intro disk
  simpa [ofIo, exec_bind] using moves disk

theorem exec_ofIo_eq_ok {operation : DiskM α} {value : α} : exec (ofIo operation) disk = (.ok value, reached) ↔
      exec operation disk = (.ok value, reached) := by
  simp only [ofIo, exec_bind, exec_attempt, exec_ofExcept]
  generalize exec operation disk = outcome
  rcases outcome with ⟨error | result, after⟩ <;> simp [Except.mapError]

theorem LocalFs.exec_readFile_eq_ok {root : Location} {rel : String} {contents : ByteArray} :
    exec (readFile root rel) disk = (.ok contents, reached) ↔
      (∃ resolved, resolveExisting root rel disk.files = .ok resolved ∧
        disk.files.node resolved = some (.file contents)) ∧ disk = reached := by
  simp only [readFile, exec_query_bind_eq_ok, exec_ofIo_eq_ok, Disk.exec_read_eq_ok]
  constructor
  · rintro ⟨resolved, resolution, stored, same⟩
    exact ⟨⟨resolved, resolution, stored⟩, same⟩
  · rintro ⟨⟨resolved, resolution, stored⟩, same⟩
    exact ⟨resolved, resolution, stored, same⟩

theorem LocalFs.resolveExisting_eq_ok {root location : Location} {rel : String} {files : Files} :
    resolveExisting root rel files = .ok location ↔ rejectUnsafeComponents rel = .ok () ∧
      files.canonicalize ((Path.parse rel).join root).steps = .ok location ∧ root <+: location := by
  simp only [resolveExisting, Except.bind_eq_ok, Except.mapError_eq_ok, Except.guard_eq_ok, List.isPrefixOf_iff_prefix]
  constructor
  · rintro ⟨_, safe, _, found, inside, rfl⟩
    exact ⟨safe, found, inside⟩
  · rintro ⟨safe, found, inside⟩
    exact ⟨(), safe, location, found, inside, rfl⟩

theorem rejectComponents_eq_ok {path : String} {names : List String}
    (passed : rejectComponents path names = .ok ()) : ".." ∉ names := by
  induction names with
  | nil => simp
  | cons name rest ih =>
    rw [rejectComponents] at passed
    split at passed
    · exact nomatch passed
    · next other =>
      split at passed
      · exact nomatch passed
      · rw [List.mem_cons, not_or]
        exact ⟨Ne.symm other, ih passed⟩

theorem canonicalize_firstExisting {files : Files} {path ancestor : List String}
    (found : firstExisting files path = some ancestor) : files.canonicalize ancestor = .ok (files.nearest path) := by
  induction path with
  | nil =>
    rw [firstExisting] at found
    split at found
    · cases found
      rfl
    · exact nomatch found
  | cons name up ih =>
    rw [firstExisting] at found
    split at found
    · next there =>
      cases found
      rw [Files.canonicalize_eq_nearest there, List.reverse_reverse]
    · next nowhere =>
      rw [ih found, Files.nearest_of_absent (by simpa using nowhere)]

namespace LocalFs

theorem resolveParent_eq_ok {files : Files} {parent : List String} {location : Location}
    (resolved : resolveParent files parent = .ok location) : location = files.nearest parent.reverse := by
  unfold resolveParent at resolved
  split at resolved
  · next there =>
    rw [Files.canonicalize_eq_nearest there] at resolved
    cases resolved
    rfl
  · obtain ⟨ancestor, found, leads⟩ := Except.bind_eq_ok.1 resolved
    unfold nearestExistingParent at found
    split at found
    · next first =>
      cases found
      rw [canonicalize_firstExisting first] at leads
      cases leads
      rfl
    · exact nomatch found

end LocalFs

end Codel00p
