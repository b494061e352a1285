import Codel00p.Harness.FileTools
import Codel00p.Harness.Patch
import Codel00p.Lib.Utf8
import Codel00p.Lib.Volume

/-! The `apply_patch` tool: changes are applied in memory before any file is written. -/

namespace Codel00p

/-- How a call of the tool may stop: with an error, or because the program does. -/
inductive ToolStop where
  | failed (error : HarnessError)
  | panicked
  deriving DecidableEq, Repr

abbrev PatchM := Program ToolStop Disk

/-- Run an operation of the harness, whose error stops the call. -/
def ofFs {α : Type} (operation : FsM α) : PatchM α := do
  let outcome ← Program.attempt operation
  Program.ofExcept (outcome.mapError .failed)

structure NormalizedChange where
  path : String
  find : String
  replace : String
  replaceAll : Bool
  deriving DecidableEq, Repr

/-- The names under which the path of a change is taken. -/
def pathKeys : List String := ["path", "file", "file_path", "filepath", "filename"]

def findKeys : List String := ["find", "search", "old", "old_string", "old_str", "old_text"]

/-- The names under which the text to write is taken. -/
def replaceKeys : List String := ["replace", "replacement", "new", "new_string", "new_str", "new_text"]

/-- The names under which it is taken whether every occurrence is replaced. -/
def replaceAllKeys : List String := ["replace_all", "replaceAll"]

def firstStr (value : Json) (keys : List String) : Option String :=
  keys.findSome? fun key => (value.get key).bind Json.asStr

def firstBool (value : Json) (keys : List String) : Option Bool :=
  keys.findSome? fun key => (value.get key).bind Json.asBool

/-- A field of a change, or the one of the whole call in its place. -/
def changeField (tool field : String) (keys : List String) (input change : Json) :
    Except HarnessError String :=
  match (firstStr change keys).or (firstStr input keys) with
  | some text => .ok text
  | none => .error (.invalidToolInput tool ("missing string field `" ++ field ++ "`"))

def normalizeChange (tool : String) (input change : Json) : Except HarnessError NormalizedChange := do
  let path ← changeField tool "path" pathKeys input change
  let find ← changeField tool "find" findKeys input change
  let replace ← changeField tool "replace" replaceKeys input change
  let replaceAll := ((firstBool change replaceAllKeys).or (firstBool input replaceAllKeys)).getD false
  if find.isEmpty then throw (.invalidToolInput tool "`find` must not be empty")
  else return { path, find, replace, replaceAll }

/-- The changes of a call as they were given: a list, a single one, or the call itself. -/
def rawChanges (input : Json) : List Json :=
  match input.get "changes" with
  | some (.array items) => items
  | some (.object fields) => [.object fields]
  | _ => [input]

def normalizeChanges (tool : String) (input : Json) : Except HarnessError (List NormalizedChange) :=
  if (rawChanges input).isEmpty then .error (.invalidToolInput tool "`changes` must not be empty")
  else (rawChanges input).mapM (normalizeChange tool input)

def existingFileKey (workspace : Workspace) (tool path : String) (files : Files) :
    Except HarnessError Location := do
  let resolved ← LocalFs.resolveForCreate workspace.root path files
  if ← workspace.isFile path files then
    match files.canonicalize resolved.steps with
    | .ok location => return location
    | .error _ => return resolved.names
  else throw (.toolFailed tool ("file does not exist: " ++ path))

namespace Workspace

variable (workspace : Workspace)

def readUtf8 (path : String) : FsM String := do
  let bytes ← workspace.readBytes path
  Program.ofExcept ((Utf8.readText bytes).mapError fun error => .io (.other error.message))

def writeThrough (volume : Volume) (path : String) (contents : ByteArray) : FsM Unit := do
  Program.ofExcept (rejectForCreate path)
  let destination ← query (LocalFs.resolveForCreate workspace.root path)
  LocalFs.makeParent destination
  ofIo (Disk.writeThrough volume destination.steps contents)

end Workspace

namespace ApplyPatch

def name : String := "apply_patch"

/-- The files that are to be written, with the path they were given by, and what is reported. -/
structure Staging where
  contents : List (Location × String × String) := []
  summaries : List Json := []

def summary (path : String) (outcome : Patch.ChangeOutcome) : Json :=
  .obj [("path", .string path), ("replacements", .ofNat outcome.replacements),
    ("bytes_written", .ofNat (byteLength outcome.patched)), ("strategy", .string outcome.strategy)]

def Staging.add (staging : Staging) (path : String) (key : Location) (outcome : Patch.ChangeOutcome) :
    Staging :=
  { contents := Assoc.insert key (path, String.ofList outcome.patched) staging.contents,
    summaries := staging.summaries ++ [summary path outcome] }

variable (printable : Char → Bool) (volume : Volume) (workspace : Workspace)

/-- The contents that a change applies to: those of the last change to the file, or those on the disk. -/
def currentContents (path : String) (staged : Option (String × String)) : PatchM String :=
  match staged with
  | some (_, existing) => pure existing
  | none => ofFs (workspace.readUtf8 path)

def outcomeOf (change : NormalizedChange) (current : String) : Except ToolStop Patch.ChangeOutcome :=
  match Patch.applyChange printable current.toList change.find.toList change.replace.toList
    change.replaceAll with
  | some (.ok outcome) => .ok outcome
  | some (.error message) => .error (.failed (.toolFailed name (change.path ++ ": " ++ message)))
  | none => .error .panicked

/-- Apply a change in memory. -/
def stageChange (staging : Staging) (change : NormalizedChange) : PatchM Staging := do
  let key ← ofFs (query (existingFileKey workspace name change.path))
  let current ← currentContents workspace change.path (staging.contents.lookup key)
  let outcome ← Program.ofExcept (outcomeOf printable change current)
  return staging.add change.path key outcome

/-- Apply changes in memory, each of them to what the ones before it have left. -/
def stageChanges : List NormalizedChange → Staging → PatchM Staging
  | [], staging => pure staging
  | change :: changes, staging => do
    stageChanges changes (← stageChange printable workspace staging change)

/-- Write the files in the order of their keys. -/
def writeStaged (contents : List (Location × String × String)) : PatchM Unit :=
  contents.forM fun (_, path, patched) => ofFs (workspace.writeThrough volume path patched.toUTF8)

def applyChanges (changes : List NormalizedChange) : PatchM ToolResult := do
  let staging ← stageChanges printable workspace changes {}
  writeStaged volume workspace staging.contents
  return { content := .obj [("operation", .string "patched"), ("changes", .array staging.summaries)] }

def execute (input : Json) : PatchM ToolResult := do
  let changes ← Program.ofExcept ((normalizeChanges name input).mapError .failed)
  applyChanges printable volume workspace changes

end ApplyPatch

end Codel00p
