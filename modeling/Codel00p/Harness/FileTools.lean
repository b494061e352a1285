import Codel00p.Harness.Assembly
import Codel00p.Harness.LocalFs

/-! The workspace as the tools see it, and the tools that create, replace, delete, move, and copy files. -/

namespace Codel00p

structure Workspace where
  root : Location
  proper : Files.Proper root

namespace Workspace

def new (path : Path) : FsM Workspace := do
  let files ← Program.reads Disk.files
  match found : files.canonicalize path.steps with
  | .error error => throw (.io error)
  | .ok root =>
    if files.isDirectory root then return { root, proper := files.canonicalize_proper found }
    else throw (.invalidWorkspacePath (displayNames root))

variable (workspace : Workspace)

def readBytes (path : String) : FsM ByteArray := do
  Program.ofExcept (rejectUnsafeComponents path)
  LocalFs.readFile workspace.root path

/-- The checks on the text of a path that something is created at. -/
def rejectForCreate (path : String) : Except HarnessError Unit := do
  rejectUnsafeComponents path
  if (Path.parse path).absolute then throw (.workspaceEscape path) else return ()

def write (path : String) (contents : ByteArray) : FsM Unit := do
  Program.ofExcept (rejectForCreate path)
  LocalFs.writeFile workspace.root path contents

def delete (path : String) : FsM Unit := do
  Program.ofExcept (rejectUnsafeComponents path)
  LocalFs.deleteFile workspace.root path

/-- Create a directory and what is missing above it. -/
def createDirAll (path : String) : FsM Unit := do
  Program.ofExcept (rejectForCreate path)
  LocalFs.createDirAll workspace.root path

def metadata (path : String) (files : Files) : Except HarnessError FileKind := do
  rejectUnsafeComponents path
  LocalFs.metadata workspace.root path files

def pathExists (path : String) (files : Files) : Except HarnessError Bool := do
  return (← workspace.metadata path files).pathExists

def isFile (path : String) (files : Files) : Except HarnessError Bool := do
  return (← workspace.metadata path files).isFile

end Workspace

/-- A flag of a tool's input, which is off unless it is given. -/
def optionalBool (input : Json) (key : String) : Bool := ((input.get key).bind Json.asBool).getD false

def requireExistingFile (workspace : Workspace) (tool path : String) (files : Files) :
    Except HarnessError Unit := do
  if ← workspace.isFile path files then return ()
  else throw (.toolFailed tool ("file does not exist: " ++ path))

def readSourceFile (workspace : Workspace) (tool source : String) : FsM ByteArray := do
  query (requireExistingFile workspace tool source)
  workspace.readBytes source

def ensureDestFree (workspace : Workspace) (tool dest : String) (overwrite : Bool) (files : Files) :
    Except HarnessError Unit :=
  if overwrite then .ok ()
  else do
    if ← workspace.pathExists dest files then
      throw (.toolFailed tool ("destination already exists: " ++ dest ++ " (set `overwrite` to true to replace it)"))
    else return ()

namespace Workspace

variable (workspace : Workspace)

def createFile (input : Json) : FsM ToolResult := do
  let path ← Program.ofExcept (requiredString "create_file" input "path")
  let content ← Program.ofExcept (requiredString "create_file" input "content")
  if ← query (workspace.pathExists path) then
    throw (.toolFailed "create_file" ("file already exists: " ++ path))
  else do
    workspace.write path content.toUTF8
    return { content := .obj [("path", .string path), ("operation", .string "created"),
      ("bytes_written", .ofNat content.utf8ByteSize)] }

def updateFile (input : Json) : FsM ToolResult := do
  let path ← Program.ofExcept (requiredString "update_file" input "path")
  let content ← Program.ofExcept (requiredString "update_file" input "content")
  query (requireExistingFile workspace "update_file" path)
  workspace.write path content.toUTF8
  return { content := .obj [("path", .string path), ("operation", .string "updated"),
    ("bytes_written", .ofNat content.utf8ByteSize)] }

def deleteFile (input : Json) : FsM ToolResult := do
  let path ← Program.ofExcept (requiredString "delete_file" input "path")
  query (requireExistingFile workspace "delete_file" path)
  workspace.delete path
  return { content := .obj [("path", .string path), ("operation", .string "deleted")] }

/-- Copy the bytes of a source to a destination: what a move and a copy have in common. -/
def transfer (tool source dest : String) (overwrite : Bool) : FsM ByteArray := do
  let bytes ← readSourceFile workspace tool source
  query (ensureDestFree workspace tool dest overwrite)
  workspace.write dest bytes
  return bytes

/-- What a move or a copy reports. -/
def transferred (source dest operation : String) (bytes : ByteArray) : ToolResult :=
  { content := .obj [("from", .string source), ("to", .string dest), ("operation", .string operation),
    ("bytes_written", .ofNat bytes.size)] }

def moveFile (input : Json) : FsM ToolResult := do
  let source ← Program.ofExcept (requiredString "move_file" input "from")
  let dest ← Program.ofExcept (requiredString "move_file" input "to")
  let bytes ← workspace.transfer "move_file" source dest (optionalBool input "overwrite")
  workspace.delete source
  return transferred source dest "moved" bytes

def copyFile (input : Json) : FsM ToolResult := do
  let source ← Program.ofExcept (requiredString "copy_file" input "from")
  let dest ← Program.ofExcept (requiredString "copy_file" input "to")
  let bytes ← workspace.transfer "copy_file" source dest (optionalBool input "overwrite")
  return transferred source dest "copied" bytes

end Workspace

end Codel00p
