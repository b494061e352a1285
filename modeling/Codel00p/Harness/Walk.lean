import Codel00p.Harness.FileTools
import Codel00p.Lib.Tree
import Codel00p.Lib.Utf8

/-! Walking a workspace: the files below a path, the contents that can be searched, and glob patterns. -/

namespace Codel00p

/-- Directory names skipped by default while walking. -/
def defaultIgnoredDirs : List String :=
  [".git", ".hg", ".svn", "target", "node_modules", "dist", "build", "out", ".next", ".nuxt", ".venv", "venv",
    "__pycache__", ".mypy_cache", ".pytest_cache", ".ruff_cache", ".gradle", ".idea", ".vscode", "vendor"]

/-- Hard ceiling on files visited during a single walk. -/
def maxFilesWalked : Nat := 100000

/-- The text of a path inside a workspace. -/
def normalizePath (names : List String) : String := "/".intercalate names

namespace LocalFs

variable (tree : FileTree) (root : Location) (includeIgnored : Bool)

/--
Visit the files of a directory and of the directories below it.

The path is followed through links wherever it is used, so that a directory may be visited on several
ways. The bound is on the nesting: a path with more names has more links than are followed.
-/
def walkDir : Nat → List String → List String → List String
  | 0, _, visited => visited
  | nesting + 1, current, visited =>
    match tree.files.lookup current with
    | .ok (.directory location) =>
      (tree.names location).foldl (fun visited name =>
        if maxFilesWalked ≤ visited.length then visited
        else if tree.files.isDirectory (current ++ [name]) then
          if !includeIgnored && defaultIgnoredDirs.contains name then visited
          else walkDir nesting (current ++ [name]) visited
        else if tree.isFile (current ++ [name]) then
          visited ++ [normalizePath ((current ++ [name]).drop root.length)]
        else visited) visited
    -- A nested directory that cannot be read is skipped.
    | _ => visited

theorem walkDir_length_le (nesting : Nat) (current : List String) {visited : List String}
    (few : visited.length ≤ maxFilesWalked) :
    (walkDir tree root includeIgnored nesting current visited).length ≤ maxFilesWalked := by
  induction nesting generalizing current visited with
  | zero => exact few
  | succ nesting ih =>
    rw [walkDir]
    split
    · next location found =>
      -- Every entry is visited only while there is room, whatever was visited before it.
      generalize tree.names location = names
      induction names generalizing visited with
      | nil => exact few
      | cons name names later =>
        rw [List.foldl_cons]
        apply later
        split
        · exact few
        · next room =>
          split
          · split
            · exact few
            · exact ih _ few
          · split
            · rw [List.length_append, List.length_singleton]
              omega
            · exact few
    · exact few

/-- Visit the files below a place. -/
def walk (current : Location) : Except HarnessError (List String) :=
  if tree.isFile current then .ok [normalizePath (current.drop root.length)]
  else
    match tree.files.lookup current with
    | .ok (.directory _) => .ok (walkDir tree root includeIgnored ((maxLinks + 1) * (tree.depth + 1)) current [])
    | .ok (.file _) => .error (.io .notADirectory)
    | .ok (.missing _ _) => .error (.io .notFound)
    | .error error => .error (.io error)

/-- Visit the files below a path of a workspace. -/
def walkRel (rel : String) : Except HarnessError (List String) := do
  let resolved ← resolveExisting root rel tree.files
  walk tree root includeIgnored resolved

variable {path : String}

theorem walk_length_le {current : Location} {visited : List String}
    (walked : walk tree root includeIgnored current = .ok visited) : visited.length ≤ maxFilesWalked := by
  rw [walk] at walked
  split at walked
  · cases walked
    exact Nat.le_add_left 1 99999
  · split at walked <;> cases walked
    exact walkDir_length_le tree root includeIgnored _ _ (Nat.zero_le _)

end LocalFs

namespace Workspace

variable (workspace : Workspace) (tree : FileTree)

/-- The files of a workspace below a path, in the order in which they are visited. -/
def walk (path : String) (includeIgnored : Bool) : Except HarnessError (List String) := do
  rejectUnsafeComponents path
  LocalFs.walkRel tree workspace.root includeIgnored path

def bytesOf (path : String) : Except HarnessError ByteArray :=
  (Program.exec (workspace.readBytes path) { files := tree.files }).1

def textOf (path : String) : Option String :=
  match workspace.bytesOf tree path with
  | .ok bytes => (Utf8.readText bytes).toOption
  | .error _ => none

theorem walk_length_le {includeIgnored : Bool} {visited : List String}
    (walked : workspace.walk tree path includeIgnored = .ok visited) : visited.length ≤ maxFilesWalked := by
  obtain ⟨_, -, reached⟩ := Except.bind_eq_ok.1 walked
  obtain ⟨resolved, -, seen⟩ := Except.bind_eq_ok.1 reached
  exact LocalFs.walk_length_le tree workspace.root includeIgnored seen

theorem node_of_bytesOf {bytes : ByteArray} (read : workspace.bytesOf tree path = .ok bytes) :
    ∃ resolved, LocalFs.resolveExisting workspace.root path tree.files = .ok resolved ∧
      tree.files.node resolved = some (.file bytes) := by
  obtain ⟨_, -, later⟩ := Program.exec_ofExcept_bind_eq_ok.1 (Prod.ext read rfl)
  exact (LocalFs.exec_readFile_eq_ok.1 later).1

theorem textOf_length_le {text : String} (read : workspace.textOf tree path = some text) {kind : FileKind}
    (known : workspace.metadata path tree.files = .ok kind) : text.toList.length ≤ kind.size := by
  rw [textOf] at read
  split at read
  · next bytes got =>
    -- Both look at the place that the path was resolved to.
    obtain ⟨resolved, resolution, node⟩ := workspace.node_of_bytesOf tree got
    obtain ⟨_, -, there⟩ := Except.bind_eq_ok.1 known
    rw [LocalFs.metadata, resolution] at there
    simp only [LocalFs.kindAt, node] at there
    cases there
    cases decoded : Utf8.readText bytes with
    | error error => rw [decoded] at read; cases read
    | ok content =>
      rw [decoded] at read
      cases read
      exact Utf8.readText_length_le decoded
  · cases read

end Workspace

/-- The regular expressions of a third party. -/
structure RegexEngine where
  /-- An expression with the limits on its size, which may be made to ignore the case. -/
  build : (pattern : String) → (caseInsensitive : Bool) → Except String (String → Bool)
  /-- An expression as it is. -/
  new : String → Except String (String → Bool)
  /-- A text that stands for itself in an expression. -/
  escape : String → String

def globParts (engine : RegexEngine) : List Char → String
  | [] => ""
  -- A slash behind two stars is swallowed, so that they also match at the root.
  | '*' :: '*' :: '/' :: rest => ".*" ++ "/?" ++ globParts engine rest
  | '*' :: '*' :: rest => ".*" ++ globParts engine rest
  | '*' :: rest => "[^/]*" ++ globParts engine rest
  | '?' :: rest => "[^/]" ++ globParts engine rest
  | c :: rest => engine.escape (String.singleton c) ++ globParts engine rest

/-- Translate a glob pattern into an anchored regular expression. -/
def globToRegex (engine : RegexEngine) (glob : String) : String := "^" ++ globParts engine glob.toList ++ "$"

structure GlobMatcher where
  regex : String → Bool
  /-- The pattern has no separator and is matched against the file name. -/
  basenameOnly : Bool

namespace GlobMatcher

def compile (engine : RegexEngine) (tool pattern : String) : Except HarnessError GlobMatcher :=
  match engine.new (globToRegex engine pattern) with
  | .ok regex => .ok { regex, basenameOnly := !pattern.toList.contains '/' }
  | .error error => .error (.invalidToolInput tool ("invalid glob `" ++ pattern ++ "`: " ++ error))

def isMatch (matcher : GlobMatcher) (relativePath : String) : Bool :=
  let candidate := if matcher.basenameOnly then
      String.ofList (relativePath.toList.reverse.takeWhile (· ≠ '/')).reverse
    else relativePath
  matcher.regex candidate

end GlobMatcher

end Codel00p
