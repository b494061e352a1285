import Codel00p.Harness.Walk
import Codel00p.Lib.Paging

/-! Searching the files of a workspace, by regular expression or by text, page by page. -/

namespace Codel00p

/-- An unsigned number of a tool's input. -/
def optionalUsize (input : Json) (key : String) : Option Nat := (input.get key).bind Json.asU64

/-- How much a tool reports. -/
inductive Verbosity where
  | concise
  | detailed
  deriving DecidableEq, Repr

/-- Read how much a tool is to report. -/
def parseVerbosity (tool : String) (input : Json) : Except HarnessError Verbosity :=
  match input.getStr "verbosity" with
  | none => .ok .detailed
  | some "detailed" => .ok .detailed
  | some "concise" => .ok .concise
  | some other =>
    .error (.invalidToolInput tool ("`verbosity` must be \"concise\" or \"detailed\", got `" ++ other ++ "`"))

/-! ### By regular expression -/

/-- Default for the number of matches in one page. -/
def defaultGrepLimit : Nat := 200

/-- Ceiling for the number of matches in one page. -/
def maxGrepLimit : Nat := 1000

/-- Files larger than this are skipped. -/
def maxGrepFileBytes : Nat := 5 * 1024 * 1024

/-- Upper bound on context lines on each side of a match. -/
def maxContextLines : Nat := 20

/-- What a call asks for. -/
structure GrepRequest where
  pattern : String
  path : String
  caseInsensitive : Bool
  includeIgnored : Bool
  contextLines : Nat
  glob : Option String
  skip : Nat
  want : Nat
  /-- The size of a page is within its limits. -/
  sized : 1 ≤ want ∧ want ≤ maxGrepLimit

/-- Read what a call asks for. -/
def GrepRequest.parse (input : Json) : Except HarnessError GrepRequest := do
  let pattern ← requiredString "grep" input "pattern"
  let verbosity ← parseVerbosity "grep" input
  return {
    pattern
    path := (input.getStr "path").getD "."
    caseInsensitive := optionalBool input "case_insensitive"
    includeIgnored := optionalBool input "include_ignored"
    contextLines := if verbosity = .concise then 0
      else min ((optionalUsize input "context_lines").getD 0) maxContextLines
    glob := input.getStr "glob"
    skip := (optionalUsize input "offset").getD 0
    want := min (max ((optionalUsize input "limit").getD defaultGrepLimit) 1) maxGrepLimit
    sized := by
      rw [maxGrepLimit]
      omega }

def buildMatch (path : String) (lines : List String) (index context : Nat) : Json :=
  let start := index - context
  let texts := fun (lines : List String) => Json.array (lines.map .string)
  .obj ([("path", .string path), ("line", .ofNat (index + 1)), ("snippet", .string ((lines[index]?).getD ""))]
    ++ if 0 < context then
        [("before", texts ((lines.take index).drop start)),
          ("after", texts ((lines.take (min (index + 1 + context) lines.length)).drop (index + 1))),
          ("before_start_line", .ofNat (start + 1))]
      else [])

/-- The files to search, in their order, and what to look for in their lines. -/
structure GrepPlan where
  files : List String
  regex : String → Bool

section

variable (engine : RegexEngine) (workspace : Workspace) (tree : FileTree)

def GrepRequest.compile (request : GrepRequest) : Except HarnessError (String → Bool) :=
  (engine.build request.pattern request.caseInsensitive).mapError fun error =>
    .invalidToolInput "grep" ("invalid regex `" ++ request.pattern ++ "`: " ++ error)

def GrepRequest.compileGlob (request : GrepRequest) : Except HarnessError (Option GlobMatcher) :=
  match request.glob with
  | some glob => (GlobMatcher.compile engine "grep" glob).map some
  | none => .ok none

def GrepRequest.plan (request : GrepRequest) : Except HarnessError GrepPlan := do
  let regex ← request.compile engine
  let glob ← request.compileGlob engine
  let visited ← workspace.walk tree request.path request.includeIgnored
  let files := visited.filter fun relative => glob.all (·.isMatch relative)
  return { files := files.mergeSort, regex }

/-- The text that is searched of a file: none of one that is too large, cannot be read, or is no text. -/
def grepText (relative : String) : Option String :=
  match workspace.metadata relative tree.files with
  | .error _ => none
  | .ok kind => if maxGrepFileBytes < kind.size then none else workspace.textOf tree relative

def grepFile (plan : GrepPlan) (contextLines : Nat) (relative : String) : List Json :=
  match grepText workspace tree relative with
  | none => []
  | some content =>
    (lines content).zipIdx.filterMap fun (line, index) =>
      if plan.regex line then some (buildMatch relative (lines content) index contextLines) else none

structure GrepPage extends Paging.Page Json where
  filesWithMatches : Nat

def grepPage (plan : GrepPlan) (contextLines skip want : Nat) : GrepPage :=
  let scanCap := saturatingAdd (saturatingAdd skip want) 1
  let (all, filesWithMatches) :=
    Paging.fillGroups scanCap [] 0 (plan.files.map (grepFile workspace tree plan contextLines))
  { items := (all.drop skip).take want, hasMore := decide (saturatingAdd skip want < all.length), filesWithMatches }

/-- Search file contents with a regular expression. -/
def grep (input : Json) : Except HarnessError ToolResult := do
  let request ← GrepRequest.parse input
  let plan ← request.plan engine workspace tree
  let page := grepPage workspace tree plan request.contextLines request.skip request.want
  return { content := .obj [("pattern", .string request.pattern), ("matches", .array page.items),
    ("offset", .ofNat request.skip), ("has_more", .bool page.hasMore),
    ("files_with_matches", .ofNat page.filesWithMatches)] }

/-! ### By text -/

/-- Ceiling for the number of matches that a search by text scans. -/
def maxSearchMatches : Nat := 200

def searchFiles (path : String) : Except HarnessError (List String) := do
  return (← workspace.walk tree path false).mergeSort

def searchFile (query relative : String) : List Json :=
  match workspace.textOf tree relative with
  | none => []
  | some content =>
    (lines content).zipIdx.filterMap fun (line, index) =>
      if containsText line query then
        some (.obj [("path", .string relative), ("line", .ofNat (index + 1)), ("snippet", .string line)])
      else none

def searchScan (query : String) (files : List String) (skip want : Nat) : List Json :=
  let scanCap := min (saturatingAdd (saturatingAdd skip want) 1) maxSearchMatches
  (Paging.fillGroups scanCap [] 0 (files.map (searchFile workspace tree query))).1

def searchPage (query : String) (files : List String) (skip want : Nat) : Paging.Page Json :=
  let all := searchScan workspace tree query files skip want
  -- The sum is a machine word here.
  { items := (all.drop skip).take want, hasMore := decide ((skip + want) % 2 ^ 64 < all.length) }

def searchText (input : Json) : Except HarnessError ToolResult := do
  let query ← requiredString "search_text" input "query"
  let offset := (input.get "offset").bind Json.asU64
  let limit := (input.get "limit").bind Json.asU64
  let files ← searchFiles workspace tree ((input.getStr "path").getD ".")
  let skip := offset.getD 0
  let want := limit.getD maxSearchMatches
  if offset.isNone && limit.isNone then
    return { content := .obj [("matches", .array (searchScan workspace tree query files skip want))] }
  else
    let page := searchPage workspace tree query files skip want
    return { content := .obj [("matches", .array page.items), ("offset", .ofNat skip),
      ("has_more", .bool page.hasMore)] }

end

end Codel00p
