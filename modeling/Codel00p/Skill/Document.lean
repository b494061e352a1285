import Codel00p.Lib.Assoc
import Codel00p.Lib.Files
import Codel00p.Lib.Utf8

/-! Skill documents: front matter between lines of hyphens, and instructions. -/

namespace Codel00p.Skills

/-- What can go wrong with a skill. -/
inductive SkillError where
  | io (path : List String) (source : IoError)
  | missingFrontMatter (path : List String)
  | missingName (path : List String)
  | alreadyActive (name : String)
  | candidateExists (name : String)
  | unknownCandidate (name : String)
  | unknownSkill (name : String)
  | invalidName (name : String)
  deriving DecidableEq, Repr

/-- Where a skill was loaded from, lowest to highest precedence. -/
inductive SkillSource where
  | bundled
  | user
  | project
  deriving DecidableEq, Repr

def SkillSource.rank : SkillSource → Nat
  | .bundled => 0
  | .user => 1
  | .project => 2

structure Skill where
  name : String
  version : Option String
  description : String
  author : Option String
  triggers : List String
  createdBy : Option String
  source : SkillSource
  path : List String
  body : String
  deriving DecidableEq, Repr

structure SkillProposal where
  name : String
  description : String
  triggers : List String := []
  instructions : String
  createdBy : String
  deriving DecidableEq, Repr

/-! ### Reading -/

def splitFrontMatter (content : String) : Option (String × String) :=
  let normalized := (stripFront content "\ufeff").getD content
  match lines normalized with
  | [] => none
  | first :: rest =>
    if trimEnd first ≠ "---" then none
    else
      let front := rest.takeWhile (trimEnd · ≠ "---")
      match rest.dropWhile (trimEnd · ≠ "---") with
      | [] => none
      | _ :: body => some ("\n".intercalate front, "\n".intercalate body)

inductive FrontMatterValue where
  | scalar (value : String)
  | list (items : List String)

def unquote (value : String) : String :=
  let chars := value.toList
  let quoted := fun quote : Char => 2 ≤ chars.length && chars.head? = some quote && chars.getLast? = some quote
  if quoted '"' || quoted '\'' then String.ofList chars.tail.dropLast else value

def bracketed (value : String) : Option String :=
  (stripFront value "[").bind fun rest =>
    if rest.toList.getLast? = some ']' then some (String.ofList rest.toList.dropLast) else none

/-- The fields that were read, and the list that is being read. -/
structure FrontMatter where
  fields : List (String × FrontMatterValue) := []
  pending : Option (String × List String) := none

def FrontMatter.flush (state : FrontMatter) : List (String × FrontMatterValue) :=
  match state.pending with
  | some (key, items) => Assoc.insert key (.list items) state.fields
  | none => state.fields

def FrontMatter.field (fields : List (String × FrontMatterValue)) (key value : String) : FrontMatter :=
  if value.isEmpty then { fields, pending := some (key, []) }
  else match bracketed value with
    | some inner =>
      let items := ((splitPieces (· == ',') inner).map fun item => unquote (trim item)).filter (!·.isEmpty)
      { fields := Assoc.insert key (.list items) fields }
    | none => { fields := Assoc.insert key (.scalar (unquote value)) fields }

def FrontMatter.line (state : FrontMatter) (raw : String) : FrontMatter :=
  let trimmed := trim raw
  if trimmed.isEmpty || trimmed.toList.head? = some '#' then state
  else match stripFront trimmed "- " with
    | some item =>
      { state with pending := state.pending.map fun (key, items) => (key, items ++ [unquote (trim item)]) }
    | none =>
      match splitOnce trimmed ":" with
      | none => { fields := state.flush }
      | some (key, value) => FrontMatter.field state.flush (trim key) (trim value)

def parseFrontMatter (text : String) : List (String × FrontMatterValue) :=
  ((lines text).foldl FrontMatter.line {}).flush

def scalar (fields : List (String × FrontMatterValue)) (key : String) : Option String :=
  match fields.lookup key with
  | some (.scalar value) => if value.isEmpty then none else some value
  | _ => none

def listOf (fields : List (String × FrontMatterValue)) (key : String) : List String :=
  match fields.lookup key with
  | some (.list items) => items
  | some (.scalar value) => if value.isEmpty then [] else [value]
  | none => []

def directoryName (path : List String) : Option String := path.dropLast.getLast?

def parseSkill (path : List String) (source : SkillSource) (content : String) : Except SkillError Skill := do
  let some (frontMatter, body) := splitFrontMatter content | throw (.missingFrontMatter path)
  let fields := parseFrontMatter frontMatter
  let some name := (scalar fields "name").or (directoryName path) | throw (.missingName path)
  return {
    name
    version := scalar fields "version"
    description := (scalar fields "description").getD ""
    author := scalar fields "author"
    triggers := listOf fields "triggers"
    createdBy := scalar fields "created_by"
    source
    path
    body := trim body }

/-! ### Writing -/

/-- A value on one line, without double quotes. -/
def sanitizeInline (value : String) : String :=
  String.ofList (value.toList.map fun c => if c = '\n' || c = '\r' then ' ' else if c = '"' then '\'' else c)

def renderSkillMd (proposal : SkillProposal) : String :=
  "---\n" ++ ("name: " ++ proposal.name ++ "\n")
    ++ ("description: \"" ++ sanitizeInline proposal.description ++ "\"\n")
    ++ ("created_by: " ++ proposal.createdBy ++ "\n")
    ++ (if proposal.triggers.isEmpty then ""
        else "triggers:\n" ++ String.join (proposal.triggers.map fun trigger => "  - " ++ sanitizeInline trigger ++ "\n"))
    ++ "---\n" ++ trim proposal.instructions ++ "\n"

def validateName (name : String) : Except SkillError Unit :=
  if !name.isEmpty && name.toList.all fun c => c.isAlphanum || c = '-' || c = '_' then .ok ()
  else .error (.invalidName name)

end Codel00p.Skills
