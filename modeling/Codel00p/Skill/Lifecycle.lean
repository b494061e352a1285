import Codel00p.Lib.Tree
import Codel00p.Skill.Document

/-! The life of a skill: proposed and reviewed, archived and restored, and loaded while it is active. -/

namespace Codel00p.Skills

def skillFile : String := "SKILL.md"

/-- The directory of proposals. -/
def candidatesDir : String := ".candidates"

/-- The directory of rejected proposals, and of archived skills. -/
def archiveDir : String := ".archive"

abbrev SkillM := Program SkillError FileTree

def onFiles {α : Type} (path : List String) (operation : TreeM α) : SkillM α := do
  match ← Program.attempt operation with
  | .ok value => return value
  | .error error => throw (.io path error)

/-- The proposals of a skills directory. -/
def candidatesRoot (skillsDir : List String) : List String := skillsDir ++ [candidatesDir]

/-- Make a directory. -/
def createDirAll (path : List String) : SkillM Unit := onFiles path (TreeM.createDirAll path.reverse)

def writeFile (path : List String) (contents : String) : SkillM Unit :=
  onFiles path (TreeM.write path contents.toUTF8)

/-- Move a directory. -/
def rename (source target : List String) : SkillM Unit := onFiles source (TreeM.rename source target)

def clear (path : List String) : SkillM Unit := do
  if ← Program.reads (·.files.pathExists path) then onFiles path (TreeM.removeDirAll path) else pure ()

def requireSkill (directory : List String) (missing : SkillError) : SkillM Unit := do
  if ← Program.reads (·.isFile (directory ++ [skillFile])) then pure () else throw missing

def refuseSkill (directory : List String) (taken : SkillError) : SkillM Unit := do
  if ← Program.reads (·.isFile (directory ++ [skillFile])) then throw taken else pure ()

def proposeSkill (skillsDir : List String) (proposal : SkillProposal) : SkillM (List String) := do
  Program.ofExcept (validateName proposal.name)
  refuseSkill (skillsDir ++ [proposal.name]) (.alreadyActive proposal.name)
  let dir := candidatesRoot skillsDir ++ [proposal.name]
  refuseSkill dir (.candidateExists proposal.name)
  createDirAll dir
  writeFile (dir ++ [skillFile]) (renderSkillMd proposal)
  return dir ++ [skillFile]

/-- Move a skill from another directory to the active ones, unless its name is taken there. -/
def activate (skillsDir : List String) (kept name : String) (unknown : SkillError) : SkillM (List String) := do
  Program.ofExcept (validateName name)
  requireSkill (skillsDir ++ [kept, name]) unknown
  refuseSkill (skillsDir ++ [name]) (.alreadyActive name)
  rename (skillsDir ++ [kept, name]) (skillsDir ++ [name])
  return skillsDir ++ [name, skillFile]

def retire (root : List String) (name : String) (unknown : SkillError) : SkillM (List String) := do
  Program.ofExcept (validateName name)
  requireSkill (root ++ [name]) unknown
  createDirAll (root ++ [archiveDir])
  clear (root ++ [archiveDir, name])
  rename (root ++ [name]) (root ++ [archiveDir, name])
  return root ++ [archiveDir, name, skillFile]

def approveCandidate (skillsDir : List String) (name : String) : SkillM (List String) :=
  activate skillsDir candidatesDir name (.unknownCandidate name)

def rejectCandidate (skillsDir : List String) (name : String) : SkillM Unit := do
  let _ ← retire (candidatesRoot skillsDir) name (.unknownCandidate name)

def archiveSkill (skillsDir : List String) (name : String) : SkillM (List String) :=
  retire skillsDir name (.unknownSkill name)

def restoreSkill (skillsDir : List String) (name : String) : SkillM (List String) :=
  activate skillsDir archiveDir name (.unknownSkill name)

/-! ### Loading -/

def readToString (path : List String) (tree : FileTree) : Except IoError String :=
  match tree.files.lookup path with
  | .error error => .error error
  | .ok (.missing _ _) => .error .notFound
  | .ok (.directory _) => .error .isADirectory
  | .ok (.file location) =>
    match tree.node location with
    | some (.file contents) =>
      match Utf8.decode contents.data.toList with
      | .ok chars => .ok (String.ofList chars)
      | .error _ => .error (.other "stream did not contain valid UTF-8")
    | _ => .error .notFound

def loadSkill (path : List String) (source : SkillSource) (tree : FileTree) : Except SkillError Skill :=
  match readToString path tree with
  | .ok content => parseSkill path source content
  | .error error => .error (.io path error)

def scanDir (dir : List String) (source : SkillSource) (tree : FileTree) : List Skill :=
  match tree.files.lookup dir with
  | .ok (.directory location) =>
    (tree.names location).filterMap fun name =>
      let file := dir ++ [name, skillFile]
      if tree.isFile file then (loadSkill file source tree).toOption else none
  | _ => []

/-- The skills of some sources; a later source, or a later directory, overrides the same name. -/
def loadSkills (sources : List (SkillSource × List String)) (tree : FileTree) : List Skill :=
  let ordered := sources.mergeSort fun a b => a.1.rank ≤ b.1.rank
  let byName := ordered.foldl (fun byName (source, dir) =>
    (scanDir dir source tree).foldl (fun byName skill => Assoc.insert skill.name skill byName) byName) []
  byName.map (·.2)

end Codel00p.Skills
