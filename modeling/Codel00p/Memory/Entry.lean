import Codel00p.Lib.Text

/-! Project-memory entries and the inputs candidates are created from. -/

namespace Codel00p

/-- The project a memory belongs to. -/
structure ProjectRef where
  id : String
  name : String
  deriving DecidableEq, Repr

inductive MemoryKind where
  | architecture | convention | workflow | decision | deployment | troubleshooting
  deriving DecidableEq, Repr

/-- Where a memory stands in its review. -/
inductive MemoryStatus where
  | candidate | approved | rejected | archived
  deriving DecidableEq, Repr

/-- Whether a memory may be retrieved without being asked for by name. -/
inductive MemorySensitivity where
  | normal | sensitive
  deriving DecidableEq, Repr

/-- Who may see a memory, from the narrowest circle to the widest. -/
inductive MemoryVisibility where
  | priv | project | team | org
  deriving DecidableEq, Repr

/-- The position of a visibility in the order from narrow to wide. -/
def MemoryVisibility.rank : MemoryVisibility → Nat
  | .priv => 0
  | .project => 1
  | .team => 2
  | .org => 3

structure MemorySource where
  sessionId : String
  turnId : String
  uri : Option String := none
  deriving DecidableEq, Repr

/-- The category of an evidence link. -/
inductive EvidenceKind where
  | file | url | pr | issue | commit | other
  deriving DecidableEq, Repr

/-- An explicit piece of evidence behind a memory. -/
structure MemoryEvidence where
  kind : EvidenceKind
  reference : String
  note : Option String := none
  deriving DecidableEq, Repr

structure MemoryEntry where
  id : String
  project : ProjectRef
  kind : MemoryKind
  status : MemoryStatus
  sensitivity : MemorySensitivity
  visibility : MemoryVisibility
  content : String
  tags : List String
  source : Option MemorySource
  evidence : List MemoryEvidence
  deriving DecidableEq, Repr

namespace MemoryEntry

/-- A fresh candidate, before its builder calls. -/
def new (id : String) (project : ProjectRef) (kind : MemoryKind) (content : String) : MemoryEntry :=
  { id, project, kind, content, status := .candidate, sensitivity := .normal,
    visibility := .project, tags := [], source := none, evidence := [] }

/-- Set the review status. -/
def withStatus (entry : MemoryEntry) (status : MemoryStatus) : MemoryEntry := { entry with status }

def withSource (entry : MemoryEntry) (source : MemorySource) : MemoryEntry := { entry with source := some source }

def withSensitivity (entry : MemoryEntry) (sensitivity : MemorySensitivity) : MemoryEntry :=
  { entry with sensitivity }

def withVisibility (entry : MemoryEntry) (visibility : MemoryVisibility) : MemoryEntry := { entry with visibility }

/-- Add a tag after the ones already there. -/
def withTag (entry : MemoryEntry) (tag : String) : MemoryEntry := { entry with tags := entry.tags ++ [tag] }

/-- Add an evidence link after the ones already there. -/
def withEvidence (entry : MemoryEntry) (evidence : MemoryEvidence) : MemoryEntry :=
  { entry with evidence := entry.evidence ++ [evidence] }

theorem foldl_withTag (entry : MemoryEntry) (tags : List String) :
    tags.foldl withTag entry = { entry with tags := entry.tags ++ tags } := by
  -- Each call appends one tag, so the entry stays quantified over.
  induction tags generalizing entry with
  | nil => simp
  | cons tag tags ih => simp [ih, withTag]

theorem foldl_withEvidence (entry : MemoryEntry) (evidence : List MemoryEvidence) :
    evidence.foldl withEvidence entry = { entry with evidence := entry.evidence ++ evidence } := by
  induction evidence generalizing entry with
  | nil => simp
  | cons link evidence ih => simp [ih, withEvidence]

end MemoryEntry

/-- Everything a new candidate is built from. -/
structure MemoryCandidateInput where
  id : String
  project : ProjectRef
  kind : MemoryKind
  sensitivity : MemorySensitivity := .normal
  visibility : MemoryVisibility := .project
  content : String
  source : MemorySource
  tags : List String := []
  evidence : List MemoryEvidence := []
  deriving DecidableEq, Repr

namespace MemoryCandidateInput

/-- Add a tag, unless nothing is left of it after trimming. -/
def withTag (input : MemoryCandidateInput) (tag : String) : MemoryCandidateInput :=
  match nonEmptyFilter tag with
  | some tag => { input with tags := input.tags ++ [tag] }
  | none => input

def intoEntry (input : MemoryCandidateInput) : MemoryEntry :=
  let entry := (((MemoryEntry.new input.id input.project input.kind input.content).withSource
    input.source).withSensitivity input.sensitivity).withVisibility input.visibility
  let entry := input.tags.foldl MemoryEntry.withTag entry
  input.evidence.foldl MemoryEntry.withEvidence entry

theorem intoEntry_eq (input : MemoryCandidateInput) : input.intoEntry =
      { id := input.id, project := input.project, kind := input.kind, status := .candidate,
        sensitivity := input.sensitivity, visibility := input.visibility, content := input.content,
        tags := input.tags, source := some input.source, evidence := input.evidence } := by
  simp [intoEntry, MemoryEntry.foldl_withTag, MemoryEntry.foldl_withEvidence, MemoryEntry.new,
    MemoryEntry.withSource, MemoryEntry.withSensitivity, MemoryEntry.withVisibility]

theorem withTag_frame (input : MemoryCandidateInput) (tag : String) :
    input.withTag tag = { input with tags := (input.withTag tag).tags } := by
  unfold withTag
  split <;> rfl

theorem foldl_withTag_frame (tags : List String) (input : MemoryCandidateInput) :
    tags.foldl withTag input = { input with tags := (tags.foldl withTag input).tags } := by
  induction tags generalizing input with
  | nil => rfl
  | cons tag tags ih =>
    -- The first call already differs from the input in its tags alone.
    rw [List.foldl_cons, ih, withTag_frame]

end MemoryCandidateInput

end Codel00p
