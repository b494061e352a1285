import Codel00p.Harness.SelfCorrect
import Codel00p.Harness.Session
import Codel00p.Lib.Boundary

/-! Skills drafted from a completed turn, and the excerpts of texts that a turn makes. -/

namespace Codel00p

/-- A reusable procedure that is proposed for review. -/
structure ProposedSkill where
  name : String
  description : String
  triggers : List String
  instructions : String
  deriving DecidableEq, Repr

/-- What an extractor sees at the end of a turn. -/
structure SkillExtractionRequest where
  goal : String
  assistantMessage : Option String
  toolCalls : List String

structure ProcedureSkillExtractor where
  minSteps : Nat
  positive : 1 ≤ minSteps

def ProcedureSkillExtractor.new (minSteps : Nat) : ProcedureSkillExtractor :=
  { minSteps := max minSteps 1, positive := Nat.le_max_right _ _ }

/-- Whether a tool changes the workspace or runs a command. -/
def isProceduralTool (name : String) : Bool :=
  ["create_file", "update_file", "delete_file", "apply_patch", "run_command", "git_commit"].contains name

/-- Spell a name with the characters of a goal, with single hyphens for the others. -/
def slugFrom : List Char → List Char → Bool → List Char
  | [], out, _ => out
  | c :: rest, out, prevDash =>
    let (out, prevDash) :=
      if c.isAlphanum then (out ++ [c.toLower], false)
      else if !prevDash && !out.isEmpty then (out ++ ['-'], true)
      else (out, prevDash)
    if 40 ≤ byteLength out then out else slugFrom rest out prevDash

/-- The name of a skill for a goal. -/
def slug (goal : String) : String :=
  let out := slugFrom (trim goal).toList [] false
  String.ofList ((out.dropWhile (· == '-')).reverse.dropWhile (· == '-')).reverse

def goalLine (goal : String) : String := trim ((lines (trim goal)).head?.getD "")

/--
The first line of a goal, shortened.

Cutting inside a character stops the program, which is the case of no answer.
-/
def firstLine (goal : String) : Option String :=
  let line := goalLine goal
  if 120 < line.utf8ByteSize then (sliceTo 117 line.toList).map fun front => String.ofList front ++ "..."
  else some line

def stopWords : List String :=
  ["the", "and", "for", "with", "this", "that", "from", "into", "your", "please", "make", "then", "have",
    "will", "when"]

/-- Collect keywords, four at most. -/
def keywordsFrom : List String → List String → List String
  | [], seen => seen
  | word :: rest, seen =>
    let seen := if 4 ≤ word.utf8ByteSize && !stopWords.contains word && !seen.contains word then seen ++ [word]
      else seen
    if 4 ≤ seen.length then seen else keywordsFrom rest seen

/-- The keywords of a goal; the lower case of a text is a table of the standard library. -/
def keywords (toLowercase : String → String) (goal : String) : List String :=
  keywordsFrom (splitPieces (fun c => !c.isAlphanum) (toLowercase goal)) []

/-- The instructions of a drafted skill. -/
def renderProcedure (goal : String) (steps : List String) : Option String := do
  let line ← firstLine goal
  return "Goal: " ++ line ++ "\n\n"
    ++ "Steps (captured automatically from a completed task — edit before approving):\n"
    ++ String.join (steps.zipIdx.map fun (step, index) => toString (index + 1) ++ ". " ++ step ++ "\n")

/-- Draft a skill from a turn that carried out a procedure and ended with an answer. -/
def ProcedureSkillExtractor.extract (extractor : ProcedureSkillExtractor) (toLowercase : String → String)
    (request : SkillExtractionRequest) : Option (List ProposedSkill) := do
  match (request.assistantMessage.map trim).filter (!·.isEmpty) with
  | none => return []
  | some _ =>
    let steps := request.toolCalls.filter isProceduralTool
    if steps.length < extractor.minSteps then return []
    else
      let name := slug request.goal
      if name.isEmpty then return []
      else
        let description ← firstLine request.goal
        let instructions ← renderProcedure request.goal steps
        return [{ name, description, triggers := keywords toLowercase request.goal, instructions }]

/-! ### When an excerpt splits a character -/

/-- A text over a limit has a character across the place where it is cut. -/
def SplitBy (limit cut : Nat) (text : String) : Prop := limit < text.utf8ByteSize ∧ Straddled text.toList cut

def oneLine (content : String) : String := String.ofList (content.toList.map fun c => if c = '\n' then ' ' else c)

def ProcedureSkillExtractor.Drafts (extractor : ProcedureSkillExtractor) (request : SkillExtractionRequest) : Prop :=
  (∃ message, request.assistantMessage = some message ∧ isBlank message = false) ∧
    extractor.minSteps ≤ (request.toolCalls.filter isProceduralTool).length ∧ slug request.goal ≠ ""

theorem sliceTo_isSome_iff {limit cut : Nat} (below : cut ≤ limit) {text : String}
    (long : limit < text.utf8ByteSize) : (sliceTo cut text.toList).isSome = true ↔ ¬SplitBy limit cut text := by
  have inside : cut ≤ byteLength text.toList := by
    rw [← utf8ByteSize_eq_byteLength]
    omega
  have cuts : (sliceTo cut text.toList).isSome = isCharBoundary text.toList cut := rfl
  rw [cuts, isCharBoundary_iff_not_straddled, SplitBy, and_iff_right inside, and_iff_right long]

theorem summaryExcerpt_isSome_iff (content : String) :
    (summaryExcerpt content).isSome = true ↔ ¬SplitBy 200 200 (oneLine content) := by
  rw [summaryExcerpt, ← oneLine]
  split
  · next short =>
    exact iff_of_true rfl fun split => absurd split.1 (Nat.not_lt.2 short)
  · next long => rw [Option.isSome_map, sliceTo_isSome_iff (Nat.le_refl 200) (Nat.lt_of_not_le long)]

theorem summarizeCompactedMessages_isSome_iff (messages : List SessionMessage) (keepRecent : Nat) :
    (summarizeCompactedMessages messages keepRecent).isSome = true ↔
      ∀ message ∈ messages.take (messages.length - keepRecent), ¬SplitBy 200 200 (oneLine message.content) := by
  simp only [summarizeCompactedMessages, isSome_bind_pure, mapM_isSome_iff, summaryExcerpt_isSome_iff]
  -- Numbering the messages changes nothing about their contents.
  constructor
  · intro every message member
    obtain ⟨index, inside, rfl⟩ := List.mem_iff_getElem.1 member
    exact every (_, index) (List.mk_mem_zipIdx_iff_getElem?.2 (List.getElem?_eq_getElem inside))
  · intro every numbered member
    exact every numbered.1 (List.fst_mem_of_mem_zipIdx member)

theorem replanNudge_isSome_iff (operation : String) (attempts : Nat) (lastError : String) (replan : Bool) :
    (replanNudge operation attempts lastError replan).isSome = true ↔ ¬SplitBy 400 400 (trim lastError) := by
  simp only [replanNudge]
  split
  · next long => rw [isSome_bind_pure, Option.isSome_map, sliceTo_isSome_iff (Nat.le_refl 400) long]
  · next short => exact iff_of_true rfl fun split => short split.1

theorem firstLine_isSome_iff (goal : String) : (firstLine goal).isSome = true ↔ ¬SplitBy 120 117 (goalLine goal) := by
  rw [firstLine]
  split
  · next long => rw [Option.isSome_map, sliceTo_isSome_iff (by omega) long]
  · next short => exact iff_of_true rfl fun split => short split.1

/-- A turn drafts no more than it can show of its goal. -/
theorem extract_isSome_iff (extractor : ProcedureSkillExtractor) (toLowercase : String → String)
    (request : SkillExtractionRequest) : (extractor.extract toLowercase request).isSome = true ↔
      (extractor.Drafts request → ¬SplitBy 120 117 (goalLine request.goal)) := by
  rw [← firstLine_isSome_iff, ProcedureSkillExtractor.extract]
  cases answered : (request.assistantMessage.map trim).filter (!·.isEmpty) with
  | none =>
    -- Without an answer there is nothing to draft.
    refine iff_of_true rfl fun drafts => ?_
    obtain ⟨⟨message, given, shown⟩, _⟩ := drafts
    have blank : trim message = "" := by simpa [given, Option.filter_eq_none_iff] using answered
    simp [isBlank, blank] at shown
  | some answer =>
    have shown : ∃ message, request.assistantMessage = some message ∧ isBlank message = false := by
      obtain ⟨mapped, nonempty⟩ := Option.filter_eq_some_iff.1 answered
      obtain ⟨message, given, rfl⟩ := Option.map_eq_some_iff.1 mapped
      exact ⟨message, given, by simpa [isBlank] using nonempty⟩
    dsimp only
    split
    · next few => exact iff_of_true rfl fun drafts => absurd drafts.2.1 (Nat.not_le.2 few)
    · next enough =>
      split
      · next unnamed =>
        exact iff_of_true rfl fun drafts => absurd (String.isEmpty_iff.1 unnamed) drafts.2.2
      · next named =>
        have drafts : extractor.Drafts request :=
          ⟨shown, Nat.le_of_not_lt enough, fun empty => named (String.isEmpty_iff.2 empty)⟩
        rw [forall_prop_of_true drafts]
        -- The description and the instructions show the same line.
        cases shortened : firstLine request.goal with
        | none => simp
        | some line => simp [renderProcedure, shortened]

/--
No excerpt splits a character, unless one lies across the byte where a text over its limit is cut.

The texts are the messages that a compaction drops, each on one line, the error text of a tool, and
the first line of the goal of a turn that a skill is drafted from.
-/
theorem excerpts_whole_iff (messages : List SessionMessage) (keepRecent : Nat) (operation : String)
    (attempts : Nat) (lastError : String) (replan : Bool) (extractor : ProcedureSkillExtractor)
    (toLowercase : String → String) (request : SkillExtractionRequest) :
    ((summarizeCompactedMessages messages keepRecent).isSome = true ∧
        (replanNudge operation attempts lastError replan).isSome = true ∧
        (extractor.extract toLowercase request).isSome = true) ↔
      (∀ message ∈ messages.take (messages.length - keepRecent), ¬SplitBy 200 200 (oneLine message.content)) ∧
        ¬SplitBy 400 400 (trim lastError) ∧
        (extractor.Drafts request → ¬SplitBy 120 117 (goalLine request.goal)) := by
  rw [summarizeCompactedMessages_isSome_iff, replanNudge_isSome_iff, extract_isSome_iff]

/-- Plain letters and behind them accented ones, which take two bytes each. -/
def accented (plain letters : Nat) : String := String.ofList (List.replicate plain 'a' ++ List.replicate letters 'é')

/-- Accented letters across bytes 200, 400 and 117 stop the program. -/
theorem excerpts_split_accents : summarizeCompactedMessages [.user (accented 1 100)] 0 = none ∧
      replanNudge "run_checks" 3 (accented 1 200) false = none ∧ (ProcedureSkillExtractor.new 2).extract id
        { goal := accented 2 60, assistantMessage := some "done", toolCalls := ["create_file", "run_command"] } =
          none := by
  -- The texts are compared as lists of characters.
  refine ⟨?_, ?_, ?_⟩
  · simp only [summarizeCompactedMessages, summaryExcerpt, SessionMessage.user, accented, String.toList_ofList,
      utf8ByteSize_eq_byteLength]
    decide +kernel
  · simp only [replanNudge, trim, accented, String.toList_ofList, utf8ByteSize_eq_byteLength]
    decide +kernel
  · simp only [ProcedureSkillExtractor.extract, renderProcedure, firstLine, goalLine, lines, slug, trim, accented,
      String.toList_ofList, utf8ByteSize_eq_byteLength]
    decide +kernel

end Codel00p
