import Codel00p.Skill.ReviewGate

/-! What becomes of the content of a skill over whole histories. -/

namespace Codel00p.Skills

open Program (exec)

def documentsOf (skillsDir : List String) (tree : FileTree) : Documents := fun names => tree.contents (skillsDir ++ names)

/-- Where the document of a skill is kept: active, as a candidate, archived, or rejected. -/
def places (name : String) : List (List String) :=
  [[name, skillFile], [candidatesDir, name, skillFile], [archiveDir, name, skillFile],
    [candidatesDir, archiveDir, name, skillFile]]

def Keeps (documents : Documents) (name : String) (text : ByteArray) : Prop :=
  ∃ place ∈ places name, documents place = some text

/-- An operation that retires a skill finds no other one that was retired under its name. -/
def Operation.Spares (documents : Documents) : Operation → Prop
  | .archive name => documents [archiveDir, name, skillFile] = none
  | .reject name => documents [candidatesDir, archiveDir, name, skillFile] = none
  | _ => True

/-- An operation that spares what was retired loses nothing. -/
theorem Documents.Step.keeps {before after : Documents} {operation : Operation} (changed : Step before operation after)
    (spares : operation.Spares before) {name : String} {text : ByteArray} (kept : Keeps before name text) :
    Keeps after name text := by
  simp only [Keeps, places, List.mem_cons, List.not_mem_nil, or_false, exists_eq_or_imp, exists_eq_left] at kept ⊢
  cases changed with
  | refused => exact kept
  | proposed valid inactive unknown =>
    have apart := apart_of_valid valid
    simp only [Function.update_apply]
    grind
  | approved valid | restored valid | rejected valid | forgotten valid | archived valid | cleared valid =>
    -- The document moves with its directory, and the others stay where they are.
    have apart := apart_of_valid valid
    simp only [Operation.Spares] at spares
    simp [Documents.moved, Documents.removed]
    grind

section

variable {skillsDir : List String} (proper : Files.Proper skillsDir)

include proper

theorem run_keeps {tree : FileTree} (linkless : Linkless skillsDir tree) {history : List Operation}
    (spares : ∀ earlier operation later, history = earlier ++ operation :: later →
      operation.Spares (documentsOf skillsDir (run skillsDir tree earlier)))
    {name : String} {text : ByteArray} (kept : Keeps (documentsOf skillsDir tree) name text) :
    Keeps (documentsOf skillsDir (run skillsDir tree history)) name text := by
  induction history generalizing tree with
  | nil => exact kept
  | cons operation history ih =>
    have stocked : Stocked skillsDir (documentsOf skillsDir tree) tree := ⟨linkless, fun _ => rfl⟩
    obtain ⟨documents, restocked, changed⟩ := step_does proper stocked operation
    have same : documentsOf skillsDir (step skillsDir tree operation) = documents := funext restocked.found
    refine ih restocked.linkless (fun earlier other later split => ?_) ?_
    · exact spares (operation :: earlier) other later (by rw [split]; rfl)
    · rw [same]
      exact changed.keeps (spares [] operation history rfl) kept

/--
The content of every accepted proposal stays, in a skills directory without links, as long as nothing is retired
under a name under which something was retired before.
-/
theorem proposals_kept {start : FileTree} (linkless : Linkless skillsDir start) (history : List Operation)
    (spares : ∀ earlier operation later, history = earlier ++ operation :: later →
      operation.Spares (documentsOf skillsDir (run skillsDir start earlier)))
    (earlier later : List Operation) (proposal : SkillProposal) (path : List String)
    (split : history = earlier ++ .propose proposal :: later)
    (accepted : (exec (proposeSkill skillsDir proposal) (run skillsDir start earlier)).1 = .ok path) :
    Keeps (documentsOf skillsDir (run skillsDir start history)) proposal.name (renderSkillMd proposal).toUTF8 := by
  have before := run_linkless proper linkless earlier
  have written := (proposeSkill_does proper proposal).run _ (⟨before, fun _ => rfl⟩ : Stocked skillsDir
    (documentsOf skillsDir (run skillsDir start earlier)) (run skillsDir start earlier))
  rcases outcome : exec (proposeSkill skillsDir proposal) (run skillsDir start earlier) with ⟨result, reached⟩
  rw [outcome] at accepted written
  cases accepted
  have stepped : step skillsDir (run skillsDir start earlier) (.propose proposal) = reached := by
    rw [step, Operation.run, Program.exec_bind, outcome]
    rfl
  have goesOn : ∀ more, run skillsDir start (earlier ++ .propose proposal :: more) = run skillsDir reached more := by
    intro more
    rw [← stepped, run, List.foldl_append, List.foldl_cons]
    rfl
  rw [split, goesOn]
  refine run_keeps proper written.1.linkless (fun before operation after divided => ?_)
    ⟨[candidatesDir, proposal.name, skillFile], by simp [places], ?_⟩
  · rw [← goesOn]
    exact spares _ operation after (by rw [split, divided]; simp)
  · exact (written.1.found _).trans (Function.update_self _ _ _)

end

/-- Another skill under the same name. -/
def farewell : SkillProposal := { greeting with instructions := "Say goodbye." }

def approvedAndArchived (proposal : SkillProposal) : List Operation :=
  [.propose proposal, .approve proposal.name, .archive proposal.name]

/-- A skill that was approved is kept. -/
theorem greeting_kept : Keeps (documentsOf ["skills"] (run ["skills"] emptySkills [.propose greeting, .approve "greeting"]))
    "greeting" (renderSkillMd greeting).toUTF8 := by
  have proper : Files.Proper ["skills"] := by
    intro name member
    simp at member
    subst member
    decide
  refine proposals_kept proper emptySkills_linkless _ ?_ [] [.approve "greeting"] greeting _ rfl rfl
  intro earlier operation later split
  -- Neither of the two operations retires anything.
  have among : operation ∈ [.propose greeting, .approve "greeting"] := by simp [split]
  rcases List.mem_pair.1 among with rfl | rfl <;> trivial

/-- A second skill that is archived under a name takes the place of the first one. -/
theorem greeting_lost :
    (exec (proposeSkill ["skills"] greeting) emptySkills).1.toOption.isSome = true ∧
      ∀ place ∈ places "greeting", documentsOf ["skills"] (run ["skills"] emptySkills
        (approvedAndArchived greeting ++ approvedAndArchived farewell)) place ≠ some (renderSkillMd greeting).toUTF8 := by
  decide +kernel

end Codel00p.Skills
