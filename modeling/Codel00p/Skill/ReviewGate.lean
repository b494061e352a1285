import Codel00p.Lib.Run
import Codel00p.Skill.Shelf

/-! The review gate of skills: nothing becomes active that was not there or approved. -/

namespace Codel00p.Skills

/-- An operation keeps to the gate: a document that is newly active was a candidate that is approved by it, or was
archived and is restored by it, and no other one was active under its name. -/
def Gated (before : Shelf) (operation : Operation) (after : Shelf) : Prop :=
  ∀ name text, after.active name = some text → before.active name = some text ∨
    (operation = .approve name ∧ before.active name = none ∧ before.candidates name = some text) ∨
    (operation = .restore name ∧ before.active name = none ∧ before.archived name = some text)

/-! ### Whole histories -/

namespace Shelf.Step

variable {before after : Shelf} {operation : Operation} {name : String} {text : ByteArray}

theorem update_eq_some {shelf : String → Option ByteArray} {changed : String} {written : Option ByteArray}
    (found : Function.update shelf changed written name = some text) :
    (name = changed ∧ written = some text) ∨ shelf name = some text := by
  by_cases same : name = changed
  · subst same
    exact .inl ⟨rfl, by simpa using found⟩
  · exact .inr (by simpa [same] using found)

section

variable (changed : Step before operation after)

include changed

theorem gated : Gated before operation after := by
  intro name text active
  cases changed with
  | approved other inactive =>
    rcases update_eq_some active with ⟨rfl, candidate⟩ | was
    · exact .inr (.inl ⟨rfl, inactive, candidate⟩)
    · exact .inl was
  | archived other => exact .inl ((update_eq_some active).resolve_left fun gone => nomatch gone.2)
  | restored other inactive =>
    rcases update_eq_some active with ⟨rfl, archived⟩ | was
    · exact .inr (.inr ⟨rfl, inactive, archived⟩)
    · exact .inl was
  | _ => exact .inl active

theorem archived_cases (archived : after.archived name = some text) :
    before.archived name = some text ∨ before.active name = some text := by
  cases changed with
  | cleared | restored => exact .inl ((update_eq_some archived).resolve_left fun gone => nomatch gone.2)
  | archived other =>
    rcases update_eq_some archived with ⟨rfl, active⟩ | was
    · exact .inr active
    · exact .inl was
  | _ => exact .inl archived

theorem candidates_cases (candidate : after.candidates name = some text) :
    before.candidates name = some text ∨ ∃ proposal, operation = .propose proposal ∧ proposal.name = name ∧
      text = (renderSkillMd proposal).toUTF8 := by
  cases changed with
  | proposed proposal =>
    rcases update_eq_some candidate with ⟨rfl, written⟩ | was
    · exact .inr ⟨proposal, rfl, rfl, (Option.some.inj written).symm⟩
    · exact .inl was
  | approved | rejected => exact .inl ((update_eq_some candidate).resolve_left fun gone => nomatch gone.2)
  | _ => exact .inl candidate

end

end Shelf.Step

def run (skillsDir : List String) (start : FileTree) (history : List Operation) : FileTree :=
  history.foldl (step skillsDir) start

def Proposed (start : Shelf) (history : List Operation) (name : String) (text : ByteArray) : Prop :=
  start.candidates name = some text ∨
    ∃ proposal, .propose proposal ∈ history ∧ proposal.name = name ∧ text = (renderSkillMd proposal).toUTF8

def Vetted (start : Shelf) (history : List Operation) (name : String) (text : ByteArray) : Prop :=
  start.active name = some text ∨ start.archived name = some text ∨
    ∃ earlier later, history = earlier ++ .approve name :: later ∧ Proposed start earlier name text

theorem Vetted.append {start : Shelf} {history : List Operation} {name : String} {text : ByteArray}
    (vetted : Vetted start history name text) (operation : Operation) :
    Vetted start (history ++ [operation]) name text := by
  rcases vetted with active | archived | ⟨earlier, later, rfl, proposed⟩
  · exact .inl active
  · exact .inr (.inl archived)
  · exact .inr (.inr ⟨earlier, later ++ [operation], by simp, proposed⟩)

section

variable {skillsDir : List String} {start : FileTree}

theorem run_snoc (history : List Operation) (operation : Operation) :
    run skillsDir start (history ++ [operation]) = step skillsDir (run skillsDir start history) operation := by
  simp [run]

section

variable (proper : Files.Proper skillsDir) (linkless : Linkless skillsDir start)

include proper linkless

theorem run_linkless (history : List Operation) : Linkless skillsDir (run skillsDir start history) :=
  Run.invariant (step skillsDir) (Linkless skillsDir)
    (fun _ operation unlinked => (step_done proper unlinked operation).1) linkless history

theorem run_vetted (history : List Operation) (name : String) (text : ByteArray) :
    ((shelf skillsDir (run skillsDir start history)).candidates name = some text →
        Proposed (shelf skillsDir start) history name text) ∧
      ((shelf skillsDir (run skillsDir start history)).active name = some text ∨
        (shelf skillsDir (run skillsDir start history)).archived name = some text →
          Vetted (shelf skillsDir start) history name text) := by
  induction history using List.reverseRecOn with
  | nil => exact ⟨.inl, fun there => there.elim .inl fun archived => .inr (.inl archived)⟩
  | append_singleton history operation ih =>
    obtain ⟨proposed, vetted⟩ := ih
    have changed := (step_done proper (run_linkless proper linkless history) operation).2
    rw [run_snoc]
    refine ⟨fun candidate => ?_, fun there => ?_⟩
    · rcases changed.candidates_cases candidate with before | ⟨proposal, rfl, named, written⟩
      · rcases proposed before with there | ⟨proposal, member, rest⟩
        · exact .inl there
        · exact .inr ⟨proposal, by simp [member], rest⟩
      · exact .inr ⟨proposal, by simp, named, written⟩
    · rcases there with active | archived
      · rcases changed.gated name _ active with before | ⟨rfl, _, candidate⟩ | ⟨rfl, _, archived⟩
        · exact (vetted (.inl before)).append operation
        · exact .inr (.inr ⟨history, [], rfl, proposed candidate⟩)
        · exact (vetted (.inr archived)).append _
      · rcases changed.archived_cases archived with before | active
        · exact (vetted (.inr before)).append operation
        · exact (vetted (.inl active)).append operation

theorem run_inactive {name : String} (inactive : (shelf skillsDir start).active name = none) {later : List Operation}
    (left : ∀ operation ∈ later, operation ≠ .approve name ∧ operation ≠ .restore name) :
    (shelf skillsDir (run skillsDir start later)).active name = none := by
  induction later using List.reverseRecOn with
  | nil => exact inactive
  | append_singleton later operation ih =>
    have before := ih fun other member => left other (by simp [member])
    have changed := (step_done proper (run_linkless proper linkless later) operation).2
    rw [run_snoc, Option.eq_none_iff_forall_ne_some]
    intro text active
    obtain ⟨notApproved, notRestored⟩ := left operation (by simp)
    rcases changed.gated name text active with was | ⟨approves, _⟩ | ⟨restores, _⟩
    · exact nomatch before.symm.trans was
    · exact notApproved approves
    · exact notRestored restores

end

end

/-! ### What is loaded -/

def ReadFrom (skillsDir : List String) (tree : FileTree) (source : SkillSource) (skill : Skill) (name : String)
    (text : ByteArray) : Prop :=
  (shelf skillsDir tree).active name = some text ∧
    ∃ chars, Utf8.decode text.data.toList = .ok chars ∧
      parseSkill (skillsDir ++ [name, skillFile]) source (String.ofList chars) = .ok skill

section

variable {skillsDir : List String} {tree : FileTree} {source : SkillSource} {skill : Skill}

theorem loadSkill_behind (proper : Files.Proper skillsDir) (linkless : Linkless skillsDir tree) {names : List String}
    (named : Named names) {text : ByteArray} (document : tree.contents (skillsDir ++ names) = some text)
    (loaded : loadSkill (skillsDir ++ names) source tree = .ok skill) :
    ∃ chars, Utf8.decode text.data.toList = .ok chars ∧
      parseSkill (skillsDir ++ names) source (String.ofList chars) = .ok skill := by
  have there := FileTree.contents_eq_some.1 document
  have leads := FileTree.lookup_file (proper_behind proper named) (linkless.straight names) there
  simp only [loadSkill, readToString, leads, there] at loaded
  cases decoded : Utf8.decode text.data.toList with
  | ok chars =>
    rw [decoded] at loaded
    exact ⟨chars, rfl, loaded⟩
  | error error =>
    rw [decoded] at loaded
    exact nomatch loaded

theorem mem_scanDir (proper : Files.Proper skillsDir) (linkless : Linkless skillsDir tree)
    (found : skill ∈ scanDir skillsDir source tree) :
    ∃ name text, ReadFrom skillsDir tree source skill name text := by
  unfold scanDir at found
  split at found
  · next location there =>
    obtain ⟨name, listed, loaded⟩ := List.mem_filterMap.1 found
    dsimp only at loaded
    split at loaded
    · next isFile =>
      have named : Named [name, skillFile] := by
        intro other member
        rcases List.mem_pair.1 member with rfl | rfl
        · exact FileTree.names_proper listed
        · decide
      rw [isFile_behind proper linkless named] at isFile
      obtain ⟨text, document⟩ := Option.isSome_iff_exists.1 isFile
      cases outcome : loadSkill (skillsDir ++ [name, skillFile]) source tree with
      | error error =>
        rw [outcome] at loaded
        exact nomatch loaded
      | ok other =>
        rw [outcome] at loaded
        obtain rfl : other = skill := Option.some.inj loaded
        exact ⟨name, text, document, loadSkill_behind proper linkless named document outcome⟩
    · exact nomatch loaded
  · exact nomatch found

theorem mem_loadSkills (loaded : skill ∈ loadSkills [(source, skillsDir)] tree) :
    skill ∈ scanDir skillsDir source tree := by
  -- Whatever is in the map was put there from the list.
  have listed : ∀ (skills : List Skill) (byName : List (String × Skill)) (entry : String × Skill),
      entry ∈ skills.foldl (fun byName skill => Assoc.insert skill.name skill byName) byName →
      entry ∈ byName ∨ entry.2 ∈ skills := by
    intro skills
    induction skills with
    | nil => exact fun _ _ member => .inl member
    | cons first rest ih =>
      intro byName entry member
      rcases ih _ entry member with inserted | later
      · rcases Assoc.mem_insert inserted with rfl | before
        · exact .inr (by simp)
        · exact .inl before
      · exact .inr (by simp [later])
  simp only [loadSkills, List.mergeSort_singleton, List.foldl_cons, List.foldl_nil, List.mem_map] at loaded
  obtain ⟨entry, member, rfl⟩ := loaded
  exact (listed _ _ entry member).resolve_left (List.not_mem_nil)

end

/-! ### The gate -/

/-- A skill went through the gate: its document was vetted, and it was activated again if it was archived. -/
def Reviewed (skillsDir : List String) (start : FileTree) (history : List Operation) (skill : Skill) : Prop :=
  ∃ source name text, ReadFrom skillsDir (run skillsDir start history) source skill name text ∧
    Vetted (shelf skillsDir start) history name text ∧
    ∀ earlier later, history = earlier ++ .archive name :: later →
      (shelf skillsDir (run skillsDir start (earlier ++ [.archive name]))).active name = none →
        .approve name ∈ later ∨ .restore name ∈ later

/-- In a skills directory without links, every skill that is loaded after any history went through the gate, and
every operation kept to it. -/
theorem review_gate_of_linkless {skillsDir : List String} (proper : Files.Proper skillsDir) {start : FileTree}
    (linkless : Linkless skillsDir start) (history : List Operation) :
    (∀ source, ∀ skill ∈ loadSkills [(source, skillsDir)] (run skillsDir start history),
        Reviewed skillsDir start history skill) ∧ ∀ earlier operation later, history = earlier ++ operation :: later →
        Gated (shelf skillsDir (run skillsDir start earlier)) operation
          (shelf skillsDir (run skillsDir start (earlier ++ [operation]))) := by
  refine ⟨fun source skill loaded => ?_, fun earlier operation later _ => ?_⟩
  · obtain ⟨name, text, read⟩ := mem_scanDir proper (run_linkless proper linkless history) (mem_loadSkills loaded)
    refine ⟨source, name, text, read, (run_vetted proper linkless history name text).2 (.inl read.1), ?_⟩
    intro earlier later split inactive
    -- What was left archived would still not be active.
    by_contra left
    rw [not_or] at left
    have stays := run_inactive proper (run_linkless proper linkless (earlier ++ [.archive name])) inactive
      fun operation member => ⟨fun same => left.1 (same ▸ member), fun same => left.2 (same ▸ member)⟩
    rw [run, run, ← List.foldl_append, List.append_assoc, List.singleton_append, ← split] at stays
    exact nomatch stays.symm.trans read.1
  · rw [run_snoc]
    exact (step_done proper (run_linkless proper linkless earlier) operation).2.gated

def greeting : SkillProposal where
  name := "greeting"
  description := "Greet"
  instructions := "Say hello."
  createdBy := "agent"

def emptySkills : FileTree := ⟨[("skills", .folder [])]⟩

theorem emptySkills_linkless : Linkless ["skills"] emptySkills := by
  intro place _ absolute target there
  match place with
  | [] => exact nomatch there
  | first :: rest =>
    by_cases named : first = "skills"
    · subst named
      cases rest with
      | nil => exact nomatch there
      | cons next more => exact nomatch there
    · simp [emptySkills, FileTree.node, FileTree.get, Tree.get, List.lookup_cons, List.lookup_nil,
        beq_eq_false_iff_ne.2 named] at there

/-- A proposal that is approved is loaded, and went through the gate. -/
theorem greeting_reviewed : (loadSkills [(.project, ["skills"])]
        (run ["skills"] emptySkills [.propose greeting, .approve "greeting"])).map (·.name) = ["greeting"] ∧
      ∀ skill ∈ loadSkills [(.project, ["skills"])]
          (run ["skills"] emptySkills [.propose greeting, .approve "greeting"]),
        Reviewed ["skills"] emptySkills [.propose greeting, .approve "greeting"] skill :=
  ⟨by decide +kernel,
    (review_gate_of_linkless (by intro name member; simp at member; subst member; decide) emptySkills_linkless _).1
      .project⟩

def linkedSkills : FileTree := ⟨[("skills", .folder [(candidatesDir, .link false ["."])])]⟩

theorem linkedSkills_empty (names : List String) : linkedSkills.contents ("skills" :: names) = none := by
  match names with
  | [] => rfl
  | first :: rest =>
    by_cases named : first = candidatesDir
    · subst named
      cases rest <;> rfl
    · simp [linkedSkills, FileTree.contents, FileTree.node, FileTree.get, Tree.get, List.lookup_cons,
        List.lookup_nil, beq_eq_false_iff_ne.2 named]

/-- A proposal is loaded that nobody approved. -/
theorem linked_candidate_loaded :
    ∃ skill ∈ loadSkills [(.project, ["skills"])] (run ["skills"] linkedSkills [.propose greeting]),
      ¬Reviewed ["skills"] linkedSkills [.propose greeting] skill := by
  have loaded : (loadSkills [(.project, ["skills"])] (run ["skills"] linkedSkills [.propose greeting])).length = 1 := by
    decide +kernel
  obtain ⟨skill, only⟩ := List.length_eq_one_iff.1 loaded
  refine ⟨skill, by simp [only], ?_⟩
  rintro ⟨source, name, text, _, active | archived | ⟨earlier, later, split, _⟩, _⟩
  · exact nomatch (linkedSkills_empty [name, skillFile]).symm.trans active
  · exact nomatch (linkedSkills_empty [archiveDir, name, skillFile]).symm.trans archived
  · -- The only operation is the proposal.
    have approved : Operation.approve name ∈ [.propose greeting] := by simp [split]
    exact nomatch List.mem_singleton.1 approved

end Codel00p.Skills
