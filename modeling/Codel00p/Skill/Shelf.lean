import Codel00p.Lib.Straight
import Codel00p.Skill.Lifecycle

/-! What the operations on skills do to the documents of a skills directory without links. -/

namespace Codel00p.Skills

open Function (update update_apply)
open Program (exec Triple exec_bind exec_attempt)

/-- What is done to the skills of a directory. -/
inductive Operation where
  | propose (proposal : SkillProposal)
  | approve (name : String)
  | reject (name : String)
  | archive (name : String)
  | restore (name : String)
  deriving DecidableEq

def Operation.run (skillsDir : List String) : Operation → SkillM Unit
  | .propose proposal => do let _ ← proposeSkill skillsDir proposal
  | .approve name => do let _ ← approveCandidate skillsDir name
  | .reject name => rejectCandidate skillsDir name
  | .archive name => do let _ ← archiveSkill skillsDir name
  | .restore name => do let _ ← restoreSkill skillsDir name

def step (skillsDir : List String) (tree : FileTree) (operation : Operation) : FileTree :=
  (exec (operation.run skillsDir) tree).2

/-! ### What the operations do to the documents -/

/-- The documents of a skills directory, by the names of the skills. -/
@[ext] structure Shelf where
  active : String → Option ByteArray
  candidates : String → Option ByteArray
  archived : String → Option ByteArray

def shelf (skillsDir : List String) (tree : FileTree) : Shelf where
  active name := tree.contents (skillsDir ++ [name, skillFile])
  candidates name := tree.contents (skillsDir ++ [candidatesDir, name, skillFile])
  archived name := tree.contents (skillsDir ++ [archiveDir, name, skillFile])

/-- What an operation is to do, if it does anything. -/
inductive Shelf.Step (before : Shelf) : Operation → Shelf → Prop
  | refused (operation : Operation) : Step before operation before
  | proposed (proposal : SkillProposal) (inactive : before.active proposal.name = none)
      (unknown : before.candidates proposal.name = none) :
      Step before (.propose proposal)
        { before with
          candidates := update before.candidates proposal.name (some (renderSkillMd proposal).toUTF8) }
  | approved (name : String) (inactive : before.active name = none) :
      Step before (.approve name)
        { before with
          active := update before.active name (before.candidates name)
          candidates := update before.candidates name none }
  | rejected (name : String) :
      Step before (.reject name) { before with candidates := update before.candidates name none }
  /-- What was archived under a name is removed before it is replaced. -/
  | cleared (name : String) :
      Step before (.archive name) { before with archived := update before.archived name none }
  | archived (name : String) :
      Step before (.archive name)
        { before with
          active := update before.active name none
          archived := update before.archived name (before.active name) }
  | restored (name : String) (inactive : before.active name = none) :
      Step before (.restore name)
        { before with
          active := update before.active name (before.archived name)
          archived := update before.archived name none }

/-- No link is on the way to a directory, or below it. -/
def Linkless (skillsDir : List String) (tree : FileTree) : Prop :=
  ∀ place, place <+: skillsDir ∨ skillsDir <+: place → ∀ absolute target,
    tree.node place ≠ some (.symlink absolute target)

theorem Linkless.straight {skillsDir : List String} {tree : FileTree} (linkless : Linkless skillsDir tree)
    (names : List String) : tree.files.Straight (skillsDir ++ names) := by
  intro place within
  refine linkless place ?_
  exact List.prefix_or_prefix_of_prefix within (List.prefix_append skillsDir names)

theorem validateName_ok {name : String} (valid : validateName name = .ok ()) : '.' ∉ name.toList := by
  unfold validateName at valid
  split at valid
  · next checked =>
    simp only [Bool.and_eq_true, List.all_eq_true] at checked
    intro dot
    exact absurd (checked.2 '.' dot) (by decide)
  · exact nomatch valid

section

variable {skillsDir : List String} {tree reached : FileTree} {names source target : List String}

theorem ne_of_valid {name other : String} (valid : '.' ∉ name.toList) (dotted : '.' ∈ other.toList) : name ≠ other :=
  fun same => valid (same ▸ dotted)

theorem apart_of_valid {name : String} (valid : '.' ∉ name.toList) :
    name ≠ candidatesDir ∧ name ≠ archiveDir ∧ name ≠ skillFile ∧ candidatesDir ≠ archiveDir :=
  ⟨ne_of_valid valid (by decide), ne_of_valid valid (by decide), ne_of_valid valid (by decide), by decide⟩

def Named (names : List String) : Prop := ∀ name ∈ names, name ≠ "." ∧ name ≠ ".."

theorem proper_behind (proper : Files.Proper skillsDir) (named : Named names) : Files.Proper (skillsDir ++ names) := by
  intro name member
  rcases List.mem_append.1 member with above | below
  · exact proper name above
  · exact named name below

theorem named_of {name : String} (valid : '.' ∉ name.toList)
    (among : ∀ other ∈ names, other = name ∨ other ∈ [candidatesDir, archiveDir, skillFile]) : Named names := by
  intro other member
  rcases among other member with rfl | fixed
  · exact ⟨ne_of_valid valid (by decide), ne_of_valid valid (by decide)⟩
  · simp only [List.mem_cons, List.not_mem_nil, or_false] at fixed
    rcases fixed with rfl | rfl | rfl <;> decide

theorem isFile_behind (proper : Files.Proper skillsDir) (linkless : Linkless skillsDir tree)
    (named : Named names) : tree.isFile (skillsDir ++ names) = (tree.contents (skillsDir ++ names)).isSome := by
  rw [Bool.eq_iff_iff]
  exact FileTree.isFile_iff (proper_behind proper named) (linkless.straight names)

theorem Linkless.kept (linkless : Linkless skillsDir tree) (nodes : ∀ place, reached.node place = tree.node place ∨
      ∀ absolute link, reached.node place ≠ some (.symlink absolute link)) : Linkless skillsDir reached := by
  intro place near absolute link there
  rcases nodes place with same | plain
  · exact linkless place near absolute link (same.symm.trans there)
  · exact plain absolute link there

/-! ### Documents behind a directory -/

/-- Documents by the names of their files, behind a directory. -/
abbrev Documents := List String → Option ByteArray

@[simp] def Documents.removed (documents : Documents) (gone : List String) : Documents := fun names =>
  if gone <+: names then none else documents names

@[simp] def Documents.moved (documents : Documents) (source target : List String) : Documents := fun names =>
  if target <+: names then documents (source ++ names.drop target.length) else documents.removed source names

theorem Documents.moved_removed (documents : Documents) (apart : ∀ more, ¬target <+: source ++ more) :
    (documents.removed target).moved source target = documents.moved source target := by
  funext names
  simp only [moved, removed, apart, if_false]
  split <;> rfl

@[simp] def Documents.shelf (documents : Documents) : Shelf where
  active name := documents [name, skillFile]
  candidates name := documents [candidatesDir, name, skillFile]
  archived name := documents [archiveDir, name, skillFile]

structure Stocked (skillsDir : List String) (documents : Documents) (tree : FileTree) : Prop where
  linkless : Linkless skillsDir tree
  found : ∀ names, tree.contents (skillsDir ++ names) = documents names

theorem Stocked.shelf_eq {documents : Documents} (stocked : Stocked skillsDir documents tree) :
    shelf skillsDir tree = documents.shelf := by
  ext name : 2 <;> exact stocked.found _

/-- What an operation does to the documents, if it does anything. -/
inductive Documents.Step (before : Documents) : Operation → Documents → Prop
  | refused (operation : Operation) : Step before operation before
  | proposed {proposal : SkillProposal} (valid : '.' ∉ proposal.name.toList)
      (inactive : before [proposal.name, skillFile] = none)
      (unknown : before [candidatesDir, proposal.name, skillFile] = none) :
      Step before (.propose proposal)
        (update before [candidatesDir, proposal.name, skillFile] (some (renderSkillMd proposal).toUTF8))
  | approved {name : String} (valid : '.' ∉ name.toList) (inactive : before [name, skillFile] = none) :
      Step before (.approve name) (before.moved [candidatesDir, name] [name])
  | rejected {name : String} (valid : '.' ∉ name.toList) :
      Step before (.reject name) (before.moved [candidatesDir, name] [candidatesDir, archiveDir, name])
  | forgotten {name : String} (valid : '.' ∉ name.toList) :
      Step before (.reject name) (before.removed [candidatesDir, archiveDir, name])
  | archived {name : String} (valid : '.' ∉ name.toList) :
      Step before (.archive name) (before.moved [name] [archiveDir, name])
  | cleared {name : String} (valid : '.' ∉ name.toList) :
      Step before (.archive name) (before.removed [archiveDir, name])
  | restored {name : String} (valid : '.' ∉ name.toList) (inactive : before [name, skillFile] = none) :
      Step before (.restore name) (before.moved [archiveDir, name] [name])

/-- A change of the documents is one of the shelf; what is rejected is on no shelf. -/
theorem Documents.Step.shelf {before after : Documents} {operation : Operation} (changed : Step before operation after) :
    Shelf.Step before.shelf operation after.shelf := by
  have goes : ∀ {result : Shelf}, Shelf.Step before.shelf operation result → after.shelf = result →
      Shelf.Step before.shelf operation after.shelf := fun steps same => same ▸ steps
  cases changed with
  | refused => exact .refused _
  | proposed valid inactive unknown =>
    refine goes (.proposed _ inactive unknown) ?_
    ext other : 2 <;> simp [update_apply, (apart_of_valid valid).2.2.2.symm]
  | approved valid inactive =>
    have apart := apart_of_valid valid
    refine goes (.approved _ inactive) ?_
    ext other : 2 <;> simp [update_apply] <;> grind
  | rejected valid =>
    have apart := apart_of_valid valid
    refine goes (.rejected _) ?_
    ext other : 2 <;> simp [update_apply] <;> grind
  | forgotten valid =>
    have apart := apart_of_valid valid
    refine goes (.refused _) ?_
    ext other : 2 <;> simp <;> grind
  | archived valid =>
    have apart := apart_of_valid valid
    refine goes (.archived _) ?_
    ext other : 2 <;> simp [update_apply] <;> grind
  | cleared valid =>
    have apart := apart_of_valid valid
    refine goes (.cleared _) ?_
    ext other : 2 <;> simp [update_apply] <;> grind
  | restored valid inactive =>
    have apart := apart_of_valid valid
    refine goes (.restored _ inactive) ?_
    ext other : 2 <;> simp [update_apply] <;> grind

/-- What an operation did: there is still no link, and the documents changed as they may. -/
def Done (skillsDir : List String) (before : Documents) (operation : Operation) (after : FileTree) : Prop :=
  ∃ documents, Stocked skillsDir documents after ∧ before.Step operation documents

def Operation.Does (skillsDir : List String) (documents : Documents) (operation : Operation) : Prop :=
  Triple (Stocked skillsDir documents) (operation.run skillsDir) (fun _ => Done skillsDir documents operation)
    fun _ => Done skillsDir documents operation

theorem onFiles_does {α : Type} {path : List String} {operation : TreeM α} {before stopped : FileTree → Prop}
    {after : α → FileTree → Prop} (does : Triple before operation after fun _ => stopped) :
    Triple before (onFiles path operation) after fun _ => stopped := by
  refine ⟨fun tree holds => ?_⟩
  have ran := does.run tree holds
  simp only [onFiles, exec_bind, exec_attempt]
  generalize exec operation tree = outcome at ran ⊢
  rcases outcome with ⟨_ | value, reached⟩ <;> exact ran

variable {documents : Documents}

theorem requireSkill_does (directory : List String) (missing : SkillError) :
    Triple (Stocked skillsDir documents) (requireSkill directory missing)
      (fun _ => Stocked skillsDir documents) fun _ => Stocked skillsDir documents :=
  .reads_bind fun _ => .ite (fun _ => .pure _ fun _ stocked => stocked.1) fun _ => .throw _ fun _ stocked => stocked.1

variable (proper : Files.Proper skillsDir)

include proper

theorem createDirAll_does (named : Named names) :
    Triple (Stocked skillsDir documents) (createDirAll (skillsDir ++ names))
      (fun _ => Stocked skillsDir documents) fun _ => Stocked skillsDir documents := by
  refine onFiles_does (.of_moves (TreeM.createDirAll_towards (proper_behind proper named) (by simp)) ?_)
  intro tree reached towards stocked
  have grows := towards (stocked.linkless.straight names)
  refine ⟨stocked.linkless.kept fun place => ?_, fun other => (grows.contents _).trans (stocked.found other)⟩
  rcases grows place with same | ⟨_, _, made⟩
  · exact .inl same
  · exact .inr (by simp [made])

theorem writeFile_does (named : Named names) (text : String) :
    Triple (Stocked skillsDir documents) (writeFile (skillsDir ++ names) text)
      (fun _ => Stocked skillsDir (update documents names (some text.toUTF8)))
      fun _ => Stocked skillsDir documents := by
  refine .each fun tree stocked => onFiles_does ?_
  refine (TreeM.write_effect (proper_behind proper named) (stocked.linkless.straight names) text.toUTF8).weaken
    (fun _ same => same) (fun _ reached nodes => ⟨stocked.linkless.kept fun place => ?_, fun other => ?_⟩)
    fun _ _ same => same ▸ stocked
  · rw [nodes]
    split
    · exact .inr (by simp)
    · exact .inl rfl
  · by_cases same : other = names
    · simp [FileTree.contents, nodes, same]
    · simpa [FileTree.contents, nodes, same] using stocked.found other

theorem rename_does (namedSource : Named source) (namedTarget : Named target) (different : source ≠ target) :
    Triple (Stocked skillsDir documents) (rename (skillsDir ++ source) (skillsDir ++ target))
      (fun _ => Stocked skillsDir (documents.moved source target)) fun _ => Stocked skillsDir documents := by
  refine .each fun tree stocked => onFiles_does ?_
  refine (TreeM.rename_effect (proper_behind proper namedSource) (proper_behind proper namedTarget)
    (stocked.linkless.straight source) (stocked.linkless.straight target)
    fun same => different (List.append_cancel_left same)).weaken
    (fun _ same => same) (fun _ reached nodes => ⟨?_, fun names => ?_⟩) fun _ _ same => same ▸ stocked
  · intro place near absolute link there
    rw [nodes] at there
    split at there
    · exact stocked.linkless _ (.inr (by rw [List.append_assoc]; exact List.prefix_append _ _)) absolute link there
    · split at there
      · exact nomatch there
      · exact stocked.linkless place near absolute link there
  · simp only [FileTree.contents, nodes, List.prefix_append_right_inj, Documents.moved, Documents.removed,
      ← stocked.found]
    by_cases within : target <+: names
    · obtain ⟨more, rfl⟩ := within
      simp only [List.prefix_append, if_true]
      rw [← List.append_assoc skillsDir target more, List.drop_left, List.drop_left, List.append_assoc]
    · by_cases left : source <+: names <;> simp only [within, left, if_true, if_false]

theorem clear_does (named : Named names) : Triple (Stocked skillsDir documents) (clear (skillsDir ++ names))
      (fun _ tree => Stocked skillsDir documents tree ∨ Stocked skillsDir (documents.removed names) tree)
      fun _ => Stocked skillsDir documents := by
  refine .reads_bind fun there => .ite (fun _ => .each fun tree stocked => onFiles_does ?_) fun _ =>
    .pure _ fun _ stocked => .inl stocked.1
  refine (TreeM.removeDirAll_effect (proper_behind proper named) (stocked.1.linkless.straight names)).weaken
    (fun _ same => same) (fun _ reached nodes => .inr ⟨stocked.1.linkless.kept fun place => ?_, fun other => ?_⟩)
    fun _ _ same => same ▸ stocked.1
  · rw [nodes]
    split
    · exact .inr (by simp)
    · exact .inl rfl
  · by_cases within : names <+: other <;>
      simp [FileTree.contents, nodes, within, Documents.removed, ← stocked.1.found]

theorem refuseSkill_does (named : Named (names ++ [skillFile])) (taken : SkillError) :
    Triple (Stocked skillsDir documents) (refuseSkill (skillsDir ++ names) taken)
      (fun _ tree => documents (names ++ [skillFile]) = none ∧ Stocked skillsDir documents tree)
      fun _ => Stocked skillsDir documents := by
  refine .reads_bind fun there => .ite (fun _ => .throw _ fun _ stocked => stocked.1) fun absent =>
    .pure _ fun tree stocked => ⟨?_, stocked.1⟩
  have told := stocked.2
  rw [List.append_assoc, isFile_behind proper stocked.1.linkless named, stocked.1.found] at told
  exact Option.not_isSome_iff_eq_none.1 (told ▸ absent)

theorem activate_does {kept name : String} (known : kept ∈ [candidatesDir, archiveDir, skillFile])
    (unknown : SkillError) : Triple (Stocked skillsDir documents) (activate skillsDir kept name unknown)
      (fun _ tree => '.' ∉ name.toList ∧ documents [name, skillFile] = none ∧
        Stocked skillsDir (documents.moved [kept, name] [name]) tree)
      fun _ => Stocked skillsDir documents := by
  unfold activate
  cases checked : validateName name with
  | error error => exact .stop _ fun _ stocked => stocked
  | ok done =>
    have valid := validateName_ok checked
    have among : ∀ other ∈ [kept, name], other = name ∨ other ∈ [candidatesDir, archiveDir, skillFile] := by
      intro other member
      rcases List.mem_pair.1 member with rfl | rfl
      · exact .inr known
      · exact .inl rfl
    refine .pass _ (.bind (requireSkill_does _ _) fun _ => ?_)
    refine .bind (refuseSkill_does proper (named_of valid (by simp)) _) fun _ => ?_
    refine .knowing (fun _ holds => holds.1) fun inactive => ?_
    refine .bind ((rename_does proper (named_of valid among) (named_of valid (by simp)) (by simp)).starting
      (fun _ holds => holds.2)) fun _ => ?_
    exact .pure _ fun _ moved => ⟨valid, inactive, moved⟩

/--
Retiring moves the documents of a directory to its archive, in the place of those that were there.

Where it fails, it did nothing, or the documents that were in the archive are gone.
-/
theorem retire_does {base : List String} (known : ∀ other ∈ base, other ∈ [candidatesDir, archiveDir, skillFile])
    (name : String) (unknown : SkillError) :
    Triple (Stocked skillsDir documents) (retire (skillsDir ++ base) name unknown) (fun _ tree => '.' ∉ name.toList ∧
        Stocked skillsDir (documents.moved (base ++ [name]) (base ++ [archiveDir, name])) tree)
      fun _ tree => Stocked skillsDir documents tree ∨
        '.' ∉ name.toList ∧ Stocked skillsDir (documents.removed (base ++ [archiveDir, name])) tree := by
  unfold retire
  cases checked : validateName name with
  | error error => exact .stop _ fun _ stocked => .inl stocked
  | ok done =>
    have valid := validateName_ok checked
    have among : ∀ more, (∀ other ∈ more, other = name ∨ other ∈ [candidatesDir, archiveDir, skillFile]) →
        Named (base ++ more) := by
      intro more rest
      refine named_of valid fun other member => ?_
      rcases List.mem_append.1 member with before | behind
      · exact .inr (known other before)
      · exact rest other behind
    -- What moves is not below what was cleared.
    have apart : ∀ more, ¬base ++ [archiveDir, name] <+: base ++ [name] ++ more := by
      intro more within
      rw [List.append_assoc, List.prefix_append_right_inj] at within
      exact ne_of_valid valid (by decide) (List.cons_prefix_cons.1 within).1.symm
    simp only [List.append_assoc]
    refine .pass _ (.bind ((requireSkill_does _ _).stopping fun _ _ same => .inl same) fun _ => ?_)
    -- Nothing changes until the archive is cleared.
    refine .bind ((createDirAll_does proper (among [archiveDir] (by simp))).stopping
      fun _ _ same => .inl same) fun _ => ?_
    refine .bind ((clear_does proper (among [archiveDir, name] (by simp))).stopping fun _ _ same => .inl same) fun _ => ?_
    have moves := fun documents : Documents => @rename_does skillsDir (base ++ [name]) (base ++ [archiveDir, name])
      documents proper (among [name] (by simp)) (among [archiveDir, name] (by simp)) (by simp)
    refine .bind (.each fun tree stocked => ?_) fun _ => .pure _ fun _ moved => ⟨valid, moved⟩
    rcases stocked with same | gone
    · exact (moves documents).weaken (fun _ is => is ▸ same) (fun _ _ moved => moved) fun _ _ stays => .inl stays
    · have moved := moves (documents.removed (base ++ [archiveDir, name]))
      rw [documents.moved_removed apart] at moved
      exact moved.weaken (fun _ is => is ▸ gone) (fun _ _ moved => moved) fun _ _ stays => .inr ⟨valid, stays⟩

omit proper in
theorem Done.refused {operation : Operation} (stocked : Stocked skillsDir documents tree) :
    Done skillsDir documents operation tree :=
  ⟨documents, stocked, .refused operation⟩

theorem approve_done (name : String) : Operation.Does skillsDir documents (.approve name) := by
  refine .bind ((activate_does proper (by simp) _).weaken (fun _ same => same) (fun _ _ done => ?_)
    fun _ _ same => .refused same) fun _ => .pure _ fun _ done => done
  obtain ⟨valid, inactive, moved⟩ := done
  exact ⟨_, moved, .approved valid inactive⟩

theorem restore_done (name : String) : Operation.Does skillsDir documents (.restore name) := by
  refine .bind ((activate_does proper (by simp) _).weaken (fun _ same => same) (fun _ _ done => ?_)
    fun _ _ same => .refused same) fun _ => .pure _ fun _ done => done
  obtain ⟨valid, inactive, moved⟩ := done
  exact ⟨_, moved, .restored valid inactive⟩

theorem reject_done (name : String) : Operation.Does skillsDir documents (.reject name) := by
  refine .bind ((retire_does proper (by simp) name _).weaken (fun _ same => same)
    (fun _ _ done => ⟨_, done.2, .rejected done.1⟩) fun _ _ stopped => ?_) fun _ => .pure _ fun _ done => done
  rcases stopped with same | ⟨valid, gone⟩
  · exact .refused same
  · exact ⟨_, gone, .forgotten valid⟩

theorem archive_done (name : String) : Operation.Does skillsDir documents (.archive name) := by
  have retires := @retire_does skillsDir documents proper [] (by simp) name (.unknownSkill name)
  rw [List.append_nil] at retires
  refine .bind (retires.weaken (fun _ same => same) (fun _ _ done => ⟨_, done.2, .archived done.1⟩)
    fun _ _ stopped => ?_) fun _ => .pure _ fun _ done => done
  rcases stopped with same | ⟨valid, gone⟩
  · exact .refused same
  · exact ⟨_, gone, .cleared valid⟩

theorem proposeSkill_does (proposal : SkillProposal) :
    Triple (Stocked skillsDir documents) (proposeSkill skillsDir proposal)
      (fun _ tree => Stocked skillsDir (update documents [candidatesDir, proposal.name, skillFile]
          (some (renderSkillMd proposal).toUTF8)) tree ∧ '.' ∉ proposal.name.toList ∧
        documents [proposal.name, skillFile] = none ∧ documents [candidatesDir, proposal.name, skillFile] = none)
      fun _ => Stocked skillsDir documents := by
  simp only [proposeSkill, candidatesRoot, List.append_assoc, List.cons_append, List.nil_append]
  cases checked : validateName proposal.name with
  | error error => exact .stop _ fun _ same => same
  | ok done =>
    have valid := validateName_ok checked
    refine .pass _ (.bind (refuseSkill_does proper (named_of valid (by simp)) _) fun _ => ?_)
    refine .knowing (fun _ holds => holds.1) fun inactive => ?_
    refine .bind ((refuseSkill_does proper (named_of valid (by simp)) _).starting (fun _ holds => holds.2)) fun _ => ?_
    refine .knowing (fun _ holds => holds.1) fun unknown => ?_
    refine .bind ((createDirAll_does proper (named_of valid (by simp))).starting (fun _ holds => holds.2)) fun _ => ?_
    refine .bind (writeFile_does proper (named_of valid (by simp)) _) fun _ => ?_
    exact .pure _ fun _ written => ⟨written, valid, inactive, unknown⟩

theorem propose_done (proposal : SkillProposal) : Operation.Does skillsDir documents (.propose proposal) := by
  refine .bind ((proposeSkill_does proper proposal).weaken (fun _ same => same) (fun _ _ done => ?_)
    fun _ _ same => .refused same) fun _ => .pure _ fun _ done => done
  obtain ⟨written, valid, inactive, unknown⟩ := done
  exact ⟨_, written, .proposed valid inactive unknown⟩

theorem step_does (stocked : Stocked skillsDir documents tree) (operation : Operation) :
    Done skillsDir documents operation (step skillsDir tree operation) := by
  suffices does : operation.Does skillsDir documents from does.reaches stocked
  cases operation with
  | propose proposal => exact propose_done proper proposal
  | approve name => exact approve_done proper name
  | reject name => exact reject_done proper name
  | archive name => exact archive_done proper name
  | restore name => exact restore_done proper name

theorem step_done (linkless : Linkless skillsDir tree) (operation : Operation) :
    Linkless skillsDir (step skillsDir tree operation) ∧
      Shelf.Step (shelf skillsDir tree) operation (shelf skillsDir (step skillsDir tree operation)) := by
  have stocked : Stocked skillsDir (fun names => tree.contents (skillsDir ++ names)) tree := ⟨linkless, fun _ => rfl⟩
  obtain ⟨documents, restocked, changed⟩ := step_does proper stocked operation
  refine ⟨restocked.linkless, ?_⟩
  rw [stocked.shelf_eq, restocked.shelf_eq]
  exact changed.shelf

end

end Codel00p.Skills
