import Codel00p.Harness.Permission
import Codel00p.Lib.Run

/-! Checkpoints of a workspace: commits of a shadow repository, the log that lists them, and restores. -/

namespace Codel00p.Checkpoints

structure Snapshot (α : Type) where
  files : α
  message : String
  date : String
  deriving DecidableEq, Repr

/-- A commit with those it was made after, the newest first. -/
abbrev Commit (α : Type) := List (Snapshot α)

structure Git (α κ : Type) where
  id : Commit α → κ
  shown : κ → String
  /-- The commit a revision names, among those that exist and with the one `HEAD` is at. -/
  revParse : List (Commit α) → Commit α → κ → Option (Commit α)
  revParse_mem : ∀ {created head revision commit}, revParse created head revision = some commit → commit ∈ created
  revParse_id : ∀ {created head commit}, commit ∈ created → revParse created head (id commit) = some commit
  /-- Why a message is not committed; an empty one is not. -/
  refusal : String → Option String
  subject : String → String
  /-- How many paths of the workspace differ from a commit. -/
  changed : α → Commit α → Option Nat

/-- The shadow repository with its workspace. -/
structure Shadow (α : Type) where
  /-- Every commit made so far, also those no log reaches any more. -/
  created : List (Commit α)
  head : Commit α
  files : α
  standing : head ∈ created ∨ head = [] ∧ created = []
  real : [] ∉ created
  closed : ∀ commit ∈ created, ∀ earlier, earlier <:+ commit → earlier ≠ [] → earlier ∈ created

/-- The state of a workspace before its first checkpoint. -/
def Shadow.fresh {α : Type} (files : α) : Shadow α where
  created := []
  head := []
  files := files
  standing := .inr ⟨rfl, rfl⟩
  real := List.not_mem_nil
  closed := by simp

structure Checkpoint (κ : Type) where
  id : κ
  label : Option String
  createdAt : Option String
  deriving DecidableEq, Repr

structure RestoreOutcome (κ : Type) where
  id : κ
  filesRestored : Option Nat
  deriving DecidableEq, Repr

variable {α κ : Type}

theorem Shadow.closed_cons (shadow : Shadow α) (snapshot : Snapshot α) :
    ∀ commit ∈ (snapshot :: shadow.head) :: shadow.created, ∀ earlier, earlier <:+ commit → earlier ≠ [] →
      earlier ∈ (snapshot :: shadow.head) :: shadow.created := by
  intro commit member earlier before nonempty
  rcases List.mem_cons.1 member with rfl | old
  · rcases List.suffix_cons_iff.1 before with rfl | before
    · exact List.mem_cons_self
    · -- What comes before the new commit comes before the one it was made after.
      rcases shadow.standing with stood | ⟨empty, -⟩
      · exact List.mem_cons_of_mem _ (shadow.closed _ stood _ before nonempty)
      · exact absurd (List.suffix_nil.1 (empty ▸ before)) nonempty
  · exact List.mem_cons_of_mem _ (shadow.closed _ old _ before nonempty)

/-- The repository after a commit on top of the one it is at. -/
def Shadow.commit (shadow : Shadow α) (snapshot : Snapshot α) : Shadow α where
  created := (snapshot :: shadow.head) :: shadow.created
  head := snapshot :: shadow.head
  files := shadow.files
  standing := .inl List.mem_cons_self
  real := by simpa using shadow.real
  closed := shadow.closed_cons snapshot

/-- The repository after `reset --hard`: its branch and the files are those of the commit. -/
def Shadow.reset (shadow : Shadow α) (commit : Commit α) (member : commit ∈ shadow.created) : Shadow α where
  created := shadow.created
  head := commit
  files := (commit.head?.map Snapshot.files).getD shadow.files
  standing := .inl member
  real := shadow.real
  closed := shadow.closed

variable (git : Git α κ)

def snapshot (label : Option String) (date : String) (shadow : Shadow α) :
    Except HarnessError (Checkpoint κ) × Shadow α :=
  let message := label.getD "checkpoint"
  match git.refusal message with
  | some stderr => (.error (.toolFailed "checkpoints" stderr), shadow)
  | none =>
    let after := shadow.commit { files := shadow.files, message, date }
    (.ok { id := git.id after.head, label, createdAt := (some date).filter fun date => !date.isEmpty }, after)

def log : Commit α → List (Commit α)
  | [] => []
  | newest :: earlier => (newest :: earlier) :: log earlier

def parseLogLine (commit : Commit α) : Checkpoint κ :=
  let subject := git.subject ((commit.head?.map Snapshot.message).getD "")
  { id := git.id commit
    label := if subject.isEmpty || subject == "checkpoint" then none else some subject
    createdAt := (commit.head?.map Snapshot.date).filter fun date => !date.isEmpty }

def list (shadow : Shadow α) : List (Checkpoint κ) := (log shadow.head).map (parseLogLine git)

/-- Bring the workspace back to a checkpoint; the branch of the repository goes there too. -/
def restore (id : κ) (shadow : Shadow α) : Except HarnessError (RestoreOutcome κ) × Shadow α :=
  match found : git.revParse shadow.created shadow.head id with
  | none => (.error (.toolFailed "restore_checkpoint" ("unknown checkpoint id: " ++ git.shown id)), shadow)
  | some commit =>
    (.ok { id, filesRestored := git.changed shadow.files commit }, shadow.reset commit (git.revParse_mem found))

/-- What happens to a workspace: its files change, or a checkpoint is made or restored. -/
inductive Op (α κ : Type) where
  | change (files : α)
  | snapshot (label : Option String) (date : String)
  | restore (id : κ)

def step (shadow : Shadow α) : Op α κ → Shadow α
  | .change files => { shadow with files }
  | .snapshot label date => (snapshot git label date shadow).2
  | .restore id => (restore git id shadow).2

theorem mem_log {head commit : Commit α} : commit ∈ log head ↔ commit <:+ head ∧ commit ≠ [] := by
  induction head with
  | nil => simp [log]
  | cons newest earlier ih =>
    rw [log, List.mem_cons, ih, List.suffix_cons_iff]
    constructor
    · rintro (rfl | ⟨before, nonempty⟩)
      · exact ⟨.inl rfl, by simp⟩
      · exact ⟨.inr before, nonempty⟩
    · rintro ⟨rfl | before, nonempty⟩
      · exact .inl rfl
      · exact .inr ⟨before, nonempty⟩

/-- Every checkpoint that was made is among those listed. -/
def Listed (shadow : Shadow α) : Prop :=
  ∀ commit ∈ shadow.created, git.id commit ∈ (list git shadow).map Checkpoint.id

variable {git} {shadow : Shadow α}

theorem log_created {commit : Commit α} (shown : commit ∈ log shadow.head) : commit ∈ shadow.created := by
  obtain ⟨before, nonempty⟩ := mem_log.1 shown
  rcases shadow.standing with stood | ⟨empty, -⟩
  · exact shadow.closed _ stood _ before nonempty
  · exact absurd (List.suffix_nil.1 (empty ▸ before)) nonempty

theorem eq_of_id {commit other : Commit α} (member : commit ∈ shadow.created) (among : other ∈ shadow.created)
    (same : git.id commit = git.id other) : commit = other := by
  have named : git.revParse shadow.created shadow.head (git.id commit) = some commit := git.revParse_id member
  rw [same, git.revParse_id among] at named
  exact (Option.some.inj named).symm

theorem listed_iff : Listed git shadow ↔ ∀ commit ∈ shadow.created, commit <:+ shadow.head := by
  have ids : (list git shadow).map Checkpoint.id = (log shadow.head).map git.id := by
    simp [list, parseLogLine]
  rw [Listed, ids]
  constructor
  · intro all commit member
    obtain ⟨other, shown, same⟩ := List.mem_map.1 (all commit member)
    rw [← eq_of_id (log_created shown) member same]
    exact (mem_log.1 shown).1
  · intro all commit member
    refine List.mem_map_of_mem (mem_log.2 ⟨all commit member, ?_⟩)
    rintro rfl
    exact shadow.real member

theorem listed_commit (all : Listed git shadow) (made : Snapshot α) : Listed git (shadow.commit made) := by
  rw [listed_iff] at all ⊢
  intro commit member
  rcases List.mem_cons.1 member with rfl | old
  · exact List.suffix_rfl
  · exact (all commit old).trans (List.suffix_cons _ _)

theorem listed_reset_iff (all : Listed git shadow) {commit : Commit α} (member : commit ∈ shadow.created) :
    Listed git (shadow.reset commit member) ↔ commit = shadow.head := by
  rw [listed_iff] at all ⊢
  have before := all commit member
  constructor
  · intro still
    -- The newest commit is itself one of those made, so it has to come before the target.
    rcases shadow.standing with stood | ⟨-, empty⟩
    · exact before.eq_of_length_le (still _ stood).length_le
    · exact absurd member (by simp [empty])
  · rintro rfl
    exact all

/-- Only a restore can take a checkpoint off the list: one to another checkpoint than the newest. -/
def Kept (git : Git α κ) (shadow : Shadow α) : Op α κ → Prop
  | .restore id => ∀ commit, git.revParse shadow.created shadow.head id = some commit → commit = shadow.head
  | _ => True

theorem listed_step_iff (all : Listed git shadow) (op : Op α κ) :
    Listed git (step git shadow op) ↔ Kept git shadow op := by
  cases op with
  | change files => exact iff_of_true all trivial
  | snapshot label date =>
    refine iff_of_true ?_ trivial
    rw [step, snapshot]
    split
    · exact all
    · exact listed_commit all _
  | restore id =>
    rw [step, restore, Kept]
    split
    case h_1 unknown => simp [unknown, all]
    case h_2 commit found => simp [found, listed_reset_iff all]

theorem restore_id {commit : Commit α} (member : commit ∈ shadow.created) : (restore git (git.id commit) shadow).1 =
      .ok { id := git.id commit, filesRestored := git.changed shadow.files commit } := by
  rw [restore]
  split
  case h_1 unknown => simp [git.revParse_id member] at unknown
  case h_2 other found =>
    obtain rfl : commit = other := Option.some.inj ((git.revParse_id member).symm.trans found)
    rfl

/--
Every checkpoint stays listed exactly as long as no restore goes back behind the newest one.

What is listed can be restored by its id, and so can a checkpoint that fell off the list.
-/
theorem history_listed_iff (git : Git α κ) (files : α) (ops : List (Op α κ)) :
    ((∀ done rest, ops = done ++ rest → Listed git (done.foldl (step git) (.fresh files))) ↔
      ∀ done op rest, ops = done ++ op :: rest → Kept git (done.foldl (step git) (.fresh files)) op) ∧
    (∀ listed ∈ list git (ops.foldl (step git) (.fresh files)),
      ∃ commit ∈ (ops.foldl (step git) (.fresh files)).created, listed.id = git.id commit) ∧
    ∀ commit ∈ (ops.foldl (step git) (.fresh files)).created,
      ∃ outcome, (restore git (git.id commit) (ops.foldl (step git) (.fresh files))).1 = .ok outcome := by
  refine ⟨?_, ?_, fun commit member => ⟨_, restore_id member⟩⟩
  · refine Run.throughout_iff_guarded (step git) (fun _ => True) (Listed git) (Kept git) (fun _ _ _ => trivial)
      (fun shadow op _ all => listed_step_iff all op) trivial ?_ ops
    exact fun commit member => absurd member List.not_mem_nil
  · intro listed member
    obtain ⟨commit, shown, rfl⟩ := List.mem_map.1 member
    exact ⟨commit, log_created shown, rfl⟩

def plainGit : Git String (Commit String) where
  id := id
  shown _ := ""
  revParse created _ commit := if commit ∈ created then some commit else none
  revParse_mem named := by split at named <;> simp_all
  revParse_id member := by simp [member]
  refusal message := if message.isEmpty then some "Aborting commit due to empty commit message." else none
  subject := id
  changed files commit := some (if commit.head?.map Snapshot.files = some files then 0 else 1)

def wentBack : Shadow String :=
  [.snapshot (some "one") "d", .change "b", .snapshot (some "two") "e", .restore [⟨"a", "one", "d"⟩]].foldl
    (step plainGit) (.fresh "a")

theorem restore_unlists_newer : wentBack.created = [[⟨"b", "two", "e"⟩, ⟨"a", "one", "d"⟩], [⟨"a", "one", "d"⟩]] ∧
      list plainGit wentBack = [⟨[⟨"a", "one", "d"⟩], some "one", some "d"⟩] := by
  decide +kernel

end Codel00p.Checkpoints
