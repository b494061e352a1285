import Codel00p.Harness.PatchTarget

/-! A batch of changes is all or nothing, and writes what the changes write one at a time. -/

namespace Codel00p

open Program (exec Moves exec_bind exec_bind_eq_ok exec_ofExcept exec_pure exec_attempt)

theorem exec_ofFs {α : Type} (operation : FsM α) (disk : Disk) : exec (ofFs operation) disk =
      ((exec operation disk).1.mapError .failed, (exec operation disk).2) := by
  simp [ofFs, exec_bind, exec_attempt, exec_ofExcept]

theorem isOk_eq_true {ε α : Type} {outcome : Except ε α} : outcome.isOk = true ↔ ∃ value, outcome = .ok value := by
  cases outcome <;> simp [Except.isOk, Except.toBool]

namespace ApplyPatch

variable (printable : Char → Bool) (volume : Volume) (workspace : Workspace)

/-! ### Staging -/

/-- The contents of a file that a change finds. -/
def currentAt (staged : Option (String × String)) (path : String) (disk : Disk) : Except ToolStop String :=
  match staged with
  | some (_, existing) => .ok existing
  | none => (exec (workspace.readUtf8 path) disk).1.mapError .failed

/-- What a change comes to, with the contents that were staged before it at hand. -/
def prepared (staged : List (Location × String × String)) (change : NormalizedChange) (disk : Disk) :
    Except ToolStop (Location × Patch.ChangeOutcome) :=
  match existingFileKey workspace name change.path disk.files with
  | .error error => .error (.failed error)
  | .ok key =>
    match currentAt workspace (staged.lookup key) change.path disk with
    | .error stop => .error stop
    | .ok current => (outcomeOf printable change current).map fun outcome => (key, outcome)

theorem readUtf8_moves (path : String) : Moves Eq (workspace.readUtf8 path) :=
  .bind (.bind (.ofExcept _) fun _ => .bind (query_moves _) fun _ => ofIo_moves (Disk.read_moves _))
    fun _ => .ofExcept _

theorem exec_currentContents (path : String) (staged : Option (String × String)) (disk : Disk) :
    exec (currentContents workspace path staged) disk = (currentAt workspace staged path disk, disk) := by
  cases staged with
  | none =>
    have still := readUtf8_moves workspace path disk
    rw [currentContents, exec_ofFs, ← still, currentAt]
  | some value => rfl

theorem exec_stageChange (staging : Staging) (change : NormalizedChange) (disk : Disk) :
    exec (stageChange printable workspace staging change) disk =
      ((prepared printable workspace staging.contents change disk).map
        fun (key, outcome) => staging.add change.path key outcome, disk) := by
  simp only [stageChange, prepared, exec_bind, exec_ofFs, exec_query]
  rcases existingFileKey workspace name change.path disk.files with error | key
  · rfl
  · simp only [Except.mapError, exec_currentContents]
    rcases currentAt workspace (staging.contents.lookup key) change.path disk with stop | current
    · rfl
    · simp only [exec_ofExcept]
      rcases outcomeOf printable change current with stop | outcome <;> rfl

theorem stageChanges_moves (changes : List NormalizedChange) (staging : Staging) :
    Moves Eq (stageChanges printable workspace changes staging) := by
  induction changes generalizing staging with
  | nil => exact .pure _
  | cons change changes ih =>
    refine .bind (fun disk => ?_) ih
    rw [exec_stageChange]

def bytes (staged : String × String) : ByteArray := staged.2.toUTF8

structure Staged (changes : List NormalizedChange) (files : Files)
    (contents : List (Location × String × String)) : Prop where
  sorted : Assoc.Sorted contents
  keyed : ∀ entry ∈ contents, existingFileKey workspace name entry.2.1 files = .ok entry.1
  given : ∀ entry ∈ contents, ∃ change ∈ changes, change.path = entry.2.1

def OneName (changes : List NormalizedChange) (files : Files) : Prop :=
  ∀ change ∈ changes, ∀ other ∈ changes, ∀ key place,
    existingFileKey workspace name change.path files = .ok key →
    existingFileKey workspace name other.path files = .ok place →
    volume.linked key place = true → place = key

variable {printable volume workspace}

variable {change : NormalizedChange} {disk base reached : Disk} {key : Location}
  {changes : List NormalizedChange} {staging : Staging} {contents : List (Location × String × String)}

theorem prepared_eq_ok {staged : List (Location × String × String)} {outcome : Patch.ChangeOutcome}
    (comes : prepared printable workspace staged change disk = .ok (key, outcome)) :
    existingFileKey workspace name change.path disk.files = .ok key := by
  unfold prepared at comes
  split at comes
  · exact nomatch comes
  · next place found =>
    split at comes
    · exact nomatch comes
    · next current _ =>
      generalize outcomeOf printable change current = outcome at comes
      cases outcome with
      | error stop => exact nomatch comes
      | ok result =>
        cases comes
        exact found

theorem Staged.add {files : Files} (staged : Staged workspace changes files staging.contents)
    (member : change ∈ changes)
    (found : existingFileKey workspace name change.path files = .ok key) (outcome : Patch.ChangeOutcome) :
    Staged workspace changes files (staging.add change.path key outcome).contents where
  sorted := staged.sorted.insert _ _
  keyed entry inside := by
    rcases Assoc.mem_insert inside with rfl | old
    · exact found
    · exact staged.keyed entry old
  given entry inside := by
    rcases Assoc.mem_insert inside with rfl | old
    · exact ⟨change, member, rfl⟩
    · exact staged.given entry old

theorem OneName.apart {files : Files} (oneName : OneName volume workspace changes files)
    (staged : Staged workspace changes files contents) (member : change ∈ changes)
    (found : existingFileKey workspace name change.path files = .ok key) :
    ∀ entry ∈ contents, volume.linked key entry.1 = true → entry.1 = key := by
  intro entry inside linked
  obtain ⟨other, among, path⟩ := staged.given entry inside
  exact oneName change member other among key entry.1 found (path ▸ staged.keyed entry inside) linked

theorem prepared_writeAll (oneName : OneName volume workspace changes base.files)
    (staged : Staged workspace changes base.files contents)
    (member : change ∈ changes) (written : disk.files = base.files.writeAll volume bytes contents) :
    prepared printable workspace [] change disk = prepared printable workspace contents change base := by
  have rewrites : base.files.Rewrites disk.files := written ▸ base.files.writeAll_rewrites bytes contents
  have sameKey := rewrites.existingFileKey workspace name change.path
  simp only [prepared, sameKey]
  cases found : existingFileKey workspace name change.path base.files with
  | error error => rfl
  | ok key =>
    have keyed := existingFileKey_eq_ok found
    have stillKeyed := existingFileKey_eq_ok (sameKey.trans found)
    obtain ⟨old, entry⟩ := base.files.lookup_holds keyed.there
    -- The file has what was staged for it, or what it had.
    have now := base.files.node_writeAll bytes staged.sorted (oneName.apart staged member found)
    rw [← written, entry] at now
    have same : currentAt workspace none change.path disk =
        currentAt workspace (contents.lookup key) change.path base := by
      cases looked : contents.lookup key with
      | none =>
        rw [looked] at now
        rw [currentAt, currentAt, keyed.exec_readUtf8 entry, stillKeyed.exec_readUtf8 now]
      | some value =>
        rw [looked] at now
        rw [currentAt, currentAt, stillKeyed.exec_readUtf8 now, bytes, Utf8.readText_toUTF8]
        rfl
    simp [same]

/-! ### Writing -/

theorem exec_writeStaged_eq_ok (rewrites : base.files.Rewrites disk.files)
    (keyed : ∀ entry ∈ contents, existingFileKey workspace name entry.2.1 base.files = .ok entry.1)
    (ran : exec (writeStaged volume workspace contents) disk = (.ok (), reached)) :
    (∀ entry ∈ contents, volume.refusal entry.1 = none) ∧
      reached.files = disk.files.writeAll volume bytes contents := by
  induction contents generalizing disk with
  | nil =>
    cases ran
    exact ⟨fun _ member => (nomatch member), rfl⟩
  | cons entry contents ih =>
    obtain ⟨_, between, wrote, ran⟩ := exec_bind_eq_ok.1 ran
    -- The path of the first one still leads to its file.
    have found := (rewrites.existingFileKey workspace name entry.2.1).trans (keyed entry List.mem_cons_self)
    rw [exec_ofFs, (existingFileKey_eq_ok found).exec_writeThrough volume entry.2.2.toUTF8] at wrote
    cases free : volume.refusal entry.1 with
    | some error =>
      rw [free] at wrote
      exact nomatch wrote
    | none =>
      rw [free] at wrote
      cases wrote
      have once : disk.files.Rewrites (disk.files.writeThrough volume entry.1 entry.2.2.toUTF8) :=
        disk.files.writeThrough_rewrites entry.1 entry.2.2.toUTF8
      obtain ⟨writable, reaches⟩ := ih (IsTrans.trans _ _ _ rewrites once)
        (fun other member => keyed other (List.mem_cons_of_mem _ member)) ran
      exact ⟨List.forall_mem_cons.2 ⟨free, writable⟩, reaches⟩

variable (printable volume workspace)

/-- Apply changes one at a time, each by a call of its own. -/
def applyOneByOne (changes : List NormalizedChange) : PatchM Unit :=
  changes.forM fun change => do
    let _ ← applyChanges printable volume workspace [change]

theorem exec_applyChanges_single (change : NormalizedChange) (disk : Disk) :
    exec (do let _ ← applyChanges printable volume workspace [change]) disk =
      match prepared printable workspace [] change disk with
      | .error stop => (.error stop, disk)
      | .ok (key, outcome) =>
        match volume.refusal key with
        | some error => (.error (.failed (.io error)), disk)
        | none => (.ok (), disk.written volume key (String.ofList outcome.patched).toUTF8) := by
  simp only [applyChanges, stageChanges, exec_bind, exec_stageChange]
  cases comes : prepared printable workspace [] change disk with
  | error stop => rfl
  | ok result =>
    obtain ⟨key, outcome⟩ := result
    have keyed := existingFileKey_eq_ok (prepared_eq_ok comes)
    have wrote : exec (writeStaged volume workspace (Staging.add {} change.path key outcome).contents)
        disk = ((exec (workspace.writeThrough volume change.path
          (String.ofList outcome.patched).toUTF8) disk).1.mapError .failed,
          (exec (workspace.writeThrough volume change.path
            (String.ofList outcome.patched).toUTF8) disk).2) := by
      rw [← exec_ofFs]
      exact congrArg (exec · disk) (bind_pure _)
    simp only [Except.map, exec_pure, wrote, keyed.exec_writeThrough]
    cases volume.refusal key <;> rfl

/-! ### Runs -/

variable {printable volume workspace}

theorem exec_stageChanges_cons (change : NormalizedChange) (changes : List NormalizedChange)
    (staging : Staging) (disk : Disk) :
    exec (stageChanges printable workspace (change :: changes) staging) disk =
      match prepared printable workspace staging.contents change disk with
      | .error stop => (.error stop, disk)
      | .ok (key, outcome) =>
        exec (stageChanges printable workspace changes (staging.add change.path key outcome)) disk := by
  rw [stageChanges, exec_bind, exec_stageChange]
  rcases prepared printable workspace staging.contents change disk with stop | result <;> rfl

theorem exec_applyOneByOne_cons (change : NormalizedChange) (changes : List NormalizedChange) (disk : Disk) :
    exec (applyOneByOne printable volume workspace (change :: changes)) disk =
      match prepared printable workspace [] change disk with
      | .error stop => (.error stop, disk)
      | .ok (key, outcome) =>
        match volume.refusal key with
        | some error => (.error (.failed (.io error)), disk)
        | none => exec (applyOneByOne printable volume workspace changes)
          (disk.written volume key (String.ofList outcome.patched).toUTF8) := by
  refine (exec_bind _ _ _).trans ?_
  rw [exec_applyChanges_single]
  rcases prepared printable workspace [] change disk with stop | ⟨key, outcome⟩
  · rfl
  · dsimp only
    cases volume.refusal key <;> rfl

variable (printable volume workspace) in
/--
Changes one at a time keep up with changes in memory.

They write what was staged, unless a file refuses; and they stop where staging stops.
-/
def KeepsUp (all changes : List NormalizedChange) (staging : Staging) (base disk : Disk) : Prop :=
  match exec (stageChanges printable workspace changes staging) base with
  | (.ok final, _) => Staged workspace all base.files final.contents ∧
    (∀ key, (staging.contents.lookup key).isSome → (final.contents.lookup key).isSome) ∧
    ((∀ key, (final.contents.lookup key).isSome → volume.refusal key = none) →
      ∃ last, exec (applyOneByOne printable volume workspace changes) disk = (.ok (), last) ∧
        last.files = base.files.writeAll volume bytes final.contents)
  | (.error stop, _) => (∀ key, volume.refusal key = none) →
    ∃ last, exec (applyOneByOne printable volume workspace changes) disk = (.error stop, last)

/--
Changes one at a time keep up on a disk that what was staged so far has been written to.

The next change then comes to the same on both sides, and keeps it so.
-/
theorem keepsUp_of_written {all : List NormalizedChange} (oneName : OneName volume workspace all base.files)
    (staged : Staged workspace all base.files staging.contents) (among : ∀ change ∈ changes, change ∈ all)
    (written : disk.files = base.files.writeAll volume bytes staging.contents) :
    KeepsUp printable volume workspace all changes staging base disk := by
  induction changes generalizing staging disk with
  | nil => exact ⟨staged, fun _ there => there, fun _ => ⟨disk, rfl, written⟩⟩
  | cons change changes ih =>
    have member := among change List.mem_cons_self
    have same : prepared printable workspace [] change disk =
        prepared printable workspace staging.contents change base :=
      prepared_writeAll oneName staged member written
    unfold KeepsUp
    rw [exec_stageChanges_cons, exec_applyOneByOne_cons, same]
    cases comes : prepared printable workspace staging.contents change base with
    | error stop => exact fun _ => ⟨disk, rfl⟩
    | ok result =>
      obtain ⟨key, outcome⟩ := result
      have found := prepared_eq_ok comes
      have next : (disk.written volume key (String.ofList outcome.patched).toUTF8).files =
          base.files.writeAll volume bytes (staging.add change.path key outcome).contents := by
        have inserted := base.files.writeAll_insert bytes staged.sorted
          (oneName.apart staged member found) (change.path, String.ofList outcome.patched)
        rw [← written] at inserted
        exact inserted.symm
      have goesOn := ih (staged.add member found outcome)
        (fun other later => among other (List.mem_cons_of_mem _ later)) next
      unfold KeepsUp at goesOn
      dsimp only
      cases ran : exec (stageChanges printable workspace changes
        (staging.add change.path key outcome)) base with
      | mk ended reached =>
        rw [ran] at goesOn
        cases ended with
        | error stop =>
          intro writable
          rw [writable key]
          exact goesOn writable
        | ok final =>
          obtain ⟨all, keeps, goesOn⟩ := goesOn
          have there := fun other => (keeps other).comp (Assoc.isSome_lookup_insert _ _ _ _).2
          refine ⟨all, fun other inside => there other (.inl inside), fun writable => ?_⟩
          -- The file of the first change is among those that are written in the end.
          rw [writable key (there key (.inr rfl))]
          exact goesOn writable

theorem keepsUp_start (oneName : OneName volume workspace changes disk.files) :
    KeepsUp printable volume workspace changes changes {} disk disk :=
  keepsUp_of_written oneName ⟨.nil, fun _ member => (nomatch member), fun _ member => (nomatch member)⟩
    (fun _ member => member) rfl

theorem exec_applyChanges_error {unchanged : Disk} {stop : ToolStop}
    (ran : exec (stageChanges printable workspace changes {}) disk = (.error stop, unchanged)) :
    exec (applyChanges printable volume workspace changes) disk = (.error stop, disk) := by
  have still := stageChanges_moves printable workspace changes {} disk
  rw [ran] at still
  rw [applyChanges, exec_bind, ran, still]

theorem exec_applyChanges_eq_ok {result : ToolResult} (oneName : OneName volume workspace changes disk.files)
    (ran : exec (applyChanges printable volume workspace changes) disk = (.ok result, reached)) :
    ∃ last, exec (applyOneByOne printable volume workspace changes) disk = (.ok (), last) ∧
      last.files = reached.files := by
  obtain ⟨final, between, ranStaging, goesOn⟩ := exec_bind_eq_ok.1 ran
  have still := stageChanges_moves printable workspace changes {} disk
  rw [ranStaging] at still
  have same : between = disk := still.symm
  subst same
  obtain ⟨_, after, wrote, ended⟩ := exec_bind_eq_ok.1 goesOn
  have ends : after = reached := (Prod.ext_iff.1 ended).2
  subst ends
  have keepsUp : KeepsUp printable volume workspace changes changes {} between between := keepsUp_start oneName
  rw [KeepsUp, ranStaging] at keepsUp
  obtain ⟨staged, -, keepsUp⟩ := keepsUp
  obtain ⟨writable, written⟩ := exec_writeStaged_eq_ok (fun _ => .inl rfl) staged.keyed wrote
  rw [written]
  refine keepsUp fun key there => ?_
  obtain ⟨entry, member, same⟩ := List.lookup_isSome_iff.1 there
  rw [beq_iff_eq.1 same]
  exact writable entry member

/--
A call whose changes do not all apply modifies no file.

A call that succeeds, with no two of its paths different names of one file, leaves the files the
way the changes leave them one at a time; and where no file refuses to be written, changes that
cannot be made one at a time are not made at all.
-/
theorem patch_batch_atomic (printable : Char → Bool) (volume : Volume) (workspace : Workspace) (input : Json)
    (disk : Disk) : (∀ error, normalizeChanges name input = .error error →
      exec (execute printable volume workspace input) disk = (.error (.failed error), disk)) ∧
    ∀ changes, normalizeChanges name input = .ok changes → (∀ stop unchanged,
        exec (stageChanges printable workspace changes {}) disk = (.error stop, unchanged) →
        exec (execute printable volume workspace input) disk = (.error stop, disk)) ∧
      (OneName volume workspace changes disk.files → (∀ result reached,
          exec (execute printable volume workspace input) disk = (.ok result, reached) →
          ∃ last, exec (applyOneByOne printable volume workspace changes) disk = (.ok (), last) ∧
            last.files = reached.files) ∧ (∀ stop last, (∀ key, volume.refusal key = none) →
          exec (applyOneByOne printable volume workspace changes) disk = (.error stop, last) →
          exec (execute printable volume workspace input) disk = (.error stop, disk))) := by
  have runs : ∀ {changes}, normalizeChanges name input = .ok changes →
      exec (execute printable volume workspace input) disk =
        exec (applyChanges printable volume workspace changes) disk := by
    intro changes normalized
    rw [execute, exec_bind, exec_ofExcept, normalized]
    rfl
  refine ⟨fun error failed => ?_, fun changes normalized => ⟨fun stop unchanged ran => ?_,
    fun oneName => ⟨fun result reached ran => ?_, fun stop last writable ran => ?_⟩⟩⟩
  · rw [execute, exec_bind, exec_ofExcept, failed]
    rfl
  · rw [runs normalized]
    exact exec_applyChanges_error ran
  · rw [runs normalized] at ran
    exact exec_applyChanges_eq_ok oneName ran
  · rw [runs normalized]
    have keepsUp : KeepsUp printable volume workspace changes changes {} disk disk := keepsUp_start oneName
    unfold KeepsUp at keepsUp
    cases staged : exec (stageChanges printable workspace changes {}) disk with
    | mk ended unchanged =>
      rw [staged] at keepsUp
      cases ended with
      | ok final =>
        obtain ⟨_, wrong, _⟩ := keepsUp.2.2 fun key _ => writable key
        exact nomatch ran.symm.trans wrong
      | error early =>
        obtain ⟨_, stops⟩ := keepsUp writable
        cases ran.symm.trans stops
        exact exec_applyChanges_error staged

theorem oneName_plain (workspace : Workspace) (changes : List NormalizedChange) (files : Files) :
    OneName .plain workspace changes files := by
  intro _ _ _ _ key place _ _ linked
  have same : key = place := by simpa [Volume.plain, Volume.named] using linked
  exact same.symm

/-- A workspace with a file, and the same text under a second name. -/
def desk : Disk :=
  let furnish : DiskM Unit := do
    Disk.put ["work"] (some .directory)
    Disk.put ["work", "draft"] (some (.file "one two".toUTF8))
    Disk.put ["work", "final"] (some (.file "one two".toUTF8))
  { files := (exec furnish { files := bareFiles }).2.files }

def twoWords (first second : String) : Json :=
  .obj [("changes", .array [
    .obj [("path", .string first), ("find", .string "one"), ("replace", .string "1")],
    .obj [("path", .string second), ("find", .string "two"), ("replace", .string "2")]])]

def twoWordChanges (first second : String) : List NormalizedChange :=
  [⟨first, "one", "1", false⟩, ⟨second, "two", "2", false⟩]

/-- Two changes to one file under two spellings of its path are made like one after the other. -/
theorem spellings_compose : ∃ last, exec (applyOneByOne (fun _ => true) .plain officeWorkspace
        (twoWordChanges "draft" "./draft")) desk = (.ok (), last) ∧
      last.files = (exec (execute (fun _ => true) .plain officeWorkspace
        (twoWords "draft" "./draft")) desk).2.files := by
  have fine : (exec (execute (fun _ => true) .plain officeWorkspace
      (twoWords "draft" "./draft")) desk).1.isOk = true := by decide +kernel
  obtain ⟨result, ended⟩ := isOk_eq_true.1 fine
  have batch := patch_batch_atomic (fun _ => true) .plain officeWorkspace (twoWords "draft" "./draft") desk
  exact (((batch.2 (twoWordChanges "draft" "./draft") (by decide +kernel)).2 (oneName_plain _ _ _)).1
    result _ (Prod.ext ended rfl))

/-- A volume on which the two names of the desk are one file. -/
def secondName : Volume := .named fun location => if location = ["work", "final"] then ["work", "draft"] else location

/-- Two changes to one file under two names of it, of which the batch loses the first. -/
theorem second_name_loses_change : secondName.Holds desk.files ∧
    normalizeChanges name (twoWords "draft" "final") = .ok (twoWordChanges "draft" "final") ∧
    (exec (execute (fun _ => true) secondName officeWorkspace (twoWords "draft" "final"))
      desk).1.isOk = true ∧ (exec (execute (fun _ => true) secondName officeWorkspace (twoWords "draft" "final"))
      desk).2.files.node ["work", "draft"] = some (.file "one 2".toUTF8) ∧
    (exec (applyOneByOne (fun _ => true) secondName officeWorkspace (twoWordChanges "draft" "final"))
      desk).1 = .ok () ∧
    (exec (applyOneByOne (fun _ => true) secondName officeWorkspace (twoWordChanges "draft" "final"))
      desk).2.files.node ["work", "draft"] = some (.file "1 2".toUTF8) := by
  refine ⟨Volume.named_holds fun location => ?_, by decide +kernel, by decide +kernel, by decide +kernel,
    by decide +kernel, by decide +kernel⟩
  by_cases second : location = ["work", "final"]
  · subst second
    decide +kernel
  · rw [if_neg second]

end ApplyPatch

end Codel00p
