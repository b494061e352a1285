import Codel00p.Lib.Files
import Codel00p.Lib.Program

/-! Operations on a file system, with a record of every entry they create, change, or remove. -/

namespace Codel00p

open Program (exec Moves exec_bind exec_bind_eq_ok exec_reads exec_throw exec_pure exec_change exec_attempt)

structure Disk where
  files : Files
  touched : List Location := []

abbrev DiskM := Program IoError Disk

namespace Disk

def put (location : Location) (entry : Option Node) : DiskM Unit := do
  let disk ← Program.reads id
  if settable : disk.files.Settable location entry then
    Program.change fun disk' =>
      { files := disk.files.set location entry settable, touched := disk'.touched ++ [location] }
  else throw .notFound

/-- Make a directory under a name that is not taken; a link at that name is not followed. -/
def mkdir (path : List String) : DiskM Unit := do
  let files ← Program.reads Disk.files
  match path.getLast? with
  | none => throw .alreadyExists
  | some name =>
    match files.lookup path.dropLast with
    | .error error => throw error
    | .ok (.missing _ _) => throw .notFound
    | .ok (.file _) => throw .notADirectory
    | .ok (.directory parent) =>
      if (files.node (parent ++ [name])).isSome then throw .alreadyExists
      else put (parent ++ [name]) (some .directory)

/-- Get over an error if there is a directory anyway. -/
def findOr (path : List String) (error : IoError) : DiskM Unit := do
  if ← Program.reads (·.files.isDirectory path) then pure () else throw error

/-- Make a directory, or find that it is there. -/
def mkdirOrFind (path : List String) : DiskM Unit := do
  match ← Program.attempt (mkdir path) with
  | .ok _ => pure ()
  | .error error => findOr path error

/-- Make a directory and what is missing above it; the names are given from the last one up. -/
def createDirAll : List String → DiskM Unit
  | [] => pure ()
  | name :: up => do
    match ← Program.attempt (mkdir (name :: up).reverse) with
    | .ok _ => pure ()
    | .error .notFound =>
      createDirAll up
      mkdirOrFind (name :: up).reverse
    | .error error => findOr (name :: up).reverse error

/--
Make the directory of a path and what is missing above it.

A last dot is not made: it is only there in a directory that is there already,
and without one the directories above are made before the call fails.
-/
def createDirAllAt (path : Path) : DiskM Unit :=
  match path.ending with
  | .name | .slash => createDirAll path.names.reverse
  | .dot => do
    match ← Program.reads (·.files.lookup path.names) with
    | .ok (.directory _) => pure ()
    | .ok (.file _) => throw .notADirectory
    | .ok (.missing _ _) | .error .notFound =>
      createDirAll path.names.dropLast.reverse
      throw .notFound
    | .error error => throw error

/-- Create or truncate a file and write to it; a link is followed also where it leads to nothing. -/
def write (path : List String) (contents : ByteArray) : DiskM Unit := do
  match ← Program.reads (·.files.lookup path) with
  | .error error => throw error
  | .ok (.directory _) => throw .isADirectory
  | .ok (.file location) => put location (some (.file contents))
  | .ok (.missing parent name) => put (parent ++ [name]) (some (.file contents))

def read (location : Location) : DiskM ByteArray := do
  match ← Program.reads (·.files.node location) with
  | some (.file contents) => return contents
  | some .directory => throw .isADirectory
  | _ => throw .notFound

def removeFile (location : Location) : DiskM Unit := do
  match ← Program.reads (·.files.node location) with
  | some (.file _) => put location none
  | some .directory => throw .isADirectory
  | _ => throw .notFound

/-- What an operation may do: touch some places, and leave every other place as it is. -/
def Recorded (disk reached : Disk) : Prop :=
  ∃ more, reached.touched = disk.touched ++ more ∧
    ∀ location, location ∉ more → reached.files.node location = disk.files.node location

instance : Std.Refl Recorded where
  refl _ := ⟨[], by simp, fun _ _ => rfl⟩

instance : IsTrans Disk Recorded where
  trans := by
    rintro disk between reached ⟨first, led, kept⟩ ⟨second, goes, keeps⟩
    refine ⟨first ++ second, by rw [goes, led, List.append_assoc], fun location untouched => ?_⟩
    rw [List.mem_append, not_or] at untouched
    rw [keeps location untouched.2, kept location untouched.1]

def after (disk : Disk) (location : Location) (entry : Option Node)
    (settable : disk.files.Settable location entry) : Disk :=
  { files := disk.files.set location entry settable, touched := disk.touched ++ [location] }

variable {disk reached : Disk} {location parent : Location} {entry : Option Node} {name : String}
  {path up : List String}

theorem exec_put (settable : disk.files.Settable location entry) :
    exec (put location entry) disk = (.ok (), disk.after location entry settable) := by
  simp only [put, exec_bind, exec_reads, id_eq, dif_pos settable, exec_change]
  rfl

theorem exec_put_refused (refused : ¬disk.files.Settable location entry) :
    exec (put location entry) disk = (.error .notFound, disk) := by
  simp [put, exec_bind, exec_reads, id_eq, dif_neg refused, exec_throw]

theorem put_recorded (location : Location) (entry : Option Node) : Moves Recorded (put location entry) := by
  intro disk
  by_cases settable : disk.files.Settable location entry
  · rw [exec_put settable]
    refine ⟨[location], rfl, fun other untouched => ?_⟩
    have different : other ≠ location := by simpa using untouched
    exact if_neg different
  · rw [exec_put_refused settable]
    exact Std.Refl.refl disk

theorem mkdir_recorded (path : List String) : Moves Recorded (mkdir path) := by
  refine .bind (.reads _) fun files => ?_
  split
  · exact .throw _
  · split
    iterate 3 · exact .throw _
    · exact .ite (.throw _) (put_recorded _ _)

section

variable {relation : Disk → Disk → Prop} [Std.Refl relation] [IsTrans Disk relation]

theorem findOr_moves (path : List String) (error : IoError) : Moves relation (findOr path error) :=
  .bind (.reads _) fun _ => .ite (.pure _) (.throw _)

theorem mkdirOrFind_moves (moves : ∀ path, Moves relation (mkdir path)) (path : List String) :
    Moves relation (mkdirOrFind path) := by
  refine .bind (.attempt (moves path)) fun outcome => ?_
  cases outcome with
  | ok done => exact .pure _
  | error error => exact findOr_moves path error

theorem createDirAll_moves (moves : ∀ path, Moves relation (mkdir path)) (path : List String) :
    Moves relation (createDirAll path) := by
  induction path with
  | nil => exact .pure _
  | cons name up ih =>
    refine .bind (.attempt (moves _)) fun outcome => ?_
    split
    · exact .pure _
    · exact .bind ih fun _ => mkdirOrFind_moves moves _
    · exact findOr_moves _ _

end

theorem createDirAll_recorded (path : List String) : Moves Recorded (createDirAll path) :=
  createDirAll_moves mkdir_recorded path

theorem write_recorded (path : List String) (contents : ByteArray) : Moves Recorded (write path contents) := by
  refine .bind (.reads _) fun found => ?_
  split
  · exact .throw _
  · exact .throw _
  · exact put_recorded _ _
  · exact put_recorded _ _

theorem read_moves {relation : Disk → Disk → Prop} [Std.Refl relation] [IsTrans Disk relation]
    (location : Location) : Moves relation (read location) := by
  refine .bind (.reads _) fun entry => ?_
  split
  · exact .pure _
  · exact .throw _
  · exact .throw _

theorem removeFile_recorded (location : Location) : Moves Recorded (removeFile location) := by
  refine .bind (.reads _) fun entry => ?_
  split
  · exact put_recorded _ _
  · exact .throw _
  · exact .throw _

theorem settable_of_absent {files : Files}
    (inside : files.node parent = some .directory) (absent : files.node (parent ++ [name]) = none)
    (entry : Option Node) : files.Settable (parent ++ [name]) entry :=
  ⟨by simp, by rw [List.dropLast_concat]; exact inside, .inr (by simp [absent])⟩

theorem extends_after (settable : disk.files.Settable location entry) (absent : disk.files.node location = none) :
    disk.files.Extends (disk.after location entry settable).files := by
  intro other old present
  have different : other ≠ location := by
    rintro rfl
    rw [absent] at present
    exact nomatch present
  exact (if_neg different).trans present

theorem exec_mkdir (disk : Disk) (up : List String) (name : String) :
    exec (mkdir (up ++ [name])) disk =
      match disk.files.lookup up with
      | .error error => (.error error, disk)
      | .ok (.missing _ _) => (.error .notFound, disk)
      | .ok (.file _) => (.error .notADirectory, disk)
      | .ok (.directory parent) =>
        if (disk.files.node (parent ++ [name])).isSome then (.error .alreadyExists, disk)
        else exec (put (parent ++ [name]) (some .directory)) disk := by
  simp only [mkdir, exec_bind, exec_reads, List.getLast?_append, List.getLast?_singleton,
    Option.some_or, List.dropLast_concat]
  split
  iterate 3 · simp
  · split <;> rfl

/-- A directory that was made, and what had to be made for it. -/
structure Made (disk : Disk) (path : List String) (reached : Disk) (location : Location) : Prop where
  /-- The path leads to the directory now. -/
  there : reached.files.lookup path.reverse = .ok (.directory location)
  /-- The directory is below the nearest entry there was. -/
  below : disk.files.nearest path <+: location
  /-- So is all that was made. -/
  bounded : ∃ more, reached.touched = disk.touched ++ more ∧ ∀ place ∈ more, disk.files.nearest path <+: place
  /-- A directory that was there is the way it was. -/
  kept : disk.files.isDirectory path.reverse = true → reached = disk
  /-- A directory that was not there is empty. -/
  fresh : disk.files.isDirectory path.reverse = false → ∀ name, reached.files.node (location ++ [name]) = none
  /-- Where there was no directory, there was nothing at all. -/
  absent : disk.files.isDirectory path.reverse = false → disk.files.pathExists path.reverse = false
  /-- Its name was not even taken by a link. -/
  free : disk.files.isDirectory path.reverse = false → ∀ up name parent, path = name :: up →
    disk.files.lookup up.reverse = .ok (.directory parent) → disk.files.node (parent ++ [name]) = none

theorem Made.of_directory (there : disk.files.lookup path.reverse = .ok (.directory location)) :
    Made disk path disk location where
  there := there
  below := Files.nearest_of_directory there ▸ List.prefix_rfl
  bounded := ⟨[], by simp, by simp⟩
  kept _ := rfl
  fresh elsewhere := by simp [Files.isDirectory, there] at elsewhere
  absent elsewhere := by simp [Files.isDirectory, there] at elsewhere
  free elsewhere := by simp [Files.isDirectory, there] at elsewhere

/-- Making a directory in one that lacks it extends what has been made. -/
theorem Made.snoc {between : Disk} (made : Made disk up between parent) (notDot : name ≠ ".") (notDots : name ≠ "..")
    (absent : between.files.node (parent ++ [name]) = none)
    (missing : disk.files.pathExists (name :: up).reverse = false)
    (settable : between.files.Settable (parent ++ [name]) (some .directory)) :
    Made disk (name :: up) (between.after (parent ++ [name]) (some .directory) settable) (parent ++ [name]) := by
  have nearest := Files.nearest_of_absent missing
  have extended := extends_after settable absent
  have entry : (between.after (parent ++ [name]) (some .directory) settable).files.node
      (parent ++ [name]) = some .directory := if_pos rfl
  refine ⟨?_, ?_, ?_, ?_, ?_, fun _ => missing, ?_⟩
  · -- The directory above is found as before, and the new one is in it.
    have above := (Files.resolve_eq_ok _).2 (((Files.resolve_eq_ok _).1 made.there).extended extended)
    rw [List.reverse_cons, Files.lookup_snoc _ above notDot notDots (by simp [entry]), entry]
  · rw [nearest]
    exact made.below.trans (List.prefix_append _ _)
  · obtain ⟨more, touched, bounded⟩ := made.bounded
    refine ⟨more ++ [parent ++ [name]], by simp [after, touched], fun place member => ?_⟩
    rw [nearest]
    rcases List.mem_append.1 member with old | new
    · exact bounded place old
    · cases List.mem_singleton.1 new
      exact made.below.trans (List.prefix_append _ _)
  · intro found
    rw [Files.pathExists_of_isDirectory found] at missing
    exact nomatch missing
  · intro _ child
    have different : parent ++ [name] ++ [child] ≠ parent ++ [name] := by simp
    exact (if_neg different).trans (Files.node_below_absent absent child)
  · -- A directory above that was there is the one the name was looked up in.
    rintro _ _ _ above ⟨rfl, rfl⟩ there
    have same := made.kept (by simp [Files.isDirectory, there])
    have led := made.there
    rw [same, there] at led
    cases led
    exact same ▸ absent

theorem mkdirOrFind_makes {between : Disk}
    (made : Made disk up between parent) (notDot : name ≠ ".") (notDots : name ≠ "..")
    (stuck : ∀ location, disk.files.lookup up.reverse ≠ .ok (.directory location))
    (ran : exec (mkdirOrFind (up.reverse ++ [name])) between = (.ok (), reached)) :
    Made disk (name :: up) reached (parent ++ [name]) := by
  have nowhere : disk.files.isDirectory up.reverse = false := by
    unfold Files.isDirectory
    split
    · next location there => exact absurd there (stuck location)
    · rfl
  have absent := made.fresh nowhere name
  have settable := settable_of_absent (between.files.lookup_holds made.there) absent (some .directory)
  -- The attempt succeeds, so nothing has to be found.
  simp only [mkdirOrFind, exec_bind, exec_attempt, exec_mkdir, made.there, absent,
    Option.isSome_none, Bool.false_eq_true, if_false, exec_put settable, exec_pure,
    Prod.mk.injEq, true_and] at ran
  subst ran
  refine made.snoc notDot notDots absent ?_ settable
  rw [List.reverse_cons]
  exact Files.pathExists_append_eq_false stuck (by simp)

theorem findOr_makes {error : IoError} (ran : exec (findOr (up.reverse ++ [name]) error) disk = (.ok (), reached)) :
    ∃ location, Made disk (name :: up) reached location := by
  simp only [findOr, exec_bind, exec_reads] at ran
  split at ran
  · next there =>
    cases ran
    unfold Files.isDirectory at there
    split at there
    · next location leads => exact ⟨location, .of_directory (by rw [List.reverse_cons]; exact leads)⟩
    · exact nomatch there
  · exact nomatch ran

/-- Directories are made below the nearest entry there was. -/
theorem createDirAll_makes (names : ∀ name ∈ path, name ≠ "." ∧ name ≠ "..")
    (ran : exec (createDirAll path) disk = (.ok (), reached)) : ∃ location, Made disk path reached location := by
  induction path generalizing reached with
  | nil =>
    cases ran
    exact ⟨[], .of_directory (Files.resolve_nil _ _ _)⟩
  | cons name up ih =>
    obtain ⟨notDot, notDots⟩ := names name List.mem_cons_self
    -- Without a directory above, that one is made first.
    have again : (∀ location, disk.files.lookup up.reverse ≠ .ok (.directory location)) →
        exec (do createDirAll up; mkdirOrFind (up.reverse ++ [name])) disk = (.ok (), reached) →
        ∃ location, Made disk (name :: up) reached location := by
      intro stuck goes
      rw [exec_bind] at goes
      generalize first : exec (createDirAll up) disk = outcome at goes
      rcases outcome with ⟨error | done, between⟩
      · exact nomatch goes
      · obtain ⟨parent, made⟩ := ih (fun other member => names other (List.mem_cons_of_mem _ member)) first
        exact ⟨_, mkdirOrFind_makes made notDot notDots stuck goes⟩
    simp only [createDirAll, exec_bind, exec_attempt, List.reverse_cons, exec_mkdir] at ran
    rcases above : disk.files.lookup up.reverse with error | (location | parent | ⟨parent, missing⟩)
    · simp only [above] at ran
      cases error with
      | notFound => exact again (by simp [above]) ran
      | _ => exact findOr_makes ran
    · simp only [above] at ran
      exact findOr_makes ran
    · simp only [above] at ran
      by_cases taken : (disk.files.node (parent ++ [name])).isSome = true
      · simp only [taken, if_true] at ran
        exact findOr_makes ran
      · -- The name is free, and the directory above is there.
        have absent : disk.files.node (parent ++ [name]) = none := by simpa using taken
        have settable := settable_of_absent (disk.files.lookup_holds above) absent (some .directory)
        simp only [taken, Bool.false_eq_true, if_false, exec_put settable, exec_pure, Prod.mk.injEq, true_and] at ran
        subst ran
        refine ⟨_, (Made.of_directory above).snoc notDot notDots absent ?_ settable⟩
        rw [List.reverse_cons, Files.pathExists, Files.canonicalize,
          disk.files.lookup_snoc above notDot notDots (by simp [absent]), absent]
        rfl
    · simp only [above] at ran
      exact again (by simp [above]) ran

theorem createDirAllAt_makes {path : Path} (names : Files.Proper path.names)
    (ran : exec (createDirAllAt path) disk = (.ok (), reached)) :
    ∃ location, Made disk path.names.reverse reached location := by
  have reversed : ∀ name ∈ path.names.reverse, name ≠ "." ∧ name ≠ ".." :=
    fun name member => names name (List.mem_reverse.1 member)
  unfold createDirAllAt at ran
  split at ran
  · exact createDirAll_makes reversed ran
  · exact createDirAll_makes reversed ran
  · -- With a last dot the call only returns where there is a directory.
    obtain ⟨found, _, looked, goesOn⟩ := exec_bind_eq_ok.1 ran
    cases looked
    split at goesOn
    · next location there =>
      cases goesOn
      exact ⟨location, .of_directory (by rw [List.reverse_reverse]; exact there)⟩
    · exact nomatch goesOn
    · obtain ⟨_, _, _, wrong⟩ := exec_bind_eq_ok.1 goesOn
      exact nomatch wrong
    · obtain ⟨_, _, _, wrong⟩ := exec_bind_eq_ok.1 goesOn
      exact nomatch wrong
    · exact nomatch goesOn

theorem exec_put_eq_ok (changed : exec (put location entry) disk = (.ok (), reached)) :
    ∃ settable, reached = disk.after location entry settable := by
  by_cases settable : disk.files.Settable location entry
  · rw [exec_put settable] at changed
    cases changed
    exact ⟨settable, rfl⟩
  · rw [exec_put_refused settable] at changed
    exact nomatch changed

theorem exec_read_eq_ok {contents : ByteArray} : exec (read location) disk = (.ok contents, reached) ↔
      disk.files.node location = some (.file contents) ∧ disk = reached := by
  simp only [read, exec_bind, exec_reads]
  split
  · next stored there => simp [there]
  · next there => simp [there]
  · next other _ =>
    have absent : disk.files.node location ≠ some (.file contents) := other contents
    simp [absent]

theorem exec_write_eq_ok {contents : ByteArray} (ran : exec (write path contents) disk = (.ok (), reached)) :
    ∃ location, disk.files.opens path = some location ∧
      ∃ settable, reached = disk.after location (some (.file contents)) settable := by
  simp only [write, exec_bind, exec_reads] at ran
  split at ran
  · exact nomatch ran
  · exact nomatch ran
  · next location there => exact ⟨location, by simp only [Files.opens, there], exec_put_eq_ok ran⟩
  · next parent name there =>
    exact ⟨parent ++ [name], by simp only [Files.opens, there], exec_put_eq_ok ran⟩

theorem exec_removeFile_eq_ok (ran : exec (removeFile location) disk = (.ok (), reached)) :
    ∃ settable, reached = disk.after location none settable := by
  simp only [removeFile, exec_bind, exec_reads] at ran
  split at ran
  · exact exec_put_eq_ok ran
  · exact nomatch ran
  · exact nomatch ran

theorem createDirAllAt_recorded (path : Path) : Moves Recorded (createDirAllAt path) := by
  unfold createDirAllAt
  split
  · exact createDirAll_recorded _
  · exact createDirAll_recorded _
  · refine .bind (.reads _) fun found => ?_
    split
    · exact .pure _
    · exact .throw _
    · exact .bind (createDirAll_recorded _) fun _ => .throw _
    · exact .bind (createDirAll_recorded _) fun _ => .throw _
    · exact .throw _

end Disk

end Codel00p
