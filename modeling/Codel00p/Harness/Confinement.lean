import Codel00p.Harness.FileTools

/-! Which places a write, create, copy, or move of the workspace touches. -/

namespace Codel00p

open Path (parse)
open Program (exec Moves exec_bind_eq_ok exec_ofExcept_bind_eq_ok)

/-- Everything that was touched on the way from one disk to another is inside a root. -/
def Disk.TouchesWithin (root : Location) (disk reached : Disk) : Prop :=
  ∃ more, reached.touched = disk.touched ++ more ∧ ∀ place ∈ more, root <+: place

theorem Disk.touchesWithin_iff {root : Location} {disk reached : Disk} {more : List Location}
    (touched : reached.touched = disk.touched ++ more) :
    Disk.TouchesWithin root disk reached ↔ ∀ place ∈ more, root <+: place := by
  constructor
  · rintro ⟨same, recorded, inside⟩
    cases List.append_cancel_left (touched.symm.trans recorded)
    exact inside
  · exact fun inside => ⟨more, touched, inside⟩

/--
The last name of a destination is a link to a place outside the root that can be written.

That place is a file, or a free name in a directory: the link may dangle.
-/
def LeadsOut (files : Files) (root : Location) (rel : String) : Prop :=
  ∃ up name parent location, ((parse rel).join root).names = up ++ [name] ∧
    files.lookup up = .ok (.directory parent) ∧
    (∃ absolute target, files.node (parent ++ [name]) = some (.symlink absolute target)) ∧
    files.opens ((parse rel).join root).steps = some location ∧ ¬root <+: location

structure Creatable (files : Files) (root : Location) (rel : String) (up : List String) (name : String) :
    Prop where
  /-- The path has a last name, and names above it. -/
  names : ((parse rel).join root).names = up ++ [name]
  /-- It has no dots among its names, if the root has none. -/
  proper : Files.Proper root → Files.Proper (up ++ [name])
  /-- The nearest entry above the last name is inside the root. -/
  inside : root <+: files.nearest up.reverse

namespace LocalFs

variable {files : Files} {root : Location} {rel name : String} {up : List String} {disk reached : Disk}

/-- A path that is resolved for creating is joined to the root, and its parent was checked. -/
theorem resolveForCreate_eq_ok {destination : Path} (resolved : resolveForCreate root rel files = .ok destination) :
    destination = (parse rel).join root ∧ ∃ up name, Creatable files root rel up name := by
  obtain ⟨_, passed, resolved⟩ := Except.bind_eq_ok.1 resolved
  split at resolved
  · exact nomatch resolved
  · next relative =>
    simp only at resolved
    split at resolved
    · exact nomatch resolved
    · next parent above =>
      obtain ⟨location, found, resolved⟩ := Except.bind_eq_ok.1 resolved
      split at resolved
      · next checked =>
        cases resolved
        refine ⟨rfl, ?_⟩
        unfold Path.parent at above
        split at above
        · exact nomatch above
        · next nonempty =>
          -- The path has names, so it is what is above the last one and that one.
          cases above
          rcases List.eq_nil_or_concat' ((parse rel).join root).names with empty | ⟨up, name, names⟩
          · exact absurd (by simp [empty]) nonempty
          · refine ⟨up, name, names, fun proper => ?_, ?_⟩
            · have joined : ((parse rel).join root).names = root ++ (parse rel).names := by
                simp [Path.join, relative]
              rw [← names, joined]
              intro other member
              rcases List.mem_append.1 member with own | added
              · exact proper other own
              · have dotless : other ≠ "." := by
                  simpa using (List.mem_filter.1 added).2
                exact ⟨dotless, fun up => rejectComponents_eq_ok passed (up ▸ added)⟩
            · rw [resolveParent_eq_ok found, names, List.dropLast_concat] at checked
              exact List.isPrefixOf_iff_prefix.1 checked
      · exact nomatch resolved

theorem leadsOut_iff {parent place : Location}
    (creatable : Creatable files root rel up name) (proper : Files.Proper root)
    (there : files.lookup up = .ok (.directory parent))
    (opened : files.opens ((parse rel).join root).steps = some place) :
    LeadsOut files root rel ↔ ¬root <+: place := by
  constructor
  · rintro ⟨_, _, _, location, _, _, _, leads, outside⟩
    cases leads.symm.trans opened
    exact outside
  · intro outside
    by_cases link : ∃ absolute target, files.node (parent ++ [name]) = some (.symlink absolute target)
    · exact ⟨up, name, parent, place, creatable.names, there, link, opened, outside⟩
    · -- A name that is no link is opened next to the other entries of its directory.
      obtain ⟨notDot, notDots⟩ := creatable.proper proper name (by simp)
      have path := (Files.names_of_opens opened).trans creatable.names
      have own := Files.opens_snoc there notDot notDots
        (fun absolute target entry => link ⟨absolute, target, entry⟩) (path ▸ opened)
      have nearest : files.nearest up.reverse = parent :=
        Files.nearest_of_directory (by rw [List.reverse_reverse]; exact there)
      refine absurd ?_ outside
      rw [own, ← nearest]
      exact creatable.inside.trans (List.prefix_append _ _)

theorem not_leadsOut_of_absent (creatable : Creatable files root rel up name)
    (nowhere : files.isDirectory up = false) : ¬LeadsOut files root rel := by
  rintro ⟨up', name', parent, _, names, there, _⟩
  obtain ⟨rfl, _⟩ := List.append_inj' (names.symm.trans creatable.names) rfl
  simp [Files.isDirectory, there] at nowhere

section

variable (proper : Files.Proper root)

include proper

theorem writeFile_eq_ok {contents : ByteArray} (ran : exec (writeFile root rel contents) disk = (.ok (), reached)) :
    ∃ up name parent between place, Creatable disk.files root rel up name ∧
      exec (Disk.createDirAll up.reverse) disk = (.ok (), between) ∧ Disk.Made disk up.reverse between parent ∧
      between.files.opens ((parse rel).join root).steps = some place ∧
      ∃ settable, reached = between.after place (some (.file contents)) settable := by
  obtain ⟨destination, resolved, ran⟩ := exec_query_bind_eq_ok.1 ran
  obtain ⟨rfl, up, name, creatable⟩ := resolveForCreate_eq_ok resolved
  obtain ⟨_, between, made, written⟩ := exec_bind_eq_ok.1 ran
  obtain ⟨place, opened, wrote⟩ := Disk.exec_write_eq_ok (exec_ofIo_eq_ok.1 written)
  have above : ((parse rel).join root).parent = some up := by
    simp [Path.parent, creatable.names]
  rw [makeParent, above] at made
  have ran := exec_ofIo_eq_ok.1 made
  have names := creatable.proper proper
  obtain ⟨parent, made⟩ := Disk.createDirAll_makes
    (fun other member => names other (List.mem_append_left _ (List.mem_reverse.1 member))) ran
  exact ⟨up, name, parent, between, place, creatable, ran, made, opened, wrote⟩

theorem opens_fresh {parent place : Location} {between : Disk} (creatable : Creatable disk.files root rel up name)
    (made : Disk.Made disk up.reverse between parent) (nowhere : disk.files.isDirectory up = false)
    (opened : between.files.opens ((parse rel).join root).steps = some place) :
    place = parent ++ [name] ∧ between.files.node place = none := by
  obtain ⟨notDot, notDots⟩ := creatable.proper proper name (by simp)
  have there := made.there
  rw [List.reverse_reverse] at there
  have free := made.fresh (by rw [List.reverse_reverse]; exact nowhere) name
  have path := (Files.names_of_opens opened).trans creatable.names
  have own := Files.opens_snoc there notDot notDots (by simp [free]) (path ▸ opened)
  exact ⟨own, own ▸ free⟩

theorem writeFile_within {contents : ByteArray} (ran : exec (writeFile root rel contents) disk = (.ok (), reached)) :
    disk.TouchesWithin root reached ↔ ¬LeadsOut disk.files root rel := by
  obtain ⟨up, name, parent, between, place, creatable, -, made, opened, _, rfl⟩ := writeFile_eq_ok proper ran
  by_cases found : disk.files.isDirectory up = true
  · -- The directory was there, so only the write touched anything.
    cases made.kept (by rw [List.reverse_reverse]; exact found)
    have there := made.there
    rw [List.reverse_reverse] at there
    rw [Disk.touchesWithin_iff rfl, leadsOut_iff creatable proper there opened]
    simp
  · -- The directory is new and empty, so the file is created in it.
    have nowhere : disk.files.isDirectory up = false := by simpa using found
    obtain ⟨own, -⟩ := opens_fresh proper creatable made nowhere opened
    obtain ⟨more, touched, bounded⟩ := made.bounded
    refine iff_of_true ⟨more ++ [place], by simp [Disk.after, touched], fun other member => ?_⟩
      (not_leadsOut_of_absent creatable nowhere)
    rcases List.mem_append.1 member with old | new
    · exact creatable.inside.trans (bounded other old)
    · rw [List.mem_singleton.1 new, own]
      exact (creatable.inside.trans made.below).trans (List.prefix_append _ _)

/-- Creating directories stays inside, and its destination leads nowhere. -/
theorem createDirAll_within (ran : exec (createDirAll root rel) disk = (.ok (), reached)) :
    disk.TouchesWithin root reached ∧ ¬LeadsOut disk.files root rel := by
  obtain ⟨destination, resolved, ran⟩ := exec_query_bind_eq_ok.1 ran
  obtain ⟨rfl, up, name, creatable⟩ := resolveForCreate_eq_ok resolved
  have names := creatable.proper proper
  rw [← creatable.names] at names
  obtain ⟨location, made⟩ := Disk.createDirAllAt_makes names (exec_ofIo_eq_ok.1 ran)
  have reversed : ((parse rel).join root).names.reverse = name :: up.reverse := by
    simp [creatable.names]
  rw [reversed] at made
  by_cases found : disk.files.isDirectory (name :: up.reverse).reverse = true
  · -- Nothing is made where there is a directory, and a directory is not opened.
    cases made.kept found
    refine ⟨⟨[], by simp, by simp⟩, ?_⟩
    rintro ⟨_, _, _, place, _, _, _, opened, _⟩
    rw [Files.names_of_opens opened, creatable.names] at opened
    have there := made.there
    rw [List.reverse_cons, List.reverse_reverse] at there
    simp [Files.opens, there] at opened
  · -- What is made is below the nearest entry, which is the same for the path above.
    have nowhere : disk.files.isDirectory (name :: up.reverse).reverse = false := by simpa using found
    obtain ⟨more, touched, bounded⟩ := made.bounded
    rw [Files.nearest_of_absent (made.absent nowhere)] at bounded
    refine ⟨⟨more, touched, fun place member => creatable.inside.trans (bounded place member)⟩, ?_⟩
    rintro ⟨up', name', parent, _, named, there, ⟨absolute, target, link⟩, _⟩
    obtain ⟨rfl, last⟩ := List.append_inj' (named.symm.trans creatable.names) rfl
    cases last
    rw [made.free nowhere up'.reverse name parent rfl (by rw [List.reverse_reverse]; exact there)] at link
    cases link

end

theorem deleteFile_within (ran : exec (deleteFile root rel) disk = (.ok (), reached)) :
    ∃ place, root <+: place ∧ reached.touched = disk.touched ++ [place] := by
  obtain ⟨place, resolved, ran⟩ := exec_query_bind_eq_ok.1 ran
  obtain ⟨_, rfl⟩ := Disk.exec_removeFile_eq_ok (exec_ofIo_eq_ok.1 ran)
  exact ⟨place, (resolveExisting_eq_ok.1 resolved).2.2, rfl⟩

end LocalFs

theorem readSourceFile_moves {relation : Disk → Disk → Prop} [Std.Refl relation] [IsTrans Disk relation]
    (workspace : Workspace) (tool source : String) : Moves relation (readSourceFile workspace tool source) :=
  .bind (query_moves _) fun _ => .bind (.ofExcept _) fun _ =>
    .bind (query_moves _) fun resolved => ofIo_moves (Disk.read_moves resolved)

namespace Workspace

variable {workspace : Workspace}

theorem transfer_eq_ok {tool source dest : String} {overwrite : Bool} {disk reached : Disk} {bytes : ByteArray}
    (ran : exec (workspace.transfer tool source dest overwrite) disk = (.ok bytes, reached)) :
    (∃ location, LocalFs.resolveExisting workspace.root source disk.files = .ok location ∧
        disk.files.node location = some (.file bytes)) ∧
      exec (LocalFs.writeFile workspace.root dest bytes) disk = (.ok (), reached) := by
  obtain ⟨contents, _, read, ran⟩ := exec_bind_eq_ok.1 ran
  -- Reading the source checks that it is a file, and then reads it.
  obtain ⟨_, -, read⟩ := exec_query_bind_eq_ok.1 read
  obtain ⟨_, -, read⟩ := exec_ofExcept_bind_eq_ok.1 read
  obtain ⟨stored, rfl⟩ := LocalFs.exec_readFile_eq_ok.1 read
  obtain ⟨_, -, ran⟩ := exec_query_bind_eq_ok.1 ran
  obtain ⟨_, _, written, ran⟩ := exec_bind_eq_ok.1 ran
  cases ran
  obtain ⟨_, -, written⟩ := exec_ofExcept_bind_eq_ok.1 written
  exact ⟨stored, written⟩

theorem moveFile_eq_ok {input : Json} {disk reached : Disk} {result : ToolResult}
    (ran : exec (workspace.moveFile input) disk = (.ok result, reached)) :
    ∃ source dest location bytes written, input.getStr "from" = some source ∧ input.getStr "to" = some dest ∧
      LocalFs.resolveExisting workspace.root source disk.files = .ok location ∧
      disk.files.node location = some (.file bytes) ∧
      exec (LocalFs.writeFile workspace.root dest bytes) disk = (.ok (), written) ∧
      exec (LocalFs.deleteFile workspace.root source) written = (.ok (), reached) := by
  obtain ⟨source, given, ran⟩ := exec_ofExcept_bind_eq_ok.1 ran
  obtain ⟨dest, wanted, ran⟩ := exec_ofExcept_bind_eq_ok.1 ran
  obtain ⟨bytes, written, moved, ran⟩ := exec_bind_eq_ok.1 ran
  obtain ⟨_, _, deleted, ran⟩ := exec_bind_eq_ok.1 ran
  cases ran
  obtain ⟨⟨location, resolved, stored⟩, wrote⟩ := transfer_eq_ok moved
  obtain ⟨_, -, deleted⟩ := exec_ofExcept_bind_eq_ok.1 deleted
  exact ⟨source, dest, location, bytes, written, requiredString_eq_ok given, requiredString_eq_ok wanted, resolved,
    stored, wrote, deleted⟩

end Workspace

/-- A run of a program stays inside the root unless its destination leads out. -/
def Decides {α : Type} (root : Location) (dest : Option String) (program : FsM α) : Prop :=
  ∀ disk value reached, exec program disk = (.ok value, reached) → ∃ rel, dest = some rel ∧
    (disk.TouchesWithin root reached ↔ ¬LeadsOut disk.files root rel)

namespace Decides

variable {α β : Type} {root : Location} {dest : Option String} {next : α → FsM β}

theorem given {outcome : Except HarnessError α}
    (rest : ∀ value, outcome = .ok value → Decides root dest (next value)) :
    Decides root dest (Program.ofExcept outcome >>= next) := by
  intro disk value reached ran
  obtain ⟨first, found, ran⟩ := exec_ofExcept_bind_eq_ok.1 ran
  exact rest first found disk value reached ran

theorem asking {question : Files → Except HarnessError α} (rest : ∀ value, Decides root dest (next value)) :
    Decides root dest (query question >>= next) := by
  intro disk value reached ran
  obtain ⟨first, -, ran⟩ := exec_query_bind_eq_ok.1 ran
  exact rest first disk value reached ran

theorem returning {first : FsM α} {convert : α → β} (decides : Decides root dest first) :
    Decides root dest (first >>= fun value => pure (convert value)) := by
  intro disk value reached ran
  obtain ⟨first, _, ran, returned⟩ := exec_bind_eq_ok.1 ran
  cases returned
  exact decides disk first reached ran

theorem write {workspace : Workspace} {path : String} {contents : ByteArray} (named : dest = some path) :
    Decides workspace.root dest (workspace.write path contents) :=
  given fun _ _ _ _ _ ran => ⟨path, named, LocalFs.writeFile_within workspace.proper ran⟩

end Decides

/-- What changes files in a workspace: the file system's own writes, and the tools that use them. -/
inductive Mutation where
  | writeFile (rel : String) (contents : ByteArray)
  | createDirAll (rel : String)
  | createFile (input : Json)
  | updateFile (input : Json)
  | moveFile (input : Json)
  | copyFile (input : Json)

namespace Mutation

def destination : Mutation → Option String
  | .writeFile rel _ => some rel
  | .createDirAll rel => some rel
  | .createFile input => input.getStr "path"
  | .updateFile input => input.getStr "path"
  | .moveFile input => input.getStr "to"
  | .copyFile input => input.getStr "to"

/-- Make the change. -/
def run (workspace : Workspace) : Mutation → FsM Unit
  | .writeFile rel contents => LocalFs.writeFile workspace.root rel contents
  | .createDirAll rel => LocalFs.createDirAll workspace.root rel
  | .createFile input => do let _ ← workspace.createFile input
  | .updateFile input => do let _ ← workspace.updateFile input
  | .moveFile input => do let _ ← workspace.moveFile input
  | .copyFile input => do let _ ← workspace.copyFile input

end Mutation

namespace LocalFs

theorem writeFile_recorded (root : Location) (rel : String) (contents : ByteArray) :
    Moves Disk.Recorded (writeFile root rel contents) := by
  refine .bind (query_moves _) fun destination => .bind ?_ fun _ => ofIo_moves (Disk.write_recorded _ _)
  unfold makeParent
  split
  · exact ofIo_moves (Disk.createDirAll_recorded _)
  · exact .pure _

end LocalFs

namespace Workspace

theorem write_recorded (workspace : Workspace) (path : String) (contents : ByteArray) :
    Moves Disk.Recorded (workspace.write path contents) :=
  .bind (.ofExcept _) fun _ => LocalFs.writeFile_recorded _ _ _

theorem transfer_recorded (workspace : Workspace) (tool source dest : String) (overwrite : Bool) :
    Moves Disk.Recorded (workspace.transfer tool source dest overwrite) :=
  .bind (readSourceFile_moves _ _ _) fun _ => .bind (query_moves _) fun _ =>
    .bind (write_recorded _ _ _) fun _ => .pure _

end Workspace

theorem Mutation.run_recorded (workspace : Workspace) (mutation : Mutation) :
    Moves Disk.Recorded (mutation.run workspace) := by
  cases mutation with
  | writeFile rel contents => exact LocalFs.writeFile_recorded _ _ _
  | createDirAll rel =>
    exact .bind (query_moves _) fun _ => ofIo_moves (Disk.createDirAllAt_recorded _)
  | createFile input =>
    exact .bind (.bind (.ofExcept _) fun _ => .bind (.ofExcept _) fun _ => .bind (query_moves _) fun _ =>
      .ite (.throw _) (.bind (Workspace.write_recorded _ _ _) fun _ => .pure _)) fun _ => .pure _
  | updateFile input =>
    exact .bind (.bind (.ofExcept _) fun _ => .bind (.ofExcept _) fun _ => .bind (query_moves _) fun _ =>
      .bind (Workspace.write_recorded _ _ _) fun _ => .pure _) fun _ => .pure _
  | moveFile input =>
    exact .bind (.bind (.ofExcept _) fun _ => .bind (.ofExcept _) fun _ =>
      .bind (Workspace.transfer_recorded _ _ _ _ _) fun _ =>
      .bind (.bind (.ofExcept _) fun _ => .bind (query_moves _) fun _ =>
        ofIo_moves (Disk.removeFile_recorded _)) fun _ => .pure _) fun _ => .pure _
  | copyFile input =>
    exact .bind (.bind (.ofExcept _) fun _ => .bind (.ofExcept _) fun _ =>
      .bind (Workspace.transfer_recorded _ _ _ _ _) fun _ => .pure _) fun _ => .pure _

/-- A mutation that succeeds has a destination, and stays inside unless that leads out. -/
theorem Mutation.run_decides (workspace : Workspace) (mutation : Mutation) :
    Decides workspace.root mutation.destination (mutation.run workspace) := by
  cases mutation with
  | writeFile rel contents => exact fun _ _ _ ran => ⟨rel, rfl, LocalFs.writeFile_within workspace.proper ran⟩
  | createDirAll rel =>
    intro disk _ reached ran
    obtain ⟨within, leads⟩ := LocalFs.createDirAll_within workspace.proper ran
    exact ⟨rel, rfl, iff_of_true within leads⟩
  | createFile input =>
    refine .returning (.given fun path found => .given fun _ _ => .asking fun taken => ?_)
    cases taken with
    | true => exact fun _ _ _ wrong => nomatch wrong
    | false => exact .returning (.write (requiredString_eq_ok found))
  | updateFile input =>
    exact .returning (.given fun path found => .given fun _ _ => .asking fun _ =>
      .returning (.write (requiredString_eq_ok found)))
  | moveFile input =>
    refine .returning fun disk _ reached ran => ?_
    obtain ⟨source, dest, _, bytes, written, -, found, -, -, wrote, deleted⟩ := Workspace.moveFile_eq_ok ran
    -- What is deleted in the end is inside, so the write alone decides.
    obtain ⟨place, inside, removed⟩ := LocalFs.deleteFile_within deleted
    refine ⟨dest, found, ?_⟩
    rw [← LocalFs.writeFile_within workspace.proper wrote]
    obtain ⟨more, touched, _⟩ := LocalFs.writeFile_recorded workspace.root dest bytes disk
    rw [wrote] at touched
    rw [Disk.touchesWithin_iff touched, Disk.touchesWithin_iff (by rw [removed, touched, List.append_assoc])]
    simp only [List.mem_append, List.mem_singleton]
    constructor
    · exact fun within other member => within other (.inl member)
    · rintro within other (member | rfl)
      · exact within other member
      · exact inside
  | copyFile input =>
    refine .returning (.given fun _ _ => .given fun dest found => .returning fun _ _ _ ran => ⟨dest, ?_, ?_⟩)
    · exact requiredString_eq_ok found
    · exact LocalFs.writeFile_within workspace.proper (Workspace.transfer_eq_ok ran).2

/--
A write, create, copy, or move that succeeds touches only places inside the workspace root
exactly when the last name of its destination is not a link that leads out.

Only the directory of a destination is resolved and checked,
while the write follows a link under the last name wherever it leads.
-/
theorem mutation_confined_iff (workspace : Workspace) (mutation : Mutation) (disk reached : Disk)
    (ran : exec (mutation.run workspace) disk = (.ok (), reached)) :
    ∃ rel touched, mutation.destination = some rel ∧ reached.touched = disk.touched ++ touched ∧
      (∀ place, place ∉ touched → reached.files.node place = disk.files.node place) ∧
      ((∀ place ∈ touched, workspace.root <+: place) ↔ ¬LeadsOut disk.files workspace.root rel) := by
  obtain ⟨rel, destined, within⟩ := mutation.run_decides workspace disk _ reached ran
  obtain ⟨touched, recorded, kept⟩ := mutation.run_recorded workspace disk
  rw [ran] at recorded kept
  exact ⟨rel, touched, destined, recorded, kept, (Disk.touchesWithin_iff recorded).symm.trans within⟩

/-- A file system with nothing but the top. -/
def bareFiles : Files where
  node location := if location = [] then some .directory else none
  top := rfl
  closed parent name present := by simp at present

/-- A workspace that holds a draft, next to a directory that is not part of it. -/
def officeWorkspace : Workspace where
  root := ["work"]
  proper := by simp [Files.Proper]

/-- Set the workspace up, with the given entries under the name of its notes and outside of it. -/
def office (notes outside : Option Node) : Disk :=
  let furnish : DiskM Unit := do
    Disk.put ["work"] (some .directory)
    Disk.put ["work", "draft"] (some (.file "draft".toUTF8))
    Disk.put ["outside"] (some .directory)
    Disk.put ["work", "notes"] notes
    Disk.put ["outside", "notes"] outside
  { files := (exec furnish { files := bareFiles }).2.files }

def outwardLink : Node := .symlink true ["outside", "notes"]

/-- A new file is created through a dangling link, and an old one is overwritten through a link. -/
theorem link_followed_out : (∃ reached, exec ((Mutation.createFile (.obj [("path", .string "notes"),
        ("content", .string "text")])).run officeWorkspace) (office (some outwardLink) none) =
        (.ok (), reached) ∧ reached.touched = [["outside", "notes"]]) ∧
    (∃ reached, exec ((Mutation.copyFile (.obj [("from", .string "draft"),
        ("to", .string "notes"), ("overwrite", .bool true)])).run officeWorkspace)
        (office (some outwardLink) (some (.file "private".toUTF8))) = (.ok (), reached) ∧
      reached.touched = [["outside", "notes"]]) ∧ ¬officeWorkspace.root <+: ["outside", "notes"] := by
  have ends : ∀ {run : Except HarnessError Unit × Disk} {touched : List Location},
      run.1 = .ok () → run.2.touched = touched →
        ∃ reached, run = (.ok (), reached) ∧ reached.touched = touched := by
    rintro ⟨_, reached⟩ touched rfl same
    exact ⟨reached, rfl, same⟩
  refine ⟨ends ?_ ?_, ends ?_ ?_, ?_⟩
  all_goals decide +kernel

/-- A copy to a name that is not taken stays in the workspace. -/
theorem copy_kept_inside :
    ∃ rel touched, (Mutation.copyFile (.obj [("from", .string "draft"), ("to", .string "notes")])).destination
        = some rel ∧ (exec ((Mutation.copyFile (.obj [("from", .string "draft"), ("to", .string "notes")])).run
        officeWorkspace) (office none none)).2.touched = (office none none).touched ++ touched ∧
      (∀ place, place ∉ touched → (exec ((Mutation.copyFile (.obj [("from", .string "draft"),
        ("to", .string "notes")])).run officeWorkspace) (office none none)).2.files.node place =
          (office none none).files.node place) ∧ ((∀ place ∈ touched, officeWorkspace.root <+: place) ↔
        ¬LeadsOut (office none none).files officeWorkspace.root rel) :=
  mutation_confined_iff officeWorkspace _ (office none none) _ (Prod.ext (by decide +kernel) rfl)

end Codel00p
