import Codel00p.Lib.Assoc
import Codel00p.Lib.Disk
import Mathlib.Data.List.Lex
import Mathlib.Data.String.Basic

/-! Files with more than one name: what is written under one of them is seen under all. -/

namespace Codel00p

/-- What the entries of a disk do not show: which of them are one file, and which of them refuse a write. -/
structure Volume where
  linked : Location → Location → Bool
  linked_refl : ∀ location, linked location location = true
  linked_symm : ∀ {location other}, linked location other = true → linked other location = true
  linked_trans : ∀ {location other third}, linked location other = true → linked other third = true →
    linked location third = true
  refusal : Location → Option IoError

namespace Volume

/-- A volume on which files are told apart by a name they were first given, and may all be written. -/
def named (first : Location → Location) : Volume where
  linked location other := first location == first other
  linked_refl location := beq_self_eq_true (first location)
  linked_symm same := by
    rw [beq_iff_eq] at same ⊢
    exact same.symm
  linked_trans one two := by
    rw [beq_iff_eq] at one two ⊢
    exact one.trans two
  refusal _ := none

def plain : Volume := named id

/-- Names of one file show the same contents. -/
def Holds (volume : Volume) (files : Files) : Prop :=
  ∀ location other, volume.linked location other = true → files.node location = files.node other

theorem named_holds {first : Location → Location} {files : Files}
    (same : ∀ location, files.node (first location) = files.node location) : (named first).Holds files := by
  intro location other linked
  have equal : first location = first other := by simpa [named] using linked
  rw [← same location, equal, same other]

end Volume

namespace Files

variable {more : Files} {β : Type} {key : Location}

theorem ext_node {files : Files} (same : ∀ location, files.node location = more.node location) : files = more := by
  obtain ⟨node, _, _⟩ := files
  obtain ⟨other, _, _⟩ := more
  have equal : node = other := funext same
  subst equal
  rfl

variable (files : Files) (volume : Volume)

/-- What an entry becomes when its file is given new contents. -/
def rewritten (contents : ByteArray) : Option Node → Option Node
  | some (.file _) => some (.file contents)
  | other => other

theorem rewritten_eq_directory {contents : ByteArray} {entry : Option Node} :
    rewritten contents entry = some .directory ↔ entry = some .directory := by
  rcases entry with _ | _ | _ | _ <;> simp [rewritten]

theorem rewritten_eq_none {contents : ByteArray} {entry : Option Node} :
    rewritten contents entry = none ↔ entry = none := by
  rcases entry with _ | _ | _ | _ <;> simp [rewritten]

def writeThrough (location : Location) (contents : ByteArray) : Files where
  node other :=
    if volume.linked location other then rewritten contents (files.node other) else files.node other
  top := by
    split
    · rw [files.top]
      rfl
    · exact files.top
  closed parent name present := by
    have above : files.node parent = some .directory := by
      refine files.closed parent name fun absent => present ?_
      rw [absent, rewritten_eq_none.2 rfl, ite_self]
    rw [above, rewritten_eq_directory.2 rfl, ite_self]

def writeAll {β : Type} (contents : β → ByteArray) (entries : List (Location × β)) : Files :=
  entries.foldl (fun files entry => files.writeThrough volume entry.1 (contents entry.2)) files

theorem writeThrough_twice (location : Location) (first second : ByteArray) :
    (files.writeThrough volume location first).writeThrough volume location second =
      files.writeThrough volume location second := by
  refine ext_node fun other => ?_
  simp only [writeThrough]
  split
  · rcases files.node other with _ | _ | _ | _ <;> rfl
  · rfl

variable {volume}

theorem writeThrough_comm {location other : Location} (apart : volume.linked location other = false)
    (first second : ByteArray) : (files.writeThrough volume location first).writeThrough volume other second =
      (files.writeThrough volume other second).writeThrough volume location first := by
  refine ext_node fun place => ?_
  simp only [writeThrough]
  by_cases own : volume.linked location place = true
  · -- A place that is both files would make them one.
    have notOther : volume.linked other place = false := by
      refine Bool.eq_false_iff.2 fun wrong => ?_
      have joined := volume.linked_trans own (volume.linked_symm wrong)
      rw [apart] at joined
      exact nomatch joined
    simp [own, notOther]
  · simp [own]

theorem writeAll_writeThrough (contents : β → ByteArray) {entries : List (Location × β)}
    {location : Location} (apart : ∀ entry ∈ entries, volume.linked location entry.1 = false) (written : ByteArray) :
    (files.writeThrough volume location written).writeAll volume contents entries =
      (files.writeAll volume contents entries).writeThrough volume location written := by
  induction entries generalizing files with
  | nil => rfl
  | cons entry entries ih =>
    simp only [writeAll, List.foldl_cons]
    rw [files.writeThrough_comm (apart entry List.mem_cons_self)]
    exact ih _ fun other member => apart other (List.mem_cons_of_mem _ member)

theorem linked_eq_false_of_lt {entries : List (Location × β)}
    (apart : ∀ entry ∈ entries, volume.linked key entry.1 = true → entry.1 = key)
    (later : ∀ entry ∈ entries, key < entry.1) : ∀ entry ∈ entries, volume.linked key entry.1 = false := by
  intro entry member
  refine Bool.eq_false_iff.2 fun same => ?_
  have less := later entry member
  rw [apart entry member same] at less
  exact irrefl key less

theorem writeAll_insert (contents : β → ByteArray) {entries : List (Location × β)} (sorted : Assoc.Sorted entries)
    (apart : ∀ entry ∈ entries, volume.linked key entry.1 = true → entry.1 = key) (value : β) :
    files.writeAll volume contents (Assoc.insert key value entries) =
      (files.writeAll volume contents entries).writeThrough volume key (contents value) := by
  induction entries generalizing files with
  | nil => rfl
  | cons first rest ih =>
    obtain ⟨other, old⟩ := first
    obtain ⟨before, later⟩ := List.pairwise_cons.1 sorted
    have apartRest : ∀ entry ∈ rest, volume.linked key entry.1 = true → entry.1 = key :=
      fun entry member => apart entry (List.mem_cons_of_mem _ member)
    rw [Assoc.insert]
    split
    · next same =>
      subst same
      -- What was written under the key before is lost, wherever the new entry is written.
      have passed := (files.writeThrough volume key (contents old)).writeAll_writeThrough contents
        (linked_eq_false_of_lt apartRest before) (contents value)
      rw [writeThrough_twice] at passed
      exact passed
    · split
      · next less =>
        refine files.writeAll_writeThrough contents (linked_eq_false_of_lt apart ?_) (contents value)
        intro entry member
        rcases List.mem_cons.1 member with rfl | inside
        · exact less
        · exact IsTrans.trans _ _ _ less (before entry inside)
      · exact ih _ later apartRest

/-- After files were written, one of them has what was written under its key, and any other what it had. -/
theorem node_writeAll (contents : β → ByteArray) {entries : List (Location × β)}
    (sorted : Assoc.Sorted entries)
    (apart : ∀ entry ∈ entries, volume.linked key entry.1 = true → entry.1 = key) :
    (files.writeAll volume contents entries).node key =
      match entries.lookup key with
      | some value => rewritten (contents value) (files.node key)
      | none => files.node key := by
  induction entries generalizing files with
  | nil => rfl
  | cons first rest ih =>
    obtain ⟨other, old⟩ := first
    obtain ⟨before, later⟩ := List.pairwise_cons.1 sorted
    have goesOn := ih (files.writeThrough volume other (contents old)) later
      fun entry member => apart entry (List.mem_cons_of_mem _ member)
    refine goesOn.trans ?_
    rw [List.lookup_cons]
    by_cases same : key = other
    · -- No later entry is under the key.
      subst same
      have none : rest.lookup key = none := by
        refine List.lookup_eq_none_iff.2 fun entry member => ?_
        have less := before entry member
        refine bne_iff_ne.2 fun equal => ?_
        rw [← equal] at less
        exact irrefl key less
      simp [none, writeThrough, volume.linked_refl]
    · have differ : (key == other) = false := by simpa using same
      have untouched : (files.writeThrough volume other (contents old)).node key = files.node key := by
        refine if_neg fun linked => same ?_
        exact (apart (other, old) List.mem_cons_self (volume.linked_symm linked)).symm
      rw [untouched, differ]

/-- Files have been given other contents: no entry was made, removed, or turned into another kind. -/
def Rewrites (more : Files) : Prop :=
  ∀ location, more.node location = files.node location ∨
    ∃ old new, files.node location = some (.file old) ∧ more.node location = some (.file new)

theorem writeThrough_rewrites (location : Location) (contents : ByteArray) :
    files.Rewrites (files.writeThrough volume location contents) := by
  intro other
  simp only [writeThrough]
  split
  · rcases files.node other with _ | old | _ | _
    · exact .inl rfl
    · exact .inr ⟨old, contents, rfl, rfl⟩
    · exact .inl rfl
    · exact .inl rfl
  · exact .inl rfl

instance : IsTrans Files Rewrites where
  trans := by
    intro files between more first second location
    rcases first location with same | ⟨old, new, before, after⟩
    · rw [← same]
      exact second location
    · rcases second location with same | ⟨_, newer, _, last⟩
      · exact .inr ⟨old, new, before, same.trans after⟩
      · exact .inr ⟨old, newer, before, last⟩

theorem writeAll_rewrites (contents : β → ByteArray) (entries : List (Location × β)) :
    files.Rewrites (files.writeAll volume contents entries) := by
  induction entries generalizing files with
  | nil => exact fun _ => .inl rfl
  | cons entry entries ih =>
    exact IsTrans.trans _ _ _ (files.writeThrough_rewrites entry.1 (contents entry.2)) (ih _)

variable {files}

section

variable (rewrites : files.Rewrites more)

include rewrites

theorem Rewrites.follow (jump : Location → List String → Except IoError Found) :
    more.follow jump = files.follow jump := by
  funext current path
  induction path generalizing current with
  | nil => rfl
  | cons name rest ih =>
    simp only [Files.follow, ih]
    -- A file is followed the same way whatever is in it.
    rcases rewrites (current ++ [name]) with same | ⟨old, new, before, after⟩
    · rw [same]
    · rw [before, after]

theorem Rewrites.lookup : more.lookup = files.lookup := by
  have resolve : ∀ links, more.resolve links = files.resolve links := by
    intro links
    induction links with
    | zero => exact rewrites.follow _
    | succ links ih => rw [Files.resolve, Files.resolve, ih, rewrites.follow]
  exact congrFun (resolve maxLinks) []

theorem Rewrites.canonicalize : more.canonicalize = files.canonicalize := by
  funext path
  rw [Files.canonicalize, Files.canonicalize, rewrites.lookup]

theorem Rewrites.pathExists : more.pathExists = files.pathExists := by
  funext path
  rw [Files.pathExists, Files.pathExists, rewrites.canonicalize]

end

end Files

namespace Disk

def written (disk : Disk) (volume : Volume) (location : Location) (contents : ByteArray) : Disk :=
  { files := disk.files.writeThrough volume location contents, touched := disk.touched ++ [location] }

def writeThrough (volume : Volume) (path : List String) (contents : ByteArray) : DiskM Unit := do
  match ← Program.reads (·.files.lookup path) with
  | .ok (.file location) =>
    match volume.refusal location with
    | some error => throw error
    | none => Program.change fun disk => disk.written volume location contents
  | _ => write path contents

theorem exec_writeThrough {disk : Disk} {volume : Volume} {path : List String} {location : Location}
    (there : disk.files.lookup path = .ok (.file location)) (contents : ByteArray) :
    Program.exec (writeThrough volume path contents) disk =
      match volume.refusal location with
      | some error => (.error error, disk)
      | none => (.ok (), disk.written volume location contents) := by
  simp only [writeThrough, Program.exec_bind, Program.exec_reads, there]
  cases volume.refusal location <;> rfl

theorem exec_createDirAll_of_directory {disk : Disk} {path : List String} {location : Location}
    (names : ∀ name ∈ path, name ≠ "." ∧ name ≠ "..")
    (there : disk.files.lookup path.reverse = .ok (.directory location)) :
    Program.exec (createDirAll path) disk = (.ok (), disk) := by
  cases path with
  | nil => rfl
  | cons name up =>
    obtain ⟨notDot, notDots⟩ := names name List.mem_cons_self
    rw [List.reverse_cons] at there
    -- The directory above is there, and the name is taken in it.
    have above : ∃ parent, disk.files.lookup up.reverse = .ok (.directory parent) := by
      by_contra stuck
      obtain ⟨error, failed⟩ := disk.files.lookup_append_error (not_exists.1 stuck) (List.cons_ne_nil name [])
      rw [there] at failed
      exact nomatch failed
    obtain ⟨parent, above⟩ := above
    have taken : (disk.files.node (parent ++ [name])).isSome = true := by
      rcases entry : disk.files.node (parent ++ [name]) with _ | _
      · rw [disk.files.lookup_snoc above notDot notDots (by simp [entry]), entry] at there
        exact nomatch there
      · rfl
    simp [createDirAll, Program.exec_bind, Program.exec_attempt, exec_mkdir, above, taken, findOr, Program.exec_reads, Files.isDirectory, there, Program.exec_pure]

end Disk

end Codel00p
