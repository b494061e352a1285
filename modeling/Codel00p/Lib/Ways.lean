import Codel00p.Lib.Disk

/-! What a path leads to when files come and go, but directories and links stay. -/

namespace Codel00p

/-- Where a file is or could be: the end of a path that leads to no directory. -/
def Found.leaf : Found → Option Location
  | .file location => some location
  | .directory _ => none
  | .missing parent name => some (parent ++ [name])

namespace Files

variable {files more : Files}

variable {path : List String}

theorem opens_eq_some {place : Location} :
    files.opens path = some place ↔ ∃ found, files.lookup path = .ok found ∧ found.leaf = some place := by
  rw [opens]
  rcases files.lookup path with error | (location | location | ⟨parent, name⟩) <;> simp [Found.leaf]

theorem file_of_opens {place : Location} {entry : Node} (opened : files.opens path = some place)
    (there : files.node place = some entry) : ∃ contents, entry = .file contents := by
  obtain ⟨found, led, ends⟩ := opens_eq_some.1 opened
  have holds := files.lookup_holds led
  cases found with
  | directory location => cases ends
  | file location =>
    cases ends
    obtain ⟨contents, stored⟩ := holds
    exact ⟨contents, by rw [stored] at there; cases there; rfl⟩
  | missing parent name =>
    cases ends
    rw [holds.2] at there
    cases there

/-- What is found at the end of a path: a file, or nothing. -/
def Ends (files : Files) : Found → Prop
  | .file location => ∃ contents, files.node location = some (.file contents)
  | .directory _ => False
  | .missing parent name => files.node (parent ++ [name]) = none

/-- Every directory and every link is still there. -/
def KeepsWays (files more : Files) : Prop :=
  ∀ location entry, files.node location = some entry → (∀ contents, entry ≠ .file contents) →
    more.node location = some entry

namespace KeepsWays

theorem trans {last : Files} (ways : files.KeepsWays more) (others : more.KeepsWays last) : files.KeepsWays last :=
  fun location entry there onward => others location entry (ways location entry there onward) onward

theorem of_extends (extends_ : files.Extends more) : files.KeepsWays more :=
  fun location entry there _ => extends_ location entry there

theorem of_set {location : Location} {entry : Option Node} (settable : files.Settable location entry)
    (leaf : ∀ old, files.node location = some old → ∃ contents, old = .file contents) :
    files.KeepsWays (files.set location entry settable) := by
  intro other old there onward
  have different : other ≠ location := by
    rintro rfl
    obtain ⟨contents, same⟩ := leaf old there
    exact onward contents same
  exact (if_neg different).trans there

variable {path : List String} {place : Location}

section

variable (ways : files.KeepsWays more)

include ways

theorem leads {links : Nat} {current : Location} {found now : Found}
    (led : files.Leads links current path found) (same : now.leaf = found.leaf) (ends : more.Ends now) :
    more.Leads links current path now := by
  -- The last name is looked up again.
  have last {links : Nat} {current : Location} {name : String} (notDot : name ≠ ".") (notDots : name ≠ "..")
      (here : now.leaf = some (current ++ [name])) : more.Leads links current [name] now := by
    cases now with
    | directory => exact ends.elim
    | file location =>
      cases here
      obtain ⟨contents, stored⟩ := ends
      exact .file notDot notDots stored
    | missing parent other =>
      obtain ⟨rfl, only⟩ := List.append_inj' (Option.some.inj here) rfl
      cases only
      exact .absent notDot notDots ends
  induction led with
  | here => cases now <;> first | exact ends.elim | cases same
  | dot _ ih => exact .dot (ih same)
  | dots _ ih => exact .dots (ih same)
  | absent notDot notDots => exact last notDot notDots same
  | file notDot notDots => exact last notDot notDots same
  | directory notDot notDots entry _ ih => exact .directory notDot notDots (ways _ _ entry (by simp)) (ih same)
  | link notDot notDots entry _ ih => exact .link notDot notDots (ways _ _ entry (by simp)) (ih same)

section

variable (opened : files.opens path = some place)

include opened

theorem lookup {now : Found} (same : now.leaf = some place) (ends : more.Ends now) : more.lookup path = .ok now := by
  obtain ⟨found, led, leaf⟩ := opens_eq_some.1 opened
  exact more.resolve_eq_ok.2 (ways.leads (files.resolve_eq_ok.1 led) (same.trans leaf.symm) ends)

theorem lookup_file {contents : ByteArray} (stored : more.node place = some (.file contents)) :
    more.lookup path = .ok (.file place) :=
  ways.lookup opened rfl ⟨contents, stored⟩

theorem lookup_gone (gone : more.node place = none) :
    ∃ parent name, more.lookup path = .ok (.missing parent name) := by
  rcases List.eq_nil_or_concat' place with rfl | ⟨parent, name, rfl⟩
  · cases more.top.symm.trans gone
  · exact ⟨parent, name, ways.lookup opened rfl gone⟩

end

end

end KeepsWays

end Files

namespace Disk

/-- Every entry is still there. -/
def Grows (disk reached : Disk) : Prop := disk.files.Extends reached.files

instance : Std.Refl Grows where
  refl _ _ _ there := there

instance : IsTrans Disk Grows where
  trans _ _ _ first second location entry there := second location entry (first location entry there)

theorem mkdir_grows (path : List String) : Program.Moves Grows (mkdir path) := by
  intro disk
  rcases List.eq_nil_or_concat' path with rfl | ⟨up, name, rfl⟩
  · exact Std.Refl.refl disk
  · rw [exec_mkdir]
    split
    iterate 3 · exact Std.Refl.refl disk
    · next parent above =>
      split
      · exact Std.Refl.refl disk
      · next free =>
        have absent : disk.files.node (parent ++ [name]) = none := by simpa using free
        have settable := settable_of_absent (disk.files.lookup_holds above) absent (some .directory)
        rw [exec_put settable]
        exact extends_after settable absent

theorem createDirAll_grows (path : List String) : Program.Moves Grows (createDirAll path) :=
  createDirAll_moves mkdir_grows path

end Disk

end Codel00p
