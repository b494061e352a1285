import Codel00p.Lib.Text

/-! A file system with symbolic links: its entries, and how a path is resolved in it. -/

namespace Codel00p

/-- How the text of a path ends, which tells what it may lead to. -/
inductive Ending where
  | name
  /-- With a slash, or with nothing to begin with: only a directory will do. -/
  | slash
  /-- With a dot, which is looked up in a directory that has to be there. -/
  | dot
  deriving DecidableEq, Repr

/-- A path as a text has it: the dots between its names say nothing. -/
structure Path where
  absolute : Bool
  names : List String
  ending : Ending
  deriving DecidableEq, Repr

namespace Path

def parse (text : String) : Path :=
  let pieces := splitPieces (· == '/') text
  { absolute := text.toList.head? == some '/',
    names := pieces.filter (· ≠ "."),
    ending :=
      if text.toList.getLast? == some '/' || text.isEmpty then .slash
      else if pieces.getLast? == some "." then .dot
      else .name }

/-- The names that are followed from the top: what only leads to a directory ends in a dot. -/
def steps (path : Path) : List String :=
  match path.ending with
  | .name => path.names
  | _ => path.names ++ ["."]

def parent (path : Path) : Option (List String) :=
  if path.names.isEmpty then none else some path.names.dropLast

/-- A path that starts at a place, unless it starts at the top itself. -/
def join (root : List String) (path : Path) : Path :=
  if path.absolute then path else { path with absolute := true, names := root ++ path.names }

end Path

/-- The text of a path from the top. -/
def displayNames (names : List String) : String := "/" ++ "/".intercalate names

/-- Where an entry is: the names from the top directory down, with no link among them. -/
abbrev Location := List String

instance decidableEqContents : DecidableEq ByteArray := fun one other =>
  decidable_of_iff (one.data = other.data) ByteArray.ext_iff.symm

/-- An entry of a file system. -/
inductive Node where
  | file (contents : ByteArray)
  | directory
  /-- A link with the names of its target, which start at the top or next to the link. -/
  | symlink (absolute : Bool) (target : List String)
  deriving DecidableEq

/-- The entries of a file system: everything but the top is in a directory. -/
structure Files where
  node : Location → Option Node
  top : node [] = some .directory
  closed : ∀ parent name, node (parent ++ [name]) ≠ none → node parent = some .directory

/-- Why an operation of a file system fails. -/
inductive IoError where
  | notFound
  | notADirectory
  | isADirectory
  | alreadyExists
  | tooManyLinks
  | other (message : String)
  deriving DecidableEq, Repr

def IoError.message : IoError → String
  | .notFound => "No such file or directory (os error 2)"
  | .notADirectory => "Not a directory (os error 20)"
  | .isADirectory => "Is a directory (os error 21)"
  | .alreadyExists => "File exists (os error 17)"
  | .tooManyLinks => "Too many levels of symbolic links (os error 40)"
  | .other message => message

/-- What a path leads to when all its links are followed. -/
inductive Found where
  | file (location : Location)
  | directory (location : Location)
  /-- Nothing, but it could be created under a name in a directory. -/
  | missing (parent : Location) (name : String)
  deriving DecidableEq, Repr

/-- How many links may be followed for one path. -/
def maxLinks : Nat := 40

namespace Files

variable (files : Files)

def follow (jump : Location → List String → Except IoError Found) :
    Location → List String → Except IoError Found
  | current, [] => .ok (.directory current)
  | current, name :: rest =>
    if name = "." then follow jump current rest
    else if name = ".." then follow jump current.dropLast rest
    else match files.node (current ++ [name]) with
      | none => if rest.isEmpty then .ok (.missing current name) else .error .notFound
      | some (.file _) =>
        if rest.isEmpty then .ok (.file (current ++ [name])) else .error .notADirectory
      | some .directory => follow jump (current ++ [name]) rest
      | some (.symlink absolute target) => jump (if absolute then [] else current) (target ++ rest)

/-- Follow names from a directory through at most so many links. -/
def resolve : Nat → Location → List String → Except IoError Found
  | 0 => files.follow fun _ _ => .error .tooManyLinks
  | links + 1 => files.follow (resolve links)

/-- What a path from the top leads to. -/
def lookup (path : List String) : Except IoError Found := files.resolve maxLinks [] path

/-- Where the entry is that a path leads to. -/
def canonicalize (path : List String) : Except IoError Location :=
  match files.lookup path with
  | .ok (.file location) => .ok location
  | .ok (.directory location) => .ok location
  | .ok (.missing _ _) => .error .notFound
  | .error error => .error error

/-- Whether a path leads to an entry. -/
def pathExists (path : List String) : Bool := (files.canonicalize path).toOption.isSome

def isDirectory (path : List String) : Bool :=
  match files.lookup path with
  | .ok (.directory _) => true
  | _ => false

def opens (path : List String) : Option Location :=
  match files.lookup path with
  | .ok (.file location) => some location
  | .ok (.missing parent name) => some (parent ++ [name])
  | _ => none

/-- The case of a link, which may have used up the links. -/
def jump (links : Nat) (current : Location) (path : List String) : Except IoError Found :=
  match links with
  | 0 => .error .tooManyLinks
  | links + 1 => files.resolve links current path

@[simp] theorem resolve_nil (links : Nat) (current : Location) :
    files.resolve links current [] = .ok (.directory current) := by
  cases links <;> rfl

@[simp] theorem resolve_dot (links : Nat) (current : Location) (rest : List String) :
    files.resolve links current ("." :: rest) = files.resolve links current rest := by
  cases links <;> simp [resolve, follow]

@[simp] theorem resolve_dots (links : Nat) (current : Location) (rest : List String) :
    files.resolve links current (".." :: rest) = files.resolve links current.dropLast rest := by
  cases links <;> simp [resolve, follow]

theorem resolve_name (links : Nat) (current : Location) {name : String} (rest : List String)
    (notDot : name ≠ ".") (notDots : name ≠ "..") :
    files.resolve links current (name :: rest) =
      match files.node (current ++ [name]) with
      | none => if rest.isEmpty then .ok (.missing current name) else .error .notFound
      | some (.file _) =>
        if rest.isEmpty then .ok (.file (current ++ [name])) else .error .notADirectory
      | some .directory => files.resolve links (current ++ [name]) rest
      | some (.symlink absolute target) =>
        files.jump links (if absolute then [] else current) (target ++ rest) := by
  cases links <;> simp [resolve, follow, notDot, notDots, jump]

/-- What a path leads to, name by name. -/
inductive Leads : Nat → Location → List String → Found → Prop
  | here (links : Nat) (current : Location) : Leads links current [] (.directory current)
  | dot {links current rest found} (more : Leads links current rest found) : Leads links current ("." :: rest) found
  | dots {links current rest found} (more : Leads links current.dropLast rest found) :
      Leads links current (".." :: rest) found
  | absent {links current name} (notDot : name ≠ ".") (notDots : name ≠ "..")
      (entry : files.node (current ++ [name]) = none) : Leads links current [name] (.missing current name)
  | file {links current name contents} (notDot : name ≠ ".") (notDots : name ≠ "..")
      (entry : files.node (current ++ [name]) = some (.file contents)) :
      Leads links current [name] (.file (current ++ [name]))
  | directory {links current name rest found} (notDot : name ≠ ".") (notDots : name ≠ "..")
      (entry : files.node (current ++ [name]) = some .directory) (more : Leads links (current ++ [name]) rest found) :
      Leads links current (name :: rest) found
  | link {links current name rest found absolute target} (notDot : name ≠ ".") (notDots : name ≠ "..")
      (entry : files.node (current ++ [name]) = some (.symlink absolute target))
      (more : Leads links (if absolute then [] else current) (target ++ rest) found) :
      Leads (links + 1) current (name :: rest) found

variable {name : String} {links : Nat} {current location : Location} {path more : List String} {found : Found}

/-- Names are followed to where they lead. -/
theorem resolve_eq_ok : files.resolve links current path = .ok found ↔ files.Leads links current path found := by
  constructor
  · intro resolved
    -- A link uses up one of the links, and any other name one of the names.
    induction links using Nat.strongRecOn generalizing current path with
    | ind links fewer =>
      induction path generalizing current with
      | nil =>
        cases (files.resolve_nil links current).symm.trans resolved
        exact .here links current
      | cons name rest ih =>
        by_cases isDot : name = "."
        · exact isDot ▸ .dot (ih (by simpa [isDot] using resolved))
        by_cases isDots : name = ".."
        · exact isDots ▸ .dots (ih (by simpa [isDots] using resolved))
        rw [files.resolve_name links current rest isDot isDots] at resolved
        rcases entry : files.node (current ++ [name]) with _ | ⟨contents⟩ | _ | ⟨absolute, target⟩ <;>
          simp only [entry] at resolved
        · cases rest <;> cases resolved
          exact .absent isDot isDots entry
        · cases rest <;> cases resolved
          exact .file isDot isDots entry
        · exact .directory isDot isDots entry (ih resolved)
        · cases links with
          | zero => cases resolved
          | succ links => exact .link isDot isDots entry (fewer links (Nat.lt_succ_self links) resolved)
  · intro leads
    induction leads with
    | here links current => exact files.resolve_nil links current
    | dot _ ih => simpa using ih
    | dots _ ih => simpa using ih
    | absent notDot notDots entry => simp [files.resolve_name _ _ _ notDot notDots, entry]
    | file notDot notDots entry => simp [files.resolve_name _ _ _ notDot notDots, entry]
    | directory notDot notDots entry _ ih => simpa [files.resolve_name _ _ _ notDot notDots, entry] using ih
    | link notDot notDots entry _ ih => simpa [files.resolve_name _ _ _ notDot notDots, entry, jump] using ih

theorem resolve_append (found : files.resolve links current path = .ok (.directory location)) :
    ∃ left, ∀ more, files.resolve links current (path ++ more) = files.resolve left location more := by
  have leads := files.resolve_eq_ok.1 found
  generalize ends : Found.directory location = reached at leads
  clear found
  induction leads with
  | here links current =>
    cases ends
    exact ⟨links, fun more => rfl⟩
  | dot _ ih => simpa using ih ends
  | dots _ ih => simpa using ih ends
  | absent => cases ends
  | file => cases ends
  | directory notDot notDots entry _ ih => simpa [files.resolve_name _ _ _ notDot notDots, entry] using ih ends
  | link notDot notDots entry _ ih => simpa [files.resolve_name _ _ _ notDot notDots, entry, jump] using ih ends

variable {files} in
/-- What comes before the last names of a path leads to a directory. -/
theorem Leads.before {whole : List String} (leads : files.Leads links current whole found) (split : whole = path ++ more)
    (goesOn : more ≠ []) : ∃ location, files.Leads links current path (.directory location) := by
  -- A path without names stays where it is, and else the first name is that of the whole path.
  induction leads generalizing path <;> cases path <;> try exact ⟨_, .here _ _⟩
  case here.cons => cases split
  all_goals
    replace split := List.cons.inj split
    obtain ⟨rfl, split⟩ := split
  case dot.cons ih _ => exact (ih split).imp fun _ => .dot
  case dots.cons ih _ => exact (ih split).imp fun _ => .dots
  case directory.cons notDot notDots entry _ ih _ => exact (ih split).imp fun _ => .directory notDot notDots entry
  case link.cons notDot notDots entry _ ih _ =>
    exact (ih ((congrArg _ split).trans (List.append_assoc ..).symm)).imp fun _ => .link notDot notDots entry
  all_goals exact absurd (List.append_eq_nil_iff.1 split.symm).2 goesOn

theorem resolve_append_error (stuck : ∀ location, files.resolve links current path ≠ .ok (.directory location))
    (goesOn : more ≠ []) : ∃ error, files.resolve links current (path ++ more) = .error error := by
  cases reached : files.resolve links current (path ++ more) with
  | error error => exact ⟨error, rfl⟩
  | ok found =>
    obtain ⟨location, before⟩ := (files.resolve_eq_ok.1 reached).before rfl goesOn
    exact absurd (files.resolve_eq_ok.2 before) (stuck location)

def Holds : Found → Prop
  | .file location => ∃ contents, files.node location = some (.file contents)
  | .directory location => files.node location = some .directory
  | .missing parent name =>
    files.node parent = some .directory ∧ files.node (parent ++ [name]) = none

theorem node_dropLast (inside : files.node location = some .directory) :
    files.node location.dropLast = some .directory := by
  rcases List.eq_nil_or_concat' location with rfl | ⟨parent, name, rfl⟩
  · exact inside
  · rw [List.dropLast_concat]
    exact files.closed parent name (by simp [inside])

variable {files} in
theorem Leads.holds (leads : files.Leads links current path found) (inside : files.node current = some .directory) :
    files.Holds found := by
  induction leads with
  | here => exact inside
  | dot _ ih => exact ih inside
  | dots _ ih => exact ih (files.node_dropLast inside)
  | absent _ _ entry => exact ⟨inside, entry⟩
  | file _ _ entry => exact ⟨_, entry⟩
  | directory _ _ entry _ ih => exact ih entry
  | link _ _ _ _ ih =>
    apply ih
    split
    · exact files.top
    · exact inside

def Proper (location : Location) : Prop := ∀ name ∈ location, name ≠ "." ∧ name ≠ ".."

theorem Proper.snoc (proper : Proper current) (notDot : name ≠ ".")
    (notDots : name ≠ "..") : Proper (current ++ [name]) := by
  intro other member
  rcases List.mem_append.1 member with old | new
  · exact proper other old
  · cases List.mem_singleton.1 new
    exact ⟨notDot, notDots⟩

variable {files} in
theorem Leads.proper (leads : files.Leads links current path found) (proper : Proper current)
    (there : found = .file location ∨ found = .directory location) : Proper location := by
  induction leads with
  | here =>
    rcases there with same | same <;> cases same
    exact proper
  | dot _ ih => exact ih proper there
  | dots _ ih => exact ih (fun name member => proper name (List.dropLast_subset _ member)) there
  | absent => rcases there with same | same <;> cases same
  | file notDot notDots =>
    rcases there with same | same <;> cases same
    exact proper.snoc notDot notDots
  | directory notDot notDots _ _ ih => exact ih (proper.snoc notDot notDots) there
  | link _ _ _ _ ih =>
    refine ih ?_ there
    split
    · exact nofun
    · exact proper

def Settable (location : Location) (entry : Option Node) : Prop :=
  location ≠ [] ∧ files.node location.dropLast = some .directory ∧
    (entry = some .directory ∨ files.node location ≠ some .directory)

instance (location : Location) (entry : Option Node) : Decidable (files.Settable location entry) :=
  inferInstanceAs (Decidable (_ ∧ _ ∧ (_ ∨ _)))

/-- Change one entry. -/
def set (location : Location) (entry : Option Node) (settable : files.Settable location entry) :
    Files where
  node other := if other = location then entry else files.node other
  top := by rw [if_neg settable.1.symm, files.top]
  closed parent name present := by
    obtain ⟨nonempty, above, kept⟩ := settable
    -- The directory above the entry is not the entry, and an entry that was a directory stays one.
    by_cases own : parent ++ [name] = location
    · have parentOf : location.dropLast = parent := by rw [← own, List.dropLast_concat]
      have different : parent ≠ location := by
        intro same
        have := congrArg List.length (own.trans same.symm)
        simp at this
      rw [if_neg different, ← parentOf]
      exact above
    · rw [if_neg own] at present
      have old := files.closed parent name present
      by_cases same : parent = location
      · rw [if_pos same]
        exact kept.resolve_right fun wrong => wrong (same ▸ old)
      · rw [if_neg same]
        exact old

/-- One file system has every entry of another. -/
def Extends (more : Files) : Prop :=
  ∀ location entry, files.node location = some entry → more.node location = some entry

variable {files}

theorem Leads.extended {more : Files}
    (leads : files.Leads links current path (.directory location)) (extends_ : files.Extends more) :
    more.Leads links current path (.directory location) := by
  generalize ends : Found.directory location = found at leads ⊢
  induction leads with
  | here links current => exact .here links current
  | dot _ ih => exact .dot (ih ends)
  | dots _ ih => exact .dots (ih ends)
  | absent => cases ends
  | file => cases ends
  | directory notDot notDots entry _ ih => exact .directory notDot notDots (extends_ _ _ entry) (ih ends)
  | link notDot notDots entry _ ih => exact .link notDot notDots (extends_ _ _ entry) (ih ends)

variable (files)

theorem lookup_holds (resolved : files.lookup path = .ok found) : files.Holds found :=
  (files.resolve_eq_ok.1 resolved).holds files.top

theorem canonicalize_eq_ok (led : files.canonicalize path = .ok location) :
    files.lookup path = .ok (.file location) ∨ files.lookup path = .ok (.directory location) := by
  unfold canonicalize at led
  split at led
  · next there => exact .inl (by cases led; exact there)
  · next there => exact .inr (by cases led; exact there)
  · exact nomatch led
  · exact nomatch led

theorem canonicalize_proper (found : files.canonicalize path = .ok location) : Proper location := by
  have top : Proper [] := nofun
  rcases files.canonicalize_eq_ok found with there | there
  · exact (files.resolve_eq_ok.1 there).proper top (.inl rfl)
  · exact (files.resolve_eq_ok.1 there).proper top (.inr rfl)

theorem lookup_of_canonicalize {contents : ByteArray} (led : files.canonicalize path = .ok location)
    (stored : files.node location = some (.file contents)) : files.lookup path = .ok (.file location) := by
  rcases files.canonicalize_eq_ok led with there | there
  · exact there
  · -- A directory is no file.
    cases stored.symm.trans (files.lookup_holds there)

theorem lookup_snoc {parent : Location}
    (inside : files.lookup path = .ok (.directory parent)) (notDot : name ≠ ".") (notDots : name ≠ "..")
    (plain : ∀ absolute target, files.node (parent ++ [name]) ≠ some (.symlink absolute target)) :
    files.lookup (path ++ [name]) =
      match files.node (parent ++ [name]) with
      | none => .ok (.missing parent name)
      | some .directory => .ok (.directory (parent ++ [name]))
      | some _ => .ok (.file (parent ++ [name])) := by
  obtain ⟨left, goesOn⟩ := files.resolve_append inside
  rw [lookup, goesOn, files.resolve_name left parent [] notDot notDots]
  rcases entry : files.node (parent ++ [name]) with _ | ⟨contents⟩ | _ | ⟨absolute, target⟩
  · rfl
  · rfl
  · simp
  · exact absurd entry (plain absolute target)

theorem lookup_append_error (stuck : ∀ parent, files.lookup path ≠ .ok (.directory parent)) (goesOn : more ≠ []) :
    ∃ error, files.lookup (path ++ more) = .error error :=
  files.resolve_append_error stuck goesOn

/-- The entry that the first part of a path leads to, as much of the path as leads to one. -/
def nearest : List String → Location
  | [] => []
  | name :: up =>
    match files.canonicalize (name :: up).reverse with
    | .ok location => location
    | .error _ => nearest up

variable {files}

theorem opens_dot (path : List String) : files.opens (path ++ ["."]) = none := by
  by_cases found : ∃ location, files.lookup path = .ok (.directory location)
  · obtain ⟨location, there⟩ := found
    obtain ⟨left, goesOn⟩ := files.resolve_append there
    rw [opens, lookup, goesOn, resolve_dot, resolve_nil]
  · obtain ⟨error, failed⟩ := files.lookup_append_error (not_exists.1 found) (List.cons_ne_nil "." [])
    rw [opens, failed]

theorem opens_snoc {up : List String} {parent place : Location}
    (inside : files.lookup up = .ok (.directory parent)) (notDot : name ≠ ".") (notDots : name ≠ "..")
    (plain : ∀ absolute target, files.node (parent ++ [name]) ≠ some (.symlink absolute target))
    (opened : files.opens (up ++ [name]) = some place) : place = parent ++ [name] := by
  rw [opens, files.lookup_snoc inside notDot notDots plain] at opened
  rcases entry : files.node (parent ++ [name]) with _ | ⟨contents⟩ | _ | ⟨absolute, target⟩
  · simpa [entry] using opened.symm
  · simpa [entry] using opened.symm
  · simp [entry] at opened
  · exact absurd entry (plain absolute target)

theorem names_of_opens {path : Path} (opened : files.opens path.steps = some location) : path.steps = path.names := by
  unfold Path.steps at opened ⊢
  split
  · rfl
  · next other =>
    split at opened
    · next plain => exact absurd plain other
    · rw [opens_dot] at opened
      exact nomatch opened

theorem canonicalize_eq_nearest (found : files.pathExists path = true) :
    files.canonicalize path = .ok (files.nearest path.reverse) := by
  unfold pathExists at found
  rcases there : files.canonicalize path with error | location
  · rw [there] at found
    exact nomatch found
  · cases reversed : path.reverse with
    | nil =>
      -- The top leads to itself.
      rw [List.reverse_eq_nil_iff.1 reversed, canonicalize, lookup, resolve_nil] at there
      exact there.symm
    | cons name up => rw [nearest, ← reversed, List.reverse_reverse, there]

theorem pathExists_of_isDirectory (found : files.isDirectory path = true) : files.pathExists path = true := by
  unfold isDirectory at found
  split at found
  · next there => simp [pathExists, canonicalize, there, Except.toOption]
  · exact nomatch found

theorem pathExists_append_eq_false
    (stuck : ∀ parent, files.lookup path ≠ .ok (.directory parent)) (goesOn : more ≠ []) :
    files.pathExists (path ++ more) = false := by
  obtain ⟨error, failed⟩ := files.lookup_append_error stuck goesOn
  simp [pathExists, canonicalize, failed, Except.toOption]

theorem node_below_absent (absent : files.node location = none) (name : String) :
    files.node (location ++ [name]) = none := by
  by_contra present
  rw [files.closed location name present] at absent
  exact nomatch absent

theorem nearest_of_directory
    (found : files.lookup path.reverse = .ok (.directory location)) : files.nearest path = location := by
  cases path with
  | nil =>
    cases (files.resolve_nil maxLinks []).symm.trans found
    rfl
  | cons name up => rw [nearest, canonicalize, found]

theorem nearest_of_absent {up : List String} (absent : files.pathExists (name :: up).reverse = false) :
    files.nearest (name :: up) = files.nearest up := by
  unfold pathExists at absent
  rw [nearest]
  split
  · next location found =>
    rw [found] at absent
    exact nomatch absent
  · rfl

end Files

end Codel00p
