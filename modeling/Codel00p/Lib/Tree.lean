import Mathlib.Data.List.Dedup
import Codel00p.Lib.Files
import Codel00p.Lib.Program

/-! File systems as trees: a directory lists its entries, and an entry moves with all that is below it. -/

namespace Codel00p

inductive Tree where
  | file (contents : ByteArray)
  | folder (entries : List (String × Tree))
  /-- A link with the names of its target, which start at the top or next to the link. -/
  | link (absolute : Bool) (target : List String)

namespace Tree

def get : Location → Tree → Option Tree
  | [], tree => some tree
  | name :: rest, .folder entries => (entries.lookup name).bind (get rest)
  | _ :: _, .file _ => none
  | _ :: _, .link _ _ => none

/-- What kind of entry a tree is. -/
def node : Tree → Node
  | .file contents => .file contents
  | .folder _ => .directory
  | .link absolute target => .symlink absolute target

def replaceEntry (name : String) (entry : Option Tree) (entries : List (String × Tree)) : List (String × Tree) :=
  (entry.map fun tree => (name, tree)).toList ++ entries.filter (·.1 ≠ name)

/-- Replace or remove the entry at a location; nothing happens where there is no directory for it. -/
def set : Location → Option Tree → List (String × Tree) → List (String × Tree)
  | [], _, entries => entries
  | [name], entry, entries => replaceEntry name entry entries
  | name :: next :: rest, entry, entries =>
    match entries.lookup name with
    | some (.folder below) => replaceEntry name (some (.folder (set (next :: rest) entry below))) entries
    | _ => entries

@[simp] theorem get_nil (tree : Tree) : get [] tree = some tree := rfl

@[simp] theorem get_folder (name : String) (rest : Location) (entries : List (String × Tree)) :
    get (name :: rest) (.folder entries) = (entries.lookup name).bind (get rest) := rfl

theorem get_append (first more : Location) (tree : Tree) : get (first ++ more) tree = (get first tree).bind (get more) := by
  induction first generalizing tree with
  | nil => rfl
  | cons name rest ih =>
    cases tree with
    | file contents => rfl
    | link absolute target => rfl
    | folder entries =>
      rw [List.cons_append, get_folder, get_folder]
      cases entries.lookup name with
      | none => rfl
      | some child => exact ih child

theorem lookup_entry (other key : String) (tree : Tree) (rest : List (String × Tree)) :
    ((key, tree) :: rest).lookup other = if other = key then some tree else rest.lookup other := by
  by_cases same : other = key
  · simp [same]
  · rw [List.lookup_cons, beq_eq_false_iff_ne.2 same, if_neg same]

theorem lookup_replaceEntry (name other : String) (entry : Option Tree) (entries : List (String × Tree)) :
    (replaceEntry name entry entries).lookup other = if other = name then entry else entries.lookup other := by
  have removed : (entries.filter (·.1 ≠ name)).lookup other =
      if other = name then none else entries.lookup other := by
    induction entries with
    | nil => simp
    | cons first rest ih =>
      obtain ⟨key, tree⟩ := first
      by_cases same : key = name
      · rw [List.filter_cons_of_neg (by simp [same]), ih, lookup_entry, same]
        split <;> rfl
      · rw [List.filter_cons_of_pos (by simp [same]), lookup_entry, lookup_entry, ih]
        split
        · next own => rw [if_neg (own ▸ same)]
        · rfl
  cases entry with
  | none => simpa [replaceEntry] using removed
  | some tree =>
    rw [replaceEntry, Option.map_some, Option.toList_some, List.singleton_append, lookup_entry, removed]
    split <;> rfl

theorem get_set_own {location : Location} (entry : Option Tree) (more : Location) {entries : List (String × Tree)}
    (nonempty : location ≠ []) {siblings : List (String × Tree)}
    (inside : get location.dropLast (.folder entries) = some (.folder siblings)) :
    get (location ++ more) (.folder (set location entry entries)) = entry.bind (get more) := by
  induction location generalizing entries with
  | nil => exact absurd rfl nonempty
  | cons name rest ih =>
    cases rest with
    | nil => simp [set, lookup_replaceEntry]
    | cons next rest =>
      rw [List.dropLast_cons_of_ne_nil (List.cons_ne_nil next rest), get_folder] at inside
      cases child : entries.lookup name with
      | none => simp [child] at inside
      | some tree =>
        cases tree with
        | file | link => cases names : (next :: rest).dropLast <;> simp [child, names, get] at inside
        | folder below =>
          rw [child, Option.bind_some] at inside
          have found := ih (List.cons_ne_nil next rest) inside
          simpa [set, child, lookup_replaceEntry] using found

theorem node_set_other {location other : Location} (entry : Option Tree) {entries : List (String × Tree)}
    (apart : ¬location <+: other) :
    (get other (.folder (set location entry entries))).map node = (get other (.folder entries)).map node := by
  induction location generalizing other entries with
  | nil => exact absurd List.nil_prefix apart
  | cons name rest ih =>
    cases other with
    | nil => rfl
    | cons first others =>
      cases rest with
      | nil =>
        have different : first ≠ name := fun same => apart (by simp [same])
        simp [set, lookup_replaceEntry, different]
      | cons next rest =>
        simp only [set]
        split
        · next below child =>
          by_cases same : first = name
          · subst same
            have deeper : ¬(next :: rest) <+: others := fun found => apart (by simpa using found)
            simpa [lookup_replaceEntry, child] using ih deeper
          · simp [lookup_replaceEntry, same]
        · rfl

end Tree

structure FileTree where
  entries : List (String × Tree)

namespace FileTree

variable (tree : FileTree)

def get (location : Location) : Option Tree := Tree.get location (.folder tree.entries)

/-- The kind of the entry at a location. -/
def node (location : Location) : Option Node := (tree.get location).map Tree.node

theorem node_parent {parent : Location} {name : String} (present : tree.node (parent ++ [name]) ≠ none) :
    tree.node parent = some .directory := by
  unfold node get at *
  rw [Tree.get_append] at present
  cases above : Tree.get parent (.folder tree.entries) with
  | none => simp [above] at present
  | some found =>
    cases found with
    | folder entries => rfl
    | file | link => simp [above, Tree.get] at present

/-- The tree as a file system in which paths are resolved. -/
def files : Files where
  node := tree.node
  top := rfl
  closed _ _ present := tree.node_parent present

/-- Replace or remove an entry. -/
def set (location : Location) (entry : Option Tree) : FileTree := ⟨Tree.set location entry tree.entries⟩

/-- The names that a directory lists: each once, and none for the directory itself or the one above it. -/
def names (location : Location) : List String :=
  match tree.get location with
  | some (.folder entries) => (entries.map (·.1)).dedup.filter fun name => name ≠ "." ∧ name ≠ ".."
  | _ => []

variable {location : Location}

variable {tree} in
theorem names_proper {name : String} (listed : name ∈ tree.names location) : name ≠ "." ∧ name ≠ ".." := by
  unfold names at listed
  split at listed
  · simpa using (List.mem_filter.1 listed).2
  · exact nomatch listed

theorem node_set_own (entry : Option Tree) (more : Location) (nonempty : location ≠ [])
    (inside : tree.node location.dropLast = some .directory) :
    (tree.set location entry).node (location ++ more) = (entry.bind (Tree.get more)).map Tree.node := by
  obtain ⟨above, found, isFolder⟩ := Option.map_eq_some_iff.1 inside
  cases above with
  | file | link => exact nomatch isFolder
  | folder siblings => exact congrArg (Option.map Tree.node) (Tree.get_set_own entry more nonempty found)

theorem node_set_other {other : Location} (entry : Option Tree) (apart : ¬location <+: other) :
    (tree.set location entry).node other = tree.node other :=
  Tree.node_set_other entry apart

def isFile (path : List String) : Bool :=
  match tree.files.lookup path with
  | .ok (.file _) => true
  | _ => false

/-- Where an entry is or would be: the directory above it is followed, the entry itself is not. -/
def entryAt (path : List String) : Except IoError Location :=
  match path.getLast? with
  | none => .error (.other "Device or resource busy (os error 16)")
  | some name =>
    match tree.files.lookup path.dropLast with
    | .error error => .error error
    | .ok (.missing _ _) => .error .notFound
    | .ok (.file _) => .error .notADirectory
    | .ok (.directory parent) => .ok (parent ++ [name])

end FileTree

abbrev TreeM := Program IoError FileTree

namespace TreeM

/-- Make a directory under a name that is not taken; a link at that name is not followed. -/
def mkdir (path : List String) : TreeM Unit := do
  let tree ← Program.reads id
  let location ← Program.ofExcept (tree.entryAt path)
  if (tree.node location).isSome then throw .alreadyExists
  else Program.change (·.set location (some (.folder [])))

/-- Get over an error if there is a directory anyway. -/
def findOr (path : List String) (error : IoError) : TreeM Unit := do
  if ← Program.reads (·.files.isDirectory path) then pure () else throw error

/-- Make a directory, or find that it is there. -/
def mkdirOrFind (path : List String) : TreeM Unit := do
  match ← Program.attempt (mkdir path) with
  | .ok _ => pure ()
  | .error error => findOr path error

/-- Make a directory and what is missing above it; the names are given from the last one up. -/
def createDirAll : List String → TreeM Unit
  | [] => pure ()
  | name :: up => do
    match ← Program.attempt (mkdir (name :: up).reverse) with
    | .ok _ => pure ()
    | .error .notFound =>
      createDirAll up
      mkdirOrFind (name :: up).reverse
    | .error error => findOr (name :: up).reverse error

/-- Create or truncate a file and write to it; a link is followed also where it leads to nothing. -/
def write (path : List String) (contents : ByteArray) : TreeM Unit := do
  match ← Program.reads (·.files.lookup path) with
  | .error error => throw error
  | .ok (.directory _) => throw .isADirectory
  | .ok (.file location) => Program.change (·.set location (some (.file contents)))
  | .ok (.missing parent name) => Program.change (·.set (parent ++ [name]) (some (.file contents)))

/-- Whether an entry may take the place of another one, or of none. -/
def replaces : Tree → Option Tree → Except IoError Unit
  | .folder _, some (.folder (_ :: _)) => .error (.other "Directory not empty (os error 39)")
  | .folder _, some (.folder []) | .folder _, none => .ok ()
  | .folder _, some _ => .error .notADirectory
  | _, some (.folder _) => .error .isADirectory
  | _, _ => .ok ()

/-- Move an entry with all that is below it. -/
def rename (source target : List String) : TreeM Unit := do
  let tree ← Program.reads id
  let old ← Program.ofExcept (tree.entryAt source)
  let new ← Program.ofExcept (tree.entryAt target)
  match tree.get old with
  | none => throw .notFound
  | some entry =>
    if old = new then pure ()
    else if old <+: new then throw (.other "Invalid argument (os error 22)")
    else do
      Program.ofExcept (replaces entry (tree.get new))
      Program.change fun tree => (tree.set old none).set new (some entry)

/-- Remove a directory with all that is below it; a link is removed itself. -/
def removeDirAll (path : List String) : TreeM Unit := do
  let tree ← Program.reads id
  let location ← Program.ofExcept (tree.entryAt path)
  match tree.get location with
  | none => throw .notFound
  | some (.file _) => throw .notADirectory
  | some _ => Program.change (·.set location none)

end TreeM

/-! ### Depth -/

mutual

/-- How many names lead down to the deepest directory in a tree. -/
def Tree.depth : Tree → Nat
  | .file _ => 0
  | .link _ _ => 0
  | .folder entries => Tree.depthBelow entries

/-- How many names lead down to the deepest directory among some entries. -/
def Tree.depthBelow : List (String × Tree) → Nat
  | [] => 0
  | (_, tree) :: entries => max (tree.depth + 1) (Tree.depthBelow entries)

end

/-- How many names lead down to the deepest directory. -/
def FileTree.depth (tree : FileTree) : Nat := Tree.depthBelow tree.entries

end Codel00p
