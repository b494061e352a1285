import Mathlib.Data.List.Induction
import Codel00p.Lib.Tree

/-! Paths without links: they lead where their names say. -/

namespace Codel00p

open Program (Moves Triple exec_bind exec_reads exec_ofExcept exec_throw exec_change)

namespace Files

variable {files : Files}

variable (files) in
/-- No link is met along a path. -/
def Straight (path : Location) : Prop :=
  ∀ place, place <+: path → ∀ absolute target, files.node place ≠ some (.symlink absolute target)

theorem Straight.mono {path place : Location} (straight : files.Straight path) (within : place <+: path) :
    files.Straight place :=
  fun other below => straight other (below.trans within)

theorem lookup_directory_iff {path location : Location} (proper : Proper path) (straight : files.Straight path) :
    files.lookup path = .ok (.directory location) ↔ files.node path = some .directory ∧ location = path := by
  induction path using List.reverseRecOn generalizing location with
  | nil => simp [lookup, files.top, eq_comm]
  | append_singleton parent name ih =>
    have properParent : Proper parent := fun other member => proper other (by simp [member])
    have above {location : Location} := @ih location properParent (straight.mono (List.prefix_append _ _))
    obtain ⟨notDot, notDots⟩ := proper name (by simp)
    have plain := straight (parent ++ [name]) (List.prefix_refl _)
    by_cases inside : files.node parent = some .directory
    · rw [files.lookup_snoc (above.2 ⟨inside, rfl⟩) notDot notDots plain]
      rcases entry : files.node (parent ++ [name]) with _ | ⟨contents⟩ | _ | ⟨absolute, target⟩
      iterate 3 · simp [eq_comm]
      · exact absurd entry (plain absolute target)
    · -- Without a directory above it, there is nothing.
      have absent : files.node (parent ++ [name]) = none := by
        by_contra present
        exact inside (files.closed parent name present)
      obtain ⟨error, failed⟩ := files.lookup_append_error (fun place found => inside (above.1 found).1)
        (List.cons_ne_nil name [])
      simp [failed, absent]

section

variable {parent location : Location} {name : String} (proper : Proper (parent ++ [name]))
  (straight : files.Straight (parent ++ [name]))

include proper straight

theorem lookup_parent_iff : files.lookup parent = .ok (.directory location) ↔
    files.node parent = some .directory ∧ location = parent :=
  lookup_directory_iff (fun other member => proper other (by simp [member]))
    (straight.mono (List.prefix_append _ _))

theorem lookup_inside (inside : files.node parent = some .directory) :
    files.lookup (parent ++ [name]) =
      match files.node (parent ++ [name]) with
      | none => .ok (.missing parent name)
      | some .directory => .ok (.directory (parent ++ [name]))
      | some _ => .ok (.file (parent ++ [name])) := by
  obtain ⟨notDot, notDots⟩ := proper name (by simp)
  exact files.lookup_snoc ((lookup_parent_iff proper straight).2 ⟨inside, rfl⟩) notDot notDots
    (straight (parent ++ [name]) (List.prefix_refl _))

theorem lookup_outside (outside : files.node parent ≠ some .directory) :
    ∃ error, files.lookup (parent ++ [name]) = .error error :=
  files.lookup_append_error (fun _ found => outside ((lookup_parent_iff proper straight).1 found).1)
    (List.cons_ne_nil name [])

end

end Files

namespace FileTree

variable {tree : FileTree}

variable (tree) in
def contents (location : Location) : Option ByteArray :=
  match tree.node location with
  | some (.file contents) => some contents
  | _ => none

theorem contents_eq_some {location : Location} {bytes : ByteArray} :
    tree.contents location = some bytes ↔ tree.node location = some (.file bytes) := by
  unfold contents
  split <;> simp_all

theorem isFile_iff {path : Location} (proper : Files.Proper path) (straight : tree.files.Straight path) :
    tree.isFile path = true ↔ (tree.contents path).isSome := by
  rcases List.eq_nil_or_concat' path with rfl | ⟨parent, name, rfl⟩
  · simp [isFile, contents, Files.lookup, node, get, Tree.node]
  · by_cases inside : tree.node parent = some .directory
    · rw [isFile, Files.lookup_inside proper straight inside]
      simp only [contents]
      rcases entry : tree.node (parent ++ [name]) with _ | ⟨bytes⟩ | _ | ⟨absolute, target⟩
      iterate 3 · simp [files, entry]
      · exact absurd entry (straight _ (List.prefix_refl _) absolute target)
    · have absent : tree.node (parent ++ [name]) = none := by
        by_contra present
        exact inside (tree.node_parent present)
      obtain ⟨error, failed⟩ := Files.lookup_outside proper straight inside
      simp [isFile, failed, contents, absent]

theorem lookup_file {path : Location} (proper : Files.Proper path) (straight : tree.files.Straight path)
    {bytes : ByteArray} (there : tree.node path = some (.file bytes)) :
    tree.files.lookup path = .ok (.file path) := by
  rcases List.eq_nil_or_concat' path with rfl | ⟨parent, name, rfl⟩
  · exact nomatch there
  · have inside := tree.node_parent (show tree.node (parent ++ [name]) ≠ none by simp [there])
    rw [Files.lookup_inside proper straight inside, show tree.files.node _ = _ from there]

theorem entryAt_iff {parent : Location} {name : String} {location : Location}
    (proper : Files.Proper (parent ++ [name])) (straight : tree.files.Straight (parent ++ [name])) :
    tree.entryAt (parent ++ [name]) = .ok location ↔
      tree.node parent = some .directory ∧ location = parent ++ [name] := by
  rw [entryAt, List.getLast?_append, List.dropLast_concat]
  simp only [List.getLast?_singleton, Option.some_or]
  constructor
  · intro found
    split at found
    iterate 3 · exact nomatch found
    · next place there =>
      obtain ⟨inside, rfl⟩ := (Files.lookup_parent_iff proper straight).1 there
      exact ⟨inside, (Except.ok.inj found).symm⟩
  · rintro ⟨inside, rfl⟩
    rw [(Files.lookup_parent_iff proper straight).2 ⟨inside, rfl⟩]

end FileTree

theorem FileTree.node_below (tree : FileTree) {place more : Location} (kind : tree.node place ≠ some .directory)
    (deeper : more ≠ []) : tree.node (place ++ more) = none := by
  unfold FileTree.node FileTree.get at kind ⊢
  rw [Tree.get_append]
  obtain ⟨first, rest, rfl⟩ := List.exists_cons_of_ne_nil deeper
  cases found : Tree.get place (.folder tree.entries) with
  | none => rfl
  | some entry =>
    cases entry with
    | file contents => rfl
    | link absolute target => rfl
    | folder entries => simp [found, Tree.node] at kind

theorem FileTree.node_set (tree : FileTree) {parent : Location} {name : String} (entry : Option Tree)
    (inside : tree.node parent = some .directory) (place : Location) :
    (tree.set (parent ++ [name]) entry).node place =
      if parent ++ [name] <+: place then
        (entry.bind (Tree.get (place.drop (parent ++ [name]).length))).map Tree.node
      else tree.node place := by
  by_cases below : (parent ++ [name]) <+: place
  · obtain ⟨more, rfl⟩ := below
    rw [if_pos (List.prefix_append _ _), List.drop_left]
    exact tree.node_set_own entry more (List.concat_ne_nil name parent) (by rwa [List.dropLast_concat])
  · rw [if_neg below, tree.node_set_other _ below]

/-! ### What the operations do on paths without links -/

/-- What making a directory may do: directories appear along its path where there was nothing. -/
def FileTree.Grows (path : Location) (before after : FileTree) : Prop :=
  ∀ place, after.node place = before.node place ∨
    (place <+: path ∧ before.node place = none ∧ after.node place = some .directory)

namespace FileTree.Grows

variable {path : Location} {before between after : FileTree}

theorem straight (grows : FileTree.Grows path before after) {other : Location}
    (plain : before.files.Straight other) : after.files.Straight other := by
  intro place within absolute target there
  rcases grows place with same | ⟨_, _, made⟩
  · exact plain place within absolute target (same.symm.trans there)
  · exact nomatch made.symm.trans there

theorem trans (first : FileTree.Grows path before between) (second : FileTree.Grows path between after) :
    FileTree.Grows path before after := by
  intro place
  rcases first place with same | ⟨within, absent, made⟩ <;>
    rcases second place with same' | ⟨within', absent', made'⟩
  · exact .inl (same'.trans same)
  · exact .inr ⟨within', same.symm.trans absent', made'⟩
  · exact .inr ⟨within, absent, same'.trans made⟩
  · exact nomatch made.symm.trans absent'

theorem contents (grows : FileTree.Grows path before after) (place : Location) :
    after.contents place = before.contents place := by
  rcases grows place with same | ⟨_, absent, made⟩
  · simp [FileTree.contents, same]
  · simp [FileTree.contents, absent, made]

end FileTree.Grows

namespace TreeM

/-- A step towards a directory, as long as there is no link on the way. -/
def Towards (path : Location) (before after : FileTree) : Prop :=
  before.files.Straight path → FileTree.Grows path before after

instance (path : Location) : Std.Refl (Towards path) := ⟨fun _ _ _ => .inl rfl⟩

instance (path : Location) : IsTrans FileTree (Towards path) :=
  ⟨fun _ _ _ first second plain => (first plain).trans (second ((first plain).straight plain))⟩

variable {path : Location} {tree : FileTree}

theorem mkdir_towards (proper : Files.Proper path) {place : Location} (within : place <+: path) :
    Moves (Towards path) (mkdir place) := by
  intro tree plain
  have properPlace : Files.Proper place := fun name member => proper name (within.subset member)
  simp only [mkdir, exec_bind, exec_reads, exec_ofExcept, id]
  rcases List.eq_nil_or_concat' place with rfl | ⟨parent, name, rfl⟩
  · exact fun _ => .inl rfl
  cases found : tree.entryAt (parent ++ [name]) with
  | error error => exact fun _ => .inl rfl
  | ok location =>
    obtain ⟨inside, rfl⟩ := (FileTree.entryAt_iff properPlace (plain.mono within)).1 found
    dsimp only
    split
    · exact fun _ => .inl rfl
    · next absent =>
      intro other
      rw [Option.not_isSome_iff_eq_none] at absent
      dsimp only [exec_change]
      rw [tree.node_set _ inside]
      by_cases below : (parent ++ [name]) <+: other
      · -- Nothing was below the place, and only the directory is there now.
        obtain ⟨more, rfl⟩ := below
        rw [if_pos (List.prefix_append _ _), List.drop_left]
        cases more with
        | nil => exact .inr ⟨by simpa using within, by simpa using absent, rfl⟩
        | cons first rest =>
          exact .inl (tree.node_below (by simp [absent]) (List.cons_ne_nil first rest)).symm
      · exact .inl (if_neg below)

theorem createDirAll_towards {path : Location} (proper : Files.Proper path) {names : List String}
    (within : names.reverse <+: path) : Moves (Towards path) (createDirAll names) := by
  induction names with
  | nil => exact .pure _
  | cons name up ih =>
    have makes := mkdir_towards proper within
    have finds : ∀ error, Moves (Towards path) (findOr (name :: up).reverse error) :=
      fun error => .bind (.reads _) fun _ => .ite (.pure _) (.throw _)
    have upper : up.reverse <+: path :=
      List.IsPrefix.trans (by rw [List.reverse_cons]; exact List.prefix_append _ _) within
    refine .bind (.attempt makes) fun outcome => ?_
    split
    · exact .pure _
    · refine .bind (ih upper) fun _ => .bind (.attempt makes) fun outcome => ?_
      cases outcome with
      | ok done => exact .pure _
      | error error => exact finds error
    · exact finds _

/-- Writing to a path without links changes that file, or nothing. -/
theorem write_effect (proper : Files.Proper path) (plain : tree.files.Straight path) (bytes : ByteArray) :
    Triple (· = tree) (write path bytes)
      (fun _ reached => ∀ place, reached.node place = if place = path then some (.file bytes) else tree.node place)
      fun _ reached => reached = tree := by
  constructor
  rintro tree rfl
  rcases List.eq_nil_or_concat' path with rfl | ⟨parent, name, rfl⟩
  · rfl
  simp only [write, exec_bind, exec_reads]
  by_cases inside : tree.node parent = some .directory
  · -- A file or nothing is there, so nothing is below the place.
    have changed : tree.node (parent ++ [name]) ≠ some .directory → ∀ place,
        (tree.set (parent ++ [name]) (some (.file bytes))).node place =
          if place = parent ++ [name] then some (.file bytes) else tree.node place := by
      intro kind place
      rw [tree.node_set _ inside]
      split
      · next below =>
        obtain ⟨more, rfl⟩ := below
        rw [List.drop_left]
        cases more with
        | nil => simp [Tree.node]
        | cons first rest =>
          rw [if_neg (by simp), tree.node_below kind (List.cons_ne_nil first rest)]
          rfl
      · next above => rw [if_neg fun same : place = _ => above (same ▸ List.prefix_refl _)]
    rw [Files.lookup_inside proper plain inside]
    rcases entry : tree.files.node (parent ++ [name]) with _ | ⟨contents⟩ | _ | ⟨absolute, target⟩
    · exact changed (by simp [show tree.node _ = none from entry])
    · exact changed (by simp [show tree.node _ = some (.file contents) from entry])
    · rfl
    · exact absurd entry (plain _ (List.prefix_refl _) absolute target)
  · obtain ⟨error, failed⟩ := Files.lookup_outside proper plain inside
    rw [failed]
    rfl

theorem node_moved {up up' : Location} {name name' : String} {entry : Tree}
    (found : tree.get (up ++ [name]) = some entry) (apart : ¬(up ++ [name]) <+: (up' ++ [name']))
    (inside : tree.node up' = some .directory) (place : Location) :
    ((tree.set (up ++ [name]) none).set (up' ++ [name']) (some entry)).node place =
      if (up' ++ [name']) <+: place then tree.node (up ++ [name] ++ place.drop (up' ++ [name']).length)
      else if (up ++ [name]) <+: place then none else tree.node place := by
  have present : tree.node (up ++ [name]) ≠ none := by simp [FileTree.node, found]
  have stays : (tree.set (up ++ [name]) none).node up' = some .directory := by
    rw [tree.node_set_other none fun within => apart (within.trans (List.prefix_append _ _))]
    exact inside
  rw [FileTree.node_set _ _ stays]
  split
  · simp only [FileTree.node, FileTree.get] at found ⊢
    rw [Tree.get_append, found]
  · exact tree.node_set none (tree.node_parent present) place

/-- Moving an entry between paths without links moves what is below it, or does nothing. -/
theorem rename_effect {source target : Location} (properSource : Files.Proper source)
    (properTarget : Files.Proper target) (plainSource : tree.files.Straight source)
    (plainTarget : tree.files.Straight target) (different : source ≠ target) :
    Triple (· = tree) (rename source target)
      (fun _ reached => ∀ place, reached.node place =
        if target <+: place then tree.node (source ++ place.drop target.length)
        else if source <+: place then none else tree.node place)
      fun _ reached => reached = tree := by
  constructor
  rintro tree rfl
  simp only [rename, exec_bind, exec_reads, exec_ofExcept, id]
  rcases List.eq_nil_or_concat' source with rfl | ⟨up, name, rfl⟩
  · rfl
  rcases List.eq_nil_or_concat' target with rfl | ⟨up', name', rfl⟩
  · cases tree.entryAt (up ++ [name]) <;> rfl
  cases old : tree.entryAt (up ++ [name]) with
  | error error => rfl
  | ok place =>
    obtain ⟨_, rfl⟩ := (FileTree.entryAt_iff properSource plainSource).1 old
    cases new : tree.entryAt (up' ++ [name']) with
    | error error => rfl
    | ok place =>
      obtain ⟨inside, rfl⟩ := (FileTree.entryAt_iff properTarget plainTarget).1 new
      dsimp only
      cases found : tree.get (up ++ [name]) with
      | none => rfl
      | some entry =>
        dsimp only
        rw [if_neg different]
        by_cases apart : (up ++ [name]) <+: (up' ++ [name'])
        · rw [if_pos apart]
          rfl
        rw [if_neg apart, exec_bind, exec_ofExcept]
        cases replaces entry (tree.get (up' ++ [name'])) with
        | error error => rfl
        | ok done => exact node_moved found apart inside

theorem removeDirAll_effect (proper : Files.Proper path) (plain : tree.files.Straight path) :
    Triple (· = tree) (removeDirAll path)
      (fun _ reached => ∀ place, reached.node place = if path <+: place then none else tree.node place)
      fun _ reached => reached = tree := by
  constructor
  rintro tree rfl
  simp only [removeDirAll, exec_bind, exec_reads, exec_ofExcept, id]
  rcases List.eq_nil_or_concat' path with rfl | ⟨up, name, rfl⟩
  · rfl
  cases found : tree.entryAt (up ++ [name]) with
  | error error => rfl
  | ok location =>
    obtain ⟨inside, rfl⟩ := (FileTree.entryAt_iff proper plain).1 found
    rcases there : tree.get (up ++ [name]) with _ | ⟨contents⟩ | _ | _
    iterate 2 · simp [there, exec_throw]
    all_goals simp only [there]; exact tree.node_set none inside

end TreeM

end Codel00p
