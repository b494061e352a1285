import Codel00p.Lib.Assoc

/-!
Maps whose entries are kept under names as they are written, and merged under what the names stand for.

The names are merged in their order, which need not be the order in which the entries were made.
-/

namespace Codel00p.Assoc

variable {κ β γ : Type} [DecidableEq κ] [LT κ] [DecidableLT κ]

/-- Updates of entries in the order in which they are made, each under a name. -/
abbrev Updates (κ β : Type) := List (κ × (Option β → β))

def write (entries : List (κ × β)) (update : κ × (Option β → β)) : List (κ × β) :=
  insert update.1 (update.2 (entries.lookup update.1)) entries

/-- The entries that updates leave under the names as they are written. -/
def written (updates : Updates κ β) : List (κ × β) := updates.foldl write []

def entryOf (updates : Updates κ β) : Option β := updates.foldl (fun old (_, update) => some (update old)) none

/-- Entries under what their names stand for, put there in the order of the names. -/
def rekey (stands : κ → κ) (entries : List (κ × β)) : List (κ × β) :=
  entries.foldl (fun rekeyed entry => insert (stands entry.1) entry.2 rekeyed) []

def rename (stands : κ → κ) (updates : Updates κ β) : Updates κ β :=
  updates.map fun (name, update) => (stands name, update)

structure Greatest (stands : κ → κ) (updates : Updates κ β) (key name : κ) : Prop where
  used : name ∈ updates.map (·.1)
  standsFor : stands name = key
  greatest : ∀ other ∈ updates.map (·.1), stands other = key → ¬name < other

/--
The updates under the greatest name for a key leave on their own what all updates for the key leave.

Entries are compared only as far as they are viewed.
-/
def Settled (view : β → γ) (stands : κ → κ) (updates : Updates κ β) (key : κ) : Prop :=
  ∀ name, Greatest stands updates key name →
    (entryOf (updates.filter (·.1 = name))).map view = (entryOf (updates.filter (stands ·.1 = key))).map view

theorem written_append (updates later : Updates κ β) :
    written (updates ++ later) = later.foldl write (written updates) :=
  List.foldl_append

/-! ### What is found -/

theorem lookup_written (updates : Updates κ β) (name : κ) :
    (written updates).lookup name = entryOf (updates.filter (·.1 = name)) := by
  have general : ∀ entries : List (κ × β),
      (updates.foldl write entries).lookup name =
        (updates.filter (·.1 = name)).foldl (fun old (_, update) => some (update old)) (entries.lookup name) := by
    induction updates with
    | nil => exact fun _ => rfl
    | cons update updates ih =>
      intro entries
      obtain ⟨other, update⟩ := update
      rw [List.foldl_cons, ih]
      by_cases same : other = name
      · subst same
        rw [List.filter_cons_of_pos (by simp), List.foldl_cons, write, lookup_insert_self]
      · rw [List.filter_cons_of_neg (by simpa using same), write, lookup_insert_other (Ne.symm same)]
  exact general []

theorem lookup_written_rename (stands : κ → κ) (updates : Updates κ β) (key : κ) :
    (written (rename stands updates)).lookup key = entryOf (updates.filter (stands ·.1 = key)) := by
  rw [lookup_written, rename, List.filter_map, entryOf, List.foldl_map]
  rfl

variable {updates : Updates κ β}

omit [DecidableEq κ] [LT κ] [DecidableLT κ] in
theorem entryOf_isSome (some : updates ≠ []) : (entryOf updates).isSome := by
  obtain ⟨first, last, rfl⟩ := List.eq_nil_or_concat updates |>.resolve_left some
  rw [entryOf, List.concat_eq_append, List.foldl_append]
  rfl

theorem lookup_rekey (stands : κ → κ) (entries : List (κ × β)) (key : κ) :
    (rekey stands entries).lookup key = (entries.filter (stands ·.1 = key)).getLast?.map (·.2) := by
  have general : ∀ rekeyed : List (κ × β),
      (entries.foldl (fun rekeyed entry => insert (stands entry.1) entry.2 rekeyed) rekeyed).lookup key =
        ((entries.filter (stands ·.1 = key)).getLast?.map (·.2)).or (rekeyed.lookup key) := by
    induction entries with
    | nil => exact fun _ => rfl
    | cons entry entries ih =>
      intro rekeyed
      rw [List.foldl_cons, ih]
      by_cases same : stands entry.1 = key
      · rw [List.filter_cons_of_pos (by simpa using same), ← same, lookup_insert_self, List.getLast?_cons]
        cases (entries.filter (stands ·.1 = stands entry.1)).getLast? <;> rfl
      · rw [List.filter_cons_of_neg (by simpa using same), lookup_insert_other (Ne.symm same)]
  rw [rekey, general [], List.lookup_nil, Option.or_none]

theorem isSome_lookup_written {name : κ} : ((written updates).lookup name).isSome ↔ name ∈ updates.map (·.1) := by
  rw [lookup_written]
  constructor
  · intro some
    obtain ⟨update, member⟩ : ∃ update, update ∈ updates.filter (·.1 = name) := by
      refine List.exists_mem_of_ne_nil _ fun empty => ?_
      rw [empty] at some
      exact nomatch some
    obtain ⟨inside, same⟩ := List.mem_filter.1 member
    exact List.mem_map.2 ⟨update, inside, by simpa using same⟩
  · intro used
    obtain ⟨update, inside, same⟩ := List.mem_map.1 used
    refine entryOf_isSome fun empty => ?_
    have member : update ∈ updates.filter (·.1 = name) := List.mem_filter.2 ⟨inside, by simpa using same⟩
    rw [empty] at member
    exact nomatch member

omit [DecidableLT κ] in
theorem exists_names_of_not_settled {view : β → γ} {stands : κ → κ} {key : κ}
    (unsettled : ¬Settled view stands updates key) :
    ∃ name other, name ≠ other ∧ stands name = key ∧ stands other = key := by
  by_contra single
  refine unsettled fun name greatest =>
    congrArg (Option.map view ∘ entryOf) (List.filter_congr fun update _ => ?_)
  -- With one name only, the updates under that name are all updates for the key.
  rw [decide_eq_decide]
  constructor
  · rintro rfl
    exact greatest.standsFor
  · intro same
    by_contra differ
    exact single ⟨update.1, name, differ, same, greatest.standsFor⟩

section

variable [IsTrans κ (· < ·)] [Std.Trichotomous (α := κ) (· < ·)]

theorem sorted_written (updates : Updates κ β) : Sorted (written updates) := by
  have general : ∀ entries : List (κ × β), Sorted entries → Sorted (updates.foldl write entries) := by
    induction updates with
    | nil => exact fun _ sorted => sorted
    | cons update updates ih => exact fun entries sorted => ih _ (sorted.insert _ _)
  exact general [] List.Pairwise.nil

variable {stands : κ → κ} {updates : Updates κ β} {key : κ}

omit [DecidableEq κ] [DecidableLT κ] [IsTrans κ (· < ·)] in
theorem Greatest.unique {name other : κ}
    (greatest : Greatest stands updates key name) (also : Greatest stands updates key other) : name = other := by
  rcases Std.Trichotomous.rel_or_eq_or_rel_swap (r := fun a b : κ => a < b) (a := name) (b := other)
    with less | same | more
  · exact absurd less (greatest.greatest other also.used also.standsFor)
  · exact same
  · exact absurd more (also.greatest name greatest.used greatest.standsFor)

variable [Std.Irrefl (α := κ) (· < ·)]

omit [Std.Trichotomous (α := κ) (· < ·)] in
theorem insertMissing_eq_write {name : κ} {value : β} {entries : List (κ × β)} (sorted : Sorted entries) :
    insertMissing name value entries = write entries (name, fun old => old.getD value) := by
  rw [insertMissing, write]
  cases found : entries.lookup name with
  | none => rfl
  | some old => exact (sorted.insert_of_lookup found).symm

/--
What is found for a key after merging: nothing if no name stands for it.

Otherwise it is the entry under the greatest name.
-/
theorem lookup_rekey_written (stands : κ → κ) (updates : Updates κ β) (key : κ) :
    ((rekey stands (written updates)).lookup key = none ∧ ∀ name ∈ updates.map (·.1), stands name ≠ key) ∨
      ∃ name, Greatest stands updates key name ∧
        (rekey stands (written updates)).lookup key = entryOf (updates.filter (·.1 = name)) := by
  have sorted := sorted_written updates
  have used : ∀ {name}, name ∈ updates.map (·.1) → stands name = key →
      ∃ value, (name, value) ∈ (written updates).filter (stands ·.1 = key) := by
    intro name member same
    obtain ⟨value, found⟩ := Option.isSome_iff_exists.1 (isSome_lookup_written.2 member)
    exact ⟨value, List.mem_filter.2 ⟨mem_of_lookup found, by simpa using same⟩⟩
  rw [lookup_rekey]
  rcases last : ((written updates).filter (stands ·.1 = key)).getLast? with _ | ⟨name, value⟩
  · refine .inl ⟨by rw [last]; rfl, fun name member same => ?_⟩
    obtain ⟨value, inside⟩ := used member same
    rw [List.getLast?_eq_none_iff.1 last] at inside
    exact nomatch inside
  · -- The entries for the key are in the order of their names, so that the last one has the greatest name.
    obtain ⟨front, split⟩ := List.getLast?_eq_some_iff.1 last
    have inside : (name, value) ∈ (written updates).filter (stands ·.1 = key) := by
      rw [split]
      exact List.mem_append_right _ List.mem_cons_self
    obtain ⟨member, same⟩ := List.mem_filter.1 inside
    have found := sorted.lookup_of_mem member
    refine .inr ⟨name, ⟨?_, by simpa using same, fun other usedOther sameOther less => ?_⟩, ?_⟩
    · exact isSome_lookup_written.1 (by rw [found]; rfl)
    · obtain ⟨otherValue, insideOther⟩ := used usedOther sameOther
      have ordered := sorted.sublist (List.filter_sublist (p := fun entry => stands entry.1 = key))
      rw [split] at insideOther ordered
      rcases List.mem_append.1 insideOther with before | at_end
      · have more : other < name := (List.pairwise_append.1 ordered).2.2 _ before _ List.mem_cons_self
        exact Std.Irrefl.irrefl (r := fun a b : κ => a < b) name (IsTrans.trans _ _ _ less more)
      · cases List.mem_singleton.1 at_end
        exact Std.Irrefl.irrefl (r := fun a b : κ => a < b) name less
    · rw [← lookup_written, found, last]
      rfl

theorem lookup_rekey_written_eq_iff {view : β → γ} : ((rekey stands (written updates)).lookup key).map view =
        ((written (rename stands updates)).lookup key).map view ↔ Settled view stands updates key := by
  rw [lookup_written_rename]
  rcases lookup_rekey_written stands updates key with ⟨nothing, unused⟩ | ⟨name, greatest, found⟩
  · have empty : updates.filter (stands ·.1 = key) = [] := by
      refine List.filter_eq_nil_iff.2 fun update member same => ?_
      exact unused update.1 (List.mem_map_of_mem member) (by simpa using same)
    rw [nothing, empty]
    exact ⟨fun _ name greatest => absurd greatest.standsFor (unused name greatest.used), fun _ => rfl⟩
  · rw [found]
    constructor
    · intro same other also
      rw [also.unique greatest]
      exact same
    · exact fun settled => settled name greatest

theorem isSome_of_not_settled {view : β → γ} (unsettled : ¬Settled view stands updates key) :
    ((rekey stands (written updates)).lookup key).isSome ∧ ((written (rename stands updates)).lookup key).isSome := by
  rw [lookup_written_rename]
  rcases lookup_rekey_written stands updates key with ⟨_, unused⟩ | ⟨name, greatest, found⟩
  · exact absurd (fun name greatest => absurd greatest.standsFor (unused name greatest.used)) unsettled
  · obtain ⟨update, inside, same⟩ := List.mem_map.1 greatest.used
    have nonempty : ∀ {p : κ × (Option β → β) → Bool}, p update = true → updates.filter p ≠ [] :=
      fun holds empty => List.filter_eq_nil_iff.1 empty update inside holds
    rw [found]
    exact ⟨entryOf_isSome (nonempty (by simpa using same)),
      entryOf_isSome (nonempty (by simpa [same] using greatest.standsFor))⟩

end

end Codel00p.Assoc
