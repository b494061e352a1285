import Mathlib.Data.List.Basic

/-! Maps from ordered keys to values as association lists in the order of the keys. -/

namespace Codel00p.Assoc

variable {κ β : Type} [DecidableEq κ] [LT κ] [DecidableLT κ]

/-- Put an entry in its place by key, replacing the one that is there. -/
def insert (key : κ) (value : β) : List (κ × β) → List (κ × β)
  | [] => [(key, value)]
  | (other, old) :: rest =>
    if key = other then (key, value) :: rest
    else if key < other then (key, value) :: (other, old) :: rest
    else (other, old) :: insert key value rest

/-- Put an entry in its place unless there is one already. -/
def insertMissing (key : κ) (value : β) (entries : List (κ × β)) : List (κ × β) :=
  if (entries.lookup key).isSome then entries else insert key value entries

def erase (key : κ) (entries : List (κ × β)) : List (κ × β) := entries.filter fun (other, _) => other ≠ key

section

variable [BEq κ] [LawfulBEq κ]

@[simp] theorem lookup_insert_self (key : κ) (value : β) (entries : List (κ × β)) :
    (insert key value entries).lookup key = some value := by
  induction entries with
  | nil => simp [insert]
  | cons entry entries ih =>
    obtain ⟨other, old⟩ := entry
    simp only [insert]
    split
    · simp
    · rename_i differ
      split
      · simp
      · have differs : (key == other) = false := by simpa using differ
        simpa only [List.lookup_cons, differs] using ih

variable {key other : κ}

theorem lookup_insert_other (differ : other ≠ key) (value : β) (entries : List (κ × β)) :
    (insert key value entries).lookup other = entries.lookup other := by
  have differs : (other == key) = false := by simpa using differ
  induction entries with
  | nil => simp [insert, List.lookup_cons, differs]
  | cons entry entries ih =>
    obtain ⟨name, old⟩ := entry
    simp only [insert]
    split
    · rename_i same
      subst same
      simp [List.lookup_cons, differs]
    · split
      · simp [List.lookup_cons, differs]
      · simp [List.lookup_cons, ih]

theorem isSome_lookup_insert (key other : κ) (value : β) (entries : List (κ × β)) :
    ((insert key value entries).lookup other).isSome = true ↔ (entries.lookup other).isSome = true ∨ other = key := by
  by_cases same : other = key
  · subst same
    simp
  · simp [lookup_insert_other same, same]

omit [LT κ] [DecidableLT κ] in
@[simp] theorem lookup_erase_self (key : κ) (entries : List (κ × β)) : (erase key entries).lookup key = none := by
  unfold erase
  induction entries with
  | nil => rfl
  | cons entry entries ih =>
    by_cases same : entry.1 = key
    · rw [List.filter_cons_of_neg (by simpa using same)]
      exact ih
    · have differs : (key == entry.1) = false := beq_eq_false_iff_ne.2 (Ne.symm same)
      rw [List.filter_cons_of_pos (by simpa using same), List.lookup_cons, differs]
      exact ih

omit [LT κ] [DecidableLT κ] in
theorem lookup_erase_other (differ : other ≠ key) (entries : List (κ × β)) :
    (erase key entries).lookup other = entries.lookup other := by
  unfold erase
  induction entries with
  | nil => rfl
  | cons entry entries ih =>
    by_cases same : entry.1 = key
    · have differs : (other == entry.1) = false := beq_eq_false_iff_ne.2 (same ▸ differ)
      rw [List.filter_cons_of_neg (by simpa using same), List.lookup_cons, differs]
      exact ih
    · rw [List.filter_cons_of_pos (by simpa using same), List.lookup_cons, List.lookup_cons, ih]

theorem lookup_insert_cases {value found : β} {entries : List (κ × β)}
    (looked : (insert key value entries).lookup other = some found) :
    found = value ∨ entries.lookup other = some found := by
  by_cases same : other = key
  · subst same
    rw [lookup_insert_self] at looked
    exact .inl (Option.some.inj looked).symm
  · rw [lookup_insert_other same] at looked
    exact .inr looked

end

variable {key : κ} {value : β} {entries : List (κ × β)}

theorem mem_insert {entry : κ × β} (member : entry ∈ insert key value entries) :
    entry = (key, value) ∨ entry ∈ entries := by
  induction entries with
  | nil => simpa [insert] using member
  | cons first rest ih =>
    obtain ⟨other, old⟩ := first
    simp only [insert] at member
    split at member
    · rcases List.mem_cons.1 member with same | later
      · exact .inl same
      · exact .inr (List.mem_cons_of_mem _ later)
    · split at member
      · exact List.mem_cons.1 member
      · rcases List.mem_cons.1 member with same | later
        · exact .inr (same ▸ List.mem_cons_self)
        · exact (ih later).imp_right (List.mem_cons_of_mem _)

/-- The keys of a map are in order, so that none of them is there twice. -/
def Sorted (entries : List (κ × β)) : Prop := entries.Pairwise fun entry later => entry.1 < later.1

section

variable [IsTrans κ (· < ·)] [Std.Trichotomous (α := κ) (· < ·)]

theorem Sorted.insert {entries : List (κ × β)} (sorted : Sorted entries) (key : κ) (value : β) :
    Sorted (Assoc.insert key value entries) := by
  induction entries with
  | nil => exact List.pairwise_singleton _ _
  | cons first rest ih =>
    obtain ⟨other, old⟩ := first
    obtain ⟨before, later⟩ := List.pairwise_cons.1 sorted
    rw [Assoc.insert]
    split
    · next same =>
      subst same
      exact List.pairwise_cons.2 ⟨before, later⟩
    · next differ =>
      split
      · next less =>
        refine List.pairwise_cons.2 ⟨fun entry member => ?_, sorted⟩
        rcases List.mem_cons.1 member with rfl | inside
        · exact less
        · exact IsTrans.trans _ _ _ less (before entry inside)
      · next notLess =>
        have greater : other < key := by
          rcases Std.Trichotomous.rel_or_eq_or_rel_swap (r := fun a b : κ => a < b) (a := key) (b := other)
            with less | same | more
          · exact absurd less notLess
          · exact absurd same differ
          · exact more
        refine List.pairwise_cons.2 ⟨fun entry member => ?_, ih later⟩
        rcases mem_insert member with rfl | inside
        · exact greater
        · exact before entry inside

end

omit [DecidableEq κ] [LT κ] [DecidableLT κ] in
theorem lookup_map_snd {γ : Type} [BEq κ] (change : β → γ) (key : κ) (entries : List (κ × β)) :
    (entries.map fun (name, value) => (name, change value)).lookup key = (entries.lookup key).map change := by
  induction entries with
  | nil => rfl
  | cons entry entries ih =>
    rw [List.map_cons, List.lookup_cons, List.lookup_cons]
    cases key == entry.1 with
    | true => rfl
    | false => exact ih

omit [LT κ] [DecidableLT κ] in
theorem mem_of_lookup (found : entries.lookup key = some value) : (key, value) ∈ entries := by
  induction entries with
  | nil => exact nomatch found
  | cons entry entries ih =>
    obtain ⟨other, old⟩ := entry
    rw [List.lookup_cons] at found
    split at found
    · next same =>
      obtain rfl := eq_of_beq same
      obtain rfl := Option.some.inj found
      exact List.mem_cons_self
    · exact List.mem_cons_of_mem _ (ih found)

omit [DecidableLT κ] in
theorem Sorted.lookup_of_mem [Std.Irrefl (α := κ) (· < ·)]
    (sorted : Sorted entries) (member : (key, value) ∈ entries) : entries.lookup key = some value := by
  induction entries with
  | nil => exact nomatch member
  | cons entry entries ih =>
    obtain ⟨other, old⟩ := entry
    obtain ⟨before, later⟩ := List.pairwise_cons.1 sorted
    rcases List.mem_cons.1 member with same | inside
    · cases same
      exact List.lookup_cons_self
    · have less : other < key := before _ inside
      have differ : (key == other) = false := by
        refine beq_eq_false_iff_ne.2 fun same => ?_
        subst same
        exact Std.Irrefl.irrefl (r := fun a b : κ => a < b) key less
      rw [List.lookup_cons, differ]
      exact ih later inside

theorem Sorted.insert_of_lookup [IsTrans κ (· < ·)] [Std.Irrefl (α := κ) (· < ·)] {key : κ}
    {entries : List (κ × β)} (sorted : Sorted entries) (found : entries.lookup key = some value) :
    Assoc.insert key value entries = entries := by
  induction entries with
  | nil => exact nomatch found
  | cons entry entries ih =>
    obtain ⟨other, old⟩ := entry
    obtain ⟨before, later⟩ := List.pairwise_cons.1 sorted
    rw [Assoc.insert]
    by_cases same : key = other
    · subst same
      rw [List.lookup_cons_self] at found
      rw [if_pos rfl, Option.some.inj found]
    · have differ : (key == other) = false := by simpa using same
      rw [List.lookup_cons, differ] at found
      -- The entry is further on, so that its key comes after the first one.
      have less : other < key := before _ (mem_of_lookup found)
      have notLess : ¬key < other := fun more =>
        Std.Irrefl.irrefl (r := fun a b : κ => a < b) key (IsTrans.trans _ _ _ more less)
      rw [if_neg same, if_neg notLess, ih later found]

end Codel00p.Assoc
