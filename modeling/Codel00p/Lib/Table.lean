import Mathlib.Data.List.AList
import Mathlib.Data.List.Sort

/-! Tables with a primary key, and when a table holds the entries of a map. -/

namespace Codel00p

structure Table {κ ρ : Type} (key : ρ → κ) where
  rows : List ρ := []
  distinct : (rows.map key).Nodup := by exact List.nodup_nil

def sortOn {α τ : Type} [LinearOrder τ] (rank : α → τ) (items : List α) : List α :=
  items.mergeSort fun left right => decide (rank left ≤ rank right)

namespace Table

variable {κ ρ : Type} {key : ρ → κ} [DecidableEq κ]

def find (table : Table key) (k : κ) : Option ρ := table.rows.find? fun row => key row = k

def select (table : Table key) (condition : ρ → Bool) : List ρ := table.rows.filter condition

def upsert (table : Table key) (row : ρ) : Table key where
  rows := row :: table.rows.filter fun other => key other ≠ key row
  distinct := by
    rw [List.map_cons, List.nodup_cons]
    constructor
    · intro member
      obtain ⟨other, kept, same⟩ := List.mem_map.1 member
      exact absurd same (by simpa using (List.mem_filter.1 kept).2)
    · exact (List.filter_sublist.map key).nodup table.distinct

/-- Take the row with a key out. -/
def remove (table : Table key) (k : κ) : Table key where
  rows := table.rows.filter fun other => key other ≠ k
  distinct := (List.filter_sublist.map key).nodup table.distinct

def insert (table : Table key) (row : ρ) : Option (Table key) :=
  if taken : key row ∈ table.rows.map key then none
  else some {
    rows := table.rows ++ [row]
    distinct := by
      rw [List.map_append, List.nodup_append]
      refine ⟨table.distinct, by simp, ?_⟩
      rintro other member new fresh rfl
      cases List.mem_singleton.1 fresh
      exact taken member }

variable {table other : Table key} {k : κ} {row : ρ} {condition : ρ → Bool}

theorem find_eq_some : table.find k = some row ↔ row ∈ table.rows ∧ key row = k := by
  constructor
  · intro found
    exact ⟨List.mem_of_find?_eq_some found, by simpa using List.find?_some found⟩
  · rintro ⟨member, rfl⟩
    obtain ⟨other, found⟩ : ∃ other, table.find (key row) = some other :=
      Option.isSome_iff_exists.1 (List.find?_isSome.2 ⟨row, member, by simp⟩)
    -- Two rows with one key would be two entries of a list without duplicates.
    have same : key other = key row := by simpa using List.find?_some found
    rw [found, List.inj_on_of_nodup_map table.distinct (List.mem_of_find?_eq_some found) member same]

theorem find_upsert (table : Table key) (row : ρ) (k : κ) :
    (table.upsert row).find k = if k = key row then some row else table.find k := by
  by_cases same : k = key row
  · rw [if_pos same, same]
    exact find_eq_some.2 ⟨List.mem_cons_self, rfl⟩
  · -- The row is passed over, and so is the one it replaced.
    rw [if_neg same, find, find, upsert, List.find?_cons_of_neg (by simpa using Ne.symm same),
      List.find?_filter]
    congr 1
    funext other
    by_cases found : key other = k <;> simp [found, same]

theorem select_upsert_congr (agree : table.select condition = other.select condition) :
    (table.upsert row).select condition = (other.upsert row).select condition := by
  -- Selecting goes past the removal of the row that is replaced.
  have past : ∀ t : Table key, (t.upsert row).select condition =
      [row].filter condition ++ (t.select condition).filter fun other => key other ≠ key row := by
    intro t
    rw [select, select, List.filter_comm, ← List.filter_append]
    rfl
  rw [past, past, agree]

theorem select_upsert (apart : ∀ other, key other = key row → condition other = false) :
    (table.upsert row).select condition = table.select condition := by
  rw [select, select, upsert, List.filter_cons, apart row rfl, if_neg (by simp), List.filter_filter]
  refine List.filter_congr fun other _ => ?_
  by_cases same : key other = key row
  · simp [apart other same]
  · simp [same]

theorem select_remove_congr (agree : table.select condition = other.select condition) :
    (table.remove k).select condition = (other.remove k).select condition := by
  have past : ∀ t : Table key, (t.remove k).select condition =
      (t.select condition).filter fun other => key other ≠ k := by
    intro t
    rw [select, select, remove, List.filter_comm]
  rw [past, past, agree]

theorem select_remove (apart : ∀ other, key other = k → condition other = false) :
    (table.remove k).select condition = table.select condition := by
  rw [select, select, remove, List.filter_filter]
  refine List.filter_congr fun other _ => ?_
  by_cases same : key other = k
  · simp [apart other same]
  · simp [same]

theorem select_insert {after : Table key} (added : table.insert row = some after) (apart : condition row = false) :
    after.select condition = table.select condition := by
  unfold insert at added
  split at added
  · exact nomatch added
  · cases added
    simp [select, apart]

theorem map_select_insert (covers : ∀ other, key other = key row → condition other = true) :
    (table.insert row).map (·.select condition) =
      if key row ∈ (table.select condition).map key then none
      else some (table.select condition ++ [row]) := by
  -- A row that takes the key is selected, so it is enough to look among these.
  have within : key row ∈ (table.select condition).map key ↔ key row ∈ table.rows.map key := by
    constructor
    · intro taken
      exact (List.filter_sublist.map key).subset taken
    · intro taken
      obtain ⟨other, member, same⟩ := List.mem_map.1 taken
      exact List.mem_map.2 ⟨other, List.mem_filter.2 ⟨member, covers other same⟩, same⟩
  simp only [within]
  by_cases taken : key row ∈ table.rows.map key
  · rw [insert, dif_pos taken, if_pos taken, Option.map_none]
  · rw [insert, dif_neg taken, if_neg taken, Option.map_some, select, select, List.filter_append,
      List.filter_cons_of_pos (covers row rfl), List.filter_nil]

omit [DecidableEq κ] in
theorem select_and (table : Table key) (first second : ρ → Prop) [DecidablePred first] [DecidablePred second] :
    table.select (fun row => first row ∧ second row) =
      (table.select fun row => first row).filter fun row => second row := by
  rw [select, select, List.filter_filter]
  exact List.filter_congr fun row _ => by simp [Bool.and_comm]

theorem insert_fresh (fresh : key row ∉ table.rows.map key) :
    ∃ after, table.insert row = some after ∧ after.rows = table.rows ++ [row] := by
  rw [insert, dif_neg fresh]
  exact ⟨_, rfl, rfl⟩

theorem find_congr (covers : ∀ row, key row = k → condition row = true)
    (agree : table.select condition = other.select condition) : table.find k = other.find k := by
  have within : ∀ t : Table key, t.find k = (t.select condition).find? fun row => key row = k := by
    intro t
    rw [find, select, List.find?_filter]
    congr 1
    funext row
    by_cases same : key row = k
    · simp [same, covers row same]
    · simp [same]
  rw [within, within, agree]

end Table

section Sorting

variable {α β τ : Type} [LinearOrder τ]

theorem sortOn_perm (rank : α → τ) (items : List α) : (sortOn rank items).Perm items := List.mergeSort_perm items _

theorem pairwise_sortOn (rank : α → τ) (items : List α) :
    (sortOn rank items).Pairwise fun left right => rank left ≤ rank right := by
  refine (List.pairwise_mergeSort ?_ ?_ items).imp fun below => by simpa using below
  · intro a b c first second
    simpa using le_trans (by simpa using first) (by simpa using second)
  · intro a b
    simpa using le_total (rank a) (rank b)

theorem sortOn_of_pairwise {rank : α → τ} {items : List α}
    (sorted : items.Pairwise fun left right => rank left < rank right) : sortOn rank items = items := by
  refine List.mergeSort_of_pairwise (sorted.imp fun below => ?_)
  simpa using le_of_lt below

theorem sortOn_eq_map {rank : α → τ} {rank' : β → τ} {shape : β → α} {items : List α} {others : List β}
    (perm : items.Perm (others.map shape)) (ranked : ∀ other, rank (shape other) = rank' other)
    (distinct : (others.map rank').Nodup) : sortOn rank items = (sortOn rank' others).map shape := by
  have shaped : (sortOn rank items).Perm ((sortOn rank' others).map shape) :=
    ((sortOn_perm rank items).trans perm).trans ((sortOn_perm rank' others).map shape).symm
  have sorted : ((sortOn rank' others).map shape).Pairwise fun left right => rank left ≤ rank right := by
    rw [List.pairwise_map]
    refine (pairwise_sortOn rank' others).imp fun below => ?_
    rw [ranked, ranked]
    exact below
  refine List.Perm.eq_of_pairwise ?_ (pairwise_sortOn rank items) sorted shaped
  -- Two items of the same rank are the same, because the ranks are distinct.
  intro left right inLeft inRight up down
  obtain ⟨a, memberA, rfl⟩ := List.mem_map.1 (shaped.subset inLeft)
  obtain ⟨b, memberB, rfl⟩ := List.mem_map.1 inRight
  have same : rank' a = rank' b := by
    rw [← ranked, ← ranked]
    exact le_antisymm up down
  have kept := (sortOn_perm rank' others).subset
  rw [List.inj_on_of_nodup_map distinct (kept memberA) (kept memberB) same]

end Sorting

/-- Keys of a map and rows for its entries, such that different keys give different rows. -/
structure RowEncoding {κ ρ : Type} (key : ρ → κ) (K V : Type) where
  encode : K → κ
  row : K → V → ρ
  injective : Function.Injective encode
  keyed : ∀ k value, key (row k value) = encode k

theorem kerase_eq_filter {K V : Type} [DecidableEq K] {entries : List (Sigma fun _ : K => V)}
    (distinct : entries.NodupKeys) (k : K) : entries.kerase k = entries.filter fun entry => entry.1 ≠ k := by
  induction entries with
  | nil => rfl
  | cons entry rest ih =>
    obtain ⟨absent, others⟩ := List.nodupKeys_cons.1 distinct
    by_cases same : k = entry.1
    · -- No later entry has the key of the first one.
      rw [List.kerase_cons_eq same, List.filter_cons_of_neg (by simp [same])]
      refine (List.filter_eq_self.2 fun other member => ?_).symm
      rw [same, decide_eq_true_eq]
      exact fun equal => absent (equal ▸ List.mem_map_of_mem member)
    · rw [List.kerase_cons_ne same, List.filter_cons_of_pos (by simpa using Ne.symm same), ih others]

namespace Table

section Entries

variable {K V : Type}

def ofMap (map : AList fun _ : K => V) : Table (Sigma.fst : (Sigma fun _ : K => V) → K) where
  rows := map.entries
  distinct := map.nodupKeys

variable [DecidableEq K] {map : AList fun _ : K => V}

theorem lookup_eq_find (k : K) : map.lookup k = ((ofMap map).find k).map Sigma.snd := by
  cases found : (ofMap map).find k with
  | some entry =>
    obtain ⟨member, rfl⟩ := find_eq_some.1 found
    exact Option.mem_def.1 (AList.mem_lookup_iff.2 member)
  | none =>
    rw [Option.map_none, Option.eq_none_iff_forall_ne_some]
    intro value present
    have member := AList.mem_lookup_iff.1 (Option.mem_def.2 present)
    have there : (ofMap map).find k = some ⟨k, value⟩ := find_eq_some.2 ⟨member, rfl⟩
    rw [found] at there
    exact nomatch there

theorem ofMap_insert (k : K) (value : V) : ofMap (map.insert k value) = (ofMap map).upsert ⟨k, value⟩ := by
  simp [ofMap, upsert, AList.entries_insert, kerase_eq_filter map.nodupKeys]

theorem ofMap_erase (k : K) : ofMap (map.erase k) = (ofMap map).remove k := by
  have left : (map.erase k).entries = map.entries.kerase k := rfl
  simp [ofMap, remove, left, kerase_eq_filter map.nodupKeys]

end Entries

variable {κ ρ K V : Type} {key : ρ → κ}

def Holds (encoding : RowEncoding key K V) (table : Table key) (map : AList fun _ : K => V) : Prop :=
  table.rows.Perm (map.entries.map fun entry => encoding.row entry.1 entry.2)

namespace Holds

variable {encoding : RowEncoding key K V} {table : Table key} {map : AList fun _ : K => V}

theorem empty : Holds encoding ({} : Table key) ∅ := List.Perm.refl _

theorem select (holds : Holds encoding table map) {chosen : ρ → Bool} {member : K → Bool}
    (agree : ∀ k value, chosen (encoding.row k value) = member k) :
    (table.select chosen).Perm ((map.entries.filter fun entry => member entry.1).map
      fun entry => encoding.row entry.1 entry.2) := by
  refine (holds.filter chosen).trans (List.Perm.of_eq ?_)
  rw [List.filter_map]
  congr 1
  exact List.filter_congr fun entry _ => agree entry.1 entry.2

theorem listing {τ : Type} [LinearOrder τ] (holds : Holds encoding table map) (keyOf : V → K)
    (chosen : ρ → Bool) (member : K → Bool) (rank : ρ → τ) (rankOf : V → τ)
    (filed : ∀ entry ∈ map.entries, entry.1 = keyOf entry.2)
    (agree : ∀ k value, chosen (encoding.row k value) = member k)
    (ranked : ∀ value, rank (encoding.row (keyOf value) value) = rankOf value)
    (apart : ∀ value other, member (keyOf value) = true → member (keyOf other) = true →
      rankOf value = rankOf other → keyOf value = keyOf other) : sortOn rank (table.select chosen) =
      (sortOn rankOf ((map.entries.filter fun entry => member entry.1).map Sigma.snd)).map
        fun value => encoding.row (keyOf value) value := by
  refine sortOn_eq_map ((holds.select agree).trans (List.Perm.of_eq ?_)) ranked ?_
  · rw [List.map_map]
    refine List.map_congr_left fun entry inside => ?_
    rw [Function.comp_apply, filed entry (List.mem_of_mem_filter inside)]
  · -- Two entries of one rank would have one key.
    rw [List.map_map]
    have distinct : (map.entries.filter fun entry => member entry.1).Pairwise
        fun left right => left.1 ≠ right.1 := by
      exact (List.pairwise_map.1 map.nodupKeys).sublist List.filter_sublist
    refine List.pairwise_map.2 (distinct.imp_of_mem fun {left right} inLeft inRight differ same => ?_)
    have memberLeft := (List.mem_filter.1 inLeft).2
    have memberRight := (List.mem_filter.1 inRight).2
    rw [filed left (List.mem_of_mem_filter inLeft)] at memberLeft differ
    rw [filed right (List.mem_of_mem_filter inRight)] at memberRight differ
    exact differ (apart left.2 right.2 memberLeft memberRight same)

variable [DecidableEq κ] [DecidableEq K]

section

variable (holds : Holds encoding table map)

include holds

theorem find (k : K) : table.find (encoding.encode k) = (map.lookup k).map (encoding.row k) := by
  cases found : map.lookup k with
  | some value =>
    have member := AList.mem_lookup_iff.1 (Option.mem_def.2 found)
    exact find_eq_some.2 ⟨holds.symm.subset (List.mem_map_of_mem member), encoding.keyed k value⟩
  | none =>
    -- A row under the key would be that of an entry under the key.
    rw [Option.map_none, Option.eq_none_iff_forall_ne_some]
    intro row present
    obtain ⟨member, keyed⟩ := find_eq_some.1 present
    obtain ⟨entry, inside, rfl⟩ := List.mem_map.1 (holds.subset member)
    rw [encoding.keyed] at keyed
    have there := AList.mem_lookup_iff.2 (encoding.injective keyed ▸ inside :
      (⟨k, entry.2⟩ : Sigma fun _ : K => V) ∈ map.entries)
    rw [Option.mem_def, found] at there
    exact nomatch there

theorem others (k : K) : (table.rows.filter fun row => key row ≠ encoding.encode k).Perm
      ((map.entries.kerase k).map fun entry => encoding.row entry.1 entry.2) := by
  rw [kerase_eq_filter map.nodupKeys]
  refine (holds.filter _).trans (List.Perm.of_eq ?_)
  rw [List.filter_map]
  congr 1
  refine List.filter_congr fun entry _ => ?_
  simp only [Function.comp_apply, encoding.keyed, encoding.injective.ne_iff]

theorem upsert (k : K) (value : V) : Holds encoding (table.upsert (encoding.row k value)) (map.insert k value) := by
  have kept := holds.others k
  rw [Holds, Table.upsert, AList.entries_insert, List.map_cons]
  simp only [encoding.keyed]
  exact kept.cons _

theorem remove (k : K) : Holds encoding (table.remove (encoding.encode k)) (map.erase k) :=
  holds.others k

end

end Holds

end Table

end Codel00p
