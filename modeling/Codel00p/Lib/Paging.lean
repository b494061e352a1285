import Mathlib.Data.List.Basic

/-! Lists that are handed out page by page: scans that stop at a cap, and following the pages to the end. -/

namespace Codel00p.Paging

variable {α : Type}

/-! ### Scans that stop at a cap -/

/-- Collect items until there are so many, and tell whether it came to that. -/
def fill (cap : Nat) : List α → List α → List α × Bool
  | all, [] => (all, false)
  | all, item :: items =>
    if cap ≤ (all ++ [item]).length then (all ++ [item], true) else fill cap (all ++ [item]) items

/-- Collect the items of groups until there are so many, and count the groups that had any. -/
def fillGroups (cap : Nat) : List α → Nat → List (List α) → List α × Nat
  | all, hits, [] => (all, hits)
  | all, hits, group :: groups =>
    let hits := if group.isEmpty then hits else hits + 1
    let (filled, full) := fill cap all group
    if full then (filled, hits) else fillGroups cap filled hits groups

variable {all : List α} {offset : Nat}

theorem fill_eq {cap : Nat} (items : List α) (short : all.length < cap) :
    fill cap all items = ((all ++ items).take cap, decide (cap ≤ (all ++ items).length)) := by
  induction items generalizing all with
  | nil => simp [fill, List.take_of_length_le (Nat.le_of_lt short), short]
  | cons item items ih =>
    rw [fill]
    have length : (all ++ [item]).length = all.length + 1 := by simp
    split
    · next full =>
      -- The cap is reached with this item.
      have exactly : cap = (all ++ [item]).length := by omega
      have spelled : all ++ item :: items = all ++ [item] ++ items := by simp
      rw [spelled, exactly, List.take_left]
      simp
    · next room =>
      rw [ih (by omega)]
      simp

theorem fillGroups_eq {cap : Nat} (groups : List (List α)) (short : all.length < cap) (hits : Nat) :
    (fillGroups cap all hits groups).1 = (all ++ groups.flatten).take cap := by
  induction groups generalizing all hits with
  | nil => simp [fillGroups, List.take_of_length_le (Nat.le_of_lt short)]
  | cons group groups ih =>
    simp only [fillGroups, fill_eq group short, decide_eq_true_eq]
    split
    · next full => rw [List.flatten_cons, ← List.append_assoc, List.take_append_of_le_length full]
    · next room =>
      have whole : (all ++ group).take cap = all ++ group := List.take_of_length_le (by omega)
      rw [whole, ih (by omega), List.flatten_cons, List.append_assoc]

/-! ### Pages -/

structure Page (α : Type) where
  items : List α
  hasMore : Bool

/-- The pages one gets from an offset on, advancing by what was returned as long as there is more. -/
inductive Followed (page : Nat → Option (Page α)) : Nat → List (List α) → Prop
  | last {offset : Nat} {here : Page α} (got : page offset = some here) (done : here.hasMore = false) :
      Followed page offset [here.items]
  | next {offset : Nat} {here : Page α} {pages : List (List α)} (got : page offset = some here)
      (more : here.hasMore = true) (rest : Followed page (offset + here.items.length) pages) :
      Followed page offset (here.items :: pages)

def window (all : List α) (want offset : Nat) : Page α :=
  { items := (all.drop offset).take want, hasMore := decide (offset + want < all.length) }

theorem window_scan (all : List α) (want offset : Nat) :
    window (all.take (offset + want + 1)) want offset = window all want offset := by
  simp only [window, List.length_take, List.drop_take, List.take_take]
  congr 2
  · omega
  · rw [eq_iff_iff]
    omega

theorem hasMore_window_iff {want : Nat} (inside : offset ≤ all.length) :
    (window all want offset).hasMore = true ↔ offset + (window all want offset).items.length < all.length := by
  simp only [window, decide_eq_true_eq, List.length_take, List.length_drop]
  omega

theorem exists_followed {page : Nat → Option (Page α)} {want : Nat} (positive : 1 ≤ want)
    (windows : ∀ offset, offset ≤ all.length → page offset = some (window all want offset))
    (inside : offset ≤ all.length) : ∃ pages, Followed page offset pages ∧ pages.flatten = all.drop offset := by
  -- Every page but the last is full, so the offset grows.
  induction left : all.length - offset using Nat.strongRecOn generalizing offset with
  | ind left ih =>
    by_cases more : offset + want < all.length
    · have full : (window all want offset).items.length = want := by
        rw [window, List.length_take, List.length_drop]
        omega
      obtain ⟨pages, followed, flat⟩ := ih (all.length - (offset + want)) (by omega) (by omega) rfl
      refine ⟨(window all want offset).items :: pages, .next (windows offset inside) (by simp [window, more]) ?_, ?_⟩
      · rwa [full]
      · rw [List.flatten_cons, flat]
        simp only [window]
        rw [← List.drop_drop, List.take_append_drop]
    · refine ⟨[(window all want offset).items], .last (windows offset inside) (by simpa [window] using more), ?_⟩
      simp only [window, List.flatten_cons, List.flatten_nil, List.append_nil]
      exact List.take_of_length_le (by rw [List.length_drop]; omega)

end Codel00p.Paging
