import Mathlib.Logic.Basic

/-! Rules for computations that may stop with an error. -/

namespace Codel00p.Except

variable {ε α β : Type}

theorem bind_eq_ok {first : Except ε α} {next : α → Except ε β} {result : β} :
    first >>= next = .ok result ↔ ∃ value, first = .ok value ∧ next value = .ok result := by
  cases first with
  | ok value => exact ⟨fun holds => ⟨value, rfl, holds⟩, fun ⟨_, rfl, holds⟩ => holds⟩
  | error error => exact ⟨fun holds => (nomatch holds), fun ⟨_, wrong, _⟩ => (nomatch wrong)⟩

theorem check_eq_ok {condition : Prop} [Decidable condition] {error : ε} {next : α → Except ε β}
    {rest : Except ε β} {result : β} :
    (if condition then throw error >>= next else rest) = .ok result ↔
      ¬condition ∧ rest = .ok result := by
  by_cases holds : condition
  · simp only [holds, if_true, not_true, false_and, iff_false]
    exact nofun
  · simp [holds]

theorem guard_eq_ok {condition : Prop} [Decidable condition] {error : ε} {value result : α} :
    (if condition then pure value else throw error : Except ε α) = .ok result ↔ condition ∧ value = result := by
  by_cases holds : condition
  · rw [if_pos holds]
    exact ⟨fun same => ⟨holds, by cases same; rfl⟩, fun ⟨_, same⟩ => congrArg _ same⟩
  · rw [if_neg holds]
    exact ⟨nofun, fun ⟨yes, _⟩ => absurd yes holds⟩

theorem mapError_eq_ok {ε' : Type} {convert : ε → ε'} {outcome : Except ε α} {result : α} :
    outcome.mapError convert = .ok result ↔ outcome = .ok result := by
  cases outcome with
  | ok value => exact ⟨fun same => by cases same; rfl, fun same => by cases same; rfl⟩
  | error error => exact ⟨nofun, nofun⟩

theorem pure_eq_ok {value result : α} : (pure value : Except ε α) = .ok result ↔ value = result :=
  ⟨fun holds => by cases holds; rfl, fun holds => by cases holds; rfl⟩

theorem mapM_map_eq_ok {write : α → β} {read : β → Except ε α} {items : List α} :
    (items.map write).mapM read = .ok items ↔ ∀ item ∈ items, read (write item) = .ok item := by
  induction items with
  | nil => exact ⟨fun _ _ member => (nomatch member), fun _ => rfl⟩
  | cons item items ih =>
    simp only [List.map_cons, List.mapM_cons, bind_eq_ok, pure_eq_ok, List.cons.injEq, List.forall_mem_cons, ← ih]
    constructor
    · rintro ⟨first, readFirst, rest, readRest, rfl, rfl⟩
      exact ⟨readFirst, readRest⟩
    · rintro ⟨readFirst, readRest⟩
      exact ⟨item, readFirst, items, readRest, rfl, rfl⟩

theorem exists_ok_of_isSome {run : Except ε α × β} (succeeds : run.1.toOption.isSome = true) :
    ∃ result, run = (.ok result, run.2) := by
  obtain ⟨_ | result, _⟩ := run
  · exact nomatch succeeds
  · exact ⟨result, rfl⟩

end Codel00p.Except
