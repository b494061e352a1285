import Mathlib.Data.List.Induction

/-! Runs of a deterministic state machine: invariants, and properties kept by guarded steps. -/

namespace Codel00p.Run

variable {σ ι : Type} (step : σ → ι → σ)

variable {state : σ}

theorem invariant (holds : σ → Prop) (kept : ∀ state input, holds state → holds (step state input))
    (start : holds state) (inputs : List ι) : holds (inputs.foldl step state) := by
  induction inputs generalizing state with
  | nil => exact start
  | cons input inputs ih => exact ih (kept state input start)

theorem throughout_iff_guarded (holds good : σ → Prop) (guard : σ → ι → Prop)
    (kept : ∀ state input, holds state → holds (step state input)) (exact : ∀ state input, holds state → good state →
      (good (step state input) ↔ guard state input)) (start : holds state) (fine : good state) (inputs : List ι) :
    (∀ done rest, inputs = done ++ rest → good (done.foldl step state)) ↔
      ∀ done input rest, inputs = done ++ input :: rest → guard (done.foldl step state) input := by
  constructor
  · -- Around a step the property holds on both sides, so the guard decided for it.
    intro always done input rest split
    have before := always done (input :: rest) split
    have after := always (done ++ [input]) rest (by simp [split])
    rw [List.foldl_append] at after
    exact (exact _ _ (invariant step holds kept start done) before).1 after
  · -- Going through the inputs read so far, each guarded step keeps the property.
    intro guarded done
    induction done using List.reverseRecOn with
    | nil => exact fun _ _ => fine
    | append_singleton done input ih =>
      intro rest split
      have before := ih (input :: rest) (by simp [split])
      have met := guarded done input rest (by simp [split])
      rw [List.foldl_append]
      exact (exact _ _ (invariant step holds kept start done) before).2 met

/-- The steps of a run: each state it comes through, with the input that is carried out there. -/
def steps : List ι → σ → List (σ × ι)
  | [], _ => []
  | input :: rest, state => (state, input) :: steps rest (step state input)

theorem second_mem_steps (first second : ι) (rest : List ι) (state : σ) :
    (step state first, second) ∈ steps step (first :: second :: rest) state :=
  List.mem_cons_of_mem _ List.mem_cons_self

theorem steps_invariant (holds : σ → Prop) (allowed : ι → Prop)
    (kept : ∀ state input, allowed input → holds state → holds (step state input)) {inputs : List ι}
    (all : ∀ input ∈ inputs, allowed input) (start : holds state) {before : σ × ι}
    (taken : before ∈ steps step inputs state) : holds before.1 ∧ allowed before.2 := by
  induction inputs generalizing state with
  | nil => exact nomatch taken
  | cons input inputs ih =>
    have first := all input List.mem_cons_self
    rcases List.mem_cons.1 taken with rfl | later
    · exact ⟨start, first⟩
    · exact ih (fun other member => all other (List.mem_cons_of_mem _ member)) (kept state input first start) later

section Outputs

variable {ο τ : Type} (answer : ι → σ → ο × σ)

/-- Carry inputs out one after the other, and collect what is put out. -/
def outputs : List ι → σ → List ο × σ
  | [], state => ([], state)
  | input :: rest, state =>
    let (output, reached) := answer input state
    let (others, last) := outputs rest reached
    (output :: others, last)

theorem outputs_nil_snd (state : σ) : (outputs answer [] state).2 = state := rfl

theorem outputs_cons_snd (input : ι) (rest : List ι) (state : σ) :
    (outputs answer (input :: rest) state).2 = (outputs answer rest (answer input state).2).2 := rfl

/-- What is put out for some of the inputs, while all of them are carried out. -/
def observed (own : ι → Bool) (inputs : List ι) (state : σ) : List ο :=
  ((inputs.zip (outputs answer inputs state).1).filter fun pair => own pair.1).map Prod.snd

theorem observed_cons (own : ι → Bool) (input : ι) (rest : List ι) (state : σ) :
    observed answer own (input :: rest) state =
      (if own input then [(answer input state).1] else []) ++ observed answer own rest (answer input state).2 := by
  cases mine : own input <;> simp [observed, outputs, mine]

variable {inputs : List ι}

theorem outputs_map {replace : ι → ι} (alike : ∀ input ∈ inputs, answer (replace input) = answer input) (state : σ) :
    outputs answer (inputs.map replace) state = outputs answer inputs state := by
  induction inputs generalizing state with
  | nil => rfl
  | cons input inputs ih =>
    have rest := ih fun later member => alike later (List.mem_cons_of_mem _ member)
    simp [outputs, alike input List.mem_cons_self, rest]

theorem outputs_of_simulation {answer' : ι → τ → ο × τ} (related : σ → τ → Prop) (allowed : ι → Prop)
    (simulated : ∀ input state other, allowed input → related state other →
      (answer input state).1 = (answer' input other).1 ∧ related (answer input state).2 (answer' input other).2)
    (all : ∀ input ∈ inputs, allowed input) {state : σ} {other : τ} (start : related state other) :
    (outputs answer inputs state).1 = (outputs answer' inputs other).1 := by
  -- The states move on with every input, so both stay quantified over.
  induction inputs generalizing state other with
  | nil => rfl
  | cons input inputs ih =>
    obtain ⟨same, kept⟩ := simulated input state other (all input List.mem_cons_self) start
    have rest := ih (fun later member => all later (List.mem_cons_of_mem _ member)) kept
    simp [outputs, same, rest]

/--
Some inputs do not depend on the others, in what is put out for them and in their view of the state.

It is enough that these inputs read and change the view only, and that the others leave it alone.
-/
theorem apart_of_view {ν : Type} (view : σ → ν) (own : ι → Bool) (holds : σ → Prop) (allowed : ι → Prop)
    (kept : ∀ input state, holds state → holds (answer input state).2)
    (others : ∀ input state, allowed input → own input = false → holds state →
      view (answer input state).2 = view state)
    (owned : ∀ input state other, own input = true → view state = view other →
      (answer input state).1 = (answer input other).1 ∧ view (answer input state).2 = view (answer input other).2)
    (all : ∀ input ∈ inputs, allowed input) {state other : σ} (start : holds state) (same : view state = view other) :
    observed answer own inputs state = (outputs answer (inputs.filter own) other).1 ∧
      view (outputs answer inputs state).2 = view (outputs answer (inputs.filter own) other).2 := by
  -- The two runs part at the first input that is passed over, and agree on the view from then on.
  induction inputs generalizing state other with
  | nil => exact ⟨rfl, same⟩
  | cons input inputs ih =>
    have rest : ∀ later ∈ inputs, allowed later := fun later member => all later (List.mem_cons_of_mem _ member)
    cases mine : own input with
    | false =>
      -- The input is passed over, and what it did is out of view.
      have unseen := others input state (all input List.mem_cons_self) mine start
      have later := ih rest (kept input state start) (unseen.trans same)
      rw [List.filter_cons_of_neg (by simp [mine])]
      refine ⟨?_, later.2⟩
      rw [← later.1]
      simp [observed, outputs, mine]
    | true =>
      obtain ⟨output, views⟩ := owned input state other mine same
      have later := ih rest (kept input state start) views
      rw [List.filter_cons_of_pos (by simp [mine])]
      refine ⟨?_, later.2⟩
      simp only [outputs, ← later.1, ← output]
      simp [observed, outputs, mine]

theorem observed_of_view {ν : Type} (view : σ → ν) (own : ι → Bool)
    (others : ∀ input state, own input = false → view (answer input state).2 = view state)
    (owned : ∀ input state other, own input = true → view state = view other →
      (answer input state).1 = (answer input other).1 ∧ view (answer input state).2 = view (answer input other).2)
    (inputs : List ι) (state : σ) : observed answer own inputs state = (outputs answer (inputs.filter own) state).1 :=
  (apart_of_view answer view own (fun _ => True) (fun _ => True) (fun _ _ _ => trivial)
    (fun input state _ mine _ => others input state mine) owned (fun _ _ => trivial) trivial rfl).1

end Outputs

end Codel00p.Run
