import Codel00p.Harness.Pipeline
import Codel00p.Lib.Pieces

/-! References to earlier steps of a pipeline by their index: what they resolve to in a whole run. -/

namespace Codel00p

def stepReference (index : Nat) : String := "steps." ++ toString index

/-- The context once steps with the given ids have the given outputs. -/
def contextAfter (context : List (String × Json)) (entries : List (Option String × Json)) : List (String × Json) :=
  entries.foldl (fun context entry => recordOutput context entry.1 entry.2) context

/-! ### Looking a step up -/

theorem lookupPath_two {first second : List Char} (named : first ≠ []) (numbered : second ≠ [])
    (letters : ∀ c ∈ first, c ≠ '.' ∧ c ≠ '[' ∧ c ≠ ']') (digits : ∀ c ∈ second, c ≠ '.' ∧ c ≠ '[' ∧ c ≠ ']')
    (context : List (String × Json)) : lookupPath (String.ofList (first ++ '.' :: second)) context =
      (context.lookup (String.ofList first)).bind (stepInto · (String.ofList second)) := by
  -- Nothing in the path is a bracket, so it is looked up as it is.
  have kept : (first ++ '.' :: second).filterMap (fun c =>
      if c = '[' then some '.' else if c = ']' then none else some c) = first ++ '.' :: second := by
    have same : ∀ c ∈ first ++ '.' :: second,
        (if c = '[' then some '.' else if c = ']' then none else some c) = some c := by
      intro c member
      have plain : c ≠ '[' ∧ c ≠ ']' := by
        rcases List.mem_append.1 member with front | rest
        · exact (letters c front).2
        · rcases List.mem_cons.1 rest with rfl | back
          · decide
          · exact (digits c back).2
      rw [if_neg plain.1, if_neg plain.2]
    rw [List.filterMap_congr same, List.filterMap_some]
  have cut : splitPieces (· == '.') (String.ofList (first ++ '.' :: second)) =
      [String.ofList first, String.ofList second] := by
    rw [splitPieces_piece named (fun c member => by simpa using (letters c member).1) (by simp),
      splitPieces_last numbered (fun c member => by simpa using (digits c member).1)]
  rw [lookupPath, String.toList_ofList, kept, cut]
  show (context.lookup (String.ofList first) >>= [String.ofList second].foldlM stepInto) = _
  cases context.lookup (String.ofList first) with
  | none => rfl
  | some cursor => simp

theorem plain_of_isDigitOf {c : Char} (digit : isDigitOf 10 c = true) : c ≠ '.' ∧ c ≠ '[' ∧ c ≠ ']' := by
  refine ⟨?_, ?_, ?_⟩
  all_goals
    rintro rfl
    simp [isDigitOf] at digit

theorem lookupPath_stepReference (index : Nat) (context : List (String × Json)) :
    lookupPath (stepReference index) context = (context.lookup "steps").bind (stepInto · (toString index)) := by
  have digits : ∀ c ∈ (toString index).toList, c ≠ '.' ∧ c ≠ '[' ∧ c ≠ ']' := by
    intro c member
    rw [toList_toString] at member
    exact plain_of_isDigitOf (isDigitOf_toDigits (by omega) (Nat.le_refl 10) index c member)
  have nonempty : (toString index).toList ≠ [] := by
    rw [toList_toString]
    exact Nat.toDigits_ne_nil
  have spelled : stepReference index = String.ofList ("steps".toList ++ '.' :: (toString index).toList) := by
    rw [stepReference, ← String.toList_inj, String.toList_append, String.toList_ofList]
    simp
  rw [spelled, lookupPath_two (by simp) nonempty (by simp) digits, String.ofList_toList, String.ofList_toList]

theorem stepInto_array {index : Nat} (fits : index < 2 ^ 64) (items : List Json) :
    stepInto (.array items) (toString index) = items[index]? := by
  rw [stepInto, parseUsize_toString fits, Option.bind_some]

theorem stepInto_ne_self (value : Json) (segment : String) : stepInto value segment ≠ some value := by
  intro same
  cases value with
  | object fields =>
    have member : (segment, Json.object fields) ∈ fields := Assoc.mem_of_lookup same
    have smaller := List.sizeOf_lt_of_mem member
    simp only [Json.object.sizeOf_spec, Prod.mk.sizeOf_spec] at smaller
    omega
  | array items =>
    obtain ⟨index, _, found⟩ := Option.bind_eq_some_iff.1 same
    have smaller := List.sizeOf_lt_of_mem (List.mem_of_getElem? found)
    simp only [Json.array.sizeOf_spec] at smaller
    omega
  | _ => cases same

/-! ### What the context has for all steps -/

/-- Outputs are added at the end of an array; anything else stays as it is. -/
def appendOutputs (current : Json) (outputs : List Json) : Json :=
  match current with
  | .array items => .array (items ++ outputs)
  | other => other

/-- Recording the output of a step that is not called `steps` adds it to the outputs so far. -/
theorem lookup_recordOutput {id : Option String} (other : id ≠ some "steps") (context : List (String × Json))
    (output : Json) : (recordOutput context id output).lookup "steps" =
      (context.lookup "steps").map (appendOutputs · [output]) := by
  have pushed : (recordOutput context none output).lookup "steps" =
      (context.lookup "steps").map (appendOutputs · [output]) := by
    simp only [recordOutput]
    cases found : context.lookup "steps" with
    | none => simp [found]
    | some current =>
      cases current with
      | array items => simp [appendOutputs]
      | _ => simp [found, appendOutputs]
  cases id with
  | none => exact pushed
  | some id =>
    -- The id is entered last, under another name.
    have entered : recordOutput context (some id) output = Assoc.insert id output (recordOutput context none output) :=
      rfl
    rw [entered, Assoc.lookup_insert_other (fun same => other (by rw [same])), pushed]

/-- Recording the output of a step called `steps` replaces the outputs so far. -/
theorem lookup_recordOutput_steps (context : List (String × Json)) (output : Json) :
    (recordOutput context (some "steps") output).lookup "steps" = some output :=
  Assoc.lookup_insert_self "steps" output _

/-- Steps that are not called `steps` add their outputs one after the other. -/
theorem lookup_contextAfter {entries : List (Option String × Json)} (others : ∀ entry ∈ entries, entry.1 ≠ some "steps")
    (context : List (String × Json)) : (contextAfter context entries).lookup "steps" =
      (context.lookup "steps").map (appendOutputs · (entries.map (·.2))) := by
  induction entries generalizing context with
  | nil =>
    rw [show contextAfter context [] = context from rfl]
    cases context.lookup "steps" with
    | none => rfl
    | some current =>
      cases current with
      | array items => simp [appendOutputs]
      | _ => rfl
  | cons entry entries ih =>
    obtain ⟨first, more⟩ := List.forall_mem_cons.1 others
    rw [show contextAfter context (entry :: entries) =
      contextAfter (recordOutput context entry.1 entry.2) entries from rfl, ih more, lookup_recordOutput first]
    cases context.lookup "steps" with
    | none => rfl
    | some current =>
      cases current with
      | array items => simp [appendOutputs]
      | _ => rfl

theorem exists_last {α : Type} {kind : α → Prop} {items : List α} (occurs : ∃ item ∈ items, kind item) :
    ∃ front item back, items = front ++ item :: back ∧ kind item ∧ ∀ later ∈ back, ¬kind later := by
  induction items with
  | nil =>
    obtain ⟨item, member, _⟩ := occurs
    cases member
  | cons first items ih =>
    by_cases later : ∃ item ∈ items, kind item
    · obtain ⟨front, item, back, rfl, found, none⟩ := ih later
      exact ⟨first :: front, item, back, rfl, found, none⟩
    · obtain ⟨item, member, found⟩ := occurs
      rcases List.mem_cons.1 member with rfl | behind
      · exact ⟨[], item, items, rfl, found, fun other inside holds => later ⟨other, inside, holds⟩⟩
      · exact absurd ⟨item, behind, found⟩ later

/--
The references to the steps so far resolve to their outputs exactly when none of them is called `steps`.

A step of that name puts its own output in the place of the outputs so far.
-/
theorem stepReferences_iff {context : List (String × Json)} (fresh : context.lookup "steps" = some (.array []))
    {entries : List (Option String × Json)} (sized : entries.length ≤ 2 ^ 64) : (∀ k entry, entries[k]? = some entry →
        lookupPath (stepReference k) (contextAfter context entries) = some entry.2) ↔
      ∀ entry ∈ entries, entry.1 ≠ some "steps" := by
  constructor
  · intro resolve
    by_contra called
    have one : ∃ entry ∈ entries, entry.1 = some "steps" := by simpa using called
    obtain ⟨front, entry, back, rfl, named, others⟩ := exists_last one
    -- The array of outputs is replaced at the last step of that name, and grows from there.
    have replaced : (contextAfter context (front ++ entry :: back)).lookup "steps" =
        some (appendOutputs entry.2 (back.map (·.2))) := by
      have split : contextAfter context (front ++ entry :: back) =
          contextAfter (recordOutput (contextAfter context front) entry.1 entry.2) back := by
        simp [contextAfter]
      rw [split, lookup_contextAfter others, named, lookup_recordOutput_steps]
      rfl
    have itself := resolve front.length entry (by simp)
    rw [lookupPath_stepReference, replaced, Option.bind_some] at itself
    have fits : front.length < 2 ^ 64 := by
      simp only [List.length_append, List.length_cons] at sized
      omega
    cases value : entry.2 with
    | array items =>
      rw [value, appendOutputs, stepInto_array fits] at itself
      by_cases inside : front.length < items.length
      · -- The output would be an item of itself.
        rw [List.getElem?_append_left inside] at itself
        exact stepInto_ne_self (.array items) (toString front.length) (by rw [stepInto_array fits, itself])
      · -- The array is too short to have an item for the last step.
        obtain ⟨last, final⟩ : ∃ last, (front ++ entry :: back)[front.length + back.length]? = some last := by
          refine ⟨_, List.getElem?_eq_getElem ?_⟩
          simp only [List.length_append, List.length_cons]
          omega
        have missing := resolve (front.length + back.length) last final
        have small : front.length + back.length < 2 ^ 64 := by
          simp only [List.length_append, List.length_cons] at sized
          omega
        rw [lookupPath_stepReference, replaced, Option.bind_some, value, appendOutputs, stepInto_array small,
          List.getElem?_eq_none] at missing
        · cases missing
        · simp only [List.length_append, List.length_map]
          omega
    | _ =>
      rw [value] at itself
      exact stepInto_ne_self _ _ itself
  · intro others k entry found
    have inside : k < 2 ^ 64 := by
      have bound := (List.getElem?_eq_some_iff.1 found).1
      omega
    rw [lookupPath_stepReference, lookup_contextAfter others, fresh, Option.map_some, Option.bind_some, appendOutputs,
      stepInto_array inside, List.nil_append, List.getElem?_map, found, Option.map_some]

/-! ### Whole runs -/

/-- A step that a run got to: the context its references are resolved in, and how its call ended. -/
structure Visit where
  context : List (String × Json)
  result : Except HarnessError DispatchOutcome

/-- What later references are to see of a step: its output, or null for a failure. -/
def Visit.output (visit : Visit) : Json :=
  match visit.result with
  | .ok outcome => if outcome.ok then outcome.value else .null
  | .error _ => .null

section

variable {ω : Type} (codec : JsonCodec) (policy : PermissionPolicy ω) (subTools : ToolRegistry ω)
  (stopOnError : Bool) (idLabel : String)

def callStep (step : PipelineStep) (index : Nat) (context : List (String × Json)) (world : World ω) :
    Except HarnessError DispatchOutcome × World ω :=
  Program.exec (dispatchTool codec policy subTools step.tool (resolveReferences codec context step.input)
    (idLabel ++ "-step-" ++ toString index)) world

/-- The steps that a run gets to, one after the other. -/
def visits : List PipelineStep → Nat → List (String × Json) → World ω → List Visit
  | [], _, _, _ => []
  | step :: steps, index, context, world =>
    let ended := callStep codec policy subTools idLabel step index context world
    let visit : Visit := { context, result := ended.1 }
    match ended.1 with
    | .error _ => [visit]
    | .ok outcome =>
      if outcome.ok || !stopOnError then
        visit :: visits steps (index + 1) (recordOutput context step.id visit.output) ended.2
      else [visit]

def visitReport (step : PipelineStep) (index : Nat) (visit : Visit) : Json :=
  stepReport index step (subTools.permissionScope step.tool (resolveReferences codec visit.context step.input))
    (match visit.result with
      | .ok outcome => outcome
      | .error _ => { ok := false, value := .null })

variable {steps : List PipelineStep} {index : Nat} {context : List (String × Json)} {world : World ω}

theorem visits_error {step : PipelineStep} {reached : World ω} {error : HarnessError}
    (ended : callStep codec policy subTools idLabel step index context world = (.error error, reached)) :
    visits codec policy subTools stopOnError idLabel (step :: steps) index context world =
      [{ context, result := .error error }] := by
  simp only [visits, ended]

theorem visits_ok {step : PipelineStep} {reached : World ω} {outcome : DispatchOutcome}
    (ended : callStep codec policy subTools idLabel step index context world = (.ok outcome, reached)) :
    visits codec policy subTools stopOnError idLabel (step :: steps) index context world =
      { context, result := .ok outcome } :: if outcome.ok || !stopOnError then
          visits codec policy subTools stopOnError idLabel steps (index + 1)
            (recordOutput context step.id (if outcome.ok then outcome.value else .null)) reached
        else [] := by
  simp only [visits, ended, Visit.output]
  split
  · rfl
  · rfl

theorem reports_eq (steps : List PipelineStep) (index : Nat) (context : List (String × Json)) (run done : PipelineRun)
    (world reached : World ω)
    (ran : Program.exec (runSteps codec policy subTools stopOnError idLabel steps index context run) world =
      (.ok done, reached)) :
    done.reports = run.reports ++ (steps.zipIdx index).zipWith
      (fun numbered visit => visitReport codec subTools numbered.1 numbered.2 visit)
      (visits codec policy subTools stopOnError idLabel steps index context world) := by
  induction steps generalizing index context run world with
  | nil =>
    obtain ⟨same, _⟩ := Prod.mk.inj ran
    cases same
    simp [visits]
  | cons step steps ih =>
    rw [runSteps, Program.exec_bind_eq_ok] at ran
    obtain ⟨outcome, between, called, goesOn⟩ := ran
    rw [visits_ok codec policy subTools stopOnError idLabel called]
    by_cases ok : outcome.ok = true
    · rw [if_pos ok] at goesOn
      rw [ih _ _ _ _ goesOn]
      simp [ok, visitReport]
    · rw [if_neg ok] at goesOn
      by_cases stop : stopOnError = true
      · -- The run ends here, with the report of the failure.
        rw [if_pos stop] at goesOn
        obtain ⟨same, _⟩ := Prod.mk.inj goesOn
        cases same
        simp [ok, stop, visitReport]
      · rw [if_neg stop] at goesOn
        rw [ih _ _ _ _ goesOn]
        simp [ok, stop, visitReport]

/-- The context of a step has the outputs of the steps before it. -/
theorem visits_context {i : Nat} {visit : Visit}
    (found : (visits codec policy subTools stopOnError idLabel steps index context world)[i]? = some visit) :
    i < steps.length ∧ visit.context = contextAfter context
      (((steps.zip (visits codec policy subTools stopOnError idLabel steps index context world)).take i).map
        fun pair => (pair.1.id, pair.2.output)) := by
  induction steps generalizing index context world i with
  | nil => simp [visits] at found
  | cons step steps ih =>
    rcases ended : callStep codec policy subTools idLabel step index context world with ⟨result, reached⟩
    cases result with
    | error error =>
      rw [visits_error codec policy subTools stopOnError idLabel ended] at found ⊢
      cases i with
      | zero =>
        cases found
        exact ⟨by simp, rfl⟩
      | succ i => simp at found
    | ok outcome =>
      rw [visits_ok codec policy subTools stopOnError idLabel ended] at found ⊢
      cases i with
      | zero =>
        cases found
        exact ⟨by simp, rfl⟩
      | succ i =>
        rw [List.getElem?_cons_succ] at found
        split at found
        · next goes =>
          -- The others start from what this step has recorded.
          obtain ⟨inside, recorded⟩ := ih found
          refine ⟨by simpa using inside, ?_⟩
          rw [recorded, if_pos goes]
          rfl
        · simp at found

/--
References to earlier steps resolve to their outputs, or null where they failed.

For a step that a run gets to, all of them do so exactly when no step before it is called `steps`. A
vector has no more elements than a machine word can count.
-/
theorem step_references_iff (steps : List PipelineStep) (sized : steps.length ≤ 2 ^ 64)
    (initialContext : List (String × Json)) (world : World ω) (i : Nat) (visit : Visit)
    (reached : (visits codec policy subTools stopOnError idLabel steps 0
      (Assoc.insert "steps" (.array []) initialContext) world)[i]? = some visit) :
    (∀ k earlier, k < i → (visits codec policy subTools stopOnError idLabel steps 0
        (Assoc.insert "steps" (.array []) initialContext) world)[k]? = some earlier →
          lookupPath (stepReference k) visit.context = some earlier.output) ↔
      ∀ step ∈ steps.take i, step.id ≠ some "steps" := by
  obtain ⟨inside, context⟩ := visits_context codec policy subTools stopOnError idLabel reached
  generalize visits codec policy subTools stopOnError idLabel steps 0 _ world = run at reached context ⊢
  -- Each step before this one has an id and an output, which are what the context was made from.
  have entry_iff : ∀ k entry, (((steps.zip run).take i).map fun pair => (pair.1.id, pair.2.output))[k]? = some entry ↔
      k < i ∧ ∃ step earlier, steps[k]? = some step ∧ run[k]? = some earlier ∧ entry = (step.id, earlier.output) := by
    intro k entry
    rw [List.getElem?_map, List.getElem?_take]
    split
    · next before =>
      simp only [before, true_and, Option.map_eq_some_iff, List.getElem?_zip_eq_some, Prod.exists]
      constructor
      · rintro ⟨step, earlier, ⟨listed, visited⟩, rfl⟩
        exact ⟨step, earlier, listed, visited, rfl⟩
      · rintro ⟨step, earlier, listed, visited, rfl⟩
        exact ⟨step, earlier, ⟨listed, visited⟩, rfl⟩
    · next behind => simp [behind]
  have listed : ∀ k, k < i → ∃ step earlier, steps[k]? = some step ∧ run[k]? = some earlier := by
    intro k before
    have bound := (List.getElem?_eq_some_iff.1 reached).1
    exact ⟨steps[k], run[k], List.getElem?_eq_getElem (by omega), List.getElem?_eq_getElem (by omega)⟩
  generalize ((steps.zip run).take i).map (fun pair => (pair.1.id, pair.2.output)) = entries at context entry_iff
  have short : entries.length ≤ 2 ^ 64 := by
    by_contra long
    have late := ((entry_iff (2 ^ 64) entries[2 ^ 64]).1 (List.getElem?_eq_getElem (by omega))).1
    omega
  rw [context]
  refine Iff.trans ?_ ((stepReferences_iff (Assoc.lookup_insert_self "steps" (.array []) initialContext) short).trans ?_)
  · constructor
    · intro resolve k entry found
      obtain ⟨before, step, earlier, _, visited, rfl⟩ := (entry_iff k entry).1 found
      exact resolve k earlier before visited
    · intro resolve k earlier before visited
      obtain ⟨step, _, given, _⟩ := listed k before
      exact resolve k (step.id, earlier.output) ((entry_iff k _).2 ⟨before, step, earlier, given, visited, rfl⟩)
  · constructor
    · intro others step member
      obtain ⟨k, found⟩ := List.mem_iff_getElem?.1 member
      rw [List.getElem?_take] at found
      split at found
      · next before =>
        obtain ⟨_, earlier, _, visited⟩ := listed k before
        exact others (step.id, earlier.output) (List.mem_iff_getElem?.2
          ⟨k, (entry_iff k _).2 ⟨before, step, earlier, found, visited, rfl⟩⟩)
      · cases found
    · intro others entry member
      obtain ⟨k, found⟩ := List.mem_iff_getElem?.1 member
      obtain ⟨before, step, earlier, given, _, rfl⟩ := (entry_iff k entry).1 found
      refine others step (List.mem_iff_getElem?.2 ⟨k, ?_⟩)
      rw [List.getElem?_take, if_pos before, given]

end

/-- The tools of a small pipeline: one that answers with a text. -/
def notingTools : ToolRegistry Unit :=
  ({} : ToolRegistry Unit).withTool
    { name := "note", description := "", inputSchema := .null, execute := fun _ => pure { content := .string "noted" } }

/-- The steps that a run of two calls gets to, the first of them with an id. -/
def notingVisits (id : Option String) : List Visit :=
  visits { parse _ := none, render _ := "" } allowAllPermissionPolicy notingTools true "pipeline"
    [{ id, tool := "note", input := .object [] }, { id := none, tool := "note", input := .object [] }] 0
    (Assoc.insert "steps" (.array []) []) { host := () }

/-- The output of a step called `steps` is not found by its index in the step behind it. -/
theorem reference_to_steps_lost :
    (notingVisits (some "steps")).map (fun visit => visit.output.asStr) = [some "noted", some "noted"] ∧
      ((notingVisits (some "steps"))[1]?.bind fun visit => (lookupPath (stepReference 0) visit.context).bind Json.asStr) =
        none := by
  decide +kernel

/-- The output of a step with another name is found by its index. -/
theorem step_references_named : ∃ visit, (notingVisits (some "first"))[1]? = some visit ∧
    ∀ k earlier, k < 1 → (notingVisits (some "first"))[k]? = some earlier →
      lookupPath (stepReference k) visit.context = some earlier.output := by
  obtain ⟨visit, reached⟩ : ∃ visit, (notingVisits (some "first"))[1]? = some visit :=
    Option.isSome_iff_exists.1 (by decide +kernel)
  exact ⟨visit, reached, (step_references_iff _ _ _ _ _ _ (by decide) _ _ 1 visit reached).2 (by simp)⟩

end Codel00p
