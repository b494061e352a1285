import Codel00p.Harness.Registry

/-! Which tools of a registry are advertised, and which are kept behind the search. -/

namespace Codel00p.ToolRegistry

variable {ω : Type}

def Registered (registry : ToolRegistry ω) (name : String) : Prop := (registry.tools.lookup name).isSome = true

inductive Built : ToolRegistry ω → Prop
  | new : Built {}
  | withTool {registry : ToolRegistry ω} (built : Built registry) (tool : Tool ω) : Built (registry.withTool tool)
  | withRegistry {registry incoming : ToolRegistry ω} (built : Built registry) (other : Built incoming) :
      Built (registry.withRegistry incoming)
  | withDeferredTool {registry : ToolRegistry ω} (built : Built registry) (tool : Tool ω) :
      Built (registry.withDeferredTool tool)
  | withDeferredRegistry {registry incoming : ToolRegistry ω} (built : Built registry) (other : Built incoming) :
      Built (registry.withDeferredRegistry incoming)
  | withProgressiveDisclosure {registry : ToolRegistry ω} (built : Built registry) (threshold : Nat)
      (keepAdvertised : List String) : Built (registry.withProgressiveDisclosure threshold keepAdvertised)

/-! ### Names that are put in -/

variable {name : String}

theorem mem_deferName {deferred : List String} {other : String} :
    name ∈ deferName deferred other ↔ name ∈ deferred ∨ name = other := by
  unfold deferName
  split
  · next there =>
    constructor
    · exact .inl
    · rintro (before | rfl)
      · exact before
      · exact there
  · rw [List.mem_orderedInsert, or_comm]

theorem mem_foldl_iff {α : Type} (step : List String → α → List String) (adds : α → String → Prop)
    (one : ∀ deferred item name, name ∈ step deferred item ↔ name ∈ deferred ∨ adds item name)
    (items : List α) (deferred : List String) (name : String) :
    name ∈ items.foldl step deferred ↔ name ∈ deferred ∨ ∃ item ∈ items, adds item name := by
  induction items generalizing deferred with
  | nil => simp
  | cons item items ih => simp only [List.foldl_cons, ih, one, List.mem_cons, exists_eq_or_imp, or_assoc]

theorem isSome_lookup_foldl (entries tools : List (String × Tool ω)) (name : String) :
    ((entries.foldl (fun tools entry => Assoc.insert entry.1 entry.2 tools) tools).lookup name).isSome = true ↔
      (tools.lookup name).isSome = true ∨ (entries.lookup name).isSome = true := by
  simp only [List.lookup_isSome_iff (l := entries), beq_iff_eq]
  induction entries generalizing tools with
  | nil => simp
  | cons entry entries ih =>
    simp only [List.foldl_cons, ih, Assoc.isSome_lookup_insert, List.mem_cons, exists_eq_or_imp, or_assoc]

variable (registry incoming : ToolRegistry ω)

theorem registered_withRegistry (name : String) :
    (registry.withRegistry incoming).Registered name ↔ registry.Registered name ∨ incoming.Registered name :=
  isSome_lookup_foldl incoming.tools registry.tools name

theorem registered_withDeferredRegistry (name : String) :
    (registry.withDeferredRegistry incoming).Registered name ↔ registry.Registered name ∨ incoming.Registered name :=
  isSome_lookup_foldl incoming.tools registry.tools name

theorem mem_deferred_withRegistry (name : String) : name ∈ (registry.withRegistry incoming).deferred ↔
    (name ∈ registry.deferred ∧ ¬incoming.Registered name) ∨ (name ∈ incoming.deferred ∧ ¬registry.Registered name) := by
  have adds : name ∈ (registry.withRegistry incoming).deferred ↔
      name ∈ registry.deferred.filter (fun name => (incoming.tools.lookup name).isNone) ∨
        ∃ item ∈ incoming.deferred, ¬registry.Registered item ∧ name = item := by
    refine mem_foldl_iff
      (fun deferred name => if (registry.tools.lookup name).isSome then deferred else deferName deferred name)
      (fun item name => ¬registry.Registered item ∧ name = item) (fun deferred item name => ?_) _ _ _
    by_cases there : (registry.tools.lookup item).isSome = true
    · simp [there, Registered]
    · simp [there, Registered, mem_deferName]
  rw [adds]
  simp only [List.mem_filter, Registered, Option.isNone_iff_eq_none, Option.not_isSome_iff_eq_none]
  constructor
  · rintro (old | ⟨item, member, absent, rfl⟩)
    · exact .inl old
    · exact .inr ⟨member, absent⟩
  · rintro (old | ⟨member, absent⟩)
    · exact .inl old
    · exact .inr ⟨name, member, absent, rfl⟩

theorem mem_deferred_withDeferredRegistry (name : String) :
    name ∈ (registry.withDeferredRegistry incoming).deferred ↔ name ∈ registry.deferred ∨ incoming.Registered name := by
  simp only [Registered, List.lookup_isSome_iff, beq_iff_eq]
  exact mem_foldl_iff (fun deferred (entry : String × Tool ω) => deferName deferred entry.1)
    (fun entry name => name = entry.1) (fun deferred entry name => mem_deferName) _ _ _

theorem registered_of_disclosed {threshold : Nat} {keepAdvertised : List String}
    (hidden : name ∈ (registry.withProgressiveDisclosure threshold keepAdvertised).deferred) :
    name ∈ registry.deferred ∨ registry.Registered name := by
  unfold withProgressiveDisclosure at hidden
  split at hidden
  · exact .inl hidden
  · rw [mem_foldl_iff _ (fun entry name => entry.1 ∉ keepAdvertised ∧ name = entry.1)] at hidden
    · refine hidden.imp_right ?_
      rintro ⟨entry, member, _, rfl⟩
      exact List.lookup_isSome_iff.2 ⟨entry, member, beq_self_eq_true _⟩
    · intro deferred entry name
      by_cases kept : entry.1 ∈ keepAdvertised
      · simp [kept]
      · simp [kept, mem_deferName]

theorem tools_withProgressiveDisclosure (threshold : Nat) (keepAdvertised : List String) :
    (registry.withProgressiveDisclosure threshold keepAdvertised).tools = registry.tools := by
  unfold withProgressiveDisclosure
  split
  · rfl
  · rfl

/-! ### Every hidden tool is registered -/

theorem Built.registered {registry : ToolRegistry ω} (built : Built registry) :
    ∀ name ∈ registry.deferred, registry.Registered name := by
  -- Each operation hides names that it registers, or that were registered before.
  induction built with
  | new => simp
  | withTool _ tool ih =>
    intro name hidden
    obtain ⟨before, _⟩ := List.mem_filter.1 hidden
    exact (Assoc.isSome_lookup_insert _ _ _ _).2 (.inl (ih name before))
  | withRegistry _ _ ih others =>
    intro name hidden
    rw [registered_withRegistry]
    rcases (mem_deferred_withRegistry _ _ name).1 hidden with ⟨before, _⟩ | ⟨there, _⟩
    · exact .inl (ih name before)
    · exact .inr (others name there)
  | withDeferredTool _ tool ih =>
    intro name hidden
    refine (Assoc.isSome_lookup_insert _ _ _ _).2 ((mem_deferName.1 hidden).imp_left ?_)
    exact ih name
  | withDeferredRegistry _ _ ih _ =>
    intro name hidden
    rw [registered_withDeferredRegistry]
    exact ((mem_deferred_withDeferredRegistry _ _ name).1 hidden).imp_left (ih name)
  | withProgressiveDisclosure _ threshold keepAdvertised ih =>
    intro name hidden
    rw [Registered, tools_withProgressiveDisclosure]
    rcases registered_of_disclosed _ hidden with before | there
    · exact ih name before
    · exact there

theorem spec_mem_advertisedSpecs {tool : Tool ω} (found : registry.tools.lookup name = some tool)
    (shown : name ∉ registry.deferred) : tool.spec ∈ registry.advertisedSpecs := by
  have member := Assoc.mem_of_lookup found
  simp only [advertisedSpecs, List.mem_append, List.mem_map, List.mem_filter]
  exact .inl (.inl ⟨(name, tool), ⟨member, by simpa using shown⟩, rfl⟩)

theorem deferred_kept_iff {incoming : ToolRegistry ω} (built : Built incoming) :
    (∀ name ∈ incoming.deferred, name ∈ (registry.withRegistry incoming).deferred) ↔
      ∀ name ∈ incoming.deferred, ¬registry.Registered name := by
  constructor
  · intro kept name hidden
    rcases (mem_deferred_withRegistry _ _ name).1 (kept name hidden) with ⟨_, absent⟩ | ⟨_, absent⟩
    · exact absurd (built.registered name hidden) absent
    · exact absent
  · intro fresh name hidden
    exact (mem_deferred_withRegistry _ _ name).2 (.inr ⟨hidden, fresh name hidden⟩)

/-! ### Hidden tools are found -/

theorem Built.total_matches {registry : ToolRegistry ω} (built : Built registry) :
    ∃ answer, registry.runToolSearch .null = .ok answer ∧
      answer.content.get "total_matches" = some (.ofNat registry.deferred.length) := by
  have nothing : splitPieces isWhitespace (toAsciiLowercase (trim ((Json.null.getStr "query").getD ""))) = [] := by
    decide
  refine ⟨_, rfl, ?_⟩
  simp only [nothing, Json.obj, List.foldl_cons, List.foldl_nil, Json.get_object, List.length_mergeSort]
  rw [Assoc.lookup_insert_other (by decide), Assoc.lookup_insert_other (by decide), Assoc.lookup_insert_self]
  -- Without terms every hidden tool has a score, as it is registered.
  congr 2
  refine List.filterMap_length_eq_length.2 fun name hidden => ?_
  obtain ⟨tool, found⟩ := Option.isSome_iff_exists.1 (built.registered name hidden)
  simp [found, scoreMatch]

/-- A tool that does nothing. -/
def idleTool (name : String) : Tool Unit :=
  { name, description := "", inputSchema := .null, execute := fun _ => pure { content := .null } }

end Codel00p.ToolRegistry
