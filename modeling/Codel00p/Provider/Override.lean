import Codel00p.Provider.Registry

/-! Which profile the id of a provider stands for, after profiles were registered one after the other. -/

namespace Codel00p

namespace ProviderRegistry

/-- Register the profiles of plugins, in the order of the plugins. -/
def applyToProviderRegistry (plugins : List (List ProviderProfile)) (base : ProviderRegistry) : ProviderRegistry :=
  plugins.flatten.foldl register base

/-- The profile that was registered last with an id. -/
def lastRegistered (profiles : List ProviderProfile) (id : String) : Option ProviderProfile :=
  (profiles.filter (·.id = id)).getLast?

/-- The id of the profile that claimed an alias last. -/
def aliasOwner (profiles : List ProviderProfile) (name : String) : Option String :=
  (profiles.filter (name ∈ ·.aliases)).getLast?.map (·.id)

theorem lookup_aliases (names : List String) (id name : String) (aliases : List (String × String)) :
    (names.foldl (fun aliases name => Assoc.insert name id aliases) aliases).lookup name
      = if name ∈ names then some id else aliases.lookup name := by
  induction names using List.reverseRecOn with
  | nil => simp
  | append_singleton names last ih =>
    rw [List.foldl_append, List.foldl_cons, List.foldl_nil]
    by_cases own : name = last
    · simp [own]
    · rw [Assoc.lookup_insert_other own, ih]
      simp [own]

/-- The maps hold, under each name, what was registered last. -/
theorem lookup_registered (profiles : List ProviderProfile) (name : String) :
    (profiles.foldl register {}).providers.lookup name = lastRegistered profiles name ∧
      (profiles.foldl register {}).aliases.lookup name = aliasOwner profiles name := by
  induction profiles using List.reverseRecOn with
  | nil => exact ⟨rfl, rfl⟩
  | append_singleton profiles profile ih =>
    obtain ⟨found, owner⟩ := ih
    rw [List.foldl_append, List.foldl_cons, List.foldl_nil, lastRegistered, aliasOwner, List.filter_append,
      List.filter_append]
    constructor
    · by_cases own : profile.id = name
      · simp [register, own]
      · rw [register, Assoc.lookup_insert_other (Ne.symm own), found]
        simp [own, lastRegistered]
    · rw [register, lookup_aliases, owner]
      by_cases own : name ∈ profile.aliases <;> simp [own, aliasOwner]

theorem lastRegistered_id {profiles : List ProviderProfile} {id : String} {profile : ProviderProfile}
    (found : lastRegistered profiles id = some profile) : profile.id = id := by
  have member := List.mem_of_getLast? found
  simpa using (List.mem_filter.1 member).2

/-- The id of a registered profile stands for the profile that was registered last with it, exactly if the name that
is looked up is no alias that another id claimed last. -/
theorem registered_resolves_iff (profiles : List ProviderProfile) (plugins : List (List ProviderProfile))
    (profile : ProviderProfile) (registered : profile ∈ profiles ++ plugins.flatten) :
    (applyToProviderRegistry plugins (profiles.foldl register {})).resolve profile.id
        = lastRegistered (profiles ++ plugins.flatten) profile.id ↔
      (aliasOwner (profiles ++ plugins.flatten) (toAsciiLowercase (trim profile.id))).getD
        (toAsciiLowercase (trim profile.id)) = profile.id := by
  rw [applyToProviderRegistry, ← List.foldl_append, resolve, (lookup_registered _ _).1, (lookup_registered _ _).2]
  constructor
  · intro same
    -- A profile with the id is there, and the one that is found has the id it is found under.
    have some : lastRegistered (profiles ++ plugins.flatten) profile.id ≠ none := by
      simp only [lastRegistered, ne_eq, List.getLast?_eq_none_iff, List.filter_eq_nil_iff, not_forall]
      exact ⟨profile, registered, by simp⟩
    obtain ⟨last, found⟩ := Option.ne_none_iff_exists'.1 some
    rw [found] at same
    exact (lastRegistered_id same).symm.trans (lastRegistered_id found)
  · intro canonical
    rw [canonical]

/-- A plugin's profile for Ollama; its id is an alias of the built-in profile for custom endpoints. -/
def ollamaProfile : ProviderProfile := { id := "ollama", aliases := [], apiMode := .chatCompletions, envVars := [] }

theorem openrouter_resolves : (applyToProviderRegistry [[ollamaProfile]] defaultRegistry).resolve "openrouter"
    = lastRegistered (builtinProfiles ++ [ollamaProfile]) "openrouter" := by
  have registered : builtinProfiles[7] ∈ builtinProfiles ++ [[ollamaProfile]].flatten :=
    List.mem_append_left _ (List.getElem_mem _)
  exact (registered_resolves_iff builtinProfiles [[ollamaProfile]] builtinProfiles[7] registered).2
    (by decide +kernel)

theorem alias_hides_profile : (applyToProviderRegistry [[ollamaProfile]] defaultRegistry).resolve "ollama"
    ≠ lastRegistered (builtinProfiles ++ [ollamaProfile]) "ollama" := by
  decide +kernel

end ProviderRegistry

end Codel00p
