import Codel00p.Provider.Client

/-! The course of a request: attempts on one route after the other, and what is said about them. -/

namespace Codel00p

open Program InferenceClient

/-- All attempts on one route: the failures that were followed by another one, and how the last ended. -/
structure RouteRun where
  request : RouteRequest
  retried : List FailedRouteAttempt
  final : Outcome

namespace RouteRun

/-- The attempts of a run in order. -/
def tries (run : RouteRun) : List RouteTry :=
  run.retried.map (fun failed => { request := run.request, outcome := .error failed })
    ++ [{ request := run.request, outcome := run.final }]

def entry (run : RouteRun) : Json :=
  match run.final with
  | .ok success => successfulAttempt success.1 run.request.model
  | .error failed => failedEntry run.request failed true

structure Bounded (retry : RetryPolicy) (run : RouteRun) : Prop where
  repeats : ∀ failed ∈ run.retried, (classifyProviderError failed.error).retryable = true
  attempts : run.tries.length ≤ retry.maxRetries + 1
  /-- No attempt is left out either. -/
  exhausted : ∀ failed, run.final = .error failed →
    (classifyProviderError failed.error).retryable = true → run.tries.length = retry.maxRetries + 1

def FellBack (run : RouteRun) : Prop :=
  ∃ failed, run.final = .error failed ∧ (classifyProviderError failed.error).shouldFallback = true

theorem length_tries (run : RouteRun) : run.tries.length = run.retried.length + 1 := by simp [tries]

end RouteRun

def routesOf (request : RouteRequest) : List RouteRequest :=
  request :: request.fallbackRoutes.map (fallbackRequest request)

/-! ### Entries -/

theorem Json.getStr_obj_append {fields later : List (String × Json)} {key text : String}
    (after : ∀ field ∈ later, field.1 ≠ key) :
    (Json.obj (fields ++ (key, .string text) :: later)).getStr key = some text := by
  have kept : ∀ (later : List (String × Json)) (object : List (String × Json)),
      (∀ field ∈ later, field.1 ≠ key) →
        (later.foldl (fun fields entry => Assoc.insert entry.1 entry.2 fields) object).lookup key
          = object.lookup key := by
    intro later
    induction later with
    | nil => intro _ _; rfl
    | cons field later ih =>
      intro object differ
      rw [List.foldl_cons, ih _ fun other member => differ other (List.mem_cons_of_mem _ member)]
      exact Assoc.lookup_insert_other (differ field List.mem_cons_self).symm _ _
  rw [Json.getStr, Json.obj, Json.get_object, List.foldl_append, List.foldl_cons]
  have found := kept later (Assoc.insert key (.string text)
    (fields.foldl (fun fields entry => Assoc.insert entry.1 entry.2 fields) [])) after
  rw [Assoc.lookup_insert_self] at found
  exact congrArg (Option.bind · Json.asStr) found

theorem successfulAttempt_outcome (route : ResolvedInferenceRoute) (model : String) :
    (successfulAttempt route model).getStr "outcome" = some "success" :=
  Json.getStr_obj_append fun _ member => nomatch member

theorem failedAttempt_outcome (route : Option ResolvedInferenceRoute) (provider model : String)
    (classified : ClassifiedProviderError) (outcome : String) :
    (failedAttempt route provider model classified outcome).getStr "outcome" = some outcome := by
  simp only [failedAttempt, List.append_assoc]
  refine Json.getStr_obj_append fun field member => ?_
  rcases List.mem_append.1 member with kind | hint
  · obtain rfl := List.mem_singleton.1 kind
    exact (by decide : "error_kind" ≠ "outcome")
  · -- The hint is the only other field that may follow.
    split at hint
    · obtain rfl := List.mem_singleton.1 hint
      exact (by decide : "retry_after_secs" ≠ "outcome")
    · exact nomatch hint

theorem RouteRun.FellBack.entry_outcome {run : RouteRun} (fellBack : run.FellBack) :
    run.entry.getStr "outcome" = some "fallback" := by
  obtain ⟨failed, ended, permits⟩ := fellBack
  rw [RouteRun.entry, ended]
  refine (failedAttempt_outcome _ _ _ _ _).trans ?_
  rw [permits]
  rfl

/-! ### One route -/

section

variable (client : InferenceClient) (wire : Wire)

section

variable (request : RouteRequest)

include request

theorem completeOne_tries :
    Moves (fun before after : Traffic => after.tries = before.tries) (client.completeOne wire request) := by
  intro traffic
  rw [completeOne]
  split
  · rfl
  · split
    · rfl
    · split
      · rfl
      · rw [exec_bind, exec_attempt, send, exec_bind, exec_perform]
        simp only [exec_ofExcept]
        split <;> rfl

theorem exec_tryOne (traffic : Traffic) :
    ∃ outcome reached, exec (client.tryOne wire request) traffic = (.ok outcome, reached) ∧
      reached.tries = traffic.tries ++ [⟨request, outcome⟩] := by
  have kept := completeOne_tries client wire request traffic
  refine ⟨(exec (client.completeOne wire request) traffic).1, _, rfl, ?_⟩
  exact congrArg (· ++ _) kept

/-- Attempts on one route make up a run, as long as there are turns left for the retries. -/
theorem exec_retryLoop (left : Nat) :
    ∀ attempt, attempt + left = client.retry.maxRetries → ∀ traffic, ∃ run : RouteRun, ∃ reached,
      exec (client.retryLoop wire request left attempt) traffic = (run.final, reached) ∧
        run.request = request ∧ reached.tries = traffic.tries ++ run.tries ∧
        (∀ failed ∈ run.retried, (classifyProviderError failed.error).retryable = true) ∧ run.retried.length ≤ left ∧
        (∀ failed, run.final = .error failed → (classifyProviderError failed.error).retryable = true →
          run.retried.length = left) := by
  induction left with
  | zero =>
    intro attempt turns traffic
    obtain ⟨outcome, reached, tried, record⟩ := exec_tryOne client wire request traffic
    refine ⟨⟨request, [], outcome⟩, reached, ?_, rfl, record, (by simp), Nat.le_refl _, fun _ _ _ => rfl⟩
    rw [retryLoop, exec_bind, tried]
    cases outcome with
    | ok success => rfl
    | error failed =>
      -- Whether or not it is the bound that stops the loop here, the error is returned.
      show exec (if _ then throw failed else throw failed) reached = _
      rw [ite_self]
      rfl
  | succ left ih =>
    intro attempt turns traffic
    obtain ⟨outcome, between, tried, record⟩ := exec_tryOne client wire request traffic
    cases outcome with
    | ok success =>
      refine ⟨⟨request, [], .ok success⟩, between, ?_, rfl, record, (by simp), Nat.zero_le _, ?_⟩
      · rw [retryLoop, exec_bind, tried]
        rfl
      · exact fun _ wrong => nomatch wrong
    | error failed =>
      by_cases again : (classifyProviderError failed.error).retryable = true
      · -- There is a turn left, so that the bound does not stop the loop here.
        have within : client.retry.shouldRetry attempt (classifyProviderError failed.error).retryable = true := by
          simp only [RetryPolicy.shouldRetry, again, Bool.true_and, decide_eq_true_eq]
          omega
        obtain ⟨run, reached, ran, same, records, repeats, bound, exhausted⟩ := ih (attempt + 1) (by omega) between
        subst same
        refine ⟨⟨run.request, failed :: run.retried, run.final⟩, reached, ?_, rfl, ?_, ?_, ?_, ?_⟩
        · rw [retryLoop, exec_bind, tried]
          show exec (if _ then _ else _) between = _
          rw [if_pos within]
          exact ran
        · rw [records, record]
          simp [RouteRun.tries]
        · exact fun other member => (List.mem_cons.1 member).elim (fun same => same ▸ again) (repeats other)
        · exact Nat.succ_le_succ bound
        · intro other ended retryable
          exact congrArg Nat.succ (exhausted other ended retryable)
      · have stops : client.retry.shouldRetry attempt (classifyProviderError failed.error).retryable = false := by
          rw [Bool.not_eq_true] at again
          rw [RetryPolicy.shouldRetry, again, Bool.false_and]
        refine ⟨⟨request, [], .error failed⟩, between, ?_, rfl, record, (by simp), Nat.zero_le _, ?_⟩
        · rw [retryLoop, exec_bind, tried]
          show exec (if _ then _ else _) between = _
          rw [stops, if_neg (by decide)]
          rfl
        · intro other ended retryable
          cases ended
          exact absurd retryable again

theorem exec_completeOneWithRetry (traffic : Traffic) : ∃ run : RouteRun, ∃ reached,
      exec (client.completeOneWithRetry wire request) traffic = (run.final, reached) ∧
        run.request = request ∧ reached.tries = traffic.tries ++ run.tries ∧ run.Bounded client.retry := by
  obtain ⟨run, reached, ran, same, record, repeats, bound, exhausted⟩ :=
    exec_retryLoop client wire request client.retry.maxRetries 0 (by omega) traffic
  refine ⟨run, reached, ran, same, record, repeats, ?_, fun failed ended retryable => ?_⟩
  · have := run.length_tries
    omega
  · have := exhausted failed ended retryable
    have := run.length_tries
    omega

end

/-! ### One route after the other -/

def EndsWith (request : RouteRequest) (entries : List Json) (last : RouteRun)
    (result : Except ProviderError InferenceResponse) : Prop :=
  match last.final with
  | .ok success => result = .ok (client.succeed request last.request.model entries success)
  | .error failed => result = .error failed.error

/-- Routes in turn: a run on each of them, until one does not fall back or there is no other route. -/
inductive Tried (request : RouteRequest) : (entries : List Json) → (routes : List RouteRequest) →
    (earlier : List RouteRun) → (last : RouteRun) → Except ProviderError InferenceResponse → Prop
  | ends {entries routes result} {run : RouteRun} (bounded : run.Bounded client.retry)
      (stays : run.FellBack → routes = []) (ended : EndsWith client request entries run result) :
      Tried request entries (run.request :: routes) [] run result
  | fallsBack {entries routes earlier last result} {run : RouteRun} (bounded : run.Bounded client.retry)
      (fell : run.FellBack) (next : Tried request (entries ++ [run.entry]) routes earlier last result) :
      Tried request entries (run.request :: routes) (run :: earlier) last result

/-- A result comes of routes in turn, with the attempts of their runs on record. -/
def ComesOf (request : RouteRequest) (entries : List Json) (routes : List RouteRequest) (start : List RouteTry)
    (outcome : Except ProviderError InferenceResponse × Traffic) : Prop :=
  ∃ earlier last, Tried client request entries routes earlier last outcome.1 ∧
    outcome.2.tries = start ++ (earlier ++ [last]).flatMap RouteRun.tries

variable {client} {request : RouteRequest} {entries : List Json} {routes : List RouteRequest}

theorem Tried.facts {earlier : List RouteRun} {last : RouteRun} {result : Except ProviderError InferenceResponse}
    (tried : Tried client request entries routes earlier last result) :
    (earlier ++ [last]).map (·.request) <+: routes ∧ (∀ run ∈ earlier ++ [last], run.Bounded client.retry) ∧
      (∀ run ∈ earlier, run.FellBack) ∧ (last.FellBack → (earlier ++ [last]).length = routes.length) ∧
      EndsWith client request (entries ++ earlier.map RouteRun.entry) last result := by
  induction tried with
  | ends bounded stays ended => exact ⟨by simp, by simpa, by simp, fun fell => by simp [stays fell], by simpa⟩
  | fallsBack bounded fell _ ih =>
    obtain ⟨inOrder, all, fellBack, complete, ended⟩ := ih
    refine ⟨(List.prefix_cons_inj _).2 inOrder, List.forall_mem_cons.2 ⟨bounded, all⟩,
      List.forall_mem_cons.2 ⟨fell, fellBack⟩, fun last => congrArg Nat.succ (complete last), ?_⟩
    simpa using ended

/-- A route is the last one, unless its failure permits to go on. -/
theorem comesOf_route (route : RouteRequest) (traffic : Traffic)
    {rest : FailedRouteAttempt → Program ProviderError Traffic InferenceResponse}
    (goesOn : ∀ (run : RouteRun) failed (reached : Traffic), run.request = route → run.final = .error failed →
      (classifyProviderError failed.error).shouldFallback = true → run.Bounded client.retry →
      reached.tries = traffic.tries ++ run.tries →
        ComesOf client request entries (route :: routes) traffic.tries (exec (rest failed) reached)) :
    ComesOf client request entries (route :: routes) traffic.tries (exec (do
      match ← attempt (client.completeOneWithRetry wire route) with
      | .ok success => return client.succeed request route.model entries success
      | .error failed =>
        if (classifyProviderError failed.error).shouldFallback then rest failed else throw failed.error) traffic) := by
  obtain ⟨run, reached, ran, rfl, record, bounded⟩ := exec_completeOneWithRetry client wire route traffic
  rw [exec_bind, exec_attempt, ran]
  -- A run that is not followed by another one ends with what came of it.
  have alone : ∀ result, EndsWith client request entries run result → ¬run.FellBack →
      ComesOf client request entries (run.request :: routes) traffic.tries (result, reached) :=
    fun result ended stays => ⟨[], run, .ends bounded (fun fell => absurd fell stays) ended, by simpa using record⟩
  rcases outcome : run.final with failed | success
  · dsimp only
    by_cases falls : (classifyProviderError failed.error).shouldFallback = true
    · rw [if_pos falls]
      exact goesOn run failed reached rfl outcome falls bounded record
    · rw [if_neg falls]
      refine alone _ (by simp [EndsWith, outcome]) ?_
      rintro ⟨other, final, permits⟩
      cases outcome.symm.trans final
      exact falls permits
  · refine alone _ (by simp [EndsWith, outcome]) ?_
    rintro ⟨other, final, _⟩
    exact nomatch outcome.symm.trans final

/-- The loop over the fallback routes goes on from the run before it. -/
theorem comesOf_fallbackLoop (fallbacks : List InferenceFallbackRoute) {attempts : List Json} {before : RouteRun}
    {failed : FailedRouteAttempt} (ended : before.final = .error failed)
    (permits : (classifyProviderError failed.error).shouldFallback = true) (bounded : before.Bounded client.retry)
    (recorded : fallbacks ≠ [] → attempts = entries ++ [before.entry]) {start : List RouteTry} {traffic : Traffic}
    (tried : traffic.tries = start ++ before.tries) :
    ComesOf client request entries (before.request :: fallbacks.map (fallbackRequest request)) start
      (exec (client.fallbackLoop wire request attempts failed.error fallbacks) traffic) := by
  induction fallbacks generalizing attempts before failed entries start traffic with
  | nil =>
    refine ⟨[], before, .ends bounded (fun _ => rfl) ?_, by simpa [fallbackLoop] using tried⟩
    simp [EndsWith, ended, fallbackLoop]
  | cons fallback fallbacks ih =>
    have next : ComesOf client request attempts ((fallback :: fallbacks).map (fallbackRequest request)) traffic.tries
        (exec (client.fallbackLoop wire request attempts failed.error (fallback :: fallbacks)) traffic) := by
      refine comesOf_route wire _ traffic fun run failure reached same outcome falls bound record => ?_
      rw [← same]
      exact ih outcome falls bound (fun _ => by rw [RouteRun.entry, outcome]) record
    obtain ⟨earlier, last, more, record⟩ := next
    refine ⟨before :: earlier, last, .fallsBack bounded ⟨failed, ended, permits⟩ ?_, ?_⟩
    · exact recorded (List.cons_ne_nil _ _) ▸ more
    · rw [record, tried, List.cons_append, List.flatMap_cons, List.append_assoc]

end

/--
The course of a request: the runs before the last one, the last one, and the result.

The routes are tried in order, each within the bounds of the retry policy.
All runs but the last fell back.
-/
structure Course (client : InferenceClient) (request : RouteRequest) (earlier : List RouteRun)
    (last : RouteRun) (result : Except ProviderError InferenceResponse) : Prop where
  inOrder : (earlier ++ [last]).map (·.request) <+: routesOf request
  bounded : ∀ run ∈ earlier ++ [last], run.Bounded client.retry
  fellBack : ∀ run ∈ earlier, run.FellBack
  /-- An error that permits another route is the last one only if there is no other route. -/
  allTried : last.FellBack → (earlier ++ [last]).length = (routesOf request).length
  /-- A success is reported with one entry per route, of which only the last one is successful. -/
  succeeded : ∀ success, last.final = .ok success → ∃ response, result = .ok response ∧
    response.providerData.lookup "codel00p_route" =
      some (routeReport success.1 last.request.model ((earlier ++ [last]).map RouteRun.entry)) ∧
    (earlier ++ [last]).map (fun run => run.entry.getStr "outcome") =
      List.replicate earlier.length (some "fallback") ++ [some "success"]
  /-- An error is that of the last route. -/
  failed : ∀ failed, last.final = .error failed → result = .error failed.error

theorem Course.of_tried {client : InferenceClient} {request : RouteRequest} {earlier : List RouteRun}
    {last : RouteRun} {result : Except ProviderError InferenceResponse}
    (tried : Tried client request [] (routesOf request) earlier last result) :
    Course client request earlier last result := by
  obtain ⟨inOrder, bounded, fellBack, allTried, endsWith⟩ := tried.facts
  refine ⟨inOrder, bounded, fellBack, allTried, fun success final => ?_, fun failed final => ?_⟩
  · have entry : last.entry = successfulAttempt success.1 last.request.model := by
      rw [RouteRun.entry, final]
    simp only [EndsWith, final] at endsWith
    refine ⟨_, endsWith, ?_, ?_⟩
    · -- The report replaces whatever the provider put under its name.
      rw [succeed, attachRouteMetadata, Assoc.lookup_insert_self, List.map_append, List.map_singleton, entry]
      rfl
    · rw [List.map_append, List.map_singleton, entry, successfulAttempt_outcome]
      congr 1
      exact List.eq_replicate_iff.2 ⟨List.length_map _, fun outcome member => by
        obtain ⟨run, inside, rfl⟩ := List.mem_map.1 member
        exact (fellBack run inside).entry_outcome⟩
  · simpa only [EndsWith, final] using endsWith

/-- Every request takes such a course, and the attempts on record are just those of its runs. -/
theorem complete_course (client : InferenceClient) (wire : Wire) (request : RouteRequest) (traffic : Traffic) :
    ∃ earlier last, Course client request earlier last (exec (client.complete wire request) traffic).1 ∧
        (exec (client.complete wire request) traffic).2.tries =
          traffic.tries ++ (earlier ++ [last]).flatMap RouteRun.tries := by
  have comes : ComesOf client request [] (routesOf request) traffic.tries
      (exec (client.complete wire request) traffic) := by
    refine comesOf_route wire request traffic fun run failure reached same outcome falls bounded record => ?_
    subst same
    refine comesOf_fallbackLoop wire _ outcome falls bounded (fun some => ?_) record
    rw [RouteRun.entry, outcome, List.isEmpty_eq_false_iff.2 some]
    rfl
  obtain ⟨earlier, last, tried, record⟩ := comes
  exact ⟨earlier, last, .of_tried tried, record⟩

end Codel00p
