import ChickenOrder.Services.PosCircuitBreaker

/-!
# Calls at an open circuit

The documentation wraps the retry policy around the breaker, and gives as the reason that the
retries would go on knocking at an open breaker if it were the other way round.  It is this way
that they do: an open breaker throws, and the retry policy around it handles what is thrown like
any other failure.  A call that finds its store's breaker open never fails fast; as long as the
breaker stays open, the call consults it four times and waits through three back-offs.

The registry is looked at one store at a time (`view`), where a call is an attempt, a back-off,
and so on; `view_execute_of_open` and `view_proceed_of_open` are all that happens at an open
breaker.
-/

namespace ChickenOrder

open Interaction

namespace PosCircuitBreakerService

variable {α : Type} {options : BreakerOptions} {now : ℕ}

/-- The breaker of the store exists and is open. -/
def Registry.IsOpenFor (options : BreakerOptions) (storeId : String) (now : ℕ) (s : Registry α) :
    Prop :=
  ∃ breaker, (s.view storeId).breaker = some breaker ∧ breaker.IsOpen options now

/-- The call is over: `fn` was not invoked, the breaker was consulted once, no back-off was
waited through, and the error says that the circuit is open. -/
structure FailsFast (storeId : String) (progress : RetriedCall AttemptId OrderError α) : Prop where
  thrown : (report storeId progress).result = some (.error (.circuitBreakerOpen storeId))
  uninvoked : progress.invocations = 0
  once : progress.consultations = 1
  unwaited : progress.backOffs = 0

/-- The call is over: `fn` was not invoked either, but the breaker was consulted for every attempt,
with a back-off before each but the first. -/
structure FailsSlowly (storeId : String) (progress : RetriedCall AttemptId OrderError α) :
    Prop where
  thrown : (report storeId progress).result = some (.error (.circuitBreakerOpen storeId))
  uninvoked : progress.invocations = 0
  knocked : progress.consultations = maxAttempts + 1
  waited : progress.backOffs = maxAttempts

/-- The call is in a back-off, or has been in one. -/
def BacksOff (progress : RetriedCall AttemptId OrderError α) : Prop :=
  (∃ left, progress.phase = .backingOff left) ∨ .waited ∈ progress.log

theorem BacksOff.resume {test : ℕ → AttemptId} {inFlight : AttemptId → Bool}
    {outcome : Except OrderError α} {progress : RetriedCall AttemptId OrderError α}
    {breaker : CircuitBreaker AttemptId} {broken : OrderError} (h : BacksOff progress) :
    BacksOff (progress.resume options broken test inFlight now outcome breaker).1 := by
  rcases h with ⟨left, hphase⟩ | hwaited
  · obtain ⟨admission, hlog, -⟩ := RetriedCall.attempt_cases options broken (test left) now
      left (progress.log ++ [.waited]) breaker
    refine .inr ?_
    simp only [RetriedCall.resume, hphase]
    rw [hlog]
    simp
  · exact .inr (RetriedCall.log_prefix_resume.subset hwaited)

/-- A call that has backed off has not failed fast. -/
theorem BacksOff.not_failsFast {storeId : String}
    {progress : RetriedCall AttemptId OrderError α} (h : BacksOff progress) :
    ¬ FailsFast storeId progress := by
  intro hfast
  rcases h with ⟨left, hphase⟩ | hwaited
  · have hthrown := hfast.thrown
    simp [report, hphase, RetryPhase.result] at hthrown
  · exact List.countP_eq_zero.mp hfast.unwaited _ hwaited rfl

/-! ## At an open breaker -/

section Open

variable {s : Registry α} {id : CallId} {breaker : CircuitBreaker AttemptId}

/-- The first attempt is rejected and the retry policy backs off: it handles what the breaker throws
like a failure of `fn`. -/
theorem view_execute_of_open (hs : s.WellFormed) (hfresh : s.calls id = none)
    (hbreaker : (s.view id.storeId).breaker = some breaker) (hopen : breaker.IsOpen options now) :
    ((tick options (.execute id now) s).2.view id.storeId).breaker = some breaker ∧
      ((tick options (.execute id now) s).2.view id.storeId).calls id.number =
        some ⟨.backingOff 2, [.consulted .rejected]⟩ := by
  have hview : (s.view id.storeId).calls id.number = none := by simp [Registry.view, hfresh]
  have hstep : (tick options (.execute id now) s).2.view id.storeId =
      (s.view id.storeId).stepWith id.number breaker (begin options id.number now) := by
    have hself := Registry.view_tick_self options hs (.execute id now)
    simpa only [StoreCircuit.step, Action.id, hview, hbreaker, Option.getD_some] using hself
  have hbegin : (begin options id.number now breaker :
      RetriedCall AttemptId OrderError α × _ × _) =
      (⟨.backingOff 2, [.consulted .rejected]⟩, breaker, none) := by
    unfold begin
    rw [RetriedCall.attempt_of_isOpen hopen]
    rfl
  rw [hstep, StoreCircuit.stepWith, hbegin]
  exact ⟨rfl, Function.update_self ..⟩

/-- After a back-off the next attempt is rejected as well. -/
theorem view_proceed_of_open (hs : s.WellFormed) {left : ℕ}
    {log : List (RetryEvent AttemptId OrderError α)}
    (hcall : (s.view id.storeId).calls id.number = some ⟨.backingOff left, log⟩)
    (hbreaker : (s.view id.storeId).breaker = some breaker) (hopen : breaker.IsOpen options now)
    (outcome : Except OrderError α) :
    ((tick options (.proceed id now outcome) s).2.view id.storeId).breaker = some breaker ∧
      ((tick options (.proceed id now outcome) s).2.view id.storeId).calls id.number =
        some ⟨.failed left .brokenCircuit, log ++ [.waited] ++ [.consulted .rejected]⟩ := by
  have hstep := Registry.view_tick_self options hs (.proceed id now outcome)
  simp only [StoreCircuit.step, Action.id, hcall, hbreaker] at hstep
  have hresume : RetriedCall.resume options .brokenCircuit (fun left => (id.number, left))
      (s.view id.storeId).inFlight now outcome ⟨.backingOff left, log⟩ breaker =
      (⟨.failed left .brokenCircuit, log ++ [.waited] ++ [.consulted .rejected]⟩, breaker, none) := by
    simp only [RetriedCall.resume, RetriedCall.attempt_of_isOpen hopen]
  rw [hstep, StoreCircuit.stepWith, hresume]
  exact ⟨rfl, Function.update_self ..⟩

/-- A call that starts now can come to this, whatever the other calls do and whatever the attempts
end with. -/
def Reaches (options : BreakerOptions) (s : Registry α) (id : CallId) (now : ℕ)
    (progress : RetriedCall AttemptId OrderError α) : Prop :=
  ∃ as, ((final (tick options) (.execute id now :: as) s).view id.storeId).calls id.number =
    some progress

/-- It has backed off. -/
theorem Reaches.backsOff (hs : s.WellFormed) (hfresh : s.calls id = none)
    (hopen : s.IsOpenFor options id.storeId now) {progress : RetriedCall AttemptId OrderError α}
    (h : Reaches options s id now progress) : BacksOff progress := by
  obtain ⟨as, hprogress⟩ := h
  obtain ⟨breaker, hbreaker, hisOpen⟩ := hopen
  obtain ⟨-, hcall⟩ := view_execute_of_open hs hfresh hbreaker hisOpen
  rw [final_cons] at hprogress
  refine Registry.call_final options id.number
    (I := fun call => call ≠ none ∧ ∀ progress ∈ call, BacksOff progress) ?_
    (Registry.wellFormed_tick options hs _) ⟨?_, ?_⟩ as |>.2 progress hprogress
  · -- The call has started, so it cannot start again.
    rintro _ _ (_ | _ | _) ⟨hne, hbacksOff⟩
    · exact ⟨hne, hbacksOff⟩
    · exact absurd rfl hne
    · refine ⟨Option.some_ne_none _, ?_⟩
      rintro _ ⟨⟩
      exact (hbacksOff _ rfl).resume
  · rw [hcall]
    exact Option.some_ne_none _
  · rw [hcall]
    rintro _ ⟨⟩
    exact .inl ⟨_, rfl⟩

/-- If the breaker stays open, the call ends after four consultations. -/
theorem exists_failsSlowly (hs : s.WellFormed) (hfresh : s.calls id = none)
    (hopen : s.IsOpenFor options id.storeId now) :
    ∃ progress, Reaches options s id now progress ∧ FailsSlowly id.storeId progress := by
  obtain ⟨breaker, hbreaker, hisOpen⟩ := hopen
  let again : Action α := .proceed id now (.error .brokenCircuit)
  have hs₀ := Registry.wellFormed_tick options hs (.execute id now)
  obtain ⟨hbreaker₀, hcall₀⟩ := view_execute_of_open hs hfresh hbreaker hisOpen
  have hs₁ := Registry.wellFormed_tick options hs₀ again
  obtain ⟨hbreaker₁, hcall₁⟩ := view_proceed_of_open hs₀ hcall₀ hbreaker₀ hisOpen
    (.error .brokenCircuit)
  have hs₂ := Registry.wellFormed_tick options hs₁ again
  obtain ⟨hbreaker₂, hcall₂⟩ := view_proceed_of_open hs₁ hcall₁ hbreaker₁ hisOpen
    (.error .brokenCircuit)
  obtain ⟨-, hcall₃⟩ := view_proceed_of_open hs₂ hcall₂ hbreaker₂ hisOpen (.error .brokenCircuit)
  exact ⟨_, ⟨[again, again, again], hcall₃⟩, rfl, rfl, rfl, rfl⟩

theorem FailsSlowly.not_failsFast {storeId : String}
    {progress : RetriedCall AttemptId OrderError α} (h : FailsSlowly storeId progress) :
    ¬ FailsFast storeId progress := by
  intro hfast
  have honce := hfast.once
  rw [h.knocked] at honce
  cases honce

/-- Whenever the call that starts now is over, it has failed fast.  This is what the documentation
gives as the reason for the order of the policies. -/
def OpenCircuitFailsFast (options : BreakerOptions) (s : Registry α) (id : CallId) (now : ℕ) :
    Prop :=
  ∀ progress, Reaches options s id now progress → progress.phase.result ≠ none →
    FailsFast id.storeId progress

/-- A call that meets an open breaker breaks it. -/
theorem not_openCircuitFailsFast (hs : s.WellFormed) (hfresh : s.calls id = none)
    (hopen : s.IsOpenFor options id.storeId now) : ¬ OpenCircuitFailsFast options s id now := by
  intro hfast
  obtain ⟨progress, hreaches, hslow⟩ := exists_failsSlowly hs hfresh hopen
  refine hslow.not_failsFast (hfast progress hreaches fun hresult => ?_)
  have hthrown := hslow.thrown
  rw [report, hresult] at hthrown
  cases hthrown

end Open

/-! ## Every history -/

/-- The service after a history of calls. -/
def after (options : BreakerOptions) (redis : String → Option RecordedState)
    (history : List (Action α)) : Registry α :=
  final (tick options) history (Registry.start redis)

theorem wellFormed_after (redis : String → Option RecordedState) (history : List (Action α)) :
    (after options redis history).WellFormed :=
  final_invariant (tick options) (I := Registry.WellFormed)
    (fun a _ hs => Registry.wellFormed_tick options hs a) history (Registry.wellFormed_start redis)

/-- **An open circuit never fails fast.**  Whatever the history, a call that finds the breaker
of its store open fails fast in no run, and in one it consults the breaker four times and waits
through three back-offs. -/
theorem never_failsFast (options : BreakerOptions) (redis : String → Option RecordedState)
    (history : List (Action α)) {id : CallId} {now : ℕ}
    (hfresh : (after options redis history).calls id = none)
    (hopen : (after options redis history).IsOpenFor options id.storeId now) :
    ¬ OpenCircuitFailsFast options (after options redis history) id now ∧
      (∀ progress, Reaches options (after options redis history) id now progress →
        ¬ FailsFast id.storeId progress) ∧
      ∃ progress, Reaches options (after options redis history) id now progress ∧
        FailsSlowly id.storeId progress :=
  ⟨not_openCircuitFailsFast (wellFormed_after redis history) hfresh hopen,
    fun _ hreaches => (hreaches.backsOff (wellFormed_after redis history) hfresh hopen).not_failsFast,
    exists_failsSlowly (wellFormed_after redis history) hfresh hopen⟩

/-! ### A store that is down -/

/-- The defaults of the configuration. -/
def defaultOptions : BreakerOptions := ⟨5, 30000⟩

/-- One call that fails four times, and the first attempt of another. -/
def outage : List (Action Unit) :=
  [.execute ⟨"store", 0⟩ 0] ++
    List.replicate 7 (.proceed ⟨"store", 0⟩ 0 (.error (.other "ECONNREFUSED"))) ++
    [.execute ⟨"store", 1⟩ 0, .proceed ⟨"store", 1⟩ 0 (.error (.other "ECONNREFUSED"))]

theorem isOpenFor_outage : (after defaultOptions (fun _ => none) outage).IsOpenFor
    defaultOptions "store" 1 :=
  ⟨⟨.opened 0, 5⟩, by decide +kernel, by decide⟩

theorem calls_outage : (after defaultOptions (fun _ => none) outage).calls ⟨"store", 2⟩ = none := rfl

/-- The third call cannot fail fast, and can fail slowly. -/
theorem never_failsFast_outage :
    ¬ OpenCircuitFailsFast defaultOptions (after defaultOptions (fun _ => none) outage)
        ⟨"store", 2⟩ 1 ∧
      (∀ progress, Reaches defaultOptions (after defaultOptions (fun _ => none) outage)
        ⟨"store", 2⟩ 1 progress → ¬ FailsFast "store" progress) ∧
      ∃ progress, Reaches defaultOptions (after defaultOptions (fun _ => none) outage)
        ⟨"store", 2⟩ 1 progress ∧ FailsSlowly "store" progress :=
  never_failsFast defaultOptions (fun _ => none) outage calls_outage isOpenFor_outage

/-- The third call of an outage knocks at the open breaker. -/
theorem not_openCircuitFailsFast_of_outage :
    ¬ ∀ (options : BreakerOptions) (redis : String → Option RecordedState)
      (history : List (Action Unit)) (id : CallId) (now : ℕ),
      (after options redis history).calls id = none →
      (after options redis history).IsOpenFor options id.storeId now →
      OpenCircuitFailsFast options (after options redis history) id now := by
  intro h
  exact not_openCircuitFailsFast (wellFormed_after _ outage) calls_outage isOpenFor_outage
    (h defaultOptions (fun _ => none) outage ⟨"store", 2⟩ 1 calls_outage isOpenFor_outage)

end PosCircuitBreakerService

end ChickenOrder
