import Mathlib.Data.List.Basic

/-!
# Circuit breakers and retries

A consecutive-failures circuit breaker and a call that is retried around it, as machines that
take one step at a time: an attempt consults the breaker (`consult`), and if it is admitted its
outcome reaches the breaker when the invocation ends (`settle`).  Between the two, other calls
may use the same breaker, so that an invocation admitted by a closed breaker can end at an open
one.

The retry policy is the outer of the two.  It knows nothing of the breaker but the error an open
one throws, and handles it like any other: `RetriedCall.resume` is what one such call does next,
and `retried` the result of its attempts.
-/

namespace Interaction

variable {τ ε α : Type}

/-! ## The breaker -/

/-- The state of a breaker; `τ` names the invocations that can test a half-open one.  An open
circuit knows when it was opened. -/
inductive CircuitState (τ : Type)
  | closed
  | opened (openedAt : ℕ)
  | halfOpen (test : τ)
  deriving DecidableEq

/-- A breaker, with its count of consecutive failures. -/
structure CircuitBreaker (τ : Type) where
  state : CircuitState τ
  failures : ℕ
  deriving DecidableEq

/-- `ConsecutiveBreaker(threshold)` with `halfOpenAfter`: how many failures in a row open the
circuit, and for how long it then refuses every call. -/
structure BreakerOptions where
  threshold : ℕ
  halfOpenAfter : ℕ

/-- What a breaker tells its listeners. -/
inductive BreakerEvent
  | broke
  | reset
  deriving DecidableEq

/-- What a consulted breaker answers: it rejects, it admits the invocation, or the invocation waits
for a test to end. -/
inductive Admission (τ : Type)
  | rejected
  | admitted (isTest : Bool)
  | awaits (test : τ)
  deriving DecidableEq

namespace CircuitBreaker

/-- A new breaker: closed, without failures. -/
def initial : CircuitBreaker τ := ⟨.closed, 0⟩

/-- It has been open for less than the configured time. -/
def IsOpen (options : BreakerOptions) (now : ℕ) : CircuitBreaker τ → Prop
  | ⟨.opened openedAt, _⟩ => now < openedAt + options.halfOpenAfter
  | _ => False

instance (options : BreakerOptions) (now : ℕ) :
    (breaker : CircuitBreaker τ) → Decidable (breaker.IsOpen options now)
  | ⟨.opened _, _⟩ => inferInstanceAs (Decidable (_ < _))
  | ⟨.closed, _⟩ => inferInstanceAs (Decidable False)
  | ⟨.halfOpen _, _⟩ => inferInstanceAs (Decidable False)

/-- An invocation may be made, and would be called `test` if it were the breaker's test.  Time alone
opens no circuit and closes none, but makes it half open. -/
def consult (options : BreakerOptions) (test : τ) (now : ℕ) (breaker : CircuitBreaker τ) :
    Admission τ × CircuitBreaker τ :=
  match breaker.state with
  | .closed => (.admitted false, breaker)
  | .opened openedAt =>
      if now < openedAt + options.halfOpenAfter then (.rejected, breaker)
      else (.admitted true, { breaker with state := .halfOpen test })
  | .halfOpen current => (.awaits current, breaker)

/-- The breaker opens, unless it is open. -/
def trip (now : ℕ) (breaker : CircuitBreaker τ) : CircuitBreaker τ × Option BreakerEvent :=
  match breaker.state with
  | .opened _ => (breaker, none)
  | _ => ({ breaker with state := .opened now }, some .broke)

/-- The breaker closes, if it is half-open. -/
def close (breaker : CircuitBreaker τ) : CircuitBreaker τ × Option BreakerEvent :=
  match breaker.state with
  | .halfOpen _ => ({ breaker with state := .closed }, some .reset)
  | _ => (breaker, none)

/-- A success while the breaker is closed starts the count again. -/
def succeed (breaker : CircuitBreaker τ) : CircuitBreaker τ := { breaker with failures := 0 }

/-- A failure is counted. -/
def fail (breaker : CircuitBreaker τ) : CircuitBreaker τ :=
  { breaker with failures := breaker.failures + 1 }

/-- An admitted invocation ends.  A failing test opens the breaker whatever the count is. -/
def settle (options : BreakerOptions) (isTest succeeded : Bool) (now : ℕ)
    (breaker : CircuitBreaker τ) : CircuitBreaker τ × Option BreakerEvent :=
  match isTest, succeeded with
  | false, true => (breaker.succeed, none)
  | false, false =>
      if options.threshold ≤ breaker.fail.failures then breaker.fail.trip now
      else (breaker.fail, none)
  | true, true => breaker.succeed.close
  | true, false => breaker.fail.trip now

/-- An open breaker rejects, and stays as it is. -/
theorem consult_of_isOpen {options : BreakerOptions} {now : ℕ} {breaker : CircuitBreaker τ}
    (h : breaker.IsOpen options now) (test : τ) :
    breaker.consult options test now = (.rejected, breaker) := by
  obtain ⟨state, failures⟩ := breaker
  cases state with
  | closed => exact h.elim
  | opened openedAt => exact if_pos h
  | halfOpen current => exact h.elim

end CircuitBreaker

/-! ## Retries around a breaker -/

/-- Where a retried call is, with the number of retries left after the current attempt. -/
inductive RetryPhase (τ ε α : Type)
  | invoking (left : ℕ) (isTest : Bool)
  | awaiting (left : ℕ) (test : τ)
  | backingOff (left : ℕ)
  | returned (a : α)
  | threw (e : ε)

namespace RetryPhase

/-- The phase after a failed attempt: the back-off before the next, or the end. -/
def failed : ℕ → ε → RetryPhase τ ε α
  | 0, e => .threw e
  | left + 1, _ => .backingOff left

/-- The phase after an invocation. -/
def ended (left : ℕ) : Except ε α → RetryPhase τ ε α
  | .ok a => .returned a
  | .error e => failed left e

/-- What a call has ended with, if it has. -/
def result : RetryPhase τ ε α → Option (Except ε α)
  | .returned a => some (.ok a)
  | .threw e => some (.error e)
  | _ => none

end RetryPhase

/-- What happens to a retried call. -/
inductive RetryEvent (τ ε α : Type)
  | consulted (admission : Admission τ)
  | settled (outcome : Except ε α)
  | waited

/-- A retried call, with what has happened to it.  The log is what statements about calls are made
of. -/
structure RetriedCall (τ ε α : Type) where
  phase : RetryPhase τ ε α
  log : List (RetryEvent τ ε α)

namespace RetriedCall

/-- How often the breaker has been consulted. -/
def consultations (call : RetriedCall τ ε α) : ℕ :=
  call.log.countP fun | .consulted _ => true | _ => false

/-- How often the function has been invoked. -/
def invocations (call : RetriedCall τ ε α) : ℕ :=
  call.log.countP fun | .consulted (.admitted _) => true | _ => false

/-- How many back-offs it has waited through. -/
def backOffs (call : RetriedCall τ ε α) : ℕ :=
  call.log.countP fun | .waited => true | _ => false

section Policy

variable (options : BreakerOptions) (broken : ε)

/-- An attempt starts by consulting the breaker, which throws `broken` if it is open.  To the retry
policy that is a failure like any other. -/
def attempt (test : τ) (now left : ℕ) (log : List (RetryEvent τ ε α)) (breaker : CircuitBreaker τ) :
    RetriedCall τ ε α × CircuitBreaker τ :=
  match breaker.consult options test now with
  | (.rejected, breaker') => (⟨.failed left broken, log ++ [.consulted .rejected]⟩, breaker')
  | (.admitted isTest, breaker') =>
      (⟨.invoking left isTest, log ++ [.consulted (.admitted isTest)]⟩, breaker')
  | (.awaits current, breaker') =>
      (⟨.awaiting left current, log ++ [.consulted (.awaits current)]⟩, breaker')

/-- What the call does next: its invocation ends with `outcome`, the test it awaits is no longer
in flight, or its back-off is over. -/
def resume (test : ℕ → τ) (inFlight : τ → Bool) (now : ℕ) (outcome : Except ε α)
    (call : RetriedCall τ ε α) (breaker : CircuitBreaker τ) :
    RetriedCall τ ε α × CircuitBreaker τ × Option BreakerEvent :=
  match call.phase with
  | .invoking left isTest =>
      (⟨.ended left outcome, call.log ++ [.settled outcome]⟩,
        breaker.settle options isTest outcome.isOk now)
  | .awaiting left current =>
      if inFlight current then (call, breaker, none)
      else
        let next := attempt options broken (test left) now left call.log breaker
        (next.1, next.2, none)
  | .backingOff left =>
      let next := attempt options broken (test left) now left (call.log ++ [.waited]) breaker
      (next.1, next.2, none)
  | _ => (call, breaker, none)

end Policy

section Attempts

variable {options : BreakerOptions} {broken : ε} {test : ℕ → τ} {inFlight : τ → Bool} {now : ℕ}
  {outcome : Except ε α} {call : RetriedCall τ ε α} {breaker : CircuitBreaker τ}

/-- At an open breaker the attempt fails at once. -/
theorem attempt_of_isOpen (h : breaker.IsOpen options now) (t : τ) (left : ℕ)
    (log : List (RetryEvent τ ε α)) :
    attempt options broken t now left log breaker =
      (⟨.failed left broken, log ++ [.consulted .rejected]⟩, breaker) := by
  rw [attempt, CircuitBreaker.consult_of_isOpen h]

/-- What an attempt adds to the log, and where it leads. -/
theorem attempt_cases (options : BreakerOptions) (broken : ε) (t : τ) (now left : ℕ)
    (log : List (RetryEvent τ ε α)) (breaker : CircuitBreaker τ) :
    ∃ admission, (attempt options broken t now left log breaker).1.log =
        log ++ [.consulted admission] ∧
      (attempt options broken t now left log breaker).1.phase =
        match admission with
        | .rejected => .failed left broken
        | .admitted isTest => .invoking left isTest
        | .awaits current => .awaiting left current := by
  unfold attempt
  split
  · exact ⟨_, rfl, rfl⟩
  · exact ⟨_, rfl, rfl⟩
  · exact ⟨_, rfl, rfl⟩

/-- The log only grows. -/
theorem log_prefix_resume :
    call.log <+: (call.resume options broken test inFlight now outcome breaker).1.log := by
  have hattempt : ∀ left log, call.log <+: log → call.log <+:
      (attempt options broken (test left) now left log breaker).1.log := by
    intro left log hlog
    obtain ⟨admission, hadded, -⟩ :=
      attempt_cases options broken (test left) now left log breaker
    rw [hadded]
    exact hlog.trans (List.prefix_append _ _)
  unfold resume
  split
  · exact List.prefix_append _ _
  · split
    · exact List.prefix_refl _
    · exact hattempt _ _ (List.prefix_refl _)
  · exact hattempt _ _ (List.prefix_append _ _)
  · exact List.prefix_refl _

end Attempts

end RetriedCall

/-! ## The result of the attempts -/

/-- The result of a function that is retried up to `n` times, from those of its attempts: none
yet, the first success, or the error of the last. -/
def retried : ℕ → List (Except ε α) → Option (Except ε α)
  | _, [] => none
  | _, .ok a :: _ => some (.ok a)
  | 0, .error e :: _ => some (.error e)
  | n + 1, .error _ :: outcomes => retried n outcomes

/-- Failed attempts use up retries. -/
theorem retried_append {failures : List (Except ε α)} (h : ∀ outcome ∈ failures, outcome.isOk = false)
    (left : ℕ) (outcomes : List (Except ε α)) :
    retried (failures.length + left) (failures ++ outcomes) = retried left outcomes := by
  induction failures with
  | nil => rw [List.length_nil, Nat.zero_add, List.nil_append]
  | cons failure failures ih =>
      cases failure with
      | ok a => cases h _ (List.mem_cons_self ..)
      | error e =>
          have hlength : (Except.error e :: failures).length + left = failures.length + left + 1 := by
            rw [List.length_cons, Nat.add_right_comm]
          rw [hlength]
          exact ih fun outcome houtcome => h outcome (List.mem_cons_of_mem _ houtcome)

namespace RetriedCall

/-- The attempts that have ended: rejected by the breaker, or with the outcome of the function. -/
def attempts (log : List (RetryEvent τ ε α)) : List (Option (Except ε α)) :=
  log.filterMap fun
    | .consulted .rejected => some none
    | .settled outcome => some (some outcome)
    | _ => none

/-- What the retry policy sees of an attempt. -/
def outcomeOf (broken : ε) (attempt : Option (Except ε α)) : Except ε α :=
  attempt.getD (.error broken)

section Tracks

variable (broken : ε) (n : ℕ)

/-- All attempts have failed so far, and `left` retries of `n` are left after the current one. -/
def Underway (left : ℕ) (log : List (RetryEvent τ ε α)) : Prop :=
  (∀ outcome ∈ (attempts log).map (outcomeOf broken), outcome.isOk = false) ∧
    (attempts log).length + left = n

/-- The phase of a call is what its attempts have led to.  It is the invariant that connects the
two. -/
def Tracks (call : RetriedCall τ ε α) : Prop :=
  match call.phase with
  | .invoking left _ => Underway broken n left call.log
  | .awaiting left _ => Underway broken n left call.log
  | .backingOff left => Underway broken n left call.log
  | .returned a => retried n ((attempts call.log).map (outcomeOf broken)) = some (.ok a)
  | .threw e => retried n ((attempts call.log).map (outcomeOf broken)) = some (.error e)

end Tracks

section Run

variable {options : BreakerOptions} {broken : ε} {n left : ℕ} {log : List (RetryEvent τ ε α)}

/-- Events that end no attempt. -/
theorem Underway.skip {event : RetryEvent τ ε α} (h : Underway broken n left log)
    (hevent : attempts [event] = []) : Underway broken n left (log ++ [event]) := by
  have hattempts : attempts (log ++ [event]) = attempts log := by
    rw [attempts, List.filterMap_append]
    exact (congrArg (attempts log ++ ·) hevent).trans (List.append_nil _)
  unfold Underway
  rwa [hattempts]

/-- An attempt ends. -/
theorem Underway.ended {event : RetryEvent τ ε α} (attempt : Option (Except ε α))
    (h : Underway broken n left log) (hevent : attempts [event] = [attempt]) :
    Tracks broken n ⟨.ended left (outcomeOf broken attempt), log ++ [event]⟩ := by
  obtain ⟨hfailed, hleft⟩ := h
  have hattempts : attempts (log ++ [event]) = attempts log ++ [attempt] := by
    rw [attempts, List.filterMap_append]
    exact congrArg (attempts log ++ ·) hevent
  have hretried : retried n ((attempts (log ++ [event])).map (outcomeOf broken)) =
      retried left [outcomeOf broken attempt] := by
    rw [hattempts, List.map_append, ← hleft, ← List.length_map (outcomeOf broken)]
    exact retried_append hfailed left _
  cases houtcome : outcomeOf broken attempt with
  | ok a =>
      rw [houtcome, retried] at hretried
      exact hretried
  | error e =>
      rw [houtcome] at hretried
      cases left with
      | zero => exact hretried
      | succ left =>
          refine ⟨?_, ?_⟩
          · rw [hattempts, List.map_append, List.map_singleton, houtcome]
            intro outcome hmem
            rcases List.mem_append.mp hmem with hmem | hmem
            · exact hfailed outcome hmem
            · rw [List.mem_singleton.mp hmem]
              rfl
          · rw [hattempts, List.length_append, List.length_singleton]
            omega

/-- A call starts with its first attempt. -/
theorem tracks_attempt {test : τ} {now : ℕ} {breaker : CircuitBreaker τ}
    (h : Underway broken n left log) :
    Tracks broken n (attempt options broken test now left log breaker).1 := by
  unfold attempt
  split
  · exact h.ended none rfl
  · exact h.skip rfl
  · exact h.skip rfl

/-- A call that has not been answered yet is underway with nothing behind it. -/
theorem underway_nil : Underway broken n n ([] : List (RetryEvent τ ε α)) :=
  ⟨nofun, Nat.zero_add n⟩

/-- **The phase of a call goes on being what its attempts have led to**, whatever it does next. -/
theorem Tracks.resume {test : ℕ → τ} {inFlight : τ → Bool} {now : ℕ} {outcome : Except ε α}
    {call : RetriedCall τ ε α} {breaker : CircuitBreaker τ} (h : Tracks broken n call) :
    Tracks broken n (call.resume options broken test inFlight now outcome breaker).1 := by
  obtain ⟨phase, log⟩ := call
  cases phase with
  | invoking left isTest => exact Underway.ended (some outcome) h rfl
  | awaiting left current =>
      by_cases hflight : inFlight current = true
      · simp only [RetriedCall.resume, if_pos hflight]
        exact h
      · simp only [RetriedCall.resume, if_neg hflight]
        exact tracks_attempt h
  | backingOff left => exact tracks_attempt (h.skip rfl)
  | returned a => exact h
  | threw e => exact h

/-- A call that is over has the result of its attempts. -/
theorem Tracks.retried_eq {call : RetriedCall τ ε α} {result : Except ε α}
    (h : Tracks broken n call) (hresult : call.phase.result = some result) :
    retried n ((attempts call.log).map (outcomeOf broken)) = some result := by
  obtain ⟨phase, log⟩ := call
  cases phase with
  | returned a =>
      cases hresult
      exact h
  | threw e =>
      cases hresult
      exact h
  | _ => cases hresult

end Run

end RetriedCall

end Interaction
