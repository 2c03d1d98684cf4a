import ChickenOrder.Services.OrderProcessor

/-!
# When a job goes to the dead letter queue

Two counters decide that a job is given up: the queue's own, the configured
number of attempts, and the constant in `handleFailure`.  `DlqExact` says that
they agree on one run of a job; `dlqExact_iff` says for which numbers of attempts
and which outcomes they do.

BullMQ counts the attempts it has made and raises `failed` with that number; the handler
compares the number with its own constant.  A run of a job is the list of its failures, and from
the second failure on each of them moves the job, so that the number of attempts decides which
of them is the last.
-/

namespace ChickenOrder

open OrderProcessor

/-- The job goes to the dead letter queue exactly when the queue gives up on it: once at most, at
its last failure, and not at all if it completes. -/
structure DlqExact (run : JobRun) : Prop where
  /-- At most one of its failures moves it. -/
  once : run.failures.countP movesToDlq ≤ 1
  /-- That failure is the last one. -/
  last : ∀ event ∈ run.failures, movesToDlq event = true → event.last = true
  /-- A job that is given up has been moved. -/
  complete : run.gaveUp = true → ∃ event ∈ run.failures, movesToDlq event = true

/-- The attempt fails with an error that is worth a retry. -/
def FailsRetryably (outcome : Except OrderError Unit) : Prop :=
  ∃ error, outcome = .error error ∧ error.isBusinessLogicError = false

/-- The attempt fails with a `BusinessLogicError`. -/
def FailsForGood (outcome : Except OrderError Unit) : Prop :=
  ∃ error, outcome = .error error ∧ error.isBusinessLogicError = true

/-- An attempt succeeds, fails in a way that is worth a retry, or fails for good. -/
theorem outcome_cases (outcome : Except OrderError Unit) :
    outcome = .ok () ∨ FailsRetryably outcome ∨ FailsForGood outcome := by
  cases outcome with
  | ok done => exact .inl rfl
  | error error =>
      cases hkind : error.isBusinessLogicError with
      | false => exact .inr (.inl ⟨error, rfl, hkind⟩)
      | true => exact .inr (.inr ⟨error, rfl, hkind⟩)

/-- With one attempt it must not fail retryably, with two the first must not fail for
good, and with more the first two must not both fail, nor the first for good. -/
def CountersAgree (maxAttempts : ℕ) (outcome : ℕ → Except OrderError Unit) : Prop :=
  match maxAttempts with
  | 1 => ¬ FailsRetryably (outcome 0)
  | 2 => ¬ FailsForGood (outcome 0)
  | _ => outcome 0 = .ok () ∨ FailsRetryably (outcome 0) ∧ outcome 1 = .ok ()

/-! ## The handler's constant -/

/-- The first failure moves the job only if it is for good.  It is counted as one attempt, and the
threshold is at two. -/
theorem movesToDlq_first (error : OrderError) (last : Bool) :
    movesToDlq ⟨error, 1, last⟩ = error.isBusinessLogicError := by
  simp [movesToDlq, ProcessOrderService.goesToDlq]

/-- Every later failure moves the job.  The handler's constant is 2, and the event of the second
failure already carries that number. -/
theorem movesToDlq_later (error : OrderError) (k : ℕ) (last : Bool) :
    movesToDlq ⟨error, k + 2, last⟩ = true := by
  simp [movesToDlq, ProcessOrderService.goesToDlq]

variable {outcome : ℕ → Except OrderError Unit} {left : ℕ}

theorem runJob_of_ok {attemptsMade : ℕ} (h : outcome attemptsMade = .ok ()) :
    runJob outcome (left + 1) attemptsMade = ⟨[], false⟩ := by
  rw [runJob, h]

/-- A failure is an event, and the job goes on if attempts are left. -/
theorem runJob_of_error {attemptsMade : ℕ} {error : OrderError}
    (h : outcome attemptsMade = .error error) :
    runJob outcome (left + 1) attemptsMade =
      ⟨⟨error, attemptsMade + 1, left = 0⟩ :: (runJob outcome left (attemptsMade + 1)).failures,
        (runJob outcome left (attemptsMade + 1)).gaveUp⟩ := by
  rw [runJob, h]

/-- A job that succeeds at its next attempt is moved nowhere. -/
theorem dlqExact_of_no_failure : DlqExact ⟨[], false⟩ :=
  ⟨by simp, by simp, by simp⟩

/-- A first failure for good is moved, so it has to be the last.  It is so only if no attempt is
left, as the queue goes on retrying a job that the worker has given up. -/
theorem dlqExact_of_failsForGood (h : FailsForGood (outcome 0)) :
    DlqExact (runJob outcome (left + 1) 0) ↔ left = 0 := by
  obtain ⟨error, herror, hkind⟩ := h
  have hmoves : ∀ last, movesToDlq ⟨error, 1, last⟩ = true := by
    intro last
    rw [movesToDlq_first, hkind]
  rw [runJob_of_error herror]
  constructor
  · intro hexact
    have hlast := hexact.last _ List.mem_cons_self (hmoves _)
    simpa using hlast
  · rintro rfl
    exact ⟨by simp [runJob, hmoves], by simp [runJob], fun _ => ⟨_, List.mem_cons_self, hmoves _⟩⟩

/-- A first failure worth a retry is not moved, so there has to be a second attempt,
and if that fails too it has to be the last. -/
theorem dlqExact_of_failsRetryably (h : FailsRetryably (outcome 0)) :
    DlqExact (runJob outcome (left + 1) 0) ↔ left = 1 ∨ left ≠ 0 ∧ outcome 1 = .ok () := by
  obtain ⟨error, herror, hkind⟩ := h
  have hstays : ∀ last, movesToDlq ⟨error, 1, last⟩ = false := by
    intro last
    rw [movesToDlq_first, hkind]
  rw [runJob_of_error herror]
  -- no attempt is left, and nothing has been moved
  cases left with
  | zero =>
      have hnot : ¬ DlqExact ⟨⟨error, 0 + 1, decide (0 = 0)⟩ :: (runJob outcome 0 (0 + 1)).failures,
          (runJob outcome 0 (0 + 1)).gaveUp⟩ := by
        intro hexact
        obtain ⟨event, hmem, hmoves⟩ := hexact.complete rfl
        rw [List.mem_singleton.mp hmem, hstays] at hmoves
        cases hmoves
      exact iff_of_false hnot (by simp)
  | succ left =>
      rcases houtcome : outcome 1 with error' | ⟨⟩
      · -- the second failure is moved at once
        have hmoves : ∀ last, movesToDlq ⟨error', 1 + 1, last⟩ = true :=
          movesToDlq_later error' 0
        rw [runJob_of_error houtcome]
        constructor
        · intro hexact
          have hlast := hexact.last _ (List.mem_cons_of_mem _ List.mem_cons_self) (hmoves _)
          have hleft : left = 0 := by simpa using hlast
          exact .inl (by rw [hleft])
        · rintro (hleft | ⟨-, hok⟩)
          · have hzero : left = 0 := by omega
            subst hzero
            refine ⟨by simp [runJob, hstays, hmoves], ?_, fun _ =>
              ⟨_, List.mem_cons_of_mem _ List.mem_cons_self, hmoves _⟩⟩
            intro event hmem hmoved
            rcases List.mem_cons.mp hmem with rfl | hmem
            · rw [hstays] at hmoved
              cases hmoved
            · rw [List.mem_singleton.mp hmem]
              rfl
          · cases hok
      · -- the second attempt succeeds, and the first failure was not moved
        rw [runJob_of_ok houtcome]
        have hexact : DlqExact ⟨[⟨error, 0 + 1, decide (left + 1 = 0)⟩], false⟩ := by
          refine ⟨by simp [hstays], fun event hmem hmoved => ?_, nofun⟩
          rw [List.mem_singleton.mp hmem, hstays] at hmoved
          cases hmoved
        exact iff_of_true hexact (.inr ⟨by omega, rfl⟩)

/-- The two kinds of failure exclude each other. -/
theorem not_failsForGood {r : Except OrderError Unit} (h : FailsRetryably r) : ¬ FailsForGood r := by
  obtain ⟨error, rfl, hkind⟩ := h
  rintro ⟨error', herror, hkind'⟩
  cases herror
  rw [hkind] at hkind'
  cases hkind'

/-- **When the two counters agree**, for every configured number of attempts and every sequence of
outcomes: the cases are those of `CountersAgree`, and with three attempts, the default, the first
two must not both fail. -/
theorem dlqExact_iff (outcome : ℕ → Except OrderError Unit) (n : ℕ) :
    DlqExact (runJob outcome (n + 1) 0) ↔ CountersAgree (n + 1) outcome := by
  -- one attempt, two, or more, as the worker counts to two
  have hcases : CountersAgree (n + 1) outcome ↔
      (n = 0 ∧ ¬ FailsRetryably (outcome 0)) ∨ (n = 1 ∧ ¬ FailsForGood (outcome 0)) ∨
        (2 ≤ n ∧ (outcome 0 = .ok () ∨ FailsRetryably (outcome 0) ∧ outcome 1 = .ok ())) := by
    match n with
    | 0 => simp [CountersAgree]
    | 1 => simp [CountersAgree]
    | n + 2 => simp [CountersAgree]
  rw [hcases]
  -- by the first attempt: it succeeds, fails retryably, or fails for good
  rcases outcome_cases (outcome 0) with hok | hretryably | hforGood
  · have hnotRetryably : ¬ FailsRetryably (outcome 0) := by
      rw [hok]
      nofun
    have hnotForGood : ¬ FailsForGood (outcome 0) := by
      rw [hok]
      nofun
    have hn : n = 0 ∨ n = 1 ∨ 2 ≤ n := by omega
    rw [runJob_of_ok hok]
    refine iff_of_true dlqExact_of_no_failure ?_
    rcases hn with hn | hn | hn
    · exact .inl ⟨hn, hnotRetryably⟩
    · exact .inr (.inl ⟨hn, hnotForGood⟩)
    · exact .inr (.inr ⟨hn, .inl hok⟩)
  · have hnotForGood := not_failsForGood hretryably
    have hfails : outcome 0 ≠ .ok () := by
      obtain ⟨error, herror, -⟩ := hretryably
      rw [herror]
      nofun
    rw [dlqExact_of_failsRetryably hretryably]
    simp only [hretryably, hnotForGood, hfails, not_true_eq_false, not_false_eq_true, and_false,
      and_true, false_or, true_and]
    by_cases hsecond : outcome 1 = .ok ()
    · simp only [hsecond, and_true]
      omega
    · simp [hsecond]
  · have hnotRetryably : ¬ FailsRetryably (outcome 0) := fun h => not_failsForGood h hforGood
    have hfails : outcome 0 ≠ .ok () := by
      obtain ⟨error, herror, -⟩ := hforGood
      rw [herror]
      nofun
    rw [dlqExact_of_failsForGood hforGood]
    simp [hforGood, hnotRetryably, hfails]

/-- Three attempts, the default, that all fail with an error worth a retry: the job is moved after
the second, while the queue tries a third time. -/
theorem not_dlqExact_of_default :
    ¬ ∀ (outcome : ℕ → Except OrderError Unit) (n : ℕ), DlqExact (runJob outcome (n + 1) 0) := by
  intro h
  have honce := (h (fun _ => .error (.posUnavailable "1" "timeout")) 2).once
  have htwice : (runJob (fun _ => .error (.posUnavailable "1" "timeout")) 3 0).failures.countP
    movesToDlq = 2 := by decide
  rw [show 2 + 1 = 3 from rfl, htwice] at honce
  omega

end ChickenOrder
