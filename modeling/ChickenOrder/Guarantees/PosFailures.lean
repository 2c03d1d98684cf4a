import ChickenOrder.Services.Calls
import ChickenOrder.Services.OrderProcessor

/-!
# How failures of the point of sale are classified

A failing POST passes four layers on its way to the queue: the adapter, the store's breaker and
retry policy, `handleFailure` and BullMQ.  The adapter turns every failure into the same error,
and the layers above know nothing else, so an order the point of sale refuses with a 4xx is
sent and attempted again like one it could not be reached with.  `handledAsDocumented_iff` says
that the classification is right for every other failure.

The attempt is verified by a weakest precondition in which every POST fails with the same
message, and the world counts what was posted (`Unposted`).  Whatever else the calls meet, an
attempt that has posted ends with an error that is worth a retry; `handledAsDocumented_iff` adds
what the queue makes of it.
-/

namespace ChickenOrder

open Interaction Interaction.Program

/-- How axios reports that a POST failed: with a status that is no success, after a time, or without
an answer.  The adapters see no more of it than its message. -/
inductive PosFailure
  | status (code : ℕ)
  | timeout (ms : ℕ)
  | network (message : String)

namespace PosFailure

/-- `err.message`. -/
def message : PosFailure → String
  | status code => "Request failed with status code " ++ toString code
  | timeout ms => "timeout of " ++ toString ms ++ "ms exceeded"
  | network message => message

/-- A response with a 4xx status. -/
def IsClientError : PosFailure → Prop
  | status code => 400 ≤ code ∧ code < 500
  | timeout _ => False
  | network _ => False

instance (failure : PosFailure) : Decidable failure.IsClientError := by
  cases failure with
  | status code => exact inferInstanceAs (Decidable (_ ∧ _))
  | timeout ms => exact inferInstanceAs (Decidable False)
  | network message => exact inferInstanceAs (Decidable False)

end PosFailure

/-- `isRetryable` of `handleFailure`: anything but a `BusinessLogicError`. -/
def OrderError.isRetryable (error : OrderError) : Bool := !error.isBusinessLogicError

/-- The number of attempts the queue starts. -/
def JobRun.attempts (jobRun : JobRun) : ℕ :=
  jobRun.failures.length + if jobRun.gaveUp then 0 else 1

namespace ProcessOrderService

/-! ## What reaches the queue -/

section Errors

variable {m : String}

/-- The calls of an attempt whose POSTs all fail with `m`. -/
abbrev FailingStep (m : String) :=
  Program.Executes Op.exec fun _ c => c.posAnswer = .error m

/-- No restriction on the calls. -/
abbrev unguarded : Op → World → Prop := fun _ _ => True

/-- A failing POST becomes a `PosUnavailableError`, whatever it failed with.  The adapter catches
everything and looks at the message only. -/
theorem wp_sendOrder_failing (adapter : PosAdapter) (order : DomainOrder) (w : World) :
    (adapter.sendOrder order).wp (FailingStep m) unguarded (fun _ _ => False)
      (fun error _ => error.isRetryable = true) w := by
  rw [adapter.sendOrder_eq order, wp_tryCatch, wp_bind]
  refine (wp_perform_executes Op.exec).mpr ⟨trivial, fun c hc => ?_⟩
  obtain ⟨error, herror⟩ : ∃ error, (Op.exec (.postToPos (adapter.request order)) c w).1 = .error error :=
    Op.exec_postToPos_of_error hc
  rcases hresult : Op.exec (.postToPos (adapter.request order)) c w with ⟨result, w'⟩
  rw [hresult] at herror
  cases herror
  rfl

/-- The breaker and the retries keep it retryable. -/
theorem wp_execute_failing (storeId : String) (adapter : PosAdapter) (order : DomainOrder)
    (w : World) :
    (PosCircuitBreakerService.execute storeId (adapter.sendOrder order)).wp (FailingStep m)
      unguarded (fun _ _ => False) (fun error _ => error.isRetryable = true) w := by
  unfold PosCircuitBreakerService.execute
  rw [wp_tryCatch]
  refine wp_mono _ _ (fun _ _ h => h) (fun error w' herror => ?_)
    (PosCircuitBreakerService.wp_retry_of (J := fun _ => True)
      (E := fun error _ => error.isRetryable = true) (fun w' _ => ?_) (fun _ _ _ => trivial) 3
      trivial)
  · split
    · rfl
    · exact herror
  · unfold PosCircuitBreakerService.breaker
    rw [wp_bind]
    refine (wp_perform_executes Op.exec).mpr ⟨trivial, fun c _ => ?_⟩
    show Program.wp _ _ (if c.circuitOpen then _ else _) _ _ w'
    rw [wp_ite]
    exact ⟨fun _ => rfl, fun _ => wp_sendOrder_failing adapter order w'⟩

/-- Nothing has been posted, or the attempt has failed with an error worth a retry. -/
def Unposted (w : World) (w' : World) : Prop := w'.posInbox = w.posInbox

/-- What is left to show of a failing attempt: nothing was posted, or the error is worth a retry. -/
def Classified (w : World) (error : OrderError) (w' : World) : Prop :=
  Unposted w w' ∨ error.isRetryable = true

/-- Calls that post nothing. -/
theorem wp_unposted {α : Type} {w w' : World} {p : Service α}
    (hp : p.OnlyCalls fun o => ∀ request, o ≠ .postToPos request) (hw : Unposted w w') :
    p.wp (FailingStep m) unguarded (fun _ => Unposted w) (fun error => Classified w error) w' := by
  refine wp_mono _ _ (fun _ _ h => h) (fun _ _ h => .inl h)
    (wp_invariant _ _ (Unposted w) (fun _ _ _ _ => trivial) ?_ hp hw)
  rintro o w₁ r w₂ ho hw₁ ⟨c, -, hexec⟩
  obtain hsame | ⟨request, rfl, -⟩ := o.exec_posInbox c w₁
  · rw [hexec] at hsame
    exact hsame.trans hw₁
  · exact absurd rfl (ho request)

/-- Step 4 fails in this way, or before it posts. -/
theorem wp_sendToPos_failing (payload : OrderJobPayload) (jobMeta : JobMeta) {w w' : World}
    (hw : Unposted w w') :
    (sendToPos payload jobMeta).wp (FailingStep m) unguarded (fun _ => Unposted w)
      (fun error => Classified w error) w' := by
  unfold sendToPos
  rw [wp_bind]
  refine wp_mono _ _ (fun storeRow w₁ hw₁ => ?_) (fun _ _ h => h)
    (wp_unposted (.perform fun _ => nofun) hw)
  cases storeRow with
  | none => exact .inl hw₁
  | some store =>
      cases hadapter : PosAdapterFactory.create store.posType store.posEndpoint store.posApiKeyEnc
        with
      | error err =>
          simp only [hadapter]
          exact .inl hw₁
      | ok posAdapter =>
          simp only [hadapter]
          rw [wp_bind]
          exact wp_mono _ _ (fun _ _ h => h.elim) (fun _ _ h => .inr h)
            (wp_execute_failing payload.storeId posAdapter (domainOrder payload) w₁)

theorem wp_processWithLock_failing (payload : OrderJobPayload) (jobMeta : JobMeta) {w w' : World}
    (hw : Unposted w w') :
    (processWithLock payload jobMeta).wp (FailingStep m) unguarded (fun _ => Unposted w)
      (fun error => Classified w error) w' := by
  unfold processWithLock
  rw [wp_bind]
  refine wp_mono _ _ (fun order w₁ hw₁ => ?_) (fun _ _ h => h)
    (wp_unposted (OrderRepository.create_onlyCalls (fun _ => nofun) fun _ => nofun) hw)
  cases order with
  | none => exact hw₁
  | some order =>
      show Program.wp _ _ (_ >>= _) _ _ w₁
      rw [wp_bind]
      exact wp_mono _ _ (fun _ _ hw₂ => wp_sendToPos_failing payload jobMeta hw₂) (fun _ _ h => h)
        (wp_unposted (OrderRepository.transition_onlyCalls fun _ => nofun) hw₁)

/-- A lock that cannot be released is worth a retry, too. -/
theorem wp_release_classified (payload : OrderJobPayload) (lockToken : LockToken) {w w' : World}
    {error : OrderError} (hclassified : Classified w error w') :
    (DistributedLockService.release payload.orderId lockToken).wp (FailingStep m) unguarded
      (fun _ => Classified w error) (fun error => Classified w error) w' := by
  refine (wp_perform_executes Op.exec).mpr ⟨trivial, fun c _ => ?_⟩
  have hposts : (Op.exec (.lockRelease payload.orderId lockToken) c w').2.posInbox =
      w'.posInbox := by
    obtain hsame | ⟨request, hpost, -⟩ :=
      (Op.lockRelease payload.orderId lockToken).exec_posInbox c w'
    · exact hsame
    · cases hpost
  have herrors : ∀ error', (Op.exec (.lockRelease payload.orderId lockToken) c w').1 =
      .error error' → error'.isRetryable = true := by
    intro error' herror'
    obtain ⟨fault, now, circuitOpen, posAnswer⟩ := c
    cases fault with
    | none => cases herror'
    | rejected reason =>
        cases herror'
        rfl
    | unacknowledged reason =>
        cases herror'
        rfl
  rcases hexec : Op.exec (.lockRelease payload.orderId lockToken) c w' with ⟨result, w''⟩
  rw [hexec] at hposts herrors
  cases result with
  | ok done => exact hclassified.imp_left hposts.trans
  | error error' => exact .inr (herrors error' rfl)

/-- **An attempt that posts and fails is classified as retryable.** The release in the `finally`
block may replace the error by one of its own, which is worth a retry as well. -/
theorem wp_process_failing (payload : OrderJobPayload) (jobMeta : JobMeta) (w : World) :
    (process payload jobMeta).wp (FailingStep m) unguarded (fun _ => Unposted w)
      (fun error => Classified w error) w := by
  unfold process
  rw [wp_bind]
  refine wp_mono _ _ (fun _ w₁ hw₁ => ?_) (fun _ _ h => h)
    (wp_unposted (.bind (.perform fun _ => nofun) fun acquired => ?_) (rfl : Unposted w w))
  swap
  · split <;> trivial
  rw [wp_tryFinally]
  refine wp_mono _ _ (fun _ w₂ hw₂ => ?_) (fun error w₂ hclassified => ?_)
    (wp_processWithLock_failing payload jobMeta hw₁)
  · exact wp_unposted (.perform fun _ => nofun) hw₂
  · exact wp_release_classified payload _ hclassified

end Errors

/-! ## The classification -/

/-- An attempt at a job, run alone. -/
def attempt (choices : ℕ → Choice) (payload : OrderJobPayload) (jobMeta : JobMeta) (w : World) :
    Except OrderError Unit × World :=
  run Op.exec choices (process payload jobMeta) 0 w

/-- The attempt posts to the point of sale, and its POSTs fail this way, each of them. -/
structure FailsAtPos (failure : PosFailure) (choices : ℕ → Choice) (payload : OrderJobPayload)
    (jobMeta : JobMeta) (w : World) : Prop where
  answers : ∀ n, (choices n).posAnswer = .error failure.message
  posts : (attempt choices payload jobMeta w).2.posInbox ≠ w.posInbox

/-- The attempt has posted once, failed for good, and is the last of its job; `left` attempts
were left when it started, and `later` is how those after it end. -/
structure RefusedForGood (choices : ℕ → Choice) (payload : OrderJobPayload) (jobMeta : JobMeta)
    (w : World) (left : ℕ) (later : ℕ → Except OrderError Unit) : Prop where
  once : (attempt choices payload jobMeta w).2.posInbox.length = w.posInbox.length + 1
  classified : ∃ error, (attempt choices payload jobMeta w).1 = .error error ∧
    error.isRetryable = false
  last : (runJob (Function.update later jobMeta.attemptsMade
    (attempt choices payload jobMeta w).1) left jobMeta.attemptsMade).attempts = 1

/-- The failure is handled as the documentation's table says: a 4xx ends the job after one request,
and anything else is tried again. -/
def HandledAsDocumented (failure : PosFailure) (choices : ℕ → Choice) (payload : OrderJobPayload)
    (jobMeta : JobMeta) (w : World) (left : ℕ) (later : ℕ → Except OrderError Unit) : Prop :=
  if failure.IsClientError then RefusedForGood choices payload jobMeta w left later
  else ∃ error, (attempt choices payload jobMeta w).1 = .error error ∧ error.isRetryable = true

section Attempts

variable {failure : PosFailure} {choices : ℕ → Choice} {payload : OrderJobPayload}
  {jobMeta : JobMeta} {w : World} {left : ℕ} {later : ℕ → Except OrderError Unit}

theorem FailsAtPos.retryable (h : FailsAtPos failure choices payload jobMeta w) :
    ∃ error, (attempt choices payload jobMeta w).1 = .error error ∧ error.isRetryable = true := by
  have hrun := wp_run Op.exec choices (n := 0) (fun n _ => h.answers n)
    (wp_process_failing payload jobMeta w)
  have hposts := h.posts
  unfold attempt at hposts ⊢
  split at hrun
  · rename_i done w' hresult
    rw [hresult] at hposts
    exact absurd hrun hposts
  · rename_i error w' hresult
    rw [hresult] at hposts ⊢
    exact ⟨error, rfl, hrun.resolve_left hposts⟩

/-- **Which failures are handled as documented**: all but the client errors, for every payload,
every world and every choice of what the calls meet. -/
theorem handledAsDocumented_iff (h : FailsAtPos failure choices payload jobMeta w) :
    HandledAsDocumented failure choices payload jobMeta w left later ↔ ¬ failure.IsClientError := by
  obtain ⟨error, herror, hretryable⟩ := h.retryable
  unfold HandledAsDocumented
  split
  · rename_i hclient
    refine iff_of_false (fun hrefused => ?_) (not_not.mpr hclient)
    obtain ⟨error', herror', hfinal⟩ := hrefused.classified
    rw [herror] at herror'
    cases herror'
    rw [hretryable] at hfinal
    cases hfinal
  · rename_i hother
    exact iff_of_true ⟨error, herror, hretryable⟩ hother

end Attempts

/-! ### An order the point of sale refuses -/

/-- Every POST is answered with the failure. -/
def answeredWith (failure : PosFailure) (n : ℕ) : Choice :=
  ⟨.none, n, false, .error failure.message⟩

/-- The order is sent four times. -/
theorem attempt_answeredWith :
    (attempt (answeredWith (.status 400)) seedPayload (seedJob 0)
      (World.init .seed)).2.posInbox.length = 4 := by
  decide +kernel

theorem failsAtPos_answeredWith :
    FailsAtPos (.status 400) (answeredWith (.status 400)) seedPayload (seedJob 0)
      (World.init .seed) where
  answers _ := rfl
  posts := by
    intro hposts
    have hlength := attempt_answeredWith
    rw [hposts] at hlength
    cases hlength

theorem handledAsDocumented_iff_seed :
    HandledAsDocumented (.status 400) (answeredWith (.status 400)) seedPayload (seedJob 0)
        (World.init .seed) 3 (fun _ => .ok ()) ↔ ¬ (PosFailure.status 400).IsClientError :=
  handledAsDocumented_iff failsAtPos_answeredWith

/-- A refused order is sent again, four times in each attempt. -/
theorem not_handledAsDocumented_of_refusal :
    ¬ ∀ failure choices payload jobMeta w left later,
      FailsAtPos failure choices payload jobMeta w →
      HandledAsDocumented failure choices payload jobMeta w left later := by
  intro h
  have hhandled := h _ _ _ _ _ 3 (fun _ => .ok ()) failsAtPos_answeredWith
  unfold HandledAsDocumented at hhandled
  rw [if_pos (by decide)] at hhandled
  have honce := hhandled.once
  rw [attempt_answeredWith] at honce
  cases honce

end ProcessOrderService

end ChickenOrder
