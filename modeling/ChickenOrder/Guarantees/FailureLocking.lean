import ChickenOrder.Services.Locking

/-!
# The failure handler and the order's lock

`handleFailure` takes no lock.  An attempt that is locked out fails like any other, so
its handler may move the order to `FAILED` while the execution that holds the lock waits
for the point of sale.  `FailureApart` says when a handler and an execution do not come
together, and what it asks for at the start of a handler then lasts until the handler
has written.

Whether the point of sale has accepted an order is known to nobody but the point of sale, as the
answer may have been lost.  So it is kept beside the pool, as a record that every step brings up
to date (`acceptedCalls`), for each thread and not for each order: an attempt's own handler is
allowed to find its call open, and `attemptOf` says whose handler it is.
-/

namespace ChickenOrder

open Interaction Interaction.Program ProcessOrderService

/-! ## What the handler does -/

/-- The call is no transition of an order.  The `PATCH` statements are not counted here; they are a
case of their own in what is promised. -/
def Op.LeavesStatus : Op → Prop
  | .repo (.transitionStatus _) => False
  | _ => True

/-- The protocol of failing: the handler asks for a transition only on the way to the
DLQ, right after it has read the order. -/
def failing : Protocol Op.Reply OrderError Outcome Request where
  admits := fun _ => True
  allows := fun _ _ _ => True
  issues := fun q h o => ∀ payload error jobMeta, q = .handleFailure payload error jobMeta →
    o.LeavesStatus ∨ goesToDlq error jobMeta.attemptsMade = true ∧ h.length = 1
  returns := fun _ _ _ => True
  throws := fun _ _ _ => True

section Follows

variable {payload : OrderJobPayload} {error : OrderError} {jobMeta : JobMeta}

/-- `wp` against the protocol of failing, whatever the outcome. -/
abbrev failingWp (payload : OrderJobPayload) (error : OrderError) (jobMeta : JobMeta) {α : Type}
    (p : Service α) (h : List OrderEvent) : Prop :=
  p.wp (failing.record (.handleFailure payload error jobMeta))
    (fun o h => failing.issues (.handleFailure payload error jobMeta) h o) (fun _ _ => True)
    (fun _ _ => True) h

/-- A program without transitions keeps to it, since the protocol restricts transitions and nothing
else. -/
theorem failingWp_of_onlyCalls {α : Type} {p : Service α} (hp : p.OnlyCalls Op.LeavesStatus)
    (h : List OrderEvent) : failingWp payload error jobMeta p h :=
  wp_invariant _ _ (fun _ => True) (fun _ _ ho _ _ _ _ _ => .inl ho) (fun _ _ _ _ _ _ _ => trivial)
    hp trivial

/-- The handler asks for its transition right after the look-up. -/
theorem markFailed_failing (hbranch : goesToDlq error jobMeta.attemptsMade = true) :
    failingWp payload error jobMeta (markFailed payload error jobMeta) [] := by
  unfold failingWp markFailed
  simp only [OrderRepository.findById_eq, OrderRepository.transition_eq, wp_tryCatch, wp_bind,
    wp_perform]
  have hignored : ∀ (err : OrderError) h, failingWp payload error jobMeta
      (if err.isStaleOrderVersionError then return () else Program.throw err) h := by
    intro err h
    refine failingWp_of_onlyCalls ?_ h
    split <;> trivial
  refine ⟨fun _ _ _ _ => .inl trivial, ?_, fun err h _ => hignored err h⟩
  rintro order h₁ ⟨-, rfl⟩
  split
  · trivial
  · rw [wp_perform]
    refine ⟨?_, fun _ _ _ => trivial, fun err h _ => hignored err h⟩
    intro payload' error' jobMeta' hq
    cases hq
    exact .inr ⟨hbranch, rfl⟩

theorem handleFailure_failing (config : AppConfig) :
    failingWp payload error jobMeta (handleFailure config payload error jobMeta) [] := by
  have hnotify : ∀ alert, (NotificationService.sendDlqAlert config alert).OnlyCalls
      Op.LeavesStatus := by
    intro alert
    unfold NotificationService.sendDlqAlert
    split
    · trivial
    · exact .tryCatch (.perform trivial) fun _ => trivial
  unfold handleFailure
  split
  · rename_i hbranch
    unfold failingWp moveToDlq
    rw [wp_bind]
    refine wp_mono _ _ (fun _ h _ => ?_) (fun _ _ _ => trivial) (markFailed_failing hbranch)
    exact failingWp_of_onlyCalls (.bind (.embed Op.repo (.perform (by trivial))) fun _ =>
      .bind (.perform (by trivial)) fun _ => hnotify _) h
  · exact failingWp_of_onlyCalls (.embed Op.repo (.perform (by trivial))) []

end Follows

/-- **Every program follows the protocol of failing.** -/
theorem follows_failing (config : AppConfig) (q : Request) :
    failing.Follows q (q.program config) [] := by
  by_cases hq : ∃ payload error jobMeta, q = .handleFailure payload error jobMeta
  · obtain ⟨payload, error, jobMeta, rfl⟩ := hq
    refine (wp_bind _ _ (handleFailure config payload error jobMeta) (fun _ => return Outcome.done)
      _ _ _).mpr ?_
    exact wp_mono _ _ (fun _ _ _ => trivial) (fun _ _ _ => trivial) (handleFailure_failing config)
  · have hfree : ∀ payload error jobMeta, q ≠ .handleFailure payload error jobMeta :=
      fun payload error jobMeta h => hq ⟨payload, error, jobMeta, h⟩
    exact wp_mono _ _ (fun _ _ _ => trivial) (fun _ _ _ => trivial)
      (wp_always _ _ (fun _ _ _ payload error jobMeta h => absurd h (hfree payload error jobMeta))
        (fun _ _ _ _ _ _ => trivial) _ trivial)

/-! ## Executions at work -/

/-- The thread is an execution for the order: an attempt of any job whose payload has this order id.
-/
def ExecutionOf (id : Uuid) (u : OrderThread) : Prop :=
  ∃ payload jobMeta, u.request = .process payload jobMeta ∧ payload.orderId = id

/-- What a call changes about the caller's order at the point of sale: a request that is
accepted there opens it, and a transition to `SENT_TO_POS` records it.  Both count when
they happen, also if the answer is lost on its way back. -/
def Op.opensPosCall? (o : Op) (c : Choice) (w : World) : Option Bool :=
  match o, c.fault with
  | _, .rejected _ => none
  | .postToPos request, _ =>
      if (Op.effect (.postToPos request) c w).1.isOk then some true else none
  | .repo (.transitionStatus p), _ =>
      if p.nextStatus = .sentToPos ∧ (Op.effect (.repo (.transitionStatus p)) c w).1.isOk then
        some false
      else none
  | _, _ => none

/-- Which threads have had an order accepted by the point of sale and have not recorded
that.  No thread can tell: an acceptance whose answer was lost looks like a refusal. -/
def acceptedCalls (ℓ : OrderLabel) (P _ : OrderPool) (accepted : ℕ → Bool) : ℕ → Bool :=
  match ℓ with
  | .act i c =>
      Function.update accepted i
        (((ℓ.call? P).bind fun o => o.opensPosCall? c P.world).getD (accepted i))
  | _ => accepted

/-- Before the run nothing has been accepted.  What an earlier run has left open is not in the
record. -/
def noneAccepted : ℕ → Bool := fun _ => false

/-- The thread waits for the point of sale, or has been accepted there and has not recorded it.  A
request that was refused is closed again. -/
def PosCallOpen (accepted : Bool) (u : OrderThread) : Prop :=
  (∃ request, u.rest.next = some (.postToPos request)) ∨ accepted = true

/-- No execution for the order is between its acquire and its release, and none but `own`
has a call to the point of sale open. -/
structure SparesExecutions (id : Uuid) (own : ℕ) (P : OrderPool) (accepted : ℕ → Bool) :
    Prop where
  unlocked : ∀ j u token, P.threads j = some u → ¬ HoldsLock id token u.hist
  closed : ∀ j u, j ≠ own → P.threads j = some u → ExecutionOf id u →
    ¬ PosCallOpen (accepted j) u

/-- `attemptOf` names the execution that each handler handles: the attempt of the same job
that has failed with the handler's error, and that BullMQ has counted since. -/
def HandlesAttempts (attemptOf : ℕ → ℕ) (ℓ : OrderLabel) (P : OrderPool) : Prop :=
  ∀ i payload error jobMeta, ℓ = .spawn i (.handleFailure payload error jobMeta) →
    ∃ u attempt, P.threads (attemptOf i) = some u ∧ u.request = .process payload attempt ∧
      jobMeta = { attempt with attemptsMade := attempt.attemptsMade + 1 } ∧ u.Threw error

/-- The thread is a handler on its way to the DLQ that has yet to read the order, or to
move it to `FAILED`. -/
def Marks (id : Uuid) (t : OrderThread) : Prop :=
  (∃ payload error jobMeta, t.request = .handleFailure payload error jobMeta ∧
    payload.orderId = id ∧ goesToDlq error jobMeta.attemptsMade = true) ∧
  (t.hist = [] ∨ ∃ p, t.rest.next = some (.repo (.transitionStatus p)))

/-- Handlers and executions of one order do not come together: a handler that goes to
the DLQ starts when no other execution is at work, and no acquire takes the lock before
it has moved the order. -/
structure FailureApart (attemptOf : ℕ → ℕ) (ℓ : OrderLabel) (P : OrderPool)
    (accepted : ℕ → Bool) : Prop where
  handler : ∀ i payload error jobMeta, ℓ = .spawn i (.handleFailure payload error jobMeta) →
    goesToDlq error jobMeta.attemptsMade = true →
    SparesExecutions payload.orderId (attemptOf i) P accepted
  acquire : ∀ id token, ℓ.call? P = some (.lockSetNx id token) → P.world.locks id = none →
    ∀ i t, P.threads i = some t → ¬ Marks id t

/-- If the step moves an order to `FAILED`, then by a `PATCH`, or by a handler while no
execution of the order but the one it handles is at work. -/
def FailureSpares (attemptOf : ℕ → ℕ) (ℓ : OrderLabel) (P P' : OrderPool)
    (accepted : ℕ → Bool) : Prop :=
  ∀ id, P.world.db.statusOf id ≠ some (.worker .failed) →
    P'.world.db.statusOf id = some (.worker .failed) →
    (∃ o, ℓ.call? P = some o ∧ o.WritesStatus id (.worker .failed)) ∨
    ∃ i c t payload error jobMeta, ℓ = .act i c ∧ P.threads i = some t ∧
      t.request = .handleFailure payload error jobMeta ∧ payload.orderId = id ∧
      SparesExecutions id (attemptOf i) P accepted

/-- Only failure handlers move an order to `FAILED`.  Executions move orders forward, and a re-drive
moves them to `QUEUED`. -/
theorem Request.handleFailure_of_fails {q : Request} {p : TransitionParams}
    (h : q.allows (.repo (.transitionStatus p))) (hnext : p.nextStatus = .failed) :
    ∃ payload error jobMeta, q = .handleFailure payload error jobMeta ∧
      p.orderId = payload.orderId := by
  cases q with
  | handleFailure payload error jobMeta => exact ⟨payload, error, jobMeta, rfl, And.left h⟩
  | process payload jobMeta => exact absurd hnext h
  | redriveOrder orderId ctx =>
      obtain ⟨-, hqueued⟩ : p.expectedStatus = .worker .failed ∧ p.nextStatus = .queued := h
      simp [hnext] at hqueued
  | createOrder cmd ctx => cases h
  | updateStatus orderId status => cases h
  | updateOrderStatus id body => cases h

section Runs

variable {config : AppConfig} {ok : OrderLabel → OrderPool → Prop} {P₀ P P' : OrderPool}
variable {ℓ : OrderLabel} {id : Uuid} {error : OrderError}
variable {attemptOf : ℕ → ℕ} {accepted : ℕ → Bool} {own : ℕ}

/-- The protocol is kept in every run, as it relies on no answer. -/
theorem respects_failing : failing.Respects (orderSystem config) ok P₀ where
  admits := fun _ _ _ _ => trivial
  allows := fun _ _ _ _ _ _ _ _ _ _ => trivial

/-- A handler that is at its transition goes to the DLQ, and has only read the order.  So what was
true when it started need only last for these two calls. -/
theorem handler_at_transition (hinit : ∀ i, P₀.threads i = none)
    (h : (orderSystem config).Reaches ok P₀ P) {i : ℕ} {t : OrderThread}
    (ht : P.threads i = some t) {payload : OrderJobPayload} {jobMeta : JobMeta}
    (hreq : t.request = .handleFailure payload error jobMeta) {p : TransitionParams}
    (hnext : t.rest.next = some (.repo (.transitionStatus p))) :
    goesToDlq error jobMeta.attemptsMade = true ∧ t.hist.length = 1 := by
  obtain ⟨-, hfollows⟩ := Protocol.follows_of_reaches respects_failing
    (fun q _ => follows_failing config q) hinit h i t ht
  cases hrest : t.rest with
  | pure a => simp [hrest] at hnext
  | throw err => simp [hrest] at hnext
  | call o k =>
      rw [hrest] at hnext hfollows
      cases hnext
      rcases hfollows.1 payload error jobMeta hreq with hleaves | hmarking
      · exact absurd hleaves id
      · exact hmarking

/-- An execution that waits for the point of sale is inside its lock, that is between its acquire
and its release; the lock itself may have expired. -/
theorem holdsLock_of_post (hinit : ∀ i, P₀.threads i = none)
    (h : (orderSystem config).Reaches ok P₀ P) {j : ℕ} {u : OrderThread}
    (hu : P.threads j = some u) (hexecution : ExecutionOf id u) {request : PosRequest}
    (hnext : u.rest.next = some (.postToPos request)) : ∃ token, HoldsLock id token u.hist := by
  obtain ⟨payload, jobMeta, hreq, rfl⟩ := hexecution
  cases hrest : u.rest with
  | pure a => simp [hrest] at hnext
  | throw err => simp [hrest] at hnext
  | call o k =>
      rw [hrest] at hnext
      cases hnext
      exact ⟨_, inside_of_call hinit h hu hreq hrest nofun⟩

/-- Only a call to the point of sale opens one. -/
theorem Op.postToPos_of_opensPosCall? {o : Op} {c : Choice} {w : World}
    (h : o.opensPosCall? c w = some true) : ∃ request, o = .postToPos request := by
  unfold Op.opensPosCall? at h
  split at h
  · cases h
  · exact ⟨_, rfl⟩
  · split at h <;> cases h
  · cases h

/-- **How a thread comes to be accepted**: it was before, or it is at the call.  No other thread's
step makes it so. -/
theorem accepted_before_step {j : ℕ} (h : acceptedCalls ℓ P P' accepted j = true) :
    accepted j = true ∨
      ∃ c t request, ℓ = .act j c ∧ P.threads j = some t ∧
        t.rest.next = some (.postToPos request) := by
  unfold acceptedCalls at h
  split at h
  · rename_i i c
    by_cases hji : j = i
    · subst hji
      rw [Function.update_self] at h
      cases hopens : ((Label.act j c : OrderLabel).call? P).bind
          fun o => o.opensPosCall? c P.world with
      | none =>
          rw [hopens] at h
          exact .inl h
      | some opened =>
          rw [hopens, Option.getD_some] at h
          subst h
          obtain ⟨o, hcall, hopened⟩ := Option.bind_eq_some_iff.mp hopens
          obtain ⟨request, rfl⟩ := Op.postToPos_of_opensPosCall? hopened
          obtain ⟨t, k, ht, hrest⟩ := Label.thread_of_call? hcall
          exact .inr ⟨c, t, request, rfl, ht, by rw [hrest]; rfl⟩
    · rw [Function.update_of_ne hji] at h
      exact .inl h
  · exact .inl h

/-- The record speaks of threads that exist: a thread is spawned with nothing accepted. -/
def AcceptedThreads (P : OrderPool) (accepted : ℕ → Bool) : Prop :=
  ∀ j, accepted j = true → ∃ u, P.threads j = some u

/-- The record goes on speaking of threads that exist. -/
theorem AcceptedThreads.step (h : AcceptedThreads P accepted)
    (hstep : (orderSystem config).step ℓ P = some P') :
    AcceptedThreads P' (acceptedCalls ℓ P P' accepted) := by
  intro j haccepted
  obtain ⟨t, ht⟩ : ∃ t, P.threads j = some t := by
    rcases accepted_before_step haccepted with hbefore | ⟨c, t, request, -, ht, -⟩
    · exact h j hbefore
    · exact ⟨t, ht⟩
  obtain ⟨u, hu, -⟩ := (orderSystem config).step_persists hstep ht
  exact ⟨u, hu⟩

/-- **Nobody comes to work** on the order by a step that takes no free lock.  An execution that has
not acquired its lock is not at work, and one that has an open call has acquired it. -/
theorem SparesExecutions.step (hspares : SparesExecutions id own P accepted)
    (hthreads : AcceptedThreads P accepted)
    (hinit : ∀ i, P₀.threads i = none) (hreach : (orderSystem config).Reaches ok P₀ P)
    (hok : ok ℓ P) (hstep : (orderSystem config).step ℓ P = some P')
    (hfree : ∀ token, ℓ.call? P = some (.lockSetNx id token) → P.world.locks id ≠ none) :
    SparesExecutions id own P' (acceptedCalls ℓ P P' accepted) := by
  have hreach' : (orderSystem config).Reaches ok P₀ P' := .tail hreach ⟨ℓ, hok, hstep⟩
  have hunlocked : ∀ j u token, P'.threads j = some u → ¬ HoldsLock id token u.hist := by
    intro j u token hu hholds
    obtain ⟨t, ht, hholds⟩ | ⟨c, -, hcall, hnone, -⟩ := orderSystem_step_holding hstep hu hholds
    · exact hspares.unlocked j t token ht hholds
    · exact hfree token hcall hnone
  refine ⟨hunlocked, ?_⟩
  rintro j u hj hu hexecution (⟨request, hnext⟩ | haccepted)
  · -- it waits for the point of sale, so it holds the lock
    obtain ⟨token, hholds⟩ := holdsLock_of_post hinit hreach' hu hexecution hnext
    exact hunlocked j u token hu hholds
  · -- it was an execution before, and was accepted then or is at the call now
    obtain ⟨t, ht, hopen⟩ : ∃ t, P.threads j = some t ∧ PosCallOpen (accepted j) t := by
      rcases accepted_before_step haccepted with hbefore | ⟨c, t, request, -, ht, hnext⟩
      · obtain ⟨t, ht⟩ := hthreads j hbefore
        exact ⟨t, ht, .inr hbefore⟩
      · exact ⟨t, ht, .inl ⟨request, hnext⟩⟩
    obtain ⟨u', hu', hsame, -⟩ := (orderSystem config).step_persists hstep ht
    rw [hu, Option.some.injEq] at hu'
    subst hu'
    obtain ⟨payload, jobMeta, hreq, horder⟩ := hexecution
    exact hspares.closed j t hj ht ⟨payload, jobMeta, hsame.symm.trans hreq, horder⟩ hopen

/-- A handler that marks after a step did so before, or has just started.  In the second case the
condition of the run is about this very step. -/
theorem marks_before_step (hinit : ∀ i, P₀.threads i = none)
    (hreach : (orderSystem config).Reaches ok P₀ P) (hok : ok ℓ P)
    (hstep : (orderSystem config).step ℓ P = some P') {i : ℕ} {t' : OrderThread}
    (ht' : P'.threads i = some t') (hmarks : Marks id t') :
    (∃ t, P.threads i = some t ∧ Marks id t) ∨
      ∃ q, ℓ = .spawn i q ∧ t' = (orderSystem config).start q := by
  obtain hold | ⟨q, hℓ, hstart⟩ | ⟨c, t, o, k, -, ht, -, -, rfl⟩ :=
    (orderSystem config).step_threads hstep ht'
  · exact .inl ⟨t', hold, hmarks⟩
  · exact .inr ⟨q, hℓ, hstart⟩
  · refine .inl ⟨t, ht, ?_⟩
    have hhandler := hmarks.1
    obtain ⟨⟨payload, error, jobMeta, hreq, -⟩, hempty | ⟨p, hnext⟩⟩ := hmarks
    · cases hempty
    · -- it is at its transition, which follows its first call
      obtain ⟨-, hlength⟩ := handler_at_transition hinit (.tail hreach ⟨ℓ, hok, hstep⟩) ht' hreq hnext
      refine ⟨hhandler, .inl (List.length_eq_zero_iff.mp ?_)⟩
      simpa [Thread.answered] using hlength

/-- **Handlers that mark are alone**, in every run that keeps them apart.  By induction on the run:
at its start a handler is alone by the condition, and from then on nobody comes to work. -/
theorem spares_of_reaches (hinit : ∀ i, P₀.threads i = none)
    (h : (orderSystem config).ReachesUnder acceptedCalls (FailureApart attemptOf)
      (P₀, noneAccepted) (P, accepted)) :
    ∀ i t id, P.threads i = some t → Marks id t →
      SparesExecutions id (attemptOf i) P accepted := by
  have hboth : AcceptedThreads P accepted ∧ ∀ i t id, P.threads i = some t → Marks id t →
      SparesExecutions id (attemptOf i) P accepted := by
    refine System.ReachesUnder.invariant (I := fun P accepted => AcceptedThreads P accepted ∧
      ∀ i t id, P.threads i = some t → Marks id t →
        SparesExecutions id (attemptOf i) P accepted) ⟨fun j hj => ?_, fun i t _ ht => ?_⟩ ?_ h
    · cases hj
    · rw [hinit i] at ht
      cases ht
    · rintro P accepted ℓ P' hreach ⟨hthreads, hI⟩ hapart hstep
      have hplain : (orderSystem config).Reaches (fun _ _ => True) P₀ P :=
        hreach.reaches fun _ _ _ _ => trivial
      refine ⟨hthreads.step hstep, fun i t' id ht' hmarks => ?_⟩
      obtain ⟨t, ht, hbefore⟩ | ⟨q, rfl, rfl⟩ := marks_before_step hinit hplain trivial hstep ht' hmarks
      · exact (hI i t id ht hbefore).step hthreads hinit hplain trivial hstep
          fun token hcall hnone => hapart.acquire id token hcall hnone i t ht hbefore
      · obtain ⟨⟨payload, error, jobMeta, rfl, rfl, hbranch⟩, -⟩ := hmarks
        exact (hapart.handler i payload error jobMeta rfl hbranch).step hthreads hinit hplain trivial
          hstep nofun
  exact hboth.2

/-- **The failure handler respects the lock of an execution**, in every run that keeps
the two apart, whichever executions the handlers are of. -/
theorem failureSpares_of_apart {w : World}
    (h : (orderSystem config).ReachesUnder acceptedCalls (FailureApart attemptOf)
      (Pool.init w, noneAccepted) (P, accepted))
    (hstep : (orderSystem config).step ℓ P = some P') :
    FailureSpares attemptOf ℓ P P' accepted := by
  have hinit : ∀ i, (Pool.init w : OrderPool).threads i = none := fun _ => rfl
  have hplain : (orderSystem config).Reaches (fun _ _ => True) (Pool.init w) P :=
    h.reaches fun _ _ _ _ => trivial
  intro id hold hnew
  obtain ⟨i, q, rfl, -, rfl⟩ | ⟨i, c, t, o, k, rfl, ht, hrest, rfl⟩ | ⟨e, w', rfl, hw, rfl⟩ :=
    (orderSystem config).step_cases hstep
  · exact absurd hnew hold
  · obtain ⟨p, -, -, hqueued⟩ | ⟨p, v, rfl, hid, hmoved, -, -⟩ | hwrites :=
      Op.exec_statusOf hold hnew
    · cases hqueued
    · have hfailed : p.nextStatus = .failed := (RowStatus.worker.inj hmoved).symm
      obtain ⟨payload, error, jobMeta, hreq, horder⟩ :=
        Request.handleFailure_of_fails (allows_of_reaches hinit hplain ht hrest) hfailed
      have hnext : t.rest.next = some (.repo (.transitionStatus p)) := by rw [hrest]; rfl
      obtain ⟨hbranch, -⟩ := handler_at_transition hinit hplain ht hreq hnext
      have hmarks : Marks id t :=
        ⟨⟨payload, error, jobMeta, hreq, horder.symm.trans hid, hbranch⟩, .inr ⟨p, hnext⟩⟩
      exact .inr ⟨i, c, t, payload, error, jobMeta, rfl, ht, hreq, horder.symm.trans hid,
        spares_of_reaches hinit h i t id ht hmarks⟩
    · exact .inl ⟨o, Label.call?_act ht hrest c, hwrites⟩
  · cases hw
    have hsame : (e.apply P.world).db.statusOf id = some (.worker .failed) := hnew
    rw [Expiry.apply_db] at hsame
    exact absurd hsame hold

end Runs

/-! ### A locked-out attempt, and one that has failed alone -/

/-- No start of a handler, so that no attempt has to be named for one. -/
def NoHandler (ℓ : OrderLabel) (_ : OrderPool) : Prop :=
  (match ℓ with
    | .spawn _ (.handleFailure _ _ _) => false
    | _ => true) = true

instance (ℓ : OrderLabel) (P : OrderPool) : Decidable (NoHandler ℓ P) :=
  inferInstanceAs (Decidable (_ = true))

/-- Where no handler starts, none has to be named. -/
theorem NoHandler.handlesAttempts {ℓ : OrderLabel} {P : OrderPool} (h : NoHandler ℓ P)
    (attemptOf : ℕ → ℕ) : HandlesAttempts attemptOf ℓ P := by
  rintro i payload error jobMeta rfl
  cases h

/-- An execution waits for the point of sale; a second attempt at its job is locked
out. -/
def lockedOutRun : List OrderLabel :=
  .spawn 0 (.process seedPayload (seedJob 1)) ::
    (List.range 6).map (fun n => .act 0 (.undisturbed n)) ++
    [.spawn 1 (.process seedPayload (seedJob 1)), .act 1 (.undisturbed 7)]

theorem lockedOutRun_replays : ((orderSystem seedConfig).replay lockedOutRun
    (Pool.init (World.init .seed))).isSome = true := by
  decide +kernel

/-- The pool after that run. -/
def lockedOutPool : OrderPool :=
  (orderSystem seedConfig).after lockedOutRun (Pool.init (World.init .seed)) lockedOutRun_replays

/-- The handler of the second attempt has read the order. -/
def cancellingRun : List OrderLabel :=
  [.spawn 2 (.handleFailure seedPayload (.lockAcquisition seedOrderId) (seedJob 2)),
    .act 2 (.undisturbed 8)]

theorem cancellingRun_replays :
    ((orderSystem seedConfig).replay cancellingRun lockedOutPool).isSome = true := by
  decide +kernel

/-- The pool once the handler has read the order. -/
def cancellingPool : OrderPool :=
  (orderSystem seedConfig).after cancellingRun lockedOutPool cancellingRun_replays

theorem cancellingPool_replays :
    ((orderSystem seedConfig).replay [.act 2 (.undisturbed 9)] cancellingPool).isSome = true := by
  decide +kernel

/-- The handler has moved the order. -/
def cancelledPool : OrderPool :=
  (orderSystem seedConfig).after [.act 2 (.undisturbed 9)] cancellingPool cancellingPool_replays

/-- The thread is an execution for the seeded order that waits for the point of sale. -/
def waitsForPos (t : OrderThread) : Bool :=
  match t.request, t.rest with
  | .process payload _, .call (.postToPos _) _ => payload.orderId = ⟨7⟩
  | _, _ => false

/-- The order is moved from `SAVED` to `FAILED` while the first execution waits for the point of
sale.  The handler has asked nobody for the lock. -/
theorem cancellingPool_eq :
    cancellingPool.world.db.statusOf ⟨7⟩ = some (.worker .saved) ∧
    cancelledPool.world.db.statusOf ⟨7⟩ = some (.worker .failed) ∧
    (cancellingPool.threads 0).any waitsForPos = true ∧
    (match (Label.act 2 (.undisturbed 9) : OrderLabel).call? cancellingPool with
      | some (.repo _) => true
      | _ => false) = true := by
  decide +kernel

/-- The thread is an attempt at the seeded job that was locked out. -/
def lockedOut (t : OrderThread) : Bool :=
  match t.request, t.rest with
  | .process payload attempt, .throw (.lockAcquisition orderId) =>
      payload = seedPayload ∧ attempt = seedJob 1 ∧ orderId = seedOrderId
  | _, _ => false

theorem lockedOutPool_eq :
    (lockedOutPool.threads 1).any lockedOut = true := by
  decide +kernel

/-- The handler is of the second attempt. -/
theorem cancellingRun_admitted : (orderSystem seedConfig).Admitted (HandlesAttempts fun _ => 1)
    cancellingRun lockedOutPool := by
  refine ⟨?_, fun P₁ _ => ⟨fun _ _ _ _ hℓ => (by cases hℓ), fun _ _ => trivial⟩⟩
  rintro i payload error jobMeta hℓ
  cases hℓ
  obtain ⟨u, hu, hlocked⟩ := (Option.any_eq_true _ _).mp lockedOutPool_eq
  unfold lockedOut at hlocked
  split at hlocked
  · rename_i payload' attempt orderId hreq hrest
    obtain ⟨rfl, rfl, rfl⟩ := of_decide_eq_true hlocked
    exact ⟨u, seedJob 1, hu, hreq, rfl, hrest⟩
  · cases hlocked

theorem lockedOutRun_admitted : (orderSystem seedConfig).Admitted (HandlesAttempts fun _ => 1)
    lockedOutRun (Pool.init (World.init .seed)) :=
  .mono (fun _ _ (h : NoHandler _ _) => h.handlesAttempts _) (.of_check (by decide +kernel))

/-- **An order is cancelled while the point of sale takes it.** The attempt that was locked out has
failed for the last time, and its handler does not know that another one is at work. -/
theorem not_failureSpares_of_lockedOut :
    ¬ ∀ (config : AppConfig) (attemptOf : ℕ → ℕ) (w : World) (P P' : OrderPool)
      (accepted : ℕ → Bool) (ℓ : OrderLabel),
      (orderSystem config).ReachesWith (HandlesAttempts attemptOf) acceptedCalls
        (Pool.init w, noneAccepted) (P, accepted) →
      (orderSystem config).step ℓ P = some P' → FailureSpares attemptOf ℓ P P' accepted := by
  intro h
  obtain ⟨hbefore, hafter, hwaits, hcall⟩ := cancellingPool_eq
  have hold : cancellingPool.world.db.statusOf ⟨7⟩ ≠ some (.worker .failed) := by
    rw [hbefore]
    exact nofun
  have hreach : (orderSystem seedConfig).ReachesWith (HandlesAttempts fun _ => 1) acceptedCalls
      (Pool.init (World.init .seed), noneAccepted) (cancellingPool, _) :=
    .trans (.of_replay lockedOutRun_admitted (System.replay_after lockedOutRun_replays) _)
      (.of_replay cancellingRun_admitted (System.replay_after cancellingRun_replays) _)
  obtain ⟨o, ho, hwrites⟩ | ⟨i, c, t, payload, error, jobMeta, -, -, -, -, hspares⟩ :=
    h seedConfig _ (World.init .seed) cancellingPool cancelledPool _ _ hreach
      (System.step_after cancellingPool_replays) ⟨7⟩ hold hafter
  · obtain ⟨text, orderId, rfl, -⟩ := hwrites
    simp [ho] at hcall
  · obtain ⟨u, hu, hwaits⟩ := (Option.any_eq_true _ _).mp hwaits
    unfold waitsForPos at hwaits
    split at hwaits
    · rename_i payload' jobMeta' request k hreq hrest
      obtain ⟨token, hholds⟩ := holdsLock_of_post (fun _ => rfl)
        hreach.reaches hu
        ⟨payload', jobMeta', hreq, of_decide_eq_true hwaits⟩ (by rw [hrest]; rfl)
      exact hspares.unlocked 0 u token hu hholds
    · cases hwaits

/-- An attempt takes its lock. -/
def startRun : List OrderLabel :=
  [.spawn 0 (.process seedPayload (seedJob 2)), .act 0 (.undisturbed 0)]

/-- The point of sale refuses the order four times, and the attempt releases its lock. -/
def refusedRun : List OrderLabel :=
  (List.range 13).map fun n => .act 0 ⟨.none, n, false, .error "502"⟩

/-- What the attempt fails with. -/
def badGateway : OrderError := .posUnavailable seedPayload.storeId "502"

theorem startRun_replays :
    ((orderSystem seedConfig).replay startRun (Pool.init (World.init .seed))).isSome = true := by
  decide +kernel

/-- The pool once the job has started. -/
def startedPool : OrderPool :=
  (orderSystem seedConfig).after startRun (Pool.init (World.init .seed)) startRun_replays

theorem startedPool_replays :
    ((orderSystem seedConfig).replay refusedRun startedPool).isSome = true := by
  decide +kernel

/-- The pool once the point of sale has refused the order. -/
def refusedPool : OrderPool :=
  (orderSystem seedConfig).after refusedRun startedPool startedPool_replays

/-- The thread has failed with that answer. -/
def threwRefusal (t : OrderThread) : Bool :=
  match t.rest with
  | .throw (.posUnavailable storeId message) => storeId = seedPayload.storeId ∧ message = "502"
  | _ => false

/-- The attempt has failed with what the point of sale answered. -/
theorem refusedPool_eq : (refusedPool.threads 0).all threwRefusal = true := by decide +kernel

/-- A condition on steps that holds whatever has been accepted. -/
def AlwaysApart (ℓ : OrderLabel) (P : OrderPool) : Prop :=
  ∀ accepted, FailureApart (fun _ => 0) ℓ P accepted

/-- No acquire and no start of a handler. -/
def LeavesApart (ℓ : OrderLabel) (P : OrderPool) : Prop := NoAcquire ℓ P ∧ NoHandler ℓ P

instance (ℓ : OrderLabel) (P : OrderPool) : Decidable (LeavesApart ℓ P) :=
  inferInstanceAs (Decidable (_ ∧ _))

/-- Such steps keep handlers and executions apart. -/
theorem LeavesApart.alwaysApart {ℓ : OrderLabel} {P : OrderPool} (h : LeavesApart ℓ P) :
    AlwaysApart ℓ P := by
  refine fun accepted => ⟨?_, fun _ _ hcall => by cases h.1 _ hcall⟩
  rintro i payload error jobMeta rfl
  cases h.2

theorem leavesApart_process (i : ℕ) (payload : OrderJobPayload) (jobMeta : JobMeta)
    (P : OrderPool) : LeavesApart (.spawn i (.process payload jobMeta)) P :=
  ⟨noAcquire_spawn _ _ P, rfl⟩

theorem startRun_admitted :
    (orderSystem seedConfig).Admitted AlwaysApart startRun (Pool.init (World.init .seed)) := by
  refine ⟨(leavesApart_process _ _ _ _).alwaysApart, fun P₁ hspawn => ⟨?_, fun _ _ => trivial⟩⟩
  refine fun accepted => ⟨fun _ _ _ _ hℓ => (by cases hℓ), ?_⟩
  rintro id token - - i t ht ⟨⟨payload, error, jobMeta, hreq, -⟩, -⟩
  obtain ⟨-, rfl⟩ := (orderSystem seedConfig).step_spawn_init hspawn ht
  cases hreq

/-- Nothing that follows acquires a lock or starts a handler. -/
theorem refusedRun_admitted :
    (orderSystem seedConfig).Admitted AlwaysApart refusedRun startedPool :=
  .mono (fun _ _ (h : LeavesApart _ _) => h.alwaysApart) (.of_check (by decide +kernel))

/-- The two runs together keep handlers and executions apart, since no part of them starts a
handler. -/
theorem refusedRun_reaches :
    (orderSystem seedConfig).Reaches AlwaysApart (Pool.init (World.init .seed)) refusedPool :=
  Relation.ReflTransGen.trans (System.Reaches.after startRun_admitted startRun_replays)
    (System.Reaches.after refusedRun_admitted startedPool_replays)

/-- The attempt is the only thread. -/
theorem refusedPool_thread {j : ℕ} {u : OrderThread} (hu : refusedPool.threads j = some u) :
    j = 0 := by
  cases hstarted : startedPool.threads j with
  | some t => simpa [startRun, System.spawned] using System.spawned_of_after hstarted
  | none =>
      have hspawned := System.spawned_of_replay (System.replay_after startedPool_replays) hstarted hu
      simp [refusedRun, System.spawned] at hspawned

theorem refusedPool_spares (accepted : ℕ → Bool) :
    SparesExecutions ⟨7⟩ 0 refusedPool accepted := by
  refine ⟨fun j u token hu => ?_, fun j u hj hu => absurd (refusedPool_thread hu) hj⟩
  have hended : u.rest.next = none := by
    have hj := refusedPool_thread hu
    subst hj
    have hchecked := refusedPool_eq
    rw [hu, Option.all_some] at hchecked
    unfold threwRefusal at hchecked
    split at hchecked
    · rename_i storeId message hrest
      rw [hrest]
      rfl
    · cases hchecked
  exact not_holdsLock_of_ended (fun _ => rfl) refusedRun_reaches hu hended ⟨7⟩ token

/-- The handler of the attempt starts and reads the order. -/
def handlingRun : List OrderLabel :=
  [.spawn 1 (.handleFailure seedPayload badGateway (seedJob 3)), .act 1 (.undisturbed 20)]

theorem handlingRun_replays :
    ((orderSystem seedConfig).replay handlingRun refusedPool).isSome = true := by
  decide +kernel

/-- The pool once the handler has read the order. -/
def handlingPool : OrderPool :=
  (orderSystem seedConfig).after handlingRun refusedPool handlingRun_replays

theorem handlingPool_replays :
    ((orderSystem seedConfig).replay [.act 1 (.undisturbed 21)] handlingPool).isSome = true := by
  decide +kernel

/-- It has moved the order. -/
def failedPool : OrderPool :=
  (orderSystem seedConfig).after [.act 1 (.undisturbed 21)] handlingPool handlingPool_replays

example : failedPool.world.db.statusOf ⟨7⟩ = some (.worker .failed) := by decide +kernel

/-- The handler is that of the failed attempt, and nobody else is at work. -/
theorem handlingRun_admitted :
    (orderSystem seedConfig).Admitted AlwaysApart handlingRun refusedPool := by
  refine ⟨fun accepted => ⟨?_, fun _ _ hcall => by cases noAcquire_spawn _ _ _ _ hcall⟩,
    fun P₁ hstart => ⟨?_, fun _ _ => trivial⟩⟩
  · rintro i payload error jobMeta hℓ -
    cases hℓ
    exact refusedPool_spares accepted
  · have hcall : (Label.act 1 (.undisturbed 20) : OrderLabel).call? P₁ =
        ((orderSystem seedConfig).start
          (.handleFailure seedPayload badGateway (seedJob 3))).rest.next := by
      show ((P₁.threads 1).bind fun t => t.rest.next) = _
      rw [(orderSystem seedConfig).step_spawn hstart]
      rfl
    refine LeavesApart.alwaysApart ⟨fun o ho => ?_, rfl⟩
    rw [hcall] at ho
    cases ho
    rfl

/-- What the point of sale has accepted by then. -/
def handlingAccepted : ℕ → Bool :=
  (orderSystem seedConfig).recordOf acceptedCalls handlingRun refusedPool
    ((orderSystem seedConfig).recordOf acceptedCalls refusedRun startedPool
      ((orderSystem seedConfig).recordOf acceptedCalls startRun (Pool.init (World.init .seed))
        noneAccepted))

theorem handlingPool_reached :
    (orderSystem seedConfig).ReachesUnder acceptedCalls (FailureApart fun _ => 0)
      (Pool.init (World.init .seed), noneAccepted) (handlingPool, handlingAccepted) := by
  have hreach : (orderSystem seedConfig).ReachesWith AlwaysApart acceptedCalls
      (Pool.init (World.init .seed), noneAccepted) (handlingPool, handlingAccepted) :=
    .trans (.of_replay startRun_admitted (System.replay_after startRun_replays) _)
      (.trans (.of_replay refusedRun_admitted (System.replay_after startedPool_replays) _)
        (.of_replay handlingRun_admitted (System.replay_after handlingRun_replays) _))
  exact .mono (fun _ _ accepted h => h accepted) hreach

theorem failureSpares_of_apart_refused :
    FailureSpares (fun _ => 0) (.act 1 (.undisturbed 21)) handlingPool failedPool
      handlingAccepted :=
  failureSpares_of_apart handlingPool_reached (System.step_after handlingPool_replays)

end ChickenOrder
