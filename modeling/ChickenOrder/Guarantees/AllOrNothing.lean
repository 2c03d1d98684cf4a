import ChickenOrder.Services.Calls

/-!
# Order creation at the API, as one transaction

`execute` holds the idempotency key, publishes the job and caches the response in
three calls on two systems, with one `catch` block that gives the key back.
`AllOrNothing` is what a client relies on when it stops anywhere in between: no
job and a free key, or a job and a key that answers with its order.

The `catch` block does not know on which side of `publishOrder` it is.
`allOrNothing_iff` says for which faults the outcome is one of the two.

A call is run here by itself, each of its own calls with a fault of its own, and it may stop
before any of them.  What is left behind is judged by what a retry would meet, and a retry
depends on two Redis keys only (`retryAnswered_iff`).  The cases are those of the program: the
validation, the publication, the announcement, the response, and the `catch` block after each of
them.
-/

namespace ChickenOrder

open Interaction Interaction.Program CreateOrderService

/-! ## The guarantee -/

section Guarantee

variable (cmd : CreateOrderCommand) (ctx : ApiContext) (w : World)

/-- The job of this call is on the main queue.  Job ids are made of order ids, and a call draws an
order id of its own. -/
def Published : Prop := JobId.order ctx.orderId ∈ w.mainQueue.map Job.id

/-- The idempotency key can be acquired, so that a client may simply try again: its `SET … NX` is
going to find the cell empty. -/
def KeyFree : Prop := w.idempotency (IdempotencyService.pendingKey cmd.idempotencyKey) = none

/-- The key's cached response carries the order of this call. -/
def ResponseCached : Prop :=
  ∃ result, w.idempotency (IdempotencyService.responseKey cmd.idempotencyKey) =
    some (.response result) ∧ result.orderId = ctx.orderId

/-- Every later request with the key, which draws an order id of its own, is answered with
the order of this call. -/
def RetryAnswered : Prop :=
  ∀ cmd' ctx' choices, cmd'.idempotencyKey = cmd.idempotencyKey → ctx'.orderId ≠ ctx.orderId →
    Quiet choices → ∃ result, (run Op.exec choices (execute cmd' ctx') 0 w).1 = .ok result ∧
      result.orderId = ctx.orderId

/-- What a call may leave behind, and answer, wherever it stops: either nothing, and then the key is
free; or a published job, and then every later request with the key gets its order. -/
structure AllOrNothing (stopped : Option (Except OrderError CreateOrderResult) × World) : Prop where
  whole : (¬ Published ctx stopped.2 ∧ KeyFree cmd stopped.2) ∨
    (Published ctx stopped.2 ∧ RetryAnswered cmd ctx stopped.2)
  /-- A request answered 422 or 503 has published no job. -/
  refused : ∀ status m, stopped.1 = some (.error (.http status m)) → status = 422 ∨ status = 503 →
    ¬ Published ctx stopped.2
  /-- The key is not left held for nothing. -/
  kept : ¬ KeyFree cmd stopped.2 → Published ctx stopped.2 ∨ ResponseCached cmd ctx stopped.2

end Guarantee

/-! ## What a retry meets -/

section Retry

variable {cmd : CreateOrderCommand} {ctx : ApiContext} {w : World}
variable {σ : Type} {step : (o : Op) → σ → Except OrderError (Op.Reply o) → σ → Prop}

/-- What the `try` block returns is the result of its own call. -/
theorem wp_validateAndPublish (cmd : CreateOrderCommand) (ctx : ApiContext) (s : σ) :
    wp step (fun _ _ => True) (validateAndPublish cmd ctx) (fun r _ => r = result ctx)
      (fun _ _ => True) s := by
  have hany : ∀ {α : Type} (p : Service α) (s : σ),
      wp step (fun _ _ => True) p (fun _ _ => True) (fun _ _ => True) s :=
    fun p s => wp_always step _ (fun _ _ _ => trivial) (fun _ _ _ _ _ _ => trivial) p trivial
  unfold validateAndPublish
  rw [wp_bind]
  refine wp_mono _ _ (fun validated s₁ _ => ?_) (fun _ _ _ => trivial) (hany _ s)
  unfold publish
  rw [wp_bind]
  refine wp_mono _ _ (fun _ s₂ _ => ?_) (fun _ _ _ => trivial) (hany _ s₁)
  rw [wp_bind]
  refine wp_mono _ _ (fun _ s₃ _ => ?_) (fun _ _ _ => trivial) (hany _ s₂)
  rw [wp_bind]
  exact wp_mono _ _ (fun _ _ _ => rfl) (fun _ _ _ => trivial) (hany _ s₃)

/-- The `catch` block never returns.  It rethrows the error it has caught, or throws that of its own
`DEL`. -/
theorem wp_abandon (cmd : CreateOrderCommand) (err : OrderError) (s : σ) :
    wp step (fun _ _ => True) (abandon cmd err) (fun _ _ => False) (fun _ _ => True) s := by
  unfold abandon IdempotencyService.release
  rw [wp_bind, wp_perform]
  refine ⟨trivial, fun _ s' _ => ?_, fun _ _ _ => trivial⟩
  rw [wp_ite]
  exact ⟨fun _ => trivial, fun _ => trivial⟩

/-- The world in which this call has acquired the key. -/
def acquired (cmd : CreateOrderCommand) (ctx : ApiContext) (w : World) : World :=
  { w with
    idempotency := Function.update w.idempotency
      (IdempotencyService.pendingKey cmd.idempotencyKey) (some (.orderId ctx.orderId)) }

/-- The acquire of a free key succeeds and leaves this call's order id under it. -/
theorem acquire_of_free {c : Choice} (hquiet : c.fault = .none) (hfree : KeyFree cmd w) :
    Op.exec (.idempotencySetNx (IdempotencyService.pendingKey cmd.idempotencyKey) ctx.orderId) c w =
      (.ok true, acquired cmd ctx w) :=
  Op.exec_setNx_of_none hquiet hfree ctx.orderId

/-- The acquire of a held key fails and leaves everything as it is.  The order id of the call that
came first stays in the cell. -/
theorem acquire_of_held {c : Choice} (hquiet : c.fault = .none) (hheld : ¬ KeyFree cmd w) :
    Op.exec (.idempotencySetNx (IdempotencyService.pendingKey cmd.idempotencyKey) ctx.orderId) c w =
      (.ok false, w) :=
  Op.exec_setNx_of_ne_none hquiet hheld ctx.orderId

/-- A quiet request that finds the key free answers with its own order, if it answers.  It has to be
quiet, since otherwise nothing is said of whether it answers at all. -/
theorem execute_run_of_free {choices : ℕ → Choice} (hquiet : Quiet choices) (hfree : KeyFree cmd w)
    {r : CreateOrderResult} (hr : (run Op.exec choices (execute cmd ctx) 0 w).1 = .ok r) :
    r = result ctx := by
  have hwp : wp (Executes Op.exec fun _ _ => True) (fun _ _ => True)
      (tryCatch (validateAndPublish cmd ctx) (abandon cmd)) (fun r _ => r = result ctx)
      (fun _ _ => True) (acquired cmd ctx w) := by
    rw [wp_tryCatch]
    refine wp_mono _ _ (fun _ _ h => h) (fun err s _ => ?_) (wp_validateAndPublish cmd ctx _)
    exact wp_mono _ _ (fun _ _ h => h.elim) (fun _ _ h => h) (wp_abandon cmd err s)
  have hrun := wp_run Op.exec choices (fun _ _ => trivial) (n := 1) hwp
  unfold execute IdempotencyService.tryAcquire at hr
  rw [run_bind_of_ok Op.exec true _ (acquire_of_free (hquiet 0) hfree), if_pos rfl] at hr
  cases hresult : run Op.exec choices (tryCatch (validateAndPublish cmd ctx) (abandon cmd)) 1
      (acquired cmd ctx w) with
  | mk answer w' =>
      rw [hresult] at hr hrun
      cases hr
      exact hrun

/-- A quiet request that finds the key held answers with the cached response, if there is one. -/
theorem execute_run_of_held {choices : ℕ → Choice} (hquiet : Quiet choices)
    (hheld : ¬ KeyFree cmd w) :
    (run Op.exec choices (execute cmd ctx) 0 w).1 =
      match w.idempotency (IdempotencyService.responseKey cmd.idempotencyKey) with
      | some (.response result) => .ok { result with replayed := true }
      | some (.orderId _) => .error (.other "Unexpected token in JSON")
      | none => .error inProgress := by
  have hget : Op.exec (.idempotencyGet (IdempotencyService.responseKey cmd.idempotencyKey))
      (choices 1) w =
        (.ok (w.idempotency (IdempotencyService.responseKey cmd.idempotencyKey)), w) := by
    rw [Op.exec_undisturbed (hquiet 1)]
    rfl
  unfold execute IdempotencyService.tryAcquire
  rw [run_bind_of_ok Op.exec false _ (acquire_of_held (hquiet 0) hheld), if_neg (by decide)]
  unfold replay IdempotencyService.getCachedResponse
  rw [bind_assoc, run_bind_of_ok Op.exec _ _ hget]
  cases w.idempotency (IdempotencyService.responseKey cmd.idempotencyKey) with
  | none => rfl
  | some value =>
      cases value with
      | orderId id => rfl
      | response result => rfl

/-- **What a retry is answered.** Every later request gets this call's order exactly if the key is
held and the response is in Redis: with a free key it would make an order of its own, without the
response it would be told to wait. -/
theorem retryAnswered_iff :
    RetryAnswered cmd ctx w ↔ ¬ KeyFree cmd w ∧ ResponseCached cmd ctx w := by
  constructor
  · intro hanswered
    -- the same command again, with an order id of its own
    obtain ⟨id, hid⟩ : ∃ id : Uuid, id ≠ ctx.orderId := by
      by_cases hzero : ctx.orderId = ⟨0⟩
      · exact ⟨⟨1⟩, by rw [hzero]; decide⟩
      · exact ⟨⟨0⟩, Ne.symm hzero⟩
    obtain ⟨r, hr, horder⟩ := hanswered cmd { ctx with orderId := id } (fun n => .undisturbed n)
      rfl hid fun _ => rfl
    have hheld : ¬ KeyFree cmd w := by
      intro hfree
      rw [execute_run_of_free (fun _ => rfl) hfree hr] at horder
      exact hid horder
    refine ⟨hheld, ?_⟩
    rw [execute_run_of_held (fun _ => rfl) hheld] at hr
    split at hr
    · rename_i result hcached
      cases hr
      exact ⟨result, hcached, horder⟩
    · cases hr
    · cases hr
  · rintro ⟨hheld, cached, hcached, horder⟩ cmd' ctx' choices hkey - hquiet
    have hheld' : ¬ KeyFree cmd' w := by
      unfold KeyFree
      rw [hkey]
      exact hheld
    rw [execute_run_of_held hquiet hheld', hkey, hcached]
    exact ⟨_, rfl, horder⟩

end Retry

/-! ## The condition on the faults -/

section Condition

variable (plan : Op → Option Choice)

/-- The call is made and answered.  A plan gives each call of the run its choice, or none for a call
that is never made because the process has died before it. -/
def Answers (o : Op) : Prop := ∃ c, plan o = some c ∧ c.fault = .none

/-- The call is made and does its effect, whether or not the answer comes back.  Of the faults only
a refusal prevents the effect. -/
def TakesEffect (o : Op) : Prop := ∃ c, plan o = some c ∧ ∀ m, c.fault ≠ .rejected m

/-- The call is made and fails without an effect. -/
def IsRejected (o : Op) : Prop := ∃ c m, plan o = some c ∧ c.fault = .rejected m

variable (cmd : CreateOrderCommand) (ctx : ApiContext)

/-- The `DEL` of the `catch` block. -/
def releaseOp : Op := .idempotencyDel (IdempotencyService.pendingKey cmd.idempotencyKey)

/-- The `SET` of the response, which is the last thing that `execute` does.  A retry is answered
with what it leaves. -/
def completeOp : Op :=
  .idempotencySet (IdempotencyService.responseKey cmd.idempotencyKey) (result ctx)

/-- The event of a new order, as the call emits it.  It goes out between the job and the response,
and a client cannot tell from it whether its request will be answered. -/
def emitOp (amount : String) (items : List OrderItem) : Op :=
  .emitNewOrder cmd.storeId ctx.orderId items amount (payload cmd ctx amount items).traceId

/-- Step 2, from the world in which the key is held. -/
def validation (w : World) : Option (Except OrderError (String × List OrderItem)) × World :=
  runWithin Op.exec plan (validateAndEnrichItems cmd) (acquired cmd ctx w)

/-- Once the items are valid: the job is refused and the key given back, or the job is
published and announced and its response stored, and then the key stays held. -/
def PublishKeepsWhole (amount : String) (items : List OrderItem) : Prop :=
  (IsRejected plan (.mainQueueAdd (payload cmd ctx amount items)) ∧
    TakesEffect plan (releaseOp cmd)) ∨
  (Answers plan (.mainQueueAdd (payload cmd ctx amount items)) ∧
    Answers plan (emitOp cmd ctx amount items) ∧
    (Answers plan (completeOp cmd ctx) ∨
      TakesEffect plan (completeOp cmd ctx) ∧ ¬ TakesEffect plan (releaseOp cmd)))

/-- The faults under which a call is all or nothing.  An invalid command only needs its key given
back; a valid one needs one of the two ways of `PublishKeepsWhole`; and a validation that never ends
leaves a held key. -/
def KeepsWhole (w : World) : Prop :=
  match (validation plan cmd ctx w).1 with
  | none => False
  | some (.error _) => TakesEffect plan (releaseOp cmd)
  | some (.ok (amount, items)) => PublishKeepsWhole plan cmd ctx amount items

end Condition

/-! ## Where a call can stop -/

section Stages

variable {plan : Op → Option Choice} {cmd : CreateOrderCommand} {ctx : ApiContext}
variable {w : World} {answer : Option (Except OrderError CreateOrderResult)}

/-- Everything that can happen to one call that leaves the process: it is answered, it is rejected,
it takes effect without an answer, or it is never made. -/
theorem call_run_cases (plan : Op → Option Choice) {o : Op} (hlocal : o.isLocal = false)
    (w : World) :
    (Answers plan o ∧ TakesEffect plan o ∧ ¬ IsRejected plan o ∧ ∃ c,
      runWithin Op.exec plan (Op.call o) w = (some (o.effect c w).1, (o.effect c w).2)) ∨
    (¬ Answers plan o ∧ TakesEffect plan o ∧ ¬ IsRejected plan o ∧ ∃ c m,
      runWithin Op.exec plan (Op.call o) w = (some (.error (.other m)), (o.effect c w).2)) ∨
    (¬ Answers plan o ∧ ¬ TakesEffect plan o ∧ IsRejected plan o ∧ ∃ m,
      runWithin Op.exec plan (Op.call o) w = (some (.error (.other m)), w)) ∨
    (¬ Answers plan o ∧ ¬ TakesEffect plan o ∧ ¬ IsRejected plan o ∧
      runWithin Op.exec plan (Op.call o) w = (none, w)) := by
  unfold Answers TakesEffect IsRejected
  cases hplan : plan o with
  | none =>
      refine .inr (.inr (.inr ⟨?_, ?_, ?_, runWithin_perform_of_none hplan⟩)) <;> simp
  | some c =>
      have hexec : Op.exec o c w = c.fault.apply .other w (o.effect c w) := by
        unfold Op.exec
        rw [hlocal]
        rfl
      rw [runWithin_perform hplan, hexec]
      cases hfault : c.fault with
      | none => exact .inl ⟨by simp [hfault], by simp [hfault], by simp [hfault], c, rfl⟩
      | unacknowledged m =>
          exact .inr (.inl ⟨by simp [hfault], by simp [hfault], by simp [hfault], c, m, rfl⟩)
      | rejected m =>
          exact .inr (.inr (.inl ⟨by simp [hfault], by simp [hfault], by simp [hfault], m, rfl⟩))

/-- Without a job, the key has to be free.  The other half of the alternative is out of reach, as it
asks for a job. -/
theorem allOrNothing_of_unpublished (hunpublished : ¬ Published ctx w) :
    AllOrNothing cmd ctx (answer, w) ↔ KeyFree cmd w := by
  constructor
  · intro h
    obtain ⟨-, hfree⟩ | ⟨hpublished, -⟩ := h.whole
    · exact hfree
    · exact absurd hpublished hunpublished
  · intro hfree
    exact ⟨.inl ⟨hunpublished, hfree⟩, fun _ _ _ _ => hunpublished, fun h => absurd hfree h⟩

/-- With a job and no response the request is half done: a retry cannot be answered, and the job is
not taken back. -/
theorem not_allOrNothing_of_uncached (hpublished : Published ctx w)
    (huncached : ¬ ResponseCached cmd ctx w) : ¬ AllOrNothing cmd ctx (answer, w) := by
  intro h
  obtain ⟨hunpublished, -⟩ | ⟨-, hanswered⟩ := h.whole
  · exact hunpublished hpublished
  · exact huncached (retryAnswered_iff.mp hanswered).2

/-- With a job and its response, the key has to stay held: given back, a later request would make a
second order. -/
theorem allOrNothing_of_cached (hpublished : Published ctx w) (hcached : ResponseCached cmd ctx w)
    (hanswer : ∀ status m, answer ≠ some (.error (.http status m))) :
    AllOrNothing cmd ctx (answer, w) ↔ ¬ KeyFree cmd w := by
  constructor
  · intro h
    obtain ⟨hunpublished, -⟩ | ⟨-, hanswered⟩ := h.whole
    · exact absurd hpublished hunpublished
    · exact (retryAnswered_iff.mp hanswered).1
  · intro hheld
    exact ⟨.inr ⟨hpublished, retryAnswered_iff.mpr ⟨hheld, hcached⟩⟩,
      fun status m h => absurd h (hanswer status m), fun _ => .inl hpublished⟩

/-- The world after the `DEL` of the `catch` block: the key is free again, whatever has been
published under it. -/
def released (cmd : CreateOrderCommand) (w : World) : World :=
  { w with
    idempotency := Function.update w.idempotency
      (IdempotencyService.pendingKey cmd.idempotencyKey) none }

theorem keyFree_released (cmd : CreateOrderCommand) (w : World) : KeyFree cmd (released cmd w) :=
  Function.update_self ..

/-- The `DEL` leaves the response where it is, since that has a key of its own. -/
theorem responseCached_released :
    ResponseCached cmd ctx (released cmd w) ↔ ResponseCached cmd ctx w := by
  have hother : (released cmd w).idempotency (IdempotencyService.responseKey cmd.idempotencyKey) =
      w.idempotency (IdempotencyService.responseKey cmd.idempotencyKey) :=
    Function.update_of_ne (IdempotencyService.pendingKey_ne_responseKey cmd.idempotencyKey).symm ..
  unfold ResponseCached
  rw [hother]

/-- The `catch` block gives the key back and throws, or leaves everything as it is without
an answer of its own. -/
theorem abandon_run (plan : Op → Option Choice) (cmd : CreateOrderCommand) (err : OrderError)
    (w : World) :
    (TakesEffect plan (releaseOp cmd) ∧ ∃ answer,
      runWithin Op.exec plan (abandon cmd err) w = (answer, released cmd w)) ∨
    (¬ TakesEffect plan (releaseOp cmd) ∧ ∃ answer,
      (∀ status m, answer ≠ some (.error (.http status m))) ∧
      runWithin Op.exec plan (abandon cmd err) w = (answer, w)) := by
  have hseq : abandon cmd err = Op.call (releaseOp cmd) >>= fun _ =>
    if err.isValidationError then Program.throw (.http 422 err.message)
    else Program.throw unavailable := rfl
  rw [hseq]
  obtain ⟨-, heffect, -, c, hcall⟩ | ⟨-, heffect, -, c, m, hcall⟩ | ⟨-, hnot, -, m, hcall⟩ |
    ⟨-, hnot, -, hcall⟩ := call_run_cases plan (o := releaseOp cmd) rfl w
  · refine .inl ⟨heffect, ?_⟩
    rw [runWithin_bind_of_ok hcall]
    by_cases hvalidation : err.isValidationError = true
    · exact ⟨some (.error (.http 422 err.message)), by rw [if_pos hvalidation]; rfl⟩
    · exact ⟨some (.error unavailable), by rw [if_neg hvalidation]; rfl⟩
  · exact .inl ⟨heffect, some (.error (.other m)), runWithin_bind_of_error hcall⟩
  · exact .inr ⟨hnot, some (.error (.other m)), nofun, runWithin_bind_of_error hcall⟩
  · exact .inr ⟨hnot, none, nofun, runWithin_bind_of_none hcall⟩

/-- Giving up before the job is published is right if the key comes free.  Nothing of the request is
left then, and a retry starts anew. -/
theorem abandon_of_unpublished (err : OrderError) (hunpublished : ¬ Published ctx w)
    (hheld : ¬ KeyFree cmd w) :
    AllOrNothing cmd ctx (runWithin Op.exec plan (abandon cmd err) w) ↔
      TakesEffect plan (releaseOp cmd) := by
  obtain ⟨heffect, answer, hrun⟩ | ⟨hnot, answer, -, hrun⟩ := abandon_run plan cmd err w
  · have hstill : ¬ Published ctx (released cmd w) := hunpublished
    rw [hrun, allOrNothing_of_unpublished hstill]
    exact iff_of_true (keyFree_released cmd w) heffect
  · rw [hrun, allOrNothing_of_unpublished hunpublished]
    exact iff_of_false hheld hnot

/-- Giving up after the job is published, without a response, is never right: whether or not the key
comes free, the job is there and no response is. -/
theorem not_abandon_of_published (err : OrderError) (hpublished : Published ctx w)
    (huncached : ¬ ResponseCached cmd ctx w) :
    ¬ AllOrNothing cmd ctx (runWithin Op.exec plan (abandon cmd err) w) := by
  obtain ⟨-, answer, hrun⟩ | ⟨-, answer, -, hrun⟩ := abandon_run plan cmd err w
  · rw [hrun]
    exact not_allOrNothing_of_uncached hpublished (responseCached_released.not.mpr huncached)
  · rw [hrun]
    exact not_allOrNothing_of_uncached hpublished huncached

/-- Giving up once the response is stored is right if the key stays held all the same.  This is
where the `catch` block does harm by succeeding. -/
theorem abandon_of_cached (err : OrderError) (hpublished : Published ctx w)
    (hcached : ResponseCached cmd ctx w) (hheld : ¬ KeyFree cmd w) :
    AllOrNothing cmd ctx (runWithin Op.exec plan (abandon cmd err) w) ↔
      ¬ TakesEffect plan (releaseOp cmd) := by
  obtain ⟨heffect, answer, hrun⟩ | ⟨hnot, answer, hanswer, hrun⟩ := abandon_run plan cmd err w
  · rw [hrun]
    refine iff_of_false (fun h => ?_) fun hnot => hnot heffect
    obtain ⟨hunpublished, -⟩ | ⟨-, hanswered⟩ := h.whole
    · exact hunpublished hpublished
    · exact (retryAnswered_iff.mp hanswered).1 (keyFree_released cmd w)
  · rw [hrun, allOrNothing_of_cached hpublished hcached hanswer]
    exact iff_of_true hheld hnot

/-! ### The three calls of `publish` -/

/-- The key is held, and its response is not the one of this call: the situation between the acquire
and the end of the call. -/
structure Holding (cmd : CreateOrderCommand) (ctx : ApiContext) (w : World) : Prop where
  held : ¬ KeyFree cmd w
  uncached : ¬ ResponseCached cmd ctx w

/-- What does not touch the Redis keys leaves it so. -/
theorem Holding.of_idempotency_eq {w' : World} (h : Holding cmd ctx w)
    (hsame : w'.idempotency = w.idempotency) : Holding cmd ctx w' := by
  obtain ⟨hheld, huncached⟩ := h
  unfold KeyFree at hheld
  unfold ResponseCached at huncached
  rw [← hsame] at hheld huncached
  exact ⟨hheld, huncached⟩

/-- Step 5, with the job on the queue and announced. -/
theorem complete_run (hpublished : Published ctx w) (hholding : Holding cmd ctx w) :
    AllOrNothing cmd ctx (runWithin Op.exec plan
      (tryCatch (Op.call (completeOp cmd ctx) >>= fun _ => return result ctx) (abandon cmd)) w) ↔
      Answers plan (completeOp cmd ctx) ∨
        TakesEffect plan (completeOp cmd ctx) ∧ ¬ TakesEffect plan (releaseOp cmd) := by
  -- once the `SET` has done its effect the response is there and the key still held
  have hstored : ∀ c, Published ctx ((completeOp cmd ctx).effect c w).2 ∧
      ¬ KeyFree cmd ((completeOp cmd ctx).effect c w).2 ∧
      ResponseCached cmd ctx ((completeOp cmd ctx).effect c w).2 := by
    intro c
    refine ⟨hpublished, ?_, result ctx, Function.update_self .., rfl⟩
    have hother : ((completeOp cmd ctx).effect c w).2.idempotency
        (IdempotencyService.pendingKey cmd.idempotencyKey) =
          w.idempotency (IdempotencyService.pendingKey cmd.idempotencyKey) :=
      Function.update_of_ne (IdempotencyService.pendingKey_ne_responseKey cmd.idempotencyKey) ..
    unfold KeyFree
    rw [hother]
    exact hholding.held
  -- the `SET` is answered, or its answer is lost, or it is refused, or the process dies
  obtain ⟨hanswers, -, -, c, hcall⟩ | ⟨hlost, heffect, -, c, m, hcall⟩ | ⟨hlost, hnot, -, m, hcall⟩ |
    ⟨hlost, hnot, -, hcall⟩ := call_run_cases plan (o := completeOp cmd ctx) rfl w
  · have hdone : runWithin Op.exec plan
        (Op.call (completeOp cmd ctx) >>= fun _ => return result ctx) w =
          (some (.ok (result ctx)), ((completeOp cmd ctx).effect c w).2) :=
      runWithin_bind_of_ok hcall
    obtain ⟨hpub, hheld, hcached⟩ := hstored c
    have hanswer : ∀ status m, (some (.ok (result ctx)) : Option (Except OrderError _)) ≠
        some (.error (.http status m)) := by
      intro status m h
      cases h
    rw [runWithin_tryCatch_of_ok hdone, allOrNothing_of_cached hpub hcached hanswer]
    exact iff_of_true hheld (.inl hanswers)
  · obtain ⟨hpub, hheld, hcached⟩ := hstored c
    rw [runWithin_tryCatch_of_error (runWithin_bind_of_error hcall),
      abandon_of_cached _ hpub hcached hheld]
    simp [hlost, heffect]
  · rw [runWithin_tryCatch_of_error (runWithin_bind_of_error hcall)]
    refine iff_of_false (not_abandon_of_published _ hpublished hholding.uncached) ?_
    simp [hlost, hnot]
  · rw [runWithin_tryCatch_of_none (runWithin_bind_of_none hcall)]
    refine iff_of_false (not_allOrNothing_of_uncached hpublished hholding.uncached) ?_
    simp [hlost, hnot]

/-- Steps 4 and 5, with the job on the queue. -/
theorem announce_run (hpublished : Published ctx w) (hholding : Holding cmd ctx w) (amount : String)
    (items : List OrderItem) :
    AllOrNothing cmd ctx (runWithin Op.exec plan
      (tryCatch
        (Op.call (emitOp cmd ctx amount items) >>= fun _ =>
          Op.call (completeOp cmd ctx) >>= fun _ => return result ctx)
        (abandon cmd)) w) ↔
      Answers plan (emitOp cmd ctx amount items) ∧
        (Answers plan (completeOp cmd ctx) ∨
          TakesEffect plan (completeOp cmd ctx) ∧ ¬ TakesEffect plan (releaseOp cmd)) := by
  have hemitted : ∀ c, Published ctx ((emitOp cmd ctx amount items).effect c w).2 ∧
      Holding cmd ctx ((emitOp cmd ctx amount items).effect c w).2 :=
    fun c => ⟨hpublished, hholding.of_idempotency_eq rfl⟩
  obtain ⟨hanswers, -, -, c, hcall⟩ | ⟨hlost, -, -, c, m, hcall⟩ | ⟨hlost, -, -, m, hcall⟩ |
    ⟨hlost, -, -, hcall⟩ := call_run_cases plan (o := emitOp cmd ctx amount items) rfl w
  · obtain ⟨hstill, hannounced⟩ := hemitted c
    rw [runWithin_tryCatch, runWithin_bind_of_ok hcall, ← runWithin_tryCatch,
      complete_run hstill hannounced]
    simp [hanswers]
  · obtain ⟨hstill, hannounced⟩ := hemitted c
    rw [runWithin_tryCatch_of_error (runWithin_bind_of_error hcall)]
    exact iff_of_false (not_abandon_of_published _ hstill hannounced.uncached)
      fun h => hlost h.1
  · rw [runWithin_tryCatch_of_error (runWithin_bind_of_error hcall)]
    exact iff_of_false (not_abandon_of_published _ hpublished hholding.uncached)
      fun h => hlost h.1
  · rw [runWithin_tryCatch_of_none (runWithin_bind_of_none hcall)]
    exact iff_of_false (not_allOrNothing_of_uncached hpublished hholding.uncached)
      fun h => hlost h.1

/-- Steps 3 to 5, with the items valid and the key held. -/
theorem publish_run (hunpublished : ¬ Published ctx w) (hholding : Holding cmd ctx w)
    (amount : String) (items : List OrderItem) :
    AllOrNothing cmd ctx (runWithin Op.exec plan
      (tryCatch (publish cmd ctx amount items) (abandon cmd)) w) ↔
      PublishKeepsWhole plan cmd ctx amount items := by
  have hseq : publish cmd ctx amount items =
      Op.call (.mainQueueAdd (payload cmd ctx amount items)) >>= fun _ =>
        Op.call (emitOp cmd ctx amount items) >>= fun _ =>
          Op.call (completeOp cmd ctx) >>= fun _ => return result ctx := rfl
  -- the `add` leaves the Redis keys of the service as they are
  have hadded : ∀ c, Published ctx
        (Op.effect (.mainQueueAdd (payload cmd ctx amount items)) c w).2 ∧
      Holding cmd ctx (Op.effect (.mainQueueAdd (payload cmd ctx amount items)) c w).2 := by
    intro c
    exact ⟨w.mem_mainQueueAdd (payload cmd ctx amount items),
      hholding.of_idempotency_eq (w.mainQueueAdd_idempotency _)⟩
  unfold PublishKeepsWhole
  rw [hseq]
  -- the `add` is answered, or its answer is lost, or it is refused, or the process dies
  obtain ⟨hanswers, -, hnot, c, hcall⟩ | ⟨hlost, -, hnot, c, m, hcall⟩ |
    ⟨hlost, -, hrejected, m, hcall⟩ | ⟨hlost, -, hnot, hcall⟩ :=
      call_run_cases plan (o := .mainQueueAdd (payload cmd ctx amount items)) rfl w
  · obtain ⟨hpublished, hholding'⟩ := hadded c
    rw [runWithin_tryCatch, runWithin_bind_of_ok hcall, ← runWithin_tryCatch,
      announce_run hpublished hholding']
    simp [hanswers, hnot]
  · obtain ⟨hpublished, hholding'⟩ := hadded c
    rw [runWithin_tryCatch_of_error (runWithin_bind_of_error hcall)]
    refine iff_of_false (not_abandon_of_published _ hpublished hholding'.uncached) ?_
    simp [hlost, hnot]
  · rw [runWithin_tryCatch_of_error (runWithin_bind_of_error hcall),
      abandon_of_unpublished _ hunpublished hholding.held]
    simp [hlost, hrejected]
  · rw [runWithin_tryCatch_of_none (runWithin_bind_of_none hcall),
      allOrNothing_of_unpublished hunpublished]
    refine iff_of_false hholding.held ?_
    simp [hlost, hnot]

end Stages

/-! ## The whole call -/

section Whole

variable {plan : Op → Option Choice} {cmd : CreateOrderCommand} {ctx : ApiContext} {w : World}

/-- The keys and the queue are those of `w`.  The menu cache is not among them; validation may fill
it. -/
def Untouched (w w' : World) : Prop :=
  w'.idempotency = w.idempotency ∧ w'.mainQueue = w.mainQueue

/-- Validation neither publishes nor touches the keys. -/
theorem validation_untouched (plan : Op → Option Choice) (cmd : CreateOrderCommand)
    (ctx : ApiContext) (w : World) :
    Untouched (acquired cmd ctx w) (validation plan cmd ctx w).2 := by
  refine runWithin_invariant (fun o c w' ho hw' => ?_) (validateAndEnrichItems_onlyCalls cmd)
    ⟨rfl, rfl⟩
  refine Op.exec_invariant hw' ?_
  cases o with
  | menuCacheGet key => exact hw'
  | menuCacheSet key menus => exact hw'
  | findMenusByIds menuIds storeId => exact hw'
  | _ => cases ho

/-- Holding the key for a new order. -/
theorem holding_acquired (hnew : ¬ ResponseCached cmd ctx w) :
    Holding cmd ctx (acquired cmd ctx w) := by
  have hother : (acquired cmd ctx w).idempotency
      (IdempotencyService.responseKey cmd.idempotencyKey) =
        w.idempotency (IdempotencyService.responseKey cmd.idempotencyKey) :=
    Function.update_of_ne (IdempotencyService.pendingKey_ne_responseKey cmd.idempotencyKey).symm ..
  refine ⟨?_, ?_⟩
  · have hheld : (acquired cmd ctx w).idempotency
        (IdempotencyService.pendingKey cmd.idempotencyKey) = some (.orderId ctx.orderId) :=
      Function.update_self ..
    unfold KeyFree
    rw [hheld]
    exact nofun
  · unfold ResponseCached
    rw [hother]
    exact hnew

/-- **When creating an order is all or nothing.**  For a call that wins a free key, with
any of its other calls failing, before or after it took effect, or never made: the outcome
is all or nothing exactly for the faults of `KeepsWhole`. -/
theorem allOrNothing_iff (hfree : KeyFree cmd w)
    (hacquires : Answers plan
      (.idempotencySetNx (IdempotencyService.pendingKey cmd.idempotencyKey) ctx.orderId))
    (hunpublished : ¬ Published ctx w) (huncached : ¬ ResponseCached cmd ctx w) :
    AllOrNothing cmd ctx (runWithin Op.exec plan (execute cmd ctx) w) ↔ KeepsWhole plan cmd ctx w := by
  obtain ⟨c, hplan, hquiet⟩ := hacquires
  have hacquire : runWithin Op.exec plan
      (IdempotencyService.tryAcquire cmd.idempotencyKey ctx.orderId) w =
        (some (.ok true), acquired cmd ctx w) := by
    unfold IdempotencyService.tryAcquire
    rw [runWithin_perform hplan, acquire_of_free hquiet hfree]
  -- the key is acquired, and the rest is the `try` block
  have hbody : runWithin Op.exec plan (execute cmd ctx) w =
      runWithin Op.exec plan (tryCatch (validateAndPublish cmd ctx) (abandon cmd))
        (acquired cmd ctx w) := by
    unfold execute
    rw [runWithin_bind_of_ok hacquire, if_pos rfl]
  obtain ⟨hkeys, hqueue⟩ := validation_untouched plan cmd ctx w
  unfold KeepsWhole
  rw [hbody]
  unfold validateAndPublish
  -- the validation gets no answer, fails, or prices the items
  cases hvalidation : validation plan cmd ctx w with
  | mk validated w₁ =>
      rw [hvalidation] at hkeys hqueue
      have hholding : Holding cmd ctx w₁ := (holding_acquired huncached).of_idempotency_eq hkeys
      have hstill : ¬ Published ctx w₁ := by
        unfold Published
        rw [hqueue]
        exact hunpublished
      unfold validation at hvalidation
      cases validated with
      | none =>
          rw [runWithin_tryCatch_of_none (runWithin_bind_of_none hvalidation),
            allOrNothing_of_unpublished hstill]
          exact iff_of_false hholding.held id
      | some validated =>
          cases validated with
          | error err =>
              rw [runWithin_tryCatch_of_error (runWithin_bind_of_error hvalidation)]
              exact abandon_of_unpublished err hstill hholding.held
          | ok validated =>
              obtain ⟨amount, items⟩ := validated
              rw [runWithin_tryCatch, runWithin_bind_of_ok hvalidation, ← runWithin_tryCatch]
              exact publish_run hstill hholding amount items

/-- Every call is answered. -/
theorem allOrNothing_undisturbed :
    AllOrNothing seedCommand seedContext (runWithin Op.exec (fun _ => some (.undisturbed 0))
      (execute seedCommand seedContext) (World.init .seed)) := by
  have hanswers : ∀ o, Answers (fun _ => some (.undisturbed 0)) o := fun _ => ⟨_, rfl, rfl⟩
  have hfree : KeyFree seedCommand (World.init .seed) := rfl
  have hunpublished : ¬ Published seedContext (World.init .seed) := List.not_mem_nil
  have huncached : ¬ ResponseCached seedCommand seedContext (World.init .seed) := by
    rintro ⟨result, hresult, -⟩
    cases hresult
  have hvalid : (validation (fun _ => some (.undisturbed 0)) seedCommand seedContext
      (World.init .seed)).1 = some (.ok ("18000.00", seedPayload.items)) := by decide +kernel
  refine (allOrNothing_iff hfree (hanswers _) hunpublished huncached).mpr ?_
  unfold KeepsWhole
  rw [hvalid]
  exact .inr ⟨hanswers _, hanswers _, .inl (hanswers _)⟩

/-- Redis refuses the response, as a replica does that only reads, and nothing else fails. -/
def losingResponse : Op → Option Choice
  | .idempotencySet _ _ => some { Choice.undisturbed 0 with fault := .rejected "READONLY" }
  | _ => some (.undisturbed 0)

/-- The customer is told that the order failed, and it is on the queue.  The key has been given
back, so the customer's next attempt makes a second order. -/
theorem not_allOrNothing_of_losingResponse :
    ¬ AllOrNothing seedCommand seedContext (runWithin Op.exec losingResponse
      (execute seedCommand seedContext) (World.init .seed)) := by
  have hanswer : (runWithin Op.exec losingResponse (execute seedCommand seedContext)
      (World.init .seed)).1 = some (.error unavailable) := by decide +kernel
  have hqueue : (runWithin Op.exec losingResponse (execute seedCommand seedContext)
      (World.init .seed)).2.mainQueue = [⟨.order ⟨7⟩, seedPayload⟩] := by decide +kernel
  intro h
  refine h.refused 503 _ hanswer (.inr rfl) ?_
  unfold Published
  rw [hqueue]
  exact List.mem_singleton_self _

end Whole

end ChickenOrder
