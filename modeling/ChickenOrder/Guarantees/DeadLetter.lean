import ChickenOrder.Services.OrderSystem

/-!
# The dead letter queue and the orders table

What the DLQ branch of `handleFailure` leaves behind, for every state of the
order's row.  `DlqAgrees` is the agreement that operators rely on: a DLQ job
stands for a row that is `FAILED` and listed.  The branch checks the transition
to `FAILED` only if a row is there and unsettled, but marks and publishes
regardless, so it agrees exactly for the rows of `CanFail`.  The error's message
goes into two `TEXT` columns: one they refuse stops the handler for every row.  The
worker's id goes into the audit entry of the transition only.

The handler is run by itself, with a fault for each of its calls, and it may not be interrupted:
`Steady` is what the condition on the row is worth under.  The branch has two parts.
`markFailed` is the transition, which a missing or settled row skips; what follows it, the mark
and the job, does not ask for the row again (`MarkedAndPublished`).
-/

namespace ChickenOrder

open Interaction Interaction.Program ProcessOrderService

/-- How a handler ended, in which world, after which calls.  The calls are logged, since the queue
does not tell an added job from one that was there. -/
abbrev Handled := Option (Except OrderError Unit) × World × List Op

/-- Neither the caller nor a call fails, but for the Slack notification, whose failure the source
only logs. -/
def Steady (plan : Op → Option Choice) : Prop :=
  ∀ o, ∃ c, plan o = some c ∧ ((∀ alert, o ≠ .postAlert alert) → c.fault = .none)

/-- The handler publishes a DLQ job for the payload. -/
def Publishes (payload : OrderJobPayload) (ops : List Op) : Prop :=
  ∃ reason attempts, Op.dlqQueueAdd payload reason attempts ∈ ops

/-- The DLQ and the orders table agree after the handler.  An operator goes by the jobs of the
queue, the administrator's page by the table, and a re-drive needs both. -/
structure DlqAgrees (payload : OrderJobPayload) (w : World) (handled : Handled) : Prop where
  returns : handled.1 = some (.ok ())
  /-- A DLQ job and a listed `FAILED` row, or neither of them for a settled row. -/
  agree :
    (Publishes payload handled.2.2 ∧
      (∃ job ∈ handled.2.1.dlqQueue, ∃ now, job.id = .dlq payload.orderId now) ∧
      ∃ row ∈ handled.2.1.db.findFailedOrders, row.id = payload.orderId) ∨
    (¬ Publishes payload handled.2.2 ∧ ∃ row, w.db.orders.find? payload.orderId = some row ∧
      row.status.Settled ∧ handled.2.1.db.orders.find? payload.orderId = some row)
  /-- Only `FAILED` rows are marked. -/
  marked : ∀ reason, Op.repo (.markDlq payload.orderId reason) ∈ handled.2.2 →
    ∀ row, handled.2.1.db.orders.find? payload.orderId = some row → row.status = .worker .failed

/-- The worker can take the row to `FAILED` by a transition.  The last version of type `INTEGER`
leaves no room for one, and the audit entry has the worker's id. -/
def OrderRow.Failable (row : OrderRow) (workerId : String) : Prop :=
  (row.status = .worker .queued ∨ row.status = .worker .saved) ∧ row.version < int4Max ∧
    FitsVarchar workerId

/-- The order has a row that is `FAILED` or that the worker can take there. -/
def CanFail (db : Database) (id : Uuid) (workerId : String) : Prop :=
  ∃ row, db.orders.find? id = some row ∧
    (row.status = .worker .failed ∨ row.Failable workerId)

/-! ## The parts of the branch -/

section Parts

variable {plan : Op → Option Choice} {payload : OrderJobPayload}

/-- A steady call does its effect. -/
theorem Steady.call (hplan : Steady plan) (o : Op) (ho : ∀ alert, o ≠ .postAlert alert) :
    ∃ c, ∀ w ops, runWithin (logged Op.exec) plan (Op.call o) (w, ops) =
      (some (o.effect c w).1, (o.effect c w).2, o :: ops) := by
  obtain ⟨c, hc, hfault⟩ := hplan o
  refine ⟨c, fun w ops => ?_⟩
  rw [runWithin_perform hc, logged, Op.exec_undisturbed (hfault ho)]

/-- The notification fails for nobody: without a webhook nothing is sent, and otherwise the error is
caught. -/
theorem sendDlqAlert_run (hplan : Steady plan) (config : AppConfig) (alert : AlertPayload)
    (w : World) (ops : List Op) :
    ∃ w' ops', runWithin (logged Op.exec) plan (NotificationService.sendDlqAlert config alert)
        (w, ops) = (some (.ok ()), w', ops') ∧
      w'.db = w.db ∧ w'.dlqQueue = w.dlqQueue ∧ ops ⊆ ops' := by
  unfold NotificationService.sendDlqAlert
  split
  · exact ⟨w, ops, rfl, rfl, rfl, fun _ h => h⟩
  · obtain ⟨c, hc, -⟩ := hplan (.postAlert alert)
    rw [runWithin_tryCatch, runWithin_perform hc, logged]
    have hkept : (Op.exec (.postAlert alert) c w).2.db = w.db ∧
        (Op.exec (.postAlert alert) c w).2.dlqQueue = w.dlqQueue :=
      Op.exec_invariant (I := fun w' => w'.db = w.db ∧ w'.dlqQueue = w.dlqQueue) ⟨rfl, rfl⟩
        ⟨rfl, rfl⟩
    cases (Op.exec (.postAlert alert) c w).1 with
    | ok done => exact ⟨_, _, rfl, hkept.1, hkept.2, List.subset_cons_self _ _⟩
    | error e => exact ⟨_, _, rfl, hkept.1, hkept.2, List.subset_cons_self _ _⟩

/-- After the addition the dead letter queue has the job. -/
theorem World.mem_dlqQueueAdd (w : World) (data : OrderJobPayload) (reason : String)
    (attempts : ℕ) (now : Time) :
    ∃ job ∈ (w.dlqQueueAdd data reason attempts now).dlqQueue, job.id = .dlq data.orderId now := by
  unfold World.dlqQueueAdd
  split
  · rename_i hmem
    exact List.mem_map.mp hmem
  · exact ⟨_, List.mem_append_right _ (List.mem_singleton_self _), rfl⟩

/-- What follows the attempt to fail the row, whatever the row is: it is marked, and the
job is published. -/
structure MarkedAndPublished (payload : OrderJobPayload) (reason : String) (now : Time) (w : World)
    (handled : Handled) : Prop where
  returns : handled.1 = some (.ok ())
  db : w.db.markDlq payload.orderId reason now = .ok handled.2.1.db
  queued : ∃ job ∈ handled.2.1.dlqQueue, ∃ now, job.id = .dlq payload.orderId now
  publishes : Publishes payload handled.2.2
  marks : Op.repo (.markDlq payload.orderId reason) ∈ handled.2.2

/-- A steady `markDlq` of a reason its column takes. -/
theorem markDlq_effect {w : World} {c : Choice} {orderId : Uuid} {reason : String}
    (hfits : FitsText reason) :
    ∃ db', w.db.markDlq orderId reason c.now = .ok db' ∧
      Op.effect (.repo (.markDlq orderId reason)) c w = (.ok (), { w with db := db' }) := by
  obtain ⟨db', hmark⟩ : ∃ db', w.db.markDlq orderId reason c.now = .ok db' :=
    ⟨_, Database.markDlq_eq_ok_iff.mpr ⟨hfits, rfl⟩⟩
  refine ⟨db', hmark, ?_⟩
  show ((settle w.db (quietly (w.db.markDlq orderId reason c.now))).1,
    { w with db := (settle w.db (quietly (w.db.markDlq orderId reason c.now))).2 }) = _
  rw [hmark]
  rfl

/-- The mark and the job follow, whatever the row is. -/
theorem markAndPublish_run (hplan : Steady plan) (config : AppConfig) (payload : OrderJobPayload)
    {reason : String} (hfits : FitsText reason) (attempts : ℕ) (alert : AlertPayload) (w : World)
    (ops : List Op) :
    ∃ now, MarkedAndPublished payload reason now w
      (runWithin (logged Op.exec) plan
        (do
          OrderRepository.markDlq payload.orderId reason
          OrderQueueService.publishToDlq payload reason attempts
          NotificationService.sendDlqAlert config alert) (w, ops)) := by
  -- the row is marked, the job is added to the dead letter queue, and the alert is sent
  obtain ⟨c₁, hmark⟩ := hplan.call (.repo (.markDlq payload.orderId reason)) nofun
  obtain ⟨c₂, hpublish⟩ := hplan.call (.dlqQueueAdd payload reason attempts) nofun
  obtain ⟨w', ops', halert, hdb, hqueue, hops⟩ := sendDlqAlert_run hplan config alert
    ((Op.effect (.dlqQueueAdd payload reason attempts) c₂
      (Op.effect (.repo (.markDlq payload.orderId reason)) c₁ w).2).2)
    (.dlqQueueAdd payload reason attempts :: .repo (.markDlq payload.orderId reason) :: ops)
  obtain ⟨db₁, hmarked, heffect⟩ : ∃ db', w.db.markDlq payload.orderId reason c₁.now = .ok db' ∧ _ :=
    markDlq_effect hfits
  have hrun : runWithin (logged Op.exec) plan
      (do
        OrderRepository.markDlq payload.orderId reason
        OrderQueueService.publishToDlq payload reason attempts
        NotificationService.sendDlqAlert config alert) (w, ops) = (some (.ok ()), w', ops') := by
    rw [OrderRepository.markDlq_eq, runWithin_bind, hmark, heffect]
    show runWithin (logged Op.exec) plan (Op.call (.dlqQueueAdd payload reason attempts) >>=
      fun _ => NotificationService.sendDlqAlert config alert) _ = _
    rw [runWithin_bind, hpublish]
    rw [heffect] at halert
    exact halert
  have hunmarked : ∀ w : World, (w.dlqQueueAdd payload reason attempts c₂.now).db = w.db := by
    intro w
    obtain ⟨queue, hframe⟩ := w.dlqQueueAdd_frame payload reason attempts c₂.now
    rw [hframe]
  refine ⟨c₁.now, ?_⟩
  rw [hrun]
  refine ⟨rfl, ?_, ?_, ⟨reason, attempts, hops List.mem_cons_self⟩,
    hops (List.mem_cons_of_mem _ List.mem_cons_self)⟩
  · have hsame : w'.db = db₁ := by
      rw [heffect] at hdb
      exact hdb.trans (hunmarked _)
    rw [hsame]
    exact hmarked
  · obtain ⟨job, hjob, hid⟩ := World.mem_dlqQueueAdd
      (Op.effect (.repo (.markDlq payload.orderId reason)) c₁ w).2 payload reason attempts c₂.now
    exact ⟨job, hqueue ▸ hjob, c₂.now, hid⟩

/-- The transition to `FAILED` of an unsettled row, with its own status and version:
it is refused for statuses the map has no such transition for, overflows for the
last version, and fails for a worker's id that is too long; none is a lost race. -/
theorem Database.transitionStatus_toFailed {db : Database} {p : TransitionParams} {row : OrderRow}
    (now : Time) (hreadable : p.Readable) (hfind : db.orders.find? p.orderId = some row)
    (hexpected : p.expectedStatus = row.status) (hnext : p.nextStatus = .failed)
    (hversion : p.currentVersion = row.version) (hunsettled : ¬ row.status.Settled) :
    (row.Failable p.workerId ∧ ∃ db', db.transitionStatus p now = .ok db') ∨
      (¬ row.Failable p.workerId ∧ ∃ e, db.transitionStatus p now = .error e ∧
        e.isStaleOrderVersionError = false) := by
  -- the map allows `FAILED` from these two, and the columns bound the version and the worker's id
  by_cases hstatus : row.status = .worker .queued ∨ row.status = .worker .saved
  · obtain ⟨s, hs, hallowed⟩ : ∃ s, row.status = .worker s ∧ .failed ∈ allowedTransitions s := by
      rcases hstatus with hs | hs
      · exact ⟨.queued, hs, by decide⟩
      · exact ⟨.saved, hs, by decide⟩
    by_cases hrange : row.version < int4Max
    · by_cases hworker : FitsVarchar p.workerId
      · exact .inl ⟨⟨hstatus, hrange, hworker⟩, _, Database.transitionStatus_of_row
          (hexpected.trans hs) (hnext ▸ hallowed) hfind hs hversion.symm hrange
          ⟨hreadable, hworker⟩⟩
      · obtain ⟨message, haudit⟩ :=
          Database.insertTransition_of_not_fits (t := TransitionParams.audit p) hworker
        exact .inr ⟨fun h => hworker h.2.2, queryFailed message,
          (Database.transitionStatus_eq_insertTransition (hexpected.trans hs) (hnext ▸ hallowed)
            hfind hs hversion.symm hrange hreadable).trans haudit, rfl⟩
    · refine .inr ⟨fun h => hrange h.2.1, queryFailed "integer out of range", ?_, rfl⟩
      have hvalid : OrderStateMachine.validate p.expectedStatus p.nextStatus false = .ok () := by
        rw [hexpected, hs, hnext]
        simp [OrderStateMachine.validate, hallowed]
      have hoverflow : int4Max < row.version + 1 := by omega
      unfold Database.transitionStatus Database.updateStatus
      rw [hvalid, TransitionParams.readExtras_eq_ok_iff.mpr hreadable, hfind]
      simp [hexpected, hversion, hoverflow]
  · refine .inr ⟨fun h => hstatus h.1, ?_⟩
    have hrefused : ∃ e, OrderStateMachine.validate p.expectedStatus p.nextStatus false = .error e := by
      rw [hexpected, hnext]
      unfold OrderStateMachine.validate
      split
      · rename_i s hs
        cases s with
        | queued => exact absurd (.inl hs) hstatus
        | saved => exact absurd (.inr hs) hstatus
        | sentToPos => exact ⟨_, rfl⟩
        | completed => exact absurd (.inl hs) hunsettled
        | failed => exact absurd (.inr hs) hunsettled
      · exact ⟨_, rfl⟩
    obtain ⟨e, hvalid⟩ := hrefused
    refine ⟨e, ?_, OrderStateMachine.not_stale_of_validate_eq_error hvalid⟩
    unfold Database.transitionStatus
    rw [hvalid]

variable (error : OrderError) (jobMeta : JobMeta)

/-- The handler reads the order and goes on with what it found. -/
theorem findById_run (hplan : Steady plan) {α : Type} (id : Uuid)
    (f : Option OrderEntity → Service α) (w : World) (ops : List Op) :
    runWithin (logged Op.exec) plan (OrderRepository.findById id >>= f) (w, ops) =
      runWithin (logged Op.exec) plan (f (w.db.findOrder? id)) (w, .repo (.findById id) :: ops) := by
  obtain ⟨c, hfind⟩ := hplan.call (.repo (.findById id)) nofun
  rw [OrderRepository.findById_eq, runWithin_bind, hfind]
  rfl

/-- Nothing is attempted for a missing or a settled row.  The handler then goes on as if there had
been a transition. -/
theorem markFailed_run_of_settled (hplan : Steady plan) {w : World}
    (hsettled : ∀ row, w.db.orders.find? payload.orderId = some row → row.status.Settled)
    (ops : List Op) :
    runWithin (logged Op.exec) plan (markFailed payload error jobMeta) (w, ops) =
      (some (.ok ()), w, .repo (.findById payload.orderId) :: ops) := by
  have hnone : unsettled? (w.db.findOrder? payload.orderId) = none := by
    unfold unsettled? Database.findOrder?
    cases hrow : w.db.orders.find? payload.orderId with
    | none => rfl
    | some row => simp [hsettled row hrow]
  unfold markFailed
  rw [runWithin_tryCatch, findById_run hplan]
  simp only [hnone]
  rfl

/-- The transition to `FAILED` a handler asks for. -/
def failureTransition (payload : OrderJobPayload) (error : OrderError) (jobMeta : JobMeta)
    (row : OrderRow) : TransitionParams :=
  { transitionParams payload.orderId row.status .failed row.version jobMeta with
    reason := some error.message }

/-- The columns of its `UPDATE` take it if they take the message. -/
theorem readable_failureTransition {payload : OrderJobPayload} {error : OrderError}
    {jobMeta : JobMeta} {row : OrderRow} (hfits : FitsText error.message) :
    (failureTransition payload error jobMeta row).Readable :=
  ⟨rfl, fun _ h => (by cases h), fun _ h => Option.some.inj h ▸ hfits⟩

/-- The transition of an unsettled row succeeds or throws.  With nobody else at work a lost race is
out of the question. -/
theorem markFailed_run_of_unsettled (hplan : Steady plan) (hfits : FitsText error.message)
    {w : World} {row : OrderRow}
    (hrow : w.db.orders.find? payload.orderId = some row) (hunsettled : ¬ row.status.Settled)
    (ops : List Op) :
    (row.Failable jobMeta.workerId ∧ ∃ w' ops' row',
      runWithin (logged Op.exec) plan (markFailed payload error jobMeta) (w, ops) =
        (some (.ok ()), w', ops') ∧ w'.db.orders.find? payload.orderId = some row' ∧
        row'.status = .worker .failed) ∨
    (¬ row.Failable jobMeta.workerId ∧ ∃ e w' ops',
      runWithin (logged Op.exec) plan (markFailed payload error jobMeta) (w, ops) =
        (some (.error e), w', ops')) := by
  -- the handler makes one transition, from the status and version that it reads
  obtain ⟨c, htransition⟩ :=
    hplan.call (.repo (.transitionStatus (failureTransition payload error jobMeta row))) nofun
  obtain ⟨items, hsome⟩ : ∃ items, unsettled? (w.db.findOrder? payload.orderId) =
      some ⟨row, items⟩ := by
    unfold unsettled? Database.findOrder?
    rw [hrow]
    refine ⟨w.db.orderItems.filter fun item => item.orderId = payload.orderId, ?_⟩
    simp [hunsettled]
  unfold markFailed
  rw [runWithin_tryCatch, findById_run hplan]
  simp only [hsome]
  rw [show OrderRepository.transition { transitionParams payload.orderId row.status .failed
    row.version jobMeta with reason := some error.message } =
      Op.call (.repo (.transitionStatus (failureTransition payload error jobMeta row))) from
    OrderRepository.transition_eq _, htransition]
  have heffect : Op.effect (.repo (.transitionStatus (failureTransition payload error jobMeta row))) c
      w = ((settle w.db (quietly (w.db.transitionStatus
        (failureTransition payload error jobMeta row) c.now))).1, { w with
          db := (settle w.db (quietly (w.db.transitionStatus
            (failureTransition payload error jobMeta row) c.now))).2 }) := rfl
  rw [heffect]
  obtain ⟨hfailable, db', hspec⟩ | ⟨hnot, e, hspec, hstale⟩ :=
    Database.transitionStatus_toFailed (p := failureTransition payload error jobMeta row) c.now
      (readable_failureTransition hfits) hrow rfl rfl rfl hunsettled
  · rw [hspec]
    obtain ⟨row₀, -, -, hrow'⟩ := Database.transitionStatus_find? hspec
    exact .inl ⟨hfailable, { w with db := db' }, _, _, rfl, hrow',
      by simp [failureTransition, transitionParams]⟩
  · rw [hspec]
    -- the error is none of a stale version, so that the `catch` rethrows it
    have hrethrown : runWithin (logged Op.exec) plan
        (if e.isStaleOrderVersionError then return () else Program.throw e)
        (w, .repo (.transitionStatus (failureTransition payload error jobMeta row)) ::
          .repo (.findById payload.orderId) :: ops) = (some (.error e), w,
        .repo (.transitionStatus (failureTransition payload error jobMeta row)) ::
          .repo (.findById payload.orderId) :: ops) := by
      rw [hstale]
      rfl
    exact .inr ⟨hnot, e, w, _, hrethrown⟩

/-! ## The whole branch -/

/-- After the transition the branch ends as marked and published. -/
theorem moveToDlq_run (hplan : Steady plan) (hfits : FitsText error.message) (config : AppConfig)
    {w w₁ : World} {ops₁ : List Op}
    (hmark : runWithin (logged Op.exec) plan (markFailed payload error jobMeta) (w, []) =
      (some (.ok ()), w₁, ops₁)) :
    ∃ now, MarkedAndPublished payload error.message now w₁
      (runWithin (logged Op.exec) plan (moveToDlq config payload error jobMeta) (w, [])) := by
  obtain ⟨now, hmarked⟩ := markAndPublish_run hplan config payload hfits
    jobMeta.attemptsMade ⟨payload.orderId, payload.traceId, payload.storeId, error.message,
      jobMeta.attemptsMade,
      some (config.adminBaseUrl ++ "/admin/orders/" ++ payload.orderId.toText)⟩ w₁ ops₁
  refine ⟨now, ?_⟩
  unfold moveToDlq
  rw [runWithin_bind, hmark]
  exact hmarked

/-- A message that no `TEXT` column takes leaves the handler as an error, before a DLQ job is
published: with the transition or, where none is made, with the mark. -/
theorem moveToDlq_throws (hplan : Steady plan) (hunfit : ¬ FitsText error.message)
    (config : AppConfig) (w : World) :
    (runWithin (logged Op.exec) plan (moveToDlq config payload error jobMeta) (w, [])).1 ≠
      some (.ok ()) := by
  obtain ⟨c, hmark⟩ := hplan.call (.repo (.markDlq payload.orderId error.message)) nofun
  unfold moveToDlq
  rw [runWithin_bind]
  split
  · rename_i done s hrun
    obtain ⟨w₁, ops₁⟩ := s
    rw [OrderRepository.markDlq_eq, runWithin_bind, hmark]
    have heffect : (Op.effect (.repo (.markDlq payload.orderId error.message)) c w₁).1 =
        .error (queryFailed "invalid byte sequence for encoding UTF8") := by
      show (settle w₁.db (quietly (w₁.db.markDlq payload.orderId error.message c.now))).1 = _
      unfold Database.markDlq
      rw [textColumn_of_not_fits hunfit]
      rfl
    rw [heffect]
    nofun
  · nofun
  · nofun

/-- Marking and publishing is right exactly for a `FAILED` row. -/
theorem MarkedAndPublished.agrees_iff {reason : String} {now : Time} {w w₁ : World}
    {handled : Handled} (h : MarkedAndPublished payload reason now w₁ handled) :
    DlqAgrees payload w handled ↔
      ∃ row, w₁.db.orders.find? payload.orderId = some row ∧ row.status = .worker .failed := by
  have hfind : handled.2.1.db.orders.find? payload.orderId =
      (w₁.db.orders.find? payload.orderId).map fun row => row.sentToDlq reason now := by
    rw [(Database.markDlq_eq_ok_iff.mp h.db).2]
    exact Relational.Table.find?_modify_self w₁.db.orders payload.orderId
      (fun row => row.sentToDlq reason now) ⟨fun _ => rfl, fun _ => rfl⟩
  constructor
  · intro hagrees
    obtain ⟨-, -, row, hlisted, hid⟩ | ⟨hsilent, -⟩ := hagrees.agree
    · obtain ⟨hmem, hfailed⟩ := List.mem_filter.mp hlisted
      have hrow := Relational.Table.find?_eq_some_iff.mpr ⟨hmem, hid⟩
      rw [hfind, Option.map_eq_some_iff] at hrow
      obtain ⟨row₁, hrow₁, rfl⟩ := hrow
      simp only [decide_eq_true_eq] at hfailed
      exact ⟨row₁, hrow₁, hfailed.1⟩
    · exact absurd h.publishes hsilent
  · rintro ⟨row₁, hrow₁, hfailed⟩
    rw [hrow₁, Option.map_some] at hfind
    obtain ⟨hmem, hid⟩ := Relational.Table.find?_eq_some_iff.mp hfind
    have hlisted : row₁.sentToDlq reason now ∈ handled.2.1.db.findFailedOrders := by
      refine List.mem_filter.mpr ⟨hmem, ?_⟩
      simp [OrderRow.sentToDlq, hfailed]
    refine ⟨h.returns, .inl ⟨h.publishes, h.queued, _, hlisted, hid⟩, ?_⟩
    intro _ _ row hrow
    rw [hfind] at hrow
    cases hrow
    exact hfailed

/-- The branch of the DLQ is the whole handler there. -/
theorem handleFailure_of_goesToDlq {error : OrderError} {jobMeta : JobMeta} (config : AppConfig)
    (hbranch : goesToDlq error jobMeta.attemptsMade = true) :
    handleFailure config payload error jobMeta = moveToDlq config payload error jobMeta :=
  if_pos hbranch

/-- **When the DLQ and the orders table agree.**  For every state of the database, every
error that takes the DLQ branch and every steady environment: after `handleFailure`
they agree if and only if the order has a row that is `FAILED` or that the worker can fail, and
the error's message is a text that the columns for it take. -/
theorem dlqAgrees_iff (hplan : Steady plan) (config : AppConfig) (w : World)
    (hbranch : goesToDlq error jobMeta.attemptsMade = true) :
    DlqAgrees payload w (runWithin (logged Op.exec) plan
      (handleFailure config payload error jobMeta) (w, [])) ↔
      CanFail w.db payload.orderId jobMeta.workerId ∧ FitsText error.message := by
  rw [handleFailure_of_goesToDlq config hbranch]
  -- a message that no `TEXT` column takes makes the handler throw at its first write
  by_cases hfits : FitsText error.message
  swap
  · exact iff_of_false
      (fun hagrees => moveToDlq_throws error jobMeta hplan hfits config w hagrees.returns)
      (fun h => hfits h.2)
  rw [and_iff_left hfits]
  -- a settled order is passed over, any other is moved to `FAILED` first
  by_cases hsettled : ∀ row, w.db.orders.find? payload.orderId = some row → row.status.Settled
  · obtain ⟨now, hmarked⟩ := moveToDlq_run error jobMeta hplan hfits config
      (markFailed_run_of_settled error jobMeta hplan hsettled [])
    rw [hmarked.agrees_iff]
    refine exists_congr fun row => and_congr_right fun hrow => ?_
    rcases hsettled row hrow with hcompleted | hfailed
    · simp [hcompleted, OrderRow.Failable]
    · simp [hfailed]
  · obtain ⟨row, hrow, hunsettled⟩ : ∃ row, w.db.orders.find? payload.orderId = some row ∧
        ¬ row.status.Settled := by
      simpa using hsettled
    have hcanFail : CanFail w.db payload.orderId jobMeta.workerId ↔
        row.Failable jobMeta.workerId := by
      constructor
      · rintro ⟨row', hrow', hstatus⟩
        rw [hrow] at hrow'
        cases hrow'
        exact hstatus.resolve_left fun hfailed => hunsettled (.inr hfailed)
      · exact fun hfailable => ⟨row, hrow, .inr hfailable⟩
    rw [hcanFail]
    obtain ⟨hfailable, w₁, ops₁, row₁, hrun, hrow₁, hfailed⟩ | ⟨hnot, e, w₁, ops₁, hrun⟩ :=
      markFailed_run_of_unsettled error jobMeta hplan hfits hrow hunsettled []
    · obtain ⟨now, hmarked⟩ := moveToDlq_run error jobMeta hplan hfits config hrun
      exact iff_of_true (hmarked.agrees_iff.mpr ⟨row₁, hrow₁, hfailed⟩) hfailable
    · -- the error of the transition leaves the handler
      refine iff_of_false (fun hagrees => ?_) hnot
      have hreturns := hagrees.returns
      unfold moveToDlq at hreturns
      rw [runWithin_bind, hrun] at hreturns
      cases hreturns

end Parts

/-! ### Orders at the first seeded store -/

/-- The environment in which nothing fails. -/
def steadyPlan (_ : Op) : Option Choice := some (.undisturbed 100)

theorem steady_steadyPlan : Steady steadyPlan := fun _ => ⟨_, rfl, fun _ => rfl⟩

/-- A worker has stored the order and found the circuit of its store open. -/
def storedWorld : World :=
  (run Op.exec (fun n => ⟨.none, n, true, .ok (.object [])⟩)
    (process seedPayload (seedJob 0)) 0 (World.init .seed)).2

example : storedWorld.db.statusOf ⟨7⟩ = some (.worker .saved) := by decide +kernel

/-- The equivalence at the stored order, which can be failed. -/
theorem dlqAgrees_iff_stored :
    DlqAgrees seedPayload storedWorld (runWithin (logged Op.exec) steadyPlan
      (handleFailure seedConfig seedPayload (.circuitBreakerOpen seedPayload.storeId) (seedJob 2))
      (storedWorld, [])) ↔ CanFail storedWorld.db seedPayload.orderId (seedJob 2).workerId ∧
        FitsText (OrderError.circuitBreakerOpen seedPayload.storeId).message :=
  dlqAgrees_iff _ _ steady_steadyPlan seedConfig storedWorld rfl

/-- **An order without a row goes to the DLQ**, where no re-drive can find it. -/
theorem not_dlqAgrees_of_missing_row :
    ¬ ∀ (plan : Op → Option Choice) (config : AppConfig) (payload : OrderJobPayload)
        (error : OrderError) (jobMeta : JobMeta) (w : World), Steady plan →
      goesToDlq error jobMeta.attemptsMade = true →
      DlqAgrees payload w (runWithin (logged Op.exec) plan
        (handleFailure config payload error jobMeta) (w, [])) := by
  intro h
  have hagrees := h steadyPlan seedConfig seedPayload (.other "connection terminated") (seedJob 2)
    (World.init .seed) steady_steadyPlan rfl
  rw [handleFailure_of_goesToDlq seedConfig rfl] at hagrees
  have hmissing : (World.init .seed).db.orders.find? seedPayload.orderId = none := rfl
  obtain ⟨now, hmarked⟩ := moveToDlq_run (.other "connection terminated") (seedJob 2)
    steady_steadyPlan (by decide) seedConfig (markFailed_run_of_settled _ _ steady_steadyPlan
      (fun row hrow => absurd (hmissing.symm.trans hrow) nofun) [])
  obtain ⟨row, hrow, -⟩ := hmarked.agrees_iff.mp hagrees
  rw [hmissing] at hrow
  cases hrow

end ChickenOrder
