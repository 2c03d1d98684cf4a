import ChickenOrder.Services.Infrastructure

/-!
# `ProcessOrderService`

The worker's side: processing one job under the order's lock, and the handler of
the queue's `failed` event.  Logging is left out; nothing reads it.

An execution takes the lock, inserts the row, moves it to `SAVED`, asks the point of sale, and
records the dispatch by two more transitions.  Nothing spans these steps: each is a call of its
own, and an execution that dies or fails between two of them leaves what it has done so far.
The next attempt starts from the beginning, and meets its own row.

The handler decides by the class of the error and by the number of attempts whether the order is
lost.
-/

namespace ChickenOrder

open Interaction Interaction.Program

namespace ProcessOrderService

/-- What step 2 inserts for a job.  The calculated amount goes into the row, not the requested one.
-/
def createParams (payload : OrderJobPayload) (jobMeta : JobMeta) : CreateOrderParams where
  id := payload.orderId
  idempotencyKey := payload.idempotencyKey
  traceId := payload.traceId
  storeId := payload.storeId
  userId := payload.userId
  requestedAmount := payload.requestedAmount
  calculatedAmount := payload.calculatedAmount
  items := payload.items
  workerId := jobMeta.workerId
  jobId := jobMeta.jobId

/-- A transition of an order by this worker, without the optional fields.  The expected status and
version are those that were read. -/
def transitionParams (orderId : Uuid) (expectedStatus : RowStatus) (nextStatus : OrderStatus)
    (currentVersion : ℤ) (jobMeta : JobMeta) : TransitionParams where
  orderId := orderId
  expectedStatus := expectedStatus
  nextStatus := nextStatus
  currentVersion := currentVersion
  workerId := jobMeta.workerId
  jobId := some jobMeta.jobId
  reason := none
  posResponse := .undefined
  posErrorMessage := none

/-- From `QUEUED` to `SAVED`, based on the row as the insert has left it.  It is not read again. -/
def transitionToSaved (order : OrderEntity) (jobMeta : JobMeta) : Service Unit :=
  OrderRepository.transition
    (transitionParams order.row.id (.worker .queued) .saved order.row.version jobMeta)

/-- What is sent to the point of sale.  It is made of the job's payload, not of the row. -/
def domainOrder (payload : OrderJobPayload) : DomainOrder where
  orderId := payload.orderId
  traceId := payload.traceId
  storeId := payload.storeId
  idempotencyKey := payload.idempotencyKey
  totalAmount := payload.calculatedAmount
  items := payload.items

/-- The error of a row that is not there.  As no class of its own it is not retryable. -/
def orderNotFound (orderId : Uuid) : OrderError := .other ("주문을 찾을 수 없음: " ++ orderId.toText)

/-- The two transitions that follow an accepted order.  The row is read again before each of them,
for its version. -/
def recordDispatch (payload : OrderJobPayload) (jobMeta : JobMeta) (posResult : PosOrderResult) :
    Service Unit := do
  let savedOrder ← OrderRepository.findById payload.orderId
  match savedOrder with
  | none => Program.throw (orderNotFound payload.orderId)
  | some saved => do
      OrderRepository.transition
        { transitionParams payload.orderId (.worker .saved) .sentToPos saved.row.version jobMeta with
          posResponse := posResult.rawResponse }
      let sentOrder ← OrderRepository.findById payload.orderId
      match sentOrder with
      | none => Program.throw (orderNotFound payload.orderId)
      | some sent =>
          OrderRepository.transition
            (transitionParams payload.orderId (.worker .sentToPos) .completed sent.row.version
              jobMeta)

/-- The store and its adapter are looked up before anything is sent, and a store without one fails
the job for good.  The result is recorded once the call has gone through. -/
def sendToPos (payload : OrderJobPayload) (jobMeta : JobMeta) : Service Unit := do
  let storeRow ← Op.call (.findStore payload.storeId)
  match storeRow with
  | none => Program.throw (.businessLogic ("매장 없음: " ++ payload.storeId))
  | some store =>
      match PosAdapterFactory.create store.posType store.posEndpoint store.posApiKeyEnc with
      | .error err => Program.throw err
      | .ok posAdapter => do
          let posResult ← PosCircuitBreakerService.execute payload.storeId
            (posAdapter.sendOrder (domainOrder payload))
          recordDispatch payload jobMeta posResult

/-- The body of `process` under the lock.  A key that is already in the table ends the job normally,
as one whose order is already processed: whatever status that order has. -/
def processWithLock (payload : OrderJobPayload) (jobMeta : JobMeta) : Service Unit := do
  let order ← OrderRepository.create (createParams payload jobMeta)
  match order with
  -- the key is already in the table: taken for an order that is already processed
  | none => return ()
  | some order => do
      transitionToSaved order jobMeta
      sendToPos payload jobMeta

/-- `ProcessOrderService.process`.  The lock is released in a `finally`, so whatever happened; an
error of the release replaces that of the body. -/
def process (payload : OrderJobPayload) (jobMeta : JobMeta) : Service Unit := do
  let lockToken : LockToken := ⟨jobMeta.workerId, jobMeta.jobId⟩
  DistributedLockService.acquireOrThrow payload.orderId lockToken
  tryFinally (processWithLock payload jobMeta)
    (DistributedLockService.release payload.orderId lockToken)

/-! ## The failure handler -/

/-- `order && order.status !== 'FAILED' && order.status !== 'COMPLETED'`: the row that the handler
still moves. -/
def unsettled? (order : Option OrderEntity) : Option OrderEntity :=
  order.filter fun order => ¬ order.row.status.Settled

/-- The transition to `FAILED`, where a lost race is ignored.  Other errors are thrown on. -/
def markFailed (payload : OrderJobPayload) (error : OrderError) (jobMeta : JobMeta) : Service Unit :=
  tryCatch
    (do
      let order ← OrderRepository.findById payload.orderId
      match unsettled? order with
      | none => return ()
      | some order =>
          OrderRepository.transition
            { transitionParams payload.orderId order.row.status .failed order.row.version jobMeta with
              reason := some error.message })
    fun transitionErr =>
      if transitionErr.isStaleOrderVersionError then return () else Program.throw transitionErr

/-- A failed job for good: `FAILED`, the marks of the dead letter, the job in the dead letter queue
and the alert, in this order.  Each of the four is a call of its own, and one that throws leaves the
rest undone. -/
def moveToDlq (config : AppConfig) (payload : OrderJobPayload) (error : OrderError)
    (jobMeta : JobMeta) : Service Unit := do
  markFailed payload error jobMeta
  OrderRepository.markDlq payload.orderId error.message
  OrderQueueService.publishToDlq payload error.message jobMeta.attemptsMade
  NotificationService.sendDlqAlert config {
    orderId := payload.orderId
    traceId := payload.traceId
    storeId := payload.storeId
    reason := error.message
    attempts := jobMeta.attemptsMade
    dashboardUrl := some (config.adminBaseUrl ++ "/admin/orders/" ++ payload.orderId.toText) }

/-- The branch of `handleFailure`: `!isRetryable || isExhausted`.  `attemptsMade` counts the failed
attempts, this one among them. -/
def goesToDlq (error : OrderError) (attemptsMade : ℕ) : Bool :=
  let isRetryable := !error.isBusinessLogicError
  let isExhausted := decide (attemptsMade ≥ 2)
  !isRetryable || isExhausted

/-- `ProcessOrderService.handleFailure`.  A failure that is to be retried only counts the retry. -/
def handleFailure (config : AppConfig) (payload : OrderJobPayload) (error : OrderError)
    (jobMeta : JobMeta) : Service Unit :=
  if goesToDlq error jobMeta.attemptsMade then moveToDlq config payload error jobMeta
  else OrderRepository.incrementRetryCount payload.orderId

end ProcessOrderService

end ChickenOrder
