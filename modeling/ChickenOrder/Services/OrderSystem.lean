import ChickenOrder.Interaction.Pool
import ChickenOrder.Services.CreateOrder
import ChickenOrder.Services.ProcessOrder

/-!
# The order system

The remaining entry points, the administrator's re-drive and the two `PATCH`
handlers of the order status, and the system of all of them: any number of
requests of any kind, interleaved call by call on one world, with keys expiring
in between.

A `Request` is whatever starts a program: a call of the API, an attempt of a worker, a `failed`
event, the administrator, a status from the point of sale.  The queue is not asked who may start
an attempt.  So attempts may be repeated, may overlap and may come at any time, which is more
than BullMQ does; a claim that needs less has a condition on the steps.

The last part fixes one order of the seed data, by which schedules are written down.
-/

namespace ChickenOrder

open Interaction Interaction.Program

/-! ## `AdminService` -/

namespace AdminService

/-- The trace id of the request, if it has one, and the time, which is written into the row's audit
entry. -/
structure RedriveContext where
  traceId : Option String
  now : Time

/-- The transition back to `QUEUED`, as the service asks for it: without the flag that would make
the state machine allow it. -/
def redriveTransition (order : OrderEntity) : TransitionParams where
  orderId := order.row.id
  expectedStatus := .worker .failed
  nextStatus := .queued
  currentVersion := order.row.version
  workerId := "admin-redrive"
  jobId := none
  reason := some "Admin manual re-drive"
  posResponse := .undefined
  posErrorMessage := none

/-- The job of a re-driven order, from its row and items.  The amounts are the row's. -/
def redrivePayload (order : OrderEntity) (ctx : RedriveContext) : OrderJobPayload where
  orderId := order.row.id
  traceId := ctx.traceId.getD order.row.traceId
  storeId := order.row.storeId.toText
  userId := order.row.userId.map Uuid.toText
  idempotencyKey := order.row.idempotencyKey
  requestedAmount := Decimal.toFixed2 order.row.requestedAmount
  calculatedAmount := Decimal.toFixed2 order.row.calculatedAmount
  items := order.items.map fun item =>
    ⟨item.menuId.toText, item.menuName, item.unitPrice, .finite item.quantity⟩
  isRedrive := true
  redriveAt := some ctx.now

/-- `AdminService.redriveOrder`, for an id that is a UUID. Only a row in `FAILED` gets as far as the
transition. -/
def redriveOrder (orderId : Uuid) (ctx : RedriveContext) : Service Unit := do
  let found ← OrderRepository.findById orderId
  match found with
  | none => Program.throw (.http 404 ("주문 없음: " ++ orderId.toText))
  | some order =>
      if order.row.status ≠ .worker .failed then
        Program.throw (.http 400
          ("FAILED 상태인 주문만 재처리 가능합니다. 현재 상태: " ++ order.row.status.text))
      else do
        OrderRepository.transition (redriveTransition order)
        OrderQueueService.publishOrder (redrivePayload order ctx)

end AdminService

/-! ## The status handlers -/

/-- What both handlers do with the result of their `UPDATE`: `rows.length` is
the length of the pair TypeORM returns, and `rows[0]` its first component. -/
def announceStatus (orderId : String) (result : UpdateResult) : Service JsValue :=
  match result.toJs with
  | [] => Program.throw (.http 404 ("주문 없음: " ++ orderId))
  | row :: _ => do
      Op.call (.emitOrderUpdated (row.get "store_id") orderId (row.get "status"))
      return .object
        [("ok", .bool true), ("orderId", .string orderId), ("status", row.get "status")]

/-- `OrderController.updateStatus`; the DTO admits the four statuses of the point of sale, and none
of the worker's. -/
def OrderController.updateStatus (orderId : String) (status : PosStatus) : Service JsValue := do
  let result ← Op.call (.patchStatus status.text orderId)
  announceStatus orderId result

/-- What a compatibility `PATCH` has for a status: any value, and `''` for a missing one. -/
def PublicController.statusValue (body : JsValue) : JsValue :=
  (body.get "status").coalesce (.string "")

/-- The status text of a compatibility `PATCH`, in upper case.  Any text is tried. -/
def PublicController.requestedStatus (body : JsValue) : String :=
  toUpperCase (PublicController.statusValue body).toText

/-- `PublicController.updateOrderStatus`: without a status it answers with an error and does
nothing, with one it makes the `UPDATE`. -/
def PublicController.updateOrderStatus (id : String) (body : JsValue) : Service JsValue :=
  if ¬ (PublicController.statusValue body).hasText then Program.throw .noPrimitive
  else if PublicController.requestedStatus body = "" then
    return .object [("ok", .bool false), ("message", .string "status 필드가 필요합니다.")]
  else do
    let result ← Op.call (.patchStatus (PublicController.requestedStatus body) id)
    announceStatus id result

/-! ## All requests -/

/-- What starts a program: an API call, a worker's attempt at a job, the `failed`
event of an attempt, the administrator, the point of sale. -/
inductive Request
  | createOrder (cmd : CreateOrderCommand) (ctx : ApiContext)
  | process (payload : OrderJobPayload) (jobMeta : JobMeta)
  | handleFailure (payload : OrderJobPayload) (error : OrderError) (jobMeta : JobMeta)
  | redriveOrder (orderId : Uuid) (ctx : AdminService.RedriveContext)
  | updateStatus (orderId : String) (status : PosStatus)
  | updateOrderStatus (id : String) (body : JsValue)

/-- What a request returns: the result of a new order, the body of an answer, or nothing of
interest. -/
inductive Outcome
  | created (result : CreateOrderResult)
  | done
  | answered (body : JsValue)

/-- The program of a request, with what it returns.  This is the table of the entry points that
touch orders. -/
def Request.program (config : AppConfig) : Request → Service Outcome
  | .createOrder cmd ctx => do
      let result ← CreateOrderService.execute cmd ctx
      return .created result
  | .process payload jobMeta => do
      ProcessOrderService.process payload jobMeta
      return .done
  | .handleFailure payload error jobMeta => do
      ProcessOrderService.handleFailure config payload error jobMeta
      return .done
  | .redriveOrder orderId ctx => do
      AdminService.redriveOrder orderId ctx
      return .done
  | .updateStatus orderId status => do
      let body ← OrderController.updateStatus orderId status
      return .answered body
  | .updateOrderStatus id body => do
      let body ← PublicController.updateOrderStatus id body
      return .answered body

/-- The order system of an installation.  Its states are pools of threads over one world, and
nothing orders their calls. -/
def orderSystem (config : AppConfig) :
    System Op.Reply OrderError Outcome World Choice Request Expiry where
  exec := Op.exec
  program := Request.program config
  env := fun e w => some (e.apply w)

/-- Threads of requests over one world. -/
abbrev OrderPool := Pool Op.Reply OrderError Outcome World Request

/-- A request in progress: what it was, what its calls were answered, and what is left of it.  The
history is kept for the proofs; no program reads it. -/
abbrev OrderThread := Thread Op.Reply OrderError Outcome Request

/-- A call with its answer. -/
abbrev OrderEvent := Event Op.Reply OrderError

/-- A step: a request comes in, a thread makes its next call, a thread dies, or a key expires. -/
abbrev OrderLabel := Label Choice Request Expiry

/-! ## An order at the first seeded store -/

/-- A configuration without a webhook for alerts. -/
def seedConfig : AppConfig := ⟨"", "http://localhost:3000"⟩

/-- An order of one chicken from the first seeded store. -/
def seedCommand : CreateOrderCommand where
  idempotencyKey := "key-7"
  storeId := "11111111-1111-1111-1111-111111111111"
  userId := none
  requestedAmount := "18000"
  items := [⟨"aaaaaaaa-aaaa-aaaa-aaaa-aaaaaaaaaaaa", 1⟩]

/-- The ids that are drawn for it. -/
def seedContext : ApiContext := ⟨some "trace-7", ⟨7⟩, ⟨8⟩, ⟨9⟩⟩

/-- The job that command publishes, with the price that migration 001 has for the menu. -/
def seedPayload : OrderJobPayload :=
  CreateOrderService.payload seedCommand seedContext "18000.00"
    [⟨"aaaaaaaa-aaaa-aaaa-aaaa-aaaaaaaaaaaa", "후라이드치킨", 18000, 1⟩]

/-- An attempt at that job by the first worker, after `attemptsMade` failed ones. -/
def seedJob (attemptsMade : ℕ) : JobMeta := ⟨.order ⟨7⟩, "worker-a-1", attemptsMade⟩

/-- The path parameter that names the order. -/
def seedOrderId : String := "00000000-0000-0000-0000-000000000007"

example :
    (Program.run Op.exec (fun n => .undisturbed n)
      (CreateOrderService.execute seedCommand seedContext) 0 (World.init .seed)).2.mainQueue =
      [⟨.order ⟨7⟩, seedPayload⟩] := by
  decide +kernel

end ChickenOrder
