import ChickenOrder.Domain.OrderStatus

/-!
# Order jobs

`OrderJobPayload` is what the API publishes and the worker processes.  Its
order id is always a UUID the service generated; everything the client chose
(store, menus, key, amounts) is still the client's text.

Prices and names are not the client's: they are those that the validation has found in the
menus, and the worker takes them from the job.
-/

namespace ChickenOrder

/-- The job ids the service gives: `order-${orderId}` on the main queue and
`dlq-${orderId}-${Date.now()}` on the dead letter queue. -/
inductive JobId
  | order (orderId : Uuid)
  | dlq (orderId : Uuid) (now : Time)
  deriving DecidableEq

/-- One item of a job payload.  JSON has `null` for a quantity that is not finite.  Its name and
price are those the validation found. -/
structure OrderItem where
  menuId : String
  menuName : String
  unitPrice : ℚ
  quantity : JsNumber
  deriving DecidableEq

/-- The data of a job: what `execute` has validated of an order, and what the worker needs to store
it.  The amounts are texts, as they come out of `toFixed(2)`; a re-drive marks the job with the last
two fields. -/
structure OrderJobPayload where
  orderId : Uuid
  traceId : String
  storeId : String
  userId : Option String
  idempotencyKey : String
  requestedAmount : String
  calculatedAmount : String
  items : List OrderItem
  isRedrive : Bool
  redriveAt : Option Time
  deriving DecidableEq

/-- What the processor passes along with the payload.  The worker's id is made of its host's name
and its process id, whatever these are; the last field is BullMQ's count of the attempts made. -/
structure JobMeta where
  jobId : JobId
  workerId : String
  attemptsMade : ℕ
  deriving DecidableEq

end ChickenOrder
