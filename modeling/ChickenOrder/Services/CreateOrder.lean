import Mathlib.Data.List.Sort
import ChickenOrder.Services.Infrastructure

/-!
# `CreateOrderService`

The API's side: admit a command once per idempotency key, validate its items
against the store's menus, publish the job.  What the runtime supplies from
outside (the trace header, the generated UUIDs) is the call's `ApiContext`.

Three steps decide what becomes of a call.  The first `SET … NX` tells a new request from a
repeated one, and a repeated one only reads.  A new one looks its menus up, in the cache or in
the table, and compares the total of its items with the amount that the client expects.  What is
admitted is published as a job, announced to the store and stored as the response, in this
order; whatever fails on the way leads to the `catch` block, which gives the key back.

The arithmetic is that of `decimal.js`: prices times quantities, added up to twenty digits.
-/

namespace ChickenOrder

open Interaction Interaction.Program

/-- An item of a command.  Its price is not part of it: prices come from the menus. -/
structure CommandItem where
  menuId : String
  quantity : JsNumber
  deriving DecidableEq

/-- What the callers of `execute` hand over, with the types that they declare.  The amount is the
text that the client has sent or that a number prints as. -/
structure CreateOrderCommand where
  idempotencyKey : String
  storeId : String
  userId : Option String
  requestedAmount : String
  items : List CommandItem
  deriving DecidableEq

/-- The trace id of the request, if it has one, and the UUIDs one `execute`
draws: the order's, and one wherever a missing trace id is replaced. -/
structure ApiContext where
  traceId : Option String
  orderId : Uuid
  payloadUuid : Uuid
  resultUuid : Uuid
  deriving DecidableEq

namespace CreateOrderService

/-! ## Validation -/

/-- `menu:${storeId}:${[...menuIds].sort().join(',')}`.  Sorting makes the key the same for the same
items in another order. -/
def menuCacheKey (menuIds : List String) (storeId : String) : String :=
  "menu:" ++ storeId ++ ":" ++ ",".intercalate (menuIds.insertionSort fun a b => a ≤ b)

/-- The menus from the cache, or from the database and then into the cache.  A cached list stays for
300 seconds, whatever becomes of the rows. -/
def getMenusCached (menuIds : List String) (storeId : String) : Service (List MenuInfo) := do
  let cached ← Op.call (.menuCacheGet (menuCacheKey menuIds storeId))
  match cached with
  | some menus => return menus
  | none => do
      let menus ← Op.call (.findMenusByIds menuIds storeId)
      Op.call (.menuCacheSet (menuCacheKey menuIds storeId) menus)
      return menus

/-- `menuMap.get(id)`: of equal ids the last one counts, as the map is built from the list. -/
def lookupMenu (menus : List MenuInfo) (id : String) : Option MenuInfo :=
  menus.reverse.find? fun menu => menu.id = id

/-- `new Decimal(unitPrice).times(quantity)`; the constructor throws on `null`. -/
def lineTotal? : MenuPrice → JsNumber → Option JsNumber
  | .amount q, quantity => some (.scale q quantity)
  | .nan, _ => some .nan
  | .null, _ => none

/-- What that constructor throws. -/
def nullPrice : OrderError := .other "[DecimalError] Invalid argument: null"

/-- The price in an enriched item.  One that is no amount makes the total `NaN`, which equals no
requested amount, or ends the loop, so that no such item leaves it. -/
def priceValue : MenuPrice → ℚ
  | .amount q => q
  | _ => 0

/-- The item loop: the running total and the items so far.  It ends at the first menu that is
missing or not available. -/
def enrichItems (menus : List MenuInfo) :
    List CommandItem → JsNumber → List OrderItem → Except OrderError (JsNumber × List OrderItem)
  | [], calculatedTotal, enrichedItems => .ok (calculatedTotal, enrichedItems)
  | item :: rest, calculatedTotal, enrichedItems =>
      match lookupMenu menus item.menuId with
      | none => .error (.menuNotFound item.menuId)
      | some menu =>
          if ¬ menu.isAvailable then .error (.menuUnavailable menu.name)
          else
            match lineTotal? menu.unitPrice item.quantity with
            | none => .error nullPrice
            | some lineTotal =>
                enrichItems menus rest (calculatedTotal.add lineTotal)
                  (enrichedItems ++ [⟨item.menuId, menu.name, priceValue menu.unitPrice, item.quantity⟩])

/-- The check of the total against the requested amount.  `decimal.js` compares values, not
spellings; a total of `NaN` equals none. -/
def checkAmount (requestedAmount : String) (calculatedTotal : JsNumber) : Except OrderError Unit :=
  match JsNumber.ofDecimalText? requestedAmount with
  | none => .error (.other ("[DecimalError] Invalid argument: " ++ requestedAmount))
  | some requested =>
      if calculatedTotal.equals requested then .ok ()
      else .error (.amountMismatch requestedAmount calculatedTotal.toFixed2)

/-- `validateAndEnrichItems` once the menus are known.  It makes no call, so that its result is a
function of the command and the menus. -/
def validateItems (cmd : CreateOrderCommand) (menus : List MenuInfo) :
    Except OrderError (String × List OrderItem) :=
  match enrichItems menus cmd.items 0 [] with
  | .error e => .error e
  | .ok (calculatedTotal, enrichedItems) =>
      match checkAmount cmd.requestedAmount calculatedTotal with
      | .error e => .error e
      | .ok () => .ok (calculatedTotal.toFixed2, enrichedItems)

/-- The menus first and then, without any further call, the checks. -/
def validateAndEnrichItems (cmd : CreateOrderCommand) : Service (String × List OrderItem) := do
  let menus ← getMenusCached (cmd.items.map CommandItem.menuId) cmd.storeId
  match validateItems cmd menus with
  | .error e => Program.throw e
  | .ok validated => return validated

/-! ## `execute` -/

/-- The job of an accepted order.  The items carry the names and prices that were validated, so that
the worker does not look at the menus again. -/
def payload (cmd : CreateOrderCommand) (ctx : ApiContext) (calculatedAmount : String)
    (enrichedItems : List OrderItem) : OrderJobPayload where
  orderId := ctx.orderId
  traceId := ctx.traceId.getD ctx.payloadUuid.toText
  storeId := cmd.storeId
  userId := cmd.userId
  idempotencyKey := cmd.idempotencyKey
  requestedAmount := cmd.requestedAmount
  calculatedAmount := calculatedAmount
  items := enrichedItems
  isRedrive := false
  redriveAt := none

/-- The result of the call that publishes the job.  A trace id that is missing is drawn a second
time here. -/
def result (ctx : ApiContext) : CreateOrderResult :=
  ⟨ctx.orderId, ctx.traceId.getD ctx.resultUuid.toText, false⟩

/-- Steps 3 to 5, once the items are validated: the job, the stored response and the message to the
store. -/
def publish (cmd : CreateOrderCommand) (ctx : ApiContext) (calculatedAmount : String)
    (enrichedItems : List OrderItem) : Service CreateOrderResult := do
  OrderQueueService.publishOrder (payload cmd ctx calculatedAmount enrichedItems)
  Op.call (.emitNewOrder cmd.storeId ctx.orderId enrichedItems calculatedAmount
    (payload cmd ctx calculatedAmount enrichedItems).traceId)
  IdempotencyService.setCompleted cmd.idempotencyKey (result ctx)
  return result ctx

/-- The `try` block: steps 2 to 5.  All of it happens with the key in hand. -/
def validateAndPublish (cmd : CreateOrderCommand) (ctx : ApiContext) : Service CreateOrderResult := do
  let (calculatedAmount, enrichedItems) ← validateAndEnrichItems cmd
  publish cmd ctx calculatedAmount enrichedItems

/-- What a duplicate is answered while the first request has no stored response. -/
def inProgress : OrderError :=
  .http 409 "동일한 요청이 처리 중입니다. 잠시 후 다시 시도해 주세요."

/-- What a client is answered if a dependency fails, whichever it was and however far the call had
come. -/
def unavailable : OrderError :=
  .http 503 "주문 접수 중 오류가 발생했습니다. 잠시 후 다시 시도해 주세요."

/-- The `catch` block: whatever failed, the key is given back.  If that fails too, its error is the
one that is thrown. -/
def abandon (cmd : CreateOrderCommand) (err : OrderError) : Service CreateOrderResult := do
  IdempotencyService.release cmd.idempotencyKey
  if err.isValidationError then Program.throw (.http 422 err.message)
  else Program.throw unavailable

/-- A call that did not get the key.  It answers with the stored response, or that the first request
is still in progress. -/
def replay (cmd : CreateOrderCommand) : Service CreateOrderResult := do
  let cached ← IdempotencyService.getCachedResponse cmd.idempotencyKey
  match cached with
  | some result => return { result with replayed := true }
  | none => Program.throw inProgress

/-- `CreateOrderService.execute`.  Between the first call and the `try` nothing can fail. -/
def execute (cmd : CreateOrderCommand) (ctx : ApiContext) : Service CreateOrderResult := do
  let isNew ← IdempotencyService.tryAcquire cmd.idempotencyKey ctx.orderId
  if isNew then tryCatch (validateAndPublish cmd ctx) (abandon cmd)
  else replay cmd

end CreateOrderService

end ChickenOrder
