import Mathlib.Data.List.Sort
import ChickenOrder.Services.ItemValidation
import ChickenOrder.Services.MenuAdmin
import ChickenOrder.Services.ProcessOrder

/-!
# Orders whose types nobody has checked

`POST /internal/orders` declares the type of its body, but nothing checks it, and so any JSON
gets as far as `CreateOrderService.execute`: a missing order id, a quantity that is a text, a
store id in an array.  This module has the service once more with values of any type, in the
source's order: what is printed into a Redis key or a room, what is looked up in a map, what
becomes a `Decimal`, and what ends up in a parameter of a statement.

Two libraries decide what they make of such values, `decimal.js` and the Postgres client;
`Clients` stands for them, and `Clients.Documented` is what is known of them.  A command that has
its types is treated as in `ChickenOrder.Services.CreateOrder`: that is `execute_untyped`.
-/

namespace ChickenOrder

open Interaction Interaction.Program

/-! ## Commands and payloads -/

/-- An item of a command, of which the service reads two fields.  Nothing says that the first is a
string or the second a number. -/
structure UntypedItem where
  menuId : JsValue
  quantity : JsValue

/-- `CreateOrderCommand` with what is there at run time.  The amount is a text in any case, as
all callers make one. -/
structure UntypedCommand where
  idempotencyKey : JsValue
  storeId : JsValue
  userId : Option String
  requestedAmount : String
  items : List UntypedItem

/-- An item of a job. -/
structure UntypedOrderItem where
  menuId : JsValue
  menuName : String
  unitPrice : ℚ
  quantity : JsValue

/-- `OrderJobPayload` with what is there at run time.  The queue keeps it as JSON, which the values
came from. -/
structure UntypedPayload where
  orderId : Uuid
  traceId : String
  storeId : JsValue
  userId : Option String
  idempotencyKey : JsValue
  requestedAmount : String
  calculatedAmount : String
  items : List UntypedOrderItem

/-- A number as a value. -/
def JsNumber.toJs (n : JsNumber) : JsValue := .number n.toText

/-- A command with its types, as a value among others. -/
def CreateOrderCommand.untyped (cmd : CreateOrderCommand) : UntypedCommand where
  idempotencyKey := .string cmd.idempotencyKey
  storeId := .string cmd.storeId
  userId := cmd.userId
  requestedAmount := cmd.requestedAmount
  items := cmd.items.map fun item => ⟨.string item.menuId, item.quantity.toJs⟩

/-- An item of a job with its types, as a value among others. -/
def OrderItem.untyped (item : OrderItem) : UntypedOrderItem :=
  ⟨.string item.menuId, item.menuName, item.unitPrice, item.quantity.toJs⟩

/-- A job with its types, likewise. -/
def OrderJobPayload.untyped (data : OrderJobPayload) : UntypedPayload where
  orderId := data.orderId
  traceId := data.traceId
  storeId := .string data.storeId
  userId := data.userId
  idempotencyKey := .string data.idempotencyKey
  requestedAmount := data.requestedAmount
  calculatedAmount := data.calculatedAmount
  items := data.items.map OrderItem.untyped

/-! ## `POST /internal/orders` -/

namespace InternalBridgeController

/-- An item as `bridgeOrder` maps it.  Of `null` nothing can be read, and the sum of the two
prices needs their primitive values. -/
def mapUntypedItem (item : JsValue) : Except OrderError UntypedItem :=
  if item.isNullish then .error (.typeError "Cannot read properties of null (reading 'menuId')")
  else if ¬ (item.get "unitPrice").hasText ∨
      ¬ ((item.get "optionPrice").coalesce (.number "0")).hasText then .error .noPrimitive
  else .ok ⟨item.get "menuId", item.get "quantity"⟩

/-- `dto.items.map(…)`: only arrays have that method, and on anything else the handler throws. -/
def mapUntypedItems (body : JsValue) : Except OrderError (List UntypedItem) :=
  match body.get "items" with
  | .array elements => elements.mapM mapUntypedItem
  | _ => .error (.typeError "dto.items.map is not a function")

/-- What `bridgeOrder` hands to the service, of any body.  The amount is made a text here, and
everything else is passed on as it is. -/
def untypedCommand (body : JsValue) : Except OrderError UntypedCommand :=
  if ¬ (body.get "totalAmount").hasText then .error .noPrimitive
  else
    (mapUntypedItems body).map fun items => {
      idempotencyKey := body.get "orderId"
      storeId := body.get "storeId"
      userId := none
      requestedAmount := (body.get "totalAmount").toText
      items := items }

end InternalBridgeController

/-- A command that one of the three callers can make.  Those of the first two have their types, as
the DTO or the handler has seen to that. -/
inductive Handed : UntypedCommand → Prop
  | create (dto : CreateOrderDto) (h : dto.Valid) : Handed (OrderController.command dto).untyped
  | createOrderCompat (body : JsValue) (key : Uuid) (cmd : CreateOrderCommand)
      (h : PublicController.command body key = .ok (.ok cmd)) : Handed cmd.untyped
  | bridgeOrder (body : JsValue) (cmd : UntypedCommand)
      (h : InternalBridgeController.untypedCommand body = .ok cmd) : Handed cmd

/-! ## The libraries -/

/-- The exponent of a numeral: `0` where it has none. -/
def exponentOf (s : String) : ℤ :=
  (Decimal.readExponent (s.toList.dropWhile fun c => c ≠ 'e' ∧ c ≠ 'E')).getD 0

/-- An exponent that type `NUMERIC` reads.  `decimal.js` reads larger ones. -/
def FitsExponent (s : String) : Prop := (exponentOf s).natAbs < 1073741823

instance (s : String) : Decidable (FitsExponent s) := inferInstanceAs (Decidable (_ < _))

/-- What others make of a value whose type they have not been promised: `decimal.js`, the driver of
Postgres, and Postgres itself. -/
structure Clients where
  /-- `new Decimal(v)`; `none` where it throws. -/
  newDecimal : JsValue → Option JsNumber
  /-- The text of a parameter that is an array or an object, once the job's JSON has been read. -/
  encode : JsValue → String
  /-- The menus found with ids or a store id that are no strings, or the error of that query. -/
  findMenus : Database → List JsValue → JsValue → Except OrderError (List MenuInfo)

namespace Clients

/-- What is documented of the libraries: `decimal.js` reads decimal notation, in a string or as
JavaScript prints a number; arrays and objects become texts that begin with a brace; and a query
finds rows of its table. -/
structure Documented (clients : Clients) : Prop where
  newDecimal_string : ∀ s q, FitsExponent s → Decimal.ofText? s = some q →
    clients.newDecimal (.string s) = some (.finite q)
  newDecimal_number : ∀ s q, FitsExponent s → Decimal.ofText? s = some q →
    clients.newDecimal (.number s) = some (.finite q)
  encode_brace : ∀ v, ∃ cs, (clients.encode v).toList = '{' :: cs
  findMenus_mem : ∀ db menuIds storeId menus, clients.findMenus db menuIds storeId = .ok menus →
    ∀ info ∈ menus, ∃ menu ∈ db.menus, info = menu.info

variable (clients : Clients)

/-- The text of a parameter, `none` for `NULL`.  JSON has turned numbers that are not finite into
`null`. -/
def parameter : JsValue → Option String
  | .undefined => none
  | .null => none
  | .bool b => some (if b then "true" else "false")
  | .number text => if text = "Infinity" ∨ text = "-Infinity" ∨ text = "NaN" then none else some text
  | .string s => some s
  | v => some (clients.encode v)

/-- The strings among ids that are all strings.  For these the database does what it does for typed
ones. -/
def strings? : List JsValue → Option (List String)
  | [] => some []
  | .string s :: rest => (strings? rest).map (s :: ·)
  | _ :: _ => none

/-- `findMenusByIds`, which asks the database only for ids.  Parameters that are no strings are left
to what `Clients` says of them. -/
def findMenusByIds (db : Database) (menuIds : List JsValue) (storeId : JsValue) :
    Except OrderError (List MenuInfo) :=
  if menuIds.isEmpty then .ok []
  else
    match strings? menuIds, storeId with
    | some ids, .string store => db.findMenusByIds ids store
    | _, _ => clients.findMenus db menuIds storeId

end Clients

/-! ## Calls -/

/-- One outgoing call: one of those that take texts in any case, or one that takes values.  The
replies are the same. -/
inductive UntypedOp
  | shared (o : Op)
  | findMenusByIds (menuIds : List JsValue) (storeId : JsValue)
  | mainQueueAdd (data : UntypedPayload)
  | emitNewOrder (storeId : JsValue) (orderId : Uuid) (items : List UntypedOrderItem)
      (totalAmount : String) (traceId : String)

/-- What a call answers. -/
abbrev UntypedOp.Reply : UntypedOp → Type
  | .shared o => Op.Reply o
  | .findMenusByIds _ _ => List MenuInfo
  | _ => Unit

/-- A call on the world.  The queue and the rooms are read by nobody here, so that the world does
not keep what goes there. -/
def UntypedOp.exec (clients : Clients) :
    (o : UntypedOp) → Choice → World → Except OrderError (Reply o) × World
  | .shared o, c, w => o.exec c w
  | .findMenusByIds menuIds storeId, c, w =>
      c.fault.apply .other w (clients.findMenusByIds w.db menuIds storeId, w)
  | .mainQueueAdd _, c, w => c.fault.apply .other w (.ok (), w)
  | .emitNewOrder _ _ _ _ _, c, w => c.fault.apply .other w (.ok (), w)

/-- A program of such calls. -/
abbrev UntypedService := Program UntypedOp.Reply OrderError

/-- Make one call. -/
abbrev UntypedOp.call (o : UntypedOp) : UntypedService (Reply o) := Program.perform o

/-- Use a service whose calls all take texts.  The idempotency service is one. -/
def UntypedService.ofService {α : Type} (p : Service α) : UntypedService α :=
  Program.embed UntypedOp.shared p

/-! ## `CreateOrderService` -/

namespace UntypedOrderService

open UntypedService (ofService)

/-- The value is missing, which `sort()` puts behind all others.  It compares the rest by their
texts. -/
def isUndefined : JsValue → Bool
  | .undefined => true
  | _ => false

/-- The ids as `sort()` orders them: by their texts, and behind them those that are `undefined`. -/
def sorted (menuIds : List JsValue) : List JsValue :=
  (menuIds.filter fun id => ¬ isUndefined id).insertionSort (fun a b => a.toText ≤ b.toText) ++
    menuIds.filter isUndefined

/-- `menu:${storeId}:${[...menuIds].sort().join(',')}`. -/
def menuCacheKey (menuIds : List JsValue) (storeId : JsValue) : String :=
  "menu:" ++ storeId.toText ++ ":" ++ JsValue.joinText (sorted menuIds)

/-- `CreateOrderService.getMenusCached`, where the key is made of whatever the ids and the store id
print as.  To print some of them throws, before any call. -/
def getMenusCached (menuIds : List JsValue) (storeId : JsValue) :
    UntypedService (List MenuInfo) :=
  if ¬ storeId.hasText ∨ ¬ JsValue.allHaveText menuIds then Program.throw .noPrimitive
  else do
    let cached ← UntypedOp.call (.shared (.menuCacheGet (menuCacheKey menuIds storeId)))
    match cached with
    | some menus => return menus
    | none => do
        let menus ← UntypedOp.call (.findMenusByIds menuIds storeId)
        UntypedOp.call (.shared (.menuCacheSet (menuCacheKey menuIds storeId) menus))
        return menus

/-- `menuMap.get(id)`: the keys of the map are strings, and no other value equals one.  So an item
that passes the loop has a string for its id. -/
def lookupMenu (menus : List MenuInfo) : JsValue → Option MenuInfo
  | .string id => CreateOrderService.lookupMenu menus id
  | _ => none

/-- What `decimal.js` throws. -/
def invalidArgument (v : JsValue) : OrderError :=
  .other ("[DecimalError] Invalid argument: " ++ v.toText)

variable (clients : Clients)

/-- `new Decimal(unitPrice).times(quantity)`.  Both throw for what `decimal.js` does not read. -/
def lineTotal (unitPrice : MenuPrice) (quantity : JsValue) : Except OrderError JsNumber :=
  if unitPrice = .null then .error CreateOrderService.nullPrice
  else
    match (clients.newDecimal quantity).bind (CreateOrderService.lineTotal? unitPrice) with
    | none => .error (invalidArgument quantity)
    | some lineTotal => .ok lineTotal

/-- The item loop: the running total and the items so far.  It is the typed loop with other values
in it. -/
def enrichItems (menus : List MenuInfo) :
    List UntypedItem → JsNumber → List UntypedOrderItem →
      Except OrderError (JsNumber × List UntypedOrderItem)
  | [], calculatedTotal, enrichedItems => .ok (calculatedTotal, enrichedItems)
  | item :: rest, calculatedTotal, enrichedItems =>
      match lookupMenu menus item.menuId with
      | none => .error (.menuNotFound item.menuId.toText)
      | some menu =>
          if ¬ menu.isAvailable then .error (.menuUnavailable menu.name)
          else
            match lineTotal clients menu.unitPrice item.quantity with
            | .error e => .error e
            | .ok lineTotal =>
                enrichItems menus rest (calculatedTotal.add lineTotal) (enrichedItems ++
                  [⟨item.menuId, menu.name, CreateOrderService.priceValue menu.unitPrice,
                    item.quantity⟩])

/-- The check of the total against the requested amount. -/
def checkAmount (requestedAmount : String) (calculatedTotal : JsNumber) : Except OrderError Unit :=
  match clients.newDecimal (.string requestedAmount) with
  | none => .error (invalidArgument (.string requestedAmount))
  | some requested =>
      if calculatedTotal.equals requested then .ok ()
      else .error (.amountMismatch requestedAmount calculatedTotal.toFixed2)

/-- `validateAndEnrichItems` once the menus are known, as in the typed service. -/
def validateItems (cmd : UntypedCommand) (menus : List MenuInfo) :
    Except OrderError (String × List UntypedOrderItem) :=
  match enrichItems clients menus cmd.items 0 [] with
  | .error e => .error e
  | .ok (calculatedTotal, enrichedItems) =>
      match checkAmount clients cmd.requestedAmount calculatedTotal with
      | .error e => .error e
      | .ok () => .ok (calculatedTotal.toFixed2, enrichedItems)

/-- `CreateOrderService.validateAndEnrichItems`. -/
def validateAndEnrichItems (cmd : UntypedCommand) :
    UntypedService (String × List UntypedOrderItem) := do
  let menus ← getMenusCached (cmd.items.map UntypedItem.menuId) cmd.storeId
  match validateItems clients cmd menus with
  | .error e => Program.throw e
  | .ok validated => return validated

/-- The job of an accepted order: what was handed over goes into it unchanged, quantities included.
-/
def payload (cmd : UntypedCommand) (ctx : ApiContext) (calculatedAmount : String)
    (enrichedItems : List UntypedOrderItem) : UntypedPayload where
  orderId := ctx.orderId
  traceId := ctx.traceId.getD ctx.payloadUuid.toText
  storeId := cmd.storeId
  userId := cmd.userId
  idempotencyKey := cmd.idempotencyKey
  requestedAmount := cmd.requestedAmount
  calculatedAmount := calculatedAmount
  items := enrichedItems

/-- Steps 3 to 5, once the items are validated. -/
def publish (cmd : UntypedCommand) (ctx : ApiContext) (calculatedAmount : String)
    (enrichedItems : List UntypedOrderItem) : UntypedService CreateOrderResult := do
  UntypedOp.call (.mainQueueAdd (payload cmd ctx calculatedAmount enrichedItems))
  UntypedOp.call (.emitNewOrder cmd.storeId ctx.orderId enrichedItems calculatedAmount
    (payload cmd ctx calculatedAmount enrichedItems).traceId)
  ofService (IdempotencyService.setCompleted cmd.idempotencyKey.toText
    (CreateOrderService.result ctx))
  return CreateOrderService.result ctx

/-- The `try` block: steps 2 to 5. -/
def validateAndPublish (cmd : UntypedCommand) (ctx : ApiContext) :
    UntypedService CreateOrderResult := do
  let (calculatedAmount, enrichedItems) ← validateAndEnrichItems clients cmd
  publish cmd ctx calculatedAmount enrichedItems

/-- The command with its values as they are printed.  Of this the calls with a key need the key
alone. -/
def printed (cmd : UntypedCommand) : CreateOrderCommand where
  idempotencyKey := cmd.idempotencyKey.toText
  storeId := cmd.storeId.toText
  userId := cmd.userId
  requestedAmount := cmd.requestedAmount
  items := []

/-- `CreateOrderService.execute`, of a command of any types.  The first thing it does is to make a
text of the idempotency key. -/
def execute (cmd : UntypedCommand) (ctx : ApiContext) : UntypedService CreateOrderResult :=
  if ¬ cmd.idempotencyKey.hasText then Program.throw .noPrimitive
  else do
    let isNew ← ofService
      (IdempotencyService.tryAcquire cmd.idempotencyKey.toText ctx.orderId)
    if isNew then
      tryCatch (validateAndPublish clients cmd ctx) fun err =>
        ofService (CreateOrderService.abandon (printed cmd) err)
    else ofService (CreateOrderService.replay (printed cmd))

end UntypedOrderService

/-! ## The worker's insert -/

/-- Digits, as `INTEGER` reads them.  A sign before them is another matter. -/
def readInteger (cs : List Char) : Option ℤ :=
  if isDigits cs then some ((Decimal.readDigits cs 0 0).1 : ℕ) else none

/-- What `INTEGER` reads of a text.  White space around it can be left out here, as `decimal.js`
has not read such a text. -/
def integerText? (s : String) : Option ℤ :=
  match s.toList with
  | '-' :: cs => (readInteger cs).map Neg.neg
  | '+' :: cs => readInteger cs
  | cs => readInteger cs

/-- A parameter of a column that is `NOT NULL`.  A missing value and JSON's `null` are the same to
the driver. -/
def notNull (column : String) : Option String → Except OrderError String
  | some s => .ok s
  | none =>
      .error (queryFailed ("null value in column " ++ column ++ " violates not-null constraint"))

namespace Clients

variable (clients : Clients)

/-- The quantity that the column reads of a parameter.  One that it does not read stands as
`NaN`, which it refuses like that. -/
def readQuantity (v : JsValue) : JsNumber :=
  match (clients.parameter v).bind integerText? with
  | some k => .finite k
  | none => .nan

/-- An item with its values as parameters.  A menu id that is `NULL` is refused like a text that
is no UUID. -/
def readItem (item : UntypedOrderItem) : OrderItem where
  menuId := (clients.parameter item.menuId).getD ""
  menuName := item.menuName
  unitPrice := item.unitPrice
  quantity := clients.readQuantity item.quantity

/-- The command as the database reads the parameters that come of it: two of them are needed, and
the exponent of the amount has to be one that `NUMERIC` reads. -/
def readCommand (cmd : UntypedCommand) : Except OrderError CreateOrderCommand := do
  let key ← notNull "idempotency_key" (clients.parameter cmd.idempotencyKey)
  let storeId ← notNull "store_id" (clients.parameter cmd.storeId)
  if FitsExponent cmd.requestedAmount then
    return {
      idempotencyKey := key
      storeId := storeId
      userId := cmd.userId
      requestedAmount := cmd.requestedAmount
      items := cmd.items.map fun item =>
        ⟨(clients.parameter item.menuId).getD "", clients.readQuantity item.quantity⟩ }
  else .error (queryFailed "invalid input syntax for type numeric")

/-- The job likewise: the row that the insert would make of it, if the columns read its parameters
at all. -/
def readPayload (data : UntypedPayload) : Except OrderError OrderJobPayload := do
  let key ← notNull "idempotency_key" (clients.parameter data.idempotencyKey)
  let storeId ← notNull "store_id" (clients.parameter data.storeId)
  if FitsExponent data.requestedAmount then
    return {
      orderId := data.orderId
      traceId := data.traceId
      storeId := storeId
      userId := data.userId
      idempotencyKey := key
      requestedAmount := data.requestedAmount
      calculatedAmount := data.calculatedAmount
      items := data.items.map clients.readItem
      isRedrive := false
      redriveAt := none }
  else .error (queryFailed "invalid input syntax for type numeric")

end Clients

/-- `createOrder` on the payload of a job, of any types: what the columns read of it is inserted, or
refused, as ever. -/
def Database.createUntypedOrder (clients : Clients) (db : Database) (data : UntypedPayload)
    (jobMeta : JobMeta) (now : Time) : Except OrderError (Bool × Database) := do
  let data ← clients.readPayload data
  db.createOrder (ProcessOrderService.createParams data jobMeta) now

/-! ## The API among others -/

/-- What happens besides the orders: keys expire, menus are uploaded, and everything else in the
installation does what it does, which is not to write menus and not to cache them. -/
inductive Surroundings
  | catalog (e : CatalogStep)
  | elsewhere (change : World → World)

/-- What such a step does to the world.  The rest of the system may do anything but change the menus
or the menu cache past the steps that do. -/
def Surroundings.apply : Surroundings → World → World
  | .catalog e, w => e.apply w
  | .elsewhere change, w =>
      { change w with
        db := { (change w).db with menus := w.db.menus }
        menuCache := w.menuCache }

/-- Orders of any types, in any number and any interleaving.  Workers are part of the surroundings.
-/
def untypedSystem (clients : Clients) :
    System UntypedOp.Reply OrderError CreateOrderResult World Choice (UntypedCommand × ApiContext)
      Surroundings where
  exec := UntypedOp.exec clients
  program := fun q => UntypedOrderService.execute clients q.1 q.2
  env := fun e w => some (e.apply w)

/-! ## Commands that have their types -/

namespace UntypedService

variable {α β : Type}

/-- A service as it acts through these calls, with values for its texts and numbers. -/
def lift : Service α → UntypedService α
  | .pure a => .pure a
  | .throw e => .throw e
  | .call (.findMenusByIds menuIds storeId) k =>
      .call (.findMenusByIds (menuIds.map .string) (.string storeId)) fun r => lift (k r)
  | .call (.mainQueueAdd data) k => .call (.mainQueueAdd data.untyped) fun r => lift (k r)
  | .call (.emitNewOrder storeId orderId items totalAmount traceId) k =>
      .call (.emitNewOrder (.string storeId) orderId (items.map OrderItem.untyped) totalAmount
        traceId) fun r => lift (k r)
  | .call o k => .call (.shared o) fun r => lift (k r)

@[simp] theorem lift_throw (e : OrderError) : lift (Program.throw e : Service α) = .throw e := rfl

theorem lift_bind (p : Service α) (f : α → Service β) :
    lift (p >>= f) = lift p >>= fun a => lift (f a) := by
  show lift (Program.bind p f) = Program.bind (lift p) fun a => lift (f a)
  induction p with
  | pure a => rfl
  | throw e => rfl
  | call o k ih => cases o <;> exact congrArg (Program.call _) (funext ih)

theorem lift_tryCatch (p : Service α) (handler : OrderError → Service α) :
    lift (tryCatch p handler) = tryCatch (lift p) fun e => lift (handler e) := by
  induction p with
  | pure a => rfl
  | throw e => rfl
  | call o k ih => cases o <;> exact congrArg (Program.call _) (funext ih)

/-- The calls whose arguments are texts in any case. -/
def TakesTexts : Op → Prop
  | .findMenusByIds _ _ => False
  | .mainQueueAdd _ => False
  | .emitNewOrder _ _ _ _ _ => False
  | _ => True

/-- A service whose calls all take texts is lifted as it is, since a lifted call of that kind is the
call itself. -/
theorem ofService_eq_lift {p : Service α} (h : p.OnlyCalls TakesTexts) : ofService p = lift p := by
  unfold ofService
  induction p with
  | pure a => rfl
  | throw e => rfl
  | call o k ih =>
      have hrest := funext fun r => ih r (h.2 r)
      cases o with
      | findMenusByIds menuIds storeId => exact h.1.elim
      | mainQueueAdd data => exact h.1.elim
      | emitNewOrder storeId orderId items totalAmount traceId => exact h.1.elim
      | _ => exact congrArg (Program.call _) hrest

/-- A single call, lifted, is the call it is lifted to. -/
theorem lift_findMenusByIds (menuIds : List String) (storeId : String) :
    lift (Op.call (.findMenusByIds menuIds storeId)) =
      UntypedOp.call (.findMenusByIds (menuIds.map .string) (.string storeId)) :=
  congrArg (Program.call _) (funext fun r => by cases r <;> rfl)

/-- A published job is lifted to the job of values. -/
theorem lift_mainQueueAdd (data : OrderJobPayload) :
    lift (Op.call (.mainQueueAdd data)) = UntypedOp.call (.mainQueueAdd data.untyped) :=
  congrArg (Program.call _) (funext fun r => by cases r <;> rfl)

theorem lift_emitNewOrder (storeId : String) (orderId : Uuid) (items : List OrderItem)
    (totalAmount traceId : String) :
    lift (Op.call (.emitNewOrder storeId orderId items totalAmount traceId)) =
      UntypedOp.call (.emitNewOrder (.string storeId) orderId (items.map OrderItem.untyped)
        totalAmount traceId) :=
  congrArg (Program.call _) (funext fun r => by cases r <;> rfl)

theorem lift_menuCacheGet (key : String) :
    lift (Op.call (.menuCacheGet key)) = UntypedOp.call (.shared (.menuCacheGet key)) :=
  congrArg (Program.call _) (funext fun r => by cases r <;> rfl)

theorem lift_menuCacheSet (key : String) (menus : List MenuInfo) :
    lift (Op.call (.menuCacheSet key menus)) = UntypedOp.call (.shared (.menuCacheSet key menus)) :=
  congrArg (Program.call _) (funext fun r => by cases r <;> rfl)

end UntypedService

namespace Clients

theorem strings?_map (ids : List String) : strings? (ids.map .string) = some ids := by
  induction ids with
  | nil => rfl
  | cons id rest ih => rw [List.map_cons, strings?, ih, Option.map_some]

/-- With texts for parameters the lookup is the repository's, whatever the clients do with other
values. -/
theorem findMenusByIds_strings (clients : Clients) (db : Database) (ids : List String)
    (storeId : String) :
    clients.findMenusByIds db (ids.map .string) (.string storeId) = db.findMenusByIds ids storeId := by
  unfold findMenusByIds
  rw [strings?_map, List.isEmpty_map]
  cases ids with
  | nil => rfl
  | cons id rest => rfl

end Clients

namespace UntypedOrderService

open CreateOrderService (enrich)
open UntypedService

theorem joinText_strings (ids : List String) :
    JsValue.joinText (ids.map .string) = ",".intercalate ids := by
  induction ids with
  | nil => rfl
  | cons id rest ih =>
      cases rest with
      | nil =>
          show id = _
          simp
      | cons id' rest =>
          rw [List.map_cons, List.map_cons, JsValue.joinText, ← List.map_cons, ih]
          simp [JsValue.isNullish, JsValue.toText, String.append_assoc]

/-- Strings are sorted by their texts, which they are. -/
theorem sorted_strings (ids : List String) :
    sorted (ids.map .string) = (ids.insertionSort fun a b => a ≤ b).map .string := by
  have hdefined : (ids.map JsValue.string).filter (fun id => ¬ isUndefined id) =
      ids.map .string := List.filter_eq_self.mpr (by simp [isUndefined])
  have hundefined : (ids.map JsValue.string).filter isUndefined = [] :=
    List.filter_eq_nil_iff.mpr (by simp [isUndefined])
  unfold sorted
  rw [hdefined, hundefined, List.append_nil]
  exact (List.map_insertionSort _ _ JsValue.string ids fun a _ b _ => Iff.rfl).symm

theorem menuCacheKey_strings (ids : List String) (storeId : String) :
    menuCacheKey (ids.map .string) (.string storeId) =
      CreateOrderService.menuCacheKey ids storeId := by
  unfold menuCacheKey CreateOrderService.menuCacheKey
  rw [sorted_strings, joinText_strings]
  rfl

/-- With texts the menus are looked up as before. -/
theorem getMenusCached_strings (ids : List String) (storeId : String) :
    getMenusCached (ids.map .string) (.string storeId) =
      lift (CreateOrderService.getMenusCached ids storeId) := by
  have htexts : JsValue.allHaveText (ids.map .string) = true := by
    induction ids with
    | nil => rfl
    | cons id rest ih => exact ih
  unfold getMenusCached CreateOrderService.getMenusCached
  rw [if_neg (by simp [htexts, JsValue.hasText]), lift_bind, lift_menuCacheGet,
    menuCacheKey_strings]
  congr 1
  funext cached
  cases cached with
  | some menus => rfl
  | none =>
      show _ = lift (Op.call (.findMenusByIds ids storeId) >>= fun menus =>
        Op.call (.menuCacheSet (CreateOrderService.menuCacheKey ids storeId) menus) >>= fun _ =>
          return menus)
      rw [lift_bind, lift_findMenusByIds]
      refine congrArg (UntypedOp.call _ >>= ·) (funext fun menus => ?_)
      rw [lift_bind, lift_menuCacheSet]
      rfl

section Typed

variable {clients : Clients} {cmd : CreateOrderCommand} {menus : List MenuInfo}

/-- `decimal.js` reads the command's numbers as what they are.  It is documented to, unless an
exponent is out of range. -/
structure ReadsNumbers (clients : Clients) (cmd : CreateOrderCommand) : Prop where
  quantity : ∀ item ∈ cmd.items, clients.newDecimal item.quantity.toJs = some item.quantity
  amount : clients.newDecimal (.string cmd.requestedAmount) =
    JsNumber.ofDecimalText? cmd.requestedAmount

/-- The two loops go through the same totals and items, and fail for the same reasons.  The proof is
by induction on the items. -/
theorem enrichItems_untyped {items : List CommandItem}
    (hread : ∀ item ∈ items, clients.newDecimal item.quantity.toJs = some item.quantity)
    (calculatedTotal : JsNumber) (enrichedItems : List OrderItem) :
    enrichItems clients menus (items.map fun item => ⟨.string item.menuId, item.quantity.toJs⟩)
        calculatedTotal (enrichedItems.map OrderItem.untyped) =
      (CreateOrderService.enrichItems menus items calculatedTotal enrichedItems).map
        fun enriched => (enriched.1, enriched.2.map OrderItem.untyped) := by
  induction items generalizing calculatedTotal enrichedItems with
  | nil => rfl
  | cons item rest ih =>
      have hquantity := hread item List.mem_cons_self
      have hrest := ih fun item' hitem' => hread item' (List.mem_cons_of_mem _ hitem')
      rw [List.map_cons, enrichItems, CreateOrderService.enrichItems]
      show (match CreateOrderService.lookupMenu menus item.menuId with
        | none => _
        | some menu => _) = _
      cases CreateOrderService.lookupMenu menus item.menuId with
      | none => rfl
      | some menu =>
          by_cases havailable : menu.isAvailable = true
          · have hnext := fun total => hrest total (enrichedItems ++ [enrich item menu])
            simp only [havailable, not_true_eq_false, if_false, lineTotal, hquantity,
              Option.bind_some]
            simp only [List.map_append] at hnext
            unfold enrich at hnext
            cases hprice : menu.unitPrice with
            | null => rfl
            | nan =>
                rw [hprice] at hnext
                exact hnext _
            | amount q =>
                rw [hprice] at hnext
                exact hnext _
          · simp only [havailable]
            rfl

/-- With numbers that are read as numbers the validation is the same. -/
theorem validateItems_untyped (hread : ReadsNumbers clients cmd) :
    validateItems clients cmd.untyped menus =
      (CreateOrderService.validateItems cmd menus).map
        fun validated => (validated.1, validated.2.map OrderItem.untyped) := by
  have henrich : enrichItems clients menus _ 0 _ = _ := enrichItems_untyped hread.quantity 0 []
  unfold validateItems CreateOrderService.validateItems
  rw [show cmd.untyped.items =
    cmd.items.map fun item => ⟨.string item.menuId, item.quantity.toJs⟩ from rfl]
  rw [List.map_nil] at henrich
  rw [henrich]
  cases CreateOrderService.enrichItems menus cmd.items 0 [] with
  | error e => rfl
  | ok enriched =>
      have hcheck : checkAmount clients cmd.untyped.requestedAmount enriched.1 =
          CreateOrderService.checkAmount cmd.requestedAmount enriched.1 := by
        unfold checkAmount CreateOrderService.checkAmount
        rw [show clients.newDecimal (.string cmd.untyped.requestedAmount) = _ from hread.amount]
        rfl
      show (match checkAmount clients cmd.untyped.requestedAmount enriched.1 with
        | .error e => _
        | .ok () => _) = _
      rw [hcheck]
      show _ = Except.map _ (match CreateOrderService.checkAmount cmd.requestedAmount enriched.1 with
        | .error e => _
        | .ok () => _)
      cases CreateOrderService.checkAmount cmd.requestedAmount enriched.1 with
      | error e => rfl
      | ok done => rfl

theorem validateAndEnrichItems_untyped (hread : ReadsNumbers clients cmd) :
    validateAndEnrichItems clients cmd.untyped =
      lift (CreateOrderService.validateAndEnrichItems cmd) >>= fun validated =>
        return (validated.1, validated.2.map OrderItem.untyped) := by
  unfold validateAndEnrichItems CreateOrderService.validateAndEnrichItems
  rw [show cmd.untyped.items.map UntypedItem.menuId =
      (cmd.items.map CommandItem.menuId).map .string by
    show (cmd.items.map _).map _ = _
    rw [List.map_map, List.map_map]
    rfl]
  rw [show cmd.untyped.storeId = .string cmd.storeId from rfl, getMenusCached_strings, lift_bind,
    Program.bind_assoc]
  congr 1
  funext menus
  rw [validateItems_untyped hread]
  cases CreateOrderService.validateItems cmd menus with
  | error e => rfl
  | ok validated => rfl

/-- What is published is the same, item by item. -/
theorem publish_untyped (ctx : ApiContext) (calculatedAmount : String)
    (enrichedItems : List OrderItem) :
    publish cmd.untyped ctx calculatedAmount (enrichedItems.map OrderItem.untyped) =
      lift (CreateOrderService.publish cmd ctx calculatedAmount enrichedItems) := by
  unfold publish CreateOrderService.publish OrderQueueService.publishOrder
  rw [lift_bind, lift_mainQueueAdd]
  congr 1
  funext _
  rw [lift_bind, lift_emitNewOrder]
  congr 1
  funext _
  rw [lift_bind]
  congr 1
  exact ofService_eq_lift (.perform trivial)

/-- Giving a key back is one call. -/
theorem onlyCalls_abandon {allowed : Op → Prop} (h : ∀ key, allowed (.idempotencyDel key))
    (cmd : CreateOrderCommand) (err : OrderError) :
    (CreateOrderService.abandon cmd err).OnlyCalls allowed := by
  refine .bind (.perform (h _)) fun _ => ?_
  split
  · trivial
  · trivial

/-- Answering for a key that is held is one, too. -/
theorem onlyCalls_replay {allowed : Op → Prop} (h : ∀ key, allowed (.idempotencyGet key))
    (cmd : CreateOrderCommand) : (CreateOrderService.replay cmd).OnlyCalls allowed := by
  refine .bind (.bind (.perform (h _)) fun raw => ?_) fun cached => ?_
  · split
    · trivial
    · trivial
    · trivial
  · split
    · trivial
    · trivial

/-- **A command with its types is treated as the typed service treats it**: the same calls, the
same answers. -/
theorem execute_untyped (hread : ReadsNumbers clients cmd) (ctx : ApiContext) :
    execute clients cmd.untyped ctx = lift (CreateOrderService.execute cmd ctx) := by
  have hacquire : ofService (IdempotencyService.tryAcquire cmd.idempotencyKey ctx.orderId) =
      lift (IdempotencyService.tryAcquire cmd.idempotencyKey ctx.orderId) :=
    ofService_eq_lift (.perform trivial)
  have hpublish : validateAndPublish clients cmd.untyped ctx =
      lift (CreateOrderService.validateAndPublish cmd ctx) := by
    unfold validateAndPublish CreateOrderService.validateAndPublish
    rw [validateAndEnrichItems_untyped hread, lift_bind, Program.bind_assoc]
    congr 1
    funext validated
    exact publish_untyped ctx validated.1 validated.2
  unfold execute CreateOrderService.execute
  rw [if_neg (by simp [CreateOrderCommand.untyped, JsValue.hasText]), lift_bind]
  rw [show cmd.untyped.idempotencyKey.toText = cmd.idempotencyKey from rfl, hacquire]
  congr 1
  funext isNew
  cases isNew with
  | true =>
      show tryCatch _ _ = lift (tryCatch _ _)
      rw [lift_tryCatch, hpublish]
      congr 1
      funext err
      exact ofService_eq_lift (onlyCalls_abandon (fun _ => trivial) cmd err)
  | false => exact ofService_eq_lift (onlyCalls_replay (fun _ => trivial) cmd)

end Typed

end UntypedOrderService

end ChickenOrder
