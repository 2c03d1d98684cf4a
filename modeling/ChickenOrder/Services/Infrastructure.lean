import ChickenOrder.Services.World

/-!
# The injected services

The classes `ProcessOrderService`, `CreateOrderService` and `AdminService` are
built from: the repository, the idempotency keys, the distributed lock, the
queues, the point-of-sale adapters behind the circuit breaker, the Slack
notification.  Each method is the source's, as a program of calls.

None of them has a state of its own but the circuit breaker, which is in the memory of the
process: whether it is open is decided by the environment here, and
`ChickenOrder.Services.PosCircuitBreaker` has the registry behind it.  The configuration is read
where the source reads it.

The adapters turn every failure into one class of error, whether the point of sale has refused
the order, has answered something that cannot be read, or could not be reached.  What can be
told from the class is therefore the same in all of these cases.
-/

namespace ChickenOrder

open Interaction Interaction.Program

/-- The configuration values the services read.  An empty webhook URL is none. -/
structure AppConfig where
  slackWebhookUrl : String
  adminBaseUrl : String

/-! ## `OrderRepository` -/

namespace OrderRepository

/-- `createOrder`, with its transaction as one call.  The row is read back by a second call, outside
the transaction. -/
def create (p : CreateOrderParams) : Service (Option OrderEntity) :=
  Service.ofRepo (AtomicRepository.createOrder p)

/-- `transitionStatus`, with its transaction as one call.  It throws if the transition is not
allowed, or if another one came first. -/
def transition (p : TransitionParams) : Service Unit :=
  Service.ofRepo (AtomicRepository.transitionStatus p)

/-- `OrderRepository.findById`, seen from the services: one call on the world. -/
def findById (id : Uuid) : Service (Option OrderEntity) :=
  Service.ofRepo (AtomicRepository.findById id)

/-- `OrderRepository.markDlq`, likewise. -/
def markDlq (orderId : Uuid) (reason : String) : Service Unit :=
  Service.ofRepo (AtomicRepository.markDlq orderId reason)

/-- `OrderRepository.incrementRetryCount`, likewise. -/
def incrementRetryCount (orderId : Uuid) : Service Unit :=
  Service.ofRepo (AtomicRepository.incrementRetryCount orderId)

/-! A single transaction is a single call. -/

@[simp] theorem transition_eq (p : TransitionParams) :
    transition p = Op.call (.repo (.transitionStatus p)) := embed_perform Op.repo _

@[simp] theorem findById_eq (id : Uuid) : findById id = Op.call (.repo (.findById id)) :=
  embed_perform Op.repo _

@[simp] theorem markDlq_eq (orderId : Uuid) (reason : String) :
    markDlq orderId reason = Op.call (.repo (.markDlq orderId reason)) := embed_perform Op.repo _

/-- `createOrder` commits, and reads the row back if it inserted it.  For a key that is in the table
it answers `null`. -/
theorem create_eq (p : CreateOrderParams) :
    create p = Op.call (.repo (.createOrder p)) >>= fun inserted =>
      if inserted then Op.call (.repo (.findById p.id)) else return none := by
  unfold create Service.ofRepo AtomicRepository.createOrder
  rw [embed_bind, embed_perform]
  congr 1
  funext inserted
  cases inserted with
  | true => exact embed_perform Op.repo _
  | false => rfl

end OrderRepository

/-! ## `IdempotencyService` -/

namespace IdempotencyService

/-- The Redis key that holds the id of the order in progress.  It expires a while after it was set,
by default a day. -/
def pendingKey (key : String) : String := "idempotency:" ++ key

/-- The Redis key that holds the response.  As keys are plain texts, it is also the pending key of
another idempotency key, the one that ends in `:response`. -/
def responseKey (key : String) : String := "idempotency:" ++ key ++ ":response"

/-- The two Redis keys of one key of idempotency differ. -/
theorem pendingKey_ne_responseKey (key : String) : pendingKey key ≠ responseKey key := by
  intro h
  have hlength := congrArg String.length h
  simp [pendingKey, responseKey] at hlength

/-- Different keys have different response keys. -/
theorem responseKey_injective : Function.Injective responseKey := by
  intro key key' h
  simpa [responseKey] using h

/-- True exactly for the caller that now holds the key.  `NX` makes this one step, whoever else
tries. -/
def tryAcquire (key : String) (orderId : Uuid) : Service Bool :=
  Op.call (.idempotencySetNx (pendingKey key) orderId)

/-- The key is given back, whoever has set it.  There is no token to compare here. -/
def release (key : String) : Service Unit := Op.call (.idempotencyDel (pendingKey key))

/-- The response is stored under a key of its own; the pending key stays as it is and expires by
itself. -/
def setCompleted (key : String) (response : CreateOrderResult) : Service Unit :=
  Op.call (.idempotencySet (responseKey key) response)

/-- The cached response; the text of an order id is not JSON, and to parse it throws. -/
def getCachedResponse (key : String) : Service (Option CreateOrderResult) := do
  let raw ← Op.call (.idempotencyGet (responseKey key))
  match raw with
  | none => return none
  | some (.response result) => return some result
  | some (.orderId _) => Program.throw (.other "Unexpected token in JSON")

end IdempotencyService

/-! ## `DistributedLockService` -/

namespace DistributedLockService

/-- `SET key token EX ttl NX`: true if the lock was free. -/
def acquire (orderId : Uuid) (holderToken : LockToken) : Service Bool :=
  Op.call (.lockSetNx orderId holderToken)

/-- The script that deletes the lock if it still has this token.  It does not say whether it has. -/
def release (orderId : Uuid) (holderToken : LockToken) : Service Unit :=
  Op.call (.lockRelease orderId holderToken)

/-- A lock that is held makes the job fail with a retryable error, so that the queue tries again
later. -/
def acquireOrThrow (orderId : Uuid) (holderToken : LockToken) : Service Unit := do
  let acquired ← acquire orderId holderToken
  if acquired then return () else Program.throw (.lockAcquisition orderId.toText)

end DistributedLockService

/-! ## `OrderQueueService` -/

namespace OrderQueueService

/-- `mainQueue.add` under the job id `order:<id>`, so that BullMQ drops a job it already knows. -/
def publishOrder (payload : OrderJobPayload) : Service Unit := Op.call (.mainQueueAdd payload)

/-- `dlqQueue.add` with the payload, the message of the error and the number of attempts.  Nothing
is removed from the main queue. -/
def publishToDlq (payload : OrderJobPayload) (failureReason : String) (attempts : ℕ) :
    Service Unit :=
  Op.call (.dlqQueueAdd payload failureReason attempts)

end OrderQueueService

/-! ## Point-of-sale adapters -/

/-- What an adapter returns; the status is always `ACCEPTED`, whatever the answer says. -/
structure PosOrderResult where
  posOrderId : JsValue
  rawResponse : JsValue

/-- `err instanceof Error ? err.message : String(err)`, wrapped. -/
def posUnavailable (storeId : String) (err : OrderError) : OrderError :=
  .posUnavailable storeId err.message

namespace LegacyV1PosAdapter

/-- The idempotency key without its hyphens, in upper case.  Keys that differ in nothing else have
the same header. -/
def idempotencyHeader (key : String) : String :=
  toUpperCase (String.ofList (key.toList.filter fun c => c ≠ '-'))

/-- The text up to the next `<`, if it is not empty and `</ORDER_ID>` follows. -/
def readOrderId (cs : List Char) : Option String :=
  let text := cs.takeWhile fun c => c ≠ '<'
  let rest := cs.dropWhile fun c => c ≠ '<'
  if text.isEmpty then none
  else if "</ORDER_ID>".toList.isPrefixOf rest then some (String.ofList text)
  else none

/-- The first non-empty `<ORDER_ID>` element, as the regular expression finds it: from every
position in turn. -/
def matchOrderId : List Char → Option String
  | [] => none
  | c :: cs =>
      if "<ORDER_ID>".toList.isPrefixOf (c :: cs) then
        (readOrderId ((c :: cs).drop 10)).or (matchOrderId cs)
      else matchOrderId cs

/-- `parseOrderId(response.data)`; `match` is a method of strings only.  Where there is no id the
time makes one up. -/
def parseOrderId (reply : PosReply) : Except OrderError String :=
  match reply.data with
  | .string xml => .ok ((matchOrderId xml.toList).getD ("legacy-" ++ toString reply.now))
  | _ => .error (.typeError "xml.match is not a function")

/-- The POST of an order: its XML goes to `/order/receive`. -/
def request (endpoint : String) (apiKey : Option String) (order : DomainOrder) : PosRequest where
  endpoint := endpoint
  path := "/order/receive"
  headers := [("Content-Type", "application/xml")] ++
    ((truthyText? apiKey).map fun key => ("X-Api-Key", key)).toList ++
    [("X-IDEMPOTENCY", idempotencyHeader order.idempotencyKey)]
  order := order

/-- `sendOrder`.  The `try` is around all of it, so that an answer that cannot be read looks like a
point of sale that is not there. -/
def sendOrder (endpoint : String) (apiKey : Option String) (order : DomainOrder) :
    Service PosOrderResult :=
  tryCatch
    (do
      let response ← Op.call (.postToPos (request endpoint apiKey order))
      match parseOrderId response with
      | .ok posOrderId =>
          return ⟨.string posOrderId, .object [("xml", response.data)]⟩
      | .error err => Program.throw err)
    fun err => Program.throw (posUnavailable order.storeId err)

end LegacyV1PosAdapter

namespace ModernV2PosAdapter

/-- `response.data.id`; `null` and `undefined` have no properties. -/
def orderIdOf (data : JsValue) : Except OrderError JsValue :=
  if data.isNullish then .error (.typeError "Cannot read properties of null (reading 'id')")
  else .ok (data.get "id")

/-- The POST of an order: its JSON goes to `/orders`. -/
def request (endpoint : String) (apiKey : Option String) (order : DomainOrder) : PosRequest where
  endpoint := endpoint
  path := "/orders"
  headers := [("Content-Type", "application/json")] ++
    ((truthyText? apiKey).map fun key => ("Authorization", "Bearer " ++ key)).toList ++
    [("X-Idempotency-Key", order.idempotencyKey), ("X-Trace-Id", order.traceId)]
  order := order

/-- `sendOrder`, with the same `try` around it. -/
def sendOrder (endpoint : String) (apiKey : Option String) (order : DomainOrder) :
    Service PosOrderResult :=
  tryCatch
    (do
      let response ← Op.call (.postToPos (request endpoint apiKey order))
      match orderIdOf response.data with
      | .ok posOrderId => return ⟨posOrderId, response.data⟩
      | .error err => Program.throw err)
    fun err => Program.throw (posUnavailable order.storeId err)

end ModernV2PosAdapter

/-- The adapters of `PosAdapterFactory`, each with the endpoint and the key of a store. -/
inductive PosAdapter
  | legacyV1 (endpoint : String) (apiKey : Option String)
  | modernV2 (endpoint : String) (apiKey : Option String)

/-- Each of the two adapters has its own request and its own way to read the answer. -/
def PosAdapter.sendOrder : PosAdapter → DomainOrder → Service PosOrderResult
  | .legacyV1 endpoint apiKey, order => LegacyV1PosAdapter.sendOrder endpoint apiKey order
  | .modernV2 endpoint apiKey, order => ModernV2PosAdapter.sendOrder endpoint apiKey order

/-- `PosAdapterFactory.create`.  A type that it does not know fails the job for good. -/
def PosAdapterFactory.create (posType endpoint : String) (apiKey : Option String) :
    Except OrderError PosAdapter :=
  if posType = "LEGACY_V1" then .ok (.legacyV1 endpoint apiKey)
  else if posType = "MODERN_V2" ∨ posType = "TABLET_V3" then .ok (.modernV2 endpoint apiKey)
  else .error (.other ("알 수 없는 POS 타입: " ++ posType))

/-- What an adapter makes of an answer: a result, or the error that reading it throws. -/
def PosAdapter.readReply : PosAdapter → PosReply → Except OrderError PosOrderResult
  | .legacyV1 _ _, reply => (LegacyV1PosAdapter.parseOrderId reply).map fun posOrderId =>
      ⟨.string posOrderId, .object [("xml", reply.data)]⟩
  | .modernV2 _ _, reply => (ModernV2PosAdapter.orderIdOf reply.data).map fun posOrderId =>
      ⟨posOrderId, reply.data⟩

/-- The path an adapter posts to. -/
def PosAdapter.path : PosAdapter → String
  | .legacyV1 _ _ => "/order/receive"
  | .modernV2 _ _ => "/orders"

/-- The request an adapter makes of an order. -/
def PosAdapter.request : PosAdapter → DomainOrder → PosRequest
  | .legacyV1 endpoint apiKey, order => LegacyV1PosAdapter.request endpoint apiKey order
  | .modernV2 endpoint apiKey, order => ModernV2PosAdapter.request endpoint apiKey order

@[simp] theorem PosAdapter.request_order (adapter : PosAdapter) (order : DomainOrder) :
    (adapter.request order).order = order := by
  cases adapter <;> rfl

@[simp] theorem PosAdapter.request_path (adapter : PosAdapter) (order : DomainOrder) :
    (adapter.request order).path = adapter.path := by
  cases adapter <;> rfl

/-- Both adapters post one request and read the answer, and turn every failure into one class of
error. -/
theorem PosAdapter.sendOrder_eq (adapter : PosAdapter) (order : DomainOrder) :
    adapter.sendOrder order = tryCatch
      (Op.call (.postToPos (adapter.request order)) >>= fun response =>
        match adapter.readReply response with
        | .ok result => return result
        | .error err => Program.throw err)
      fun err => Program.throw (posUnavailable order.storeId err) := by
  cases adapter with
  | legacyV1 endpoint apiKey =>
      refine congrArg (Program.tryCatch · _) (congrArg (Op.call _ >>= ·) (funext fun reply => ?_))
      cases hparse : LegacyV1PosAdapter.parseOrderId reply with
      | ok posOrderId => simp [readReply, hparse, Except.map]
      | error err => simp [readReply, hparse, Except.map]
  | modernV2 endpoint apiKey =>
      refine congrArg (Program.tryCatch · _) (congrArg (Op.call _ >>= ·) (funext fun reply => ?_))
      cases hparse : ModernV2PosAdapter.orderIdOf reply.data with
      | ok posOrderId => simp [readReply, hparse, Except.map]
      | error err => simp [readReply, hparse, Except.map]

/-! ## `PosCircuitBreakerService` -/

namespace PosCircuitBreakerService

/-- The store's breaker around one invocation.  It is asked first, and an open one throws without
the invocation. -/
def breaker {α : Type} (storeId : String) (fn : Service α) : Service α := do
  let isOpen ← Op.call (.consultBreaker storeId)
  if isOpen then Program.throw .brokenCircuit else fn

/-- cockatiel's `retry(handleAll, { maxAttempts: n })`: every failure is handled,
and `n` re-invocations follow the first one. -/
def retry {α : Type} : ℕ → Service α → Service α
  | 0, fn => fn
  | n + 1, fn => tryCatch fn fun _ => retry n fn

/-- **Retries.**  What every invocation establishes on its two exits the retries establish,
if a failing one leads back to where an invocation may start. -/
theorem wp_retry_of {α σ : Type} {step : (o : Op) → σ → Except OrderError (Op.Reply o) → σ → Prop}
    {guard : Op → σ → Prop} {fn : Service α} {J : σ → Prop} {Q : α → σ → Prop}
    {E : OrderError → σ → Prop} (hfn : ∀ s, J s → fn.wp step guard Q E s)
    (hE : ∀ e s, E e s → J s) (n : ℕ) {s : σ} (hs : J s) :
    (retry n fn).wp step guard Q E s := by
  induction n generalizing s with
  | zero => exact hfn s hs
  | succ n ih =>
      rw [retry, wp_tryCatch]
      exact wp_mono step guard (fun _ _ hQ => hQ) (fun e s' hs' => ih (hE e s' hs')) (hfn s hs)

/-- What every failing invocation keeps, the retries keep.  This is the case where invocations start
in a state as they find it. -/
theorem wp_retry {α σ : Type} {step : (o : Op) → σ → Except OrderError (Op.Reply o) → σ → Prop}
    {guard : Op → σ → Prop} {fn : Service α} {J : σ → Prop} {Q : α → σ → Prop}
    (hfn : ∀ s, J s → fn.wp step guard Q (fun _ s' => J s') s) (n : ℕ) {s : σ} (hs : J s) :
    (retry n fn).wp step guard Q (fun _ s' => J s') s :=
  wp_retry_of hfn (fun _ _ h => h) n hs

/-- `execute`: the retry policy is wrapped around the breaker.  So an open breaker is asked again
like any failure. -/
def execute {α : Type} (storeId : String) (fn : Service α) : Service α :=
  tryCatch (retry 3 (breaker storeId fn)) fun err =>
    if err.isBrokenCircuitError then Program.throw (.circuitBreakerOpen storeId)
    else Program.throw err

end PosCircuitBreakerService

/-! ## `NotificationService` -/

/-- `sendDlqAlert`: not sent without a webhook, and a failure is only logged.  So the handler never
fails here. -/
def NotificationService.sendDlqAlert (config : AppConfig) (alert : AlertPayload) : Service Unit :=
  if config.slackWebhookUrl = "" then return ()
  else tryCatch (Op.call (.postAlert alert)) fun _ => return ()

end ChickenOrder
