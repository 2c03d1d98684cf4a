import Mathlib.Logic.Function.Basic
import ChickenOrder.Database.Transactions

/-!
# The world the services run in

Everything the services share: the database, the Redis keys, the two BullMQ
queues, what the point of sale has received, what was emitted on the socket and
what was posted to Slack.  `Op` is one outgoing call of a service and
`Op.effect` what its target does with it; `Op.exec` adds the ways the call can
be lost.

Third parties are in the world by their documented behaviour: `SET … NX`
succeeds only on a missing key, `Queue.add` ignores a job whose id exists, a
point of sale may answer anything.  What the environment decides for one call is
its `Choice`.  Keys that expire are `Expiry` steps of the world.
-/

namespace ChickenOrder

open Interaction

/-! ## Data at the boundaries -/

/-- The holder token `${workerId}:${jobId}` of a distributed lock.  All executions of one job in one
process have the same. -/
structure LockToken where
  workerId : String
  jobId : JobId
  deriving DecidableEq

/-- What the API answers with 202; the status is always `QUEUED`, since the row is only inserted by
the worker. -/
structure CreateOrderResult where
  orderId : Uuid
  traceId : String
  replayed : Bool
  deriving DecidableEq

/-- A value under an idempotency key: an order id, or a response as JSON. Both kinds live under keys
of the same form. -/
inductive IdempotencyValue
  | orderId (id : Uuid)
  | response (result : CreateOrderResult)
  deriving DecidableEq

/-- The price of a menu in the API process.  `parseFloat` makes an amount or `NaN` of the column
`unit_price`; `null` is what `NaN` has become in a menu that comes out of the cache. -/
inductive MenuPrice
  | amount (q : ℚ)
  | nan
  | null
  deriving DecidableEq

/-- `parseFloat(row.unit_price)`. -/
def MenuPrice.ofColumn : Option ℚ → MenuPrice
  | some q => .amount q
  | none => .nan

theorem MenuPrice.ofColumn_eq_amount_iff {column : Option ℚ} {q : ℚ} :
    ofColumn column = .amount q ↔ column = some q := by
  cases column <;> simp [ofColumn]

/-- `JSON.parse(JSON.stringify(price))`: JSON has no `NaN` and writes `null` for it. -/
def MenuPrice.throughJson : MenuPrice → MenuPrice
  | .nan => .null
  | price => price

/-- Through JSON it is an amount if it was one. -/
theorem MenuPrice.throughJson_eq_amount_iff {price : MenuPrice} {q : ℚ} :
    price.throughJson = .amount q ↔ price = .amount q := by
  cases price <;> simp [throughJson]

/-- A menu as `findMenusByIds` returns it, or as it is read from the menu cache.  The id is the text
that Postgres prints. -/
structure MenuInfo where
  id : String
  name : String
  unitPrice : MenuPrice
  isAvailable : Bool
  deriving DecidableEq

/-- The menu that is read back from the JSON of this one. -/
def MenuInfo.throughJson (menu : MenuInfo) : MenuInfo :=
  { menu with unitPrice := menu.unitPrice.throughJson }

/-- A job of the main queue.  BullMQ takes another job of the same id for the same job. -/
structure Job where
  id : JobId
  data : OrderJobPayload
  deriving DecidableEq

/-- A job of the dead letter queue: the payload as it was, with the reason and the number of
attempts that are stored beside it. -/
structure DlqJob where
  id : JobId
  data : OrderJobPayload
  failureReason : String
  attempts : ℕ

/-- What an adapter is asked to send, but for the time of the call.  Each adapter renders it in its
own format. -/
structure DomainOrder where
  orderId : Uuid
  traceId : String
  storeId : String
  idempotencyKey : String
  totalAmount : String
  items : List OrderItem

/-- One HTTP request to a point of sale.  Its body is a rendering of `order`. -/
structure PosRequest where
  endpoint : String
  path : String
  headers : List (String × String)
  order : DomainOrder

/-- A character that Node's HTTP client lets into the value of a header: a tab, or what ASCII
and Latin-1 have besides control characters. -/
def isHeaderChar (c : Char) : Bool :=
  c = '\t' || (32 ≤ c.toNat && c.toNat ≤ 126) || (128 ≤ c.toNat && c.toNat ≤ 255)

/-- The first header whose value has another character: `checkInvalidHeaderChar` refuses the
request for it, before a connection is made. -/
def PosRequest.invalidHeader? (request : PosRequest) : Option String :=
  (request.headers.find? fun header => ¬ header.2.toList.all isHeaderChar).map Prod.fst

/-- The body of a successful answer, and when it arrived.  The time is part of the id that the
legacy adapter makes up. -/
structure PosReply where
  data : JsValue
  now : Time

/-- What `OrderGateway` emits, to the room of the store that it is given.  `undefined` makes the
name of a room as any other value does. -/
inductive SocketEvent
  | newOrder (storeId : String) (orderId : Uuid) (items : List OrderItem) (totalAmount : String)
      (traceId : String) (createdAt : Time)
  | orderUpdated (storeId : JsValue) (orderId : String) (status : JsValue) (updatedAt : Time)

/-- What `sendDlqAlert` is told of a dead letter.  The text that the webhook shows is made of these
fields. -/
structure AlertPayload where
  orderId : Uuid
  traceId : String
  storeId : String
  reason : String
  attempts : ℕ
  dashboardUrl : Option String

/-- What an `UPDATE … RETURNING store_id, status` gives back through TypeORM: the
rows and their number. -/
structure UpdateResult where
  rows : List (Uuid × RowStatus)
  affected : ℕ

/-- That pair as the handlers see it. -/
def UpdateResult.toJs (result : UpdateResult) : List JsValue :=
  [.array (result.rows.map fun row =>
      .object [("store_id", .string row.1.toText), ("status", .string row.2.text)]),
    .number (toString result.affected)]

/-! ## The world -/

/-- Everything outside the programs: the database, three kinds of Redis keys, the two queues, and
what the point of sale, the clients of the gateway and the webhook have been sent. -/
structure World where
  db : Database
  idempotency : String → Option IdempotencyValue
  locks : Uuid → Option LockToken
  menuCache : String → Option (List MenuInfo)
  mainQueue : List Job
  dlqQueue : List DlqJob
  posInbox : List (PosRequest × Time)
  socket : List SocketEvent
  alerts : List AlertPayload

/-- The world of a freshly migrated installation, with nothing in Redis and in the queues. -/
def World.init (db : Database) : World where
  db := db
  idempotency := fun _ => none
  locks := fun _ => none
  menuCache := fun _ => none
  mainQueue := []
  dlqQueue := []
  posInbox := []
  socket := []
  alerts := []

/-! ## Calls -/

/-- One outgoing call of a service.  Each is atomic on its target: a transaction of the repository,
a Redis command, a script, an `add` of a queue, an HTTP request. -/
inductive Op
  | repo (o : RepoOp)
  | findStore (storeId : String)
  | findMenusByIds (menuIds : List String) (storeId : String)
  | patchStatus (status orderId : String)
  | idempotencySetNx (key : String) (orderId : Uuid)
  | idempotencySet (key : String) (result : CreateOrderResult)
  | idempotencyGet (key : String)
  | idempotencyDel (key : String)
  | menuCacheGet (key : String)
  | menuCacheSet (key : String) (menus : List MenuInfo)
  | lockSetNx (orderId : Uuid) (token : LockToken)
  | lockRelease (orderId : Uuid) (token : LockToken)
  | mainQueueAdd (data : OrderJobPayload)
  | dlqQueueAdd (data : OrderJobPayload) (failureReason : String) (attempts : ℕ)
  | consultBreaker (storeId : String)
  | postToPos (request : PosRequest)
  | emitNewOrder (storeId : String) (orderId : Uuid) (items : List OrderItem)
      (totalAmount : String) (traceId : String)
  | emitOrderUpdated (storeId : JsValue) (orderId : String) (status : JsValue)
  | postAlert (alert : AlertPayload)

/-- What a call answers.  Writes that answer nothing of interest answer `Unit`. -/
abbrev Op.Reply : Op → Type
  | .repo o => RepoOp.Reply o
  | .findStore _ => Option StoreRow
  | .findMenusByIds _ _ => List MenuInfo
  | .patchStatus _ _ => UpdateResult
  | .idempotencySetNx _ _ => Bool
  | .idempotencyGet _ => Option IdempotencyValue
  | .menuCacheGet _ => Option (List MenuInfo)
  | .lockSetNx _ _ => Bool
  | .consultBreaker _ => Bool
  | .postToPos _ => PosReply
  | _ => Unit

/-- What the environment decides for one call: whether it is lost, when it
happens, whether the store's circuit is open and what a point of sale answers. -/
structure Choice where
  fault : Fault String
  now : Time
  circuitOpen : Bool
  posAnswer : Except String JsValue

/-- The choice of a call that is not lost, while the circuit is closed and the point of sale answers
with an empty object. -/
def Choice.undisturbed (now : Time) : Choice := ⟨.none, now, false, .ok (.object [])⟩

/-- No call of the run fails.  What the targets themselves refuse is not meant by this. -/
def Quiet (choices : ℕ → Choice) : Prop := ∀ n, (choices n).fault = .none

namespace Database

/-- `findMenusByIds`: the rows of the store whose id is among the given ones, in the order of the
table.  A text that is no UUID fails the query. -/
def findMenusByIds (db : Database) (menuIds : List String) (storeId : String) :
    Except OrderError (List MenuInfo) :=
  if menuIds.isEmpty then .ok []
  else
    match menuIds.mapM uuidColumn, uuidColumn storeId with
    | .ok ids, .ok store =>
        .ok ((db.menus.filter fun menu => menu.id ∈ ids ∧ menu.storeId = store).map fun menu =>
          ⟨menu.id.toText, menu.name, .ofColumn menu.unitPrice, menu.isAvailable⟩)
    | .error e, _ => .error e
    | _, .error e => .error e

end Database

namespace World

variable (w : World)

/-- The status handlers' `UPDATE`.  It does not ask for the status before, nor for a version. -/
def patchStatus (status orderId : String) (now : Time) : Except OrderError UpdateResult × World :=
  match w.db.patchStatus status orderId now with
  | .ok (rows, db) => (.ok ⟨rows, rows.length⟩, { w with db := db })
  | .error e => (.error e, w)

/-- `redis.set(key, orderId, 'EX', ttl, 'NX')`: it sets the key and says so, or leaves what is
there. -/
def idempotencySetNx (key : String) (orderId : Uuid) : Bool × World :=
  match w.idempotency key with
  | some _ => (false, w)
  | none =>
      (true, { w with idempotency := Function.update w.idempotency key (some (.orderId orderId)) })

variable {w} in
theorem idempotencySetNx_of_none {key : String} (h : w.idempotency key = none) (orderId : Uuid) :
    w.idempotencySetNx key orderId =
      (true, { w with idempotency := Function.update w.idempotency key (some (.orderId orderId)) }) := by
  unfold idempotencySetNx
  rw [h]

variable {w} in
theorem idempotencySetNx_of_ne_none {key : String} (h : w.idempotency key ≠ none) (orderId : Uuid) :
    w.idempotencySetNx key orderId = (false, w) := by
  unfold idempotencySetNx
  split
  · rfl
  · rename_i hnone
    exact absurd hnone h

/-- `redis.set(lock, token, 'EX', ttl, 'NX')`.  Redis compares no tokens here: a lock is held by
whoever has set it first. -/
def lockSetNx (orderId : Uuid) (token : LockToken) : Bool × World :=
  match w.locks orderId with
  | some _ => (false, w)
  | none => (true, { w with locks := Function.update w.locks orderId (some token) })

/-- `RELEASE_SCRIPT`: delete the lock if it still holds this token.  Redis runs a script as one
command. -/
def lockRelease (orderId : Uuid) (token : LockToken) : World :=
  if w.locks orderId = some token then
    { w with locks := Function.update w.locks orderId none }
  else w

/-- `mainQueue.add('process-order', payload, { jobId })`.  A job whose id the queue knows is not
added again, and the caller does not learn it. -/
def mainQueueAdd (data : OrderJobPayload) : World :=
  if JobId.order data.orderId ∈ w.mainQueue.map Job.id then w
  else { w with mainQueue := w.mainQueue ++ [⟨.order data.orderId, data⟩] }

variable {w} in
theorem mainQueueAdd_of_mem {data : OrderJobPayload}
    (h : JobId.order data.orderId ∈ w.mainQueue.map Job.id) : w.mainQueueAdd data = w :=
  if_pos h

variable {w} in
theorem mainQueueAdd_of_not_mem {data : OrderJobPayload}
    (h : JobId.order data.orderId ∉ w.mainQueue.map Job.id) :
    w.mainQueueAdd data = { w with mainQueue := w.mainQueue ++ [⟨.order data.orderId, data⟩] } :=
  if_neg h

/-- Afterwards the queue has a job of that id either way, the caller's or an earlier one. -/
theorem mem_mainQueueAdd (data : OrderJobPayload) :
    JobId.order data.orderId ∈ (w.mainQueueAdd data).mainQueue.map Job.id := by
  by_cases hmem : JobId.order data.orderId ∈ w.mainQueue.map Job.id
  · rwa [mainQueueAdd_of_mem hmem]
  · rw [mainQueueAdd_of_not_mem hmem, List.map_append]
    exact List.mem_append_right _ (List.mem_singleton_self _)

theorem mainQueueAdd_idempotency (data : OrderJobPayload) :
    (w.mainQueueAdd data).idempotency = w.idempotency := by
  unfold mainQueueAdd
  split <;> rfl

/-- `dlqQueue.add('failed-order', payload, { jobId })`.  The time is part of the id, so that an
order can be there more than once. -/
def dlqQueueAdd (data : OrderJobPayload) (failureReason : String) (attempts : ℕ) (now : Time) :
    World :=
  if JobId.dlq data.orderId now ∈ w.dlqQueue.map DlqJob.id then w
  else { w with
    dlqQueue := w.dlqQueue ++ [⟨.dlq data.orderId now, data, failureReason, attempts⟩] }

/-! What each of these changes of the world. -/

section Frames

theorem patchStatus_frame (status orderId : String) (now : Time) :
    ∃ db, (w.patchStatus status orderId now).2 = { w with db := db } := by
  unfold patchStatus
  split
  · exact ⟨_, rfl⟩
  · exact ⟨w.db, rfl⟩

theorem idempotencySetNx_frame (key : String) (orderId : Uuid) :
    ∃ keys, (w.idempotencySetNx key orderId).2 = { w with idempotency := keys } := by
  unfold idempotencySetNx
  split
  · exact ⟨w.idempotency, rfl⟩
  · exact ⟨_, rfl⟩

theorem lockSetNx_frame (orderId : Uuid) (token : LockToken) :
    ∃ locks, (w.lockSetNx orderId token).2 = { w with locks := locks } := by
  unfold lockSetNx
  split
  · exact ⟨w.locks, rfl⟩
  · exact ⟨_, rfl⟩

theorem lockRelease_frame (orderId : Uuid) (token : LockToken) :
    ∃ locks, w.lockRelease orderId token = { w with locks := locks } := by
  unfold lockRelease
  split
  · exact ⟨_, rfl⟩
  · exact ⟨w.locks, rfl⟩

theorem mainQueueAdd_frame (data : OrderJobPayload) :
    ∃ queue, w.mainQueueAdd data = { w with mainQueue := queue } := by
  unfold mainQueueAdd
  split
  · exact ⟨w.mainQueue, rfl⟩
  · exact ⟨_, rfl⟩

theorem dlqQueueAdd_frame (data : OrderJobPayload) (failureReason : String) (attempts : ℕ)
    (now : Time) :
    ∃ queue, w.dlqQueueAdd data failureReason attempts now = { w with dlqQueue := queue } := by
  unfold dlqQueueAdd
  split
  · exact ⟨w.dlqQueue, rfl⟩
  · exact ⟨_, rfl⟩

end Frames

end World

namespace Op

/-- What the target of a call does with it, if the call gets there. -/
def effect : (o : Op) → Choice → World → Except OrderError (Reply o) × World
  | .repo o, c, w =>
      ((o.effect c.now w.db).1, { w with db := (o.effect c.now w.db).2 })
  | .findStore storeId, _, w => (w.db.findStore storeId, w)
  | .findMenusByIds menuIds storeId, _, w => (w.db.findMenusByIds menuIds storeId, w)
  | .patchStatus status orderId, c, w => w.patchStatus status orderId c.now
  | .idempotencySetNx key orderId, _, w =>
      (.ok (w.idempotencySetNx key orderId).1, (w.idempotencySetNx key orderId).2)
  | .idempotencySet key result, _, w =>
      (.ok (), { w with idempotency := Function.update w.idempotency key (some (.response result)) })
  | .idempotencyGet key, _, w => (.ok (w.idempotency key), w)
  | .idempotencyDel key, _, w =>
      (.ok (), { w with idempotency := Function.update w.idempotency key none })
  | .menuCacheGet key, _, w => (.ok (w.menuCache key), w)
  | .menuCacheSet key menus, _, w =>
      (.ok (), { w with
        menuCache := Function.update w.menuCache key (some (menus.map MenuInfo.throughJson)) })
  | .lockSetNx orderId token, _, w => (.ok (w.lockSetNx orderId token).1, (w.lockSetNx orderId token).2)
  | .lockRelease orderId token, _, w => (.ok (), w.lockRelease orderId token)
  | .mainQueueAdd data, _, w => (.ok (), w.mainQueueAdd data)
  | .dlqQueueAdd data failureReason attempts, c, w =>
      (.ok (), w.dlqQueueAdd data failureReason attempts c.now)
  | .consultBreaker _, c, w => (.ok c.circuitOpen, w)
  | .postToPos request, c, w =>
      match request.invalidHeader? with
      | some name =>
          (.error (.typeError ("Invalid character in header content [\"" ++ name ++ "\"]")), w)
      | none =>
          (match c.posAnswer with
            | .ok data => .ok ⟨data, c.now⟩
            | .error m => .error (.other m),
            { w with posInbox := w.posInbox ++ [(request, c.now)] })
  | .emitNewOrder storeId orderId items totalAmount traceId, c, w =>
      (.ok (), { w with
        socket := w.socket ++ [.newOrder storeId orderId items totalAmount traceId c.now] })
  | .emitOrderUpdated storeId orderId status, c, w =>
      (.ok (), { w with socket := w.socket ++ [.orderUpdated storeId orderId status c.now] })
  | .postAlert alert, _, w => (.ok (), { w with alerts := w.alerts ++ [alert] })

/-- A request with a header value that the HTTP client refuses is not sent; any other arrives, and
the environment decides what is answered. -/
theorem effect_postToPos (request : PosRequest) (c : Choice) (w : World) :
    effect (.postToPos request) c w = match request.invalidHeader? with
      | some name =>
          (.error (.typeError ("Invalid character in header content [\"" ++ name ++ "\"]")), w)
      | none =>
          (match c.posAnswer with
            | .ok data => .ok ⟨data, c.now⟩
            | .error m => .error (.other m),
            { w with posInbox := w.posInbox ++ [(request, c.now)] }) := rfl

/-- One with other values is sent, and answered as the environment decides. -/
theorem effect_postToPos_of_valid {request : PosRequest} (h : request.invalidHeader? = none)
    (c : Choice) (w : World) :
    effect (.postToPos request) c w =
      (match c.posAnswer with
        | .ok data => .ok ⟨data, c.now⟩
        | .error m => .error (.other m),
        { w with posInbox := w.posInbox ++ [(request, c.now)] }) := by
  rw [effect_postToPos, h]

/-- A request to the point of sale changes its inbox only. -/
theorem effect_postToPos_frame (request : PosRequest) (c : Choice) (w : World) :
    ∃ inbox, (effect (.postToPos request) c w).2 = { w with posInbox := inbox } := by
  rw [effect_postToPos]
  split
  · exact ⟨w.posInbox, rfl⟩
  · exact ⟨_, rfl⟩

/-- The circuit breaker is in the caller's own process, where no call is lost. -/
def isLocal : Op → Bool
  | .consultBreaker _ => true
  | _ => false

/-- A call as its caller sees it: one that leaves the process can be lost on its way or on its way
back.  In both cases the caller gets an error; only in the first nothing has happened. -/
def exec (o : Op) (c : Choice) (w : World) : Except OrderError (Reply o) × World :=
  if o.isLocal then effect o c w else c.fault.apply .other w (effect o c w)

theorem exec_undisturbed {c : Choice} (h : c.fault = .none) (o : Op) (w : World) :
    exec o c w = effect o c w := by
  unfold exec
  rw [h]
  split
  · rfl
  · rfl

/-- A call has its effect and answers with it, or it is lost.  This is the case split behind most
lemmas on single calls. -/
theorem exec_eq_effect_or (o : Op) (c : Choice) (w : World) :
    exec o c w = effect o c w ∨ c.fault ≠ .none ∧ ∃ e w', exec o c w = (.error e, w') := by
  by_cases hquiet : c.fault = .none
  · exact .inl (exec_undisturbed hquiet o w)
  · unfold exec
    split
    · exact .inl rfl
    · refine .inr ⟨hquiet, ?_⟩
      cases hfault : c.fault with
      | none => exact absurd hfault hquiet
      | rejected reason => exact ⟨_, _, rfl⟩
      | unacknowledged reason => exact ⟨_, _, rfl⟩

/-- `SET … NX` on a missing key. -/
theorem exec_setNx_of_none {c : Choice} {w : World} {key : String} (hquiet : c.fault = .none)
    (hfree : w.idempotency key = none) (orderId : Uuid) :
    exec (.idempotencySetNx key orderId) c w =
      (.ok true, { w with
        idempotency := Function.update w.idempotency key (some (.orderId orderId)) }) := by
  rw [exec_undisturbed hquiet]
  show (Except.ok (w.idempotencySetNx key orderId).1, (w.idempotencySetNx key orderId).2) = _
  rw [World.idempotencySetNx_of_none hfree]

/-- `SET … NX` on a key that is there. -/
theorem exec_setNx_of_ne_none {c : Choice} {w : World} {key : String} (hquiet : c.fault = .none)
    (hheld : w.idempotency key ≠ none) (orderId : Uuid) :
    exec (.idempotencySetNx key orderId) c w = (.ok false, w) := by
  rw [exec_undisturbed hquiet]
  show (Except.ok (w.idempotencySetNx key orderId).1, (w.idempotencySetNx key orderId).2) = _
  rw [World.idempotencySetNx_of_ne_none hheld]

/-- An answered call was not lost: whatever is lost is reported as an error. -/
theorem exec_eq_effect_of_ok {o : Op} {c : Choice} {w : World} {a : Reply o}
    (h : (exec o c w).1 = .ok a) : exec o c w = effect o c w := by
  unfold exec at h ⊢
  by_cases hlocal : o.isLocal = true
  · rw [if_pos hlocal]
  · rw [if_neg hlocal] at h ⊢
    rw [Fault.eq_none_of_apply_eq_ok h]
    rfl

/-- An answered `GET`. -/
theorem exec_idempotencyGet_eq_ok {c : Choice} {w : World} {key : String}
    {value : Option IdempotencyValue} (h : (exec (.idempotencyGet key) c w).1 = .ok value) :
    (exec (.idempotencyGet key) c w).2 = w ∧ w.idempotency key = value := by
  have heffect := exec_eq_effect_of_ok h
  rw [heffect] at h ⊢
  exact ⟨rfl, Except.ok.inj h⟩

/-- An answered request to a point of sale was sent, and the answer is the environment's. -/
theorem exec_postToPos_eq_ok {request : PosRequest} {c : Choice} {w : World} {reply : PosReply}
    (h : (exec (.postToPos request) c w).1 = .ok reply) :
    c.fault = .none ∧ request.invalidHeader? = none ∧ c.posAnswer = .ok reply.data := by
  refine ⟨Fault.eq_none_of_apply_eq_ok h, ?_⟩
  rw [exec_eq_effect_of_ok h, effect_postToPos] at h
  split at h
  · cases h
  · rename_i hvalid
    refine ⟨hvalid, ?_⟩
    split at h
    · rename_i data hdata
      cases h
      exact hdata
    · cases h

/-- One that the point of sale does not answer fails. -/
theorem exec_postToPos_of_error {request : PosRequest} {c : Choice} {w : World} {m : String}
    (h : c.posAnswer = .error m) : ∃ error, (exec (.postToPos request) c w).1 = .error error := by
  cases hresult : (exec (.postToPos request) c w).1 with
  | error error => exact ⟨error, rfl⟩
  | ok reply => cases h.symm.trans (exec_postToPos_eq_ok hresult).2.2

/-- Lost or not, a call leaves the world alone or does its effect.  So an invariant needs to be
checked for the effects only. -/
theorem exec_invariant {I : World → Prop} {o : Op} {c : Choice} {w : World} (hw : I w)
    (heffect : I (effect o c w).2) : I (exec o c w).2 := by
  unfold exec
  split
  · exact heffect
  · exact Fault.apply_invariant hw heffect

/-- A call that is not answered, and whose answer is not lost either, has done nothing or has
been refused by its target. -/
theorem exec_of_within {lossy : Prop} {c : Choice} (hc : c.fault.Within True lossy) (o : Op)
    (w : World) : (exec o c w).2 = w ∨ exec o c w = effect o c w ∨ lossy := by
  unfold exec
  cases hfault : c.fault with
  | none => exact .inr (.inl (by split <;> rfl))
  | rejected reason =>
      split
      · exact .inr (.inl rfl)
      · exact .inl rfl
  | unacknowledged reason =>
      rw [hfault] at hc
      exact .inr (.inr hc)

/-- A call that is not refused on its way has its effect, whatever its caller is told. -/
theorem exec_world_of_within {c : Choice} (hc : c.fault.Within False True) (o : Op) (w : World) :
    (exec o c w).2 = (effect o c w).2 := by
  unfold exec
  split
  · rfl
  · cases hfault : c.fault with
    | none => rfl
    | rejected reason =>
        rw [hfault] at hc
        exact hc.elim
    | unacknowledged reason => rfl

/-- One that is refused leaves the world. -/
theorem exec_world_of_not_within {c : Choice} (hc : ¬ c.fault.Within False True) (o : Op)
    (w : World) : (exec o c w).2 = w := by
  cases hfault : c.fault with
  | none => exact absurd (by rw [hfault]; trivial) hc
  | rejected reason =>
      unfold exec
      split
      · rename_i hlocal
        cases o <;> first | rfl | cases hlocal
      · rw [hfault]
        rfl
  | unacknowledged reason => exact absurd (by rw [hfault]; trivial) hc

end Op

/-- A key whose time to live is over.  Nothing says when this is: it may be at any moment. -/
inductive Expiry
  | idempotency (key : String)
  | lock (orderId : Uuid)
  | menuCache (key : String)

/-- The key is gone, as if it had never been set. -/
def Expiry.apply : Expiry → World → World
  | .idempotency key, w => { w with idempotency := Function.update w.idempotency key none }
  | .lock orderId, w => { w with locks := Function.update w.locks orderId none }
  | .menuCache key, w => { w with menuCache := Function.update w.menuCache key none }

@[simp] theorem Expiry.apply_db (e : Expiry) (w : World) : (e.apply w).db = w.db := by
  cases e <;> rfl

/-- A program of calls on the world.  It is the tree of a method's calls, with what it does at every
answer, so that other programs can act in between. -/
abbrev Service := Program Op.Reply OrderError

/-- Make one call. -/
abbrev Op.call (o : Op) : Service (Reply o) := Program.perform o

/-- Use the repository's methods as part of a service.  Its calls become calls on the world. -/
def Service.ofRepo {α : Type} (p : RepoProgram α) : Service α := Program.embed Op.repo p

end ChickenOrder
