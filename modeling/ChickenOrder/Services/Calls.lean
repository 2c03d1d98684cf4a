import ChickenOrder.Database.Changes
import ChickenOrder.Services.OrderSystem

/-!
# Which calls a request makes, and what they do to orders

`Request.allows` lists the calls the program of a request can make, with the
arguments the request fixes.  `Request.onlyCalls` checks the programs against
it, method by method; interleavings inherit it through
`System.allowed_of_reaches`.

`Op.exec_change` and `orderSystem_step_change` say what a call, and a step of
the whole system, can do to one order: a change of
`ChickenOrder.Database.Changes`, where only the `PATCH` handlers' statement
writes a status directly.

The remaining lemmas do the same for the other parts of the world, one list for each: the
idempotency keys, the main queue, the inbox of the point of sale.  Proofs about runs use these
lists, so that a new call would be added here and nowhere else.
-/

namespace ChickenOrder

open Interaction Interaction.Program

/-! ## Calls by request -/

/-- A request to a point of sale carries the idempotency header of `key`. -/
def PosRequest.Carries (request : PosRequest) (key : String) : Prop :=
  ("X-IDEMPOTENCY", LegacyV1PosAdapter.idempotencyHeader key) ∈ request.headers ∨
    ("X-Idempotency-Key", key) ∈ request.headers

namespace ProcessOrderService

/-- The calls of `process`.  Each is about the payload's own order, and the transitions go forwards
only. -/
def ProcessCalls (payload : OrderJobPayload) (jobMeta : JobMeta) : Op → Prop
  | .lockSetNx orderId token => orderId = payload.orderId ∧ token = ⟨jobMeta.workerId, jobMeta.jobId⟩
  | .lockRelease orderId token =>
      orderId = payload.orderId ∧ token = ⟨jobMeta.workerId, jobMeta.jobId⟩
  | .repo (.createOrder p) => p = createParams payload jobMeta
  | .repo (.findById id) => id = payload.orderId
  | .repo (.transitionStatus p) => p.nextStatus ≠ .failed
  | .findStore storeId => storeId = payload.storeId
  | .consultBreaker storeId => storeId = payload.storeId
  | .postToPos request => request.order = domainOrder payload ∧
      request.Carries payload.idempotencyKey
  | _ => False

/-- The calls of `handleFailure`.  It moves the order to `FAILED` and nowhere else. -/
def FailureCalls (payload : OrderJobPayload) : Op → Prop
  | .repo (.findById id) => id = payload.orderId
  | .repo (.transitionStatus p) => p.orderId = payload.orderId ∧ p.nextStatus = .failed
  | .repo (.markDlq orderId _) => orderId = payload.orderId
  | .repo (.incrementRetryCount orderId) => orderId = payload.orderId
  | .dlqQueueAdd data _ _ => data = payload
  | .postAlert alert => alert.orderId = payload.orderId
  | _ => False

end ProcessOrderService

/-- The calls of `validateAndEnrichItems`. -/
def CreateOrderService.ValidationCalls (cmd : CreateOrderCommand) : Op → Prop
  | .menuCacheGet _ => True
  | .menuCacheSet _ _ => True
  | .findMenusByIds _ storeId => storeId = cmd.storeId
  | _ => False

/-- The calls of `CreateOrderService.execute`, with the keys and ids that they are made with. -/
def CreateOrderService.ExecuteCalls (cmd : CreateOrderCommand) (ctx : ApiContext) : Op → Prop
  | .idempotencySetNx key orderId =>
      key = IdempotencyService.pendingKey cmd.idempotencyKey ∧ orderId = ctx.orderId
  | .idempotencyDel key => key = IdempotencyService.pendingKey cmd.idempotencyKey
  | .idempotencyGet key => key = IdempotencyService.responseKey cmd.idempotencyKey
  | .idempotencySet key result =>
      key = IdempotencyService.responseKey cmd.idempotencyKey ∧
        result = CreateOrderService.result ctx
  | .menuCacheGet _ => True
  | .menuCacheSet _ _ => True
  | .findMenusByIds _ storeId => storeId = cmd.storeId
  | .mainQueueAdd data => ∃ amount items, data = CreateOrderService.payload cmd ctx amount items
  | .emitNewOrder storeId orderId _ _ _ => storeId = cmd.storeId ∧ orderId = ctx.orderId
  | _ => False

/-- The calls of `AdminService.redriveOrder`.  Its one transition is from `FAILED` to `QUEUED`. -/
def AdminService.RedriveCalls (orderId : Uuid) : Op → Prop
  | .repo (.findById id) => id = orderId
  | .repo (.transitionStatus p) => p.expectedStatus = .worker .failed ∧ p.nextStatus = .queued
  | .mainQueueAdd data => data.isRedrive = true
  | _ => False

/-- The calls of a status handler that writes `text` to `id`. -/
def StatusCalls (text id : String) : Op → Prop
  | .patchStatus status orderId => status = text ∧ orderId = id
  | .emitOrderUpdated _ orderId _ => orderId = id
  | _ => False

/-- The calls a request may make, by its kind.  Everything that is said of all programs goes through
this list. -/
def Request.allows : Request → Op → Prop
  | .createOrder cmd ctx => CreateOrderService.ExecuteCalls cmd ctx
  | .process payload jobMeta => ProcessOrderService.ProcessCalls payload jobMeta
  | .handleFailure payload _ _ => ProcessOrderService.FailureCalls payload
  | .redriveOrder orderId _ => AdminService.RedriveCalls orderId
  | .updateStatus orderId status => StatusCalls status.text orderId
  | .updateOrderStatus id body => StatusCalls (PublicController.requestedStatus body) id

/-! ## Method by method -/

section Methods

variable {allowed : Op → Prop}

/-- `createOrder` makes its one step, and reads the row it has inserted.  Both are about the same
order. -/
theorem OrderRepository.create_onlyCalls {p : CreateOrderParams}
    (hcreate : allowed (.repo (.createOrder p))) (hfind : allowed (.repo (.findById p.id))) :
    (OrderRepository.create p).OnlyCalls allowed := by
  refine .embed Op.repo (.bind (.perform hcreate) fun inserted => ?_)
  split
  · exact .perform hfind
  · trivial

theorem OrderRepository.transition_onlyCalls {p : TransitionParams}
    (h : allowed (.repo (.transitionStatus p))) : (OrderRepository.transition p).OnlyCalls allowed :=
  .embed Op.repo (.perform h)

theorem OrderRepository.findById_onlyCalls {id : Uuid} (h : allowed (.repo (.findById id))) :
    (OrderRepository.findById id).OnlyCalls allowed :=
  .embed Op.repo (.perform h)

/-- An adapter only posts its order, with the key of idempotency in a header or in the document. -/
theorem PosAdapter.sendOrder_onlyCalls (adapter : PosAdapter) (order : DomainOrder)
    (h : ∀ request : PosRequest, request.order = order → request.Carries order.idempotencyKey →
      allowed (.postToPos request)) :
    (adapter.sendOrder order).OnlyCalls allowed := by
  cases adapter with
  | legacyV1 endpoint apiKey =>
      refine .tryCatch (.bind (.perform (h _ rfl (.inl ?_))) fun response => ?_) fun _ => trivial
      · exact List.mem_append_right _ (List.mem_singleton_self _)
      · split <;> trivial
  | modernV2 endpoint apiKey =>
      refine .tryCatch (.bind (.perform (h _ rfl (.inr ?_))) fun response => ?_) fun _ => trivial
      · exact List.mem_append_right _ List.mem_cons_self
      · split <;> trivial

theorem PosCircuitBreakerService.retry_onlyCalls {α : Type} {fn : Service α}
    (h : fn.OnlyCalls allowed) (n : ℕ) : (PosCircuitBreakerService.retry n fn).OnlyCalls allowed := by
  induction n with
  | zero => exact h
  | succ n ih => exact .tryCatch h fun _ => ih

/-- The breaker is consulted beside what the wrapped call does. -/
theorem PosCircuitBreakerService.execute_onlyCalls {α : Type} {storeId : String} {fn : Service α}
    (hbreaker : allowed (.consultBreaker storeId)) (hfn : fn.OnlyCalls allowed) :
    (PosCircuitBreakerService.execute storeId fn).OnlyCalls allowed := by
  refine .tryCatch (retry_onlyCalls (.bind (.perform hbreaker) fun isOpen => ?_) 3) fun err => ?_
  · split
    · trivial
    · exact hfn
  · split <;> trivial

end Methods

namespace ProcessOrderService

variable (payload : OrderJobPayload) (jobMeta : JobMeta)

section Dispatch

variable {allowed : Op → Prop} (hfind : allowed (.repo (.findById payload.orderId)))
variable (htransition : ∀ p : TransitionParams, p.orderId = payload.orderId →
  p.nextStatus ≠ .failed → allowed (.repo (.transitionStatus p)))

include hfind htransition

/-- Recording a dispatch reads the row and moves it twice. -/
theorem recordDispatch_onlyCalls (posResult : PosOrderResult) :
    (recordDispatch payload jobMeta posResult).OnlyCalls allowed := by
  refine .bind (OrderRepository.findById_onlyCalls hfind) fun saved => ?_
  cases saved with
  | none => trivial
  | some saved =>
      refine .bind (OrderRepository.transition_onlyCalls (htransition _ rfl fun h => by cases h))
        fun _ => .bind (OrderRepository.findById_onlyCalls hfind) fun sent => ?_
      cases sent with
      | none => trivial
      | some sent =>
          exact OrderRepository.transition_onlyCalls (htransition _ rfl fun h => by cases h)

/-- A dispatch looks the store up, consults the breaker, posts the order and records that. -/
theorem sendToPos_onlyCalls (hstore : allowed (.findStore payload.storeId))
    (hbreaker : allowed (.consultBreaker payload.storeId))
    (hpost : ∀ request : PosRequest, request.order = domainOrder payload →
      request.Carries payload.idempotencyKey → allowed (.postToPos request)) :
    (sendToPos payload jobMeta).OnlyCalls allowed := by
  refine .bind (.perform hstore) fun store => ?_
  cases store with
  | none => trivial
  | some store =>
      dsimp only
      split
      · trivial
      · rename_i posAdapter _
        exact .bind (PosCircuitBreakerService.execute_onlyCalls hbreaker
          (PosAdapter.sendOrder_onlyCalls posAdapter _ hpost))
          fun posResult => recordDispatch_onlyCalls payload jobMeta hfind htransition posResult

/-- The same for all that happens under the lock. -/
theorem processWithLock_onlyCalls_of
    (hcreate : allowed (.repo (.createOrder (createParams payload jobMeta))))
    (hsave : ∀ p : TransitionParams, p.nextStatus = .saved → allowed (.repo (.transitionStatus p)))
    (hstore : allowed (.findStore payload.storeId))
    (hbreaker : allowed (.consultBreaker payload.storeId))
    (hpost : ∀ request : PosRequest, request.order = domainOrder payload →
      request.Carries payload.idempotencyKey → allowed (.postToPos request)) :
    (processWithLock payload jobMeta).OnlyCalls allowed := by
  refine .bind (OrderRepository.create_onlyCalls hcreate hfind) fun order => ?_
  cases order with
  | none => trivial
  | some order =>
      exact .bind (OrderRepository.transition_onlyCalls (hsave _ rfl)) fun _ =>
        sendToPos_onlyCalls payload jobMeta hfind htransition hstore hbreaker hpost

end Dispatch

/-- The body of `process` only makes the calls of a worker's attempt. -/
theorem processWithLock_onlyCalls :
    (processWithLock payload jobMeta).OnlyCalls (ProcessCalls payload jobMeta) := by
  refine processWithLock_onlyCalls_of payload jobMeta rfl (fun _ _ h => h) rfl ?_ rfl rfl
    fun _ horder hcarries => ⟨horder, hcarries⟩
  rintro p hsaved hfailed
  rw [hsaved] at hfailed
  cases hfailed

/-- All of `process` makes only the calls of a worker's attempt: those of its body, and the two of
the lock around it. -/
theorem process_onlyCalls : (process payload jobMeta).OnlyCalls (ProcessCalls payload jobMeta) := by
  refine .bind (.bind (.perform ⟨rfl, rfl⟩) fun acquired => ?_) fun _ =>
    .tryFinally (processWithLock_onlyCalls payload jobMeta) (.perform ⟨rfl, rfl⟩)
  split <;> trivial

/-- The handler of a failed job never sends an order, and takes no lock. -/
theorem handleFailure_onlyCalls (config : AppConfig) (error : OrderError) :
    (handleFailure config payload error jobMeta).OnlyCalls (FailureCalls payload) := by
  unfold handleFailure
  split
  · refine .bind (.tryCatch (.bind (OrderRepository.findById_onlyCalls rfl) fun order => ?_)
      fun err => ?_) fun _ => .bind (.embed Op.repo (.perform rfl)) fun _ =>
        .bind (.perform rfl) fun _ => ?_
    · split
      · trivial
      · exact OrderRepository.transition_onlyCalls ⟨rfl, rfl⟩
    · split <;> trivial
    · unfold NotificationService.sendDlqAlert
      split
      · trivial
      · exact .tryCatch (.perform rfl) fun _ => trivial
  · exact .embed Op.repo (.perform rfl)

end ProcessOrderService

/-- Validation reads and fills the cache, and queries the menus. -/
theorem CreateOrderService.validateAndEnrichItems_onlyCalls (cmd : CreateOrderCommand) :
    (validateAndEnrichItems cmd).OnlyCalls (ValidationCalls cmd) := by
  refine .bind (.bind (.perform trivial) fun cached => ?_) fun menus => ?_
  · cases cached with
    | some menus => trivial
    | none => exact .bind (.perform rfl) fun menus => .bind (.perform trivial) fun _ => trivial
  · split <;> trivial

theorem CreateOrderService.ValidationCalls.executeCalls {cmd : CreateOrderCommand} (ctx : ApiContext)
    {o : Op} (h : ValidationCalls cmd o) : ExecuteCalls cmd ctx o := by
  cases o with
  | menuCacheGet key => trivial
  | menuCacheSet key menus => trivial
  | findMenusByIds menuIds storeId => exact h
  | _ => cases h

/-- `execute` writes Redis and the queue and emits an event; it never writes an order. -/
theorem CreateOrderService.execute_onlyCalls (cmd : CreateOrderCommand) (ctx : ApiContext) :
    (CreateOrderService.execute cmd ctx).OnlyCalls (ExecuteCalls cmd ctx) := by
  refine .bind (.perform ⟨rfl, rfl⟩) fun isNew => ?_
  split
  · refine .tryCatch (.bind ((validateAndEnrichItems_onlyCalls cmd).mono fun _ h =>
      h.executeCalls ctx) fun validated => .bind (.perform ⟨_, _, rfl⟩) fun _ =>
        .bind (.perform ⟨rfl, rfl⟩) fun _ => .bind (.perform ⟨rfl, rfl⟩) fun _ => trivial)
      fun err => .bind (.perform rfl) fun _ => ?_
    split <;> trivial
  · refine .bind (.bind (.perform rfl) fun raw => ?_) fun cached => ?_
    · cases raw with
      | none => trivial
      | some value => cases value <;> trivial
    · cases cached <;> trivial

/-- A re-drive reads the row, moves it and publishes its job. -/
theorem AdminService.redriveOrder_onlyCalls (orderId : Uuid) (ctx : RedriveContext) :
    (redriveOrder orderId ctx).OnlyCalls (RedriveCalls orderId) := by
  refine .bind (OrderRepository.findById_onlyCalls rfl) fun found => ?_
  cases found with
  | none => trivial
  | some order =>
      show Program.OnlyCalls _ (if order.row.status ≠ .worker .failed then _ else _)
      split
      · trivial
      · exact .bind (OrderRepository.transition_onlyCalls ⟨rfl, rfl⟩) fun _ => .perform rfl

theorem announceStatus_onlyCalls (text id : String) (result : UpdateResult) :
    (announceStatus id result).OnlyCalls (StatusCalls text id) := by
  unfold announceStatus
  split
  · trivial
  · exact .bind (.perform rfl) fun _ => trivial

/-- **Programs only make the calls of their request.** This is a property of the code alone: no
world and no answer comes into it. -/
theorem Request.onlyCalls (config : AppConfig) (q : Request) :
    (q.program config).OnlyCalls q.allows := by
  cases q with
  | createOrder cmd ctx =>
      exact .bind (CreateOrderService.execute_onlyCalls cmd ctx) fun _ => trivial
  | process payload jobMeta =>
      exact .bind (ProcessOrderService.process_onlyCalls payload jobMeta) fun _ => trivial
  | handleFailure payload error jobMeta =>
      exact .bind (ProcessOrderService.handleFailure_onlyCalls payload jobMeta config error)
        fun _ => trivial
  | redriveOrder orderId ctx =>
      exact .bind (AdminService.redriveOrder_onlyCalls orderId ctx) fun _ => trivial
  | updateStatus orderId status =>
      exact .bind (.bind (.perform ⟨rfl, rfl⟩) fun result =>
        announceStatus_onlyCalls status.text orderId result) fun _ => trivial
  | updateOrderStatus id body =>
      refine .bind ?_ fun _ => trivial
      unfold PublicController.updateOrderStatus
      split
      · trivial
      split
      · trivial
      · exact .bind (.perform ⟨rfl, rfl⟩) fun result => announceStatus_onlyCalls _ id result

/-! ## Orders -/

/-- The call writes the status `new` to the order `id` past the state machine.  Only the two `PATCH`
handlers make such calls. -/
def Op.WritesStatus (o : Op) (id : Uuid) (new : RowStatus) : Prop :=
  ∃ text orderId, o = .patchStatus text orderId ∧ uuidColumn orderId = .ok id ∧
    RowStatus.ofText? text = some new

/-- The row a `PATCH` statement would find and the status it would write there. -/
def Op.patchTarget? (o : Op) (db : Database) : Option (OrderRow × RowStatus) :=
  match o with
  | .patchStatus text orderId =>
      match uuidColumn orderId, RowStatus.ofText? text with
      | .ok id, some new => (db.orders.find? id).map fun row => (row, new)
      | _, _ => none
  | _ => none

/-- A `PATCH` that writes to an order with a row has that row for its target. -/
theorem Op.WritesStatus.patchTarget? {o : Op} {db : Database} {id : Uuid} {row : OrderRow}
    {new : RowStatus} (h : o.WritesStatus id new) (hrow : db.orders.find? id = some row) :
    o.patchTarget? db = some (row, new) := by
  obtain ⟨text, orderId, rfl, hid, hnew⟩ := h
  simp [Op.patchTarget?, hid, hnew, hrow]

/-- What a successful status `UPDATE` has done: it has written the status and the time to a row, or
has found none. -/
theorem Database.patchStatus_eq_ok {db db' : Database} {text orderId : String} {now : Time}
    {rows : List (Uuid × RowStatus)} (h : db.patchStatus text orderId now = .ok (rows, db')) :
    db' = db ∨ ∃ id row new, uuidColumn orderId = .ok id ∧ db.orders.find? id = some row ∧
      RowStatus.ofText? text = some new ∧
      db' = { db with
        orders := db.orders.modify id (fun row => row.patched new now)
          ⟨fun _ => rfl, fun _ => rfl⟩ } := by
  unfold Database.patchStatus at h
  split at h
  · cases h
  · cases h
  · rename_i id text' hid hread
    obtain rfl : text = text' := eq_of_textColumn hread
    split at h
    · cases h
      exact .inl rfl
    · rename_i row hrow
      split at h
      · cases h
      · rename_i new hnew
        cases h
        exact .inr ⟨id, row, new, hid, hrow, hnew, rfl⟩

section Orders

variable {w : World}

/-- The database after a status has been written past the state machine. -/
def Database.Patched (db db' : Database) (id : Uuid) (new : RowStatus) (now : Time) : Prop :=
  (∃ row, db.orders.find? id = some row) ∧
    db' = { db with
      orders := db.orders.modify id (fun row => row.patched new now)
        ⟨fun _ => rfl, fun _ => rfl⟩ }

/-- Only a request to the point of sale reaches its inbox. -/
theorem Op.exec_posInbox (o : Op) (c : Choice) (w : World) :
    (o.exec c w).2.posInbox = w.posInbox ∨
      ∃ request, o = .postToPos request ∧
        (o.exec c w).2.posInbox = w.posInbox ++ [(request, c.now)] := by
  refine Op.exec_invariant (I := fun w' => w'.posInbox = w.posInbox ∨
    ∃ request, o = .postToPos request ∧ w'.posInbox = w.posInbox ++ [(request, c.now)])
    (.inl rfl) ?_
  cases o with
  | postToPos request =>
      rw [effect_postToPos]
      split
      · exact .inl rfl
      · exact .inr ⟨request, rfl, rfl⟩
  | patchStatus text orderId =>
      obtain ⟨db, hframe⟩ := w.patchStatus_frame text orderId c.now
      exact .inl (congrArg World.posInbox hframe :)
  | idempotencySetNx key orderId =>
      obtain ⟨keys, hframe⟩ := w.idempotencySetNx_frame key orderId
      exact .inl (congrArg World.posInbox hframe :)
  | lockSetNx orderId token =>
      obtain ⟨locks, hframe⟩ := w.lockSetNx_frame orderId token
      exact .inl (congrArg World.posInbox hframe :)
  | lockRelease orderId token =>
      obtain ⟨locks, hframe⟩ := w.lockRelease_frame orderId token
      exact .inl (congrArg World.posInbox hframe :)
  | mainQueueAdd data =>
      obtain ⟨queue, hframe⟩ := w.mainQueueAdd_frame data
      exact .inl (congrArg World.posInbox hframe :)
  | dlqQueueAdd data reason attempts =>
      obtain ⟨queue, hframe⟩ := w.dlqQueueAdd_frame data reason attempts c.now
      exact .inl (congrArg World.posInbox hframe :)
  | _ => exact .inl rfl

/-- **Everything a call does to the database**: a repository call, a status written
by a `PATCH`, or nothing. -/
theorem Op.effect_db (o : Op) (c : Choice) (w : World) :
    (∃ r, o = .repo r ∧ (o.effect c w).2.db = (r.effect c.now w.db).2) ∨
    (∃ id new, o.WritesStatus id new ∧ w.db.Patched (o.effect c w).2.db id new c.now) ∨
    (o.effect c w).2.db = w.db := by
  cases o with
  | repo r => exact .inl ⟨r, rfl, rfl⟩
  | patchStatus text orderId =>
      show _ ∨ (∃ id new, _ ∧ w.db.Patched (w.patchStatus text orderId c.now).2.db id new c.now) ∨
        (w.patchStatus text orderId c.now).2.db = w.db
      unfold World.patchStatus
      split
      · rename_i rows db' hpatch
        obtain hsame | ⟨id, row, new, hid, hrow, hnew, hdb⟩ := Database.patchStatus_eq_ok hpatch
        · exact .inr (.inr hsame)
        · exact .inr (.inl ⟨id, new, ⟨text, orderId, rfl, hid, hnew⟩, ⟨row, hrow⟩, hdb⟩)
      · exact .inr (.inr rfl)
  | idempotencySetNx key orderId =>
      obtain ⟨keys, hframe⟩ := w.idempotencySetNx_frame key orderId
      exact .inr (.inr (congrArg World.db hframe :))
  | lockSetNx orderId token =>
      obtain ⟨locks, hframe⟩ := w.lockSetNx_frame orderId token
      exact .inr (.inr (congrArg World.db hframe :))
  | lockRelease orderId token =>
      obtain ⟨locks, hframe⟩ := w.lockRelease_frame orderId token
      exact .inr (.inr (congrArg World.db hframe :))
  | mainQueueAdd data =>
      obtain ⟨queue, hframe⟩ := w.mainQueueAdd_frame data
      exact .inr (.inr (congrArg World.db hframe :))
  | dlqQueueAdd data reason attempts =>
      obtain ⟨queue, hframe⟩ := w.dlqQueueAdd_frame data reason attempts c.now
      exact .inr (.inr (congrArg World.db hframe :))
  | postToPos request =>
      obtain ⟨inbox, hframe⟩ := effect_postToPos_frame request c w
      exact .inr (.inr (congrArg World.db hframe :))
  | _ => exact .inr (.inr rfl)

/-- **Everything a call does to the idempotency keys**: it sets one that is free, stores a response,
deletes one, or leaves them. -/
theorem Op.effect_idempotency (o : Op) (c : Choice) (w : World) :
    (∃ key id, o = .idempotencySetNx key id ∧ w.idempotency key = none ∧
      (o.effect c w).2.idempotency = Function.update w.idempotency key (some (.orderId id))) ∨
    (∃ key result, o = .idempotencySet key result ∧
      (o.effect c w).2.idempotency = Function.update w.idempotency key (some (.response result))) ∨
    (∃ key, o = .idempotencyDel key ∧
      (o.effect c w).2.idempotency = Function.update w.idempotency key none) ∨
    (o.effect c w).2.idempotency = w.idempotency := by
  cases o with
  | idempotencySetNx key id =>
      show (∃ key' id', _ ∧ _ ∧ (w.idempotencySetNx key id).2.idempotency = _) ∨ _ ∨ _ ∨
        (w.idempotencySetNx key id).2.idempotency = _
      by_cases hfree : w.idempotency key = none
      · rw [World.idempotencySetNx_of_none hfree]
        exact .inl ⟨key, id, rfl, hfree, rfl⟩
      · rw [World.idempotencySetNx_of_ne_none hfree]
        exact .inr (.inr (.inr rfl))
  | idempotencySet key result => exact .inr (.inl ⟨key, result, rfl, rfl⟩)
  | idempotencyDel key => exact .inr (.inr (.inl ⟨key, rfl, rfl⟩))
  | mainQueueAdd data => exact .inr (.inr (.inr (w.mainQueueAdd_idempotency data)))
  | patchStatus text orderId =>
      obtain ⟨db, hframe⟩ := w.patchStatus_frame text orderId c.now
      exact .inr (.inr (.inr (congrArg World.idempotency hframe :)))
  | lockSetNx orderId token =>
      obtain ⟨locks, hframe⟩ := w.lockSetNx_frame orderId token
      exact .inr (.inr (.inr (congrArg World.idempotency hframe :)))
  | lockRelease orderId token =>
      obtain ⟨locks, hframe⟩ := w.lockRelease_frame orderId token
      exact .inr (.inr (.inr (congrArg World.idempotency hframe :)))
  | dlqQueueAdd data reason attempts =>
      obtain ⟨queue, hframe⟩ := w.dlqQueueAdd_frame data reason attempts c.now
      exact .inr (.inr (.inr (congrArg World.idempotency hframe :)))
  | postToPos request =>
      obtain ⟨inbox, hframe⟩ := effect_postToPos_frame request c w
      exact .inr (.inr (.inr (congrArg World.idempotency hframe :)))
  | _ => exact .inr (.inr (.inr rfl))

/-- Only a `DEL` takes a key away. -/
theorem Op.exec_idempotency_ne_none {o : Op} {c : Choice} {w : World} {key : String}
    (hdel : o ≠ .idempotencyDel key) (hheld : w.idempotency key ≠ none) :
    (o.exec c w).2.idempotency key ≠ none := by
  refine Op.exec_invariant (I := fun w' => w'.idempotency key ≠ none) hheld ?_
  have hupdate : ∀ k value, value ≠ none → Function.update w.idempotency k value key ≠ none := by
    intro k value hvalue
    by_cases hkey : key = k
    · subst hkey
      rwa [Function.update_self]
    · rwa [Function.update_of_ne hkey]
  obtain ⟨k, id, -, -, heffect⟩ | ⟨k, r, -, heffect⟩ | ⟨k, rfl, heffect⟩ | heffect :=
    o.effect_idempotency c w
  · rw [heffect]
    exact hupdate k _ nofun
  · rw [heffect]
    exact hupdate k _ nofun
  · have hkey : key ≠ k := by
      rintro rfl
      exact hdel rfl
    rwa [heffect, Function.update_of_ne hkey]
  · rwa [heffect]

/-- **Everything a call does to the main queue**: an `add` of a new id appends its job, and nothing
else changes it. -/
theorem Op.effect_mainQueue (o : Op) (c : Choice) (w : World) :
    (∃ data, o = .mainQueueAdd data ∧ JobId.order data.orderId ∉ w.mainQueue.map Job.id ∧
      (o.effect c w).2.mainQueue = w.mainQueue ++ [⟨.order data.orderId, data⟩]) ∨
    (o.effect c w).2.mainQueue = w.mainQueue := by
  cases o with
  | mainQueueAdd data =>
      show (∃ data', _ ∧ _ ∧ (w.mainQueueAdd data).mainQueue = _) ∨
        (w.mainQueueAdd data).mainQueue = _
      by_cases hmem : JobId.order data.orderId ∈ w.mainQueue.map Job.id
      · exact .inr (congrArg _ (World.mainQueueAdd_of_mem hmem))
      · exact .inl ⟨data, rfl, hmem, congrArg _ (World.mainQueueAdd_of_not_mem hmem)⟩
  | idempotencySetNx key id =>
      obtain ⟨keys, hframe⟩ := w.idempotencySetNx_frame key id
      exact .inr (congrArg World.mainQueue hframe :)
  | patchStatus text orderId =>
      obtain ⟨db, hframe⟩ := w.patchStatus_frame text orderId c.now
      exact .inr (congrArg World.mainQueue hframe :)
  | lockSetNx orderId token =>
      obtain ⟨locks, hframe⟩ := w.lockSetNx_frame orderId token
      exact .inr (congrArg World.mainQueue hframe :)
  | lockRelease orderId token =>
      obtain ⟨locks, hframe⟩ := w.lockRelease_frame orderId token
      exact .inr (congrArg World.mainQueue hframe :)
  | dlqQueueAdd data reason attempts =>
      obtain ⟨queue, hframe⟩ := w.dlqQueueAdd_frame data reason attempts c.now
      exact .inr (congrArg World.mainQueue hframe :)
  | postToPos request =>
      obtain ⟨inbox, hframe⟩ := effect_postToPos_frame request c w
      exact .inr (congrArg World.mainQueue hframe :)
  | _ => exact .inr rfl

/-- The row of an order after a status was written to the order `k`. -/
theorem Database.Patched.find? {db db' : Database} {k : Uuid} {new : RowStatus} {now : Time}
    (h : db.Patched db' k new now) (id : Uuid) :
    db'.orders.find? id = db.orders.find? id ∨
      id = k ∧ ∃ row, db.orders.find? id = some row ∧
        db'.orders.find? id = some (row.patched new now) := by
  obtain ⟨⟨row, hrow⟩, rfl⟩ := h
  by_cases hid : id = k
  · subst hid
    have hfind := Relational.Table.find?_modify_self db.orders id
      (fun row => row.patched new now) ⟨fun _ => rfl, fun _ => rfl⟩
    rw [hrow] at hfind
    exact .inr ⟨rfl, row, hrow, hfind⟩
  · exact .inl (Relational.Table.find?_modify_of_ne db.orders hid
      (fun row => row.patched new now) ⟨fun _ => rfl, fun _ => rfl⟩)

/-- **What one call does to one order**, lost or not.  Its arrows are those of the state machine,
and the statuses of the `PATCH`es. -/
theorem Op.exec_change (o : Op) (c : Choice) (w : World) (id : Uuid) :
    OrderChange (fun _ new => o.WritesStatus id new) w.db (o.exec c w).2.db id := by
  refine Op.exec_invariant
    (I := fun w' => OrderChange (fun _ new => o.WritesStatus id new) w.db w'.db id)
    (.refl w.db id) ?_
  obtain ⟨r, rfl, hdb⟩ | ⟨k, new, hwrites, hpatched⟩ | hdb := o.effect_db c w
  · rw [hdb]
    exact r.effect_change c.now w.db id
  · have htrail : (o.effect c w).2.db.trail id = w.db.trail id := by
      obtain ⟨-, hdb⟩ := hpatched
      rw [hdb]
      rfl
    obtain hsame | ⟨rfl, row, hrow, hrow'⟩ := hpatched.find? id
    · exact .untouched hsame htrail
    · exact .patched row (row.patched new c.now) hrow hrow'
        ⟨rfl, rfl, rfl, fun s => by cases s <;> rfl⟩ hwrites htrail
  · rw [hdb]
    exact .refl w.db id

/-- `RowEffect db now id o r`: the call `o` at `now` can leave `r` as the row of `id`. -/
inductive Op.RowEffect (db : Database) (now : Time) (id : Uuid) : Op → Option OrderRow → Prop
  | same (o : Op) : RowEffect db now id o (db.orders.find? id)
  | repo {o : RepoOp} {r : Option OrderRow} (h : RepoOp.RowEffect db now id o r) :
      RowEffect db now id (.repo o) r
  | patched {o : Op} {new : RowStatus} {row : OrderRow} (hwrites : o.WritesStatus id new)
      (hrow : db.orders.find? id = some row) : RowEffect db now id o (some (row.patched new now))

/-- **Everything a call does to one row.** -/
theorem Op.exec_row (o : Op) (c : Choice) (w : World) (id : Uuid) :
    Op.RowEffect w.db c.now id o ((o.exec c w).2.db.orders.find? id) := by
  refine Op.exec_invariant (I := fun w' => Op.RowEffect w.db c.now id o (w'.db.orders.find? id))
    (.same o) ?_
  obtain ⟨r, rfl, hdb⟩ | ⟨k, new, hwrites, hpatched⟩ | hdb := o.effect_db c w
  · rw [hdb]
    exact .repo (r.effect_row c.now w.db id)
  · obtain hsame | ⟨rfl, row, hrow, hrow'⟩ := hpatched.find? id
    · rw [hsame]
      exact .same o
    · rw [hrow']
      exact .patched hwrites hrow
  · rw [hdb]
    exact .same o

/-- **Rows come from `createOrder`**, with the id and the key they were asked for. -/
theorem Op.exec_inserts {o : Op} {c : Choice} {w : World} {id : Uuid} {row : OrderRow}
    (hnone : w.db.orders.find? id = none) (hrow : (o.exec c w).2.db.orders.find? id = some row) :
    ∃ p, o = .repo (.createOrder p) ∧ p.id = id ∧
      varcharColumn p.idempotencyKey = .ok row.idempotencyKey := by
  have heffect := o.exec_row c w id
  rw [hrow] at heffect
  generalize hr : some row = r at heffect
  -- every other effect starts from a row
  cases heffect with
  | same => simp [hnone] at hr
  | repo h =>
      cases h with
      | same => simp [hnone] at hr
      | inserted hid hfree hnew =>
          cases hr
          exact ⟨_, rfl, hid, (Database.proposes_of_toRow hnew).key⟩
      | moved hid hold => simp [hnone] at hold
      | marked hold => simp [hnone] at hold
      | retried hold => simp [hnone] at hold
  | patched hwrites hold => simp [hnone] at hold

/-- **Who writes a status.**  An order has a status after a call that it did not have
before only if the call inserts its row, moves it there, or is a `PATCH`. -/
theorem Op.exec_statusOf {o : Op} {c : Choice} {w : World} {id : Uuid} {s : RowStatus}
    (hold : w.db.statusOf id ≠ some s) (hnew : (o.exec c w).2.db.statusOf id = some s) :
    (∃ p, o = .repo (.createOrder p) ∧ p.id = id ∧ s = .worker .queued) ∨
    (∃ p v, o = .repo (.transitionStatus p) ∧ p.orderId = id ∧ s = .worker p.nextStatus ∧
      p.nextStatus ∈ allowedTransitions v ∧ w.db.statusOf id = some (.worker v)) ∨
    o.WritesStatus id s := by
  have heffect := o.exec_row c w id
  unfold Database.statusOf at hold hnew ⊢
  generalize (o.exec c w).2.db.orders.find? id = r at heffect hnew
  cases heffect with
  | same => exact absurd hnew hold
  | repo h =>
      cases h with
      | same => exact absurd hnew hold
      | inserted hid hfree hnew' =>
          have hqueued := (Database.proposes_of_toRow hnew').status
          rw [Option.map_some, Option.some.injEq] at hnew
          exact .inl ⟨_, rfl, hid, hnew.symm.trans hqueued⟩
      | moved hid hrow hexpected hstatus hversion hnext =>
          rw [Option.map_some, OrderRow.transition_status, Option.some.injEq] at hnew
          refine .inr (.inl ⟨_, _, rfl, hid, hnew.symm, hnext, ?_⟩)
          rw [hrow, Option.map_some, hstatus]
      | marked hrow =>
          rw [hrow] at hold
          exact absurd hnew hold
      | retried hrow =>
          rw [hrow] at hold
          exact absurd hnew hold
  | patched hwrites hrow =>
      rw [Option.map_some, Option.some.injEq] at hnew
      subst hnew
      exact .inr (.inr hwrites)

/-- **What one step of the system does to one order.** -/
theorem orderSystem_step_change {config : AppConfig} {ℓ : OrderLabel} {P P' : OrderPool}
    (h : (orderSystem config).step ℓ P = some P') (id : Uuid) :
    OrderChange (fun _ new => ∃ o, ℓ.call? P = some o ∧ o.WritesStatus id new) P.world.db
      P'.world.db id := by
  obtain ⟨i, q, rfl, -, rfl⟩ | ⟨i, c, t, o, k, rfl, ht, hrest, rfl⟩ | ⟨e, w, rfl, hw, rfl⟩ :=
    (orderSystem config).step_cases h
  · exact .refl _ id
  · exact (o.exec_change c P.world id).mono fun _ new hwrites =>
      ⟨o, Label.call?_act ht hrest c, hwrites⟩
  · cases hw
    show OrderChange _ P.world.db (e.apply P.world).db id
    rw [Expiry.apply_db]
    exact .refl _ id

/-- **What one step of the system does to the main queue**: at most one job is added. -/
theorem orderSystem_step_mainQueue {config : AppConfig} {ℓ : OrderLabel} {P P' : OrderPool}
    (h : (orderSystem config).step ℓ P = some P') :
    P'.world.mainQueue = P.world.mainQueue ∨
      ∃ data, ℓ.call? P = some (.mainQueueAdd data) ∧
        JobId.order data.orderId ∉ P.world.mainQueue.map Job.id ∧
        P'.world.mainQueue = P.world.mainQueue ++ [⟨.order data.orderId, data⟩] := by
  obtain ⟨i, q, rfl, -, rfl⟩ | ⟨i, c, t, o, k, rfl, ht, hrest, rfl⟩ | ⟨e, w, rfl, hw, rfl⟩ :=
    (orderSystem config).step_cases h
  · exact .inl rfl
  · obtain ⟨data, rfl, hfresh, hadded⟩ | hsame := o.effect_mainQueue c P.world
    · have hexec : (Op.exec (.mainQueueAdd data) c P.world).2.mainQueue = P.world.mainQueue ∨
          (Op.exec (.mainQueueAdd data) c P.world).2.mainQueue =
            P.world.mainQueue ++ [⟨.order data.orderId, data⟩] :=
        Op.exec_invariant (I := fun w => w.mainQueue = P.world.mainQueue ∨
          w.mainQueue = P.world.mainQueue ++ [⟨.order data.orderId, data⟩]) (.inl rfl) (.inr hadded)
      rcases hexec with hexec | hexec
      · exact .inl hexec
      · exact .inr ⟨data, Label.call?_act ht hrest c, hfresh, hexec⟩
    · exact .inl (Op.exec_invariant (I := fun w => w.mainQueue = P.world.mainQueue) rfl hsame)
  · cases hw
    cases e <;> exact .inl rfl

/-- Jobs stay: nothing in the model takes one from the queue, as BullMQ keeps the id of a finished
job. -/
theorem orderSystem_step_mem_mainQueue {config : AppConfig} {ℓ : OrderLabel} {P P' : OrderPool}
    (h : (orderSystem config).step ℓ P = some P') {job : Job} (hjob : job ∈ P.world.mainQueue) :
    job ∈ P'.world.mainQueue := by
  obtain hsame | ⟨data, -, -, hadded⟩ := orderSystem_step_mainQueue h
  · rwa [hsame]
  · rw [hadded]
    exact List.mem_append_left _ hjob

/-- Every call of a reachable pool is one its thread's request allows.  So a step can be inverted by
the kind of request. -/
theorem allows_of_reaches {config : AppConfig} {ok : OrderLabel → OrderPool → Prop}
    {P₀ P : OrderPool} (hinit : ∀ i, P₀.threads i = none)
    (h : (orderSystem config).Reaches ok P₀ P) {i : ℕ} {t : OrderThread}
    (ht : P.threads i = some t) {o : Op} {k : Except OrderError (Op.Reply o) → Service Outcome}
    (hrest : t.rest = .call o k) : t.request.allows o :=
  System.allowed_of_reaches (fun q => Request.onlyCalls config q) hinit h ht hrest

end Orders

end ChickenOrder
