import ChickenOrder.Database.Schema
import ChickenOrder.Interaction.Program

/-!
# The repository's transactions

`OrderRepository` writes orders in two transactions, `createOrder` and
`transitionStatus`, and two single statements, `markDlq` and
`incrementRetryCount`.  Here each is one function on the database: all of its
effect or an error.  `RepoOp` names them, with the read `findById`, as calls of
a program, and `RepoOp.exec` executes one under the faults a connection can
have.  `ChickenOrder.Database.OrderRepository` has the source's code, statement
by statement, and proves that it does nothing else.

The four writers are summarised once: `createOrder_eq_ok` and
`transitionStatus_eq_ok` say everything a successful transaction has checked
and done, and later modules use only these.
-/

namespace ChickenOrder

open Interaction

namespace Database

variable (db : Database)

/-! ## `createOrder` -/

/-- The `order_items` loop.  The first item that cannot be inserted fails it. -/
def insertItems (orderId : Uuid) : List OrderItem → Database → Except OrderError Database
  | [], db => .ok db
  | item :: rest, db =>
      match db.insertOrderItem orderId item with
      | .error e => .error e
      | .ok db' => insertItems orderId rest db'

/-- The audit row of a new order, which comes from nowhere. -/
def CreateOrderParams.audit (p : CreateOrderParams) : AuditParams :=
  ⟨p.id, none, .worker .queued, p.workerId, some p.jobId, none⟩

/-- `OrderRepository.createOrder` up to its commit: whether a row was inserted,
and the database after it. -/
def createOrder (p : CreateOrderParams) (now : Time) : Except OrderError (Bool × Database) :=
  match db.insertOrder p now with
  | .error e => .error e
  | .ok ([], _) => .ok (false, db)
  | .ok (_ :: _, db₁) =>
      match insertItems p.id p.items db₁ with
      | .error e => .error e
      | .ok db₂ =>
          match db₂.insertTransition (CreateOrderParams.audit p) now with
          | .error e => .error e
          | .ok db₃ => .ok (true, db₃)

/-! ## `transitionStatus` -/

/-- The audit row of a transition. -/
def TransitionParams.audit (p : TransitionParams) : AuditParams :=
  ⟨p.orderId, some p.expectedStatus, .worker p.nextStatus, p.workerId, p.jobId, p.reason⟩

/-- `OrderRepository.transitionStatus` as one step: the database after its commit, or the error that
has rolled it back. -/
def transitionStatus (p : TransitionParams) (now : Time) : Except OrderError Database :=
  match OrderStateMachine.validate p.expectedStatus p.nextStatus false with
  | .error e => .error e
  | .ok () =>
      match db.updateStatus p now with
      | .error e => .error e
      | .ok (0, _) => .error (.staleOrderVersion p.orderId.toText p.currentVersion)
      | .ok (_ + 1, db') => db'.insertTransition (TransitionParams.audit p) now

/-! ## What a committed transaction has done -/

section Summaries

variable {db}

/-- Once the row is inserted, the items and then the audit entry follow, and a failure of either is
the failure of the whole. -/
theorem createOrder_of_inserted {p : CreateOrderParams} {now : Time} {id : Uuid} {ids : List Uuid}
    {work : Database} (h : db.insertOrder p now = .ok (id :: ids, work)) :
    db.createOrder p now = match insertItems p.id p.items work with
      | .error e => .error e
      | .ok db₂ =>
          match db₂.insertTransition (CreateOrderParams.audit p) now with
          | .error e => .error e
          | .ok db₃ => .ok (true, db₃) := by
  unfold createOrder
  rw [h]

/-- An allowed transition is its `UPDATE`, whose count tells whether the row was still as expected,
and then its audit entry. -/
theorem transitionStatus_of_valid {p : TransitionParams} {now : Time}
    (h : OrderStateMachine.validate p.expectedStatus p.nextStatus false = .ok ()) :
    db.transitionStatus p now = match db.updateStatus p now with
      | .error e => .error e
      | .ok (0, _) => .error (.staleOrderVersion p.orderId.toText p.currentVersion)
      | .ok (_ + 1, db') => db'.insertTransition (TransitionParams.audit p) now := by
  unfold transitionStatus
  rw [h]

/-- An audit row is added if its columns take the worker's id and the reason. -/
theorem insertTransition_eq_ok_iff {t : AuditParams} {now : Time} {db' : Database} :
    db.insertTransition t now = .ok db' ↔
      FitsVarchar t.workerId ∧ (∀ s, t.reason = some s → FitsText s) ∧
        db' = { db with transitions := db.transitions ++ [t.toRow now] } := by
  unfold insertTransition
  constructor
  · intro h
    split at h
    · cases h
    · rename_i hworker
      split at h
      · cases h
      · rename_i hread
        cases h
        exact ⟨varcharColumn_ok_iff.mp ⟨_, hworker⟩, textColumn?_ok_iff.mp ⟨_, hread⟩, rfl⟩
  · rintro ⟨hworker, hfits, rfl⟩
    obtain ⟨_, hworker⟩ := varcharColumn_ok_iff.mpr hworker
    obtain ⟨_, hread⟩ := textColumn?_ok_iff.mpr hfits
    rw [hworker, hread]

/-- A worker's id that `worker_id` does not take fails the audit row. -/
theorem insertTransition_of_not_fits {t : AuditParams} {now : Time} (h : ¬ FitsVarchar t.workerId) :
    ∃ message, db.insertTransition t now = .error (queryFailed message) := by
  obtain ⟨message, hread⟩ := varcharColumn_of_not_fits h
  unfold insertTransition
  rw [hread]
  exact ⟨message, rfl⟩

/-- The audit row of a new order has no reason, so it is the worker's id that matters. -/
theorem insertTransition_created_iff {p : CreateOrderParams} {now : Time} {db' : Database} :
    db.insertTransition (CreateOrderParams.audit p) now = .ok db' ↔ FitsVarchar p.workerId ∧
      db' = { db with transitions := db.transitions ++ [(CreateOrderParams.audit p).toRow now] } := by
  have hnone : ∀ s, (CreateOrderParams.audit p).reason = some s → FitsText s := nofun
  rw [insertTransition_eq_ok_iff, and_iff_right hnone]
  rfl

/-- An item changes neither orders nor audit entries nor stores. -/
theorem insertOrderItem_orders {db' : Database} {orderId : Uuid} {item : OrderItem}
    (h : db.insertOrderItem orderId item = .ok db') :
    db'.orders = db.orders ∧ db'.transitions = db.transitions ∧ db'.stores = db.stores := by
  unfold insertOrderItem at h
  simp only [bind, Except.bind, pure, Except.pure] at h
  repeat' split at h
  all_goals first
    | cases h
      done
    | cases h
      exact ⟨rfl, rfl, rfl⟩

/-- The item rows leave orders, audit rows and stores alone. -/
theorem insertItems_orders {orderId : Uuid} {items : List OrderItem} {db' : Database}
    (h : insertItems orderId items db = .ok db') :
    db'.orders = db.orders ∧ db'.transitions = db.transitions ∧ db'.stores = db.stores := by
  induction items generalizing db with
  | nil =>
      cases h
      exact ⟨rfl, rfl, rfl⟩
  | cons item rest ih =>
      rw [insertItems] at h
      split at h
      · cases h
      · rename_i db₁ hitem
        obtain ⟨horders, htransitions, hstores⟩ := ih h
        obtain ⟨horders₁, htransitions₁, hstores₁⟩ := insertOrderItem_orders hitem
        exact ⟨horders.trans horders₁, htransitions.trans htransitions₁, hstores.trans hstores₁⟩

/-- The columns of a proposed row that the services rely on. -/
structure CreateOrderParams.Proposes (p : CreateOrderParams) (row : OrderRow) : Prop where
  id : row.id = p.id
  key : varcharColumn p.idempotencyKey = .ok row.idempotencyKey
  status : row.status = .worker .queued
  version : row.version = 0
  stamps : ∀ s, (row.stampOf s).isSome ↔ s = .queued

theorem proposes_of_toRow {p : CreateOrderParams} {now : Time} {row : OrderRow}
    (h : p.toRow now = .ok row) : CreateOrderParams.Proposes p row := by
  unfold CreateOrderParams.toRow at h
  simp only [bind, Except.bind, pure, Except.pure] at h
  repeat' split at h
  all_goals first
    | cases h
      done
    | cases h
      exact ⟨rfl, ‹_›, rfl, rfl, fun s => by cases s <;> simp [OrderRow.stampOf]⟩

/-- The columns that are read from the parameters, as a proposed row holds them. -/
structure CreateOrderParams.StoredAs (p : CreateOrderParams) (row : OrderRow) : Prop where
  key : varcharColumn p.idempotencyKey = .ok row.idempotencyKey
  traceId : varcharColumn p.traceId = .ok row.traceId
  storeId : uuidColumn p.storeId = .ok row.storeId
  userId : uuidColumn? p.userId = .ok row.userId
  requestedAmount : amountTextColumn p.requestedAmount = .ok row.requestedAmount
  calculatedAmount : amountTextColumn p.calculatedAmount = .ok row.calculatedAmount
  updatedAt : row.updatedAt = none

/-- The row has what the parameters say, and of the rest the defaults of the columns. -/
theorem storedAs_of_toRow {p : CreateOrderParams} {now : Time} {row : OrderRow}
    (h : p.toRow now = .ok row) : CreateOrderParams.StoredAs p row := by
  unfold CreateOrderParams.toRow at h
  simp only [bind, Except.bind, pure, Except.pure] at h
  repeat' split at h
  all_goals first
    | cases h
      done
    | cases h
      exact ⟨‹_›, ‹_›, ‹_›, ‹_›, ‹_›, ‹_›, rfl⟩

/-- What an `INSERT` into `orders` can answer: no row because the key is used,
or the row. -/
theorem insertOrder_eq_ok {p : CreateOrderParams} {now : Time} {ids : List Uuid} {db' : Database}
    (h : db.insertOrder p now = .ok (ids, db')) :
    ∃ row, p.toRow now = .ok row ∧
      ((ids = [] ∧ db' = db ∧ row.idempotencyKey ∈ db.orders.rows.map OrderRow.idempotencyKey) ∨
        (ids = [p.id] ∧ ∃ hpk huk, db' = { db with orders := db.orders.insert row hpk huk })) := by
  unfold insertOrder at h
  split at h
  · cases h
  · rename_i row hrow
    refine ⟨row, hrow, ?_⟩
    split at h
    · rename_i huk
      cases h
      exact .inl ⟨rfl, rfl, huk⟩
    · rename_i huk
      split at h
      · cases h
      · rename_i hpk
        split at h
        · cases h
        · cases h
          have hids : [row.id] = [p.id] := by rw [(proposes_of_toRow hrow).id]
          exact .inr ⟨hids, hpk, huk, rfl⟩

/-- **Everything a committed `createOrder` has done.**  Either the key was
already used and nothing changed, or the row and its audit row were added. -/
theorem createOrder_eq_ok {p : CreateOrderParams} {now : Time} {inserted : Bool} {db' : Database}
    (h : db.createOrder p now = .ok (inserted, db')) :
    (inserted = false ∧ db' = db ∧ ∃ row, db.findByKey? p.idempotencyKey = some row) ∨
    (inserted = true ∧ ∃ row hpk huk, p.toRow now = .ok row ∧
      db'.orders = db.orders.insert row hpk huk ∧
      db'.transitions = db.transitions ++ [(CreateOrderParams.audit p).toRow now] ∧
      db'.stores = db.stores) := by
  unfold createOrder at h
  split at h
  · cases h
  · rename_i hinsert
    cases h
    obtain ⟨row, hrow, ⟨-, -, hmem⟩ | ⟨hids, -⟩⟩ := insertOrder_eq_ok hinsert
    · refine .inl ⟨rfl, rfl, ?_⟩
      have hkey := (proposes_of_toRow hrow).key
      unfold findByKey?
      rw [hkey]
      cases hfind : db.orders.findUnique? row.idempotencyKey with
      | none => exact absurd hmem (Relational.Table.findUnique?_eq_none_iff.mp hfind)
      | some other => exact ⟨other, hfind⟩
    · cases hids
  · rename_i db₁ hinsert
    split at h
    · cases h
    · rename_i db₂ hitems
      split at h
      · cases h
      rename_i haudited
      obtain ⟨-, rfl⟩ := insertTransition_created_iff.mp haudited
      cases h
      obtain ⟨row, hrow, ⟨hids, -⟩ | ⟨-, hpk, huk, rfl⟩⟩ := insertOrder_eq_ok hinsert
      · cases hids
      · obtain ⟨horders, htransitions, hstores⟩ := insertItems_orders hitems
        refine .inr ⟨rfl, row, hpk, huk, hrow, horders, ?_, hstores⟩
        show db₂.transitions ++ _ = _
        rw [htransitions]

/-- The `UPDATE` of a transition matches no row, or the one with the expected
status and version. -/
theorem updateStatus_eq_ok {p : TransitionParams} {now : Time} {n : ℕ} {db' : Database}
    (h : db.updateStatus p now = .ok (n, db')) :
    p.Readable ∧ (n = 0 ∨ (n = 1 ∧ ∃ row, db.orders.find? p.orderId = some row ∧
      row.status = p.expectedStatus ∧ row.version = p.currentVersion ∧
      db' = { db with
        orders := db.orders.modify p.orderId (fun row => row.transition p now)
          (transition_keepsKeys p now) })) := by
  unfold updateStatus at h
  split at h
  · cases h
  · rename_i hread
    refine ⟨TransitionParams.readExtras_eq_ok_iff.mp hread, ?_⟩
    split at h
    · cases h
      exact .inl rfl
    · rename_i row hfind
      by_cases hcond : row.status = p.expectedStatus ∧ row.version = p.currentVersion
      · rw [if_pos hcond] at h
        split at h
        · cases h
        · cases h
          exact .inr ⟨rfl, row, hfind, hcond.1, hcond.2, rfl⟩
      · rw [if_neg hcond] at h
        cases h
        exact .inl rfl

/-- **Everything a committed `transitionStatus` has checked and done.** -/
theorem transitionStatus_eq_ok {p : TransitionParams} {now : Time} {db' : Database}
    (h : db.transitionStatus p now = .ok db') :
    ∃ s row, p.expectedStatus = .worker s ∧ p.nextStatus ∈ allowedTransitions s ∧
      db.orders.find? p.orderId = some row ∧ row.status = .worker s ∧
      row.version = p.currentVersion ∧
      db' = { db with
        orders := db.orders.modify p.orderId (fun row => row.transition p now)
          (transition_keepsKeys p now)
        transitions := db.transitions ++ [(TransitionParams.audit p).toRow now] } := by
  unfold transitionStatus at h
  split at h
  · cases h
  · rename_i hvalid
    obtain ⟨s, hs, hnext⟩ := OrderStateMachine.validate_eq_ok hvalid
    split at h
    · cases h
    · cases h
    · rename_i hupdate
      obtain ⟨-, -, rfl⟩ := insertTransition_eq_ok_iff.mp h
      obtain ⟨-, hzero | ⟨-, row, hfind, hstatus, hversion, rfl⟩⟩ := updateStatus_eq_ok hupdate
      · cases hzero
      · exact ⟨s, row, hs, hnext, hfind, hstatus.trans hs, hversion, rfl⟩

/-- A transition that is no longer refused had parameters its columns take. -/
theorem storable_of_transitionStatus {p : TransitionParams} {now : Time} {db' : Database}
    (h : db.transitionStatus p now = .ok db') : p.Storable := by
  unfold transitionStatus at h
  split at h
  · cases h
  · split at h
    · cases h
    · cases h
    · rename_i hupdate
      exact ⟨(updateStatus_eq_ok hupdate).1, (insertTransition_eq_ok_iff.mp h).1⟩

/-- A committed transition, seen by a lookup of its order. -/
theorem transitionStatus_find? {p : TransitionParams} {now : Time} {db' : Database}
    (h : db.transitionStatus p now = .ok db') :
    ∃ row, db.orders.find? p.orderId = some row ∧ row.version = p.currentVersion ∧
      db'.orders.find? p.orderId = some (row.transition p now) := by
  obtain ⟨s, row, -, -, hfind, -, hversion, rfl⟩ := transitionStatus_eq_ok h
  refine ⟨row, hfind, hversion, ?_⟩
  have hmodify := Relational.Table.find?_modify_self db.orders p.orderId
    (fun row => row.transition p now) (transition_keepsKeys p now)
  rw [hfind] at hmodify
  exact hmodify

/-- An update within the columns' ranges meets the row it names, and what is left is the audit
entry. -/
theorem transitionStatus_eq_insertTransition {p : TransitionParams} {now : Time} {s : OrderStatus}
    {row : OrderRow} (hexpected : p.expectedStatus = .worker s)
    (hnext : p.nextStatus ∈ allowedTransitions s) (hfind : db.orders.find? p.orderId = some row)
    (hstatus : row.status = .worker s) (hversion : row.version = p.currentVersion)
    (hrange : row.version < int4Max) (hreadable : p.Readable) :
    db.transitionStatus p now = insertTransition { db with
      orders := db.orders.modify p.orderId (fun row => row.transition p now)
        (transition_keepsKeys p now) } (TransitionParams.audit p) now := by
  have hvalid : OrderStateMachine.validate p.expectedStatus p.nextStatus false = .ok () := by
    rw [hexpected]
    simp [OrderStateMachine.validate, hnext]
  have hcond : row.status = p.expectedStatus ∧ row.version = p.currentVersion :=
    ⟨hstatus.trans hexpected.symm, hversion⟩
  have hfits : ¬ int4Max < row.version + 1 := by omega
  have hupdate : db.updateStatus p now = .ok (1, { db with
      orders := db.orders.modify p.orderId (fun row => row.transition p now)
        (transition_keepsKeys p now) }) := by
    unfold updateStatus
    rw [TransitionParams.readExtras_eq_ok_iff.mpr hreadable, hfind]
    simp only [hcond, and_self, if_true]
    rw [if_neg (hversion ▸ hfits)]
  unfold transitionStatus
  rw [hvalid, hupdate]

/-- With parameters that all columns take, the transition is made. -/
theorem transitionStatus_of_row {p : TransitionParams} {now : Time} {s : OrderStatus}
    {row : OrderRow} (hexpected : p.expectedStatus = .worker s)
    (hnext : p.nextStatus ∈ allowedTransitions s) (hfind : db.orders.find? p.orderId = some row)
    (hstatus : row.status = .worker s) (hversion : row.version = p.currentVersion)
    (hrange : row.version < int4Max) (hstorable : p.Storable) :
    db.transitionStatus p now = .ok { db with
      orders := db.orders.modify p.orderId (fun row => row.transition p now)
        (transition_keepsKeys p now)
      transitions := db.transitions ++ [(TransitionParams.audit p).toRow now] } := by
  rw [transitionStatus_eq_insertTransition hexpected hnext hfind hstatus hversion hrange
    hstorable.toReadable]
  exact insertTransition_eq_ok_iff.mpr ⟨hstorable.workerId, hstorable.reason, rfl⟩

/-- Parameters that a column does not take stop every transition. -/
theorem transitionStatus_of_not_storable {p : TransitionParams} {now : Time}
    (h : ¬ p.Storable) : ∃ e, db.transitionStatus p now = .error e := by
  cases hresult : db.transitionStatus p now with
  | error e => exact ⟨e, rfl⟩
  | ok db' => exact absurd (storable_of_transitionStatus hresult) h

/-- `markDlq` succeeds exactly for a reason its column takes. -/
theorem markDlq_eq_ok_iff {orderId : Uuid} {reason : String} {now : Time} {db' : Database} :
    db.markDlq orderId reason now = .ok db' ↔ FitsText reason ∧
      db' = { db with
        orders := db.orders.modify orderId (fun row => row.sentToDlq reason now)
          ⟨fun _ => rfl, fun _ => rfl⟩ } := by
  unfold markDlq
  by_cases hfits : FitsText reason
  · rw [textColumn_of_fits hfits]
    exact ⟨fun h => ⟨hfits, (Except.ok.inj h).symm⟩, fun h => congrArg Except.ok h.2.symm⟩
  · rw [textColumn_of_not_fits hfits]
    exact iff_of_false nofun fun h => hfits h.1

end Summaries

end Database

/-! ## Repository calls -/

/-- The repository's transactions, statements and reads by id. -/
inductive RepoOp
  | createOrder (p : CreateOrderParams)
  | transitionStatus (p : TransitionParams)
  | findById (id : Uuid)
  | markDlq (orderId : Uuid) (reason : String)
  | incrementRetryCount (orderId : Uuid)

/-- `createOrder` answers whether it inserted, `findById` what it found. -/
abbrev RepoOp.Reply : RepoOp → Type
  | .createOrder _ => Bool
  | .findById _ => Option OrderEntity
  | _ => Unit

/-- What the environment decides for one call. -/
structure RepoChoice where
  fault : Fault String
  now : Time

namespace RepoOp

/-- A call that reaches the database. -/
def effect : (o : RepoOp) → Time → Database → Except OrderError (Reply o) × Database
  | .createOrder p, now, db => settle db (db.createOrder p now)
  | .transitionStatus p, now, db =>
      settle db (quietly (db.transitionStatus p now))
  | .findById id, _, db => (.ok (db.findOrder? id), db)
  | .markDlq orderId reason, now, db => settle db (quietly (db.markDlq orderId reason now))
  | .incrementRetryCount orderId, _, db =>
      settle db (quietly (db.incrementRetryCount orderId))

/-- An operation that is lost before or after it, or that is answered.  Its failures are those of
its statements. -/
def exec (o : RepoOp) (c : RepoChoice) (db : Database) : Except OrderError (Reply o) × Database :=
  c.fault.apply .other db (effect o c.now db)

variable {c : RepoChoice} {db : Database}

/-- An answered `createOrder` has committed. -/
theorem exec_createOrder_eq_ok {p : CreateOrderParams} {inserted : Bool}
    (h : (exec (.createOrder p) c db).1 = .ok inserted) :
    db.createOrder p c.now = .ok (inserted, (exec (.createOrder p) c db).2) := by
  have hnone : c.fault = .none := Fault.eq_none_of_apply_eq_ok h
  unfold exec at h ⊢
  rw [hnone] at h ⊢
  obtain ⟨db', hspec, hstate⟩ := settle_fst_eq_ok h
  rw [hspec]
  exact congrArg (fun d => Except.ok (inserted, d)) hstate.symm

/-- An answered `transitionStatus` has committed. -/
theorem exec_transitionStatus_eq_ok {p : TransitionParams} {done : Unit}
    (h : (exec (.transitionStatus p) c db).1 = .ok done) :
    db.transitionStatus p c.now = .ok (exec (.transitionStatus p) c db).2 := by
  have hnone : c.fault = .none := Fault.eq_none_of_apply_eq_ok h
  unfold exec at h ⊢
  rw [hnone] at h ⊢
  obtain ⟨db', hspec, hstate⟩ := settle_fst_eq_ok h
  rw [quietly_eq_ok.mp hspec]
  exact congrArg Except.ok hstate.symm

/-- A transaction that throws has changed nothing, unless its outcome was lost on the way
back. -/
theorem exec_transitionStatus_state {p : TransitionParams} {e : OrderError}
    (h : (exec (.transitionStatus p) c db).1 = .error e) :
    (exec (.transitionStatus p) c db).2 = db ∨ (∃ m, c.fault = .unacknowledged m) ∧
      db.transitionStatus p c.now = .ok (exec (.transitionStatus p) c db).2 := by
  unfold exec at h ⊢
  cases hfault : c.fault with
  | rejected m => exact .inl rfl
  | unacknowledged m =>
      show (settle db (quietly (db.transitionStatus p c.now))).2 = db ∨ _ ∧
        _ = Except.ok (settle db (quietly (db.transitionStatus p c.now))).2
      cases hspec : db.transitionStatus p c.now with
      | error e => exact .inl rfl
      | ok db' => exact .inr ⟨⟨m, rfl⟩, rfl⟩
  | none =>
      rw [hfault] at h
      show (settle db (quietly (db.transitionStatus p c.now))).2 = db ∨ _
      cases hspec : db.transitionStatus p c.now with
      | error e => exact .inl rfl
      | ok db' =>
          have hsettle : (settle db (quietly (db.transitionStatus p c.now))).1 = .error e := h
          rw [hspec] at hsettle
          cases hsettle

end RepoOp

/-! ## The methods over these calls -/

/-- A program of whole repository methods. -/
abbrev RepoProgram := Program RepoOp.Reply OrderError

/-- Make one repository call. -/
abbrev RepoOp.call (o : RepoOp) : RepoProgram (Reply o) := Program.perform o

namespace AtomicRepository

/-- `createOrder`: the transaction and, if it inserted, the read that follows
the commit.  The read's promise is returned without `await`, so the `catch` does
not see it fail: its own error is what the caller gets. -/
def createOrder (p : CreateOrderParams) : RepoProgram (Option OrderEntity) := do
  let inserted ← RepoOp.call (.createOrder p)
  if inserted then RepoOp.call (.findById p.id) else return none

/-- `OrderRepository.transitionStatus`, as one step. -/
def transitionStatus (p : TransitionParams) : RepoProgram Unit :=
  RepoOp.call (.transitionStatus p)

/-- `OrderRepository.findById`, as one step. -/
def findById (id : Uuid) : RepoProgram (Option OrderEntity) :=
  RepoOp.call (.findById id)

/-- `OrderRepository.markDlq`, as one step. -/
def markDlq (orderId : Uuid) (reason : String) : RepoProgram Unit :=
  RepoOp.call (.markDlq orderId reason)

/-- `OrderRepository.incrementRetryCount`, as one step. -/
def incrementRetryCount (orderId : Uuid) : RepoProgram Unit :=
  RepoOp.call (.incrementRetryCount orderId)

end AtomicRepository

end ChickenOrder
