import ChickenOrder.Database.Schema
import ChickenOrder.Relational.Window
import ChickenOrder.Values.Numerals

/-!
# The list of dead letters

`GET /admin/orders/dlq` shows the failed orders, latest first, a page at a time: what
`AdminController` reads of a query, what `OrderRepository.findFailedOrders` makes of it, and the
answer of `AdminService`.  Each page is a query of its own; orders that went to the dead letter
queue at the same time may come in any order.

The page and the limit are texts of the query string.  `parseInt` reads them, and what it makes
of a text that is no number reaches TypeORM as `NaN`, which is refused, while a limit of zero is
left out of the statement.  `pageBounds` has all of these cases.
-/

namespace ChickenOrder

open Relational

/-- The query string, with `from` and `to` as `new Date(…)` reads them.  All of it is optional. -/
structure DlqQuery where
  storeId : Option String
  fromDate : Option Time
  toDate : Option Time
  page : Option String
  limit : Option String

/-- What the answer shows of an order. -/
structure DlqEntry where
  orderId : Uuid
  storeId : Uuid
  traceId : String
  status : RowStatus
  failureReason : Option String
  dlqAt : Option Time
  retryCount : ℕ
  requestedAmount : ℚ
  createdAt : Time

/-- A page, the number of all dead letters of the selection, and the page's number; `none` is `NaN`.
-/
structure DlqAnswer where
  items : List DlqEntry
  total : ℕ
  page : Option ℤ

namespace AdminController

/-- `text ? parseInt(text, 10) : fallback`; `none` is `NaN`.  Characters behind the digits are
ignored. -/
def pageNumber (text : Option String) (fallback : ℤ) : Option ℤ :=
  match truthyText? text with
  | none => some fallback
  | some text => Decimal.parseInt? text

end AdminController

namespace OrderRepository

/-- `WHERE o.status = 'FAILED' AND o.dlq_at IS NOT NULL AND …`. -/
def isDeadLetter (store : Option Uuid) (fromDate toDate : Option Time) (o : OrderRow) : Bool :=
  o.status = .worker .failed && o.dlqAt.isSome && store.all (fun s => o.storeId = s) &&
    fromDate.all (fun t => t ≤ o.createdAt) && toDate.all (fun t => o.createdAt ≤ t)

/-- `ORDER BY o.dlqAt DESC`; every selected row has one.  Nothing orders dead letters of the same
time. -/
def latestDeadLetter : SortKey OrderRow := .ofLinearOrder fun o => OrderDual.toDual (o.dlqAt.getD 0)

/-- `skip((page - 1) * limit)` and `take(limit)` as they reach the database: TypeORM refuses `NaN`
and leaves out a zero, Postgres refuses what is negative. -/
def pageBounds (page limit : Option ℤ) : Except OrderError (ℕ × Option ℕ) :=
  match page, limit with
  | some page, some limit =>
      if limit < 0 then .error (queryFailed "LIMIT must not be negative")
      else if (page - 1) * limit < 0 then .error (queryFailed "OFFSET must not be negative")
      else .ok (((page - 1) * limit).toNat, if limit = 0 then none else some limit.toNat)
  | _, _ => .error (queryFailed "Provided value is not a number. Please provide a numeric value.")

/-- What `findFailedOrders` may return: a page, and the number of all.  The two are separate
queries. -/
def FindsFailedOrders (db : Database) (store : Option Uuid) (fromDate toDate : Option Time)
    (page limit : Option ℤ) (found : List OrderRow × ℕ) : Prop :=
  ∃ offset bound, pageBounds page limit = .ok (offset, bound) ∧
    found.2 = (db.orders.rows.filter (isDeadLetter store fromDate toDate)).length ∧
    IsWindow db.orders.rows (isDeadLetter store fromDate toDate) latestDeadLetter offset
      (bound.getD found.2) found.1

end OrderRepository

namespace AdminService

/-- An order as `getDlqOrders` shows it. -/
def dlqEntry (o : OrderRow) : DlqEntry where
  orderId := o.id
  storeId := o.storeId
  traceId := o.traceId
  status := o.status
  failureReason := o.failureReason
  dlqAt := o.dlqAt
  retryCount := o.retryCount
  requestedAmount := o.requestedAmount
  createdAt := o.createdAt

/-- What `getDlqOrders` may answer. -/
def AnswersDlqOrders (db : Database) (query : DlqQuery) (answer : DlqAnswer) : Prop :=
  ∃ store rows, ((truthyText? query.storeId).mapM uuidColumn) = .ok store ∧
    OrderRepository.FindsFailedOrders db store query.fromDate query.toDate
      (AdminController.pageNumber query.page 1) (AdminController.pageNumber query.limit 20)
      (rows, answer.total) ∧
    answer.items = rows.map dlqEntry ∧ answer.page = AdminController.pageNumber query.page 1

end AdminService

end ChickenOrder
