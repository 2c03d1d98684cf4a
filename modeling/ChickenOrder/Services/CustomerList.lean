import Mathlib.Algebra.Ring.Rat
import ChickenOrder.Relational.Window
import ChickenOrder.Services.OrderReads

/-!
# `PublicController.getCustomers`

The customers of a store, with what each of them has ordered: one row for each user of the store's
orders that have neither failed nor been cancelled, the latest first.

The query groups the orders by their user and sorts the groups by their latest order.  Users
with the same time come in the order that the database chooses, so that the answer is a
relation; every answer has the same users with the same sums, unless the list is full.
-/

namespace ChickenOrder

open Relational

/-- A row of the answer: a user and what the user's orders add up to. -/
structure CustomerEntry where
  userId : Option Uuid
  orderCount : ℕ
  totalSpent : ℚ
  lastOrderAt : Time

/-- What the endpoint answers, or the error of its query. -/
inductive CustomersReply
  | failed (e : OrderError)
  | customers (entries : List CustomerEntry)

namespace PublicController

/-- `store_id = $1 AND user_id IS NOT NULL AND status NOT IN ('FAILED', 'CANCELLED')`. -/
def isPurchase (storeId : Uuid) (o : OrderRow) : Bool :=
  o.storeId = storeId ∧ o.userId.isSome ∧ o.status.text ∉ ["FAILED", "CANCELLED"]

/-- `user_id, COUNT(*), SUM(calculated_amount), MAX(created_at)`; a group has a row, so that there
is a latest one. -/
def customerEntry (group : Option Uuid × List OrderRow) : CustomerEntry where
  userId := group.1
  orderCount := group.2.length
  totalSpent := (group.2.map OrderRow.calculatedAmount).sum
  lastOrderAt := ((group.2.map OrderRow.createdAt).max?).getD 0

/-- `ORDER BY last_order_at DESC`. -/
def latestCustomer : SortKey CustomerEntry :=
  .ofLinearOrder fun entry => OrderDual.toDual entry.lastOrderAt

/-- The rows of the query: the groups come in any order before they are sorted, and at most a
hundred are taken. -/
def SelectsCustomers (db : Database) (storeId : Uuid) (entries : List CustomerEntry) : Prop :=
  ∃ groups, IsGrouping db.orders.rows (isPurchase storeId) OrderRow.userId (.ofLinearOrder fun _ => ())
      groups ∧
    IsWindow (groups.map customerEntry) (fun _ => true) latestCustomer 0 100 entries

/-- What `getCustomers` may answer. -/
def GetsCustomers (db : Database) (storeId : Option String) (reply : CustomersReply) : Prop :=
  match truthyText? storeId with
  | none => reply = .customers []
  | some storeId =>
      match uuidColumn storeId with
      | .error e => reply = .failed e
      | .ok storeId => ∃ entries, SelectsCustomers db storeId entries ∧ reply = .customers entries

end PublicController

end ChickenOrder
