import ChickenOrder.Database.Schema
import ChickenOrder.Relational.Window

/-!
# What the apps read about orders

The read endpoints of `PublicController`: the status of one order, and the three lists a
point of sale loads.  They see the order's row through `mapStatus`, which takes the nine
statuses to the five words of the apps.

A list is a query `ORDER BY … DESC LIMIT …` over times, and orders of the same time may come in any
order.  So what a list endpoint answers is a relation, `ListsOrders`; `selectOrders` is one of the
results that its query may have.

Nothing here writes, so that these endpoints appear in no run: what they answer is a property of
the tables at a moment, and what holds of the tables in every run holds of the answers.
-/

namespace ChickenOrder

open Relational

/-- An item as `formatOrder` shows it. -/
structure FormattedItem where
  name : String
  price : ℚ
  quantity : ℤ

/-- An order as the lists show it.  The amounts are shown twice, under the names that two apps have
for them. -/
structure FormattedOrder where
  id : Uuid
  orderNo : String
  status : String
  storeId : Uuid
  total : ℚ
  amount : ℚ
  type : String
  createdAt : Time
  orderedAt : Time
  updatedAt : Option Time
  items : List FormattedItem

/-- The body of a list. -/
structure OrderList where
  ok : Bool
  orders : List FormattedOrder

/-- The body of `order-status/:id` for an order that exists. -/
structure OrderStatusAnswer where
  id : Uuid
  status : String
  storeId : Uuid
  createdAt : Time
  updatedAt : Option Time

namespace PublicController

/-- `map[status] ?? status`.  Of the point of sale's four statuses only `COOKING` is shown as
another one. -/
def mapStatus (status : String) : String :=
  ([("QUEUED", "PLACED"), ("SAVED", "PLACED"), ("SENT_TO_POS", "ACCEPTED"), ("COMPLETED", "DONE"),
    ("FAILED", "CANCELLED"), ("ACCEPTED", "ACCEPTED"), ("COOKING", "ACCEPTED"), ("DONE", "DONE"),
    ("CANCELLED", "CANCELLED")].lookup status).getD status

/-- `getOrderStatus`; `none` is the answer `주문 없음`, which has the status of a success. -/
def getOrderStatus (db : Database) (id : String) : Except OrderError (Option OrderStatusAnswer) :=
  (uuidColumn id).map fun id => (db.orders.find? id).map fun o =>
    { id := o.id
      status := mapStatus o.status.text
      storeId := o.storeId
      createdAt := o.createdAt
      updatedAt := o.updatedAt }

/-- `fetchItemMap`, at one order: its items in the order of the table. -/
def fetchItems (db : Database) (orderId : Uuid) : List OrderItemRow :=
  db.orderItems.filter fun item => item.orderId = orderId

/-- `formatOrder`.  The order number is the start of the id, in upper case. -/
def formatOrder (db : Database) (o : OrderRow) : FormattedOrder where
  id := o.id
  orderNo := toUpperCase (String.ofList (o.id.toText.toList.take 8))
  status := mapStatus o.status.text
  storeId := o.storeId
  total := o.calculatedAmount
  amount := o.calculatedAmount
  type := "delivery"
  createdAt := o.createdAt
  orderedAt := o.queuedAt
  updatedAt := o.updatedAt
  items := (fetchItems db o.id).map fun i => ⟨i.menuName, i.unitPrice, i.quantity⟩

/-- `ORDER BY key DESC`. -/
def latestFirst (key : OrderRow → Time) : SortKey OrderRow :=
  .ofLinearOrder fun o => OrderDual.toDual (key o)

/-- What `SELECT … FROM orders o WHERE o.store_id = $1 AND … ORDER BY … DESC LIMIT …` may return.
Orders of the same time come in any order. -/
def SelectsOrders (db : Database) (storeId : Uuid) (shown : OrderRow → Bool) (key : OrderRow → Time)
    (limit : ℕ) (rows : List OrderRow) : Prop :=
  IsWindow db.orders.rows (fun o => o.storeId = storeId && shown o) (latestFirst key) 0 limit rows

/-- The result in which orders of the same time come as they were inserted.  It is one of those the
database may choose. -/
def selectOrders (db : Database) (storeId : Uuid) (shown : OrderRow → Bool)
    (key : OrderRow → Time) (limit : ℕ) : List OrderRow :=
  ((db.orders.rows.filter fun o => o.storeId = storeId && shown o).mergeSort
    (latestFirst key).le).take limit

theorem selectsOrders_selectOrders (db : Database) (storeId : Uuid) (shown : OrderRow → Bool)
    (key : OrderRow → Time) (limit : ℕ) :
    SelectsOrders db storeId shown key limit (selectOrders db storeId shown key limit) :=
  ⟨_, isSelection_mergeSort _ _ (latestFirst key), rfl⟩

/-- What a list endpoint may answer.  The endpoints differ in the rows they select, in the time
they sort by and in the limit; without a store they answer an empty list that is not `ok`. -/
def ListsOrders (db : Database) (storeId : Option String) (shown : OrderRow → Bool)
    (key : OrderRow → Time) (limit : ℕ) (answer : Except OrderError OrderList) : Prop :=
  match truthyText? storeId with
  | none => answer = .ok ⟨false, []⟩
  | some text =>
      match uuidColumn text with
      | .error e => answer = .error e
      | .ok storeId => ∃ rows, SelectsOrders db storeId shown key limit rows ∧
          answer = .ok ⟨true, rows.map (formatOrder db)⟩

/-- `24 * 60 * 60 * 1000`. -/
def day : Time := 86400000

/-- `o.updated_at > $2`; a missing time is not. -/
def updatedAfter (since : Time) (o : OrderRow) : Bool := o.updatedAt.any fun t => since < t

/-- What `getMissedOrders` may answer, with the `since` of the query already read.  Every row it
selects has an `updated_at` to sort by. -/
def GetsMissedOrders (db : Database) (storeId : Option String) (since : Option Time) (now : Time) :
    Except OrderError OrderList → Prop :=
  ListsOrders db storeId (updatedAfter (since.getD (now - day))) (fun o => o.updatedAt.getD 0) 500

/-- What `getOrdersByDate` may answer, with `from` and `to` already read.  Without them the range is
the last day. -/
def GetsOrdersByDate (db : Database) (storeId : Option String) (fromDate toDate : Option Time)
    (now : Time) : Except OrderError OrderList → Prop :=
  ListsOrders db storeId
    (fun o => fromDate.getD (now - day) ≤ o.createdAt && o.createdAt ≤ toDate.getD now)
    OrderRow.createdAt 1000

/-- What `getOrders` may answer: the orders of the last day. -/
def GetsOrders (db : Database) (storeId : Option String) (now : Time) :
    Except OrderError OrderList → Prop :=
  ListsOrders db storeId (fun o => now < o.createdAt + day) OrderRow.createdAt 100

end PublicController

/-! ## Reported statuses -/

/-- The status the apps are told of an order, if it has a row.  This is what a customer sees. -/
def Database.reportedStatus (db : Database) (id : Uuid) : Option String :=
  (db.statusOf id).map fun s => PublicController.mapStatus s.text

namespace PublicController

variable {db : Database}

/-- `order-status/:id` tells it. -/
theorem getOrderStatus_status {text : String} {id : Uuid} (hid : uuidColumn text = .ok id) :
    (getOrderStatus db text).map (fun answer => answer.map OrderStatusAnswer.status) =
      .ok (db.reportedStatus id) := by
  unfold getOrderStatus Database.reportedStatus Database.statusOf
  rw [hid]
  cases hrow : db.orders.find? id with
  | none => simp [Except.map, hrow]
  | some o => simp [Except.map, hrow]

section Lists

variable {storeId : Uuid} {shown : OrderRow → Bool} {key : OrderRow → Time} {limit : ℕ}
variable {rows : List OrderRow} {o : OrderRow}

/-- The rows a list shows are rows of the store. -/
theorem SelectsOrders.mem (h : SelectsOrders db storeId shown key limit rows) (ho : o ∈ rows) :
    o ∈ db.orders.rows ∧ o.storeId = storeId ∧ shown o = true := by
  have hmem := IsWindow.mem h ho
  simpa using hmem

/-- A list that is not cut off shows them all. -/
theorem SelectsOrders.mem_iff (h : SelectsOrders db storeId shown key limit rows)
    (hlimit : (db.orders.rows.filter fun o => o.storeId = storeId && shown o).length ≤ limit) :
    o ∈ rows ↔ o ∈ db.orders.rows ∧ o.storeId = storeId ∧ shown o = true := by
  refine ⟨h.mem, fun ⟨hmem, hstore, hshown⟩ => ?_⟩
  obtain ⟨result, hresult, rfl⟩ := h
  rw [List.drop_zero, List.take_of_length_le (by rwa [hresult.perm.length_eq])]
  exact hresult.mem_iff.mpr ⟨hmem, by simp [hstore, hshown]⟩

/-- An answer for a store whose id can be read. -/
theorem listsOrders_iff {text : String} {answer : Except OrderError OrderList}
    (hstore : uuidColumn text = .ok storeId) :
    ListsOrders db (some text) shown key limit answer ↔
      ∃ rows, SelectsOrders db storeId shown key limit rows ∧
        answer = .ok ⟨true, rows.map (formatOrder db)⟩ := by
  have htext : truthyText? (some text) = some text := by
    refine if_neg ?_
    rintro rfl
    cases hstore
  unfold ListsOrders
  simp only [htext, hstore]

/-- A list that is `ok` is a list of a store. -/
theorem ListsOrders.of_ok {text : String} {body : OrderList}
    (h : ListsOrders db (some text) shown key limit (.ok body)) (hok : body.ok = true) :
    ∃ storeId rows, uuidColumn text = .ok storeId ∧ SelectsOrders db storeId shown key limit rows ∧
      body.orders = rows.map (formatOrder db) := by
  cases hstore : uuidColumn text with
  | ok storeId =>
      obtain ⟨rows, hrows, hbody⟩ := (listsOrders_iff hstore).mp h
      cases hbody
      exact ⟨storeId, rows, rfl, hrows, rfl⟩
  | error e =>
      unfold ListsOrders at h
      split at h
      · cases h
        cases hok
      · rename_i text' htext
        obtain rfl : text = text' := by
          simp only [truthyText?, Option.ite_none_left_eq_some, Option.some.injEq] at htext
          exact htext.2
        rw [hstore] at h
        cases h

/-- The lists tell it too. -/
theorem SelectsOrders.reportedStatus (h : SelectsOrders db storeId shown key limit rows)
    {order : FormattedOrder} (horder : order ∈ rows.map (formatOrder db)) :
    db.reportedStatus order.id = some order.status := by
  obtain ⟨o, ho, rfl⟩ := List.mem_map.mp horder
  have hfind := Relational.Table.find?_eq_some_iff.mpr ⟨(h.mem ho).1, rfl⟩
  unfold Database.reportedStatus Database.statusOf
  rw [show db.orders.find? (formatOrder db o).id = some o from hfind]
  rfl

end Lists

end PublicController

end ChickenOrder
