import ChickenOrder.Database.Schema
import ChickenOrder.Relational.Query
import ChickenOrder.Values.Dates

/-!
# `PublicController.getSales`

Three aggregates over the orders of a store in a range of time: completed orders, cancelled
orders, and the completed ones by day, week, month or quarter.  They are read here from one
snapshot of the table, with amounts added up exactly; the time zone of the session is a
parameter, and so is how the database compares texts.

A period is the start of the day, week, month or quarter of the time that lies nine hours after
the creation, as a text.  The groups are formed by that text, and sorted by it.  `isSale` and
`isCancel` are the conditions of the queries, on the statuses as texts: what is neither is
counted nowhere.
-/

namespace ChickenOrder

open Relational

/-! ## The table -/

/-- The columns of `orders` that the report reads.  `createdAt` is in microseconds since
1970-01-01 UTC, the amount passes its `CHECK`. -/
structure SalesRow where
  storeId : Uuid
  status : RowStatus
  calculatedAmount : ℚ
  createdAt : ℤ
  amount_nonneg : 0 ≤ calculatedAmount

/-- The time zone of a session: what an instant is on the clock there, and back.  `DATE_TRUNC` and
`TO_CHAR` go by it. -/
structure SessionZone where
  toLocal : ℤ → ℤ
  fromLocal : ℤ → ℤ

/-- A session whose time zone is that of the stored times. -/
def SessionZone.utc : SessionZone := ⟨id, id⟩

/-! ## Periods -/

/-- The first argument of `DATE_TRUNC`. -/
inductive TruncUnit
  | day
  | week
  | month
  | quarter
  deriving DecidableEq

/-- The microseconds of a day. -/
def microsPerDay : ℤ := 86400000000

/-- `INTERVAL '9 hours'`. -/
def nineHours : ℤ := 32400000000

/-- The first day of a period; weeks begin on Monday, and day 0 was a Thursday.  Days are counted
from 1970. -/
def truncDay (unit : TruncUnit) (day : ℤ) : ℤ :=
  match unit with
  | .day => day
  | .week => day - (day + 3) % 7
  | .month => dayNumber ((civilDate day).1, (civilDate day).2.1, 1)
  | .quarter => dayNumber ((civilDate day).1, ((civilDate day).2.1 - 1) / 3 * 3 + 1, 1)

/-- `TO_CHAR(…, 'YYYY-MM-DD')`; years before the first are counted back from it. -/
def toCharDate : ℤ × ℕ × ℕ → String
  | (year, month, day) =>
      padZeros 4 (if 0 < year then year else 1 - year).toNat ++ "-" ++ padZeros 2 month ++ "-" ++
        padZeros 2 day

namespace SessionZone

variable (zone : SessionZone)

/-- The date of `DATE_TRUNC(unit, created_at + INTERVAL '9 hours')`, on the clock of the session. -/
def bucketDate (unit : TruncUnit) (createdAt : ℤ) : ℤ × ℕ × ℕ :=
  let localDay := zone.toLocal (createdAt + nineHours) / microsPerDay
  civilDate (zone.toLocal (zone.fromLocal (truncDay unit localDay * microsPerDay)) / microsPerDay)

/-- `period`: that date as a text, which the rows are grouped and sorted by. -/
def period (unit : TruncUnit) (createdAt : ℤ) : String := toCharDate (zone.bucketDate unit createdAt)

end SessionZone

/-! ## The handler -/

/-- A request at a time; `from` and `to` are what `new Date(…)` makes of them, in milliseconds. -/
structure SalesRequest where
  storeId : Option String
  fromDate : Option ℤ
  toDate : Option ℤ
  groupBy : Option String
  now : ℤ

/-- A row of the report's dates: a period, how many orders it has and what they come to. -/
structure SalesEntry where
  date : String
  count : ℕ
  finalAmount : ℚ

/-- A number of orders and what they come to. -/
structure SalesSum where
  count : ℕ
  amount : ℚ

/-- The report.  What the source fills with constants, the payments, the types and the discount, is
part of it. -/
structure SalesReport where
  totalCount : ℕ
  totalAmount : ℚ
  discountAmount : ℚ
  finalAmount : ℚ
  cancelCount : ℕ
  cancelAmount : ℚ
  taxableAmount : ℚ
  vat : ℚ
  byPayment : List (String × SalesSum)
  byType : List (String × SalesSum)
  byDate : List SalesEntry

/-- What the endpoint answers: a message for a missing store, or the report. -/
inductive SalesReply
  | refused (message : String)
  | report (r : SalesReport)

namespace SalesRequest

variable (request : SalesRequest)

/-- `fromDate`: thirty days ago by default. -/
def start : ℤ := request.fromDate.getD (request.now - 30 * 24 * 60 * 60 * 1000)

/-- `toDate`. -/
def stop : ℤ := request.toDate.getD request.now

/-- `gbSafe`.  What is none of the four words is taken for a day. -/
def unit : TruncUnit :=
  match request.groupBy.getD "" with
  | "week" => .week
  | "month" => .month
  | "quarter" => .quarter
  | _ => .day

/-- `store_id = $1 AND created_at >= $2 AND created_at <= $3`. -/
def Selects (store : Uuid) (row : SalesRow) : Prop :=
  row.storeId = store ∧ request.start * 1000 ≤ row.createdAt ∧ row.createdAt ≤ request.stop * 1000

instance (store : Uuid) (row : SalesRow) : Decidable (request.Selects store row) :=
  inferInstanceAs (Decidable (_ ∧ _ ∧ _))

/-- The condition of the first and the third query: every order that has been sent or completed, or
patched beyond that. -/
def isSale (store : Uuid) (row : SalesRow) : Bool :=
  request.Selects store row ∧ row.status.text ∉ ["FAILED", "CANCELLED", "QUEUED", "SAVED"]

/-- The condition of the second query.  An order that cost nothing is not counted. -/
def isCancel (store : Uuid) (row : SalesRow) : Bool :=
  request.Selects store row ∧ row.status.text = "CANCELLED" ∧ 0 < row.calculatedAmount

end SalesRequest

namespace PublicController

/-- `COUNT(*), COALESCE(SUM(calculated_amount), 0)`, exactly, as `NUMERIC` is. -/
def aggregate (rows : List SalesRow) : SalesSum where
  count := rows.length
  amount := (rows.map SalesRow.calculatedAmount).sum

/-- A row of the third query. -/
def salesEntry (group : String × List SalesRow) : SalesEntry where
  date := group.1
  count := (aggregate group.2).count
  finalAmount := (aggregate group.2).amount

/-- The reply for a store, with the groups that the third query has formed.  The totals come from
the other two. -/
def salesReport (request : SalesRequest) (store : Uuid) (orders : List SalesRow)
    (groups : List (String × List SalesRow)) : SalesReport :=
  let totals := aggregate (orders.filter (request.isSale store))
  let cancels := aggregate (orders.filter (request.isCancel store))
  let taxable : ℚ := Decimal.mathRound (totals.amount / (11 / 10))
  { totalCount := totals.count
    totalAmount := totals.amount
    discountAmount := 0
    finalAmount := totals.amount
    cancelCount := cancels.count
    cancelAmount := cancels.amount
    taxableAmount := taxable
    vat := totals.amount - taxable
    byPayment := [("card", ⟨0, 0⟩), ("cash", ⟨0, 0⟩)]
    byType := [("delivery", ⟨0, 0⟩), ("takeout", ⟨0, 0⟩), ("dineIn", ⟨0, 0⟩)]
    byDate := groups.map salesEntry }

/-- `getSales`, given the groups that the third query forms for a store. -/
def getSales (request : SalesRequest) (orders : List SalesRow)
    (groups : Uuid → List (String × List SalesRow)) : Except OrderError SalesReply := do
  if request.storeId.getD "" = "" then return .refused "storeId가 필요합니다."
  else
    let store ← uuidColumn (request.storeId.getD "")
    return .report (salesReport request store orders (groups store))

/-- What `getSales` may report of a table: `GROUP BY 1 ORDER BY 1` is by the text of the period, in
the database's collation. -/
def ReportsSales (collation : Collation) (zone : SessionZone) (orders : List SalesRow)
    (request : SalesRequest) (report : SalesReport) : Prop :=
  ∃ groups, (∀ store, IsGrouping orders (request.isSale store)
      (fun row => zone.period request.unit row.createdAt) collation (groups store)) ∧
    getSales request orders groups = .ok (.report report)

/-- A report is that of a store. -/
theorem ReportsSales.eq_salesReport {collation : Collation} {zone : SessionZone}
    {orders : List SalesRow} {request : SalesRequest} {report : SalesReport}
    (h : ReportsSales collation zone orders request report) :
    ∃ store groups, Uuid.ofText? (request.storeId.getD "") = some store ∧
      IsGrouping orders (request.isSale store)
        (fun row => zone.period request.unit row.createdAt) collation groups ∧
      report = salesReport request store orders groups := by
  obtain ⟨groups, hgroups, hreport⟩ := h
  unfold getSales uuidColumn at hreport
  split at hreport
  · cases hreport
  · cases hstore : Uuid.ofText? (request.storeId.getD "") with
    | none =>
        rw [hstore] at hreport
        cases hreport
    | some store =>
        rw [hstore] at hreport
        cases hreport
        exact ⟨store, groups store, rfl, hgroups store, rfl⟩

end PublicController

end ChickenOrder
