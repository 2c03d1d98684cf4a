import Mathlib.Data.List.Forall2
import Mathlib.Data.String.Basic
import ChickenOrder.Services.SalesReport

/-!
# The sales report adds up

The entries by period are groups of the rows that the totals count, so their counts and amounts
add up to the totals, and each order in range is a sale, a cancellation or neither.  The dates
increase as texts; as dates they do so as long as their years have four digits.

Sums are compared by `IsGrouping`: what is summed group by group is the sum over all rows.  The
order of the dates is a matter of texts, and `dateValue_lt` is where the four digits of the year
come in.

Three queries make up a report, and each could see another table if orders were written in
between; the statement is about one table, as the report is meant.  Amounts are added up
exactly, which is what `NUMERIC` does.
-/

namespace ChickenOrder

open Relational

/-! ## Dates as texts -/

/-- Four digits, two digits and two digits, with hyphens between them. -/
def IsDateText (s : String) : Prop :=
  List.Forall₂ (fun pattern c => if pattern = '-' then c = '-' else c.isDigit = true)
    "dddd-dd-dd".toList s.toList

/-- The date a text names, as the number of its digits: `20240301` for the first of March. -/
def dateValue (s : String) : ℕ := Nat.ofDigitChars 10 (s.toList.filter fun c => c ≠ '-') 0

/-- The database compares such texts digit by digit.  Of collations this is all that is asked. -/
def OrdersDates (collation : Collation) : Prop :=
  ∀ s t, IsDateText s → IsDateText t → collation.le s t = true → s ≤ t

section DateTexts

theorem toNat_of_isDigit {c : Char} (h : c.isDigit = true) : 48 ≤ c.toNat ∧ c.toNat ≤ 57 := by
  simp only [Char.isDigit, Bool.and_eq_true, decide_eq_true_eq, UInt32.le_iff_toNat_le] at h
  exact h

/-- What a number is followed by does not change its place among those of as many digits. -/
theorem ofDigitChars_bounds {cs : List Char} (hcs : ∀ c ∈ cs, c.isDigit) (acc : ℕ) :
    acc * 10 ^ cs.length ≤ Nat.ofDigitChars 10 cs acc ∧
      Nat.ofDigitChars 10 cs acc < (acc + 1) * 10 ^ cs.length := by
  induction cs generalizing acc with
  | nil => simp
  | cons c cs ih =>
      rw [List.forall_mem_cons] at hcs
      obtain ⟨hlow, hhigh⟩ := ih hcs.2 (10 * acc + (c.toNat - '0'.toNat))
      have hzero : '0'.toNat = 48 := rfl
      have hdigit := toNat_of_isDigit hcs.1
      rw [Nat.ofDigitChars_cons, List.length_cons, pow_succ]
      constructor
      · refine le_trans ?_ hlow
        calc acc * (10 ^ cs.length * 10) = 10 * acc * 10 ^ cs.length := by ring
          _ ≤ (10 * acc + (c.toNat - '0'.toNat)) * 10 ^ cs.length :=
            Nat.mul_le_mul_right _ (Nat.le_add_right _ _)
      · refine lt_of_lt_of_le hhigh ?_
        calc (10 * acc + (c.toNat - '0'.toNat) + 1) * 10 ^ cs.length
            ≤ (10 * (acc + 1)) * 10 ^ cs.length := Nat.mul_le_mul_right _ (by omega)
          _ = (acc + 1) * (10 ^ cs.length * 10) := by ring

/-- Digits against digits, hyphens against hyphens. -/
abbrev SameShape : List Char → List Char → Prop :=
  List.Forall₂ fun c d => c = '-' ∧ d = '-' ∨ c.isDigit = true ∧ d.isDigit = true

theorem sameShape_of_pattern {ps cs ds : List Char}
    (hcs : List.Forall₂ (fun p c => if p = '-' then c = '-' else c.isDigit = true) ps cs)
    (hds : List.Forall₂ (fun p c => if p = '-' then c = '-' else c.isDigit = true) ps ds) :
    SameShape cs ds := by
  induction hcs generalizing ds with
  | nil =>
      cases hds
      exact .nil
  | @cons p c ps cs hc hcs ih =>
      cases hds with
      | cons hd hds =>
          refine .cons ?_ (ih hds)
          by_cases hp : p = '-'
          · rw [if_pos hp] at hc hd
            exact .inl ⟨hc, hd⟩
          · rw [if_neg hp] at hc hd
            exact .inr ⟨hc, hd⟩

theorem ne_hyphen_of_isDigit {c : Char} (h : c.isDigit = true) : c ≠ '-' := by
  rintro rfl
  cases h

theorem SameShape.length_filter {cs ds : List Char} (h : SameShape cs ds) :
    (cs.filter fun c => c ≠ '-').length = (ds.filter fun c => c ≠ '-').length := by
  induction h with
  | nil => rfl
  | cons hhead _ ih =>
      rcases hhead with ⟨rfl, rfl⟩ | ⟨hc, hd⟩
      · simpa using ih
      · simpa [ne_hyphen_of_isDigit hc, ne_hyphen_of_isDigit hd] using ih

/-- Without the hyphens there are only digits. -/
theorem digits_of_shape {cs ds : List Char} (h : SameShape cs ds) :
    (∀ c ∈ cs.filter fun c => c ≠ '-', c.isDigit = true) ∧
      ∀ d ∈ ds.filter fun d => d ≠ '-', d.isDigit = true := by
  induction h with
  | nil => exact ⟨nofun, nofun⟩
  | cons hhead _ ih =>
      rcases hhead with ⟨rfl, rfl⟩ | ⟨hc, hd⟩
      · simpa using ih
      · rw [List.filter_cons_of_pos (by simpa using ne_hyphen_of_isDigit hc),
          List.filter_cons_of_pos (by simpa using ne_hyphen_of_isDigit hd)]
        exact ⟨List.forall_mem_cons.mpr ⟨hc, ih.1⟩, List.forall_mem_cons.mpr ⟨hd, ih.2⟩⟩

/-- Of two texts of one shape, the one that comes first is the smaller number. -/
theorem SameShape.value_lt {cs ds : List Char} (h : SameShape cs ds) (hlt : cs < ds) (acc : ℕ) :
    Nat.ofDigitChars 10 (cs.filter fun c => c ≠ '-') acc <
      Nat.ofDigitChars 10 (ds.filter fun c => c ≠ '-') acc := by
  induction h generalizing acc with
  | nil => exact absurd hlt (List.not_lt_nil [])
  | @cons c d cs ds hhead htail ih =>
      rcases hhead with ⟨rfl, rfl⟩ | ⟨hc, hd⟩
      · simpa using ih ((List.cons_lt_cons_iff.mp hlt).resolve_left (Char.lt_irrefl _)).2 acc
      · rw [List.filter_cons_of_pos (by simpa using ne_hyphen_of_isDigit hc),
          List.filter_cons_of_pos (by simpa using ne_hyphen_of_isDigit hd), Nat.ofDigitChars_cons,
          Nat.ofDigitChars_cons]
        rcases List.cons_lt_cons_iff.mp hlt with hfirst | ⟨rfl, hrest⟩
        · -- the first digit that differs decides
          have hdigits : c.toNat < d.toNat := by
            rw [Char.lt_def, UInt32.lt_iff_toNat_lt] at hfirst
            exact hfirst
          have hzero : '0'.toNat = 48 := rfl
          have hlow := toNat_of_isDigit hc
          have hlength := SameShape.length_filter htail
          have hbelow := (ofDigitChars_bounds (digits_of_shape htail).1
            (10 * acc + (c.toNat - '0'.toNat))).2
          have habove := (ofDigitChars_bounds (digits_of_shape htail).2
            (10 * acc + (d.toNat - '0'.toNat))).1
          refine lt_of_lt_of_le hbelow (le_trans ?_ habove)
          rw [hlength]
          exact Nat.mul_le_mul_right _ (by omega)
        · exact ih hrest _

/-- Of two dates in the order of their texts, the first is the earlier one. -/
theorem dateValue_lt {s t : String} (hs : IsDateText s) (ht : IsDateText t) (hlt : s < t) :
    dateValue s < dateValue t :=
  (sameShape_of_pattern hs ht).value_lt (String.lt_iff_toList_lt.mp hlt) 0

/-- A date of a year with at most four digits is printed as such a text. -/
theorem isDateText_toCharDate {date : ℤ × ℕ × ℕ} (hyear : 1 ≤ date.1 ∧ date.1 ≤ 9999)
    (hmonth : date.2.1 < 100) (hday : date.2.2 < 100) : IsDateText (toCharDate date) := by
  obtain ⟨year, month, day⟩ := date
  simp only at hyear hmonth hday
  have hpositive : 0 < year := by omega
  obtain ⟨hyears, hyearDigits, -⟩ := padZeros_spec (by omega)
    (show year.toNat < 10 ^ 4 by omega)
  obtain ⟨hmonths, hmonthDigits, -⟩ := padZeros_spec (by omega) (show month < 10 ^ 2 from hmonth)
  obtain ⟨hdays, hdayDigits, -⟩ := padZeros_spec (by omega) (show day < 10 ^ 2 from hday)
  -- a run of digits matches as many places of the pattern
  have hdigits : ∀ {n : ℕ} {cs : List Char}, cs.length = n → (∀ c ∈ cs, c.isDigit) →
      List.Forall₂ (fun p c => if p = '-' then c = '-' else c.isDigit = true)
        (List.replicate n 'd') cs := by
    rintro n cs rfl hcs
    induction cs with
    | nil => exact .nil
    | cons c cs ih =>
        rw [List.forall_mem_cons] at hcs
        rw [List.length_cons, List.replicate_succ]
        exact .cons hcs.1 (ih hcs.2)
  have hhyphen : List.Forall₂ (fun p c => if p = '-' then c = '-' else c.isDigit = true)
      ['-'] "-".toList := .cons rfl .nil
  unfold IsDateText toCharDate
  simp only [if_pos hpositive, String.toList_append]
  have hpattern : "dddd-dd-dd".toList = List.replicate 4 'd' ++ ['-'] ++ List.replicate 2 'd' ++
      ['-'] ++ List.replicate 2 'd' := by decide
  rw [hpattern]
  refine List.rel_append (List.rel_append (List.rel_append (List.rel_append ?_ hhyphen) ?_) hhyphen) ?_
  · exact hdigits hyears hyearDigits
  · exact hdigits hmonths hmonthDigits
  · exact hdigits hdays hdayDigits

end DateTexts

/-! ## The orders of a report -/

/-- How an order enters the report. -/
inductive SalesKind
  | sale
  | cancellation
  | uncounted
  deriving DecidableEq

/-- What the report counts a row as.  An order that was cancelled and costs nothing is not counted
at all. -/
def SalesRow.kind (row : SalesRow) : SalesKind :=
  match row.status with
  | .worker .queued => .uncounted
  | .worker .saved => .uncounted
  | .worker .failed => .uncounted
  | .pos .cancelled => if row.calculatedAmount = 0 then .uncounted else .cancellation
  | _ => .sale

/-- What is not counted: failures, orders on their way, and cancellations that cost nothing. -/
theorem SalesRow.kind_eq_uncounted_iff (row : SalesRow) : row.kind = .uncounted ↔
    row.status = .worker .failed ∨ row.status = .worker .queued ∨ row.status = .worker .saved ∨
      row.status = .pos .cancelled ∧ row.calculatedAmount = 0 := by
  unfold SalesRow.kind
  cases hstatus : row.status with
  | worker s => cases s <;> simp
  | pos s =>
      cases s with
      | cancelled => by_cases hzero : row.calculatedAmount = 0 <;> simp [hzero]
      | _ => simp

namespace SalesRequest

variable (request : SalesRequest) (store : Uuid)

/-- The first and the third query count the sales. -/
theorem isSale_eq (row : SalesRow) :
    request.isSale store row = (decide (request.Selects store row) && decide (row.kind = .sale)) := by
  rw [isSale, Bool.decide_and]
  congr 1
  rw [decide_eq_decide]
  unfold SalesRow.kind RowStatus.text
  cases row.status with
  | worker s => cases s <;> simp [OrderStatus.text]
  | pos s =>
      cases s with
      | cancelled => by_cases hzero : row.calculatedAmount = 0 <;> simp [PosStatus.text, hzero]
      | _ => simp [PosStatus.text]

/-- The second query counts the cancellations. -/
theorem isCancel_eq (row : SalesRow) : request.isCancel store row =
    (decide (request.Selects store row) && decide (row.kind = .cancellation)) := by
  rw [isCancel, Bool.decide_and]
  congr 1
  rw [decide_eq_decide, row.amount_nonneg.lt_iff_ne]
  unfold SalesRow.kind RowStatus.text
  cases row.status with
  | worker s => cases s <;> simp [OrderStatus.text]
  | pos s =>
      cases s with
      | cancelled => by_cases hzero : row.calculatedAmount = 0 <;> simp [PosStatus.text, hzero, Ne.symm]
      | _ => simp [PosStatus.text]

/-- The orders of the store in the range that enter the report in one way. -/
def ofKind (orders : List SalesRow) (kind : SalesKind) : List SalesRow :=
  orders.filter fun row => decide (request.Selects store row) && decide (row.kind = kind)

/-- **Each order in the range has one kind**, so that the counts of the three kinds add up to all of
them. -/
theorem length_ofKind (orders : List SalesRow) :
    (orders.filter fun row => request.Selects store row).length =
      (request.ofKind store orders .sale).length + (request.ofKind store orders .cancellation).length +
        (request.ofKind store orders .uncounted).length := by
  unfold ofKind
  induction orders with
  | nil => rfl
  | cons row orders ih =>
      by_cases hselects : request.Selects store row
      · cases hkind : row.kind <;> simp [hselects, hkind, ih] <;> omega
      · simpa [hselects] using ih

end SalesRequest

namespace PublicController

/-- The dates of the entries increase. -/
def DatesIncrease (report : SalesReport) : Prop :=
  report.byDate.Pairwise fun a b => dateValue a.date < dateValue b.date

/-- What adds up in a report for a store: the entries to the totals, the tax and what was taxed to
the final amount, and the kinds to the orders of the range. -/
structure AddsUp (zone : SessionZone) (orders : List SalesRow) (request : SalesRequest) (store : Uuid)
    (report : SalesReport) : Prop where
  dates : (∀ row ∈ request.ofKind store orders .sale,
      1 ≤ (zone.bucketDate request.unit row.createdAt).1 ∧
        (zone.bucketDate request.unit row.createdAt).1 ≤ 9999) → DatesIncrease report
  counts : (report.byDate.map SalesEntry.count).sum = report.totalCount
  amounts : (report.byDate.map SalesEntry.finalAmount).sum = report.totalAmount
  taxes : report.taxableAmount + report.vat = report.finalAmount
  final : report.finalAmount = report.totalAmount
  sales : ⟨report.totalCount, report.totalAmount⟩ = aggregate (request.ofKind store orders .sale)
  cancels : ⟨report.cancelCount, report.cancelAmount⟩ =
    aggregate (request.ofKind store orders .cancellation)
  once : (orders.filter fun row => request.Selects store row).length =
    report.totalCount + report.cancelCount + (request.ofKind store orders .uncounted).length
  uncounted : ∀ row ∈ orders, row.kind = .uncounted ↔
    row.status = .worker .failed ∨ row.status = .worker .queued ∨ row.status = .worker .saved ∨
      row.status = .pos .cancelled ∧ row.calculatedAmount = 0

section SalesReport

variable {collation : Collation} {zone : SessionZone} {orders : List SalesRow}
variable {request : SalesRequest} {store : Uuid} {groups : List (String × List SalesRow)}

/-- The periods are distinct texts in order, and as long as they are dates, dates in order. -/
theorem datesIncrease_of_isGrouping (hcollation : OrdersDates collation)
    (h : IsGrouping orders (request.isSale store)
      (fun row => zone.period request.unit row.createdAt) collation groups)
    (hyears : ∀ row ∈ request.ofKind store orders .sale,
      1 ≤ (zone.bucketDate request.unit row.createdAt).1 ∧
        (zone.bucketDate request.unit row.createdAt).1 ≤ 9999) :
    (groups.map Prod.fst).Pairwise fun s t => dateValue s < dateValue t := by
  have htext : ∀ s ∈ groups.map Prod.fst, IsDateText s := by
    intro s hs
    obtain ⟨g, hg, rfl⟩ := List.mem_map.mp hs
    obtain ⟨row, hrow, hsale, hkey⟩ := h.exists_row hg
    rw [request.isSale_eq] at hsale
    obtain ⟨hmonth, hday, -⟩ := civilDate_spec _
    rw [← hkey]
    exact isDateText_toCharDate (hyears row (List.mem_filter.mpr ⟨hrow, hsale⟩)) hmonth hday
  refine (h.sorted.and h.keys_nodup).imp_of_mem fun {s t} hs ht hst => ?_
  have hle := hcollation s t (htext s hs) (htext t ht) hst.1
  exact dateValue_lt (htext s hs) (htext t ht) (lt_of_le_of_ne hle hst.2)

theorem datesIncrease_iff : DatesIncrease (salesReport request store orders groups) ↔
    (groups.map Prod.fst).Pairwise fun s t => dateValue s < dateValue t := by
  unfold DatesIncrease salesReport
  rw [List.pairwise_map, List.pairwise_map]
  rfl

/-- The report of any groups that the query forms adds up. -/
theorem addsUp_salesReport (hcollation : OrdersDates collation)
    (h : IsGrouping orders (request.isSale store)
      (fun row => zone.period request.unit row.createdAt) collation groups) :
    AddsUp zone orders request store (salesReport request store orders groups) := by
  have hsales : orders.filter (request.isSale store) = request.ofKind store orders .sale :=
    List.filter_congr fun row _ => request.isSale_eq store row
  have hcancels : orders.filter (request.isCancel store) = request.ofKind store orders .cancellation :=
    List.filter_congr fun row _ => request.isCancel_eq store row
  constructor
  · exact fun hyears => datesIncrease_iff.mpr (datesIncrease_of_isGrouping hcollation h hyears)
  · show ((groups.map salesEntry).map SalesEntry.count).sum =
      (orders.filter (request.isSale store)).length
    rw [List.map_map, ← h.length_eq]
    rfl
  · show ((groups.map salesEntry).map SalesEntry.finalAmount).sum =
      ((orders.filter (request.isSale store)).map SalesRow.calculatedAmount).sum
    rw [List.map_map, ← h.sum_eq SalesRow.calculatedAmount]
    rfl
  · exact add_sub_cancel _ _
  · rfl
  · rw [← hsales]
    rfl
  · rw [← hcancels]
    rfl
  · rw [request.length_ofKind, ← hsales, ← hcancels]
    rfl
  · exact fun row _ => row.kind_eq_uncounted_iff

/-- There is a report for every store. -/
theorem exists_reportsSales (collation : Collation) (zone : SessionZone) (orders : List SalesRow)
    (hstore : Uuid.ofText? (request.storeId.getD "") = some store) :
    ∃ report, ReportsSales collation zone orders request report := by
  choose groups hgroups using fun store => exists_isGrouping orders (request.isSale store)
    (fun row => zone.period request.unit row.createdAt) collation
  refine ⟨salesReport request store orders (groups store), groups, hgroups, ?_⟩
  have hnonempty : request.storeId.getD "" ≠ "" := by
    intro hempty
    rw [hempty] at hstore
    cases hstore
  rw [getSales, if_neg hnonempty, uuidColumn, hstore]
  rfl

end SalesReport

/-- **The sales report adds up.**  Whatever the orders, the zone of the session and the request:
the entries add up to the totals, tax and taxable amount to the final amount, and each order in
the range is a sale, a cancellation or neither.  The dates increase if the years of the periods
have at most four digits. -/
theorem sales_add_up {collation : Collation} {zone : SessionZone} {orders : List SalesRow}
    {request : SalesRequest} {report : SalesReport} (hcollation : OrdersDates collation)
    (h : ReportsSales collation zone orders request report) :
    ∃ store, Uuid.ofText? (request.storeId.getD "") = some store ∧
      AddsUp zone orders request store report := by
  obtain ⟨store, groups, hstore, hgroups, rfl⟩ := h.eq_salesReport
  exact ⟨store, hstore, addsUp_salesReport hcollation hgroups⟩

theorem ordersDates_codePoints : OrdersDates .codePoints :=
  fun _ _ _ _ hle => of_decide_eq_true hle

/-- The orders of one store. -/
def salesRow (status : RowStatus) (amount : ℕ) (createdAt : ℤ) : SalesRow where
  storeId := ⟨1⟩
  status := status
  calculatedAmount := amount
  createdAt := createdAt
  amount_nonneg := Nat.cast_nonneg amount

/-- A request for all times. -/
def salesRequest (groupBy : String) : SalesRequest where
  storeId := some (Uuid.toText ⟨1⟩)
  fromDate := some 0
  toDate := some 300000000000000
  groupBy := some groupBy
  now := 0

/-- The report of a month, with one sale and one cancellation. -/
theorem sales_add_up_month :
    ∃ report, ReportsSales .codePoints .utc
        [salesRow (.worker .completed) 18000 1709251200000000, salesRow (.pos .cancelled) 0 0]
        (salesRequest "month") report ∧
      ∃ store, Uuid.ofText? (Uuid.toText ⟨1⟩) = some store ∧
        AddsUp .utc [salesRow (.worker .completed) 18000 1709251200000000, salesRow (.pos .cancelled) 0 0]
          (salesRequest "month") store report := by
  have hstore : Uuid.ofText? ((salesRequest "month").storeId.getD "") = some ⟨1⟩ :=
    Uuid.ofText?_toText ⟨1⟩
  obtain ⟨report, hreport⟩ := exists_reportsSales .codePoints .utc
    [salesRow (.worker .completed) 18000 1709251200000000, salesRow (.pos .cancelled) 0 0] hstore
  exact ⟨report, hreport, sales_add_up ordersDates_codePoints hreport⟩

/-- The year in which an order was created, in the zone of the session. -/
def createdIn (zone : SessionZone) (row : SalesRow) : ℤ :=
  (civilDate (zone.toLocal row.createdAt / microsPerDay)).1

/-- Two orders of the last day of the year 9999, at ten and at sixteen o'clock UTC. -/
def lastDayOrders : List SalesRow :=
  [salesRow (.worker .completed) 100 253402250400000000,
    salesRow (.worker .completed) 200 253402272000000000]

/-- Of two distinct dates in the same two orders, one comes first in both. -/
theorem first_of_pairwise {R S : String → String → Prop} {dates : List String} {s t : String}
    (hR : dates.Pairwise R) (hS : dates.Pairwise S) (hs : s ∈ dates) (ht : t ∈ dates) (hne : s ≠ t) :
    R s t ∧ S s t ∨ R t s ∧ S t s := by
  let both : String → String → Prop := fun x y => R x y ∧ S x y ∨ R y x ∧ S y x
  have hsymm : Std.Symm both := ⟨fun _ _ h => h.symm⟩
  have hboth : dates.Pairwise both := (hR.and hS).imp .inl
  exact hboth.forall hs ht hne

/-- The entry of the year 10000 comes first, being the smaller text. -/
theorem not_datesIncrease_of_lastDay :
    ¬ ∀ (collation : Collation) (zone : SessionZone) (orders : List SalesRow)
      (request : SalesRequest) (report : SalesReport), OrdersDates collation →
        (∀ row ∈ orders, 1 ≤ createdIn zone row ∧ createdIn zone row ≤ 9999) →
          ReportsSales collation zone orders request report → DatesIncrease report := by
  intro h
  have hstore : Uuid.ofText? ((salesRequest "day").storeId.getD "") = some ⟨1⟩ :=
    Uuid.ofText?_toText ⟨1⟩
  obtain ⟨report, hreport⟩ := exists_reportsSales .codePoints .utc lastDayOrders hstore
  have hincrease := h _ _ _ _ _ ordersDates_codePoints (by decide +kernel) hreport
  obtain ⟨store, groups, hstore', hgroups, rfl⟩ := hreport.eq_salesReport
  obtain rfl : store = ⟨1⟩ := Option.some.inj (hstore'.symm.trans hstore)
  have hdates := datesIncrease_iff.mp hincrease
  have hperiods : lastDayOrders.map (fun row =>
      SessionZone.utc.period (salesRequest "day").unit row.createdAt) =
        ["9999-12-31", "10000-01-01"] := by decide +kernel
  have hmem : ∀ s ∈ ["9999-12-31", "10000-01-01"], s ∈ groups.map Prod.fst := by
    rw [← hperiods]
    intro s hs
    obtain ⟨row, hrow, rfl⟩ := List.mem_map.mp hs
    have hsale : ∀ row ∈ lastDayOrders, (salesRequest "day").isSale ⟨1⟩ row = true := by
      decide +kernel
    exact hgroups.mem_keys row hrow (hsale row hrow)
  obtain ⟨hle, -⟩ | ⟨-, hlt⟩ := first_of_pairwise hgroups.sorted hdates
    (hmem "9999-12-31" (by simp)) (hmem "10000-01-01" (by simp)) (by decide)
  · exact absurd hle (by decide +kernel)
  · exact absurd hlt (by decide +kernel)

end PublicController

end ChickenOrder
