import ChickenOrder.Guarantees.SalesTotals
import ChickenOrder.Services.LegacyXml

/-!
# The business date of an order

The sales report shifts the time of creation by nine hours before it takes the day, the legacy
point of sale is told the day of the dispatch in UTC.  On one Korean day the two dates are the
same exactly from nine o'clock in the morning on.

Both sides print a date of the proleptic Gregorian calendar, the one with hyphens and the other
without, and both are compared through their digits (`dateDigits_inj`).  What is left is
arithmetic on instants: the Korean day is the UTC day of the instant nine hours later.
-/

namespace ChickenOrder

open Relational

/-! ## Printed dates -/

/-- `s` with every hyphen replaced by nothing. -/
def withoutHyphens (s : String) : String := String.ofList (s.toList.filter fun c => c ≠ '-')

/-- The text of an element. -/
def Xml.content : Xml → Option String
  | .element _ [.text s] => some s
  | _ => none

/-- `ORDER_DATE` of an order, as the legacy point of sale reads it. -/
def Xml.orderDate (xml : Xml) : Option String := (xml.child "ORDER_DATE").bind Xml.content

/-- It is the day of the dispatch, without hyphens. -/
@[simp] theorem LegacyV1PosAdapter.orderDate_buildXml (order : DomainOrder) (createdAt : ℤ) :
    (LegacyV1PosAdapter.buildXml order createdAt).orderDate = some (compactDate createdAt) := by
  simp [LegacyV1PosAdapter.buildXml, Xml.orderDate, Xml.child, Xml.children, Xml.name?, Xml.content]

section Printed

theorem ofDigitChars_padZeros (width n : ℕ) :
    Nat.ofDigitChars 10 (padZeros width n).toList 0 = n := by
  unfold padZeros List.leftpad
  rw [String.toList_ofList, Nat.ofDigitChars_append, Nat.ofDigitChars_replicate_zero, Nat.mul_zero,
    Nat.ofDigitChars_ten_toDigits]

theorem isDigit_of_mem_padZeros {width n : ℕ} {c : Char} (h : c ∈ (padZeros width n).toList) :
    c.isDigit = true := by
  unfold padZeros List.leftpad at h
  rw [String.toList_ofList, List.mem_append] at h
  rcases h with h | h
  · rw [List.eq_of_mem_replicate h]
    rfl
  · exact Nat.isDigit_of_mem_toDigits (by omega) (by omega) h

/-- The digits of a year, a month and a day, which is how both dates are printed but for hyphens. -/
def dateDigits (date : ℤ × ℕ × ℕ) : List Char :=
  (padZeros 4 date.1.toNat).toList ++ ((padZeros 2 date.2.1).toList ++ (padZeros 2 date.2.2).toList)

variable {date date' : ℤ × ℕ × ℕ}

theorem isDigit_of_mem_dateDigits {c : Char} (h : c ∈ dateDigits date) : c.isDigit = true := by
  rcases List.mem_append.mp h with h | h
  · exact isDigit_of_mem_padZeros h
  · rcases List.mem_append.mp h with h | h
    · exact isDigit_of_mem_padZeros h
    · exact isDigit_of_mem_padZeros h

/-- Read as a number, they are the year, the month and the day in their places. -/
theorem ofDigitChars_dateDigits (hmonth : date.2.1 < 100) (hday : date.2.2 < 100) :
    Nat.ofDigitChars 10 (dateDigits date) 0 = date.1.toNat * 10000 + date.2.1 * 100 + date.2.2 := by
  obtain ⟨hmonths, -, -⟩ := padZeros_spec (by omega) (show date.2.1 < 10 ^ 2 from hmonth)
  obtain ⟨hdays, -, -⟩ := padZeros_spec (by omega) (show date.2.2 < 10 ^ 2 from hday)
  unfold dateDigits
  rw [Nat.ofDigitChars_append, Nat.ofDigitChars_append, ofDigitChars_padZeros,
    Nat.ofDigitChars_eq_ofDigitChars_zero, hdays, ofDigitChars_padZeros,
    Nat.ofDigitChars_eq_ofDigitChars_zero, hmonths, ofDigitChars_padZeros]
  ring

/-- The digits of a date of our era are those of no other. -/
theorem dateDigits_inj (hyear : 0 ≤ date.1) (hyear' : 0 ≤ date'.1) (hmonth : date.2.1 < 100)
    (hday : date.2.2 < 100) (hmonth' : date'.2.1 < 100) (hday' : date'.2.2 < 100)
    (h : dateDigits date = dateDigits date') : date = date' := by
  have hvalue := ofDigitChars_dateDigits hmonth hday
  rw [h, ofDigitChars_dateDigits hmonth' hday'] at hvalue
  obtain ⟨year, month, day⟩ := date
  obtain ⟨year', month', day'⟩ := date'
  simp only at hyear hyear' hmonth hday hmonth' hday' hvalue
  obtain ⟨rfl, rfl, rfl⟩ : year = year' ∧ month = month' ∧ day = day' := by omega
  rfl

/-- Days from 1970 on have positive years. -/
theorem year_pos {day : ℤ} (h : 0 ≤ day) : 0 < (civilDate day).1 := by
  obtain ⟨hmonth, hdate, hnumber⟩ := civilDate_spec day
  generalize civilDate day = date at hmonth hdate hnumber
  obtain ⟨year, month, dayOfMonth⟩ := date
  simp only [dayNumber] at hmonth hdate hnumber ⊢
  by_contra hyear
  generalize hy : (if month ≤ 2 then year - 1 else year) = y at hnumber
  generalize hm : (if 2 < month then month - 3 else month + 9) = m at hnumber
  have hy' : y ≤ 0 := by
    rw [← hy]
    split <;> omega
  have hm' : m ≤ 108 := by
    rw [← hm]
    split <;> omega
  have hrest : (y % 400).toNat < 400 := by omega
  have hera : y / 400 ≤ -1 ∨ y / 400 = 0 ∧ (y % 400).toNat = 0 := by omega
  have hmonths : (153 * m + 2) / 5 ≤ 3306 := by omega
  unfold daysBefore at hnumber
  generalize (y % 400).toNat = r at hnumber hrest hera
  generalize (153 * m + 2) / 5 = k at hnumber hmonths
  generalize y / 400 = era at hnumber hera
  omega

/-- What the report prints, without its hyphens, is these digits. -/
theorem toList_withoutHyphens (hyear : 0 < date.1) :
    (withoutHyphens (toCharDate date)).toList = dateDigits date := by
  obtain ⟨year, month, day⟩ := date
  have hfilter : ∀ {width n : ℕ}, (padZeros width n).toList.filter (fun c => c ≠ '-') =
      (padZeros width n).toList :=
    filter_hyphen_of_digits fun c hc => isDigit_of_mem_padZeros hc
  unfold withoutHyphens toCharDate dateDigits
  simp only [if_pos hyear, String.toList_ofList, String.toList_append, List.filter_append, hfilter]
  simp

/-- **When a printed day is the day of the bucket.** The XML prints the first ten characters of an
ISO date, which are the whole date only up to the year 9999. -/
theorem compactDate_eq_iff {t day : ℤ} (ht : 0 ≤ t) (hday : 0 ≤ day) :
    compactDate t = withoutHyphens (toCharDate (civilDate day)) ↔
      t / 86400000 = day ∧ (civilDate day).1 ≤ 9999 := by
  have hyear := year_pos hday
  have hyear' := year_pos (Int.ediv_nonneg ht (by omega : (0 : ℤ) ≤ 86400000))
  -- up to the year 9999 both write the same eight digits
  have hshort : (civilDate (t / 86400000)).1 ≤ 9999 →
      (compactDate t).toList = dateDigits (civilDate (t / 86400000)) :=
    fun hle => compactDate_toList ⟨by omega, hle⟩
  constructor
  · intro h
    have hdigits : (compactDate t).toList = dateDigits (civilDate day) := by
      rw [h, toList_withoutHyphens hyear]
    by_cases hle : (civilDate (t / 86400000)).1 ≤ 9999
    · rw [hshort hle] at hdigits
      obtain ⟨hmonth, hdate, hnumber⟩ := civilDate_spec (t / 86400000)
      obtain ⟨hmonth', hdate', hnumber'⟩ := civilDate_spec day
      have hsame := dateDigits_inj (by omega) (by omega) hmonth hdate hmonth' hdate' hdigits
      exact ⟨by rw [← hnumber, hsame, hnumber'], hsame ▸ hle⟩
    · -- a longer year is printed with its sign
      have hplus : '+' ∈ (compactDate t).toList := by
        unfold compactDate isoDate
        generalize civilDate (t / 86400000) = date at hle hyear'
        obtain ⟨year, month, dayOfMonth⟩ := date
        simp only at hle hyear'
        have hlong : ¬ (0 ≤ year ∧ year ≤ 9999) := by omega
        have hpositive : ¬ year < 0 := by omega
        simp only [if_neg hlong, if_neg hpositive]
        simp [String.toList_append]
      rw [hdigits] at hplus
      cases isDigit_of_mem_dateDigits hplus
  · rintro ⟨rfl, hle⟩
    refine String.toList_inj.mp ?_
    rw [hshort hle, toList_withoutHyphens hyear]

end Printed

/-! ## The two dates of an order -/

/-- The instants, the first in microseconds and the second in milliseconds, are on one day in Korea,
that is nine hours ahead of UTC. -/
def SameKoreanDay (createdAt : ℤ) (sentAt : Time) : Prop :=
  (createdAt + nineHours) / microsPerDay = ((sentAt : ℤ) * 1000 + nineHours) / microsPerDay

instance (createdAt : ℤ) (sentAt : Time) : Decidable (SameKoreanDay createdAt sentAt) :=
  inferInstanceAs (Decidable (_ = _))

/-- In a session in UTC the bucket of a day is that of the shifted instant. -/
theorem bucketDate_utc_day (createdAt : ℤ) :
    SessionZone.utc.bucketDate .day createdAt = civilDate ((createdAt + nineHours) / microsPerDay) := by
  have hday : (createdAt + nineHours) / microsPerDay * microsPerDay / microsPerDay =
      (createdAt + nineHours) / microsPerDay := Int.mul_ediv_cancel _ (by decide)
  unfold SessionZone.bucketDate SessionZone.utc truncDay
  simp only [id_eq, hday]

/-- **When the dates of the point of sale and of the report agree.**  For an order that is
created and sent on one Korean day, the date in the XML is that of the group in which the report
by days counts it exactly if it is sent before 15:00 UTC, up to the year 9999. -/
theorem orderDate_eq_bucket_iff {collation : Collation} {orders : List SalesRow}
    {request : SalesRequest} {store : Uuid} {groups : List (String × List SalesRow)}
    (hgroups : IsGrouping orders (request.isSale store)
      (fun row => SessionZone.utc.period request.unit row.createdAt) collation groups)
    (hunit : request.unit = .day) {group : String × List SalesRow} (hgroup : group ∈ groups)
    {row : SalesRow} (hrow : row ∈ group.2) (order : DomainOrder) {sentAt : Time}
    (hday : SameKoreanDay row.createdAt sentAt) :
    (LegacyV1PosAdapter.buildXml order sentAt).orderDate = some (withoutHyphens group.1) ↔
      sentAt % 86400000 < 54000000 ∧ (civilDate (sentAt / 86400000)).1 ≤ 9999 := by
  have hkey : SessionZone.utc.period request.unit row.createdAt = group.1 :=
    hgroups.key_eq hgroup hrow
  have hbucket : withoutHyphens group.1 =
      withoutHyphens (toCharDate (civilDate (((sentAt : ℤ) * 1000 + nineHours) / microsPerDay))) := by
    rw [← hkey, hunit, SessionZone.period, bucketDate_utc_day, hday]
  have hnonneg : 0 ≤ ((sentAt : ℤ) * 1000 + nineHours) / microsPerDay := by
    unfold nineHours microsPerDay
    omega
  have hshift : ∀ t : ℕ, (t : ℤ) / 86400000 = ((t : ℤ) * 1000 + nineHours) / microsPerDay ↔
      t % 86400000 < 54000000 := by
    intro t
    unfold nineHours microsPerDay
    omega
  rw [LegacyV1PosAdapter.orderDate_buildXml, Option.some.injEq, hbucket,
    compactDate_eq_iff (Int.natCast_nonneg sentAt) hnonneg, hshift sentAt]
  refine and_congr_right fun hearly => ?_
  rw [← (hshift sentAt).mpr hearly]

/-- Each sale is in a group of the report. -/
theorem exists_group {orders : List SalesRow} {row : SalesRow} (request : SalesRequest) {store : Uuid}
    (hrow : row ∈ orders) (hsale : request.isSale store row = true) :
    ∃ groups group, IsGrouping orders (request.isSale store)
      (fun row => SessionZone.utc.period request.unit row.createdAt) Collation.codePoints groups ∧
        group ∈ groups ∧ row ∈ group.2 := by
  obtain ⟨groups, hgroups⟩ := exists_isGrouping orders (request.isSale store)
    (fun row => SessionZone.utc.period request.unit row.createdAt) Collation.codePoints
  obtain ⟨group, ⟨hgroup, hmem⟩, -⟩ := hgroups.existsUnique hrow hsale
  exact ⟨groups, group, hgroups, hgroup, hmem⟩

/-- An order of 18000 that is sent a second after it was created. -/
def sentOrder : DomainOrder where
  orderId := ⟨3⟩
  traceId := "trace"
  storeId := Uuid.toText ⟨1⟩
  idempotencyKey := "key"
  totalAmount := "18000.00"
  items := []

/-- At noon UTC on 2024-03-01. -/
def noonOrder : SalesRow := PublicController.salesRow (.worker .completed) 18000 1709294400000000

theorem orderDate_eq_bucket_iff_noon :
    ∃ groups group, IsGrouping [noonOrder] ((PublicController.salesRequest "day").isSale ⟨1⟩)
        (fun row => SessionZone.utc.period (PublicController.salesRequest "day").unit row.createdAt)
        Collation.codePoints groups ∧
      group ∈ groups ∧ noonOrder ∈ group.2 ∧
      (LegacyV1PosAdapter.buildXml sentOrder (1709294401000 : ℕ)).orderDate =
        some (withoutHyphens group.1) := by
  have hsale : (PublicController.salesRequest "day").isSale ⟨1⟩ noonOrder = true := by decide +kernel
  obtain ⟨groups, group, hgroups, hgroup, hmem⟩ :=
    exists_group (PublicController.salesRequest "day") (List.mem_singleton_self noonOrder) hsale
  exact ⟨groups, group, hgroups, hgroup, hmem, (orderDate_eq_bucket_iff hgroups rfl hgroup hmem sentOrder
    (by decide +kernel)).mpr (by decide +kernel)⟩

/-- At 16:00 UTC on that day, which is one in the morning of the next in Korea. -/
def nightOrder : SalesRow := PublicController.salesRow (.worker .completed) 18000 1709308800000000

/-- At night in Korea they are not: the point of sale is told the day before. -/
theorem not_orderDate_eq_bucket_of_night :
    ¬ ∀ (collation : Collation) (orders : List SalesRow) (request : SalesRequest) (store : Uuid)
      (groups : List (String × List SalesRow)),
      IsGrouping orders (request.isSale store)
        (fun row => SessionZone.utc.period request.unit row.createdAt) collation groups →
      request.unit = .day → ∀ group ∈ groups, ∀ row ∈ group.2,
        ∀ (order : DomainOrder) (sentAt : Time), SameKoreanDay row.createdAt sentAt →
          (LegacyV1PosAdapter.buildXml order sentAt).orderDate = some (withoutHyphens group.1) := by
  intro h
  have hsale : (PublicController.salesRequest "day").isSale ⟨1⟩ nightOrder = true := by decide +kernel
  obtain ⟨groups, group, hgroups, hgroup, hmem⟩ :=
    exists_group (PublicController.salesRequest "day") (List.mem_singleton_self nightOrder) hsale
  have hdate := h _ _ _ _ _ hgroups rfl group hgroup nightOrder hmem sentOrder 1709308801000
    (by decide +kernel)
  have hkey : SessionZone.utc.period (PublicController.salesRequest "day").unit nightOrder.createdAt =
      group.1 := hgroups.key_eq hgroup hmem
  rw [← hkey, LegacyV1PosAdapter.orderDate_buildXml] at hdate
  exact absurd hdate (by decide +kernel)

end ChickenOrder
