import ChickenOrder.Guarantees.Ledger
import ChickenOrder.Services.DlqListing
import ChickenOrder.Services.OrderReads

/-!
# Lists of orders

The point of sale loads a store's orders from three lists that differ in the rows they select,
and the administrator pages through the dead letters.  A list shows the latest rows up to its
limit, each with a total that is what its items cost.  The pages of dead letters are read one by
one: they show an order once if its whole group of equal times is on one page.

What a query returns is a relation, so that a list may show any of several rows of one time.
The pages of dead letters are requests of their own and may each break ties in another way;
`Relational.existsUnique_page_iff` says what that comes to for any table.
-/

namespace ChickenOrder

open Interaction Relational

/-! ## The latest orders -/

/-- The list shows the latest of the selected rows, up to the limit: each once, none that is older
than one left out, and all of them if there is room. -/
structure ShowsLatest (db : Database) (storeId : Uuid) (shown : OrderRow → Bool)
    (key : OrderRow → Time) (limit : ℕ) (rows : List OrderRow) : Prop where
  selected : ∀ row ∈ rows, row ∈ db.orders.rows ∧ row.storeId = storeId ∧ shown row = true
  nodup : (rows.map OrderRow.id).Nodup
  sorted : rows.Pairwise fun row row' => key row' ≤ key row
  /-- What is left out is not later, and is left out because the list is full. -/
  rest : ∀ row ∈ db.orders.rows, row.storeId = storeId → shown row = true → row ∉ rows →
    rows.length = limit ∧ ∀ row' ∈ rows, key row ≤ key row'
  length : rows.length ≤ limit

/-- The total of an order is the sum of what its list of items says. -/
def FormattedOrder.AddsUp (order : FormattedOrder) : Prop :=
  order.total = (order.items.map fun item => item.price * (item.quantity : ℚ)).sum ∧
    order.amount = order.total

namespace PublicController

variable {db : Database} {storeId : Uuid} {shown : OrderRow → Bool} {key : OrderRow → Time}
variable {limit : ℕ}

/-- Every result of the query shows the latest. -/
theorem SelectsOrders.showsLatest {rows : List OrderRow}
    (h : SelectsOrders db storeId shown key limit rows) :
    ShowsLatest db storeId shown key limit rows := by
  have hrows : db.orders.rows.Nodup := .of_map _ db.orders.pk_nodup
  refine ⟨fun row hrow => h.mem hrow, ?_, ?_, ?_, ?_⟩
  · refine List.Nodup.map_on (fun row hrow row' hrow' hid => ?_) (IsWindow.nodup h hrows)
    exact List.inj_on_of_nodup_map db.orders.pk_nodup (h.mem hrow).1 (h.mem hrow').1 hid
  · exact (IsWindow.sorted h).imp fun h => of_decide_eq_true h
  · intro row hrow hstore hshown hout
    obtain ⟨hfull, hearlier⟩ := IsWindow.le_of_not_mem h hrow (by simp [hstore, hshown]) hout
    exact ⟨hfull, fun row' hrow' => of_decide_eq_true (hearlier row' hrow')⟩
  · rw [IsWindow.length_eq h]
    exact min_le_left _ _

/-- What the items of an order cost. -/
def itemsCost (db : Database) (orderId : Uuid) : ℚ :=
  ((fetchItems db orderId).map fun item => item.unitPrice * (item.quantity : ℚ)).sum

/-- The amount of a balanced record is what its items cost. -/
theorem calculatedAmount_eq_itemsCost {row : OrderRow} (hrow : row ∈ db.orders.rows)
    (hbalanced : (db.recordOf row.id).Balanced) : row.calculatedAmount = itemsCost db row.id := by
  have hfind : db.orders.find? row.id = some row := Table.find?_eq_some_iff.mpr ⟨hrow, rfl⟩
  have hlines : ((db.recordOf row.id).items.map OrderItemRow.subtotal).sum =
      ((db.recordOf row.id).items.map fun item => item.unitPrice * (item.quantity : ℚ)).sum :=
    congrArg List.sum (List.map_congr_left hbalanced.lines)
  exact (hbalanced.calculated row hfind).trans hlines

/-- A balanced record adds up as it is shown. -/
theorem addsUp_formatOrder {row : OrderRow} (hrow : row ∈ db.orders.rows)
    (hbalanced : (db.recordOf row.id).Balanced) : (formatOrder db row).AddsUp := by
  refine ⟨?_, rfl⟩
  show row.calculatedAmount = (((fetchItems db row.id).map _).map _).sum
  rw [calculatedAmount_eq_itemsCost hrow hbalanced, List.map_map]
  rfl

end PublicController

/-- **The lists of a run.**  In every run that starts without orders and with conforming menus, and
in which workers work on jobs of the queue, each list of a store shows its latest orders, and the
items of each order add up to its total.  This holds of every answer that the list's query allows. -/
theorem latest_of_reaches {config : AppConfig} {P₀ P : OrderPool}
    (hinit : ∀ i, P₀.threads i = none) (hfresh : P₀.world.Fresh)
    (hmenus : ∀ menu ∈ P₀.world.db.menus, menu.Conforms)
    (h : (catalogSystem config).Reaches WorksOnQueue P₀ P) {text : String}
    {shown : OrderRow → Bool} {key : OrderRow → Time} {limit : ℕ} {body : OrderList}
    (hbody : PublicController.ListsOrders P.world.db (some text) shown key limit (.ok body))
    (hok : body.ok = true) :
    ∃ storeId rows, uuidColumn text = .ok storeId ∧
      ShowsLatest P.world.db storeId shown key limit rows ∧
      body.orders = rows.map (PublicController.formatOrder P.world.db) ∧
      ∀ order ∈ body.orders, order.AddsUp ∧
        P.world.db.reportedStatus order.id = some order.status := by
  have hpriced : ∀ data, HasPublished P data → data.Priced :=
    fun data hdata => (hdata.validated hinit hfresh hmenus h).priced
  have hstems := (hasPublished_of_reaches hinit hfresh.stemsFrom h).1
  obtain ⟨storeId, rows, hstore, hrows, horders⟩ := hbody.of_ok hok
  refine ⟨storeId, rows, hstore, hrows.showsLatest, horders, ?_⟩
  rw [horders]
  intro order horder
  refine ⟨?_, hrows.reportedStatus horder⟩
  obtain ⟨row, hrow, rfl⟩ := List.mem_map.mp horder
  exact PublicController.addsUp_formatOrder (hrows.mem hrow).1
    ((hstems.records row.id).balanced hpriced)

/-- The list of the completed order's store. -/
def completedList : OrderList where
  ok := true
  orders := (PublicController.selectOrders completedPool.world.db
    ⟨0x11111111111111111111111111111111⟩ (fun o => 5 < o.createdAt + PublicController.day)
    OrderRow.createdAt 100).map (PublicController.formatOrder completedPool.world.db)

theorem getsOrders_completed :
    PublicController.GetsOrders completedPool.world.db (some seedCommand.storeId) 5
      (.ok completedList) := by
  have hstore : uuidColumn seedCommand.storeId = .ok ⟨0x11111111111111111111111111111111⟩ := by
    decide +kernel
  exact (PublicController.listsOrders_iff hstore).mpr
    ⟨_, PublicController.selectsOrders_selectOrders _ _ _ _ _, rfl⟩

theorem latest_of_reaches_completed : completedList.orders.map FormattedOrder.total = [18000] ∧
    ∀ order ∈ completedList.orders, order.AddsUp := by
  obtain ⟨storeId, rows, -, -, -, hall⟩ := latest_of_reaches (fun _ => rfl) World.fresh_seed
    Database.seed_conforms (.after completedRun_admitted completedRun_replays) getsOrders_completed rfl
  exact ⟨by decide +kernel, fun order horder => (hall order horder).1⟩

/-! ## Pages of dead letters -/

/-- The query for another page. -/
def DlqQuery.onPage (query : DlqQuery) (n : ℕ) : DlqQuery := { query with page := some (toString n) }

section Pages

variable {db : Database} {query : DlqQuery} {store : Option Uuid} {limit : ℕ} {row : OrderRow}

/-- Pages are numbered from one. -/
theorem pageNumber_onPage (n : ℕ) (fallback : ℤ) :
    AdminController.pageNumber (query.onPage (n + 1)).page fallback = some (n + 1 : ℤ) := by
  have htext : toString (n + 1) ≠ "" := by
    intro hempty
    have hparse := Decimal.parseInt?_toString (n + 1)
    rw [hempty] at hparse
    cases hparse
  unfold AdminController.pageNumber DlqQuery.onPage
  simp only [truthyText?, htext, if_false]
  exact Decimal.parseInt?_toString (n + 1)

/-- The page begins where the one before it ends. -/
theorem pageBounds_onPage (n : ℕ) (hlimit : 0 < limit) :
    OrderRepository.pageBounds (some (n + 1 : ℤ)) (some (limit : ℤ)) =
      .ok (n * limit, some limit) := by
  have hoffset : ((n + 1 : ℤ) - 1) * limit = ((n * limit : ℕ) : ℤ) := by
    rw [add_sub_cancel_right, Nat.cast_mul]
  unfold OrderRepository.pageBounds
  simp only [hoffset, Int.toNat_natCast]
  rw [if_neg (by omega), if_neg (by omega), if_neg (by omega)]

/-- What a page shows. -/
theorem answersDlqOrders_onPage_iff (hstore : (truthyText? query.storeId).mapM uuidColumn = .ok store)
    (hlimit : AdminController.pageNumber query.limit 20 = some (limit : ℤ)) (hpos : 0 < limit)
    {n : ℕ} {answer : DlqAnswer} :
    AdminService.AnswersDlqOrders db (query.onPage (n + 1)) answer ↔
      ∃ rows, IsWindow db.orders.rows
          (OrderRepository.isDeadLetter store query.fromDate query.toDate)
          OrderRepository.latestDeadLetter (n * limit) limit rows ∧
        answer = ⟨rows.map AdminService.dlqEntry,
          (db.orders.rows.filter (OrderRepository.isDeadLetter store query.fromDate
            query.toDate)).length, some (n + 1 : ℤ)⟩ := by
  have hpage := @pageNumber_onPage query n 1
  unfold AdminService.AnswersDlqOrders OrderRepository.FindsFailedOrders
  rw [hpage]
  show (∃ store' rows, (truthyText? query.storeId).mapM uuidColumn = .ok store' ∧
    (∃ offset bound, OrderRepository.pageBounds (some (n + 1 : ℤ))
      (AdminController.pageNumber query.limit 20) = .ok (offset, bound) ∧ _) ∧ _) ↔ _
  rw [hstore, hlimit, pageBounds_onPage n hpos]
  constructor
  · rintro ⟨_, rows, hstore', ⟨_, _, hbounds, htotal, hwindow⟩, hitems, hpage⟩
    cases hstore'
    cases hbounds
    refine ⟨rows, hwindow, ?_⟩
    obtain ⟨items, total, page⟩ := answer
    dsimp only at hitems htotal hpage
    rw [hitems, htotal, hpage]
    rfl
  · rintro ⟨rows, hwindow, rfl⟩
    exact ⟨store, rows, rfl, ⟨_, _, rfl, rfl, hwindow⟩, rfl, rfl⟩

/-- A page shows the order if it shows its row. -/
theorem mem_map_dlqEntry {rows : List OrderRow} (hrow : row ∈ db.orders.rows)
    (hrows : ∀ row' ∈ rows, row' ∈ db.orders.rows) :
    row.id ∈ (rows.map AdminService.dlqEntry).map DlqEntry.orderId ↔ row ∈ rows := by
  rw [List.map_map, List.mem_map]
  constructor
  · rintro ⟨row', hrow', hid⟩
    obtain rfl := List.inj_on_of_nodup_map db.orders.pk_nodup (hrows row' hrow') hrow hid
    exact hrow'
  · intro hmem
    exact ⟨row, hmem, rfl⟩

/-- **Paging through the dead letters.**  With a positive limit a failed order is on exactly one
page, whatever order the database gives to equal times on each request, if and only if no page
boundary runs between the orders that went to the dead letter queue at its time. -/
theorem dlqPages_exact_iff (hstore : (truthyText? query.storeId).mapM uuidColumn = .ok store)
    (hlimit : AdminController.pageNumber query.limit 20 = some (limit : ℤ)) (hpos : 0 < limit)
    (hrow : row ∈ db.orders.rows)
    (hdead : OrderRepository.isDeadLetter store query.fromDate query.toDate row = true) :
    (∀ answers : ℕ → DlqAnswer,
        (∀ n, AdminService.AnswersDlqOrders db (query.onPage (n + 1)) (answers n)) →
        ∃! n, row.id ∈ (answers n).items.map DlqEntry.orderId) ↔
      ∀ n, ¬ Straddles db.orders.rows
        (OrderRepository.isDeadLetter store query.fromDate query.toDate)
        OrderRepository.latestDeadLetter (n * limit) row := by
  have hnodup : db.orders.rows.Nodup := .of_map _ db.orders.pk_nodup
  have hanswers := fun n answer =>
    @answersDlqOrders_onPage_iff db query store limit hstore hlimit hpos n answer
  rw [← existsUnique_page_iff hnodup hrow hdead hpos]
  constructor
  · intro hexact pages hpages
    have hmem : ∀ n, row.id ∈ ((pages n).map AdminService.dlqEntry).map DlqEntry.orderId ↔
        row ∈ pages n := fun n => mem_map_dlqEntry hrow fun row' hrow' => ((hpages n).mem hrow').1
    simpa only [hmem] using hexact (fun n => ⟨(pages n).map AdminService.dlqEntry, _, _⟩)
      fun n => (hanswers n _).mpr ⟨pages n, hpages n, rfl⟩
  · intro hexact answers hall
    choose pages hpages hitems using fun n => (hanswers n _).mp (hall n)
    have hmem : ∀ n, row.id ∈ (answers n).items.map DlqEntry.orderId ↔ row ∈ pages n := by
      intro n
      rw [hitems n]
      exact mem_map_dlqEntry hrow fun row' hrow' => ((hpages n).mem hrow').1
    simpa only [hmem] using hexact pages hpages

end Pages

/-! ### Three dead letters, one to a page -/

/-- An order that failed and went to the dead letter queue at a time.  Nothing else of it matters
for the list. -/
def deadRow (n : ℕ) (dlqAt : Time) : OrderRow where
  id := ⟨n⟩
  idempotencyKey := "key-" ++ toString n
  traceId := "trace"
  storeId := ⟨0x11111111111111111111111111111111⟩
  userId := none
  status := .worker .failed
  requestedAmount := 18000
  calculatedAmount := 18000
  version := 1
  posResponse := .null
  posErrorMessage := none
  retryCount := 2
  dlqAt := some dlqAt
  failureReason := some "POS 오류"
  createdAt := 1
  queuedAt := 1
  savedAt := none
  sentToPosAt := none
  completedAt := none
  failedAt := some dlqAt
  updatedAt := none

/-- The first two went there together. -/
def deadLetters : Database where
  stores := Database.seed.stores
  menus := Database.seed.menus
  orders := ⟨[deadRow 1 5, deadRow 2 5, deadRow 3 4], by decide +kernel, by decide +kernel⟩
  orderItems := []
  transitions := []

/-- A page holds one order. -/
def oneToAPage : DlqQuery := ⟨none, none, none, none, some "1"⟩

/-- The third order is on one page, the first can be on two or none, depending on how the database
orders the two of one time for each request. -/
theorem dlqPages_exact_iff_ties :
    (∀ answers : ℕ → DlqAnswer,
      (∀ n, AdminService.AnswersDlqOrders deadLetters (oneToAPage.onPage (n + 1)) (answers n)) →
      ∃! n, (⟨3⟩ : Uuid) ∈ (answers n).items.map DlqEntry.orderId) ∧
    ¬ ∀ answers : ℕ → DlqAnswer,
      (∀ n, AdminService.AnswersDlqOrders deadLetters (oneToAPage.onPage (n + 1)) (answers n)) →
      ∃! n, (⟨1⟩ : Uuid) ∈ (answers n).items.map DlqEntry.orderId := by
  have hlimit : AdminController.pageNumber oneToAPage.limit 20 = some ((1 : ℕ) : ℤ) := by
    decide +kernel
  constructor
  · refine (@dlqPages_exact_iff deadLetters oneToAPage none 1 (deadRow 3 4) rfl hlimit one_pos
      (List.mem_cons_of_mem _ (List.mem_cons_of_mem _ List.mem_cons_self)) (by decide +kernel)).mpr ?_
    rintro n ⟨hbelow, hupto⟩
    have hbelow' : rankBelow deadLetters.orders.rows (OrderRepository.isDeadLetter none none none)
        OrderRepository.latestDeadLetter (deadRow 3 4) = 2 := by decide +kernel
    have hupto' : rankUpto deadLetters.orders.rows (OrderRepository.isDeadLetter none none none)
        OrderRepository.latestDeadLetter (deadRow 3 4) = 3 := by decide +kernel
    rw [show oneToAPage.fromDate = none from rfl, show oneToAPage.toDate = none from rfl] at hbelow hupto
    omega
  · intro hexact
    exact (@dlqPages_exact_iff deadLetters oneToAPage none 1 (deadRow 1 5) rfl hlimit one_pos
      List.mem_cons_self (by decide +kernel)).mp hexact 1 (by decide +kernel)

end ChickenOrder
