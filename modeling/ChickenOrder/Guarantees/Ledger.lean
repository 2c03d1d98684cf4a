import ChickenOrder.Guarantees.AtMostOnce
import ChickenOrder.Guarantees.Money
import ChickenOrder.Guarantees.Provenance
import ChickenOrder.Relational.Query

/-!
# The books of a run

`Money` follows one request from its text to its rows.  Here the books are kept over a whole
run: whatever is in the tables then, each order's two amounts are what its stored items cost,
all orders together are worth all items together, and a point of sale has been asked for no
other amount than the one on record.

The items of a job need not be storable (a validated quantity can be a fraction), so amounts are
compared only once `createOrder` has taken the items; an execution faces the point of sale after
that, `records_of_reaches`.
-/

namespace ChickenOrder

open Interaction Interaction.Program
open CreateOrderService ProcessOrderService Decimal

/-! ## The books -/

/-- The amounts of an order are what its items cost, to the hundredth and without rounding.  An
order id without a row has no items either. -/
structure OrderRecord.Balanced (r : OrderRecord) : Prop where
  calculated : ∀ row, r.row = some row → row.calculatedAmount = (r.items.map OrderItemRow.subtotal).sum
  requested : ∀ row, r.row = some row → row.requestedAmount = row.calculatedAmount
  lines : ∀ item ∈ r.items, item.subtotal = item.unitPrice * item.quantity
  unowned : r.row = .none → r.items = []

/-- The order is on record, with these items and at this amount.  The rows carry the prices of the
day of the order, and later changes of the menu do not reach them. -/
def Database.Bills (db : Database) (order : DomainOrder) : Prop :=
  ∃ row, db.orders.find? order.orderId = some row ∧
    ofText? order.totalAmount = some row.calculatedAmount ∧
    List.Forall₂ (OrderItem.StoredAs order.orderId) order.items (db.recordOf order.orderId).items

/-- The books of all places where an amount is written down agree: each order with its items, all
orders with all items, and each request to a point of sale with the order it is for. -/
structure World.Balanced (w : World) : Prop where
  records : ∀ id, (w.db.recordOf id).Balanced
  total : (w.db.orders.rows.map OrderRow.calculatedAmount).sum =
    (w.db.orderItems.map OrderItemRow.subtotal).sum
  posted : ∀ post ∈ w.posInbox, w.db.Bills post.1.order

/-- Every item belongs to an order. -/
theorem Database.orderId_mem {db : Database} (h : ∀ id, (db.recordOf id).Balanced)
    {item : OrderItemRow} (hitem : item ∈ db.orderItems) :
    item.orderId ∈ db.orders.rows.map OrderRow.id := by
  by_contra habsent
  have hnoItems : db.orderItems.filter (fun other => other.orderId = item.orderId) = [] :=
    (h item.orderId).unowned (Relational.Table.find?_eq_none_iff.mpr habsent)
  have hmem : item ∈ db.orderItems.filter fun other => other.orderId = item.orderId :=
    List.mem_filter.mpr ⟨hitem, decide_eq_true rfl⟩
  rw [hnoItems] at hmem
  cases hmem

/-- Books that balance order by order balance altogether.  Each item belongs to one order, so that
the items can be summed up by their orders. -/
theorem Database.sum_calculatedAmount {db : Database} (h : ∀ id, (db.recordOf id).Balanced) :
    (db.orders.rows.map OrderRow.calculatedAmount).sum =
      (db.orderItems.map OrderItemRow.subtotal).sum := by
  have hrow : ∀ row ∈ db.orders.rows, row.calculatedAmount =
      ((db.orderItems.filter fun item => item.orderId = row.id).map OrderItemRow.subtotal).sum :=
    fun row hrow => (h row.id).calculated row (Relational.Table.find?_eq_some_iff.mpr ⟨hrow, rfl⟩)
  have howned : (db.orderItems.filter fun item => item.orderId ∈ db.orders.rows.map OrderRow.id) =
      db.orderItems :=
    List.filter_eq_self.mpr fun item hitem => decide_eq_true (orderId_mem h hitem)
  calc (db.orders.rows.map OrderRow.calculatedAmount).sum
      = ((db.orders.rows.map OrderRow.id).map fun id => ((db.orderItems.filter fun item =>
          item.orderId = id).map OrderItemRow.subtotal).sum).sum := by
        rw [List.map_map]
        exact congrArg List.sum (List.map_congr_left hrow)
    _ = ((db.orderItems.filter fun item => item.orderId ∈ db.orders.rows.map OrderRow.id).map
          OrderItemRow.subtotal).sum := Relational.sum_keys db.orders.pk_nodup _ _ _
    _ = (db.orderItems.map OrderItemRow.subtotal).sum := by rw [howned]

/-! ## One order -/

/-- What the validation has found out about the amounts of a job. -/
structure OrderJobPayload.Priced (data : OrderJobPayload) : Prop where
  items : ∀ item ∈ data.items, item.Conforms
  requested : checkAmount data.requestedAmount (addItems 0 data.items) = .ok ()
  calculated : data.calculatedAmount = (addItems 0 data.items).toFixed2

/-- A job that was validated and published has been found so, as the payload is made of what the
validation returned. -/
theorem HasValidated.priced {P : OrderPool} {data : OrderJobPayload} (h : HasValidated P data) :
    data.Priced := by
  obtain ⟨i, t, cmd, ctx, answer, amount, items, -, -, -, hanswer, hvalid, rfl⟩ := h
  obtain ⟨found, -, -, hcheck, hamount⟩ := validateItems_eq_ok_iff.mp hvalid
  exact ⟨conforms_of_validateItems hanswer hvalid, hcheck, hamount⟩

section Order

variable {data : OrderJobPayload} {row : OrderRow} {rows : List OrderItemRow}

/-- Items that are stored have whole quantities. -/
theorem exact_of_storedAs {orderId : Uuid} {items : List OrderItem}
    (hitems : ∀ item ∈ items, item.Conforms)
    (hrows : List.Forall₂ (OrderItem.StoredAs orderId) items rows) : ∀ item ∈ items, item.Exact := by
  intro item hitem
  obtain ⟨i, hi, rfl⟩ := List.getElem_of_mem hitem
  obtain ⟨n, hn, -⟩ := (hitems _ hitem).unitPrice
  have hrow := hrows.get hi (hrows.length_eq ▸ hi)
  rw [List.get_eq_getElem] at hrow
  obtain ⟨hquantity, hpos, -⟩ := quantityColumn_eq_ok_iff.mp hrow.quantity
  obtain ⟨k, hk⟩ := Int.eq_ofNat_of_zero_le (Int.le_of_lt hpos)
  exact ⟨⟨n, hn⟩, k, by rw [hquantity, hk, Int.cast_natCast]⟩

/-- Stored lines are price times quantity. -/
theorem subtotal_eq_of_storedAs {orderId : Uuid} {items : List OrderItem}
    (hexact : ∀ item ∈ items, item.Exact)
    (hrows : List.Forall₂ (OrderItem.StoredAs orderId) items rows) :
    ∀ item ∈ rows, item.subtotal = item.unitPrice * item.quantity := by
  induction hrows with
  | nil => simp
  | cons hrow _ ih =>
      intro item hmem
      obtain rfl | hmem := List.mem_cons.mp hmem
      · have hsubtotal := hrow.subtotal_eq (hexact _ List.mem_cons_self)
        obtain ⟨n, hn⟩ := (hexact _ List.mem_cons_self).unitPrice
        rw [hsubtotal, hn.amountColumn_eq hrow.unitPrice, (quantityColumn_eq_ok_iff.mp hrow.quantity).1]
        rfl
      · exact ih (fun other hother => hexact other (List.mem_cons_of_mem _ hother)) item hmem

/-- With whole quantities and an amount that is stored, the job's two amounts are the total of its
items. -/
theorem OrderJobPayload.Priced.amounts (h : data.Priced) (hexact : ∀ item ∈ data.items, item.Exact)
    (hfits : ∃ q, ofText? data.requestedAmount = some q ∧ FitsAmount q) :
    ofText? data.requestedAmount = some (itemsTotal data.items) ∧
      data.calculatedAmount = toFixed2 (itemsTotal data.items) := by
  have hfinite : ∀ item ∈ data.items, ∃ q, item.quantity = .finite q := by
    intro item hitem
    obtain ⟨k, hk⟩ := (hexact item hitem).quantity
    exact ⟨k, hk⟩
  have hcheck := h.requested
  have hcalculated := h.calculated
  rw [addItems_finite hfinite] at hcheck hcalculated
  have hrequested := checkAmount_finite_iff.mp hcheck
  obtain ⟨q, hread, hfits⟩ := hfits
  rw [hrequested, Option.some.injEq] at hread
  rw [roundedTotal_eq_of_fits hexact (hread ▸ hfits)] at hrequested hcalculated
  exact ⟨hrequested, hcalculated⟩

/-- An order that is stored from a validated job balances.  Whatever the validation rounds is exact
for quantities that the column takes. -/
theorem OrderJobPayload.Priced.recorded (h : data.Priced) (hrecorded : data.RecordedAs row)
    (hrows : List.Forall₂ (OrderItem.StoredAs data.orderId) data.items rows) :
    row.calculatedAmount = (rows.map OrderItemRow.subtotal).sum ∧
      row.requestedAmount = row.calculatedAmount ∧
      ofText? data.calculatedAmount = some row.calculatedAmount := by
  have hexact := exact_of_storedAs h.items hrows
  obtain ⟨hrequested, hcalculated⟩ := h.amounts hexact
    (amountTextColumn_ok_iff.mp ⟨_, hrecorded.requestedAmount⟩)
  obtain ⟨n, hn⟩ := itemsTotal_cents hexact
  have hamount : row.calculatedAmount = itemsTotal data.items :=
    hn.amountTextColumn_eq (hcalculated ▸ hrecorded.calculatedAmount)
  refine ⟨hamount.trans (sum_subtotal hrows hexact).symm, ?_, ?_⟩
  · obtain ⟨q, hread, hcolumn⟩ := amountTextColumn_eq_ok_iff.mp hrecorded.requestedAmount
    rw [hrequested, Option.some.injEq] at hread
    subst hread
    rw [hamount, hn.amountColumn_eq hcolumn]
  · rw [hcalculated, hn.ofText?_toFixed2, hamount]

/-- A record that stems from priced jobs balances. -/
theorem OrderRecord.StemsFrom.balanced {r : OrderRecord} {D : OrderJobPayload → Prop}
    (h : r.StemsFrom D) (hpriced : ∀ data, D data → data.Priced) : r.Balanced where
  calculated := by
    intro row hrow
    obtain ⟨data, hdata, hrecorded, hrows⟩ := h.stored row hrow
    exact ((hpriced data hdata).recorded hrecorded hrows).1
  requested := by
    intro row hrow
    obtain ⟨data, hdata, hrecorded, hrows⟩ := h.stored row hrow
    exact ((hpriced data hdata).recorded hrecorded hrows).2.1
  lines := by
    cases hrow : r.row with
    | none =>
        rw [h.unowned hrow]
        simp
    | some row =>
        obtain ⟨data, hdata, -, hrows⟩ := h.stored row hrow
        exact subtotal_eq_of_storedAs (exact_of_storedAs (hpriced data hdata).items hrows) hrows
  unowned := h.unowned

end Order

/-! ## Orders on record -/

/-- The job's order is on record, with its own data. -/
def Database.Records (db : Database) (data : OrderJobPayload) : Prop :=
  ∃ row, db.orders.find? data.orderId = some row ∧ data.RecordedAs row ∧
    List.Forall₂ (OrderItem.StoredAs data.orderId) data.items (db.recordOf data.orderId).items

section Records

variable {db db' : Database} {data : OrderJobPayload}

/-- What keeps the rows keeps the order on record. -/
theorem Database.KeepsOrders.records (hkeeps : db.KeepsOrders db') (h : db.Records data) :
    db'.Records data := by
  obtain ⟨row, hrow, hrecorded, hstored⟩ := h
  have hitems : (db'.recordOf data.orderId).items = (db.recordOf data.orderId).items := by
    show db'.orderItems.filter _ = db.orderItems.filter _
    rw [hkeeps.items]
  unfold Records
  rw [hitems]
  obtain hsame | ⟨old, new, hold, hnew, hsame⟩ := hkeeps.rows data.orderId
  · exact ⟨row, hsame.trans hrow, hrecorded, hstored⟩
  · obtain rfl : row = old := Option.some.inj (hrow.symm.trans hold)
    exact ⟨new, hnew, hrecorded.of_same hsame, hstored⟩

/-- Another order's insertion leaves it there. -/
theorem Database.Records.createOrder {p : CreateOrderParams} {now : Time}
    (hcreated : db.createOrder p now = .ok (true, db')) (h : db.Records data) : db'.Records data := by
  obtain ⟨row, hrow, hrecorded, hstored⟩ := h
  have hne : p.id ≠ data.orderId := by
    intro hid
    obtain ⟨new, -, hpk, -, hnew, -⟩ := createOrder_eq_ok_true hcreated
    refine hpk ?_
    rw [(proposes_of_toRow hnew).id, hid]
    exact List.mem_map.mpr ⟨row, Relational.Table.find?_eq_some_iff.mp hrow⟩
  have hother := (createOrder_recordOf hcreated).2 data.orderId hne
  refine ⟨row, ?_, hrecorded, ?_⟩
  · exact (congrArg OrderRecord.row hother).trans hrow
  · rw [hother]
    exact hstored

theorem Database.Records.exec {w : World} (h : w.db.Records data) (o : Op) (c : Choice) :
    (o.exec c w).2.db.Records data := by
  obtain ⟨p, -, hcreated⟩ | hkeeps := o.exec_orders c w
  · exact h.createOrder hcreated
  · exact hkeeps.records h

/-- An insertion puts it there, where nothing was kept under its id. -/
theorem Database.records_of_createOrder {jobMeta : JobMeta} {now : Time}
    (hcreated : db.createOrder (createParams data jobMeta) now = .ok (true, db'))
    (hunowned : (db.recordOf data.orderId).row = none → (db.recordOf data.orderId).items = []) :
    db'.Records data := by
  obtain ⟨row, rows, hpk, huk, hrow, -, -⟩ := createOrder_eq_ok_true hcreated
  have hfree : (db.recordOf data.orderId).row = none := by
    show db.orders.find? data.orderId = none
    rw [← (recordedAs_of_toRow hrow).id]
    exact Relational.Table.find?_eq_none_iff.mpr hpk
  obtain ⟨⟨row', rows', hrow', hrows', hrecord⟩, -⟩ := createOrder_recordOf hcreated
  replace hrecord : db'.recordOf data.orderId = _ := hrecord
  refine ⟨row', congrArg OrderRecord.row hrecord, recordedAs_of_toRow hrow', ?_⟩
  rw [hrecord]
  show List.Forall₂ _ data.items ((db.recordOf data.orderId).items ++ rows')
  rw [hunowned hfree, List.nil_append]
  exact hrows'

/-- A validated order on record is billed at its amount. -/
theorem Database.Records.bills (h : db.Records data) (hpriced : data.Priced) :
    db.Bills (domainOrder data) := by
  obtain ⟨row, hrow, hrecorded, hstored⟩ := h
  exact ⟨row, hrow, (hpriced.recorded hrecorded hstored).2.2, hstored⟩

end Records

/-! ## Runs -/

section Runs

variable {config : AppConfig} {P₀ P : OrderPool}

/-- **What an execution has inserted stays on record.** The rows are those of its own job, since its
`createOrder` has answered that it inserted them. -/
theorem records_of_reaches (hinit : ∀ i, P₀.threads i = none) (hfresh : P₀.world.Fresh)
    (h : (catalogSystem config).Reaches WorksOnQueue P₀ P) {i : ℕ} {t : OrderThread}
    (ht : P.threads i = some t) {data : OrderJobPayload} {jobMeta : JobMeta}
    (hinserted : insertAnswered data jobMeta true ∈ t.hist) : P.world.db.Records data := by
  refine System.facts_of_reaches
    (fun e w => ∀ data jobMeta, e = insertAnswered data jobMeta true → w.db.Records data)
    hinit ?_ ?_ h i t ht _ hinserted data jobMeta rfl
  · intro P i c t o k hreach _ _ _ data jobMeta he
    obtain ⟨rfl, hanswer⟩ := Event.mk.inj he
    have hstems := (hasPublished_of_reaches hinit hfresh.stemsFrom hreach).1
    exact Database.records_of_createOrder (Op.exec_createOrder_eq_ok (eq_of_heq hanswer))
      (hstems.records data.orderId).unowned
  · intro P ℓ P' e _ _ hstep hold data jobMeta he
    have hbefore := hold data jobMeta he
    obtain ⟨i, q, rfl, -, rfl⟩ | ⟨i, c, t, o, k, rfl, -, -, rfl⟩ | ⟨e, w, rfl, hw, rfl⟩ :=
      (catalogSystem config).step_cases hstep
    · exact hbefore
    · exact hbefore.exec o c
    · cases hw
      exact (e.keepsOrders P.world).records hbefore

/-- Uploads of menus do not disturb executions. -/
theorem respects_executions_of_fresh (hinit : ∀ i, P₀.threads i = none) (hfresh : P₀.world.Fresh) :
    executions.Respects (catalogSystem config) WorksOnQueue P₀ where
  admits := fun _ _ _ _ => trivial
  allows := by
    intro P i c t o k hreach _ ht _ data jobMeta _ hins hmissing
    obtain ⟨row, hrow, -, -⟩ := records_of_reaches hinit hfresh hreach ht hins
    obtain ⟨rfl, hanswer⟩ := Event.mk.inj hmissing
    have hnone := Op.exec_findById_eq_ok (eq_of_heq hanswer)
    unfold Database.findOrder? at hnone
    rw [hrow] at hnone
    cases hnone

/-- What is sent to a point of sale is on record.  An execution stores the order before it makes its
call, and no later step takes rows away. -/
theorem records_of_posted (hinit : ∀ i, P₀.threads i = none) (hfresh : P₀.world.Fresh)
    (h : (catalogSystem config).Reaches WorksOnQueue P₀ P) :
    ∀ post ∈ P.world.posInbox, ∃ data, HasPublished P data ∧ post.1.order = domainOrder data ∧
      P.world.db.Records data := by
  refine System.Reaches.invariant (I := fun P => ∀ post ∈ P.world.posInbox, ∃ data,
    HasPublished P data ∧ post.1.order = domainOrder data ∧ P.world.db.Records data) ?_ ?_ h
  · intro post hpost
    rw [hfresh.posInbox] at hpost
    cases hpost
  · intro P ℓ P' hreach hposted hok hstep
    obtain ⟨i, q, rfl, -, rfl⟩ | ⟨i, c, t, o, k, rfl, ht, hrest, rfl⟩ | ⟨e, w, rfl, hw, rfl⟩ :=
      (catalogSystem config).step_cases hstep
    · intro post hpost
      obtain ⟨data, hdata, horder, hrecords⟩ := hposted post hpost
      exact ⟨data, hdata.step hstep, horder, hrecords⟩
    · intro post hpost
      replace hpost : post ∈ (o.exec c P.world).2.posInbox := hpost
      have hold : post ∈ P.world.posInbox →
          ∃ data, HasPublished ((catalogSystem config).advance P i c t o k) data ∧
          post.1.order = domainOrder data ∧ (o.exec c P.world).2.db.Records data := by
        intro hpost
        obtain ⟨data, hdata, horder, hrecords⟩ := hposted post hpost
        exact ⟨data, hdata.step hstep, horder, hrecords.exec o c⟩
      obtain hsame | ⟨request, rfl, hadded⟩ := o.exec_posInbox c P.world
      · rw [hsame] at hpost
        exact hold hpost
      · rw [hadded] at hpost
        obtain hbefore | hnew := List.mem_append.mp hpost
        · exact hold hbefore
        · obtain rfl := List.mem_singleton.mp hnew
          -- the execution that sends has inserted its row
          have hallows := System.allowed_of_reaches (fun q => Request.onlyCalls config q) hinit hreach
            ht hrest
          obtain ⟨data, jobMeta, hrequest⟩ := Request.isPost_of_allows hallows rfl
          have hcarried := (hasPublished_of_reaches hinit hfresh.stemsFrom hreach).2 i t ht data
            (by rw [hrequest]; rfl)
          have hfollows := (Protocol.follows_of_reaches (respects_executions_of_fresh hinit hfresh)
            (fun q _ => follows_executions config q) hinit hreach i t ht).2
          rw [hrest] at hfollows
          have hins := hfollows.1 data jobMeta hrequest trivial
          rw [hrequest] at hallows
          exact ⟨data, hcarried.step hstep, hallows.1,
            (records_of_reaches hinit hfresh hreach ht hins).exec _ c⟩
    · cases hw
      intro post hpost
      have hpost : post ∈ P.world.posInbox := by
        cases e with
        | expire e => cases e <;> exact hpost
        | saveMenus upload fault => exact hpost
      obtain ⟨data, hdata, horder, hrecords⟩ := hposted post hpost
      exact ⟨data, hdata.step hstep, horder, (e.keepsOrders P.world).records hrecords⟩

/-- **The books balance.**  In every run that starts without orders and with conforming menus,
and in which workers work on jobs of the queue, each order's amounts are the sum of its stored
items, all orders are worth all items, and each request to a point of sale bills an order on
record with its items at its amount. -/
theorem balanced_of_reaches (hinit : ∀ i, P₀.threads i = none) (hfresh : P₀.world.Fresh)
    (hmenus : ∀ menu ∈ P₀.world.db.menus, menu.Conforms)
    (h : (catalogSystem config).Reaches WorksOnQueue P₀ P) : P.world.Balanced := by
  have hpriced : ∀ data, HasPublished P data → data.Priced :=
    fun data hdata => (hdata.validated hinit hfresh hmenus h).priced
  have hstems := (hasPublished_of_reaches hinit hfresh.stemsFrom h).1
  have hrecords : ∀ id, (P.world.db.recordOf id).Balanced :=
    fun id => (hstems.records id).balanced hpriced
  refine ⟨hrecords, Database.sum_calculatedAmount hrecords, fun post hpost => ?_⟩
  obtain ⟨data, hdata, horder, hrecorded⟩ := records_of_posted hinit hfresh h post hpost
  rw [horder]
  exact hrecorded.bills (hpriced data hdata)

end Runs

theorem balanced_of_reaches_completed : completedPool.world.Balanced :=
  balanced_of_reaches (fun _ => rfl) World.fresh_seed Database.seed_conforms
    (.after completedRun_admitted completedRun_replays)

end ChickenOrder
