import ChickenOrder.Guarantees.MenuCoherence
import ChickenOrder.Guarantees.MenuUploads
import ChickenOrder.Guarantees.Money

/-!
# Which accepted orders can be stored

A request is answered once its job is published; the worker stores the order later, in tables
whose columns have their own ideas of a key, an amount and a quantity.  `Storable` says what they
ask of a command, and `Priced.createOrder_ok_iff` that an order whose items are priced is stored
exactly if its command meets that.  What the validation has from the menus table, possibly
through the cache, fits the columns by itself: `conforms_of_reaches`.

Nothing is assumed about when the worker runs.  The statement is about the tables of the moment
in which `createOrder` is called, which may be much later than the validation: the store may
have gone, a menu may have been replaced by an upload, and the key may have been used by another
order.

The amounts need some arithmetic.  The total of an order is rounded to twenty digits by
`decimal.js` after every addition, and the sum of the lines is what the column sees; for a total
that fits, no digit is rounded away (`line_lt_of_addItems`).
-/

namespace ChickenOrder

open Interaction
open CreateOrderService MenuAdminController

/-! ## The condition -/

/-- A whole number from 1 to the largest of type `INTEGER`.  The `CHECK` of the table rules out the
others, not the API. -/
def FitsQuantity (n : JsNumber) : Prop := ∃ k : ℕ, n = .finite k ∧ 1 ≤ k ∧ (k : ℤ) ≤ int4Max

/-- The order is new, its store exists, and so do its menus, in quantities that are whole.  These
are the keys and the `CHECK` of `orders` and `order_items`; the menus may have gone since the
validation.  The audit entry that is inserted with them has the id of the worker. -/
structure Insertable (db : Database) (cmd : CreateOrderCommand) (orderId : Uuid)
    (workerId : String) : Prop where
  orderId : orderId ∉ db.orders.rows.map OrderRow.id
  store : ∃ store ∈ db.stores, Uuid.ofText? cmd.storeId = some store.id
  menus : ∀ item ∈ cmd.items, ∃ menu ∈ db.menus, menu.id.toText = item.menuId
  quantities : ∀ item ∈ cmd.items, FitsQuantity item.quantity
  workerId : FitsVarchar workerId

/-- What the tables ask of a request: texts and an amount that fit, a store id that is one, and
either a key that is used or an order they can insert.  With a used key the row is only read, so
that nothing is asked of the items. -/
structure Storable (db : Database) (cmd : CreateOrderCommand) (ctx : ApiContext)
    (workerId : String) : Prop where
  key : FitsVarchar cmd.idempotencyKey
  traceId : ∀ traceId ∈ ctx.traceId, FitsVarchar traceId
  storeId : ∃ u, Uuid.ofText? cmd.storeId = some u
  amount : ∃ q, Decimal.ofText? cmd.requestedAmount = some q ∧ FitsAmount q
  rows : (db.findByKey? cmd.idempotencyKey).isSome ∨ Insertable db cmd ctx.orderId workerId

/-! ## Menus -/

/-- What the columns of `menus` promise of a row: a name of at most 255 characters, and a price of
ten digits, two of them behind the point, unless it is `NaN`. -/
structure MenuRow.Conforms (row : MenuRow) : Prop where
  name : FitsVarchar row.name
  unitPrice : ∀ q, row.unitPrice = some q → ∃ n, Decimal.Cents q n ∧ n < 10 ^ 10

/-- The same of a menu that is answered or cached.  Its id is printed by Postgres. -/
structure MenuInfo.Conforms (info : MenuInfo) : Prop where
  id : ∃ u : Uuid, info.id = u.toText
  name : FitsVarchar info.name
  unitPrice : ∀ q, info.unitPrice = .amount q → ∃ n, Decimal.Cents q n ∧ n < 10 ^ 10

section Menus

/-- JSON keeps the amounts and adds none; what it makes of `NaN` is no amount before and after. -/
theorem conforms_throughJson_iff {info : MenuInfo} :
    info.throughJson.Conforms ↔ info.Conforms :=
  ⟨fun h => ⟨h.id, h.name, fun q hprice =>
      h.unitPrice q (MenuPrice.throughJson_eq_amount_iff.mpr hprice)⟩,
    fun h => ⟨h.id, h.name, fun q hprice =>
      h.unitPrice q (MenuPrice.throughJson_eq_amount_iff.mp hprice)⟩⟩

theorem forall_conforms_throughJson_iff {answer : List MenuInfo} :
    (∀ info ∈ answer.map MenuInfo.throughJson, info.Conforms) ↔ ∀ info ∈ answer, info.Conforms := by
  rw [List.forall_mem_map]
  exact forall₂_congr fun info _ => conforms_throughJson_iff

theorem conforms_of_findMenusByIds {db : Database} {ids : List String} {storeId : String}
    {answer : List MenuInfo} (hmenus : ∀ menu ∈ db.menus, menu.Conforms)
    (h : db.findMenusByIds ids storeId = .ok answer) : ∀ info ∈ answer, info.Conforms := by
  by_cases hids : ids = []
  · rw [hids] at h
    cases h
    exact nofun
  · obtain ⟨us, s, -, -, rfl⟩ := Database.findMenusByIds_eq_ok hids h
    intro info hinfo
    obtain ⟨menu, hmenu, rfl⟩ := List.mem_map.mp hinfo
    have hconforms := hmenus menu (List.mem_filter.mp hmenu).1
    exact ⟨⟨menu.id, rfl⟩, hconforms.name, fun q hprice =>
      hconforms.unitPrice q (MenuPrice.ofColumn_eq_amount_iff.mp hprice)⟩

/-- An amount that a column has taken. -/
theorem cents_of_amountColumn {q r : ℚ} (h : amountColumn q = .ok r) :
    ∃ n, Decimal.Cents r n ∧ n < 10 ^ 10 := by
  obtain ⟨hfits, hnonneg, rfl⟩ := amountColumn_eq_ok_iff.mp h
  exact ⟨_, Decimal.cents_round2 hnonneg, hfits⟩

/-- The columns of a row have taken its name and its price. -/
theorem conforms_of_uploaded {upload : MenuUpload} {store : Uuid} {rows : List MenuRow}
    (h : uploaded upload = .ok (store, rows)) : ∀ row ∈ rows, row.Conforms := by
  obtain ⟨-, items, hrows⟩ := uploaded_eq_ok h
  refine forall_of_menuRows (fun fresh item row hrow => ?_) hrows
  obtain ⟨-, hshows⟩ := menuRow_eq_ok_iff.mp hrow
  refine ⟨fitsVarchar_of_eq_ok hshows.name, fun q hq => ?_⟩
  -- the column has taken a number
  have hcolumn := hshows.unitPrice
  rw [hq] at hcolumn
  cases hprice : price item with
  | finite r =>
      rw [hprice, priceColumn] at hcolumn
      cases hamount : amountColumn r with
      | error e =>
          rw [hamount] at hcolumn
          cases hcolumn
      | ok amount =>
          rw [hamount] at hcolumn
          cases hcolumn
          exact cents_of_amountColumn hamount
  | infinite negative =>
      rw [hprice] at hcolumn
      cases hcolumn
  | nan =>
      rw [hprice] at hcolumn
      cases hcolumn

end Menus

/-! ## Validated items -/

/-- What the columns of `order_items` ask of an item that does not depend on its quantity.  All of
it comes from the menus table. -/
structure OrderItem.Conforms (item : OrderItem) : Prop where
  menuId : ∃ u : Uuid, item.menuId = u.toText
  menuName : FitsVarchar item.menuName
  unitPrice : ∃ n, Decimal.Cents item.unitPrice n ∧ n < 10 ^ 10

section Validated

variable {cmd : CreateOrderCommand} {answer : List MenuInfo} {amount : String}
variable {items : List OrderItem}

/-- Items completed with conforming menus conform.  An item that could be ordered has an amount for
its price, since `NaN` meets no total. -/
theorem conforms_of_orderable (hanswer : ∀ info ∈ answer, info.Conforms)
    {ordered : List CommandItem} {found : List MenuInfo}
    (hfound : List.Forall₂ (Orderable answer) ordered found) :
    ∀ item ∈ List.zipWith enrich ordered found, item.Conforms := by
  induction hfound with
  | nil => exact nofun
  | cons hitem _ ih =>
      intro item hmem
      rw [List.zipWith_cons_cons, List.mem_cons] at hmem
      obtain rfl | hmem := hmem
      · obtain ⟨hmenu, hid⟩ := mem_of_lookupMenu hitem.1
        have hconforms := hanswer _ hmenu
        obtain ⟨q, hprice⟩ := hitem.2.2
        refine ⟨hconforms.id.imp fun _ hu => hid.symm.trans hu, hconforms.name, ?_⟩
        rw [enrich, hprice]
        exact hconforms.unitPrice q hprice
      · exact ih item hmem

theorem conforms_of_validateItems (hanswer : ∀ info ∈ answer, info.Conforms)
    (h : validateItems cmd answer = .ok (amount, items)) : ∀ item ∈ items, item.Conforms := by
  obtain ⟨found, hfound, rfl, -⟩ := validateItems_eq_ok_iff.mp h
  exact conforms_of_orderable hanswer hfound

/-- Their menu ids and quantities are the request's. -/
theorem map_of_validateItems (h : validateItems cmd answer = .ok (amount, items)) :
    items.map (fun item => (item.menuId, item.quantity)) =
      cmd.items.map fun item => (item.menuId, item.quantity) := by
  obtain ⟨found, hfound, rfl, -⟩ := validateItems_eq_ok_iff.mp h
  clear h
  generalize cmd.items = ordered at hfound
  induction hfound with
  | nil => rfl
  | cons _ _ ih =>
      rw [List.zipWith_cons_cons, List.map_cons, List.map_cons, ih]
      rfl

/-- The total of the items is the requested one: the comparison at the end of the validation is
exact. -/
theorem addItems_of_validateItems (h : validateItems cmd answer = .ok (amount, items)) {q : ℚ}
    (hread : Decimal.ofText? cmd.requestedAmount = some q) : addItems 0 items = .finite q := by
  obtain ⟨found, -, rfl, hcheck, -⟩ := validateItems_eq_ok_iff.mp h
  obtain ⟨requested, hrequested, hequals⟩ := checkAmount_eq_ok_iff.mp hcheck
  rw [ofDecimalText?_eq_finite_iff.mpr hread, Option.some.injEq] at hrequested
  subst hrequested
  cases htotal : addItems 0 (List.zipWith enrich cmd.items found) with
  | finite r =>
      rw [htotal] at hequals
      rw [of_decide_eq_true hequals]
  | infinite negative =>
      rw [htotal] at hequals
      cases hequals
  | nan =>
      rw [htotal] at hequals
      cases hequals

/-- The calculated amount is the requested one, printed with two digits. -/
theorem amount_of_validateItems (h : validateItems cmd answer = .ok (amount, items)) {q : ℚ}
    (hread : Decimal.ofText? cmd.requestedAmount = some q) : amount = Decimal.toFixed2 q := by
  have htotal := addItems_of_validateItems h hread
  obtain ⟨found, -, rfl, -, rfl⟩ := validateItems_eq_ok_iff.mp h
  rw [htotal]
  rfl

end Validated

/-! ## Rows -/

section Rows

theorem Decimal.Cents.fitsAmount {q : ℚ} {n : ℕ} (h : Decimal.Cents q n) (hlt : q < 10 ^ 8) :
    FitsAmount q := by
  unfold FitsAmount
  rw [h.round2]
  exact ⟨h.nonneg, hlt⟩

/-- Whole hundredths are stored as they are.  The column would round anything finer. -/
theorem Decimal.Cents.amountColumn_eq_ok {q : ℚ} {n : ℕ} (h : Decimal.Cents q n)
    (hlt : q < 10 ^ 8) : amountColumn q = .ok q := by
  obtain ⟨r, hr⟩ := amountColumn_ok_iff.mpr (h.fitsAmount hlt)
  rw [hr, h.amountColumn_eq hr]

/-- An item is stored if its menu exists, its quantity is one and its total fits. -/
theorem OrderItem.Conforms.storedAs {db : Database} {item : OrderItem} (h : item.Conforms)
    (orderId : Uuid) (hmenu : ∃ menu ∈ db.menus, menu.id.toText = item.menuId)
    (hquantity : FitsQuantity item.quantity)
    (htotal : item.unitPrice * item.quantity.value < 10 ^ 8) :
    ∃ row, item.StoredAs orderId row ∧ row.menuId ∈ db.menus.map MenuRow.id := by
  obtain ⟨menu, hmem, hid⟩ := hmenu
  obtain ⟨k, hk, hpos, hmax⟩ := hquantity
  obtain ⟨n, hcents, hn⟩ := h.unitPrice
  obtain ⟨name, hname⟩ := varcharColumn_ok_iff.mpr h.menuName
  rw [hk, JsNumber.value_finite] at htotal
  have hprice : item.unitPrice < 10 ^ 8 := by
    rw [hcents, div_lt_iff₀ (by norm_num)]
    exact_mod_cast hn
  refine ⟨⟨orderId, menu.id, name, item.unitPrice, k⟩, ⟨rfl, ?_, hname,
    hcents.amountColumn_eq_ok hprice, ?_, ?_⟩, List.mem_map_of_mem hmem⟩
  · rw [← hid, uuidColumn_toText]
  · exact quantityColumn_eq_ok_iff.mpr ⟨by rw [hk, Int.cast_natCast], Int.natCast_pos.mpr hpos, hmax⟩
  · refine ⟨item.unitPrice * k, ?_⟩
    rw [Int.cast_natCast]
    exact (hcents.mul k).amountColumn_eq_ok htotal

/-- What is stored of an item says that its menu exists and its quantity is one. -/
theorem OrderItem.StoredAs.fits {db : Database} {orderId : Uuid} {item : OrderItem}
    {row : OrderItemRow} (h : item.StoredAs orderId row)
    (hmenu : row.menuId ∈ db.menus.map MenuRow.id) (hid : ∃ u : Uuid, item.menuId = u.toText) :
    (∃ menu ∈ db.menus, menu.id.toText = item.menuId) ∧ FitsQuantity item.quantity := by
  obtain ⟨u, hu⟩ := hid
  obtain ⟨menu, hmem, hmenuId⟩ := List.mem_map.mp hmenu
  obtain ⟨hquantity, hpos, hmax⟩ := quantityColumn_eq_ok_iff.mp h.quantity
  obtain ⟨k, hk⟩ := Int.eq_ofNat_of_zero_le (Int.le_of_lt hpos)
  refine ⟨⟨menu, hmem, ?_⟩, k, ?_, by omega, by omega⟩
  · have hcolumn := h.menuId
    rw [hu, uuidColumn_toText, Except.ok.injEq] at hcolumn
    rw [hmenuId, ← hcolumn, hu]
  · rw [hquantity, hk, Int.cast_natCast]

theorem fitsVarchar_toText (u : Uuid) : FitsVarchar u.toText := by
  have hlength : u.toText.toList.length ≤ 255 := by
    simp [Uuid.toText_toList, Uuid.hexDigits_length]
  refine ⟨Uuid.not_mem_of_ofText? (by decide) (by decide) (by decide) (by decide)
    (Uuid.ofText?_toText u), ?_⟩
  rw [List.drop_eq_nil_of_le hlength]
  exact nofun

end Rows

/-! ## Storing what was validated -/

/-- What storing needs of the items of a command and of their calculated amount: the items are
the command's, they conform, the amount is the requested one as it is printed, and where that
fits and the quantities are whole, so does every line. -/
structure Priced (cmd : CreateOrderCommand) (amount : String) (items : List OrderItem) : Prop where
  ordered : items.map (fun item => (item.menuId, item.quantity)) =
    cmd.items.map fun item => (item.menuId, item.quantity)
  conforms : ∀ item ∈ items, item.Conforms
  amount : ∀ q, Decimal.ofText? cmd.requestedAmount = some q → amount = Decimal.toFixed2 q
  lines : ∀ q, Decimal.ofText? cmd.requestedAmount = some q → FitsAmount q →
    (∀ item ∈ items, FitsQuantity item.quantity) →
      ∀ item ∈ items, item.unitPrice * item.quantity.value < 10 ^ 8

section Storing

variable {db : Database} {cmd : CreateOrderCommand} {ctx : ApiContext} {answer : List MenuInfo}
variable {amount : String} {items : List OrderItem} {jobMeta : JobMeta} {now : Time}

/-- No line is larger than the total, as no price in the table is negative. -/
theorem lineTotal_le_itemsTotal (hprices : ∀ item ∈ items, ∃ n, Decimal.Cents item.unitPrice n)
    (hquantities : ∀ item ∈ items, FitsQuantity item.quantity) :
    ∀ item ∈ items, item.unitPrice * item.quantity.value ≤ itemsTotal items := by
  have hnonneg : ∀ line ∈ items.map fun item => item.unitPrice * item.quantity.value,
      (0 : ℚ) ≤ line := by
    rw [List.forall_mem_map]
    intro item hitem
    obtain ⟨n, hn⟩ := hprices item hitem
    obtain ⟨k, hk, -⟩ := hquantities item hitem
    rw [hk, JsNumber.value_finite]
    exact mul_nonneg hn.nonneg (Nat.cast_nonneg k)
  intro item hitem
  exact List.single_le_sum hnonneg _ (List.mem_map_of_mem hitem)

/-- **A total that fits has lines that fit.**  The total of whole quantities is that of the
lines, as no digit of it is rounded away. -/
theorem line_lt_of_addItems {q : ℚ} (hconforms : ∀ item ∈ items, item.Conforms)
    (hquantities : ∀ item ∈ items, FitsQuantity item.quantity)
    (htotal : addItems 0 items = .finite q) (hfits : FitsAmount q) :
    ∀ item ∈ items, item.unitPrice * item.quantity.value < 10 ^ 8 := by
  have hprices : ∀ item ∈ items, ∃ n, Decimal.Cents item.unitPrice n := fun item hitem =>
    (hconforms item hitem).unitPrice.imp fun _ h => h.1
  have hfinite : ∀ item ∈ items, ∃ r, item.quantity = .finite r := fun item hitem =>
    (hquantities item hitem).elim fun k hk => ⟨k, hk.1⟩
  have hexact : ∀ item ∈ items, item.Exact := fun item hitem =>
    ⟨hprices item hitem, (hquantities item hitem).imp fun _ h => h.1⟩
  rw [addItems_finite hfinite, JsNumber.finite.injEq] at htotal
  obtain ⟨n, hcents⟩ := itemsTotal_cents hexact
  have hbound : itemsTotal items < 10 ^ 8 := by
    rw [← roundedTotal_eq_of_fits hexact (htotal ▸ hfits), htotal] at hcents ⊢
    rw [← hcents.round2]
    exact hfits.2
  exact fun item hitem =>
    (lineTotal_le_itemsTotal hprices hquantities item hitem).trans_lt hbound

/-- The validation prices what it lets through. -/
theorem priced_of_validateItems (hanswer : ∀ info ∈ answer, info.Conforms)
    (hvalid : validateItems cmd answer = .ok (amount, items)) : Priced cmd amount items where
  ordered := map_of_validateItems hvalid
  conforms := conforms_of_validateItems hanswer hvalid
  amount := fun _ hread => amount_of_validateItems hvalid hread
  lines := fun _ hread hfits hquantities =>
    line_lt_of_addItems (conforms_of_validateItems hanswer hvalid) hquantities
      (addItems_of_validateItems hvalid hread) hfits

/-- What holds of the ids and quantities of the items holds of the request's. -/
theorem Priced.forall_items_iff (h : Priced cmd amount items) {Q : String × JsNumber → Prop} :
    (∀ item ∈ items, Q (item.menuId, item.quantity)) ↔
      ∀ item ∈ cmd.items, Q (item.menuId, item.quantity) := by
  have hitems : (∀ p ∈ items.map fun item => (item.menuId, item.quantity), Q p) ↔
      ∀ p ∈ cmd.items.map fun item => (item.menuId, item.quantity), Q p := by
    rw [h.ordered]
  simpa only [List.forall_mem_map] using hitems

/-- The rows of an insertable order are accepted. -/
theorem Priced.admits (h : Priced cmd amount items)
    (hamount : ∃ q, Decimal.ofText? cmd.requestedAmount = some q ∧ FitsAmount q)
    (hunused : ¬ (db.findByKey? cmd.idempotencyKey).isSome)
    (hinsertable : Insertable db cmd ctx.orderId jobMeta.workerId)
    (hrow : ∃ row, (ProcessOrderService.createParams (payload cmd ctx amount items)
      jobMeta).toRow now = .ok row) :
    db.Admits (ProcessOrderService.createParams (payload cmd ctx amount items) jobMeta) now := by
  obtain ⟨row, hrow⟩ := hrow
  obtain ⟨store, hstore, hstoreId⟩ := hinsertable.store
  obtain ⟨q, hread, hfits⟩ := hamount
  have hstored := Database.storedAs_of_toRow hrow
  have hmenus := (h.forall_items_iff
    (Q := fun p => ∃ menu ∈ db.menus, menu.id.toText = p.1)).mpr hinsertable.menus
  have hquantities := (h.forall_items_iff (Q := fun p => FitsQuantity p.2)).mpr
    hinsertable.quantities
  obtain ⟨rows, hrows⟩ := exists_forall₂ fun item hitem =>
    (h.conforms item hitem).storedAs ctx.orderId (hmenus item hitem) (hquantities item hitem)
      (h.lines q hread hfits hquantities item hitem)
  refine ⟨hinsertable.workerId, row, rows, hrow, ?_, ?_, ?_, hrows⟩
  · exact fun hmem => hunused ((Database.isSome_findByKey?_iff hstored.key).mpr hmem)
  · rw [(Database.proposes_of_toRow hrow).id]
    exact hinsertable.orderId
  · have hcolumn : uuidColumn cmd.storeId = .ok row.storeId := hstored.storeId
    rw [uuidColumn_eq_ok_iff.mpr hstoreId, Except.ok.injEq] at hcolumn
    rw [← hcolumn]
    exact List.mem_map_of_mem hstore

/-- **What is priced is stored exactly if the request is storable.** From right to left, the insert
is given what each column asks for; from left to right, what it has inserted says what was asked. -/
theorem Priced.createOrder_ok_iff (h : Priced cmd amount items)
    (huser : ∀ userId ∈ cmd.userId, ∃ u, Uuid.ofText? userId = some u) :
    (∃ result, db.createOrder (ProcessOrderService.createParams (payload cmd ctx amount items)
      jobMeta) now = .ok result) ↔ Storable db cmd ctx jobMeta.workerId := by
  -- the columns of the row, and the rows of the items unless the key is used already
  rw [Database.createOrder_ok_iff]
  constructor
  · rintro ⟨hrow, hrows⟩
    obtain ⟨hkey, htrace, hstore, -, hrequested, -⟩ := Database.toRow_ok_iff.mp hrow
    refine ⟨varcharColumn_ok_iff.mp hkey, ?_, hstore.imp fun _ => uuidColumn_eq_ok_iff.mp,
      amountTextColumn_ok_iff.mp hrequested, hrows.imp_right ?_⟩
    · intro traceId htraceId
      have hfits := varcharColumn_ok_iff.mp htrace
      rwa [show (ProcessOrderService.createParams (payload cmd ctx amount items) jobMeta).traceId =
        ctx.traceId.getD ctx.payloadUuid.toText from rfl, htraceId] at hfits
    · rintro ⟨hworker, row, rows, hproposed, -, hid, hstoreMem, hitems⟩
      have hstored := Database.storedAs_of_toRow hproposed
      obtain ⟨store, hmem, hstoreId⟩ := List.mem_map.mp hstoreMem
      have hfits : ∀ item ∈ items, (∃ menu ∈ db.menus, menu.id.toText = item.menuId) ∧
          FitsQuantity item.quantity := by
        intro item hitem
        obtain ⟨i, hi, rfl⟩ := List.getElem_of_mem hitem
        obtain ⟨hstoredAs, hmenu⟩ := hitems.get hi (hitems.length_eq ▸ hi)
        exact hstoredAs.fits hmenu (h.conforms _ hitem).menuId
      have hall := (h.forall_items_iff (Q := fun p =>
        (∃ menu ∈ db.menus, menu.id.toText = p.1) ∧ FitsQuantity p.2)).mp hfits
      rw [(Database.proposes_of_toRow hproposed).id] at hid
      exact ⟨hid, ⟨store, hmem, hstoreId ▸ uuidColumn_eq_ok_iff.mp hstored.storeId⟩,
        fun item hitem => (hall item hitem).1, fun item hitem => (hall item hitem).2, hworker⟩
  · -- the amount was computed, so its column takes it if it takes the requested one
    intro hstorable
    obtain ⟨q, hread, hfits⟩ := hstorable.amount
    have hrow : ∃ row, (ProcessOrderService.createParams (payload cmd ctx amount items)
        jobMeta).toRow now = .ok row := by
      refine Database.toRow_ok_iff.mpr ⟨varcharColumn_ok_iff.mpr hstorable.key,
        varcharColumn_ok_iff.mpr ?_, hstorable.storeId.imp fun _ => uuidColumn_eq_ok_iff.mpr, ?_,
        amountTextColumn_ok_iff.mpr ⟨q, hread, hfits⟩, ?_⟩
      · show FitsVarchar (ctx.traceId.getD ctx.payloadUuid.toText)
        cases htrace : ctx.traceId with
        | none => exact fitsVarchar_toText _
        | some traceId => exact hstorable.traceId traceId htrace
      · show ∃ userId, uuidColumn? cmd.userId = .ok userId
        cases huserId : cmd.userId with
        | none => exact ⟨none, rfl⟩
        | some userId =>
            obtain ⟨u, hu⟩ := huser userId huserId
            exact ⟨some u, by rw [uuidColumn?, uuidColumn_eq_ok_iff.mpr hu]; rfl⟩
      · show ∃ r, amountTextColumn amount = .ok r
        rw [h.amount q hread]
        exact amountTextColumn_toFixed2_ok hfits
    refine ⟨hrow, ?_⟩
    by_cases hused : (db.findByKey? cmd.idempotencyKey).isSome
    · exact .inl hused
    · exact .inr (h.admits hstorable.amount hused (hstorable.rows.resolve_left hused) hrow)

/-- **What was validated is stored exactly if the request is storable.** -/
theorem createOrder_ok_iff_of_validated (hanswer : ∀ info ∈ answer, info.Conforms)
    (hvalid : validateItems cmd answer = .ok (amount, items))
    (huser : ∀ userId ∈ cmd.userId, ∃ u, Uuid.ofText? userId = some u) :
    (∃ result, db.createOrder (ProcessOrderService.createParams (payload cmd ctx amount items)
      jobMeta) now = .ok result) ↔ Storable db cmd ctx jobMeta.workerId :=
  (priced_of_validateItems hanswer hvalid).createOrder_ok_iff huser

end Storing

/-! ## Runs -/

section Runs

variable {config : AppConfig} {ok : CatalogLabel → OrderPool → Prop} {P₀ P P' : OrderPool}
variable {ℓ : CatalogLabel}

/-- The call has found the answer in the cache, or has put it there.  These are the two ways for a
request to come to menus that the table does not have any more. -/
def Provides (e : OrderEvent) (answer : List MenuInfo) : Prop :=
  ∃ key, e = ⟨.menuCacheGet key, .ok (some answer)⟩ ∨ e = ⟨.menuCacheSet key answer, .ok ()⟩

/-- All menus conform: those of the table, the held ones, and those that a request has seen.  The
last are needed because a request may cache them later than the table changes. -/
structure Conforming (P : OrderPool) : Prop where
  table : ∀ menu ∈ P.world.db.menus, menu.Conforms
  held : ∀ key answer, Holds P key answer → ∀ info ∈ answer, info.Conforms
  seen : ∀ i t, P.threads i = some t → ∀ e ∈ t.hist, ∀ answer, Provides e answer →
    ∀ info ∈ answer, info.Conforms

/-- The menus table conforms after a step. -/
theorem Conforming.table_of_step (h : Conforming P)
    (hstep : (catalogSystem config).step ℓ P = some P') :
    ∀ menu ∈ P'.world.db.menus, menu.Conforms := by
  obtain ⟨i, q, rfl, -, rfl⟩ | ⟨i, c, t, o, k, rfl, -, -, -⟩ | ⟨e, w, rfl, hw, rfl⟩ :=
    (catalogSystem config).step_cases hstep
  · exact h.table
  · rw [menus_of_act hstep]
    exact h.table
  · cases hw
    cases e with
    | expire e =>
        show ∀ menu ∈ (e.apply P.world).db.menus, menu.Conforms
        rw [Expiry.apply_db]
        exact h.table
    | saveMenus upload fault =>
        show ∀ menu ∈ ((CatalogStep.saveMenus upload fault).apply P.world).db.menus, menu.Conforms
        obtain ⟨-, store, rows, huploaded, hmenus⟩ | hsame :=
          apply_saveMenus_menus upload fault P.world
        · rw [hmenus]
          intro menu hmenu
          obtain hold | hnew := List.mem_append.mp hmenu
          · exact h.table menu (List.mem_filter.mp hold).1
          · exact conforms_of_uploaded huploaded menu hnew
        · rw [hsame]
          exact h.table

/-- **Menus conform**, wherever they are, in every run: uploads write rows that the columns have
taken, and whatever is cached was once answered. -/
theorem conforms_of_reaches (hinit : ∀ i, P₀.threads i = none)
    (hempty : ∀ key, P₀.world.menuCache key = none)
    (hmenus : ∀ menu ∈ P₀.world.db.menus, menu.Conforms)
    (h : (catalogSystem config).Reaches ok P₀ P) : Conforming P := by
  refine System.Reaches.invariant (I := Conforming) ⟨hmenus, ?_, ?_⟩ ?_ h
  · rintro key answer (hcached | ⟨i, t, -, ht, -⟩)
    · rw [hempty] at hcached
      cases hcached
    · rw [hinit] at ht
      cases ht
  · intro i t ht
    rw [hinit] at ht
    cases ht
  · intro P ℓ P' hreach hconforms hok hstep
    refine ⟨hconforms.table_of_step hstep, ?_, ?_⟩
    · intro key answer hholds
      obtain hheld | ⟨i, c, ids, storeId, menus, -, -, hfind, rfl⟩ :=
        holds_of_step hinit (hreach.tail ⟨ℓ, hok, hstep⟩) hstep hholds
      · exact hconforms.held key answer hheld
      · exact forall_conforms_throughJson_iff.mpr
          (conforms_of_findMenusByIds hconforms.table hfind)
    · intro i u hu e he answer hprovides
      obtain hold | ⟨q, rfl, rfl⟩ | ⟨c, t, o, k, rfl, ht, hrest, -, rfl⟩ :=
        (catalogSystem config).step_threads hstep hu
      · exact hconforms.seen i u hold e he answer hprovides
      · cases he
      · obtain rfl | hold := List.mem_cons.mp he
        · obtain ⟨key, hget | hset⟩ := hprovides
          · obtain ⟨rfl, hanswer⟩ := Event.mk.inj hget
            have hexec : (Op.exec (.menuCacheGet key) c P.world).1 = .ok (some answer) :=
              eq_of_heq hanswer
            have heffect := Op.exec_eq_effect_of_ok hexec
            rw [heffect] at hexec
            exact hconforms.held key answer (.inl (Except.ok.inj hexec))
          · obtain ⟨rfl, -⟩ := Event.mk.inj hset
            exact forall_conforms_throughJson_iff.mp
              (hconforms.held key _ (.inr ⟨i, t, answer, ht, by rw [hrest]; rfl, rfl⟩))
        · exact hconforms.seen i t ht e hold answer hprovides

/-- What a published job has been validated with. -/
theorem validated_of_issues (hinit : ∀ i, P₀.threads i = none)
    (hempty : ∀ key, P₀.world.menuCache key = none)
    (hmenus : ∀ menu ∈ P₀.world.db.menus, menu.Conforms)
    (h : (catalogSystem config).Reaches ok P₀ P) {i : ℕ} {t : OrderThread}
    (ht : P.threads i = some t) {cmd : CreateOrderCommand} {ctx : ApiContext}
    (hrequest : t.request = .createOrder cmd ctx) {data : OrderJobPayload}
    (hpublished : t.Issues (.mainQueueAdd data)) :
    ∃ answer amount items, (∀ info ∈ answer, info.Conforms) ∧
      validateItems cmd answer = .ok (amount, items) ∧ data = payload cmd ctx amount items := by
  obtain ⟨past, hsuffix, hissues⟩ := Protocol.issues_of_reaches respects_menuReads
    (fun q _ => follows_menuReads config q) hinit h ht hpublished
  rw [hrequest] at hissues
  obtain ⟨answer, amount, items, hsupplied, hvalid, hdata⟩ := hissues
  refine ⟨answer, amount, items, ?_, hvalid, hdata⟩
  have hseen := (conforms_of_reaches hinit hempty hmenus h).seen i t ht
  obtain ⟨h', rfl⟩ | ⟨h', rfl⟩ := hsupplied
  · exact hseen _ (hsuffix.subset List.mem_cons_self) answer ⟨_, .inl rfl⟩
  · exact hseen _ (hsuffix.subset List.mem_cons_self) answer ⟨_, .inr rfl⟩

end Runs

/-- The menus of migration 001 conform. -/
theorem Database.seed_conforms : ∀ menu ∈ Database.seed.menus, menu.Conforms := by
  intro menu hmenu
  refine ⟨varcharColumn_ok_iff.mp ?_, Database.seed_menusTable.prices menu hmenu⟩
  simp only [Database.seed, List.mem_cons, List.not_mem_nil, or_false] at hmenu
  obtain rfl | rfl | rfl := hmenu
  all_goals exact ⟨_, rfl⟩

end ChickenOrder
