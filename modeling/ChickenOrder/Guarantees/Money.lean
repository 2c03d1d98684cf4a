import ChickenOrder.Database.OrderRecord
import ChickenOrder.Services.ItemValidation
import ChickenOrder.Services.LegacyXml
import ChickenOrder.Services.OrderApi
import ChickenOrder.Services.OrderSystem

/-!
# Money from the request to the point of sale

An amount appears four times: as the client's text, as the sum the validation computes, as
the rows of `orders` and `order_items`, and in hundredths in the legacy XML.
`money_conserved` says that these are the same amount, and exactly when a request is let
through.  Prices are whole hundredths and quantities whole numbers, so that of a total below
10^18 the twenty digits of the validation lose nothing (`roundedTotal_eq`) and the two digits
of `toFixed` neither (`itemsTotal_cents`).

Each section follows the amount one step further: the menus, the lines in whole hundredths, the
stored rows, the document.  The only rounding that could matter is that of the running total,
and `roundedTotal_eq` is where it does not.
-/

namespace ChickenOrder

open Interaction Interaction.Program
open CreateOrderService Decimal

/-! ## The menus table -/

/-- What the primary key and the price column of `menus` promise: each id once, and prices of whole
hundredths below 10^8.  A price may be `NaN`. -/
structure Database.MenusTable (db : Database) : Prop where
  ids : (db.menus.map MenuRow.id).Nodup
  prices : ∀ menu ∈ db.menus, ∀ q, menu.unitPrice = some q → ∃ n, Cents q n ∧ n < 10 ^ 10

/-- The item's menu exists in the store, is available and has an amount for its price: with a
price `NaN` the sum is `NaN`, which no total amount is. -/
structure Database.Offers (db : Database) (storeId : String) (item : CommandItem)
    (menu : MenuRow) : Prop where
  mem : menu ∈ db.menus
  menuId : uuidColumn item.menuId = .ok menu.id
  storeId : uuidColumn storeId = .ok menu.storeId
  isAvailable : menu.isAvailable
  unitPrice : ∃ q, menu.unitPrice = some q

/-- The cache holds nothing for the items of a command but what the table would answer, written as
JSON and read again. -/
def World.MenusFresh (w : World) (cmd : CreateOrderCommand) : Prop :=
  ∀ menus, w.menuCache (menuCacheKey (cmd.items.map CommandItem.menuId) cmd.storeId) = some menus →
    ∃ answer, w.db.findMenusByIds (cmd.items.map CommandItem.menuId) cmd.storeId = .ok answer ∧
      menus = answer.map MenuInfo.throughJson

/-- The menus that a command is validated with are then the table's, or what the cache makes of
them. -/
theorem menusFor_of_fresh {w : World} {cmd : CreateOrderCommand} (h : w.MenusFresh cmd) :
    menusFor w cmd = w.db.findMenusByIds (cmd.items.map CommandItem.menuId) cmd.storeId ∨
      ∃ answer, w.db.findMenusByIds (cmd.items.map CommandItem.menuId) cmd.storeId = .ok answer ∧
        menusFor w cmd = .ok (answer.map MenuInfo.throughJson) := by
  unfold menusFor
  split
  · rename_i menus hcached
    obtain ⟨answer, hfind, rfl⟩ := h menus hcached
    exact .inr ⟨answer, hfind, rfl⟩
  · exact .inl rfl

/-- A command is validated with them if it is with the table's. -/
theorem validated_of_fresh {w : World} {cmd : CreateOrderCommand} (h : w.MenusFresh cmd)
    {validated : String × List OrderItem} :
    menusFor w cmd >>= validateItems cmd = .ok validated ↔
      w.db.findMenusByIds (cmd.items.map CommandItem.menuId) cmd.storeId >>= validateItems cmd =
        .ok validated := by
  obtain hsame | ⟨answer, hfind, hcached⟩ := menusFor_of_fresh h
  · rw [hsame]
  · rw [hcached, hfind]
    exact validateItems_throughJson_eq_ok_iff

/-- An id as Postgres prints it: in lower case, with its hyphens.  Menus are looked up by this text.
-/
def IsCanonical (id : String) : Prop := ∃ u : Uuid, id = u.toText

/-- Such a text is read as one id, and no other such text is. -/
theorem IsCanonical.uuidColumn_iff {id : String} (h : IsCanonical id) {u : Uuid} :
    uuidColumn id = .ok u ↔ u.toText = id := by
  obtain ⟨v, rfl⟩ := h
  rw [uuidColumn_toText, Except.ok.injEq, Uuid.toText_injective.eq_iff, eq_comm]

/-- The ids of an answer are printed by Postgres. -/
theorem isCanonical_of_findMenusByIds {db : Database} {ids : List String} {storeId : String}
    {menus : List MenuInfo} (hfind : db.findMenusByIds ids storeId = .ok menus) :
    ∀ info ∈ menus, IsCanonical info.id := by
  intro info hmem
  by_cases hids : ids = []
  · subst hids
    cases hfind
    cases hmem
  · obtain ⟨us, s, -, -, rfl⟩ := Database.findMenusByIds_eq_ok hids hfind
    obtain ⟨menu, -, rfl⟩ := List.mem_map.mp hmem
    exact ⟨menu.id, rfl⟩

section Menus

variable {db : Database} {items : List CommandItem} {storeId : String} {menus : List MenuInfo}

/-- The answer of `findMenusByIds` completes an item exactly with a menu the store offers.  Of equal
ids the last would count, but a table has each id once. -/
theorem orderable_iff (htable : db.MenusTable)
    (hfind : db.findMenusByIds (items.map CommandItem.menuId) storeId = .ok menus)
    {item : CommandItem} (hitem : item ∈ items) (hcanonical : IsCanonical item.menuId)
    {info : MenuInfo} :
    Orderable menus item info ↔ ∃ menu, db.Offers storeId item menu ∧ info = menu.info := by
  have hids : items.map CommandItem.menuId ≠ [] := by
    intro hnil
    rw [List.map_eq_nil_iff.mp hnil] at hitem
    cases hitem
  obtain ⟨us, s, hus, hs, rfl⟩ := Database.findMenusByIds_eq_ok hids hfind
  have hnodup : (((db.menus.filter fun menu => menu.id ∈ us ∧ menu.storeId = s).map
      MenuRow.info).map MenuInfo.id).Nodup := by
    rw [List.map_map]
    have hsub := htable.ids.sublist (List.filter_sublist.map MenuRow.id :
      ((db.menus.filter fun menu => menu.id ∈ us ∧ menu.storeId = s).map MenuRow.id).Sublist _)
    rw [show MenuInfo.id ∘ MenuRow.info = Uuid.toText ∘ MenuRow.id from rfl, ← List.map_map]
    exact hsub.map Uuid.toText_injective
  -- the id of the item is among the ids read
  have hread : ∀ u : Uuid, uuidColumn item.menuId = .ok u → u ∈ us := by
    intro u hu
    obtain ⟨i, hi, hget⟩ := List.getElem_of_mem (List.mem_map_of_mem hitem :
      item.menuId ∈ items.map CommandItem.menuId)
    have hcolumn := hus.get hi (hus.length_eq ▸ hi)
    rw [List.get_eq_getElem, List.get_eq_getElem, hget, hu, Except.ok.injEq] at hcolumn
    rw [hcolumn]
    exact List.getElem_mem _
  unfold Orderable
  rw [lookupMenu_eq_some_iff hnodup]
  constructor
  · rintro ⟨⟨hmem, hid⟩, havailable, q, hprice⟩
    obtain ⟨menu, hmenu, rfl⟩ := List.mem_map.mp hmem
    obtain ⟨hmenu, hselected⟩ := List.mem_filter.mp hmenu
    have hstore : menu.storeId = s := (of_decide_eq_true hselected).2
    exact ⟨menu, ⟨hmenu, hcanonical.uuidColumn_iff.mpr hid, hstore ▸ hs, havailable, q,
      MenuPrice.ofColumn_eq_amount_iff.mp hprice⟩, rfl⟩
  · rintro ⟨menu, hoffers, rfl⟩
    have hstore : menu.storeId = s := by
      have hstore := hoffers.storeId
      rw [hs, Except.ok.injEq] at hstore
      exact hstore.symm
    refine ⟨⟨List.mem_map_of_mem (List.mem_filter.mpr ⟨hoffers.mem, ?_⟩),
      hcanonical.uuidColumn_iff.mp hoffers.menuId⟩, hoffers.isAvailable,
      hoffers.unitPrice.imp fun _ => MenuPrice.ofColumn_eq_amount_iff.mpr⟩
    exact decide_eq_true ⟨hread menu.id hoffers.menuId, hstore⟩

end Menus

/-- Elementwise witnesses make a list. -/
theorem forall₂_iff_exists_map {α β γ : Type} {R : α → β → Prop} {S : α → γ → Prop} {f : γ → β}
    {as : List α} (h : ∀ a ∈ as, ∀ b, R a b ↔ ∃ c, S a c ∧ b = f c) {bs : List β} :
    List.Forall₂ R as bs ↔ ∃ cs, List.Forall₂ S as cs ∧ bs = cs.map f := by
  induction as generalizing bs with
  | nil =>
      constructor
      · intro hbs
        cases hbs
        exact ⟨[], .nil, rfl⟩
      · rintro ⟨cs, hcs, rfl⟩
        cases hcs
        exact .nil
  | cons a as ih =>
      have htail := @ih fun a' ha' => h a' (List.mem_cons_of_mem _ ha')
      constructor
      · intro hbs
        cases hbs with
        | cons hb hbs =>
            obtain ⟨c, hc, rfl⟩ := (h a List.mem_cons_self _).mp hb
            obtain ⟨cs, hcs, rfl⟩ := htail.mp hbs
            exact ⟨c :: cs, .cons hc hcs, rfl⟩
      · rintro ⟨cs, hcs, rfl⟩
        cases hcs with
        | cons hc hcs =>
            exact .cons ((h a List.mem_cons_self _).mpr ⟨_, hc, rfl⟩) (htail.mpr ⟨_, hcs, rfl⟩)

/-! ## Whole hundredths -/

/-- An item whose price and quantity the columns hold as they are. -/
structure OrderItem.Exact (item : OrderItem) : Prop where
  unitPrice : ∃ n, Cents item.unitPrice n
  quantity : ∃ k : ℕ, item.quantity = .finite k

theorem OrderItem.Exact.lineTotal {item : OrderItem} (h : item.Exact) :
    ∃ n, Cents (item.unitPrice * item.quantity.value) n := by
  obtain ⟨n, hn⟩ := h.unitPrice
  obtain ⟨k, hk⟩ := h.quantity
  rw [hk]
  exact ⟨n * k, hn.mul k⟩

theorem lineTotals_cents {items : List OrderItem} (h : ∀ item ∈ items, item.Exact) :
    ∀ line ∈ lineTotals items, ∃ n, Cents line n := by
  intro line hline
  obtain ⟨item, hitem, rfl⟩ := List.mem_map.mp hline
  exact (h item hitem).lineTotal

/-- A sum of line totals is whole hundredths. -/
theorem itemsTotal_cents {items : List OrderItem} (h : ∀ item ∈ items, item.Exact) :
    ∃ n, Cents (itemsTotal items) n := sum_cents (lineTotals_cents h)

/-- **The sum to twenty digits is the sum**, but for one of 10^18 or more: up to there hundredths
take at most twenty digits. -/
theorem roundedTotal_eq {items : List OrderItem} (h : ∀ item ∈ items, item.Exact)
    (hlt : roundedTotal items < 10 ^ 18 ∨ itemsTotal items < 10 ^ 18) :
    roundedTotal items = itemsTotal items := plusAll_eq (lineTotals_cents h) hlt

/-- The sum to twenty digits is the sum wherever it is stored, since `DECIMAL(10, 2)` takes nothing
as large as that. -/
theorem roundedTotal_eq_of_fits {items : List OrderItem} (h : ∀ item ∈ items, item.Exact)
    (hfits : FitsAmount (roundedTotal items)) : roundedTotal items = itemsTotal items :=
  roundedTotal_eq h (.inl hfits.lt)

/-! ## The rows -/

/-- The generated column `subtotal`. -/
def OrderItemRow.subtotal (row : OrderItemRow) : ℚ := round2 (row.unitPrice * row.quantity)

/-- An exact item is stored with its line total. -/
theorem OrderItem.StoredAs.subtotal_eq {orderId : Uuid} {item : OrderItem} {row : OrderItemRow}
    (h : OrderItem.StoredAs orderId item row) (hexact : item.Exact) :
    row.subtotal = item.unitPrice * item.quantity.value := by
  obtain ⟨n, hn⟩ := hexact.unitPrice
  obtain ⟨m, hm⟩ := hexact.lineTotal
  have hprice : row.unitPrice = item.unitPrice := hn.amountColumn_eq h.unitPrice
  have hquantity : item.quantity = .finite row.quantity := (quantityColumn_eq_ok_iff.mp h.quantity).1
  unfold OrderItemRow.subtotal
  rw [hquantity, JsNumber.value_finite] at hm ⊢
  rw [hprice, hm.round2]

/-- The generated columns add up to the total. -/
theorem sum_subtotal {orderId : Uuid} {items : List OrderItem} {rows : List OrderItemRow}
    (hrows : List.Forall₂ (OrderItem.StoredAs orderId) items rows)
    (hexact : ∀ item ∈ items, item.Exact) :
    (rows.map OrderItemRow.subtotal).sum = itemsTotal items := by
  induction hrows with
  | nil => rfl
  | cons hrow _ ih =>
      have hrest := ih fun item hitem => hexact item (List.mem_cons_of_mem _ hitem)
      rw [List.map_cons, List.sum_cons, hrow.subtotal_eq (hexact _ List.mem_cons_self), hrest]
      simp [itemsTotal, lineTotals]

/-! ## The XML -/

/-- The lines of the document add up to the items' total, in hundredths. -/
theorem sum_lineTotal {items : List OrderItem} (hexact : ∀ item ∈ items, item.Exact) :
    ∃ lines : List ℚ, (items.map LegacyV1PosAdapter.itemXml).map Xml.lineTotal = lines.map some ∧
      lines.sum = 100 * itemsTotal items := by
  induction items with
  | nil => exact ⟨[], rfl, by simp [itemsTotal, lineTotals]⟩
  | cons item rest ih =>
      obtain ⟨lines, hlines, hsum⟩ := ih fun item' hitem' => hexact item' (List.mem_cons_of_mem _ hitem')
      obtain ⟨n, hn⟩ := (hexact item List.mem_cons_self).unitPrice
      obtain ⟨k, hk⟩ := (hexact item List.mem_cons_self).quantity
      refine ⟨100 * (item.unitPrice * item.quantity.value) :: lines, ?_, ?_⟩
      · rw [List.map_cons, List.map_cons, hlines, LegacyV1PosAdapter.lineTotal_itemXml hk,
          hn.mathRound, List.map_cons, hn, hk, JsNumber.value_finite]
        push_cast
        congr 2
        ring
      · simp [itemsTotal, lineTotals, hsum, mul_add]

/-- `TOTAL` is the printed total in hundredths. -/
theorem total_buildXml_eq {q : ℚ} {n : ℕ} (h : Cents q n) {order : DomainOrder} {createdAt : ℤ}
    (htotal : order.totalAmount = toFixed2 q) :
    (LegacyV1PosAdapter.buildXml order createdAt).total = some (100 * q) := by
  have hn : (Decimal.mathRound (q * 100) : ℚ) = 100 * q := by
    rw [h.mathRound, h]
    push_cast
    ring
  rw [LegacyV1PosAdapter.total_buildXml, htotal, h.parseFloat?_toFixed2, Option.map_some, hn]

/-! ## The four amounts -/

/-- The price of a menu that has an amount for one. -/
def MenuRow.price (menu : MenuRow) : ℚ := priceValue (.ofColumn menu.unitPrice)

theorem MenuRow.price_of_some {menu : MenuRow} {q : ℚ} (h : menu.unitPrice = some q) :
    menu.price = q := by
  unfold price
  rw [h]
  rfl

/-- The sum of price times quantity over the items of a command. -/
def priceTotal (items : List CommandItem) (menus : List MenuRow) : ℚ :=
  (List.zipWith (fun item menu => menu.price * item.quantity.value) items menus).sum

/-- An item as its menu completes it. -/
def enrichWith (item : CommandItem) (menu : MenuRow) : OrderItem :=
  ⟨item.menuId, menu.name, menu.price, item.quantity⟩

/-- The total of completed items is price times quantity. -/
theorem itemsTotal_enrichWith (items : List CommandItem) (menus : List MenuRow) :
    itemsTotal (List.zipWith enrichWith items menus) = priceTotal items menus := by
  unfold itemsTotal lineTotals priceTotal
  rw [List.map_zipWith]
  rfl

/-- What a validated command amounts to, at each of the places where it is written down: the menus'
prices, the requested and the calculated amount, the rows of the tables and the legacy XML. -/
structure MoneyConserved (db : Database) (cmd : CreateOrderCommand) (calculatedAmount : String)
    (enrichedItems : List OrderItem) : Prop where
  menuIds : enrichedItems.map OrderItem.menuId = cmd.items.map CommandItem.menuId
  quantities : enrichedItems.map OrderItem.quantity = cmd.items.map CommandItem.quantity
  /-- The sum over the items, the calculated and the requested amount are the same. -/
  amounts : ∃ menus, List.Forall₂ (db.Offers cmd.storeId) cmd.items menus ∧
    enrichedItems = List.zipWith enrichWith cmd.items menus ∧
    ofText? calculatedAmount = some (priceTotal cmd.items menus) ∧
    ofText? cmd.requestedAmount = some (priceTotal cmd.items menus)
  /-- Wherever the job is stored, the subtotals add up to the order's amount. -/
  rows : ∀ ctx jobMeta now (stored stored' : Database),
    stored.createOrder (ProcessOrderService.createParams
      (payload cmd ctx calculatedAmount enrichedItems) jobMeta) now = .ok (true, stored') →
    ∃ row rows, stored'.orders.find? ctx.orderId = some row ∧
      stored'.orderItems = stored.orderItems ++ rows ∧
      (rows.map OrderItemRow.subtotal).sum = row.calculatedAmount ∧
      row.calculatedAmount = itemsTotal enrichedItems
  /-- Whenever the XML is built, its lines add up to `TOTAL`, the amount in hundredths. -/
  xml : ∀ ctx createdAt, ∃ lines : List ℚ,
    let xml := LegacyV1PosAdapter.buildXml (ProcessOrderService.domainOrder
      (payload cmd ctx calculatedAmount enrichedItems)) createdAt
    xml.items.map Xml.lineTotal = lines.map some ∧ xml.total = some lines.sum ∧
      lines.sum = 100 * itemsTotal enrichedItems

section Conservation

variable {db : Database} {cmd : CreateOrderCommand} {menus : List MenuRow}

/-- What an enriched item has from its item. -/
theorem map_zipWith_enrichWith {β : Type} {f : OrderItem → β} {g : CommandItem → β}
    (hfg : ∀ item menu, f (enrichWith item menu) = g item) {items : List CommandItem}
    (hmenus : List.Forall₂ (db.Offers cmd.storeId) items menus) :
    (List.zipWith enrichWith items menus).map f = items.map g := by
  induction hmenus with
  | nil => rfl
  | cons _ _ ih => simp [hfg, ih]

/-- Items completed with offered menus are exact. -/
theorem zipWith_enrichWith_exact (htable : db.MenusTable)
    (hquantities : ∀ item ∈ cmd.items, ∃ k : ℕ, item.quantity = .finite k)
    (hmenus : List.Forall₂ (db.Offers cmd.storeId) cmd.items menus) :
    ∀ item ∈ List.zipWith enrichWith cmd.items menus, item.Exact := by
  generalize cmd.items = items at hquantities hmenus
  induction hmenus with
  | nil => simp
  | cons hoffers _ ih =>
      intro enriched henriched
      rw [List.zipWith_cons_cons, List.mem_cons] at henriched
      obtain rfl | henriched := henriched
      · obtain ⟨q, hq⟩ := hoffers.unitPrice
        obtain ⟨n, hn, -⟩ := htable.prices _ hoffers.mem q hq
        exact ⟨⟨n, (congrArg (Cents · n) (MenuRow.price_of_some hq)).mpr hn⟩,
          hquantities _ List.mem_cons_self⟩
      · exact ih (fun item hitem => hquantities item (List.mem_cons_of_mem _ hitem)) _ henriched

/-- An amount that the validation has computed is written down four times. -/
theorem moneyConserved_of_offers (htable : db.MenusTable)
    (hquantities : ∀ item ∈ cmd.items, ∃ k : ℕ, item.quantity = .finite k)
    (hmenus : List.Forall₂ (db.Offers cmd.storeId) cmd.items menus)
    (hrequested : ofText? cmd.requestedAmount = some (priceTotal cmd.items menus)) :
    MoneyConserved db cmd (toFixed2 (priceTotal cmd.items menus))
      (List.zipWith enrichWith cmd.items menus) := by
  have hexact := zipWith_enrichWith_exact htable hquantities hmenus
  have htotal := itemsTotal_enrichWith cmd.items menus
  obtain ⟨n, hn⟩ := itemsTotal_cents hexact
  rw [← htotal] at hrequested ⊢
  refine ⟨map_zipWith_enrichWith (fun _ _ => rfl) hmenus,
    map_zipWith_enrichWith (fun _ _ => rfl) hmenus, ⟨menus, hmenus, rfl, ?_, ?_⟩, ?_, ?_⟩
  · rw [hn.ofText?_toFixed2, htotal]
  · rw [hrequested, htotal]
  · intro ctx jobMeta now stored stored' hcreate
    obtain ⟨row, rows, hpk, huk, hrow, hrows, rfl⟩ := Database.createOrder_eq_ok_true hcreate
    have hamount : row.calculatedAmount = itemsTotal (List.zipWith enrichWith cmd.items menus) :=
      hn.amountTextColumn_eq (Database.storedAs_of_toRow hrow).calculatedAmount
    refine ⟨row, rows, ?_, rfl, ?_, hamount⟩
    · exact (Relational.Table.find?_insert stored.orders row hpk huk ctx.orderId).trans
        (if_pos (Database.proposes_of_toRow hrow).id)
    · rw [hamount, sum_subtotal hrows hexact]
      rfl
  · intro ctx createdAt
    obtain ⟨lines, hlines, hsum⟩ := sum_lineTotal hexact
    refine ⟨lines, hlines, ?_, hsum⟩
    rw [hsum]
    exact total_buildXml_eq hn rfl

/-- The ids of offered menus are read, and so the query answers. -/
theorem findMenusByIds_of_offers
    (hmenus : List.Forall₂ (db.Offers cmd.storeId) cmd.items menus) :
    ∃ infos, db.findMenusByIds (cmd.items.map CommandItem.menuId) cmd.storeId = .ok infos := by
  cases hitems : cmd.items with
  | nil => exact ⟨[], rfl⟩
  | cons item rest =>
      have hstore : ∃ s, uuidColumn cmd.storeId = .ok s := by
        rw [hitems] at hmenus
        cases hmenus with
        | cons hoffers _ => exact ⟨_, hoffers.storeId⟩
      obtain ⟨s, hs⟩ := hstore
      rw [← hitems]
      refine Database.findMenusByIds_of_ok (menus.map MenuRow.id) ?_ hs
      rw [List.forall₂_map_left_iff, List.forall₂_map_right_iff]
      exact hmenus.imp fun _ _ hoffers => hoffers.menuId

/-- **Validation of items, against the menus table.** A command is let through exactly if the store
offers every item and the requested amount is the total to twenty digits. -/
theorem validateItems_iff_offers {w : World} (htable : w.db.MenusTable)
    (hfinite : ∀ item ∈ cmd.items, ∃ q, item.quantity = .finite q)
    (hcanonical : ∀ item ∈ cmd.items, IsCanonical item.menuId) (hfresh : w.MenusFresh cmd)
    {validated : String × List OrderItem} :
    menusFor w cmd >>= validateItems cmd = .ok validated ↔
      ∃ menus, List.Forall₂ (w.db.Offers cmd.storeId) cmd.items menus ∧
        ofText? cmd.requestedAmount =
          some (roundedTotal (List.zipWith enrichWith cmd.items menus)) ∧
        validated = (toFixed2 (roundedTotal (List.zipWith enrichWith cmd.items menus)),
          List.zipWith enrichWith cmd.items menus) := by
  -- what the item loop finds in the answer is what the table offers
  have hfound : ∀ infos,
      w.db.findMenusByIds (cmd.items.map CommandItem.menuId) cmd.storeId = .ok infos →
      ∀ found, List.Forall₂ (Orderable infos) cmd.items found ↔
        ∃ menus, List.Forall₂ (w.db.Offers cmd.storeId) cmd.items menus ∧
          found = menus.map MenuRow.info := by
    intro infos hfind found
    exact forall₂_iff_exists_map fun item hitem info =>
      orderable_iff htable hfind hitem (hcanonical item hitem)
  have henrich : ∀ menus : List MenuRow, List.zipWith enrich cmd.items (menus.map MenuRow.info) =
      List.zipWith enrichWith cmd.items menus := fun menus => List.zipWith_map_right ..
  rw [validated_of_fresh hfresh]
  constructor
  · intro h
    cases hfind : w.db.findMenusByIds (cmd.items.map CommandItem.menuId) cmd.storeId with
    | error e =>
        rw [hfind] at h
        cases h
    | ok infos =>
        rw [hfind] at h
        obtain ⟨found, horderable, hitems, hread, hamount⟩ := (validateItems_finite_iff hfinite).mp
          (h : validateItems cmd infos = .ok (validated.1, validated.2))
        obtain ⟨menus, hmenus, rfl⟩ := (hfound infos hfind found).mp horderable
        rw [henrich] at hitems
        rw [hitems] at hread hamount
        exact ⟨menus, hmenus, hread, Prod.ext hamount hitems⟩
  · rintro ⟨menus, hmenus, hread, rfl⟩
    obtain ⟨infos, hfind⟩ := findMenusByIds_of_offers hmenus
    rw [hfind]
    refine (validateItems_finite_iff hfinite).mpr
      ⟨menus.map MenuRow.info, (hfound infos hfind _).mpr ⟨menus, hmenus, rfl⟩, ?_, ?_, ?_⟩
    · rw [henrich]
    · rw [hread]
    · rfl

/-- Of whole quantities and a requested amount below 10^18, the total is the sum itself. -/
theorem requested_iff_priceTotal (htable : db.MenusTable)
    (hquantities : ∀ item ∈ cmd.items, ∃ k : ℕ, item.quantity = .finite k)
    (htotal : ∀ total, ofText? cmd.requestedAmount = some total → total < 10 ^ 18)
    (hmenus : List.Forall₂ (db.Offers cmd.storeId) cmd.items menus) :
    ofText? cmd.requestedAmount = some (roundedTotal (List.zipWith enrichWith cmd.items menus)) ↔
      ofText? cmd.requestedAmount = some (priceTotal cmd.items menus) := by
  have hexact := zipWith_enrichWith_exact htable hquantities hmenus
  rw [← itemsTotal_enrichWith]
  constructor
  · intro hread
    rw [hread, roundedTotal_eq hexact (.inl (htotal _ hread))]
  · intro hread
    rw [hread, roundedTotal_eq hexact (.inr (htotal _ hread))]

end Conservation

/-- **Money is conserved from request to POS**, in totals below 10^18.  A request is let through
exactly if its items are offered at that total, and then the amount is the same wherever it is
written. -/
theorem money_conserved {dto : CreateOrderDto} (hvalid : dto.Valid)
    (hcanonical : ∀ item ∈ dto.items, IsCanonical item.menuId)
    (htotal : ∀ total, ofText? dto.totalAmount = some total → total < 10 ^ 18) {w : World}
    (htable : w.db.MenusTable) (hfresh : w.MenusFresh (OrderController.command dto))
    (choices : ℕ → Choice) :
    (Quiet choices →
      ((∃ validated, (run Op.exec choices
          (validateAndEnrichItems (OrderController.command dto)) 0 w).1 = .ok validated) ↔
        ∃ menus, List.Forall₂ (w.db.Offers dto.storeId) (OrderController.command dto).items menus ∧
          ofText? dto.totalAmount = some (priceTotal (OrderController.command dto).items menus))) ∧
    ∀ calculatedAmount enrichedItems,
      (run Op.exec choices (validateAndEnrichItems (OrderController.command dto)) 0 w).1 =
          .ok (calculatedAmount, enrichedItems) →
        MoneyConserved w.db (OrderController.command dto) calculatedAmount enrichedItems := by
  -- a valid body has whole quantities and canonical ids, and so has its command
  have hcanonical' : ∀ item ∈ (OrderController.command dto).items, IsCanonical item.menuId := by
    intro item hitem
    obtain ⟨itemDto, hdto, rfl⟩ := List.mem_map.mp hitem
    exact hcanonical itemDto hdto
  have hquantities : ∀ item ∈ (OrderController.command dto).items, ∃ k : ℕ, item.quantity = .finite k := by
    intro item hitem
    obtain ⟨itemDto, hdto, rfl⟩ := List.mem_map.mp hitem
    obtain ⟨k, hk, -⟩ := (hvalid.items itemDto hdto).quantity
    exact ⟨k, congrArg JsNumber.finite hk⟩
  have hquantities' : ∀ item ∈ (OrderController.command dto).items, ∃ q, item.quantity = .finite q :=
    fun item hitem => (hquantities item hitem).imp' _ fun _ hk => hk
  -- the validation accepts what the table offers, at the total of its prices
  have hiff := @validateItems_iff_offers (OrderController.command dto) w htable hquantities'
    hcanonical' hfresh
  have hsum := fun menus => @requested_iff_priceTotal w.db (OrderController.command dto) menus htable
    hquantities htotal
  constructor
  · intro hquiet
    -- the lookup is answered, so the validation is that of the table's menus
    obtain hrun | ⟨hlost, -⟩ :=
      @run_validateAndEnrichItems (OrderController.command dto) choices w
    · rw [hrun]
      constructor
      · rintro ⟨validated, hvalidated⟩
        obtain ⟨menus, hmenus, hamount, -⟩ := hiff.mp hvalidated
        exact ⟨menus, hmenus, (hsum menus hmenus).mp hamount⟩
      · rintro ⟨menus, hmenus, hamount⟩
        exact ⟨_, hiff.mpr ⟨menus, hmenus, (hsum menus hmenus).mpr hamount, rfl⟩⟩
    · exact absurd hquiet hlost
  · intro calculatedAmount enrichedItems hok
    obtain hrun | ⟨-, e, herror⟩ :=
      @run_validateAndEnrichItems (OrderController.command dto) choices w
    · rw [hrun] at hok
      obtain ⟨menus, hmenus, hamount, hvalidated⟩ := hiff.mp hok
      have hprice := (hsum menus hmenus).mp hamount
      have htotals := Option.some.inj (hamount.symm.trans hprice)
      rw [htotals] at hvalidated
      cases hvalidated
      exact moneyConserved_of_offers htable hquantities hmenus hprice
    · rw [hok] at herror
      cases herror

/-! ## Two chickens and one -/

theorem Database.seed_menusTable : Database.seed.MenusTable where
  ids := by decide +kernel
  prices := by
    intro menu hmenu q hq
    simp only [Database.seed, List.mem_cons, List.not_mem_nil, or_false] at hmenu
    obtain rfl | rfl | rfl := hmenu
    · exact ⟨1800000, by norm_num [Cents, ← Option.some.inj hq], by norm_num⟩
    · exact ⟨1900000, by norm_num [Cents, ← Option.some.inj hq], by norm_num⟩
    · exact ⟨2000000, by norm_num [Cents, ← Option.some.inj hq], by norm_num⟩

/-- Two of one menu of the seed data, and one of another. -/
def seedDto : CreateOrderDto where
  idempotencyKey := "key-1"
  storeId := "11111111-1111-1111-1111-111111111111"
  userId := none
  totalAmount := "55000"
  items := [⟨"aaaaaaaa-aaaa-aaaa-aaaa-aaaaaaaaaaaa", 2⟩, ⟨"bbbbbbbb-bbbb-bbbb-bbbb-bbbbbbbbbbbb", 1⟩]

theorem money_conserved_seedDto :
    MoneyConserved Database.seed (OrderController.command seedDto) "55000.00"
      [⟨"aaaaaaaa-aaaa-aaaa-aaaa-aaaaaaaaaaaa", "후라이드치킨", 18000, 2⟩,
        ⟨"bbbbbbbb-bbbb-bbbb-bbbb-bbbbbbbbbbbb", "양념치킨", 19000, 1⟩] := by
  have hvalid : seedDto.Valid := by
    refine ⟨by decide, by decide, by decide, by decide, ?_⟩
    intro item hitem
    simp only [seedDto, List.mem_cons, List.not_mem_nil, or_false] at hitem
    obtain rfl | rfl := hitem
    · exact ⟨by decide, rfl, by decide⟩
    · exact ⟨by decide, rfl, by decide⟩
  have hcanonical : ∀ item ∈ seedDto.items, IsCanonical item.menuId := by
    intro item hitem
    simp only [seedDto, List.mem_cons, List.not_mem_nil, or_false] at hitem
    obtain rfl | rfl := hitem
    · exact ⟨⟨0xaaaaaaaaaaaaaaaaaaaaaaaaaaaaaaaa⟩, by decide +kernel⟩
    · exact ⟨⟨0xbbbbbbbbbbbbbbbbbbbbbbbbbbbbbbbb⟩, by decide +kernel⟩
  have htotal : ∀ total, ofText? seedDto.totalAmount = some total → total < 10 ^ 18 := by
    intro total hread
    have hamount : ofText? seedDto.totalAmount = some 55000 := by decide +kernel
    rw [hamount, Option.some.injEq] at hread
    rw [← hread]
    norm_num
  have hfresh : (World.init .seed).MenusFresh (OrderController.command seedDto) := by
    intro menus hcached
    cases hcached
  exact (money_conserved hvalid hcanonical htotal Database.seed_menusTable hfresh
    fun _ => .undisturbed 0).2 _ _ (by decide +kernel)

end ChickenOrder
