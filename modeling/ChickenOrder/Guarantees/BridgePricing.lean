import ChickenOrder.Guarantees.Money
import ChickenOrder.Services.Admission

/-!
# The price of options

`bridgeOrder` adds an item's `optionPrice` to the unit price it hands over, and `execute` takes
every unit price from the menus.  `pricedAsPaid_iff` says for which orders the two agree: for
those whose menus are sold at the price with the option, that is, unless the cache is stale,
without options.

The bridge's own sum is paid at the gateway before the order arrives, and nothing but the total
is compared with it.  So the prices can agree only through the menus: `admits_iff_soldAsPaid`
says what the validation admits at the paid prices, `soldAsPaid_iff_of_fresh` what that comes to
when the menus are those of the table.
-/

namespace ChickenOrder

open Interaction Interaction.Program
open CreateOrderService

namespace InternalBridgeController

section Statement

variable (dto : PricedOrderDto) (w : World)

/-- What was paid for each item. -/
def paidLines : List ℚ := dto.items.map fun item => (mapItem item).unitPrice * item.quantity.value

/-- What was paid at the gateway: menus of the store, with options, and their sum.  This is what the
bridge promises of the orders that it hands over. -/
structure PaidFor : Prop where
  items : ∀ item ∈ dto.items, ∃ menu, w.db.Offers dto.storeId (mapItem item).read menu ∧
    menu.unitPrice = some item.unitPrice.value
  options : ∀ item ∈ dto.items, ∀ optionPrice ∈ item.optionPrice, 0 ≤ optionPrice.value
  total : dto.totalAmount.value = (paidLines dto).sum

/-- The order is accepted, and its job has the prices that were paid, with options, item by item. -/
structure PricedAsPaid (ctx : ApiContext) (ended : Except OrderError BridgeReply × World) : Prop where
  accepted : ended.1 = .ok ⟨dto.orderId, ctx.orderId, false⟩
  published : ∃ calculatedAmount enrichedItems,
    ended.2.mainQueue = w.mainQueue ++
      [⟨.order ctx.orderId, payload (command dto.read) ctx calculatedAmount enrichedItems⟩] ∧
    enrichedItems.map OrderItem.unitPrice = dto.items.map (fun item => (mapItem item).unitPrice) ∧
    itemsTotal enrichedItems = dto.totalAmount.value ∧
    Decimal.ofText? calculatedAmount = some dto.totalAmount.value

/-- Among the menus that the order is validated with, every item is one that is available at the
price that was paid.  These menus may be older than the table. -/
def SoldAsPaid : Prop :=
  ∃ menus, menusFor w (command dto.read) = .ok menus ∧
    ∀ item ∈ dto.items, ∃ info, Orderable menus (mapItem item).read info ∧
      info.unitPrice = .amount (mapItem item).unitPrice

/-- The validation and the job lose nothing of the total: summed to twenty digits it is the same,
and it is whole hundredths. -/
structure KeepsTotal : Prop where
  sum : Decimal.plusAll 0 (paidLines dto) = (paidLines dto).sum
  hundredths : ∃ z : ℤ, dto.totalAmount.value = z / 100

/-- No option costs anything, and every menu id is as Postgres prints it.  The menus are looked up
by the text of their ids. -/
def WithoutOptions : Prop :=
  ∀ item ∈ dto.items, (∀ optionPrice ∈ item.optionPrice, optionPrice.value = 0) ∧
    IsCanonical item.menuId

end Statement

variable {dto : PricedOrderDto} {w : World} {ctx : ApiContext} {choices : ℕ → Choice}

/-- Quantities that are numbers in JSON are finite. -/
theorem finite_command : ∀ item ∈ (command dto.read).items, ∃ q, item.quantity = .finite q := by
  intro item hitem
  rw [dto.command_items] at hitem
  obtain ⟨priced, -, rfl⟩ := List.mem_map.mp hitem
  exact ⟨_, rfl⟩

/-! ## What is admitted at which prices -/

section Prices

variable {menus : List MenuInfo} {found : List MenuInfo} {items : List PricedItemDto}

/-- Completed items have the prices of their menus. -/
theorem unitPrices_eq_iff
    (hfound : List.Forall₂ (Orderable menus) (items.map fun item => (mapItem item).read) found) :
    (List.zipWith enrich (items.map fun item => (mapItem item).read) found).map OrderItem.unitPrice =
        items.map (fun item => (mapItem item).unitPrice) ↔
      List.Forall₂ (fun item info => Orderable menus (mapItem item).read info ∧
        info.unitPrice = .amount (mapItem item).unitPrice) items found := by
  rw [List.forall₂_map_left_iff] at hfound
  induction hfound with
  | nil => simp
  | cons hitem _ ih =>
      obtain ⟨q, hq⟩ := hitem.2.2
      simp only [List.map_cons, List.zipWith_cons_cons, List.cons.injEq, List.forall₂_cons, ih, enrich,
        and_iff_right hitem, hq, priceValue, MenuPrice.amount.injEq]

/-- Items at the prices that were paid have the lines that were paid. -/
theorem lineTotals_of_soldAsPaid
    (hfound : List.Forall₂ (fun item info => Orderable menus (mapItem item).read info ∧
      info.unitPrice = .amount (mapItem item).unitPrice) items found) :
    lineTotals (List.zipWith enrich (items.map fun item => (mapItem item).read) found) =
      items.map fun item => (mapItem item).unitPrice * item.quantity.value := by
  induction hfound with
  | nil => rfl
  | cons hitem _ ih =>
      unfold lineTotals at ih ⊢
      rw [List.map_cons, List.zipWith_cons_cons, List.map_cons, List.map_cons, ih, enrich, hitem.2]
      rfl

end Prices

/-- A job is what it was made of. -/
theorem payload_injective {cmd : CreateOrderCommand} {amount amount' : String}
    {items items' : List OrderItem} (h : payload cmd ctx amount items = payload cmd ctx amount' items') :
    amount = amount' ∧ items = items' :=
  ⟨congrArg OrderJobPayload.calculatedAmount h, congrArg OrderJobPayload.items h⟩

/-- The requested amount is the total that was paid. -/
theorem ofText?_requestedAmount (dto : PricedOrderDto) :
    Decimal.ofText? (command dto.read).requestedAmount = some dto.totalAmount.value :=
  Decimal.ofText?_toJsText dto.totalAmount.isDecimal

/-- **What is admitted at the prices that were paid.** The validation takes its prices from the
menus alone, so that the two agree only where the menus have the price with the option. -/
theorem admits_iff_soldAsPaid (hpaid : PaidFor dto w) :
    (∃ enrichedItems, Admits w (command dto.read) enrichedItems ∧
      enrichedItems.map OrderItem.unitPrice = dto.items.map (fun item => (mapItem item).unitPrice) ∧
      itemsTotal enrichedItems = dto.totalAmount.value) ↔
        SoldAsPaid dto w ∧ Decimal.plusAll 0 (paidLines dto) = (paidLines dto).sum := by
  constructor
  · rintro ⟨enrichedItems, ⟨⟨menus, found, hmenus, hfound, rfl⟩, hamount⟩, hprices, -⟩
    rw [dto.command_items] at hfound hprices hamount
    have hsold := (unitPrices_eq_iff hfound).mp hprices
    refine ⟨⟨menus, hmenus, fun item hitem => ?_⟩, ?_⟩
    · obtain ⟨i, hi, rfl⟩ := List.getElem_of_mem hitem
      exact ⟨_, hsold.get hi (hsold.length_eq ▸ hi)⟩
    · rw [ofText?_requestedAmount, Option.some.injEq, hpaid.total, roundedTotal,
        lineTotals_of_soldAsPaid hsold] at hamount
      exact hamount.symm
  · rintro ⟨⟨menus, hmenus, hsold⟩, hsum⟩
    obtain ⟨found, hfound⟩ := exists_forall₂ hsold
    have horderable : List.Forall₂ (Orderable menus) (dto.items.map fun item => (mapItem item).read)
        found := by
      rw [List.forall₂_map_left_iff]
      exact hfound.imp fun _ _ h => h.1
    have hprices := (unitPrices_eq_iff horderable).mpr hfound
    have hlines : lineTotals (List.zipWith enrich (command dto.read).items found) = paidLines dto := by
      rw [dto.command_items]
      exact lineTotals_of_soldAsPaid hfound
    rw [← dto.command_items] at horderable hprices
    refine ⟨_, ⟨⟨menus, found, hmenus, horderable, rfl⟩, ?_⟩, hprices, ?_⟩
    · rw [ofText?_requestedAmount, roundedTotal, hlines, hsum, hpaid.total]
    · rw [itemsTotal, hlines, hpaid.total]

/-! ## Without a stale cache -/

/-- The row an item names is the only one. -/
theorem offers_unique {db : Database} (htable : db.MenusTable) {storeId : String} {item : CommandItem}
    {menu menu' : MenuRow} (h : db.Offers storeId item menu) (h' : db.Offers storeId item menu') :
    menu = menu' := by
  have hid := h.menuId
  rw [h'.menuId, Except.ok.injEq] at hid
  exact List.inj_on_of_nodup_map htable.ids h.mem h'.mem hid.symm

/-- What is in the cache makes no difference if it is what the table answers. -/
theorem soldAsPaid_iff_of_answer (hfresh : w.MenusFresh (command dto.read)) :
    SoldAsPaid dto w ↔ ∃ menus, w.db.findMenusByIds
        ((command dto.read).items.map CommandItem.menuId) (command dto.read).storeId = .ok menus ∧
      ∀ item ∈ dto.items, ∃ info, Orderable menus (mapItem item).read info ∧
        info.unitPrice = .amount (mapItem item).unitPrice := by
  unfold SoldAsPaid
  obtain hsame | ⟨answer, hfind, hcached⟩ := menusFor_of_fresh hfresh
  · rw [hsame]
  · rw [hcached, hfind]
    simp only [Except.ok.injEq, exists_eq_left', orderable_throughJson_iff]

/-- **With menus as they are in the table, an order is sold as paid exactly without options**: the
table has the unit prices, and an option would have to cost nothing. -/
theorem soldAsPaid_iff_of_fresh (htable : w.db.MenusTable) (hpaid : PaidFor dto w)
    (hfresh : w.MenusFresh (command dto.read)) : SoldAsPaid dto w ↔ WithoutOptions dto := by
  -- the row has the base price, to which `mapItem` has added that of the options
  have hprice : ∀ item ∈ dto.items, ∀ menu, w.db.Offers dto.storeId (mapItem item).read menu →
      (menu.info.unitPrice = .amount (mapItem item).unitPrice ↔
        ∀ optionPrice ∈ item.optionPrice, optionPrice.value = 0) := by
    intro item hitem menu hoffers
    obtain ⟨menu', hoffers', hunit⟩ := hpaid.items item hitem
    rw [offers_unique htable hoffers hoffers', MenuRow.info, MenuPrice.ofColumn_eq_amount_iff, hunit]
    unfold mapItem
    cases item.optionPrice with
    | none => simp
    | some optionPrice => simp
  have hofCommand : ∀ item ∈ dto.items, (mapItem item).read ∈ (command dto.read).items := by
    intro item hitem
    rw [dto.command_items]
    exact List.mem_map_of_mem hitem
  rw [soldAsPaid_iff_of_answer hfresh]
  constructor
  · -- a menu is only found under the spelling that the database prints
    rintro ⟨menus, hfind, hsold⟩ item hitem
    obtain ⟨info, horderable, hinfo⟩ := hsold item hitem
    obtain ⟨hmem, hid⟩ := mem_of_lookupMenu horderable.1
    have hcanonical : IsCanonical (mapItem item).read.menuId :=
      hid ▸ isCanonical_of_findMenusByIds hfind info hmem
    obtain ⟨menu, hoffers, rfl⟩ :=
      (orderable_iff htable hfind (hofCommand item hitem) hcanonical).mp horderable
    exact ⟨(hprice item hitem menu hoffers).mp hinfo, hcanonical⟩
  · intro hwithout
    obtain ⟨rows, hrows⟩ := exists_forall₂ hpaid.items
    have hoffered : List.Forall₂ (w.db.Offers (command dto.read).storeId) (command dto.read).items
        rows := by
      rw [dto.command_items, List.forall₂_map_left_iff]
      exact hrows.imp fun _ _ h => h.1
    obtain ⟨menus, hfind⟩ := findMenusByIds_of_offers hoffered
    refine ⟨menus, hfind, fun item hitem => ?_⟩
    obtain ⟨hfree, hcanonical⟩ := hwithout item hitem
    obtain ⟨menu, hoffers, -⟩ := hpaid.items item hitem
    exact ⟨menu.info, (orderable_iff htable hfind (hofCommand item hitem) hcanonical).mpr
      ⟨menu, hoffers, rfl⟩, (hprice item hitem menu hoffers).mpr hfree⟩

/-- Nothing is lost of prices in hundredths and whole quantities: their sums have less than twenty
digits below 10^18. -/
theorem keepsTotal_of_whole (hpaid : PaidFor dto w)
    (hwhole : ∀ item ∈ dto.items, (∃ n, Decimal.Cents (mapItem item).unitPrice n) ∧
      ∃ k : ℕ, item.quantity.value = k) (hlt : dto.totalAmount.value < 10 ^ 18) :
    KeepsTotal dto := by
  have hcents : ∀ line ∈ paidLines dto, ∃ n, Decimal.Cents line n := by
    intro line hline
    obtain ⟨item, hitem, rfl⟩ := List.mem_map.mp hline
    obtain ⟨⟨n, hn⟩, k, hk⟩ := hwhole item hitem
    exact ⟨n * k, hk ▸ hn.mul k⟩
  refine ⟨Decimal.plusAll_eq hcents (.inr (hpaid.total ▸ hlt)), ?_⟩
  obtain ⟨n, hn⟩ := Decimal.sum_cents hcents
  exact ⟨n, hpaid.total.trans (hn.trans (by push_cast; rfl))⟩

/-! ## The run -/

/-- A request with the bridge's key runs as `execute` does. -/
theorem run_bridgeOrder {bridgeApiKey : String} {apiKey : Option String}
    (hkey : bridgeApiKey = "" ∨ apiKey = some bridgeApiKey) (body : BridgeOrderDto) :
    run Op.exec choices (bridgeOrder bridgeApiKey apiKey body ctx) 0 w =
      ((run Op.exec choices (execute (command body) ctx) 0 w).1.map fun result =>
        ⟨body.orderId, result.orderId, result.replayed⟩,
        (run Op.exec choices (execute (command body) ctx) 0 w).2) := by
  have hadmitted : ¬ (bridgeApiKey ≠ "" ∧ apiKey ≠ some bridgeApiKey) := by
    rintro ⟨hconfigured, hwrong⟩
    exact hkey.elim hconfigured hwrong
  unfold bridgeOrder
  rw [if_neg hadmitted]
  exact run_map Op.exec choices _ _ 0 w

/-- **An order is priced as paid exactly if it is sold as paid**, at a total that is kept. -/
theorem pricedAsPaid_iff_soldAsPaid {bridgeApiKey : String} {apiKey : Option String}
    (hkey : bridgeApiKey = "" ∨ apiKey = some bridgeApiKey) (hquiet : Quiet choices)
    (hfree : w.idempotency (IdempotencyService.pendingKey dto.orderId) = none)
    (hnew : JobId.order ctx.orderId ∉ w.mainQueue.map Job.id) (hpaid : PaidFor dto w) :
    PricedAsPaid dto w ctx (run Op.exec choices (bridgeOrder bridgeApiKey apiKey dto.read ctx) 0 w) ↔
      SoldAsPaid dto w ∧ KeepsTotal dto := by
  have hqueue : ∀ amount items,
      (w.mainQueueAdd (payload (command dto.read) ctx amount items)).mainQueue =
        w.mainQueue ++ [⟨.order ctx.orderId, payload (command dto.read) ctx amount items⟩] := by
    intro amount items
    rw [World.mainQueueAdd_of_not_mem hnew]
    rfl
  have hkeeps : SoldAsPaid dto w ∧ KeepsTotal dto ↔
      (SoldAsPaid dto w ∧ Decimal.plusAll 0 (paidLines dto) = (paidLines dto).sum) ∧
        Decimal.round2 dto.totalAmount.value = dto.totalAmount.value := by
    rw [Decimal.round2_eq_self_iff, and_assoc]
    exact and_congr_right fun _ => ⟨fun h => ⟨h.1, h.2⟩, fun h => ⟨h.1, h.2⟩⟩
  -- the total of admitted items is the requested one
  have hrounded : ∀ {items}, Admits w (command dto.read) items →
      roundedTotal items = dto.totalAmount.value := by
    intro items hadmits
    have hamount := hadmits.amount
    rw [ofText?_requestedAmount, Option.some.injEq] at hamount
    exact hamount.symm
  rw [run_bridgeOrder hkey, hkeeps, ← admits_iff_soldAsPaid hpaid]
  constructor
  · rintro ⟨haccepted, amount, items, hjob, hprices, htotal, hamount⟩
    cases hvalidated : menusFor w (command dto.read) >>= validateItems (command dto.read) with
    | error err =>
        have hrejected := (run_execute_of_error ctx hquiet hfree hvalidated).1
        rw [hrejected] at haccepted
        cases haccepted
    | ok validated =>
        obtain ⟨-, hsent, -⟩ := run_execute_of_ok ctx hquiet hfree hvalidated
        rw [hsent, hqueue] at hjob
        obtain ⟨hsame, hitems⟩ :=
          payload_injective (congrArg Job.data (List.singleton_inj.mp (List.append_cancel_left hjob)))
        obtain ⟨hadmits, htext⟩ := (validated_iff_admits finite_command).mp hvalidated
        rw [hitems] at hadmits htext
        rw [← hsame, htext, Decimal.ofText?_toFixed2, hrounded hadmits, Option.some.injEq] at hamount
        exact ⟨⟨items, hadmits, hprices, htotal⟩, hamount⟩
  · rintro ⟨⟨items, hadmits, hprices, htotal⟩, hround⟩
    obtain ⟨hok, hsent, -⟩ := run_execute_of_ok ctx hquiet hfree
      ((validated_iff_admits finite_command).mpr ⟨hadmits, rfl⟩)
    refine ⟨?_, _, items, hsent.trans (hqueue _ _), hprices, htotal, ?_⟩
    · rw [hok]
      rfl
    · rw [Decimal.ofText?_toFixed2, hrounded hadmits, hround]

/-- **When an order is priced as the bridge prices it.**  Exactly if the menus that it is validated
with have the prices with options and nothing of the total is lost; and these are, if they are
the table's, orders without options.  Of whole quantities nothing is lost below 10^18. -/
theorem pricedAsPaid_iff {bridgeApiKey : String} {apiKey : Option String}
    (hkey : bridgeApiKey = "" ∨ apiKey = some bridgeApiKey) (hquiet : Quiet choices)
    (hfree : w.idempotency (IdempotencyService.pendingKey dto.orderId) = none)
    (hnew : JobId.order ctx.orderId ∉ w.mainQueue.map Job.id) (htable : w.db.MenusTable)
    (hpaid : PaidFor dto w) :
    (PricedAsPaid dto w ctx
        (run Op.exec choices (bridgeOrder bridgeApiKey apiKey dto.read ctx) 0 w) ↔
      SoldAsPaid dto w ∧ KeepsTotal dto) ∧
    (w.MenusFresh (command dto.read) → (SoldAsPaid dto w ↔ WithoutOptions dto)) ∧
    ((∀ item ∈ dto.items, (∃ n, Decimal.Cents (mapItem item).unitPrice n) ∧
      ∃ k : ℕ, item.quantity.value = k) → dto.totalAmount.value < 10 ^ 18 → KeepsTotal dto) :=
  ⟨pricedAsPaid_iff_soldAsPaid hkey hquiet hfree hnew hpaid, soldAsPaid_iff_of_fresh htable hpaid,
    keepsTotal_of_whole hpaid⟩

/-! ## A chicken with an option -/

/-- Two of one menu, each with an option at the given price. -/
def optionDto (optionPrice : ℕ) : PricedOrderDto where
  orderId := "bridge-1"
  storeId := "11111111-1111-1111-1111-111111111111"
  items := [⟨"aaaaaaaa-aaaa-aaaa-aaaa-aaaaaaaaaaaa", "후라이드치킨", ⟨(2 : ℕ), Decimal.isDecimal_natCast 2⟩,
    ⟨(18000 : ℕ), Decimal.isDecimal_natCast 18000⟩,
    some ⟨optionPrice, Decimal.isDecimal_natCast optionPrice⟩⟩]
  totalAmount := ⟨((18000 + optionPrice) * 2 : ℕ), Decimal.isDecimal_natCast _⟩

theorem paidFor_optionDto (optionPrice : ℕ) : PaidFor (optionDto optionPrice) (World.init .seed) where
  items := by
    intro item hitem
    rw [List.mem_singleton.mp hitem]
    have hmenu : uuidColumn "aaaaaaaa-aaaa-aaaa-aaaa-aaaaaaaaaaaa" =
        .ok ⟨0xaaaaaaaaaaaaaaaaaaaaaaaaaaaaaaaa⟩ := by decide +kernel
    have hstore : uuidColumn "11111111-1111-1111-1111-111111111111" =
        .ok ⟨0x11111111111111111111111111111111⟩ := by decide +kernel
    exact ⟨_, ⟨List.mem_cons_self, hmenu, hstore, rfl, _, rfl⟩, by norm_num [optionDto]⟩
  options := by
    intro item hitem
    rw [List.mem_singleton.mp hitem]
    rintro _ ⟨rfl⟩
    exact Nat.cast_nonneg optionPrice
  total := by
    simp [optionDto, paidLines, mapItem]

theorem fresh_optionDto (optionPrice : ℕ) :
    (World.init .seed).MenusFresh (command (optionDto optionPrice).read) := nofun

/-- Where the option is free, the order is priced as it was paid. -/
theorem pricedAsPaid_iff_free :
    PricedAsPaid (optionDto 0) (World.init .seed) seedContext
      (run Op.exec (fun n => .undisturbed n)
        (bridgeOrder "" none (optionDto 0).read seedContext) 0 (World.init .seed)) := by
  obtain ⟨hiff, hfresh, hwhole⟩ := @pricedAsPaid_iff (optionDto 0) (World.init .seed) seedContext
    (fun n => .undisturbed n) "" none (.inl rfl) (fun _ => rfl) rfl List.not_mem_nil
    Database.seed_menusTable (paidFor_optionDto 0)
  refine hiff.mpr ⟨(hfresh (fresh_optionDto 0)).mpr ?_, hwhole ?_ (by norm_num [optionDto])⟩
  · intro item hitem
    rw [List.mem_singleton.mp hitem]
    refine ⟨?_, ⟨0xaaaaaaaaaaaaaaaaaaaaaaaaaaaaaaaa⟩, by decide +kernel⟩
    rintro _ ⟨rfl⟩
    exact Nat.cast_zero
  · intro item hitem
    rw [List.mem_singleton.mp hitem]
    exact ⟨⟨1800000, by norm_num [mapItem, Decimal.Cents]⟩, 2, rfl⟩

/-- An option of 1000 on each of them: the bridge has been paid 38000, the menus say 36000, and the
order is refused. -/
theorem not_pricedAsPaid_of_option :
    ¬ ∀ (dto : PricedOrderDto) (w : World) (ctx : ApiContext) (choices : ℕ → Choice),
      Quiet choices → w.idempotency (IdempotencyService.pendingKey dto.orderId) = none →
      JobId.order ctx.orderId ∉ w.mainQueue.map Job.id → w.db.MenusTable →
      w.MenusFresh (command dto.read) → PaidFor dto w →
        PricedAsPaid dto w ctx (run Op.exec choices (bridgeOrder "" none dto.read ctx) 0 w) := by
  intro h
  have hpriced := h (optionDto 1000) (World.init .seed) seedContext (fun n => .undisturbed n)
    (fun _ => rfl) rfl List.not_mem_nil Database.seed_menusTable (fresh_optionDto 1000)
    (paidFor_optionDto 1000)
  have hsold := ((pricedAsPaid_iff_soldAsPaid (.inl rfl) (fun _ => rfl) rfl List.not_mem_nil
    (paidFor_optionDto 1000)).mp hpriced).1
  have hfree := (soldAsPaid_iff_of_fresh Database.seed_menusTable (paidFor_optionDto 1000)
    (fresh_optionDto 1000)).mp hsold
  have hoption := (hfree _ List.mem_cons_self).1 _ rfl
  norm_num at hoption

end InternalBridgeController

end ChickenOrder
