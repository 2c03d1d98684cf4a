import ChickenOrder.Database.Columns
import ChickenOrder.Services.CreateOrder

/-!
# What `validateAndEnrichItems` checks

The item loop of `CreateOrderService` with its accumulators, as one relation between the
items of a command and the menus they are completed with, and the two ways the menus are
come by: the cache, and the table.

The relation is `Orderable`: each item is found among the menus, and its menu is available.
From it the loop is described in both directions.  What it returns is the list of the items
completed with their menus and the total of their lines; what it throws is the error of the
first item that is not found, not available, or priced with what `decimal.js` does not read.

A price of `NaN` makes the total `NaN` without an error, and the comparison with the requested
amount then fails.  What the cache makes of it is `null`, at which the loop ends.
-/

namespace ChickenOrder

open Interaction Interaction.Program

/-- A row as `findMenusByIds` answers it. -/
def MenuRow.info (menu : MenuRow) : MenuInfo :=
  ⟨menu.id.toText, menu.name, .ofColumn menu.unitPrice, menu.isAvailable⟩

namespace Database

variable {db : Database} {ids : List String} {store : String} {menus : List MenuInfo}

/-- What `findMenusByIds` answers, where it reads its parameters. -/
theorem findMenusByIds_eq_ok (hids : ids ≠ []) (h : db.findMenusByIds ids store = .ok menus) :
    ∃ us s, List.Forall₂ (fun id u => uuidColumn id = .ok u) ids us ∧ uuidColumn store = .ok s ∧
      menus = (db.menus.filter fun menu => menu.id ∈ us ∧ menu.storeId = s).map MenuRow.info := by
  unfold findMenusByIds at h
  rw [if_neg (by simpa using hids)] at h
  split at h
  · rename_i us s hus hs
    cases h
    exact ⟨us, s, mapM_eq_ok_iff.mp hus, hs, rfl⟩
  · cases h
  · cases h

/-- With ids that are UUIDs the query selects by them and by the store. -/
theorem findMenusByIds_of_forall₂ (hids : ids ≠ []) {us : List Uuid} {s : Uuid}
    (hus : List.Forall₂ (fun id u => uuidColumn id = .ok u) ids us) (hs : uuidColumn store = .ok s) :
    db.findMenusByIds ids store =
      .ok ((db.menus.filter fun menu => menu.id ∈ us ∧ menu.storeId = s).map MenuRow.info) := by
  unfold findMenusByIds
  rw [if_neg (by simpa using hids), mapM_eq_ok_iff.mpr hus, hs]
  rfl

theorem findMenusByIds_of_ok (us : List Uuid) {s : Uuid}
    (hids : List.Forall₂ (fun id u => uuidColumn id = .ok u) ids us)
    (hstore : uuidColumn store = .ok s) : ∃ menus, db.findMenusByIds ids store = .ok menus := by
  by_cases hnil : ids = []
  · subst hnil
    exact ⟨[], rfl⟩
  · exact ⟨_, findMenusByIds_of_forall₂ hnil hids hstore⟩

/-- The answer depends on which ids there are and which rows, not on their order. -/
theorem findMenusByIds_perm {db' : Database} {ids' : List String} (hrows : db'.menus.Perm db.menus)
    (hids : ids'.Perm ids) (h : db'.findMenusByIds ids' store = .ok menus) :
    ∃ rows, db.findMenusByIds ids store = .ok rows ∧ menus.Perm rows := by
  by_cases hnil : ids' = []
  · subst hnil
    rw [hids.symm.eq_nil]
    exact ⟨menus, h, .refl _⟩
  · obtain ⟨us', s, hus', hs, rfl⟩ := findMenusByIds_eq_ok hnil h
    obtain ⟨us, hus, hperm⟩ := List.perm_comp_forall₂ hids.symm hus'
    have hnil' : ids ≠ [] := fun hnil' => hnil (hnil' ▸ hids).eq_nil
    refine ⟨_, findMenusByIds_of_forall₂ hnil' hus hs, List.Perm.map _ ?_⟩
    refine (hrows.filter _).trans (List.Perm.of_eq ?_)
    exact List.filter_congr fun menu _ => by simp [hperm.mem_iff]

/-- No two rows of an answer have one id. -/
theorem nodup_findMenusByIds (hpk : (db.menus.map MenuRow.id).Nodup)
    (h : db.findMenusByIds ids store = .ok menus) : (menus.map MenuInfo.id).Nodup := by
  by_cases hnil : ids = []
  · subst hnil
    cases h
    exact List.nodup_nil
  · obtain ⟨us, s, -, -, rfl⟩ := findMenusByIds_eq_ok hnil h
    have hrows : ((db.menus.filter fun menu => menu.id ∈ us ∧ menu.storeId = s).map
        MenuRow.id).Nodup := (List.filter_sublist.map MenuRow.id).nodup hpk
    have htexts := hrows.map Uuid.toText_injective
    rw [List.map_map] at htexts ⊢
    exact htexts

end Database

/-- A witness to each element makes a list of witnesses. -/
theorem exists_forall₂ {α β : Type} {R : α → β → Prop} {as : List α} (h : ∀ a ∈ as, ∃ b, R a b) :
    ∃ bs, List.Forall₂ R as bs := by
  induction as with
  | nil => exact ⟨[], .nil⟩
  | cons a as ih =>
      obtain ⟨b, hb⟩ := h a List.mem_cons_self
      obtain ⟨bs, hbs⟩ := ih fun a' ha' => h a' (List.mem_cons_of_mem _ ha')
      exact ⟨b :: bs, .cons hb hbs⟩

namespace CreateOrderService

/-! ## The map of menus -/

section Lookup

variable {menus : List MenuInfo} {id : String} {menu : MenuInfo}

/-- The menu that is found is one of them and has the id. -/
theorem mem_of_lookupMenu (h : lookupMenu menus id = some menu) : menu ∈ menus ∧ menu.id = id :=
  ⟨List.mem_reverse.mp (List.mem_of_find?_eq_some h), by simpa using List.find?_some h⟩

/-- With one menu to an id, the map finds each. -/
theorem lookupMenu_eq_some_iff (hnodup : (menus.map MenuInfo.id).Nodup) :
    lookupMenu menus id = some menu ↔ menu ∈ menus ∧ menu.id = id := by
  refine ⟨mem_of_lookupMenu, ?_⟩
  rintro ⟨hmem, rfl⟩
  cases hfind : lookupMenu menus menu.id with
  | none =>
      have hnone := List.find?_eq_none.mp hfind menu (List.mem_reverse.mpr hmem)
      simp at hnone
  | some other =>
      obtain ⟨hother, hid⟩ := mem_of_lookupMenu hfind
      rw [List.inj_on_of_nodup_map hnodup hother hmem hid]

/-- The map does not depend on the order of the menus. -/
theorem lookupMenu_perm {menus' : List MenuInfo} (hnodup : (menus.map MenuInfo.id).Nodup)
    (hperm : menus'.Perm menus) : lookupMenu menus' = lookupMenu menus := by
  funext id
  refine Option.ext fun menu => ?_
  rw [lookupMenu_eq_some_iff hnodup, lookupMenu_eq_some_iff ((hperm.map _).nodup_iff.mpr hnodup),
    hperm.mem_iff]

/-- The item loop reads the menus through the map only. -/
theorem enrichItems_congr {menus' : List MenuInfo} (h : lookupMenu menus' = lookupMenu menus)
    (items : List CommandItem) (calculatedTotal : JsNumber) (enrichedItems : List OrderItem) :
    enrichItems menus' items calculatedTotal enrichedItems =
      enrichItems menus items calculatedTotal enrichedItems := by
  induction items generalizing calculatedTotal enrichedItems with
  | nil => rfl
  | cons item rest ih => simp only [enrichItems, h, ih]

/-- Validation only looks menus up, and so the order of the rows does not matter. -/
theorem validateItems_congr {menus' : List MenuInfo} (h : lookupMenu menus' = lookupMenu menus)
    (cmd : CreateOrderCommand) : validateItems cmd menus' = validateItems cmd menus := by
  simp only [validateItems, enrichItems_congr h]

end Lookup

/-! ## The item loop -/

/-- An item, completed with its menu. -/
def enrich (item : CommandItem) (menu : MenuInfo) : OrderItem :=
  ⟨item.menuId, menu.name, priceValue menu.unitPrice, item.quantity⟩

/-- The item finds its menu, and that can be ordered and has an amount for its price. -/
def Orderable (menus : List MenuInfo) (item : CommandItem) (menu : MenuInfo) : Prop :=
  lookupMenu menus item.menuId = some menu ∧ menu.isAvailable ∧ ∃ q, menu.unitPrice = .amount q

/-- The accumulator of the loop, after `items`. -/
def addItems (total : JsNumber) (items : List OrderItem) : JsNumber :=
  items.foldl (fun total item => total.add (.scale item.unitPrice item.quantity)) total

/-- Once the total is `NaN`, it stays. -/
theorem enrichItems_nan {menus : List MenuInfo} {items : List CommandItem}
    {enrichedItems enrichedItems' : List OrderItem} {calculatedTotal' : JsNumber}
    (h : enrichItems menus items .nan enrichedItems = .ok (calculatedTotal', enrichedItems')) :
    calculatedTotal' = .nan := by
  induction items generalizing enrichedItems with
  | nil =>
      cases h
      rfl
  | cons item rest ih =>
      rw [enrichItems] at h
      split at h
      · cases h
      · split at h
        · cases h
        · split at h
          · cases h
          · exact ih h

/-- **The loop completes every item or fails**, but for totals that are `NaN`. -/
theorem enrichItems_eq_ok_iff {menus : List MenuInfo} {items : List CommandItem}
    {calculatedTotal calculatedTotal' : JsNumber} {enrichedItems enrichedItems' : List OrderItem}
    (hnan : calculatedTotal' ≠ .nan) :
    enrichItems menus items calculatedTotal enrichedItems =
        .ok (calculatedTotal', enrichedItems') ↔
      ∃ found, List.Forall₂ (Orderable menus) items found ∧
        enrichedItems' = enrichedItems ++ List.zipWith enrich items found ∧
        calculatedTotal' = addItems calculatedTotal (List.zipWith enrich items found) := by
  induction items generalizing calculatedTotal enrichedItems with
  | nil =>
      constructor
      · intro h
        cases h
        exact ⟨[], .nil, by simp, by simp [addItems]⟩
      · rintro ⟨found, hfound, rfl, rfl⟩
        cases hfound
        simp [enrichItems]
  | cons item rest ih =>
      rw [enrichItems]
      constructor
      · intro h
        split at h
        · cases h
        · rename_i menu hmenu
          split at h
          · cases h
          · rename_i havailable
            cases hprice : menu.unitPrice with
            | null =>
                rw [hprice] at h
                cases h
            | nan =>
                -- the total is not a number from here on
                rw [hprice] at h
                have hadd : calculatedTotal.add .nan = .nan := by cases calculatedTotal <;> rfl
                simp only [lineTotal?, hadd] at h
                exact absurd (enrichItems_nan h) hnan
            | amount q =>
                simp only [hprice, lineTotal?] at h
                obtain ⟨found, hfound, rfl, rfl⟩ := ih.mp h
                refine ⟨menu :: found, .cons ⟨hmenu, not_not.mp havailable, q, hprice⟩ hfound, ?_, ?_⟩
                · simp [enrich, hprice]
                · simp [enrich, addItems, hprice, priceValue]
      · rintro ⟨found, hfound, rfl, rfl⟩
        cases hfound with
        | @cons _ menu _ found hmenu hrest =>
            obtain ⟨hlookup, havailable, q, hprice⟩ := hmenu
            simp only [hlookup, havailable, not_true_eq_false, if_false, hprice, lineTotal?]
            refine ih.mpr ⟨found, hrest, ?_, ?_⟩
            · simp [enrich, hprice]
            · simp [enrich, addItems, hprice, priceValue]

/-! ## The sum of the lines -/

/-- The line totals, in finite quantities. -/
def lineTotals (items : List OrderItem) : List ℚ :=
  items.map fun item => item.unitPrice * item.quantity.value

/-- The sum of the line totals. -/
def itemsTotal (items : List OrderItem) : ℚ := (lineTotals items).sum

/-- The same sum as the loop makes it. -/
def roundedTotal (items : List OrderItem) : ℚ := Decimal.plusAll 0 (lineTotals items)

/-- Finite quantities have a finite total. -/
theorem addItems_finite {items : List OrderItem} (h : ∀ item ∈ items, ∃ q, item.quantity = .finite q) :
    addItems 0 items = .finite (roundedTotal items) := by
  have hfrom : ∀ total : ℚ,
      addItems (.finite total) items = .finite (Decimal.plusAll total (lineTotals items)) := by
    induction items with
    | nil => exact fun total => rfl
    | cons item rest ih =>
        intro total
        obtain ⟨q, hq⟩ := h item List.mem_cons_self
        have hrest := ih (fun item' hitem' => h item' (List.mem_cons_of_mem _ hitem'))
          (Decimal.round20 (total + Decimal.round20 (item.unitPrice * q)))
        have hline : lineTotals (item :: rest) = item.unitPrice * q :: lineTotals rest := by
          rw [lineTotals, List.map_cons, hq]
          rfl
        rw [addItems, List.foldl_cons, hq, hline]
        exact hrest
  exact hfrom 0

/-! ## The total -/

/-- A text reads as a finite number where it is decimal notation. -/
theorem ofDecimalText?_eq_finite_iff {s : String} {q : ℚ} :
    JsNumber.ofDecimalText? s = some (.finite q) ↔ Decimal.ofText? s = some q := by
  -- the names of the other numbers are no decimals
  have hnan : Decimal.ofText? "NaN" = none := by decide
  have hpos : Decimal.ofText? "Infinity" = none := by decide
  have hneg : Decimal.ofText? "-Infinity" = none := by decide
  unfold JsNumber.ofDecimalText?
  split
  · rename_i hs
    simp [hs, hnan]
  · split
    · rename_i hs
      simp [hs, hpos]
    · split
      · rename_i hs
        simp [hs, hneg]
      · simp

/-- The check succeeds if the requested amount can be read and equals the total. -/
theorem checkAmount_eq_ok_iff {requestedAmount : String} {calculatedTotal : JsNumber} :
    checkAmount requestedAmount calculatedTotal = .ok () ↔
      ∃ requested, JsNumber.ofDecimalText? requestedAmount = some requested ∧
        calculatedTotal.equals requested := by
  unfold checkAmount
  split
  · rename_i hnone
    simp [hnone]
  · rename_i requested hread
    split
    · rename_i heq
      simp [hread, heq]
    · rename_i hne
      simp [hread, hne]

/-- No total that is `NaN` passes. -/
theorem ne_nan_of_checkAmount {requestedAmount : String} {calculatedTotal : JsNumber}
    (h : checkAmount requestedAmount calculatedTotal = .ok ()) : calculatedTotal ≠ .nan := by
  rintro rfl
  obtain ⟨requested, -, heq⟩ := checkAmount_eq_ok_iff.mp h
  cases heq

/-- Of a finite total: if it is the requested amount. -/
theorem checkAmount_finite_iff {requestedAmount : String} {q : ℚ} :
    checkAmount requestedAmount (.finite q) = .ok () ↔ Decimal.ofText? requestedAmount = some q := by
  rw [checkAmount_eq_ok_iff]
  constructor
  · rintro ⟨requested, hread, heq⟩
    cases requested with
    | finite r =>
        rw [ofDecimalText?_eq_finite_iff] at hread
        rw [hread, of_decide_eq_true heq]
    | infinite negative => cases heq
    | nan => cases heq
  · intro hread
    exact ⟨.finite q, ofDecimalText?_eq_finite_iff.mpr hread, decide_eq_true rfl⟩

/-- **What the validation of the items has checked.** -/
theorem validateItems_eq_ok_iff {cmd : CreateOrderCommand} {menus : List MenuInfo}
    {calculatedAmount : String} {enrichedItems : List OrderItem} :
    validateItems cmd menus = .ok (calculatedAmount, enrichedItems) ↔
      ∃ found, List.Forall₂ (Orderable menus) cmd.items found ∧
        enrichedItems = List.zipWith enrich cmd.items found ∧
        checkAmount cmd.requestedAmount (addItems 0 enrichedItems) = .ok () ∧
        calculatedAmount = (addItems 0 enrichedItems).toFixed2 := by
  unfold validateItems
  constructor
  · intro h
    split at h
    · cases h
    · rename_i calculatedTotal items henrich
      split at h
      · cases h
      · rename_i hcheck
        cases h
        have hnan : calculatedTotal ≠ .nan := ne_nan_of_checkAmount hcheck
        obtain ⟨found, hfound, hitems, htotal⟩ := (enrichItems_eq_ok_iff hnan).mp henrich
        rw [List.nil_append] at hitems
        rw [← hitems] at htotal
        rw [← htotal]
        exact ⟨found, hfound, hitems, hcheck, rfl⟩
  · rintro ⟨found, hfound, rfl, hcheck, rfl⟩
    have henrich : enrichItems menus cmd.items 0 [] =
        .ok (addItems 0 (List.zipWith enrich cmd.items found), List.zipWith enrich cmd.items found) :=
      (enrichItems_eq_ok_iff (ne_nan_of_checkAmount hcheck)).mpr ⟨found, hfound, by simp, by simp⟩
    rw [henrich]
    simp only [hcheck]

/-- What an enriched item has from its item. -/
theorem mem_zipWith_enrich {items : List CommandItem} {found : List MenuInfo} {enriched : OrderItem}
    (h : enriched ∈ List.zipWith enrich items found) :
    ∃ item ∈ items, ∃ menu ∈ found, enriched = enrich item menu := by
  rw [← List.map_uncurry_zip_eq_zipWith] at h
  obtain ⟨⟨item, menu⟩, hmem, rfl⟩ := List.mem_map.mp h
  exact ⟨item, (List.of_mem_zip hmem).1, menu, (List.of_mem_zip hmem).2, rfl⟩

/-- **What the validation has checked, of finite quantities.** -/
theorem validateItems_finite_iff {cmd : CreateOrderCommand} {menus : List MenuInfo}
    (hfinite : ∀ item ∈ cmd.items, ∃ q, item.quantity = .finite q)
    {calculatedAmount : String} {enrichedItems : List OrderItem} :
    validateItems cmd menus = .ok (calculatedAmount, enrichedItems) ↔
      ∃ found, List.Forall₂ (Orderable menus) cmd.items found ∧
        enrichedItems = List.zipWith enrich cmd.items found ∧
        Decimal.ofText? cmd.requestedAmount = some (roundedTotal enrichedItems) ∧
        calculatedAmount = Decimal.toFixed2 (roundedTotal enrichedItems) := by
  rw [validateItems_eq_ok_iff]
  refine exists_congr fun found => and_congr_right fun _ => and_congr_right ?_
  rintro rfl
  have htotal : addItems 0 (List.zipWith enrich cmd.items found) =
      .finite (roundedTotal (List.zipWith enrich cmd.items found)) := by
    refine addItems_finite ?_
    intro enriched henriched
    obtain ⟨item, hitem, menu, -, rfl⟩ := mem_zipWith_enrich henriched
    exact hfinite item hitem
  rw [htotal, checkAmount_finite_iff, JsNumber.toFixed2]

/-! ## Menus out of the cache -/

section Json

variable {menus : List MenuInfo} {item : CommandItem} {menu : MenuInfo}

theorem throughJson_of_ne_nan (h : menu.unitPrice ≠ .nan) : menu.throughJson = menu := by
  obtain ⟨id, name, unitPrice, isAvailable⟩ := menu
  cases unitPrice with
  | amount q => rfl
  | nan => exact absurd rfl h
  | null => rfl

theorem throughJson_of_amount {q : ℚ} (h : menu.unitPrice = .amount q) : menu.throughJson = menu :=
  throughJson_of_ne_nan (by rw [h]; nofun)

/-- JSON keeps the ids. -/
theorem lookupMenu_throughJson (id : String) :
    lookupMenu (menus.map MenuInfo.throughJson) id =
      (lookupMenu menus id).map MenuInfo.throughJson := by
  unfold lookupMenu
  rw [← List.map_reverse, List.find?_map]
  rfl

/-- **What can be ordered comes out of the cache as it went in.** -/
theorem orderable_throughJson_iff :
    Orderable (menus.map MenuInfo.throughJson) item menu ↔ Orderable menus item menu := by
  unfold Orderable
  rw [lookupMenu_throughJson, Option.map_eq_some_iff]
  constructor
  · rintro ⟨⟨menu, hlookup, rfl⟩, havailable, q, hprice⟩
    -- only an amount comes out as one
    have hamount : menu.unitPrice = .amount q := MenuPrice.throughJson_eq_amount_iff.mp hprice
    rw [throughJson_of_amount hamount]
    exact ⟨hlookup, havailable, q, hamount⟩
  · rintro ⟨hlookup, havailable, q, hprice⟩
    exact ⟨⟨menu, hlookup, throughJson_of_amount hprice⟩, havailable, q, hprice⟩

/-- A command is validated with what the cache makes of the menus if it is with the menus. -/
theorem validateItems_throughJson_eq_ok_iff {cmd : CreateOrderCommand}
    {validated : String × List OrderItem} :
    validateItems cmd (menus.map MenuInfo.throughJson) = .ok validated ↔
      validateItems cmd menus = .ok validated := by
  have hforall : ∀ found, List.Forall₂ (Orderable (menus.map MenuInfo.throughJson)) cmd.items found ↔
      List.Forall₂ (Orderable menus) cmd.items found := fun found =>
    ⟨fun h => h.imp fun _ _ => orderable_throughJson_iff.mp,
      fun h => h.imp fun _ _ => orderable_throughJson_iff.mpr⟩
  obtain ⟨calculatedAmount, enrichedItems⟩ := validated
  rw [validateItems_eq_ok_iff, validateItems_eq_ok_iff]
  simp only [hforall]

end Json

/-! ## Prices that are no amounts -/

/-- The loop gets to an item whose menu has this price. -/
def MeetsPrice (price : MenuPrice) (menus : List MenuInfo) : List CommandItem → Prop
  | [] => False
  | item :: rest => ∃ menu, lookupMenu menus item.menuId = some menu ∧ menu.isAvailable = true ∧
      (menu.unitPrice = price ∨ MeetsPrice price menus rest)

section Prices

variable {menus : List MenuInfo} {items : List CommandItem} {calculatedTotal : JsNumber}
variable {enrichedItems : List OrderItem} {err : OrderError}

/-- Whether a price is met only depends on what is looked up. -/
theorem meetsPrice_congr {menus' : List MenuInfo} (h : lookupMenu menus' = lookupMenu menus)
    (price : MenuPrice) : MeetsPrice price menus' items ↔ MeetsPrice price menus items := by
  induction items with
  | nil => rfl
  | cons item rest ih => simp only [MeetsPrice, h, ih]

/-- **It ends at a price that is `null`.** -/
theorem enrichItems_of_meetsNull (h : MeetsPrice .null menus items) :
    enrichItems menus items calculatedTotal enrichedItems = .error nullPrice := by
  induction items generalizing calculatedTotal enrichedItems with
  | nil => exact h.elim
  | cons item rest ih =>
      obtain ⟨menu, hlookup, havailable, hnull | hrest⟩ := h
      · simp [enrichItems, hlookup, havailable, hnull, lineTotal?]
      · rw [enrichItems, hlookup]
        simp only [havailable, not_true_eq_false, if_false]
        cases lineTotal? menu.unitPrice item.quantity with
        | none => rfl
        | some lineTotal => exact ih hrest

/-- It fails with a validation error or at such a price. -/
theorem enrichItems_eq_error
    (h : enrichItems menus items calculatedTotal enrichedItems = .error err) :
    err.isValidationError = true ∨ MeetsPrice .null menus items ∧ err = nullPrice := by
  induction items generalizing calculatedTotal enrichedItems with
  | nil => cases h
  | cons item rest ih =>
      rw [enrichItems] at h
      split at h
      · cases h
        exact .inl rfl
      · rename_i menu hlookup
        split at h
        · cases h
          exact .inl rfl
        · rename_i havailable
          split at h
          · rename_i hline
            cases h
            refine .inr ⟨⟨menu, hlookup, not_not.mp havailable, .inl ?_⟩, rfl⟩
            cases hprice : menu.unitPrice with
            | amount q => simp [hprice, lineTotal?] at hline
            | nan => simp [hprice, lineTotal?] at hline
            | null => rfl
          · exact (ih h).imp_right fun hmeets =>
              ⟨⟨menu, hlookup, not_not.mp havailable, .inr hmeets.1⟩, hmeets.2⟩

/-- The validation of an amount that is a number fails with a validation error, or at a price that
the cache has made `null`. -/
theorem validateItems_eq_error {cmd : CreateOrderCommand} {q : ℚ}
    (hamount : Decimal.ofText? cmd.requestedAmount = some q)
    (h : validateItems cmd menus = .error err) :
    err.isValidationError = true ∨ MeetsPrice .null menus cmd.items ∧ err = nullPrice := by
  unfold validateItems checkAmount at h
  rw [ofDecimalText?_eq_finite_iff.mpr hamount] at h
  split at h
  · rename_i henrich
    cases h
    exact enrichItems_eq_error henrich
  · split at h
    · rename_i hcheck
      cases h
      simp only at hcheck
      split at hcheck
      · cases hcheck
      · cases hcheck
        exact .inl rfl
    · cases h

/-- A price that is `null` ends the validation with the error of `new Decimal(null)`. -/
theorem validateItems_of_meetsNull {cmd : CreateOrderCommand} (h : MeetsPrice .null menus cmd.items) :
    validateItems cmd menus = .error nullPrice := by
  unfold validateItems
  rw [enrichItems_of_meetsNull h]

/-- Where the loop meets `NaN`, it meets `null` in what the cache makes of the menus. -/
theorem MeetsPrice.throughJson (h : MeetsPrice .nan menus items) :
    MeetsPrice .null (menus.map MenuInfo.throughJson) items := by
  induction items with
  | nil => exact h
  | cons item rest ih =>
      obtain ⟨menu, hlookup, havailable, hprice⟩ := h
      refine ⟨menu.throughJson, by rw [lookupMenu_throughJson, hlookup]; rfl, havailable,
        hprice.imp (fun hnan => ?_) ih⟩
      rw [MenuInfo.throughJson, hnan]
      rfl

/-- Where it does not, it makes no difference. -/
theorem enrichItems_throughJson (h : ¬ MeetsPrice .nan menus items) :
    enrichItems (menus.map MenuInfo.throughJson) items calculatedTotal enrichedItems =
      enrichItems menus items calculatedTotal enrichedItems := by
  induction items generalizing calculatedTotal enrichedItems with
  | nil => rfl
  | cons item rest ih =>
      rw [enrichItems, enrichItems, lookupMenu_throughJson]
      cases hlookup : lookupMenu menus item.menuId with
      | none => rfl
      | some menu =>
          by_cases havailable : menu.isAvailable = true
          · have hnan : menu.unitPrice ≠ .nan := fun hnan => h ⟨menu, hlookup, havailable, .inl hnan⟩
            have hrest : ¬ MeetsPrice .nan menus rest := fun hrest =>
              h ⟨menu, hlookup, havailable, .inr hrest⟩
            have hsame : menu.throughJson = menu := throughJson_of_ne_nan hnan
            rw [Option.map_some, hsame]
            simp only [ih hrest]
          · have havailable' : ¬ menu.throughJson.isAvailable = true := havailable
            simp only [Option.map_some, havailable, havailable']
            rfl

end Prices

/-! ## Where the menus come from -/

/-- The menus a command is validated with: the cached ones, or else the table's. -/
def menusFor (w : World) (cmd : CreateOrderCommand) : Except OrderError (List MenuInfo) :=
  match w.menuCache (menuCacheKey (cmd.items.map CommandItem.menuId) cmd.storeId) with
  | some menus => .ok menus
  | none => w.db.findMenusByIds (cmd.items.map CommandItem.menuId) cmd.storeId

section Runs

variable {cmd : CreateOrderCommand} {choices : ℕ → Choice} {w : World}

/-- The menus of a warm cache are the cached ones. -/
theorem menusFor_of_some {menus : List MenuInfo}
    (h : w.menuCache (menuCacheKey (cmd.items.map CommandItem.menuId) cmd.storeId) = some menus) :
    menusFor w cmd = .ok menus := by
  unfold menusFor
  rw [h]

theorem menusFor_of_none
    (h : w.menuCache (menuCacheKey (cmd.items.map CommandItem.menuId) cmd.storeId) = none) :
    menusFor w cmd = w.db.findMenusByIds (cmd.items.map CommandItem.menuId) cmd.storeId := by
  unfold menusFor
  rw [h]

/-- The last step of a validation makes no call. -/
theorem run_validateItems (menus : List MenuInfo) (n : ℕ) (w : World) :
    run Op.exec choices (match validateItems cmd menus with
      | .error e => Program.throw e
      | .ok validated => return validated : Service (String × List OrderItem)) n w =
      (validateItems cmd menus, w) := by
  cases validateItems cmd menus with
  | error e => rfl
  | ok validated => rfl

/-- A validation depends on the menus only, or fails where a call of it does. -/
theorem run_validateAndEnrichItems :
    (run Op.exec choices (validateAndEnrichItems cmd) 0 w).1 = menusFor w cmd >>= validateItems cmd ∨
      ¬ Quiet choices ∧
        ∃ e, (run Op.exec choices (validateAndEnrichItems cmd) 0 w).1 = .error e := by
  have hlost : ∀ {n : ℕ}, (choices n).fault ≠ .none → ¬ Quiet choices := fun hn h => hn (h _)
  unfold validateAndEnrichItems getMenusCached menusFor
  rw [bind_assoc]
  obtain hget | ⟨hn, e, w', hget⟩ := Op.exec_eq_effect_or
    (.menuCacheGet (menuCacheKey (cmd.items.map CommandItem.menuId) cmd.storeId)) (choices 0) w
  · rw [run_bind_of_ok Op.exec _ _ hget]
    -- a hit needs one answer, a miss three; losing any of them is an error
    cases w.menuCache (menuCacheKey (cmd.items.map CommandItem.menuId) cmd.storeId) with
    | some menus => exact .inl (congrArg Prod.fst (run_validateItems menus 1 w))
    | none =>
        simp only [bind_assoc]
        obtain hfind | ⟨hn, e, w', hfind⟩ := Op.exec_eq_effect_or
          (.findMenusByIds (cmd.items.map CommandItem.menuId) cmd.storeId) (choices 1) w
        · cases hmenus : w.db.findMenusByIds (cmd.items.map CommandItem.menuId) cmd.storeId with
          | error e =>
              rw [run_bind_of_error Op.exec (hfind.trans (congrArg (·, w) hmenus))]
              exact .inl rfl
          | ok menus =>
              rw [run_bind_of_ok Op.exec _ _ (hfind.trans (congrArg (·, w) hmenus))]
              obtain hset | ⟨hn, e, w', hset⟩ := Op.exec_eq_effect_or (.menuCacheSet
                (menuCacheKey (cmd.items.map CommandItem.menuId) cmd.storeId) menus) (choices 2) w
              · rw [run_bind_of_ok Op.exec _ _ hset]
                exact .inl (congrArg Prod.fst (run_validateItems menus 3 _))
              · rw [run_bind_of_error Op.exec hset]
                exact .inr ⟨hlost hn, e, rfl⟩
        · rw [run_bind_of_error Op.exec hfind]
          exact .inr ⟨hlost hn, e, rfl⟩
  · rw [run_bind_of_error Op.exec hget]
    exact .inr ⟨hlost hn, e, rfl⟩

end Runs

end CreateOrderService

end ChickenOrder
