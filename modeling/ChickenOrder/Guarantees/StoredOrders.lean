import ChickenOrder.Guarantees.Storability
import ChickenOrder.Interaction.Rely
import ChickenOrder.Services.UntypedOrders

/-!
# Which accepted orders are stored

What the API accepts it has validated, but the worker's insert asks for more, and one of the
three callers does not even have types.  `createOrder_ok_iff_storable` is about the orders of any
body and any caller: a job that is published, in whatever interleaving, is stored exactly if the
command is storable as the database reads its parameters.

A job is published with items that `decimal.js` could multiply and that found their menus, so
that a quantity which the column reads is the quantity that was paid (`newDecimal_of_readQuantity`).  That
the menus conform, also those of the cache, is a property of the world that the service itself
keeps: `pricing` is what it does for that, and `pricing_secures` what it gets in return.
-/

namespace ChickenOrder

open Interaction Interaction.Program

/-! ## Numbers -/

section Numbers

variable {clients : Clients}

/-- Digits are a decimal, and its value is theirs. -/
theorem readUnsigned_of_readInteger {cs : List Char} {k : ℤ} (h : readInteger cs = some k) :
    Decimal.readUnsigned cs = some (k : ℚ) ∧ ∀ c ∈ cs, c.isDigit := by
  unfold readInteger isDigits at h
  split at h
  · rename_i hdigits
    obtain ⟨hne, hall⟩ : cs ≠ [] ∧ ∀ c ∈ cs, c.isDigit := by simpa using hdigits
    have hvalue := Decimal.readDigits_append hall [] 0 0
    rw [List.append_nil] at hvalue
    rw [hvalue] at h
    cases h
    have hread := @Decimal.readUnsigned_parts cs [] [] 0 (by simpa using hne) hall nofun
      Decimal.stopsNumber_nil rfl
    refine ⟨?_, hall⟩
    simpa [Decimal.readDigits] using hread
  · cases h

/-- Without the letter there is no exponent. -/
theorem fitsExponent_of_forall {s : String} (h : ∀ c ∈ s.toList, c ≠ 'e' ∧ c ≠ 'E') :
    FitsExponent s := by
  have hall : ∀ c ∈ s.toList, decide (c ≠ 'e' ∧ c ≠ 'E') = true := fun c hc =>
    decide_eq_true (h c hc)
  unfold FitsExponent exponentOf
  rw [List.dropWhile_eq_nil_iff.mpr hall]
  decide

theorem ne_exponent_of_isDigit {c : Char} (h : c.isDigit) : c ≠ 'e' ∧ c ≠ 'E' := by
  constructor
  · rintro rfl
    cases h
  · rintro rfl
    cases h

/-- What the column reads is a decimal without an exponent, and of the same value.  The other way
round it fails: `1e3` is one for `decimal.js`, and no `INTEGER`. -/
theorem ofText?_of_integerText? {s : String} {k : ℤ} (h : integerText? s = some k) :
    Decimal.ofText? s = some (k : ℚ) ∧ FitsExponent s := by
  have hsign : ∀ {c : Char} {cs : List Char}, s.toList = c :: cs → c ≠ 'e' ∧ c ≠ 'E' →
      (∀ c ∈ cs, c.isDigit) → FitsExponent s := by
    intro c cs hs hc hcs
    refine fitsExponent_of_forall ?_
    rw [hs]
    intro c' hc'
    obtain rfl | hmem := List.mem_cons.mp hc'
    · exact hc
    · exact ne_exponent_of_isDigit (hcs c' hmem)
  unfold integerText? at h
  split at h
  · rename_i cs hs
    obtain ⟨n, hn, rfl⟩ := Option.map_eq_some_iff.mp h
    obtain ⟨hread, hall⟩ := readUnsigned_of_readInteger hn
    refine ⟨?_, hsign hs (by decide) hall⟩
    have htext : Decimal.ofText? s = (Decimal.readUnsigned cs).map Neg.neg := by
      simp only [Decimal.ofText?, hs]
    rw [htext, hread, Option.map_some, Int.cast_neg]
  · rename_i cs hs
    obtain ⟨hread, hall⟩ := readUnsigned_of_readInteger h
    refine ⟨?_, hsign hs (by decide) hall⟩
    have htext : Decimal.ofText? s = Decimal.readUnsigned cs := by
      simp only [Decimal.ofText?, hs]
    rw [htext, hread]
  · rename_i hminus hplus
    obtain ⟨hread, hall⟩ := readUnsigned_of_readInteger h
    refine ⟨?_, fitsExponent_of_forall fun c hc => ne_exponent_of_isDigit (hall c hc)⟩
    have htext : Decimal.ofText? s = Decimal.readUnsigned s.toList := by
      unfold Decimal.ofText?
      split
      · exact absurd ‹_› (hminus _)
      · exact absurd ‹_› (hplus _)
      · rfl
    rw [htext, hread]

/-- A text in braces or brackets is no number.  The driver sends a quantity that is neither a string
nor a number as its JSON. -/
theorem integerText?_encode (hdocumented : clients.Documented) (v : JsValue) :
    integerText? (clients.encode v) = none := by
  obtain ⟨cs, hcs⟩ := hdocumented.encode_brace v
  unfold integerText?
  rw [hcs]
  rfl

/-- **What the column reads is what was multiplied.** A quantity that reaches the insert has been
through both, and where the second takes it, the two agree. -/
theorem newDecimal_of_readQuantity (hdocumented : clients.Documented) {v : JsValue} {k : ℤ}
    (h : clients.readQuantity v = .finite k) : clients.newDecimal v = some (.finite k) := by
  have hread : (clients.parameter v).bind integerText? = some k := by
    unfold Clients.readQuantity at h
    split at h
    · rename_i k' hk
      rw [hk, Int.cast_injective (JsNumber.finite.inj h)]
    · cases h
  obtain ⟨text, htext, hinteger⟩ := Option.bind_eq_some_iff.mp hread
  obtain ⟨hdecimal, hexponent⟩ := ofText?_of_integerText? hinteger
  cases v with
  | undefined => cases htext
  | null => cases htext
  | bool b => cases b <;> cases htext <;> cases hinteger
  | number s =>
      rw [Clients.parameter] at htext
      split at htext
      · cases htext
      · cases htext
        exact hdocumented.newDecimal_number _ _ hexponent hdecimal
  | string s =>
      cases htext
      exact hdocumented.newDecimal_string _ _ hexponent hdecimal
  | array elements =>
      cases htext
      rw [integerText?_encode hdocumented] at hinteger
      cases hinteger
  | object fields =>
      cases htext
      rw [integerText?_encode hdocumented] at hinteger
      cases hinteger

/-- What is read of a command: the requested amount and the user as they are, and each id as the
driver has sent it. -/
theorem readCommand_eq_ok {cmd : UntypedCommand} {read : CreateOrderCommand}
    (h : clients.readCommand cmd = .ok read) :
    FitsExponent cmd.requestedAmount ∧ read.requestedAmount = cmd.requestedAmount ∧
      read.userId = cmd.userId ∧
      read.items = cmd.items.map fun item =>
        ⟨(clients.parameter item.menuId).getD "", clients.readQuantity item.quantity⟩ := by
  unfold Clients.readCommand at h
  cases hkey : notNull "idempotency_key" (clients.parameter cmd.idempotencyKey) with
  | error e =>
      rw [hkey] at h
      cases h
  | ok key =>
      cases hstore : notNull "store_id" (clients.parameter cmd.storeId) with
      | error e =>
          rw [hkey, hstore] at h
          cases h
      | ok storeId =>
          rw [hkey, hstore] at h
          by_cases hexponent : FitsExponent cmd.requestedAmount
          · simp only [if_pos hexponent] at h
            cases h
            exact ⟨hexponent, rfl, rfl, rfl⟩
          · simp only [if_neg hexponent] at h
            cases h

/-- A job is read as its command is. -/
theorem readPayload_payload (cmd : UntypedCommand) (ctx : ApiContext) (amount : String)
    (items : List UntypedOrderItem) :
    clients.readPayload (UntypedOrderService.payload cmd ctx amount items) =
      (clients.readCommand cmd).map fun read =>
        CreateOrderService.payload read ctx amount (items.map clients.readItem) := by
  unfold Clients.readPayload Clients.readCommand UntypedOrderService.payload
  cases notNull "idempotency_key" (clients.parameter cmd.idempotencyKey) with
  | error e => rfl
  | ok key =>
      cases notNull "store_id" (clients.parameter cmd.storeId) with
      | error e => rfl
      | ok storeId =>
          by_cases hexponent : FitsExponent cmd.requestedAmount
          · simp only [if_pos hexponent]
            rfl
          · simp only [if_neg hexponent]
            rfl

end Numbers

/-! ## Validated items -/

namespace UntypedOrderService

open CreateOrderService (Orderable enrich addItems NoMenuCall)

/-- An item as the loop has counted it: its menu id is the string that found its menu, and its
quantity the number that was multiplied.  A value that is no string is never found in the map. -/
structure Counts (clients : Clients) (item : UntypedOrderItem) (counted : OrderItem) : Prop where
  menuId : item.menuId = .string counted.menuId
  menuName : item.menuName = counted.menuName
  unitPrice : item.unitPrice = counted.unitPrice
  quantity : clients.newDecimal item.quantity = some counted.quantity

section Counting

variable {clients : Clients} {menus : List MenuInfo}

theorem lineTotal_eq_ok {unitPrice : MenuPrice} {v : JsValue} {line : JsNumber}
    (h : lineTotal clients unitPrice v = .ok line) :
    ∃ quantity, clients.newDecimal v = some quantity ∧
      CreateOrderService.lineTotal? unitPrice quantity = some line := by
  unfold lineTotal at h
  split at h
  · cases h
  · split at h
    · cases h
    · rename_i line' hbind
      cases h
      exact Option.bind_eq_some_iff.mp hbind

/-- **The loop on values is the loop on what they count as.** This carries what is known of typed
orders over to those of any body. -/
theorem counts_of_enrichItems {items : List UntypedItem} {total total' : JsNumber}
    {enriched enriched' : List UntypedOrderItem} {counted : List OrderItem}
    (hcounts : List.Forall₂ (Counts clients) enriched counted)
    (h : enrichItems clients menus items total enriched = .ok (total', enriched')) :
    ∃ ordered counted', CreateOrderService.enrichItems menus ordered total counted =
        .ok (total', counted') ∧
      List.Forall₂ (Counts clients) enriched' counted' ∧
      enriched'.map (fun item => (item.menuId, item.quantity)) =
        enriched.map (fun item => (item.menuId, item.quantity)) ++
          items.map fun item => (item.menuId, item.quantity) := by
  -- on the items, with the total and the enriched items that the loop carries
  induction items generalizing total enriched counted with
  | nil =>
      cases h
      exact ⟨[], counted, rfl, hcounts, by simp⟩
  | cons item rest ih =>
      rw [enrichItems] at h
      cases hmenuId : item.menuId with
      -- the map of menus has texts for keys, so nothing else finds a menu
      | string id =>
          rw [hmenuId] at h
          cases hlookup : CreateOrderService.lookupMenu menus id with
          | none =>
              simp only [lookupMenu, hlookup] at h
              cases h
          | some menu =>
              simp only [lookupMenu, hlookup] at h
              split at h
              · cases h
              · rename_i havailable
                split at h
                · cases h
                · rename_i line hline
                  obtain ⟨quantity, hquantity, hmultiplied⟩ := lineTotal_eq_ok hline
                  have hcounted : List.Forall₂ (Counts clients)
                      (enriched ++ [⟨.string id, menu.name,
                        CreateOrderService.priceValue menu.unitPrice, item.quantity⟩])
                      (counted ++ [enrich ⟨id, quantity⟩ menu]) :=
                    List.rel_append hcounts (.cons ⟨rfl, rfl, rfl, hquantity⟩ .nil)
                  obtain ⟨ordered, counted', henrich, hall, hmap⟩ := ih hcounted h
                  refine ⟨⟨id, quantity⟩ :: ordered, counted', ?_, hall, ?_⟩
                  · rw [CreateOrderService.enrichItems]
                    simp only [hlookup, havailable, hmultiplied, if_false]
                    exact henrich
                  · rw [hmap, List.map_append, List.append_assoc]
                    simp [hmenuId]
      | _ =>
          rw [hmenuId] at h
          cases h

theorem checkAmount_eq_ok {requestedAmount : String} {calculatedTotal : JsNumber}
    (h : checkAmount clients requestedAmount calculatedTotal = .ok ()) :
    ∃ requested, clients.newDecimal (.string requestedAmount) = some requested ∧
      calculatedTotal.equals requested := by
  unfold checkAmount at h
  split at h
  · cases h
  · rename_i requested hrequested
    split at h
    · rename_i hequals
      exact ⟨requested, hrequested, hequals⟩
    · cases h

/-- The total that passes the check is the requested amount. -/
theorem eq_of_equals {total : JsNumber} {q : ℚ} (h : total.equals (.finite q)) :
    total = .finite q := by
  cases total with
  | finite r => rw [of_decide_eq_true h]
  | infinite negative => cases h
  | nan => cases h

variable {cmd : UntypedCommand} {amount : String} {items : List UntypedOrderItem}

/-- What the validation of any command has established. -/
theorem counts_of_validateItems (h : validateItems clients cmd menus = .ok (amount, items)) :
    ∃ ordered found, List.Forall₂ (Orderable menus) ordered found ∧
      List.Forall₂ (Counts clients) items (List.zipWith enrich ordered found) ∧
      items.map (fun item => (item.menuId, item.quantity)) =
        cmd.items.map (fun item => (item.menuId, item.quantity)) ∧
      (∃ requested, clients.newDecimal (.string cmd.requestedAmount) = some requested ∧
        (addItems 0 (List.zipWith enrich ordered found)).equals requested) ∧
      amount = (addItems 0 (List.zipWith enrich ordered found)).toFixed2 := by
  unfold validateItems at h
  split at h
  · cases h
  · rename_i total enriched henrich
    split at h
    · cases h
    · rename_i hcheck
      cases h
      obtain ⟨ordered, counted, htyped, hcounts, hmap⟩ := counts_of_enrichItems .nil henrich
      obtain ⟨requested, hrequested, hequals⟩ := checkAmount_eq_ok hcheck
      have hnan : total ≠ .nan := by
        rintro rfl
        cases hequals
      obtain ⟨found, hfound, rfl, rfl⟩ :=
        (CreateOrderService.enrichItems_eq_ok_iff hnan).mp htyped
      exact ⟨ordered, found, hfound, hcounts, hmap, ⟨requested, hrequested, hequals⟩, rfl⟩

theorem Counts.readItem_menuId {item : UntypedOrderItem} {counted : OrderItem}
    (h : Counts clients item counted) : (clients.readItem item).menuId = counted.menuId := by
  unfold Clients.readItem
  rw [h.menuId]
  rfl

theorem Counts.readItem_eq {item : UntypedOrderItem} {counted : OrderItem}
    (h : Counts clients item counted)
    (hquantity : clients.readQuantity item.quantity = counted.quantity) :
    clients.readItem item = counted := by
  obtain ⟨menuId, menuName, unitPrice, quantity⟩ := counted
  show OrderItem.mk _ _ _ _ = _
  rw [OrderItem.mk.injEq]
  exact ⟨h.readItem_menuId, h.menuName, h.unitPrice, hquantity⟩

/-- Quantities that the column reads are those that were counted. -/
theorem map_readItem_of_counts (hdocumented : clients.Documented)
    {items : List UntypedOrderItem} {counted : List OrderItem}
    (hcounts : List.Forall₂ (Counts clients) items counted)
    (hquantities : ∀ item ∈ items.map clients.readItem, FitsQuantity item.quantity) :
    items.map clients.readItem = counted := by
  induction hcounts with
  | nil => rfl
  | @cons item counted items rest hcount _ ih =>
      rw [List.map_cons, List.forall_mem_cons] at hquantities
      obtain ⟨k, hk, -, -⟩ := hquantities.1
      have hread : clients.readQuantity item.quantity = .finite (k : ℤ) := by
        rw [Int.cast_natCast]
        exact hk
      have hquantity := hcount.quantity.symm.trans (newDecimal_of_readQuantity hdocumented hread)
      have hitem : clients.readItem item = counted :=
        hcount.readItem_eq (hread.trans (Option.some.inj hquantity).symm)
      rw [List.map_cons, hitem, ih hquantities.2]

/-- **What is validated is priced**, as the database reads it.  Where the column reads every
quantity, the items are those that were counted; where it does not, the order is not storable
anyway. -/
theorem priced_of_validateItems (hdocumented : clients.Documented)
    (hmenus : ∀ info ∈ menus, info.Conforms)
    (h : validateItems clients cmd menus = .ok (amount, items)) {read : CreateOrderCommand}
    (hread : clients.readCommand cmd = .ok read) :
    Priced read amount (items.map clients.readItem) := by
  obtain ⟨ordered, found, hfound, hcounts, hmap, ⟨requested, hrequested, hequals⟩, hamount⟩ :=
    counts_of_validateItems h
  obtain ⟨hexponent, hrequestedAmount, -, hitems⟩ := readCommand_eq_ok hread
  have hconforms := conforms_of_orderable hmenus hfound
  -- the requested amount is the total
  have htotal : ∀ q, Decimal.ofText? read.requestedAmount = some q →
      addItems 0 (List.zipWith enrich ordered found) = .finite q := by
    intro q hq
    rw [hrequestedAmount] at hq
    rw [hdocumented.newDecimal_string _ q hexponent hq, Option.some.injEq] at hrequested
    exact eq_of_equals (hrequested ▸ hequals)
  have hcounted : ∀ item ∈ items, ∃ counted ∈ List.zipWith enrich ordered found,
      Counts clients item counted := by
    intro item hitem
    obtain ⟨i, hi, rfl⟩ := List.getElem_of_mem hitem
    exact ⟨_, List.getElem_mem (hcounts.length_eq ▸ hi), hcounts.get hi (hcounts.length_eq ▸ hi)⟩
  refine ⟨?_, ?_, fun q hq => ?_, fun q hq hfits hquantities => ?_⟩
  · have hpairs := congrArg (List.map fun p : JsValue × JsValue =>
      ((clients.parameter p.1).getD "", clients.readQuantity p.2)) hmap
    rw [List.map_map, List.map_map] at hpairs
    rw [hitems, List.map_map, List.map_map]
    exact hpairs
  · rw [List.forall_mem_map]
    intro item hitem
    obtain ⟨counted, hmem, hcount⟩ := hcounted item hitem
    have hcountedConforms := hconforms counted hmem
    refine ⟨hcount.readItem_menuId ▸ hcountedConforms.menuId, ?_, ?_⟩
    · show FitsVarchar item.menuName
      rw [hcount.menuName]
      exact hcountedConforms.menuName
    · show ∃ n, Decimal.Cents item.unitPrice n ∧ n < 10 ^ 10
      rw [hcount.unitPrice]
      exact hcountedConforms.unitPrice
  · rw [hamount, htotal q hq]
    rfl
  · have heq := map_readItem_of_counts hdocumented hcounts hquantities
    rw [heq] at hquantities ⊢
    exact line_lt_of_addItems hconforms hquantities (htotal q hq) hfits

end Counting

/-! ## What the service does for the menus -/

/-- A call on values with its answer. -/
abbrev UntypedEvent := Event UntypedOp.Reply OrderError

/-- Requests of untyped commands over one world. -/
abbrev UntypedPool :=
  Pool UntypedOp.Reply OrderError CreateOrderResult World (UntypedCommand × ApiContext)

/-- Such a request in progress. -/
abbrev UntypedThread :=
  Thread UntypedOp.Reply OrderError CreateOrderResult (UntypedCommand × ApiContext)

/-- A step of that pool. -/
abbrev UntypedLabel := Label Choice (UntypedCommand × ApiContext) Surroundings

/-- The menus that an event answers conform, whether they come from the cache or from the table. -/
structure AnswersConform (e : UntypedEvent) : Prop where
  cached : ∀ key menus, e = ⟨.shared (.menuCacheGet key), .ok (some menus)⟩ →
    ∀ info ∈ menus, info.Conforms
  found : ∀ menuIds storeId menus, e = ⟨.findMenusByIds menuIds storeId, .ok menus⟩ →
    ∀ info ∈ menus, info.Conforms

/-- As long as it is answered with conforming menus, the service caches only such, and publishes
what it has validated with such.  This is a contract: the world keeps the first half as long as the
service keeps the second. -/
def pricing (clients : Clients) :
    Protocol UntypedOp.Reply OrderError CreateOrderResult (UntypedCommand × ApiContext) where
  admits := fun _ => True
  allows := fun _ _ e => AnswersConform e
  issues := fun q _ o => match o with
    | .shared (.menuCacheSet _ menus) => ∀ info ∈ menus, info.Conforms
    | .mainQueueAdd data => ∃ menus amount items, (∀ info ∈ menus, info.Conforms) ∧
        validateItems clients q.1 menus = .ok (amount, items) ∧ data = payload q.1 q.2 amount items
    | _ => True
  returns := fun _ _ _ => True
  throws := fun _ _ _ => True

section Follows

variable {clients : Clients} {cmd : UntypedCommand} {ctx : ApiContext} {h : List UntypedEvent}

/-- `wp` against answers that conform. -/
abbrev priceWp {α : Type} (clients : Clients) (cmd : UntypedCommand) (ctx : ApiContext)
    (p : UntypedService α) (Q : α → List UntypedEvent → Prop) (h : List UntypedEvent) : Prop :=
  p.wp ((pricing clients).record (cmd, ctx)) (fun o h => (pricing clients).issues (cmd, ctx) h o) Q
    (fun _ _ => True) h

/-- A service that neither caches nor publishes can do as it likes. -/
theorem priceWp_ofService {α : Type} {p : Service α} (hp : p.OnlyCalls NoMenuCall) :
    priceWp clients cmd ctx (UntypedService.ofService p) (fun _ _ => True) h := by
  refine (wp_embed ..).mpr (wp_invariant _ _ (fun _ => True) ?_ (fun _ _ _ _ _ _ _ => trivial) hp
    trivial)
  intro o h ho _
  cases o with
  | menuCacheSet key menus => exact ho.elim
  | _ => trivial

/-- The menus that are used conform: the answer said so, of the cache or of the table.  If they are
from the table they are cached on the way. -/
theorem priceWp_getMenusCached (menuIds : List JsValue) (storeId : JsValue) :
    priceWp clients cmd ctx (getMenusCached menuIds storeId)
      (fun menus _ => ∀ info ∈ menus, info.Conforms) h := by
  unfold priceWp getMenusCached
  rw [wp_ite]
  refine ⟨fun _ => trivial, fun _ => ?_⟩
  rw [wp_bind, wp_perform]
  refine ⟨trivial, ?_, fun _ _ _ => trivial⟩
  rintro cached h₁ ⟨hanswer, rfl⟩
  cases cached with
  | some menus => exact hanswer.cached _ menus rfl
  | none =>
      show Program.wp _ _ (UntypedOp.call (.findMenusByIds _ _) >>= fun menus => _) _ _ _
      rw [wp_bind, wp_perform]
      refine ⟨trivial, ?_, fun _ _ _ => trivial⟩
      rintro menus h₂ ⟨hfound, rfl⟩
      have hmenus : ∀ info ∈ menus, info.Conforms := hfound.found _ _ menus rfl
      rw [wp_bind, wp_perform]
      refine ⟨hmenus, ?_, fun _ _ _ => trivial⟩
      rintro - h₃ -
      exact hmenus

theorem priceWp_validate :
    priceWp clients cmd ctx (validateAndEnrichItems clients cmd)
      (fun validated _ => ∃ menus, (∀ info ∈ menus, info.Conforms) ∧
        validateItems clients cmd menus = .ok validated) h := by
  unfold priceWp validateAndEnrichItems
  rw [wp_bind]
  refine wp_mono _ _ (fun menus h' hmenus => ?_) (fun _ _ _ => trivial)
    (priceWp_getMenusCached _ _)
  cases hvalid : validateItems clients cmd menus with
  | error e => exact trivial
  | ok validated => exact ⟨menus, hmenus, hvalid⟩

theorem priceWp_publish {menus : List MenuInfo} {amount : String} {items : List UntypedOrderItem}
    (hmenus : ∀ info ∈ menus, info.Conforms)
    (hvalid : validateItems clients cmd menus = .ok (amount, items)) :
    priceWp clients cmd ctx (publish cmd ctx amount items) (fun _ _ => True) h := by
  unfold priceWp publish
  rw [wp_bind, wp_perform]
  refine ⟨⟨menus, amount, items, hmenus, hvalid, rfl⟩, ?_, fun _ _ _ => trivial⟩
  rintro - h₁ -
  rw [wp_bind, wp_perform]
  refine ⟨trivial, ?_, fun _ _ _ => trivial⟩
  rintro - h₂ -
  rw [wp_bind]
  exact wp_mono _ _ (fun _ _ _ => trivial) (fun _ _ h => h) (priceWp_ofService (.perform trivial))

/-- **The service follows the protocol**, whatever the command and wherever it came from. -/
theorem follows_pricing (clients : Clients) (cmd : UntypedCommand) (ctx : ApiContext) :
    (pricing clients).Follows (cmd, ctx) (execute clients cmd ctx) [] := by
  show priceWp clients cmd ctx (execute clients cmd ctx) (fun _ _ => True) []
  have habandon : ∀ err h', priceWp clients cmd ctx
      (UntypedService.ofService (CreateOrderService.abandon (printed cmd) err)) (fun _ _ => True) h' :=
    fun err h' => priceWp_ofService (onlyCalls_abandon (fun _ => trivial) _ err)
  unfold priceWp execute
  rw [wp_ite]
  refine ⟨fun _ => trivial, fun _ => ?_⟩
  rw [wp_bind]
  refine wp_mono _ _ (fun isNew h₁ _ => ?_) (fun _ _ h => h) (priceWp_ofService (.perform trivial))
  rw [wp_ite]
  refine ⟨fun _ => ?_, fun _ => priceWp_ofService (onlyCalls_replay (fun _ => trivial) _)⟩
  rw [wp_tryCatch]
  unfold validateAndPublish
  rw [wp_bind]
  refine wp_mono _ _ (fun validated h₂ hvalidated => ?_) (fun err h₂ _ => habandon err h₂)
    priceWp_validate
  obtain ⟨menus, hmenus, hvalid⟩ := hvalidated
  exact wp_mono _ _ (fun _ _ _ => trivial) (fun err h₃ _ => habandon err h₃)
    (priceWp_publish hmenus hvalid)

end Follows

/-! ## Runs -/

section Runs

variable {clients : Clients} {ok : UntypedLabel → UntypedPool → Prop} {P₀ P : UntypedPool}

/-- All menus conform: those of the table and those of the cache, which are what a lookup can be
answered with. -/
structure MenusConform (w : World) : Prop where
  table : ∀ menu ∈ w.db.menus, menu.Conforms
  cache : ∀ key menus, w.menuCache key = some menus → ∀ info ∈ menus, info.Conforms

/-- A menu conforms as the row it is of. -/
theorem conforms_info {menu : MenuRow} (h : menu.Conforms) : menu.info.Conforms :=
  ⟨⟨menu.id, rfl⟩, h.name, fun q hprice =>
    h.unitPrice q (MenuPrice.ofColumn_eq_amount_iff.mp hprice)⟩

/-- The lookup finds conforming menus in a conforming table, whatever its parameters are.
Parameters that are no strings are the driver's business. -/
theorem conforms_of_findMenus (hdocumented : clients.Documented) {db : Database}
    (hmenus : ∀ menu ∈ db.menus, menu.Conforms) {menuIds : List JsValue} {storeId : JsValue}
    {menus : List MenuInfo} (h : clients.findMenusByIds db menuIds storeId = .ok menus) :
    ∀ info ∈ menus, info.Conforms := by
  unfold Clients.findMenusByIds at h
  split at h
  · cases h
    exact nofun
  · split at h
    · exact conforms_of_findMenusByIds hmenus h
    · intro info hinfo
      obtain ⟨menu, hmem, rfl⟩ := hdocumented.findMenus_mem _ _ _ _ h info hinfo
      exact conforms_info (hmenus menu hmem)

/-- Conforming menus are what answers come from, and what the service caches keeps them so.  The
other calls leave both the table and the cache. -/
theorem pricing_secures (hdocumented : clients.Documented) :
    (pricing clients).Secures (untypedSystem clients) MenusConform := by
  intro q h o c w hw hissues
  cases o with
  | shared o =>
      refine ⟨⟨?_, nofun⟩, ?_, ?_⟩
      · intro key menus hevent
        obtain ⟨hop, hanswer⟩ := Event.mk.inj hevent
        cases hop
        have hexec : (Op.exec (.menuCacheGet key) c w).1 = .ok (some menus) := eq_of_heq hanswer
        rw [Op.exec_eq_effect_of_ok hexec] at hexec
        exact hw.cache key menus (Except.ok.inj hexec)
      · show ∀ menu ∈ (o.exec c w).2.db.menus, menu.Conforms
        rw [Op.exec_menus]
        exact hw.table
      · intro key menus hcached
        obtain hold | ⟨answer, rfl, rfl⟩ := Op.exec_menuCache hcached
        · exact hw.cache key menus hold
        · exact forall_conforms_throughJson_iff.mpr hissues
  | findMenusByIds menuIds storeId =>
      refine ⟨⟨nofun, ?_⟩, ?_⟩
      · intro menuIds' storeId' menus hevent
        obtain ⟨hop, hanswer⟩ := Event.mk.inj hevent
        cases hop
        have hexec : (c.fault.apply OrderError.other w
            (clients.findMenusByIds w.db menuIds storeId, w)).1 = .ok menus := eq_of_heq hanswer
        rw [Fault.eq_none_of_apply_eq_ok hexec] at hexec
        exact conforms_of_findMenus hdocumented hw.table hexec
      · exact Fault.apply_invariant hw hw
  | mainQueueAdd data => exact ⟨⟨nofun, nofun⟩, Fault.apply_invariant hw hw⟩
  | emitNewOrder storeId orderId items totalAmount traceId =>
      exact ⟨⟨nofun, nofun⟩, Fault.apply_invariant hw hw⟩

/-- Uploads bring conforming menus, keys that expire take some away, and nobody else touches them.
-/
theorem MenusConform.apply {w : World} (h : MenusConform w) (e : Surroundings) :
    MenusConform (e.apply w) := by
  cases e with
  | elsewhere change => exact ⟨h.table, h.cache⟩
  | catalog e =>
      cases e with
      | saveMenus upload fault =>
          refine ⟨?_, h.cache⟩
          obtain ⟨-, store, rows, huploaded, hmenus⟩ | hsame :=
            MenuAdminController.apply_saveMenus_menus upload fault w
          · show ∀ menu ∈ ((CatalogStep.saveMenus upload fault).apply w).db.menus, menu.Conforms
            rw [hmenus]
            intro menu hmenu
            obtain hold | hnew := List.mem_append.mp hmenu
            · exact h.table menu (List.mem_filter.mp hold).1
            · exact conforms_of_uploaded huploaded menu hnew
          · show ∀ menu ∈ ((CatalogStep.saveMenus upload fault).apply w).db.menus, menu.Conforms
            rw [hsame]
            exact h.table
      | expire e =>
          refine ⟨?_, fun key menus hcached => ?_⟩
          · show ∀ menu ∈ (e.apply w).db.menus, menu.Conforms
            rw [Expiry.apply_db]
            exact h.table
          · cases e with
            | menuCache key' =>
                by_cases hkey : key = key'
                · subst hkey
                  rw [show ((Surroundings.catalog (.expire (.menuCache key))).apply w).menuCache key =
                    none from Function.update_self ..] at hcached
                  cases hcached
                · exact h.cache key menus ((Function.update_of_ne hkey ..).symm.trans hcached)
            | _ => exact h.cache key menus hcached

/-- What a published job has been validated with: conforming menus, whose validation gave the items
and the amount of the job. -/
theorem validated_of_issues (hdocumented : clients.Documented) (hinit : ∀ i, P₀.threads i = none)
    (hmenus : MenusConform P₀.world) (h : (untypedSystem clients).Reaches ok P₀ P) {i : ℕ}
    {t : UntypedThread} (ht : P.threads i = some t) {data : UntypedPayload}
    (hpublished : t.Issues (.mainQueueAdd data)) :
    ∃ menus amount items, (∀ info ∈ menus, info.Conforms) ∧
      validateItems clients t.request.1 menus = .ok (amount, items) ∧
      data = payload t.request.1 t.request.2 amount items := by
  have hrespects : (pricing clients).Respects (untypedSystem clients) ok P₀ :=
    Protocol.respects_of_invariant (fun _ _ _ _ => trivial)
      (fun q _ => follows_pricing clients q.1 q.2) (pricing_secures hdocumented)
      (fun e w w' hw hstep => by cases hstep; exact hw.apply e) hinit hmenus
  obtain ⟨past, -, hissues⟩ := Protocol.issues_of_reaches hrespects
    (fun q _ => follows_pricing clients q.1 q.2) hinit h ht hpublished
  exact hissues

end Runs

end UntypedOrderService

/-! ## Storing what was published -/

open UntypedOrderService

section Storing

variable {clients : Clients} {ok : UntypedLabel → UntypedPool → Prop} {P : UntypedPool}

/-- Every caller passes on a UUID for the user, or none.  Only the DTO has one, and a decorator for
it. -/
theorem Handed.userId {cmd : UntypedCommand} (h : Handed cmd) :
    ∀ userId ∈ cmd.userId, ∃ u, Uuid.ofText? userId = some u := by
  cases h with
  | create dto h => exact (Submitted.create dto h).userId
  | createOrderCompat body key cmd h => exact (Submitted.createOrderCompat body key cmd h).userId
  | bridgeOrder body cmd h =>
      unfold InternalBridgeController.untypedCommand at h
      split at h
      · cases h
      · cases hitems : InternalBridgeController.mapUntypedItems body with
        | error e =>
            rw [hitems] at h
            cases h
        | ok items =>
            rw [hitems] at h
            cases h
            exact nofun

end Storing

/-! ### One and a half chickens -/

/-- Libraries that read decimal notation and refuse everything else.  They are as documented. -/
def seedClients : Clients where
  newDecimal
    | .string s => if FitsExponent s then JsNumber.ofDecimalText? s else none
    | .number s => if FitsExponent s then JsNumber.ofDecimalText? s else none
    | _ => none
  encode := fun _ => "{}"
  findMenus := fun _ _ _ => .error (queryFailed "invalid input syntax for type uuid")

theorem seedClients_documented : seedClients.Documented where
  newDecimal_string := fun s q hexponent hread => by
    show (if FitsExponent s then _ else _) = _
    rw [if_pos hexponent]
    exact CreateOrderService.ofDecimalText?_eq_finite_iff.mpr hread
  newDecimal_number := fun s q hexponent hread => by
    show (if FitsExponent s then _ else _) = _
    rw [if_pos hexponent]
    exact CreateOrderService.ofDecimalText?_eq_finite_iff.mpr hread
  encode_brace := fun _ => ⟨['}'], show "{}".toList = ['{', '}'] by decide⟩
  findMenus_mem := fun _ _ _ _ h => nomatch h

/-- The job that a thread is about to publish. -/
def publishes? (t : UntypedThread) : Option UntypedPayload :=
  match t.rest.next with
  | some (.mainQueueAdd data) => some data
  | _ => none

theorem issues_of_publishes? {t : UntypedThread} {data : UntypedPayload}
    (h : publishes? t = some data) : t.Issues (.mainQueueAdd data) := by
  unfold publishes? at h
  split at h
  · rename_i hnext
    cases h
    exact .inl hnext
  · cases h

/-- A command is received and validated. -/
def validated? (cmd : UntypedCommand) : Option UntypedPool :=
  (untypedSystem seedClients).replay
    (.spawn 0 (cmd, seedContext) :: List.replicate 4 (.act 0 (.undisturbed 0)))
    (Pool.init (World.init .seed))

theorem reaches_of_validated? {cmd : UntypedCommand} {P : UntypedPool}
    (hP : validated? cmd = some P) {t : UntypedThread} (ht : P.threads 0 = some t) :
    (untypedSystem seedClients).Reaches (fun _ _ => True) (Pool.init (World.init .seed)) P ∧
      t.request = (cmd, seedContext) := by
  have hspawns : (untypedSystem seedClients).Admitted
      (fun ℓ _ => ∀ i q, ℓ = .spawn i q → q = (cmd, seedContext))
      (.spawn 0 (cmd, seedContext) :: List.replicate 4 (.act 0 (.undisturbed 0)))
      (Pool.init (World.init .seed)) := by
    refine .of_mem ?_ _
    rintro ℓ hℓ - i q rfl
    obtain hspawn | hact := List.mem_cons.mp hℓ
    · cases hspawn
      rfl
    · cases List.eq_of_mem_replicate hact
  exact ⟨.of_replay (.of_forall (fun _ _ => trivial) _ _) hP,
    System.request_of_reaches (fun _ => rfl) (.of_replay hspawns hP) ht⟩

/-- Two chickens, as `POST /internal/orders` takes them: of the types of its interface the
quantity has another one. -/
def wholeBody : JsValue := .object
  [("orderId", .string "bbq-1"), ("storeId", .string "11111111-1111-1111-1111-111111111111"),
    ("items", .array [.object [("menuId", .string "aaaaaaaa-aaaa-aaaa-aaaa-aaaaaaaaaaaa"),
      ("menuName", .string "후라이드치킨"), ("quantity", .string "2"),
      ("unitPrice", .number "18000")]]),
    ("totalAmount", .number "36000")]

/-- An order of two chickens whose quantity is sent as a text. -/
def wholeCommand : UntypedCommand where
  idempotencyKey := .string "bbq-1"
  storeId := .string "11111111-1111-1111-1111-111111111111"
  userId := none
  requestedAmount := "36000"
  items := [⟨.string "aaaaaaaa-aaaa-aaaa-aaaa-aaaaaaaaaaaa", .string "2"⟩]

theorem handed_wholeCommand : Handed wholeCommand := .bridgeOrder wholeBody _ rfl

/-- One and a half chickens, as `POST /order` takes them.  The handler makes a number of the
quantity and asks nothing more of it. -/
def halfBody : JsValue := .object
  [("storeId", .string "11111111-1111-1111-1111-111111111111"), ("total", .number "27000"),
    ("items", .array [.object [("id", .string "aaaaaaaa-aaaa-aaaa-aaaa-aaaaaaaaaaaa"),
      ("quantity", .number "1.5")]])]

/-- An order of one chicken and a half. -/
def halfCommand : CreateOrderCommand where
  idempotencyKey := "00000000-0000-0000-0000-000000000005"
  storeId := "11111111-1111-1111-1111-111111111111"
  userId := none
  requestedAmount := "27000"
  items := [⟨"aaaaaaaa-aaaa-aaaa-aaaa-aaaaaaaaaaaa", .finite (3 / 2)⟩]

theorem command_halfBody : PublicController.command halfBody ⟨5⟩ = .ok (.ok halfCommand) := by
  have hread : (PublicController.command halfBody ⟨5⟩).toOption.bind Except.toOption =
      some halfCommand := by
    decide +kernel
  generalize PublicController.command halfBody ⟨5⟩ = answer at hread ⊢
  obtain e | message | cmd := answer
  · cases hread
  · cases hread
  · cases hread
    rfl

theorem handed_halfCommand : Handed halfCommand.untyped :=
  .createOrderCompat halfBody ⟨5⟩ halfCommand command_halfBody

end ChickenOrder
