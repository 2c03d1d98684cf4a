import ChickenOrder.Guarantees.Money
import ChickenOrder.Parsing.Reader
import ChickenOrder.Services.LegacyXml

/-!
# The legacy XML is decodable

`buildXml` joins unescaped fields.  `readOrder` takes the text apart again from left to right,
and fails on anything but the grammar of an order; what it finds is what the order says
(`xml_decodable`).  No field has a `<` in it, so that each ends where its closing tag starts, and
an item does not start like the end of the items.

Reading and writing are related by `Reads`: a reader takes exactly what was written, whatever
stands behind it.  This composes, so that there is one lemma for each element, and the order is
read as it is built.  That orders of the same XML agree then needs no second argument: both are
described by the one content that is read.
-/

namespace ChickenOrder

open Parsing Parsing.Reader

/-! ## The grammar -/

/-- An item of the XML; the price is in hundredths, which is what an amount with two digits says. -/
structure LegacyItem where
  menuCode : String
  qty : ℕ
  price : ℕ
  deriving DecidableEq

/-- What the XML says. -/
structure LegacyOrder where
  storeId : String
  orderDate : ℤ × ℕ × ℕ
  total : ℕ
  items : List LegacyItem
  deriving DecidableEq

namespace LegacyOrder

/-- The text of a UUID. -/
def readUuid (cs : List Char) : Option String :=
  (Uuid.ofText? (String.ofList cs)).map fun _ => String.ofList cs

/-- A whole number, as it is printed.  Another spelling of it, with a zero in front, is not read, so
that a text is the number's only one. -/
def readWhole (cs : List Char) : Option ℕ :=
  (Decimal.ofText? (String.ofList cs)).bind fun q =>
    if Decimal.toJsText q.num.natAbs = String.ofList cs then some q.num.natAbs else none

/-- A field and what it has to be. -/
def field {α : Type} (read : List Char → Option α) : Reader Char α := (upTo '<').decode read

/-- Read what `p` reads between an element's tags.  The grammar of the XML is built from this and
`field`. -/
def tagged {α : Type} (name : String) (p : Reader Char α) : Reader Char α :=
  enclosed (Xml.openTag name) (Xml.closeTag name) p

/-- Read an item.  Its elements come in the order in which `itemXml` writes them, so the reader need
not look for them. -/
def readItem : Reader Char LegacyItem :=
  tagged "ITEM" do
    let menuCode ← tagged "MENU_CODE" (field readUuid)
    let qty ← tagged "QTY" (field readWhole)
    let price ← tagged "PRICE" (field readWhole)
    return ⟨menuCode, qty, price⟩

/-- Read the items up to the closing tag.  Their number is not known before. -/
def readItems : Reader Char (List LegacyItem) := do
  literal (Xml.openTag "ITEMS")
  listUntil (Xml.closeTag "ITEMS") readItem

/-- Read a document.  The elements come in the order in which `buildXml` writes them. -/
def readOrder : Reader Char LegacyOrder :=
  tagged "ORDER" do
    let storeId ← tagged "STORE_ID" (field readUuid)
    let orderDate ← tagged "ORDER_DATE" (field readDate)
    let total ← tagged "TOTAL" (field readWhole)
    let items ← readItems
    return ⟨storeId, orderDate, total, items⟩

end LegacyOrder

/-! ## Orders and what they say -/

/-- An item with a UUID for its menu, a whole quantity that the column holds, and a price in whole
hundredths.  Stored items are such. -/
structure OrderItem.Sendable (item : OrderItem) : Prop where
  menuId : ∃ u, Uuid.ofText? item.menuId = some u
  quantity : ∃ k : ℕ, 1 ≤ k ∧ (k : ℤ) ≤ int4Max ∧ item.quantity = .finite k
  unitPrice : ∃ n, Decimal.Cents item.unitPrice n

/-- An order of such items, at a time in a year of four digits.  In later years `toISOString` writes
six, and the eight characters of the date end elsewhere. -/
structure DomainOrder.Sendable (order : DomainOrder) (createdAt : ℤ) : Prop where
  storeId : ∃ u, Uuid.ofText? order.storeId = some u
  totalAmount : ∃ q n, Decimal.parseFloat? order.totalAmount = some q ∧ Decimal.Cents q n
  items : ∀ item ∈ order.items, item.Sendable
  createdAt : 0 ≤ (civilDate (createdAt / 86400000)).1 ∧ (civilDate (createdAt / 86400000)).1 ≤ 9999

/-- The item of the XML is that of the order. -/
structure LegacyItem.Describes (content : LegacyItem) (item : OrderItem) : Prop where
  menuCode : content.menuCode = item.menuId
  qty : item.quantity = .finite content.qty
  price : Decimal.Cents item.unitPrice content.price

/-- The store, the date in UTC, the total and the items, amounts in hundredths. -/
structure LegacyOrder.Describes (content : LegacyOrder) (order : DomainOrder)
    (createdAt : ℤ) : Prop where
  storeId : content.storeId = order.storeId
  orderDate : content.orderDate = civilDate (createdAt / 86400000)
  total : ∃ q, Decimal.parseFloat? order.totalAmount = some q ∧ Decimal.Cents q content.total
  items : List.Forall₂ LegacyItem.Describes content.items order.items

/-! ## Reading back -/

section Reading

variable {α : Type} {p : Reader Char α} {a : α} {name : String}

theorem reads_element {children : List Xml} (h : ReadsBefore '<' p (Xml.renderAll children) a) :
    Reads (LegacyOrder.tagged name p) (Xml.element name children).render a := by
  unfold LegacyOrder.tagged
  rw [Xml.render]
  exact h.enclosed

theorem reads_field {read : List Char → Option α} {xml : Xml} (hno : '<' ∉ xml.render)
    (hread : read xml.render = some a) :
    Reads (LegacyOrder.tagged name (LegacyOrder.field read)) (Xml.element name [xml]).render a := by
  refine reads_element ?_
  rw [Xml.renderAll, Xml.renderAll, List.append_nil]
  exact (readsBefore_upTo hno).decode hread

theorem reads_uuid {s : String} (h : ∃ u, Uuid.ofText? s = some u) :
    Reads (LegacyOrder.tagged name (LegacyOrder.field LegacyOrder.readUuid))
      (Xml.element name [.text s]).render s := by
  obtain ⟨u, hu⟩ := h
  refine reads_field ?_ ?_
  · rw [Xml.render]
    exact Uuid.not_mem_of_ofText? (by decide) (by decide) (by decide) (by decide) hu
  · rw [Xml.render, LegacyOrder.readUuid, String.ofList_toList, hu, Option.map_some]

theorem reads_whole (n : ℕ) :
    Reads (LegacyOrder.tagged name (LegacyOrder.field LegacyOrder.readWhole))
      (Xml.element name [.number (some n)]).render n := by
  refine reads_field ?_ ?_
  · rw [Xml.render]
    intro hmem
    obtain h | h | h | h := Decimal.mem_toJsText hmem
    all_goals exact absurd h (by decide)
  · rw [Xml.render, LegacyOrder.readWhole, String.ofList_toList,
      Decimal.ofText?_toJsText (Decimal.isDecimal_natCast _)]
    simp

theorem reads_date {t : ℤ} (hyear : 0 ≤ (civilDate (t / 86400000)).1 ∧
    (civilDate (t / 86400000)).1 ≤ 9999) :
    Reads (LegacyOrder.tagged name (LegacyOrder.field readDate))
      (Xml.element name [.text (compactDate t)]).render (civilDate (t / 86400000)) := by
  have hread := readDate_compactDate hyear
  refine reads_field ?_ ?_
  · rw [Xml.render]
    intro hmem
    unfold readDate at hread
    split at hread
    · rename_i hdigits
      exact absurd (List.all_eq_true.mp hdigits.2 _ hmem) (by decide)
    · cases hread
  · rw [Xml.render, hread]

end Reading

section Items

variable {item : OrderItem} {items : List OrderItem}

/-- An item is read to its end, and nothing behind it is touched. -/
theorem reads_itemXml (h : item.Sendable) : ∃ content : LegacyItem, content.Describes item ∧
    Reads LegacyOrder.readItem (LegacyV1PosAdapter.itemXml item).render content := by
  obtain ⟨k, -, -, hquantity⟩ := h.quantity
  obtain ⟨n, hprice⟩ := h.unitPrice
  refine ⟨⟨item.menuId, k, n⟩, ⟨rfl, hquantity, hprice⟩, ?_⟩
  have hrounded : ((Decimal.mathRound (item.unitPrice * 100) : ℤ) : ℚ) = (n : ℚ) := by
    rw [hprice.mathRound, Int.cast_natCast]
  unfold LegacyV1PosAdapter.itemXml LegacyOrder.readItem
  rw [hquantity, hrounded]
  refine reads_element (Reads.before ?_)
  simp only [Xml.renderAll]
  exact (reads_uuid h.menuId).bind ((reads_whole k).bind ((reads_whole n).bind (reads_pure _)))

/-- An item starts with `<I`, the end of the items with `</`.  So one look ahead is enough to know
whether there is another item. -/
theorem not_closeTag_prefix_itemXml (item : OrderItem) (rest : List Char) :
    ¬ Xml.closeTag "ITEMS" <+: (LegacyV1PosAdapter.itemXml item).render ++ rest := by
  unfold LegacyV1PosAdapter.itemXml
  rw [Xml.render]
  simp [Xml.closeTag, Xml.openTag]

/-- **The items are read one after the other**, by induction on them. -/
theorem reads_itemsXml (h : ∀ item ∈ items, item.Sendable) : ∃ contents : List LegacyItem,
    List.Forall₂ LegacyItem.Describes contents items ∧ Reads LegacyOrder.readItems
      (Xml.element "ITEMS" (items.map LegacyV1PosAdapter.itemXml)).render contents := by
  have hitems : ∃ contents : List LegacyItem,
      List.Forall₂ LegacyItem.Describes contents items ∧
      List.Forall₂ (fun xs content => Reads LegacyOrder.readItem xs content ∧
          ∀ rest, ¬ Xml.closeTag "ITEMS" <+: xs ++ rest)
        (items.map fun item => (LegacyV1PosAdapter.itemXml item).render) contents := by
    induction items with
    | nil => exact ⟨[], .nil, .nil⟩
    | cons item rest ih =>
        obtain ⟨content, hdescribes, hreads⟩ := reads_itemXml (h item List.mem_cons_self)
        obtain ⟨contents, hall, hlist⟩ := ih fun item' hitem' => h item' (List.mem_cons_of_mem _ hitem')
        exact ⟨content :: contents, .cons hdescribes hall,
          .cons ⟨hreads, not_closeTag_prefix_itemXml item⟩ hlist⟩
  obtain ⟨contents, hdescribes, hlist⟩ := hitems
  refine ⟨contents, hdescribes, ?_⟩
  rw [Xml.render, Xml.renderAll_eq, List.map_map]
  exact (reads_literal _).bind (reads_listUntil hlist)

end Items

section Orders

variable {order order' : DomainOrder} {createdAt createdAt' : ℤ} {content : LegacyOrder}

/-- **An order is read to its end.** What is read is what the order says, and nothing behind the
closing tag is touched. -/
theorem reads_buildXml (h : order.Sendable createdAt) :
    ∃ content : LegacyOrder, content.Describes order createdAt ∧
      Reads LegacyOrder.readOrder (LegacyV1PosAdapter.buildXml order createdAt).render content := by
  obtain ⟨q, n, hparsed, hcents⟩ := h.totalAmount
  obtain ⟨contents, hdescribes, hitems⟩ := reads_itemsXml h.items
  refine ⟨⟨order.storeId, civilDate (createdAt / 86400000), n, contents⟩,
    ⟨rfl, rfl, ⟨q, hparsed, hcents⟩, hdescribes⟩, ?_⟩
  have hrounded : ((Decimal.mathRound (q * 100) : ℤ) : ℚ) = (n : ℚ) := by
    rw [hcents.mathRound, Int.cast_natCast]
  unfold LegacyV1PosAdapter.buildXml LegacyOrder.readOrder
  rw [hparsed, Option.map_some, hrounded]
  refine reads_element (Reads.before ?_)
  rw [Xml.renderAll, Xml.renderAll, Xml.renderAll, Xml.renderAll, Xml.renderAll]
  exact (reads_uuid h.storeId).bind ((reads_date h.createdAt).bind
    ((reads_whole n).bind (hitems.bind (reads_pure _))))

/-- Items that the same content describes agree in everything that the XML has of an item; the name
is not in it. -/
theorem LegacyItem.Describes.agree {content : LegacyItem} {item item' : OrderItem}
    (h : content.Describes item) (h' : content.Describes item') :
    (item'.menuId, item'.quantity, item'.unitPrice) =
      (item.menuId, item.quantity, item.unitPrice) := by
  rw [← h.menuCode, ← h'.menuCode, h.qty, h'.qty, h.price, h'.price]

theorem LegacyItem.Describes.agree_all {contents : List LegacyItem} {items items' : List OrderItem}
    (h : List.Forall₂ LegacyItem.Describes contents items)
    (h' : List.Forall₂ LegacyItem.Describes contents items') :
    items'.map (fun item => (item.menuId, item.quantity, item.unitPrice)) =
      items.map fun item => (item.menuId, item.quantity, item.unitPrice) := by
  induction h generalizing items' with
  | nil =>
      cases h'
      rfl
  | cons hitem _ ih =>
      cases h' with
      | cons hitem' hitems' => simpa only [List.map_cons, List.cons.injEq]
          using ⟨hitem.agree hitem', ih hitems'⟩

/-! ## What is stored -/

/-- The prices are those of the menus table. -/
theorem unitPrice_zipWith_enrichWith {db : Database} (htable : db.MenusTable) {storeId : String}
    {items : List CommandItem} {menus : List MenuRow}
    (hmenus : List.Forall₂ (db.Offers storeId) items menus) :
    ∀ item ∈ List.zipWith enrichWith items menus, ∃ n, Decimal.Cents item.unitPrice n := by
  induction hmenus with
  | nil => simp
  | cons hoffers _ ih =>
      intro enriched henriched
      rw [List.zipWith_cons_cons, List.mem_cons] at henriched
      obtain rfl | henriched := henriched
      · obtain ⟨q, hq⟩ := hoffers.unitPrice
        obtain ⟨n, hn, -⟩ := htable.prices _ hoffers.mem q hq
        exact ⟨n, (congrArg (Decimal.Cents · n) (MenuRow.price_of_some hq)).mpr hn⟩
      · exact ih enriched henriched

/-- A stored item is sendable if its price is whole hundredths. -/
theorem OrderItem.StoredAs.sendable {orderId : Uuid} {item : OrderItem} {row : OrderItemRow}
    (h : item.StoredAs orderId row) (hprice : ∃ n, Decimal.Cents item.unitPrice n) :
    item.Sendable := by
  obtain ⟨hquantity, hpos, hmax⟩ := quantityColumn_eq_ok_iff.mp h.quantity
  obtain ⟨k, hk⟩ := Int.eq_ofNat_of_zero_le (Int.le_of_lt hpos)
  refine ⟨⟨row.menuId, uuidColumn_eq_ok_iff.mp h.menuId⟩, ⟨k, by omega, by omega, ?_⟩, hprice⟩
  rw [hquantity, hk, Int.cast_natCast]

/-- **What the validation lets through and `createOrder` stores is sendable.** The columns have seen
to the quantities and the ids, the menus table to the prices. -/
theorem sendable_of_createOrder {db stored stored' : Database} (htable : db.MenusTable)
    {cmd : CreateOrderCommand} {menus : List MenuRow}
    (hmenus : List.Forall₂ (db.Offers cmd.storeId) cmd.items menus)
    (hamount : Decimal.ofText? cmd.requestedAmount =
      some (CreateOrderService.roundedTotal (List.zipWith enrichWith cmd.items menus))) {ctx : ApiContext}
    {jobMeta : JobMeta} {now : Time}
    (hcreate : stored.createOrder (ProcessOrderService.createParams
      (CreateOrderService.payload cmd ctx
        (Decimal.toFixed2 (CreateOrderService.roundedTotal (List.zipWith enrichWith cmd.items menus)))
        (List.zipWith enrichWith cmd.items menus)) jobMeta) now = .ok (true, stored'))
    (hyear : 0 ≤ (civilDate (createdAt / 86400000)).1 ∧
      (civilDate (createdAt / 86400000)).1 ≤ 9999) :
    (ProcessOrderService.domainOrder
      (CreateOrderService.payload cmd ctx
        (Decimal.toFixed2 (CreateOrderService.roundedTotal (List.zipWith enrichWith cmd.items menus)))
        (List.zipWith enrichWith cmd.items menus))).Sendable createdAt := by
  obtain ⟨row, rows, -, -, hrow, hrows, -⟩ := Database.createOrder_eq_ok_true hcreate
  have hprices := unitPrice_zipWith_enrichWith htable hmenus
  have hitems : ∀ item ∈ List.zipWith enrichWith cmd.items menus, item.Sendable := by
    intro item hitem
    obtain ⟨i, hi, rfl⟩ := List.getElem_of_mem hitem
    exact (hrows.get hi (hrows.length_eq ▸ hi)).sendable (hprices _ hitem)
  have hexact : ∀ item ∈ List.zipWith enrichWith cmd.items menus, item.Exact := fun item hitem =>
    ⟨hprices item hitem, (hitems item hitem).quantity.imp fun _ h => h.2.2⟩
  obtain ⟨n, hn⟩ := itemsTotal_cents hexact
  -- the column has taken the requested amount, which is the total
  obtain ⟨q, hread, hfits⟩ := amountTextColumn_ok_iff.mp
    ⟨_, (Database.storedAs_of_toRow hrow).requestedAmount⟩
  rw [Option.some.inj (hread.symm.trans hamount)] at hfits
  rw [← roundedTotal_eq_of_fits hexact hfits] at hn
  exact ⟨⟨row.storeId, uuidColumn_eq_ok_iff.mp (Database.storedAs_of_toRow hrow).storeId⟩,
    ⟨_, n, hn.parseFloat?_toFixed2, hn⟩, hitems, hyear⟩

end Orders

/-! ## The main result -/

/-- **The XML determines the order.** Reading it gives the store, the date, the total and the items;
orders of the same XML have the same.  Nothing is escaped, and nothing has to be: no field can hold
a `<`. -/
theorem xml_decodable {order : DomainOrder} {createdAt : ℤ} (h : order.Sendable createdAt) :
    (∃ content : LegacyOrder, content.Describes order createdAt ∧
      parse LegacyOrder.readOrder (LegacyV1PosAdapter.xmlText order createdAt).toList =
        some content) ∧
    ∀ (order' : DomainOrder) (createdAt' : ℤ), order'.Sendable createdAt' →
      LegacyV1PosAdapter.xmlText order' createdAt' = LegacyV1PosAdapter.xmlText order createdAt →
      order'.storeId = order.storeId ∧ createdAt' / 86400000 = createdAt / 86400000 ∧
      Decimal.parseFloat? order'.totalAmount = Decimal.parseFloat? order.totalAmount ∧
      order'.items.map (fun item => (item.menuId, item.quantity, item.unitPrice)) =
        order.items.map fun item => (item.menuId, item.quantity, item.unitPrice) := by
  obtain ⟨content, hdescribes, hreads⟩ := reads_buildXml h
  constructor
  · refine ⟨content, hdescribes, ?_⟩
    rw [LegacyV1PosAdapter.xmlText, String.toList_ofList]
    exact hreads.parse_eq
  · intro order' createdAt' h' htext
    obtain ⟨content', hdescribes', hreads'⟩ := reads_buildXml h'
    rw [String.ofList_injective htext] at hreads'
    obtain rfl := hreads.unique hreads'
    obtain ⟨q, hparsed, hcents⟩ := hdescribes.total
    obtain ⟨q', hparsed', hcents'⟩ := hdescribes'.total
    refine ⟨?_, ?_, ?_, LegacyItem.Describes.agree_all hdescribes.items hdescribes'.items⟩
    · rw [← hdescribes.storeId, ← hdescribes'.storeId]
    · rw [← (civilDate_spec (createdAt' / 86400000)).2.2, ← hdescribes'.orderDate,
        hdescribes.orderDate, (civilDate_spec (createdAt / 86400000)).2.2]
    · rw [hparsed, hparsed', hcents, hcents']

/-- Two items, one of them at half a won, on a leap day. -/
theorem xml_decodable_leapDay :
    let store : Uuid := ⟨7⟩
    let chicken : OrderItem := ⟨(⟨1⟩ : Uuid).toText, "", 18000, .finite 2⟩
    let sauce : OrderItem := ⟨(⟨2⟩ : Uuid).toText, "", 1 / 2, .finite 1⟩
    let order : DomainOrder := ⟨⟨0⟩, "", store.toText, "", "36000.50", [chicken, sauce]⟩
    order.Sendable 1709164800000 ∧ ∃ content : LegacyOrder,
      content.Describes order 1709164800000 ∧ content.orderDate = (2024, 2, 29) ∧
        parse LegacyOrder.readOrder (LegacyV1PosAdapter.xmlText order 1709164800000).toList =
          some content := by
  intro store chicken sauce order
  have hstore : Uuid.ofText? store.toText = some store := Uuid.ofText?_toText _
  have hsendable : order.Sendable 1709164800000 := by
    refine ⟨⟨store, hstore⟩, ⟨72001 / 2, 3600050, by decide +kernel, ?_⟩, ?_, by decide⟩
    · norm_num [Decimal.Cents]
    · intro item hitem
      simp only [order, List.mem_cons, List.not_mem_nil, or_false] at hitem
      obtain rfl | rfl := hitem
      · exact ⟨⟨_, Uuid.ofText?_toText _⟩, ⟨2, by decide, by decide, rfl⟩, 1800000,
          by norm_num [Decimal.Cents, chicken]⟩
      · exact ⟨⟨_, Uuid.ofText?_toText _⟩, ⟨1, by decide, by decide, rfl⟩, 50,
          by norm_num [Decimal.Cents, sauce]⟩
  obtain ⟨⟨content, hdescribes, hparse⟩, -⟩ := xml_decodable hsendable
  exact ⟨hsendable, content, hdescribes, hdescribes.orderDate.trans (by decide), hparse⟩

end ChickenOrder
