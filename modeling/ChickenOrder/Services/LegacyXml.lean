import ChickenOrder.Services.Infrastructure
import ChickenOrder.Values.Dates
import ChickenOrder.Values.NumberText

/-!
# The XML of the legacy point of sale

`LegacyV1PosAdapter.buildXml` renders an order as elements with interpolated values, amounts
in hundredths.  A document is kept as its tree, and a number in it as the number that is
interpolated; `render` is the text, with numbers as `String(n)` prints them.

The second half is what a reader of the document can compute from it, the total and the lines,
as the numbers that are written there.  That the text determines these numbers is another
matter, and is proved by parsing it.
-/

namespace ChickenOrder

/-- An XML document: texts, numbers (`none` for `NaN`) and elements.  Attributes do not occur. -/
inductive Xml
  | text (s : String)
  | number (q : Option ℚ)
  | element (name : String) (children : List Xml)

namespace Xml

/-- The name of an element; a text has none. -/
def name? : Xml → Option String
  | .element name _ => some name
  | _ => none

/-- What is inside an element. -/
def children : Xml → List Xml
  | .element _ children => children
  | _ => []

/-- The first child element of that name. -/
def child (xml : Xml) (name : String) : Option Xml :=
  xml.children.find? fun c => c.name? = some name

/-- The number an element holds. -/
def value : Xml → Option ℚ
  | .element _ [.number q] => q
  | _ => none

/-- The number the child element of that name holds. -/
def field (xml : Xml) (name : String) : Option ℚ := (xml.child name).bind value

/-! ## The text -/

/-- An opening tag.  The names are constants, so that nothing in them needs an escape. -/
def openTag (name : String) : List Char := '<' :: (name.toList ++ ['>'])

/-- A closing tag. -/
def closeTag (name : String) : List Char := '<' :: '/' :: (name.toList ++ ['>'])

mutual

/-- The characters of a document; nothing is escaped, as the template does not escape. -/
def render : Xml → List Char
  | .text s => s.toList
  | .number none => "NaN".toList
  | .number (some q) => (Decimal.toJsText q).toList
  | .element name children => openTag name ++ (renderAll children ++ closeTag name)

/-- Nodes one after the other. -/
def renderAll : List Xml → List Char
  | [] => []
  | xml :: rest => render xml ++ renderAll rest

end

theorem renderAll_eq (children : List Xml) : renderAll children = (children.map render).flatten := by
  induction children with
  | nil => rfl
  | cons xml rest ih => rw [renderAll, ih, List.map_cons, List.flatten_cons]

end Xml

namespace LegacyV1PosAdapter

/-- One `<ITEM>`; the price is in hundredths, rounded to a whole number. -/
def itemXml (item : OrderItem) : Xml :=
  .element "ITEM" [
    .element "MENU_CODE" [.text item.menuId],
    .element "QTY" [match item.quantity with
      | .finite q => .number (some q)
      | _ => .text "null"],
    .element "PRICE" [.number (some (Decimal.mathRound (item.unitPrice * 100) : ℚ))]]

/-- The document of an order.  Amounts are multiplied by a hundred and rounded as JavaScript
numbers; one that cannot be read becomes `NaN`. -/
def buildXml (order : DomainOrder) (createdAt : ℤ) : Xml :=
  .element "ORDER" [
    .element "STORE_ID" [.text order.storeId],
    .element "ORDER_DATE" [.text (compactDate createdAt)],
    .element "TOTAL" [.number ((Decimal.parseFloat? order.totalAmount).map fun q =>
      (Decimal.mathRound (q * 100) : ℚ))],
    .element "ITEMS" (order.items.map itemXml)]

/-- The body of the request. -/
def xmlText (order : DomainOrder) (createdAt : ℤ) : String :=
  String.ofList (buildXml order createdAt).render

end LegacyV1PosAdapter

/-! ## What a reader of the document sees -/

namespace Xml

/-- `TOTAL` of an order. -/
def total (xml : Xml) : Option ℚ := xml.field "TOTAL"

/-- `PRICE` times `QTY` of an item. -/
def lineTotal (item : Xml) : Option ℚ :=
  (item.field "PRICE").bind fun price => (item.field "QTY").map fun quantity => price * quantity

/-- The `ITEM` elements of an order. -/
def items (xml : Xml) : List Xml :=
  ((xml.child "ITEMS").map children).getD []

end Xml

namespace LegacyV1PosAdapter

variable (order : DomainOrder) (createdAt : ℤ)

@[simp] theorem total_buildXml :
    (buildXml order createdAt).total = (Decimal.parseFloat? order.totalAmount).map fun q =>
      (Decimal.mathRound (q * 100) : ℚ) := by
  simp [buildXml, Xml.total, Xml.field, Xml.child, Xml.children, Xml.name?, Xml.value]

@[simp] theorem items_buildXml :
    (buildXml order createdAt).items = order.items.map itemXml := by
  simp [buildXml, Xml.items, Xml.child, Xml.children, Xml.name?]

/-- What an item of the document comes to is its rounded price times its quantity. -/
theorem lineTotal_itemXml {item : OrderItem} {q : ℚ} (h : item.quantity = .finite q) :
    (itemXml item).lineTotal = some ((Decimal.mathRound (item.unitPrice * 100) : ℚ) * q) := by
  simp [itemXml, h, Xml.lineTotal, Xml.field, Xml.child, Xml.children, Xml.name?, Xml.value]

end LegacyV1PosAdapter

end ChickenOrder
