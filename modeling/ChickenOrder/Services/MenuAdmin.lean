import ChickenOrder.Services.OrderApi
import ChickenOrder.Services.OrderSystem
import ChickenOrder.Values.JsNumber

/-!
# `MenuAdminController.saveMenus`

`POST /menu-data/save` replaces all menus of a store in one transaction.  `catalogSystem` is
the order system with these uploads among its steps.

A body is any JSON. The loop reads five fields of each item, each with a default, and converts
them to texts, numbers and a truth value as JavaScript does; what the columns then refuse fails
the whole transaction.  An item without a UUID gets a new one, so that uploads of the same body
may differ in their ids.

The order of the statements matters.  The old rows are deleted first, which the foreign key of
`order_items` forbids once one of them was ordered.
-/

namespace ChickenOrder

open Interaction

/-! ## Statements -/

namespace Database

variable (db : Database)

/-- `DELETE FROM menus WHERE store_id`: refused while an order item refers to one of them, by `ON
DELETE RESTRICT`. -/
def deleteMenus (store : Uuid) : Except OrderError Database :=
  if ∃ menu ∈ db.menus, menu.storeId = store ∧ menu.id ∈ db.orderItems.map OrderItemRow.menuId then
    .error (queryFailed "update or delete on table menus violates foreign key constraint")
  else .ok { db with menus := db.menus.filter fun menu => menu.storeId ≠ store }

/-- `INSERT INTO menus`.  The id is new in all stores, not only in this one. -/
def insertMenu (row : MenuRow) : Except OrderError Database :=
  if row.storeId ∉ db.stores.map StoreRow.id then
    .error (queryFailed "insert on table menus violates foreign key constraint")
  else if row.id ∈ db.menus.map MenuRow.id then
    .error (queryFailed "duplicate key value violates unique constraint menus_pkey")
  else .ok { db with menus := db.menus ++ [row] }

/-- The `menus` loop. -/
def insertMenus : List MenuRow → Database → Except OrderError Database
  | [], db => .ok db
  | row :: rest, db =>
      match db.insertMenu row with
      | .error e => .error e
      | .ok db' => insertMenus rest db'

end Database

/-! ## The handler -/

/-- A call of `saveMenus`, with what `uuidv4()` gives for the items that have no UUID. -/
structure MenuUpload where
  storeId : String
  body : JsValue
  uuids : ℕ → Uuid

namespace MenuAdminController

/-! The values of an item that the loop converts to texts and numbers. -/

/-- `item['id'] ?? ''`. -/
def idValue (item : JsValue) : JsValue := (item.get "id").coalesce (.string "")

/-- `item['name'] ?? ''`. -/
def nameValue (item : JsValue) : JsValue := (item.get "name").coalesce (.string "")

/-- `item['priceForOrder'] ?? item['price'] ?? 0`. -/
def priceField (item : JsValue) : JsValue :=
  (item.get "priceForOrder").coalesce ((item.get "price").coalesce (.number "0"))

/-- `item['category'] ?? ''`. -/
def categoryValue (item : JsValue) : JsValue := (item.get "category").coalesce (.string "")

/-- `item['sort'] ?? 0`. -/
def sortValue (item : JsValue) : JsValue := (item.get "sort").coalesce (.number "0")

/-- Every one of these conversions returns.  `String` and `Number` throw on an object without a
primitive value. -/
def isReadable (item : JsValue) : Bool :=
  (idValue item).hasText && (nameValue item).hasText && (priceField item).hasText &&
    (categoryValue item).hasText && (sortValue item).hasText

/-- An id that looks like a UUID is kept.  Any other is replaced by a generated one, in each upload
anew. -/
def toUuid (id : JsValue) (fresh : Uuid) : String :=
  if matchesUuid (id.coalesce (.string "")).toText then (id.coalesce (.string "")).toText
  else fresh.toText

/-- `posId`. -/
def posId (item : JsValue) : String := (idValue item).toText

/-- `{ ...item }`: the own properties of a value.  A character beyond the basic plane has two
halves, which are no strings that `JSONB` takes. -/
def spread : JsValue → Option (List (String × JsValue))
  | .object fields => some fields
  | .array elements => some (elements.zipIdx.map fun (v, n) => (toString n, v))
  | .string s =>
      if s.toList.all fun c => c.toNat < 0x10000 then
        some (s.toList.zipIdx.map fun (c, n) => (toString n, .string c.toString))
      else none
  | _ => some []

/-- The column `meta`, given `{ ...item, posId: posId || id }`.  `JSONB` refuses a text with a NUL
in it. -/
def metaColumn (item : JsValue) (id : String) : Except OrderError JsValue :=
  match spread item with
  | none => .error (queryFailed "invalid input syntax for type json")
  | some fields =>
      jsonbColumn (.object (fields.filter (fun field => field.1 ≠ "posId") ++
        [("posId", .string (if posId item = "" then id else posId item))]))

/-- `price`. -/
def price (item : JsValue) : JsNumber := (priceField item).toNumber

/-- `avail`: the menu is not hidden and not sold out. -/
def avail (item : JsValue) : Bool :=
  (match item.get "visible" with
    | .bool false => false
    | _ => true) && !(item.get "soldOut").isTruthy

/-- `sort`. -/
def sort (item : JsValue) : JsNumber := (sortValue item).toNumber

/-- The column `unit_price`, given a number.  `NUMERIC` rounds to two places, has no room for
infinities of ten digits, and takes `NaN`. -/
def priceColumn : JsNumber → Except OrderError (Option ℚ)
  | .finite q => (amountColumn q).map some
  | .infinite _ => .error (queryFailed "numeric field overflow")
  | .nan => .ok none

/-- The row an item stands for, if the columns accept it.  The conversions come first, in the order
of the source. -/
def menuRow (store fresh : Uuid) (item : JsValue) : Except OrderError MenuRow := do
  if item.isNullish then .error (.typeError "Cannot read properties of null (reading 'id')")
  else if ¬ isReadable item then .error .noPrimitive
  else
    let id ← uuidColumn (toUuid (item.get "id") fresh)
    let name ← varcharColumn (nameValue item).toText
    let category ← varcharColumnOf 100 (categoryValue item).toText
    let sortOrder ← integerColumn (sort item)
    let metadata ← metaColumn item (toUuid (item.get "id") fresh)
    let unitPrice ← priceColumn (price item)
    return ⟨id, store, name, unitPrice, avail item, some category, sortOrder, metadata⟩

/-- `for (const item of items)`; a string is iterated by its characters, and other values are not
iterable. -/
def iterate : JsValue → Except OrderError (List JsValue)
  | .array elements => .ok elements
  | .string s => .ok (s.toList.map fun c => .string c.toString)
  | _ => .error (.typeError "items is not iterable")

/-- The rows of the items, in their order.  The `n`-th generated id is the `n`-th item's, whether or
not it needs one. -/
def menuRows (store : Uuid) (uuids : ℕ → Uuid) : ℕ → List JsValue → Except OrderError (List MenuRow)
  | _, [] => .ok []
  | n, item :: rest => do
      let row ← menuRow store (uuids n) item
      let rows ← menuRows store uuids (n + 1) rest
      return row :: rows

/-- The store of an upload, and the rows it consists of. -/
def uploaded (upload : MenuUpload) : Except OrderError (Uuid × List MenuRow) := do
  if upload.storeId = "" then .error (.http 400 "storeId required")
  else
    let store ← uuidColumn upload.storeId
    let items ← iterate ((upload.body.get "items").coalesce (.array []))
    let rows ← menuRows store upload.uuids 0 items
    return (store, rows)

/-- `saveMenus`: all of the transaction's effect, or an error.  The store's rows are deleted before
any is inserted. -/
def saveMenus (upload : MenuUpload) (db : Database) : Except OrderError Database := do
  let (store, rows) ← uploaded upload
  let db' ← db.deleteMenus store
  Database.insertMenus rows db'

/-- The transaction of an upload reaches the database and commits there.  The client may not be
told. -/
def Commits (upload : MenuUpload) (fault : Fault String) (db : Database) : Prop :=
  fault.Within False True ∧ (saveMenus upload db).isOk = true

instance (upload : MenuUpload) (fault : Fault String) (db : Database) :
    Decidable (Commits upload fault db) := inferInstanceAs (Decidable (_ ∧ _))

end MenuAdminController

/-! ## The system with uploads -/

/-- What happens besides the requests: keys expire, and menus are uploaded. -/
inductive CatalogStep
  | expire (e : Expiry)
  | saveMenus (upload : MenuUpload) (fault : Fault String)

/-- What such a step does to the world.  An upload is one transaction, so that it either has its
whole effect or none; with its `COMMIT` unanswered it may have either. -/
def CatalogStep.apply : CatalogStep → World → World
  | .expire e, w => e.apply w
  | .saveMenus upload fault, w => { w with
      db := (fault.apply OrderError.other w.db
        (settle w.db (quietly (MenuAdminController.saveMenus upload w.db)))).2 }

/-- The order system in which uploads happen between the calls of the requests.  An upload is one
step, as it is one transaction. -/
def catalogSystem (config : AppConfig) :
    System Op.Reply OrderError Outcome World Choice Request CatalogStep where
  exec := Op.exec
  program := Request.program config
  env := fun e w => some (e.apply w)

/-! ## What an upload does -/

namespace Database

variable {db db' : Database}

theorem insertMenus_eq_ok {rows : List MenuRow} (h : insertMenus rows db = .ok db') :
    db' = { db with menus := db.menus ++ rows } := by
  induction rows generalizing db with
  | nil =>
      cases h
      simp
  | cons row rest ih =>
      rw [insertMenus] at h
      split at h
      · cases h
      · rename_i db₁ hinsert
        rw [ih h]
        unfold insertMenu at hinsert
        split at hinsert
        · cases hinsert
        · split at hinsert
          · cases hinsert
          · cases hinsert
            simp

end Database

namespace MenuAdminController

/-- **Everything a committed upload has done**: the menus of other stores stay, and those of the
upload follow. -/
theorem saveMenus_eq_ok {upload : MenuUpload} {db db' : Database}
    (h : saveMenus upload db = .ok db') :
    ∃ store rows, uploaded upload = .ok (store, rows) ∧
      db' = { db with
        menus := (db.menus.filter fun menu => menu.storeId ≠ store) ++ rows } := by
  unfold saveMenus at h
  cases huploaded : uploaded upload with
  | error e =>
      rw [huploaded] at h
      cases h
  | ok result =>
      rw [huploaded] at h
      unfold Database.deleteMenus at h
      refine ⟨result.1, result.2, rfl, ?_⟩
      simp only [bind, Except.bind] at h
      split at h
      · cases h
      · rename_i db₁ hdelete
        split at hdelete
        · cases hdelete
        · cases hdelete
          exact Database.insertMenus_eq_ok h

theorem menuRow_storeId {store fresh : Uuid} {item : JsValue} {row : MenuRow}
    (h : menuRow store fresh item = .ok row) : row.storeId = store := by
  unfold menuRow at h
  simp only [bind, Except.bind, pure, Except.pure] at h
  repeat' split at h
  all_goals first
    | cases h
      done
    | cases h
      rfl

/-- What holds of every row of an item holds of every row of an upload.  Properties of columns are
proved by this. -/
theorem forall_of_menuRows {Q : MenuRow → Prop} {store : Uuid} {uuids : ℕ → Uuid} {n : ℕ}
    {items : List JsValue} {rows : List MenuRow}
    (hQ : ∀ fresh item row, menuRow store fresh item = .ok row → Q row)
    (h : menuRows store uuids n items = .ok rows) : ∀ row ∈ rows, Q row := by
  induction items generalizing n rows with
  | nil =>
      cases h
      simp
  | cons item rest ih =>
      rw [menuRows] at h
      cases hrow : menuRow store (uuids n) item with
      | error e =>
          rw [hrow] at h
          cases h
      | ok row =>
          cases hrest : menuRows store uuids (n + 1) rest with
          | error e =>
              rw [hrow, hrest] at h
              cases h
          | ok rows' =>
              rw [hrow, hrest] at h
              cases h
              intro other hmem
              obtain rfl | htail := List.mem_cons.mp hmem
              · exact hQ _ _ _ hrow
              · exact ih hrest other htail

/-- The store and the rows of an upload, if it has them. -/
theorem uploaded_eq_ok {upload : MenuUpload} {store : Uuid} {rows : List MenuRow}
    (h : uploaded upload = .ok (store, rows)) :
    uuidColumn upload.storeId = .ok store ∧
      ∃ items, menuRows store upload.uuids 0 items = .ok rows := by
  unfold uploaded at h
  simp only [bind, Except.bind, pure, Except.pure] at h
  repeat' split at h
  all_goals first
    | cases h
      done
    | cases h
      exact ⟨‹_›, _, ‹_›⟩

/-- The rows of an upload are of its store. -/
theorem uploaded_storeId {upload : MenuUpload} {store : Uuid} {rows : List MenuRow}
    (h : uploaded upload = .ok (store, rows)) :
    uuidColumn upload.storeId = .ok store ∧ ∀ row ∈ rows, row.storeId = store := by
  obtain ⟨hstore, items, hrows⟩ := uploaded_eq_ok h
  exact ⟨hstore, forall_of_menuRows (fun _ _ _ => menuRow_storeId) hrows⟩

/-- **What an upload makes of the menus**: those of the other stores and its own rows, or
nothing new. -/
theorem apply_saveMenus_menus (upload : MenuUpload) (fault : Fault String) (w : World) :
    (Commits upload fault w.db ∧ ∃ store rows, uploaded upload = .ok (store, rows) ∧
      ((CatalogStep.saveMenus upload fault).apply w).db.menus =
        (w.db.menus.filter fun menu => menu.storeId ≠ store) ++ rows) ∨
    ((CatalogStep.saveMenus upload fault).apply w).db.menus = w.db.menus := by
  show (_ ∧ ∃ store rows, _ ∧ (fault.apply OrderError.other w.db
    (settle w.db (quietly (saveMenus upload w.db)))).2.menus = _) ∨ _
  cases hsave : saveMenus upload w.db with
  | error e => cases fault <;> exact .inr (by simp [CatalogStep.apply, Fault.apply, hsave, quietly])
  | ok db' =>
      obtain ⟨store, rows, huploaded, hdb⟩ := saveMenus_eq_ok hsave
      have hok : (saveMenus upload w.db).isOk = true := by
        rw [hsave]
        rfl
      cases fault with
      | none => exact .inl ⟨⟨trivial, hok⟩, store, rows, huploaded, congrArg Database.menus hdb⟩
      | rejected reason => exact .inr rfl
      | unacknowledged reason =>
          exact .inl ⟨⟨trivial, hok⟩, store, rows, huploaded, congrArg Database.menus hdb⟩

end MenuAdminController

end ChickenOrder
