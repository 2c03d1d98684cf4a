import Mathlib.Data.Set.Insert
import ChickenOrder.Interaction.Noninterference
import ChickenOrder.Interaction.Program
import ChickenOrder.Relational.Parts
import ChickenOrder.Services.MenuTables

/-!
# What the points of sale upload

`POST /menu-data/save`, `/categories/save` and `/options/save` each replace the rows of one store in
one transaction, which can be lost on its way or on its way back.  `MenuTables.step` and
`PosTable.step` take one request after the other.  What fails is answered by
`GlobalExceptionFilter`.

`/settings/save` replaces one document and is modelled apart.

Categories and options are one upload with two parameters, the table and the last column of its
rows; the source has the code twice.  Menus are other, as orders refer to them.
-/

namespace ChickenOrder

open Interaction Relational

/-! ## Failures -/

/-- What is sent for an exception; the trace id and the time are left out, as nothing depends on
them. -/
structure ErrorResponse where
  statusCode : ℕ
  message : String
  deriving DecidableEq

namespace GlobalExceptionFilter

/-- What the filter answers for any error that is no HTTP exception. -/
def internalError : ErrorResponse := ⟨500, "내부 서버 오류가 발생했습니다."⟩

/-- `catch`: only an `HttpException` says what it is.  Everything else is an internal error to the
client. -/
def response : OrderError → ErrorResponse
  | .http status message => ⟨status, message⟩
  | _ => internalError

end GlobalExceptionFilter

/-- What the point of sale is answered. -/
inductive PosAnswer
  | failed (response : ErrorResponse)
  | saved
  | closed
  | menus (entries : List MenuEntry)

open GlobalExceptionFilter in
/-- A transaction, and the answer.  If the answer of its `COMMIT` is lost, both may be: the effect
and the failure. -/
def sendUpload {σ : Type} (fault : Fault String) (s : σ) (transaction : Except OrderError σ) :
    Set PosAnswer × σ :=
  match fault.apply .other s (settle s (quietly transaction)) with
  | (.ok _, s') => ({.saved}, s')
  | (.error e, s') => ({.failed (response e)}, s')

/-- `if (!storeId) throw new BadRequestException('storeId required')`. -/
def storeIdRequired : OrderError := .http 400 "storeId required"

/-! ## Categories and options -/

/-- A row of `menu_categories`, with its `meta`, or of `menu_options`, with its `items`.  The two
tables have the same shape. -/
structure PosRow where
  id : String
  storeId : Uuid
  name : String
  sortOrder : ℤ
  content : JsValue

/-- `PRIMARY KEY (id, store_id)`.  Unlike the ids of menus, these may be the same in two stores. -/
def PosRow.key (row : PosRow) : String × Uuid := (row.id, row.storeId)

/-- A table of such rows, which refer to `stores`. -/
structure PosRows (stores : List Uuid) where
  rows : List PosRow
  pkey : (rows.map PosRow.key).Nodup
  store_id_fkey : ∀ row ∈ rows, row.storeId ∈ stores

/-- A call of `saveCategories` or `saveOptions`. -/
structure PosUpload where
  storeId : String
  body : JsValue

namespace PosRows

variable {stores : List Uuid} (table : PosRows stores)

/-- A table is its rows: the keys are properties of them. -/
@[ext] theorem ext {table table' : PosRows stores} (h : table.rows = table'.rows) : table = table' := by
  cases table
  cases table'
  subst h
  rfl

/-- `DELETE FROM … WHERE store_id`. -/
def deleteRows (store : Uuid) : PosRows stores where
  rows := table.rows.filter fun row => row.storeId ≠ store
  pkey := (List.filter_sublist.map PosRow.key).nodup table.pkey
  store_id_fkey := fun row hmem => table.store_id_fkey row (List.mem_of_mem_filter hmem)

/-- `INSERT INTO …`. -/
def insertRow (row : PosRow) : Except OrderError (PosRows stores) :=
  if hpk : row.key ∈ table.rows.map PosRow.key then
    .error (queryFailed "duplicate key value violates unique constraint")
  else if hstore : row.storeId ∈ stores then .ok {
    rows := table.rows ++ [row]
    pkey := by
      rw [List.map_append, List.nodup_append]
      refine ⟨table.pkey, List.nodup_singleton _, ?_⟩
      rintro key hkey _ hrow rfl
      exact hpk (List.mem_singleton.mp hrow ▸ hkey)
    store_id_fkey := by
      intro other hmem
      obtain hold | hnew := List.mem_append.mp hmem
      · exact table.store_id_fkey other hold
      · rw [List.mem_singleton.mp hnew]
        exact hstore }
  else .error (queryFailed "insert violates foreign key constraint")

end PosRows

namespace MenuAdminController

/-- The row an item stands for, `content` being its last column; an item without an id is skipped.
-/
def posRow (content : JsValue → JsValue) (store : Uuid) (item : JsValue) :
    Except OrderError (Option PosRow) :=
  if item.isNullish then .error (.typeError "Cannot read properties of null (reading 'id')")
  else if ¬ (idValue item).hasText then .error .noPrimitive
  else if (idValue item).toText = "" then .ok none
  else if ¬ (nameValue item).hasText ∨ ¬ (sortValue item).hasText then .error .noPrimitive
  else do
    let id ← textColumn (idValue item).toText
    let name ← textColumn (nameValue item).toText
    let sortOrder ← integerColumn (sort item)
    let content ← jsonbColumn (content item)
    return some ⟨id, store, name, sortOrder, content⟩

/-- The loop of such an upload. -/
def insertPosItems {stores : List Uuid} (content : JsValue → JsValue) (store : Uuid) :
    List JsValue → PosRows stores → Except OrderError (PosRows stores)
  | [], table => .ok table
  | item :: rest, table => do
      match ← posRow content store item with
      | none => insertPosItems content store rest table
      | some row => do
          let table' ← table.insertRow row
          insertPosItems content store rest table'

/-- All of the transaction's effect, or an error. -/
def savePosItems {stores : List Uuid} (content : JsValue → JsValue) (upload : PosUpload)
    (table : PosRows stores) : Except OrderError (PosRows stores) := do
  let store ← uuidColumn upload.storeId
  let items ← iterate ((upload.body.get "items").coalesce (.array []))
  insertPosItems content store items (table.deleteRows store)

/-- `saveCategories`: `meta` is the item. -/
def categoryMeta (item : JsValue) : JsValue := item

/-- `saveOptions`: `subItems`. -/
def subItems (item : JsValue) : JsValue := (item.get "items").coalesce (.array [])

variable {stores : List Uuid}

/-- An upload for the named store.  The store id is checked before the transaction starts. -/
def saveUpload (content : JsValue → JsValue) (fault : Fault String) (upload : PosUpload)
    (table : PosRows stores) : Set PosAnswer × PosRows stores :=
  if upload.storeId = "" then ({.failed (GlobalExceptionFilter.response storeIdRequired)}, table)
  else sendUpload fault table (savePosItems content upload table)

/-- The upload into `menu_categories`, which keeps the whole item. -/
def saveCategories (fault : Fault String) (upload : PosUpload) (table : PosRows stores) :
    Set PosAnswer × PosRows stores := saveUpload categoryMeta fault upload table

/-- The upload into `menu_options`, which keeps what the item has for `items`. -/
def saveOptions (fault : Fault String) (upload : PosUpload) (table : PosRows stores) :
    Set PosAnswer × PosRows stores := saveUpload subItems fault upload table

end MenuAdminController

/-- The two tables. -/
inductive PosTable
  | categories
  | options
  deriving DecidableEq

/-- A call of one of the two, and what becomes of its transaction. -/
structure PosCall where
  table : PosTable
  upload : PosUpload
  fault : Fault String

open MenuAdminController in
/-- The upload into a table. -/
def PosTable.save {stores : List Uuid} : PosTable → Fault String → PosUpload → PosRows stores →
    Set PosAnswer × PosRows stores
  | .categories => saveCategories
  | .options => saveOptions

/-- One call after the other, each on its own table. -/
def PosTable.step {stores : List Uuid} (call : PosCall) (tables : PosTable → PosRows stores) :
    Set PosAnswer × (PosTable → PosRows stores) :=
  let (answer, table') := call.table.save call.fault call.upload (tables call.table)
  (answer, Function.update tables call.table table')

/-! ## Menus -/

/-- A request to the menus, or the items of an order that is stored in between. -/
inductive MenuRequest
  | saveMenus (upload : MenuUpload)
  | getMenus (storeId : Option String)
  | orderItems (menuIds : List Uuid)

/-- A request, and what becomes of its transaction or query. -/
structure MenuCall where
  request : MenuRequest
  fault : Fault String

/-- What becomes of a reply of `getMenus`. -/
def MenusReply.answer : MenusReply → PosAnswer
  | .failed e => .failed (GlobalExceptionFilter.response e)
  | .closed => .closed
  | .menus entries => .menus entries

namespace MenuTables

variable (tables : MenuTables)

/-- `INSERT INTO order_items`, each referring to a menu.  An order with an item that refers to none
is not stored. -/
def orderItems (menuIds : List Uuid) : MenuTables :=
  if hknown : ∀ id ∈ menuIds, id ∈ tables.menus.map MenuRow.id then
    { tables with
      orderedMenus := tables.orderedMenus ++ menuIds
      order_items_menu_id_fkey := by
        intro id hid
        obtain hold | hnew := List.mem_append.mp hid
        · exact tables.order_items_menu_id_fkey id hold
        · exact hknown id hnew }
  else tables

open GlobalExceptionFilter

/-- One request after the other; an order is answered elsewhere, and is here for the menus that it
holds in place. -/
def step (collation : Collation) (call : MenuCall) (tables : MenuTables) : Set PosAnswer × MenuTables :=
  match call.request with
  | .saveMenus upload =>
      if upload.storeId = "" then ({.failed (response storeIdRequired)}, tables)
      else sendUpload call.fault tables (tables.saveMenus upload)
  | .getMenus storeId =>
      match call.fault with
      | .none => ({answer | ∃ reply,
          PublicController.GetsMenus collation tables storeId reply ∧ answer = reply.answer}, tables)
      | _ => ({.failed internalError}, tables)
  | .orderItems menuIds => (∅, tables.orderItems menuIds)

end MenuTables

end ChickenOrder
