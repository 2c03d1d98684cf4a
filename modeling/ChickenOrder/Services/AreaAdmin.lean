import Mathlib.Data.Set.Insert
import ChickenOrder.Interaction.Noninterference
import ChickenOrder.Interaction.Program
import ChickenOrder.Relational.Keyed
import ChickenOrder.Database.Schema
import ChickenOrder.Services.Areas

/-!
# The area endpoints

The administrator's `areas` endpoints and the public ones over one table.  Each request sends at
most one statement that writes, which can be lost on its way or on its way back.  What a request is
answered is a set, since a query may return any of its results.

The page `GET /admin/areas` is left out: it is a constant text but for the server's address.

The bodies are any JSON. A handler makes texts and numbers of the fields that it reads, and
where a value has no text it throws before its statement is sent.  A wrong password or a missing
field is answered with the status of a success, so that only the database makes them fail.
-/

namespace ChickenOrder

open Interaction Relational

/-! ## Statements -/

/-- An area without its id, which is what the body of a request can say. -/
structure Area where
  name : String
  storeId : Uuid
  isActive : Bool
  sortOrder : ℤ
  deriving DecidableEq

/-- What a row says of its area. -/
def AreaRow.area (row : AreaRow) : Area := ⟨row.name, row.storeId, row.isActive, row.sortOrder⟩

/-- The row of an area with an id. -/
def Area.row (area : Area) (id : Uuid) : AreaRow :=
  ⟨id, area.name, area.storeId, area.isActive, area.sortOrder⟩

@[simp] theorem Area.row_id (area : Area) (id : Uuid) : (area.row id).id = id := rfl

@[simp] theorem Area.row_storeId (area : Area) (id : Uuid) : (area.row id).storeId = area.storeId := rfl

@[simp] theorem Area.row_area (area : Area) (id : Uuid) : (area.row id).area = area := rfl

@[simp] theorem AreaRow.area_row (row : AreaRow) : row.area.row row.id = row := rfl

/-- The columns of `areas`, given the parameters of a statement: a name of a hundred characters, a
UUID and an integer. -/
def areaColumns (name storeId : String) (sortOrder : JsNumber) (isActive : Bool) :
    Except OrderError Area := do
  let name ← varcharColumnOf 100 name
  let storeId ← uuidColumn storeId
  let sortOrder ← integerColumn sortOrder
  return ⟨name, storeId, isActive, sortOrder⟩

/-- The error of a statement that refers to a store which is not there. -/
def storeMissing : OrderError :=
  queryFailed "insert or update on table areas violates foreign key constraint"

/-- The error of an insert with an id that is taken. -/
def areaExists : OrderError :=
  queryFailed "duplicate key value violates unique constraint areas_pkey"

namespace AreaTables

variable (tables : AreaTables)

/-- `INSERT INTO areas`.  The store has to exist, and the id must not. -/
def insertArea (id : Uuid) (area : Area) : Except OrderError AreaTables :=
  if hstore : area.storeId ∈ tables.stores.map AreaStoreRow.id then
    if hpk : id ∈ tables.areas.map AreaRow.id then .error areaExists
    else .ok { tables with
      areas := tables.areas ++ [area.row id]
      areas_pkey := nodup_insert tables.areas_pkey hpk
      areas_store_id_fkey := by
        intro row hrow
        obtain hold | hnew := List.mem_append.mp hrow
        · exact tables.areas_store_id_fkey row hold
        · rw [List.mem_singleton.mp hnew]
          exact hstore }
  else .error storeMissing

/-- `UPDATE areas SET name, store_id, sort_order, is_active WHERE id`; the reference is checked for
the rows that change. -/
def updateArea (id : Uuid) (area : Area) : Except OrderError AreaTables :=
  if hstore : id ∈ tables.areas.map AreaRow.id → area.storeId ∈ tables.stores.map AreaStoreRow.id then
    .ok { tables with
      areas := assign AreaRow.id tables.areas id fun row => area.row row.id
      areas_pkey := by
        rw [map_key_assign (f := fun row : AreaRow => area.row row.id) fun _ => rfl]
        exact tables.areas_pkey
      areas_store_id_fkey := by
        intro row hrow
        obtain hold | ⟨old, hold, rfl, rfl⟩ := mem_assign hrow
        · exact tables.areas_store_id_fkey row hold
        · exact hstore (List.mem_map_of_mem hold) }
  else .error storeMissing

/-- `DELETE FROM areas WHERE id`.  Nothing refers to an area, so that this never fails. -/
def deleteArea (id : Uuid) : AreaTables where
  stores := tables.stores
  areas := erase AreaRow.id tables.areas id
  stores_pkey := tables.stores_pkey
  areas_pkey := nodup_erase tables.areas_pkey id
  areas_store_id_fkey := fun row hrow => tables.areas_store_id_fkey row (mem_erase_iff.mp hrow).1

end AreaTables

/-! ## Answers -/

/-- An entry of what `getAreas` answers. -/
structure AreaEntry where
  id : Uuid
  name : String
  storeId : Uuid
  sortOrder : ℤ

/-- A row as `getAreas` shows it: all its columns but whether it is active, which it is. -/
def AreaRow.entry (row : AreaRow) : AreaEntry := ⟨row.id, row.name, row.storeId, row.sortOrder⟩

/-- What the endpoints answer.  A refusal is a message to the administrator under the status of a
success. -/
inductive AreaAnswer
  | failed (e : OrderError)
  | refused (message : String)
  | data (areas : List (AreaRow × String)) (stores : List (Uuid × String))
  | created (id : Uuid)
  | done
  | areas (entries : List AreaEntry)
  | area (id : Uuid) (name : String) (storeId : Uuid)
  | resolved (storeId : Uuid) (storeName areaName : String)

/-- `resolveArea`'s own answer as one of them. -/
def AreaReply.answer : AreaReply → AreaAnswer
  | .refused message => .refused message
  | .ok storeId storeName areaName => .resolved storeId storeName areaName

/-- A statement that writes, and the answer once it has succeeded.  Where its answer is lost, it may
have been executed or not. -/
def sendStatement {σ : Type} (fault : Fault String) (answer : AreaAnswer) (s : σ)
    (statement : Except OrderError σ) : Set AreaAnswer × σ :=
  match fault.apply .other s (settle s (quietly statement)) with
  | (.ok _, s') => ({answer}, s')
  | (.error e, s') => ({.failed e}, s')

/-- A statement succeeds and is answered, or it fails before or after its effect. -/
theorem sendStatement_cases {σ : Type} (fault : Fault String) (answer : AreaAnswer) (s : σ)
    (statement : Except OrderError σ) :
    (∃ s', statement = .ok s' ∧ sendStatement fault answer s statement = ({answer}, s')) ∨
      ∃ e s', sendStatement fault answer s statement = ({.failed e}, s') ∧
        (s' = s ∨ statement = .ok s') := by
  cases statement with
  | error e => cases fault <;> exact .inr ⟨_, s, rfl, .inl rfl⟩
  | ok s' =>
      cases fault with
      | none => exact .inl ⟨s', rfl, rfl⟩
      | rejected m => exact .inr ⟨_, s, rfl, .inl rfl⟩
      | unacknowledged m => exact .inr ⟨_, s', rfl, .inr rfl⟩

/-- A query that reads.  Lost or refused, it fails the request. -/
def sendQuery (fault : Fault String) (answers : Set AreaAnswer) : Set AreaAnswer :=
  match fault with
  | .none => answers
  | .rejected m => {.failed (.other m)}
  | .unacknowledged m => {.failed (.other m)}

/-! ## The administrator's endpoints -/

namespace AdminController

/-- `body[field] ?? ''`, before it becomes a text. -/
def bodyValue (body : JsValue) (field : String) : JsValue := (body.get field).coalesce (.string "")

/-- `String(body[field] ?? '')`. -/
def bodyText (body : JsValue) (field : String) : String := (bodyValue body field).toText

/-- The one password that the process was started with.  There are no accounts. -/
def checkAdminPassword (adminPassword password : String) : Bool := decide (password = adminPassword)

/-- The answer to another password.  It is no failure: the handlers answer it with the status of a
success. -/
def wrongPassword : AreaAnswer := .refused "비밀번호가 틀렸습니다."

/-- The body's password has a text, which is the right one. -/
def hasPassword (adminPassword : String) (body : JsValue) : Bool :=
  (bodyValue body "password").hasText && checkAdminPassword adminPassword (bodyText body "password")

/-- What a body without the password is answered: one whose password has no text makes the handler
throw. -/
def refusal (body : JsValue) : AreaAnswer :=
  if (bodyValue body "password").hasText then wrongPassword else .failed .noPrimitive

/-- The answer to a body without a name or a store. -/
def fieldsRequired : AreaAnswer := .refused "name, storeId는 필수입니다."

/-- `String(body['name'] ?? '').trim()`. -/
def areaName (body : JsValue) : String := PublicController.trim (bodyText body "name")

/-- `String(body['storeId'] ?? '').trim()`.  Whether it is a UUID is for the database to say. -/
def areaStoreId (body : JsValue) : String := PublicController.trim (bodyText body "storeId")

/-- `body['sortOrder'] ?? 0`, before it becomes a number. -/
def sortOrderValue (body : JsValue) : JsValue := (body.get "sortOrder").coalesce (.number "0")

/-- `Number(body['sortOrder'] ?? 0)`. -/
def areaSortOrder (body : JsValue) : JsNumber := (sortOrderValue body).toNumber

/-- The name, the store and the order can all be read.  Otherwise the handler throws before it sends
anything. -/
def isReadableArea (body : JsValue) : Bool :=
  (bodyValue body "name").hasText && (bodyValue body "storeId").hasText &&
    (sortOrderValue body).hasText

/-- `body['isActive'] !== false`. -/
def areaIsActive (body : JsValue) : Bool :=
  match body.get "isActive" with
  | .bool false => false
  | _ => true

variable (adminPassword : String) (fault : Fault String) (tables : AreaTables)

/-- `getAreasData`: all areas with their stores' names, and the active stores. -/
def getAreasData (collation : Collation) (password : Option String) : Set AreaAnswer :=
  if checkAdminPassword adminPassword (password.getD "") then
    sendQuery fault {answer | ∃ rows stores,
      IsSelection tables.joined (fun _ => true)
        (.comap Prod.fst (PublicController.bySortOrder collation)) rows ∧
      IsSelection tables.stores AreaStoreRow.isActive (.comap AreaStoreRow.name collation) stores ∧
      answer = .data (rows.map fun row => (row.1, row.2.name))
        (stores.map fun store => (store.id, store.name))}
  else {wrongPassword}

/-- The password, the two fields, and one `INSERT` with a new id.  The new area is active. -/
def createArea (body : JsValue) (uuid : Uuid) : Set AreaAnswer × AreaTables :=
  if hasPassword adminPassword body then
    if ¬ isReadableArea body then ({.failed .noPrimitive}, tables)
    else if areaName body = "" ∨ areaStoreId body = "" then ({fieldsRequired}, tables)
    else sendStatement fault (.created uuid) tables do
      let area ← areaColumns (areaName body) (areaStoreId body) (areaSortOrder body) true
      tables.insertArea uuid area
  else ({refusal body}, tables)

/-- The same checks and one `UPDATE`.  A missing row is not noticed: `done` is answered for any id
that is a UUID. -/
def updateArea (id : String) (body : JsValue) : Set AreaAnswer × AreaTables :=
  if hasPassword adminPassword body then
    if ¬ isReadableArea body then ({.failed .noPrimitive}, tables)
    else if areaName body = "" ∨ areaStoreId body = "" then ({fieldsRequired}, tables)
    else sendStatement fault .done tables do
      let area ← areaColumns (areaName body) (areaStoreId body) (areaSortOrder body)
        (areaIsActive body)
      let id ← uuidColumn id
      tables.updateArea id area
  else ({refusal body}, tables)

/-- The password and one `DELETE`, which is answered `done` for any id that is a UUID. -/
def deleteArea (id : String) (body : JsValue) : Set AreaAnswer × AreaTables :=
  if hasPassword adminPassword body then
    sendStatement fault .done tables do
      let id ← uuidColumn id
      return tables.deleteArea id
  else ({refusal body}, tables)

end AdminController

/-! ## The public endpoints -/

namespace PublicController

variable (fault : Fault String) (tables : AreaTables)

/-- `getAreas`: the active areas, `ORDER BY a.store_id, a.sort_order`. -/
def getAreas : Set AreaAnswer :=
  sendQuery fault {answer | ∃ rows, IsSelection tables.areas AreaRow.isActive
    (.thenBy (.ofLinearOrder fun row => row.storeId.bits.toNat) (.ofLinearOrder AreaRow.sortOrder)) rows ∧
    answer = .areas (rows.map AreaRow.entry)}

/-- `getArea`.  A text that is no UUID fails the query; an id without an active row is answered with
a refusal. -/
def getArea (id : String) : Set AreaAnswer :=
  sendQuery fault
    (match uuidColumn id with
    | .error e => {.failed e}
    | .ok id =>
        match tables.areas.filter fun row => row.id = id ∧ row.isActive with
        | [] => {.refused "지역 없음"}
        | row :: _ => {.area row.id row.name row.storeId})

end PublicController

/-! ## The service -/

/-- A request of the area endpoints; `createArea` draws the id of its row. -/
inductive AreaRequest
  | getAreasData (password : Option String)
  | createArea (body : JsValue) (uuid : Uuid)
  | updateArea (id : String) (body : JsValue)
  | deleteArea (id : String) (body : JsValue)
  | getAreas
  | getArea (id : String)
  | resolveArea (address type : Option String)

/-- A request, and what becomes of its statement. -/
structure AreaCall where
  request : AreaRequest
  fault : Fault String

/-- One request after the other.  Two that overlap come to the same, as each sends one statement. -/
def AreaTables.step (adminPassword : String) (collation : Collation) (call : AreaCall)
    (tables : AreaTables) : Set AreaAnswer × AreaTables :=
  match call.request with
  | .getAreasData password =>
      (AdminController.getAreasData adminPassword call.fault tables collation password, tables)
  | .createArea body uuid => AdminController.createArea adminPassword call.fault tables body uuid
  | .updateArea id body => AdminController.updateArea adminPassword call.fault tables id body
  | .deleteArea id body => AdminController.deleteArea adminPassword call.fault tables id body
  | .getAreas => (PublicController.getAreas call.fault tables, tables)
  | .getArea id => (PublicController.getArea call.fault tables id, tables)
  | .resolveArea address type =>
      (sendQuery call.fault {answer | ∃ reply,
        PublicController.ResolvesArea collation tables address type reply ∧
        answer = reply.answer}, tables)

end ChickenOrder
