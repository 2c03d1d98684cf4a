import Mathlib.Data.List.Infix
import ChickenOrder.Relational.Query
import ChickenOrder.Values.JsNumber

/-!
# `PublicController.resolveArea`

Which store an address is delivered from.  A handler is a function of what its queries return,
and a query may return any of its results.

For a delivery the handler goes through the active areas in the order of the query and takes the
first whose name is contained in the address; for takeout it takes the oldest active store.
Names may be equal, and one may be contained in another, so that the order of the rows decides.
The order of equal rows is the database's choice, which is why `ResolvesArea` is a relation.
-/

namespace ChickenOrder

open Relational

/-! ## The tables -/

/-- The columns of `stores` that are read here. -/
structure AreaStoreRow where
  id : Uuid
  name : String
  isActive : Bool
  createdAt : ℤ
  deriving DecidableEq

/-- The columns of `areas` that are read here. -/
structure AreaRow where
  id : Uuid
  name : String
  storeId : Uuid
  isActive : Bool
  sortOrder : ℤ
  deriving DecidableEq

/-- The two tables with their keys.  No area can refer to a store that is not there. -/
structure AreaTables where
  stores : List AreaStoreRow
  areas : List AreaRow
  stores_pkey : (stores.map AreaStoreRow.id).Nodup
  areas_pkey : (areas.map AreaRow.id).Nodup
  areas_store_id_fkey : ∀ area ∈ areas, area.storeId ∈ stores.map AreaStoreRow.id

namespace AreaTables

variable (tables : AreaTables)

/-- `areas a JOIN stores s ON s.id = a.store_id`.  Each area has one store in it. -/
def joined : List (AreaRow × AreaStoreRow) :=
  tables.areas.flatMap fun area =>
    (tables.stores.filter fun store => store.id = area.storeId).map fun store => (area, store)

variable {tables}

theorem mem_joined {area : AreaRow} {store : AreaStoreRow} :
    (area, store) ∈ tables.joined ↔
      area ∈ tables.areas ∧ store ∈ tables.stores ∧ store.id = area.storeId := by
  simp only [joined, List.mem_flatMap, List.mem_map, List.mem_filter, decide_eq_true_eq,
    Prod.mk.injEq]
  constructor
  · rintro ⟨area', harea, store', ⟨hstore, hid⟩, rfl, rfl⟩
    exact ⟨harea, hstore, hid⟩
  · rintro ⟨harea, hstore, hid⟩
    exact ⟨area, harea, store, ⟨hstore, hid⟩, rfl, rfl⟩

/-- The primary key of `stores`. -/
theorem store_unique {store store' : AreaStoreRow} (h : store ∈ tables.stores)
    (h' : store' ∈ tables.stores) (hid : store.id = store'.id) : store = store' :=
  List.inj_on_of_nodup_map tables.stores_pkey h h' hid

end AreaTables

/-! ## The handler -/

/-- What `resolveArea` answers. -/
inductive AreaReply
  | refused (message : String)
  | ok (storeId : Uuid) (storeName areaName : String)

namespace PublicController

/-- `s.trim()`. -/
def trim (s : String) : String := String.ofList (JsNumber.trim s.toList)

/-- `s.includes(t)`. -/
def includes (s t : String) : Bool := decide (t.toList <:+: s.toList)

/-- The request is not for a delivery: `type === 'takeout' || !address?.trim()`. -/
def IsTakeout (address type : Option String) : Prop :=
  type = some "takeout" ∨ trim (address.getD "") = ""

instance (address type : Option String) : Decidable (IsTakeout address type) :=
  inferInstanceAs (Decidable (_ ∨ _))

/-- `ORDER BY a.sort_order, a.name`.  How names compare is the database's collation. -/
def bySortOrder (collation : Collation) : SortKey AreaRow :=
  .thenBy (.ofLinearOrder AreaRow.sortOrder) (.comap AreaRow.name collation)

/-- `resolveArea`, given what the query for stores and the one for areas return.  For a delivery
only the second is sent. -/
def resolveArea (address type : Option String) (stores : List AreaStoreRow)
    (rows : List (AreaRow × AreaStoreRow)) : AreaReply :=
  if IsTakeout address type then
    match stores.head? with
    | none => .refused "영업 중인 매장이 없습니다."
    | some store => .ok store.id store.name ""
  else
    match rows.find? fun row => includes (trim (address.getD "")) row.1.name with
    | none => .refused "배달 가능 지역이 아닙니다."
    | some (area, store) => .ok area.storeId store.name area.name

/-- What `resolveArea` may answer: the oldest active store for takeout, and for a delivery the
first active area that the address names. -/
def ResolvesArea (collation : Collation) (tables : AreaTables) (address type : Option String)
    (reply : AreaReply) : Prop :=
  ∃ stores rows,
    IsSelection tables.stores AreaStoreRow.isActive (.ofLinearOrder AreaStoreRow.createdAt) stores ∧
    IsSelection tables.joined (fun row => row.1.isActive) (.comap Prod.fst (bySortOrder collation)) rows ∧
    reply = resolveArea address type (stores.take 1) rows

end PublicController

end ChickenOrder
