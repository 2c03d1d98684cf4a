import ChickenOrder.Services.Areas
import ChickenOrder.Services.MenuAdmin

/-!
# The table `menus` with its keys

`saveMenus` and `getMenus` on tables that carry their primary and foreign keys.  The `Database` of
the order services has the same rows; `saveMenus_isIn` says that an upload does the same to it.

The keys are fields of `MenuTables`: the primary key of `menus`, its reference to `stores`, and
the reference of `order_items` to it.  Each statement either keeps them or fails, and which of
the two is decided by an `if` whose proof becomes the new field.  So there is no invariant to
carry through a history.
-/

namespace ChickenOrder

open Relational

/-! ## Tables -/

/-- The stores, their menus, and the menus that `order_items` refers to.  The keys are fields, so
that no statement can leave them broken. -/
structure MenuTables where
  stores : List AreaStoreRow
  menus : List MenuRow
  orderedMenus : List Uuid
  menus_pkey : (menus.map MenuRow.id).Nodup
  menus_store_id_fkey : ∀ menu ∈ menus, menu.storeId ∈ stores.map AreaStoreRow.id
  order_items_menu_id_fkey : ∀ id ∈ orderedMenus, id ∈ menus.map MenuRow.id

namespace MenuTables

/-- The tables are their rows: the keys are properties of them. -/
@[ext] theorem ext {tables tables' : MenuTables} (hstores : tables.stores = tables'.stores)
    (hmenus : tables.menus = tables'.menus) (hordered : tables.orderedMenus = tables'.orderedMenus) :
    tables = tables' := by
  cases tables
  cases tables'
  subst hstores hmenus hordered
  rfl

variable (tables : MenuTables)

/-! ## Statements -/

/-- `DELETE FROM menus WHERE store_id`.  It succeeds if no order refers to one of the rows. -/
def deleteMenus (store : Uuid) : Except OrderError MenuTables :=
  if hfree : ∀ menu ∈ tables.menus, menu.storeId = store → menu.id ∉ tables.orderedMenus then
    .ok {
      stores := tables.stores
      menus := tables.menus.filter fun menu => menu.storeId ≠ store
      orderedMenus := tables.orderedMenus
      menus_pkey := (List.filter_sublist.map MenuRow.id).nodup tables.menus_pkey
      menus_store_id_fkey := fun menu hmem =>
        tables.menus_store_id_fkey menu (List.mem_of_mem_filter hmem)
      order_items_menu_id_fkey := by
        intro id hid
        obtain ⟨menu, hmem, rfl⟩ := List.mem_map.mp (tables.order_items_menu_id_fkey id hid)
        refine List.mem_map_of_mem (List.mem_filter.mpr ⟨hmem, decide_eq_true ?_⟩)
        exact fun hstore => hfree menu hmem hstore hid }
  else .error (queryFailed "update or delete on table menus violates foreign key constraint")

/-- `INSERT INTO menus`.  Each `if` is the check of a key. -/
def insertMenu (row : MenuRow) : Except OrderError MenuTables :=
  if hstore : row.storeId ∈ tables.stores.map AreaStoreRow.id then
    if hpk : row.id ∈ tables.menus.map MenuRow.id then
      .error (queryFailed "duplicate key value violates unique constraint menus_pkey")
    else .ok {
      stores := tables.stores
      menus := tables.menus ++ [row]
      orderedMenus := tables.orderedMenus
      menus_pkey := by
        rw [List.map_append, List.nodup_append]
        refine ⟨tables.menus_pkey, List.nodup_singleton _, ?_⟩
        rintro id hid _ hrow rfl
        exact hpk (List.mem_singleton.mp hrow ▸ hid)
      menus_store_id_fkey := by
        intro menu hmem
        rcases List.mem_append.mp hmem with hold | hnew
        · exact tables.menus_store_id_fkey menu hold
        · exact List.mem_singleton.mp hnew ▸ hstore
      order_items_menu_id_fkey := by
        intro id hid
        rw [List.map_append]
        exact List.mem_append_left _ (tables.order_items_menu_id_fkey id hid) }
  else .error (queryFailed "insert on table menus violates foreign key constraint")

end MenuTables

/-! ## `saveMenus` -/

namespace MenuTables

open MenuAdminController

/-- The loop of an upload.  An item that cannot be inserted fails all of it. -/
def insertItems (store : Uuid) (uuids : ℕ → Uuid) :
    ℕ → List JsValue → MenuTables → Except OrderError MenuTables
  | _, [], tables => .ok tables
  | n, item :: rest, tables => do
      let row ← menuRow store (uuids n) item
      let tables' ← tables.insertMenu row
      insertItems store uuids (n + 1) rest tables'

/-- `saveMenus`: all of the transaction's effect, or an error. -/
def saveMenus (upload : MenuUpload) (tables : MenuTables) : Except OrderError MenuTables := do
  if upload.storeId = "" then .error (.http 400 "storeId required")
  else
    let store ← uuidColumn upload.storeId
    let tables' ← tables.deleteMenus store
    let items ← iterate ((upload.body.get "items").coalesce (.array []))
    insertItems store upload.uuids 0 items tables'

/-- The tables after a call of `saveMenus`; one that fails is rolled back. -/
def after (upload : MenuUpload) (tables : MenuTables) : MenuTables :=
  match tables.saveMenus upload with
  | .ok tables' => tables'
  | .error _ => tables

end MenuTables

/-! ## The database of the order services -/

namespace MenuTables

/-- These are the tables of the database, as far as menus go.  The order services have them without
the proofs of their keys. -/
structure IsIn (tables : MenuTables) (db : Database) : Prop where
  stores : db.stores.map StoreRow.id = tables.stores.map AreaStoreRow.id
  menus : db.menus = tables.menus
  orderItems : db.orderItems.map OrderItemRow.menuId = tables.orderedMenus

/-- The database with the menus of these tables. -/
def onto (tables : MenuTables) (db : Database) : Database :=
  { db with menus := tables.menus }

/-- Putting back what was read changes nothing. -/
theorem IsIn.onto_eq {tables : MenuTables} {db : Database} (h : tables.IsIn db) :
    tables.onto db = db := by
  unfold onto
  rw [← h.menus]

end MenuTables

/-! ## `getMenus` -/

/-- An entry of what `getMenus` answers.  `unitPrice` is the price again, and the other fields are
constants. -/
structure MenuEntry where
  id : String
  name : String
  price : JsNumber
  isAvailable : Bool
  category : String
  sortOrder : ℤ
  metadata : JsValue

/-- What `getMenus` answers: the error of its query, that the store is closed, or the menus. -/
inductive MenusReply
  | failed (e : OrderError)
  | closed
  | menus (entries : List MenuEntry)

/-- A row as `getMenus` shows it, with its default for a missing category.  A price that is `NaN` is
printed as such. -/
def MenuRow.entry (row : MenuRow) : MenuEntry where
  id := row.id.toText
  name := row.name
  price := match row.unitPrice with
    | some unitPrice => .finite unitPrice
    | none => .nan
  isAvailable := row.isAvailable
  category := row.category.getD "치킨"
  sortOrder := row.sortOrder
  metadata := row.metadata.coalesce (.object [])

namespace PublicController

/-- The menus of a store that can be ordered: `ORDER BY sort_order, name`.  Which of two of the same
name comes first is open. -/
def ListsMenus (collation : Collation) (tables : MenuTables) (store : Uuid) (reply : MenusReply) :
    Prop :=
  ∃ rows, reply = .menus (rows.map MenuRow.entry) ∧
    IsSelection tables.menus (fun menu => menu.storeId = store ∧ menu.isAvailable)
      (.thenBy (.ofLinearOrder MenuRow.sortOrder) (.comap MenuRow.name collation)) rows

/-- What `getMenus` may answer; without a store, for the oldest that is active, and without any such
store, that it is closed. -/
def GetsMenus (collation : Collation) (tables : MenuTables) (storeId : Option String)
    (reply : MenusReply) : Prop :=
  match truthyText? storeId with
  | some storeId =>
      match uuidColumn storeId with
      | .error e => reply = .failed e
      | .ok store => ListsMenus collation tables store reply
  | none => ∃ stores,
      IsSelection tables.stores AreaStoreRow.isActive (.ofLinearOrder AreaStoreRow.createdAt) stores ∧
      match stores.head? with
      | none => reply = .closed
      | some store => ListsMenus collation tables store.id reply

end PublicController

/-! ## What an upload does -/

namespace MenuTables

open MenuAdminController

variable {tables tables' : MenuTables} {store : Uuid} {uuids : ℕ → Uuid} {n : ℕ}
variable {items : List JsValue} {rows : List MenuRow}

/-- The `DELETE` succeeds exactly if no order item refers to one of the store's menus. -/
theorem deleteMenus_eq_ok_iff :
    tables.deleteMenus store = .ok tables' ↔
      (∀ menu ∈ tables.menus, menu.storeId = store → menu.id ∉ tables.orderedMenus) ∧
      tables'.stores = tables.stores ∧ tables'.orderedMenus = tables.orderedMenus ∧
      tables'.menus = tables.menus.filter fun menu => menu.storeId ≠ store := by
  unfold deleteMenus
  split
  · rename_i hfree
    rw [Except.ok.injEq]
    constructor
    · rintro rfl
      exact ⟨hfree, rfl, rfl, rfl⟩
    · rintro ⟨-, hstores, hordered, hmenus⟩
      exact MenuTables.ext hstores.symm hmenus.symm hordered.symm
  · rename_i hreferenced
    exact iff_of_false nofun fun h => hreferenced h.1

/-- The `INSERT` succeeds exactly for a known store and a new id. -/
theorem insertMenu_eq_ok_iff {row : MenuRow} :
    tables.insertMenu row = .ok tables' ↔
      row.storeId ∈ tables.stores.map AreaStoreRow.id ∧ row.id ∉ tables.menus.map MenuRow.id ∧
      tables'.stores = tables.stores ∧ tables'.orderedMenus = tables.orderedMenus ∧
      tables'.menus = tables.menus ++ [row] := by
  unfold insertMenu
  split
  · rename_i hstore
    split
    · rename_i hpk
      exact iff_of_false nofun fun h => h.2.1 hpk
    · rename_i hpk
      rw [Except.ok.injEq]
      constructor
      · rintro rfl
        exact ⟨hstore, hpk, rfl, rfl, rfl⟩
      · rintro ⟨-, -, hstores, hordered, hmenus⟩
        exact MenuTables.ext hstores.symm hmenus.symm hordered.symm
  · rename_i hstore
    exact iff_of_false nofun fun h => hstore h.1

theorem exists_insertMenu {row : MenuRow}
    (hstore : row.storeId ∈ tables.stores.map AreaStoreRow.id)
    (hnew : row.id ∉ tables.menus.map MenuRow.id) :
    ∃ tables', tables.insertMenu row = .ok tables' := by
  unfold insertMenu
  rw [dif_pos hstore, dif_neg hnew]
  exact ⟨_, rfl⟩

/-- The rows of an upload's items. -/
def Stores (store : Uuid) (uuids : ℕ → Uuid) (items : List (JsValue × ℕ)) (rows : List MenuRow) :
    Prop :=
  List.Forall₂ (fun item row => menuRow store (uuids item.2) item.1 = .ok row) items rows

/-- **The loop appends a row for every item**, where the keys allow it.  The proof is by induction
on the items. -/
theorem insertItems_eq_ok_iff :
    insertItems store uuids n items tables = .ok tables' ↔
      ∃ rows, Stores store uuids (items.zipIdx n) rows ∧
        (∀ row ∈ rows, row.storeId ∈ tables.stores.map AreaStoreRow.id) ∧
        ((tables.menus ++ rows).map MenuRow.id).Nodup ∧
        tables'.stores = tables.stores ∧ tables'.orderedMenus = tables.orderedMenus ∧
        tables'.menus = tables.menus ++ rows := by
  -- on the items, whose rows are written in their order
  induction items generalizing n tables with
  | nil =>
      constructor
      · intro h
        cases h
        rw [List.zipIdx_nil]
        exact ⟨[], .nil, nofun, (List.append_nil tables'.menus).symm ▸ tables'.menus_pkey, rfl, rfl,
          (List.append_nil _).symm⟩
      · rintro ⟨rows, hrows, -, -, hstores, hordered, hmenus⟩
        cases hrows
        rw [List.append_nil] at hmenus
        exact congrArg Except.ok (MenuTables.ext hstores.symm hmenus.symm hordered.symm)
  | cons item rest ih =>
      rw [List.zipIdx_cons, insertItems]
      constructor
      · intro h
        cases hrow : menuRow store (uuids n) item with
        | error e =>
            rw [hrow] at h
            cases h
        | ok row =>
            cases hinsert : tables.insertMenu row with
            | error e =>
                simp only [hrow, bind, Except.bind, hinsert] at h
                cases h
            | ok tables₁ =>
                simp only [hrow, bind, Except.bind, hinsert] at h
                obtain ⟨hstore, -, hstores₁, hordered₁, hmenus₁⟩ := insertMenu_eq_ok_iff.mp hinsert
                obtain ⟨rows, hrows, hknown, hnodup, hstores, hordered, hmenus⟩ := ih.mp h
                rw [hmenus₁, List.append_assoc, List.singleton_append] at hnodup hmenus
                rw [hstores₁] at hknown hstores
                exact ⟨row :: rows, .cons hrow hrows, List.forall_mem_cons.mpr ⟨hstore, hknown⟩,
                  hnodup, hstores, hordered.trans hordered₁, hmenus⟩
      · rintro ⟨rows, hrows, hknown, hnodup, hstores, hordered, hmenus⟩
        obtain ⟨row, rows, hrow, hrows', rfl⟩ := List.forall₂_cons_left_iff.mp hrows
        obtain ⟨hstore, hknown⟩ := List.forall_mem_cons.mp hknown
        -- all ids are different at the end, so this one is new
        have hnew : row.id ∉ tables.menus.map MenuRow.id := by
          intro hold
          rw [List.map_append, List.nodup_append] at hnodup
          exact hnodup.2.2 _ hold _ (List.mem_map_of_mem List.mem_cons_self) rfl
        obtain ⟨tables₁, hinsert⟩ := exists_insertMenu hstore hnew
        obtain ⟨-, -, hstores₁, hordered₁, hmenus₁⟩ := insertMenu_eq_ok_iff.mp hinsert
        have happend : tables₁.menus ++ rows = tables.menus ++ row :: rows := by
          rw [hmenus₁, List.append_assoc, List.singleton_append]
        simp only [hrow, bind, Except.bind, hinsert]
        exact ih.mpr ⟨rows, hrows', hstores₁ ▸ hknown, happend ▸ hnodup, hstores.trans hstores₁.symm,
          hordered.trans hordered₁.symm, happend ▸ hmenus⟩

/-- What an upload that succeeds has done: the store's menus, none of which was ordered, are
replaced by a row for every item. -/
structure Saves (upload : MenuUpload) (tables tables' : MenuTables) (store : Uuid)
    (items : List JsValue) (rows : List MenuRow) : Prop where
  storeId : uuidColumn upload.storeId = .ok store
  listed : iterate ((upload.body.get "items").coalesce (.array [])) = .ok items
  free : ∀ menu ∈ tables.menus, menu.storeId = store → menu.id ∉ tables.orderedMenus
  stored : Stores store upload.uuids items.zipIdx rows
  known : ∀ row ∈ rows, row.storeId ∈ tables.stores.map AreaStoreRow.id
  nodup : (((tables.menus.filter fun menu => menu.storeId ≠ store) ++ rows).map MenuRow.id).Nodup
  stores : tables'.stores = tables.stores
  orderedMenus : tables'.orderedMenus = tables.orderedMenus
  menus : tables'.menus = (tables.menus.filter fun menu => menu.storeId ≠ store) ++ rows

/-- An upload succeeds exactly if it saves its rows.  What it asks of them is in `Saves`. -/
theorem saveMenus_eq_ok_iff {upload : MenuUpload} :
    tables.saveMenus upload = .ok tables' ↔
      ∃ store items rows, Saves upload tables tables' store items rows := by
  -- one failing statement fails them all, so each is passed in turn
  unfold saveMenus
  constructor
  · intro h
    split at h
    · cases h
    · cases hstore : uuidColumn upload.storeId with
      | error e =>
          simp only [hstore, bind, Except.bind] at h
          cases h
      | ok store =>
          cases hdelete : tables.deleteMenus store with
          | error e =>
              simp only [hstore, hdelete, bind, Except.bind] at h
              cases h
          | ok tables₁ =>
              cases hlisted : iterate ((upload.body.get "items").coalesce (.array [])) with
              | error e =>
                  simp only [hstore, hdelete, hlisted, bind, Except.bind] at h
                  cases h
              | ok items =>
                  simp only [hstore, hdelete, hlisted, bind, Except.bind] at h
                  obtain ⟨hfree, hstores₁, hordered₁, hmenus₁⟩ := deleteMenus_eq_ok_iff.mp hdelete
                  obtain ⟨rows, hrows, hknown, hnodup, hstores, hordered, hmenus⟩ :=
                    insertItems_eq_ok_iff.mp h
                  rw [hmenus₁] at hnodup hmenus
                  rw [hstores₁] at hknown hstores
                  exact ⟨store, items, rows, hstore, hlisted, hfree, hrows, hknown, hnodup, hstores,
                    hordered.trans hordered₁, hmenus⟩
  · rintro ⟨store, items, rows, h⟩
    -- the empty id is answered before the transaction begins, and is no UUID
    have hne : upload.storeId ≠ "" := by
      intro hempty
      have hcolumn := h.storeId
      rw [hempty] at hcolumn
      cases hcolumn
    obtain ⟨tables₁, hdelete⟩ : ∃ tables₁, tables.deleteMenus store = .ok tables₁ := by
      unfold deleteMenus
      rw [dif_pos h.free]
      exact ⟨_, rfl⟩
    obtain ⟨-, hstores₁, hordered₁, hmenus₁⟩ := deleteMenus_eq_ok_iff.mp hdelete
    rw [if_neg hne]
    simp only [h.storeId, hdelete, h.listed, bind, Except.bind]
    refine insertItems_eq_ok_iff.mpr ⟨rows, h.stored, hstores₁ ▸ h.known, hmenus₁ ▸ h.nodup,
      h.stores.trans hstores₁.symm, h.orderedMenus.trans hordered₁.symm, hmenus₁ ▸ h.menus⟩

/-- Such an upload has a result. -/
theorem exists_saves {upload : MenuUpload} (hstoreId : uuidColumn upload.storeId = .ok store)
    (hlisted : iterate ((upload.body.get "items").coalesce (.array [])) = .ok items)
    (hfree : ∀ menu ∈ tables.menus, menu.storeId = store → menu.id ∉ tables.orderedMenus)
    (hstored : Stores store upload.uuids items.zipIdx rows)
    (hknown : ∀ row ∈ rows, row.storeId ∈ tables.stores.map AreaStoreRow.id)
    (hnodup : (((tables.menus.filter fun menu => menu.storeId ≠ store) ++ rows).map
      MenuRow.id).Nodup) :
    ∃ tables', Saves upload tables tables' store items rows := by
  obtain ⟨tables₁, hdelete⟩ : ∃ tables₁, tables.deleteMenus store = .ok tables₁ := by
    unfold deleteMenus
    rw [dif_pos hfree]
    exact ⟨_, rfl⟩
  obtain ⟨-, hstores₁, hordered₁, hmenus₁⟩ := deleteMenus_eq_ok_iff.mp hdelete
  refine ⟨⟨tables.stores, (tables.menus.filter fun menu => menu.storeId ≠ store) ++ rows,
    tables.orderedMenus, hnodup, fun menu hmem => ?_, fun id hid => ?_⟩,
    hstoreId, hlisted, hfree, hstored, hknown, hnodup, rfl, rfl, rfl⟩
  · rcases List.mem_append.mp hmem with hold | hnew
    · exact tables.menus_store_id_fkey menu (List.mem_of_mem_filter hold)
    · exact hknown menu hnew
  · rw [List.map_append, ← hmenus₁]
    exact List.mem_append_left _ (tables₁.order_items_menu_id_fkey id (hordered₁ ▸ hid))

/-- After one that succeeds the tables are those it has made. -/
theorem after_eq_of_ok {upload : MenuUpload} (h : tables.saveMenus upload = .ok tables') :
    tables.after upload = tables' := by
  unfold after
  rw [h]

end MenuTables

end ChickenOrder
