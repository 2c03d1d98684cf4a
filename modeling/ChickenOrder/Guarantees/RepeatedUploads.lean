import ChickenOrder.Guarantees.MenuUploads
import ChickenOrder.Services.MenuTables

/-!
# Uploading a menu twice

An item whose id is a UUID keeps it, and any other item gets a generated one, in every upload
anew.  `repeatsExactly_iff` says what that means for an upload that is repeated: the rows are the
same, and what an app has ordered from them is still accepted, exactly if all ids are UUIDs or
the upload is refused.

`Uploadable` is when an upload is not refused, in terms of its items and of the tables before.

Two uploads are compared row by row.  Their rows differ in nothing but generated ids
(`menuRow_congr`), so that the second upload repeats the first exactly if none is generated; and
an order names a menu by its id, so that this is also what an app notices.
-/

namespace ChickenOrder

open Interaction

namespace MenuAdminController

/-! ## The ids of items -/

/-- The item's own id, if that is a UUID. -/
def ownId (item : JsValue) : Option Uuid :=
  if matchesUuid (posId item) then Uuid.ofText? (posId item) else none

/-- The id of a row is the item's own, or a generated one. -/
theorem rowId_eq (fresh : Uuid) (item : JsValue) : rowId fresh item = (ownId item).getD fresh := by
  unfold rowId ownId
  show (Uuid.ofText? (if matchesUuid (posId item) then posId item else fresh.toText)).getD fresh = _
  split
  · rfl
  · rw [Uuid.ofText?_toText]
    rfl

theorem ownId_eq_none_iff {item : JsValue} : ownId item = none ↔ matchesUuid (posId item) = false := by
  unfold ownId
  constructor
  · intro h
    by_contra hmatches
    rw [Bool.not_eq_false] at hmatches
    obtain ⟨u, hu⟩ := ofText?_of_matchesUuid hmatches
    rw [if_pos hmatches, hu] at h
    cases h
  · intro h
    rw [h]
    rfl

/-- An item with a UUID needs no other id. -/
theorem menuRow_congr {item : JsValue} (h : matchesUuid (posId item) = true)
    (store fresh fresh' : Uuid) : menuRow store fresh item = menuRow store fresh' item := by
  have hid : ∀ fresh, toUuid (item.get "id") fresh = posId item := fun fresh => if_pos h
  unfold menuRow
  rw [hid fresh, hid fresh']

/-! ## The columns of items -/

/-- Fields are free of NUL if each part of them is. -/
theorem nulFreeFields_append (fields others : List (String × JsValue)) :
    JsValue.nulFreeFields (fields ++ others) =
      (JsValue.nulFreeFields fields && JsValue.nulFreeFields others) := by
  induction fields with
  | nil => simp [JsValue.nulFreeFields]
  | cons field rest ih => simp [JsValue.nulFreeFields, ih, Bool.and_assoc]

/-- Which id stands in for a missing one makes no difference to the column. -/
theorem metaColumn_ok_iff {item : JsValue} (fresh : Uuid) :
    (∃ v, metaColumn item (toUuid (item.get "id") fresh) = .ok v) ↔
      ∃ v, metaColumn item (posId item) = .ok v := by
  by_cases hempty : posId item = ""
  · have hid : toUuid (item.get "id") fresh = fresh.toText := by
      show (if matchesUuid (posId item) then posId item else fresh.toText) = _
      rw [hempty]
      rfl
    have hfields : ∀ fields : List (String × JsValue),
        (JsValue.object (fields ++ [("posId", .string fresh.toText)])).nulFree =
          (JsValue.object (fields ++ [("posId", .string "")])).nulFree := by
      intro fields
      have htext : Char.ofNat 0 ∉ fresh.toText.toList :=
        Uuid.not_mem_of_ofText? (by decide) (by decide) (by decide) (by decide)
          (Uuid.ofText?_toText fresh)
      simp [JsValue.nulFree, JsValue.nulFreeFields, JsValue.nulFreeField, nulFreeFields_append, htext]
    unfold metaColumn
    rw [hid, hempty]
    cases spread item with
    | none => exact Iff.rfl
    | some fields =>
        simp only [if_true, jsonbColumn, hfields]
        split
        · exact iff_of_true ⟨_, rfl⟩ ⟨_, rfl⟩
        · exact iff_of_false nofun nofun
  · unfold metaColumn
    rw [if_neg hempty, if_neg hempty]

/-- The columns of `menus` take what the item has for them, and everything that is converted on the
way has a text.  The store and the id are not among them. -/
structure ColumnsTake (item : JsValue) : Prop where
  notNull : item.isNullish = false
  name : ∃ name, varcharColumn (nameText item) = .ok name
  category : ∃ category, varcharColumnOf 100 (categoryText item) = .ok category
  sort : ∃ n, integerColumn (sort item) = .ok n
  metadata : ∃ v, metaColumn item (posId item) = .ok v
  price : ∃ unitPrice, priceColumn (price item) = .ok unitPrice
  readable : isReadable item = true

theorem menuRow_ok_iff {store fresh : Uuid} {item : JsValue} :
    (∃ row, menuRow store fresh item = .ok row) ↔ ColumnsTake item := by
  unfold menuRow
  rw [uuidColumn_toUuid]
  generalize rowId fresh item = id
  constructor
  · rintro ⟨row, h⟩
    simp only [bind, Except.bind, pure, Except.pure] at h
    repeat' split at h
    all_goals simp only [reduceCtorEq, Except.ok.injEq] at h
    exact ⟨(Bool.not_eq_true _).mp ‹_›, ⟨_, ‹_›⟩, ⟨_, ‹_›⟩, ⟨_, ‹_›⟩, (metaColumn_ok_iff fresh).mp ⟨_, ‹_›⟩,
      ⟨_, ‹_›⟩, not_not.mp ‹_›⟩
  · rintro ⟨hnull, ⟨name, hname⟩, ⟨category, hcategory⟩, ⟨n, hsort⟩, hmeta, ⟨unitPrice, hprice⟩,
      hreadable⟩
    obtain ⟨v, hmeta⟩ := (metaColumn_ok_iff fresh).mpr hmeta
    unfold nameText at hname
    unfold categoryText at hcategory
    simp [hnull, hreadable, hname, hcategory, hsort, hmeta, hprice, bind, Except.bind, pure,
      Except.pure]

/-- The row has the item's id and the upload's store. -/
theorem menuRow_ids {store fresh : Uuid} {item : JsValue} {row : MenuRow}
    (h : menuRow store fresh item = .ok row) : row.id = rowId fresh item ∧ row.storeId = store := by
  unfold menuRow at h
  rw [uuidColumn_toUuid] at h
  simp only [bind, Except.bind, pure, Except.pure] at h
  repeat' split at h
  all_goals simp only [reduceCtorEq, Except.ok.injEq] at h
  subst h
  constructor
  · dsimp only
  · rfl

/-! ## The ids of rows -/

section RowIds

variable {uuids : ℕ → Uuid} {n : ℕ} {items : List JsValue} {id : Uuid}

/-- The ids of the rows, counting the items from `n`. -/
def rowIdsFrom (uuids : ℕ → Uuid) (n : ℕ) (items : List JsValue) : List Uuid :=
  (items.zipIdx n).map fun item => rowId (uuids item.2) item.1

theorem rowIdsFrom_cons (item : JsValue) (rest : List JsValue) :
    rowIdsFrom uuids n (item :: rest) = rowId (uuids n) item :: rowIdsFrom uuids (n + 1) rest := rfl

/-- The items' own ids are among those of the rows, in order. -/
theorem filterMap_ownId_sublist : (items.filterMap ownId).Sublist (rowIdsFrom uuids n items) := by
  induction items generalizing n with
  | nil => exact .slnil
  | cons item rest ih =>
      rw [rowIdsFrom_cons, rowId_eq]
      cases hown : ownId item with
      | none =>
          rw [List.filterMap_cons_none hown]
          exact ih.cons _
      | some u =>
          rw [List.filterMap_cons_some hown]
          exact ih.cons_cons u

/-- The id of a row is its item's own or one that was generated for the upload. -/
theorem mem_rowIdsFrom (h : id ∈ rowIdsFrom uuids n items) :
    id ∈ items.filterMap ownId ∨ ∃ k < items.length, uuids (n + k) = id := by
  induction items generalizing n with
  | nil => cases h
  | cons item rest ih =>
      rw [rowIdsFrom_cons, List.mem_cons] at h
      rcases h with rfl | h
      · rw [rowId_eq]
        cases hown : ownId item with
        | none => exact .inr ⟨0, by simp, rfl⟩
        | some u => exact .inl (by simp [List.filterMap_cons_some hown])
      · rcases ih h with hrest | ⟨k, hk, rfl⟩
        · obtain ⟨item', hmem, hown⟩ := List.mem_filterMap.mp hrest
          exact .inl (List.mem_filterMap.mpr ⟨item', List.mem_cons_of_mem _ hmem, hown⟩)
        · exact .inr ⟨k + 1, by simpa using hk, by rw [Nat.add_assoc, Nat.add_comm 1 k]⟩

/-- Where generated ids are new, rows share an id only if items do. -/
theorem nodup_rowIdsFrom (hown : (items.filterMap ownId).Nodup)
    (hdistinct : ∀ i < items.length, ∀ j < items.length, uuids (n + i) = uuids (n + j) → i = j)
    (hnew : ∀ i < items.length, uuids (n + i) ∉ items.filterMap ownId) :
    (rowIdsFrom uuids n items).Nodup := by
  -- on the items; the ids that are drawn are numbered by the items' places
  induction items generalizing n with
  | nil => exact List.nodup_nil
  | cons item rest ih =>
      have hsub : (rest.filterMap ownId).Sublist ((item :: rest).filterMap ownId) :=
        (List.sublist_cons_self item rest).filterMap ownId
      have hshift : ∀ i, n + 1 + i = n + (i + 1) := by omega
      rw [rowIdsFrom_cons, List.nodup_cons]
      constructor
      · intro hmem
        rw [rowId_eq] at hmem
        rcases mem_rowIdsFrom hmem with hrest | ⟨k, hk, hid⟩
        · cases hitem : ownId item with
          | none =>
              rw [hitem] at hrest
              exact hnew 0 (by simp) (hsub.subset hrest)
          | some u =>
              rw [List.filterMap_cons_some hitem, List.nodup_cons] at hown
              rw [hitem] at hrest
              exact hown.1 hrest
        · rw [hshift] at hid
          cases hitem : ownId item with
          | none =>
              rw [hitem] at hid
              cases hdistinct (k + 1) (by simpa using hk) 0 (by simp) hid
          | some u =>
              refine hnew (k + 1) (by simpa using hk) ?_
              rw [hid, hitem, List.filterMap_cons_some hitem]
              exact List.mem_cons_self
      · refine ih (hsub.nodup hown) (fun i hi j hj hij => ?_) fun i hi hmem => ?_
        · rw [hshift, hshift] at hij
          exact Nat.succ_injective
            (hdistinct (i + 1) (by simpa using hi) (j + 1) (by simpa using hj) hij)
        · rw [hshift] at hmem
          exact hnew (i + 1) (by simpa using hi) (hsub.subset hmem)

/-- An item without a UUID gets the id that is generated for it. -/
theorem mem_rowIdsFrom_of_drawn {item : JsValue} {k : ℕ} (hitem : items[k]? = some item)
    (hown : ownId item = none) : uuids k ∈ rowIdsFrom uuids 0 items := by
  refine List.mem_map.mpr ⟨(item, k), List.mem_zipIdx_iff_getElem?.mpr hitem, ?_⟩
  rw [rowId_eq, hown]
  rfl

end RowIds

/-! ## Uploads -/

end MenuAdminController

open MenuAdminController

/-- The items of an upload. -/
def MenuUpload.items (upload : MenuUpload) : List JsValue :=
  (iterate ((upload.body.get "items").coalesce (.array []))).toOption.getD []

/-- The ids that `uuidv4()` gives an upload are new: no two items get the same, and none is an
item's own or that of a row. -/
structure MenuUpload.IsFresh (upload : MenuUpload) (tables : MenuTables) : Prop where
  distinct : ∀ i < upload.items.length, ∀ j < upload.items.length,
    upload.uuids i = upload.uuids j → i = j
  noItem : ∀ i < upload.items.length, upload.uuids i ∉ upload.items.filterMap ownId
  noRow : ∀ i < upload.items.length, upload.uuids i ∉ tables.menus.map MenuRow.id

/-- The upload is not refused: the columns take its items, whose own ids are distinct and not
used by another store, and no order item refers to the menus it replaces. -/
structure MenuUpload.Uploadable (upload : MenuUpload) (tables : MenuTables) (store : Uuid) : Prop where
  storeId : uuidColumn upload.storeId = .ok store
  listed : iterate ((upload.body.get "items").coalesce (.array [])) = .ok upload.items
  free : ∀ menu ∈ tables.menus, menu.storeId = store → menu.id ∉ tables.orderedMenus
  known : upload.items ≠ [] → store ∈ tables.stores.map AreaStoreRow.id
  columns : ∀ item ∈ upload.items, ColumnsTake item
  distinct : (upload.items.filterMap ownId).Nodup
  unused : ∀ menu ∈ tables.menus, menu.storeId ≠ store → menu.id ∉ upload.items.filterMap ownId

namespace MenuTables

variable {upload again : MenuUpload} {tables tables' : MenuTables} {store : Uuid}
variable {uuids : ℕ → Uuid} {items : List JsValue} {rows : List MenuRow}

theorem Stores.ids {n : ℕ} (h : Stores store uuids (items.zipIdx n) rows) :
    rows.map MenuRow.id = rowIdsFrom uuids n items := by
  induction items generalizing n rows with
  | nil =>
      cases h
      rfl
  | cons item rest ih =>
      obtain ⟨row, rows, hrow, hrest, rfl⟩ := List.forall₂_cons_left_iff.mp h
      rw [List.map_cons, rowIdsFrom_cons, ih hrest, (menuRow_ids hrow).1]

theorem Stores.storeId {items : List (JsValue × ℕ)} (h : Stores store uuids items rows) :
    ∀ row ∈ rows, row.storeId = store := by
  induction h with
  | nil => simp
  | cons hrow _ ih => simpa [(menuRow_ids hrow).2] using ih

/-- Every stored item was one that the columns take. -/
theorem Stores.columns {n : ℕ} (h : Stores store uuids (items.zipIdx n) rows) :
    ∀ item ∈ items, ColumnsTake item := by
  induction items generalizing n rows with
  | nil => simp
  | cons item rest ih =>
      obtain ⟨row, rows, hrow, hrest, rfl⟩ := List.forall₂_cons_left_iff.mp h
      exact List.forall_mem_cons.mpr ⟨menuRow_ok_iff.mp ⟨row, hrow⟩, ih hrest⟩

/-- What was saved are the items of the upload. -/
theorem Saves.items_eq (h : Saves upload tables tables' store items rows) : upload.items = items := by
  unfold MenuUpload.items
  rw [h.listed]
  rfl

/-- An upload that succeeds was not to be refused. -/
theorem Saves.uploadable (h : Saves upload tables tables' store items rows) :
    upload.Uploadable tables store := by
  obtain rfl := h.items_eq
  have hids : rows.map MenuRow.id = rowIdsFrom upload.uuids 0 upload.items := h.stored.ids
  have hnodup := h.nodup
  rw [List.map_append, List.nodup_append, hids] at hnodup
  obtain ⟨-, hrows, hdisjoint⟩ := hnodup
  refine ⟨h.storeId, h.listed, h.free, fun hne => ?_, h.stored.columns,
    filterMap_ownId_sublist.nodup hrows, fun menu hmem hother hown => ?_⟩
  · have hlength := h.stored.length_eq
    rw [List.length_zipIdx] at hlength
    obtain ⟨row, hrow⟩ := List.exists_mem_of_length_pos
      (hlength ▸ List.length_pos_iff.mpr hne : 0 < rows.length)
    exact h.stored.storeId row hrow ▸ h.known row hrow
  · refine hdisjoint menu.id (List.mem_map_of_mem (List.mem_filter.mpr ⟨hmem, ?_⟩)) menu.id
      (filterMap_ownId_sublist.subset hown) rfl
    exact decide_eq_true hother

end MenuTables

open MenuTables

variable {upload : MenuUpload} {tables tables' : MenuTables} {store : Uuid}
variable {items : List JsValue} {rows : List MenuRow}

/-- **With new ids, an upload succeeds** unless it is to be refused: each `INSERT` meets a new key.
-/
theorem MenuUpload.Uploadable.exists_saves (h : upload.Uploadable tables store)
    (hfresh : upload.IsFresh tables) :
    ∃ tables' rows, Saves upload tables tables' store upload.items rows := by
  have hrow : ∀ item ∈ upload.items.zipIdx, ∃ row,
      menuRow store (upload.uuids item.2) item.1 = .ok row := by
    intro item hmem
    refine menuRow_ok_iff.mpr (h.columns item.1 ?_)
    exact List.mem_of_getElem? (List.mem_zipIdx_iff_getElem?.mp hmem)
  obtain ⟨rows, hrows⟩ := exists_forall₂ hrow
  have hstored : Stores store upload.uuids upload.items.zipIdx rows := hrows
  have hknown : ∀ row ∈ rows, row.storeId ∈ tables.stores.map AreaStoreRow.id := by
    intro row hmem
    rw [hstored.storeId row hmem]
    refine h.known fun hnil => ?_
    rw [hnil] at hstored
    cases hstored
    cases hmem
  have hids : (rowIdsFrom upload.uuids 0 upload.items).Nodup := by
    refine nodup_rowIdsFrom h.distinct ?_ ?_
    · simpa only [Nat.zero_add] using hfresh.distinct
    · simpa only [Nat.zero_add] using hfresh.noItem
  have hnodup : (((tables.menus.filter fun menu => menu.storeId ≠ store) ++ rows).map
      MenuRow.id).Nodup := by
    rw [List.map_append, List.nodup_append, hstored.ids]
    refine ⟨(List.filter_sublist.map MenuRow.id).nodup tables.menus_pkey, hids, ?_⟩
    rintro id hold _ hnew rfl
    obtain ⟨menu, hmenu, rfl⟩ := List.mem_map.mp hold
    obtain ⟨hmenu, hother⟩ := List.mem_filter.mp hmenu
    rcases mem_rowIdsFrom hnew with hitem | ⟨k, hk, hid⟩
    · exact h.unused menu hmenu (of_decide_eq_true hother) hitem
    · rw [Nat.zero_add] at hid
      exact hfresh.noRow k hk (hid ▸ List.mem_map_of_mem hmenu)
  obtain ⟨tables', hsaves⟩ := MenuTables.exists_saves h.storeId h.listed h.free hstored hknown hnodup
  exact ⟨tables', rows, hsaves⟩

/-! ## The database of the order services -/

section IsIn

/-- The database of the order services has the same rows for the items. -/
theorem MenuTables.Stores.menuRows {uuids : ℕ → Uuid} {n : ℕ}
    (h : Stores store uuids (items.zipIdx n) rows) : menuRows store uuids n items = .ok rows := by
  induction items generalizing n rows with
  | nil =>
      cases h
      rfl
  | cons item rest ih =>
      obtain ⟨row, rows, hrow, hrest, rfl⟩ := List.forall₂_cons_left_iff.mp h
      rw [MenuAdminController.menuRows, hrow, ih hrest]
      rfl

/-- **An upload does to the database of the order services what it does to the tables.** So what is
proved of either is proved of both. -/
theorem saveMenus_isIn {db : Database} (h : tables.IsIn db) (hsave : tables.saveMenus upload = .ok tables') :
    MenuAdminController.saveMenus upload db = .ok (tables'.onto db) ∧ tables'.IsIn (tables'.onto db) := by
  obtain ⟨store, items, rows, hsaves⟩ := saveMenus_eq_ok_iff.mp hsave
  have hne : upload.storeId ≠ "" := by
    intro hempty
    have hcolumn := hsaves.storeId
    rw [hempty] at hcolumn
    cases hcolumn
  have huploaded : uploaded upload = .ok (store, rows) := by
    unfold uploaded
    rw [if_neg hne, hsaves.storeId, hsaves.listed]
    simp only [bind, Except.bind, hsaves.stored.menuRows]
    rfl
  have hfree : ¬ db.Referenced store := by
    rintro ⟨menu, hmenu, hstore, hreferenced⟩
    rw [h.menus] at hmenu
    rw [h.orderItems] at hreferenced
    exact hsaves.free menu hmenu hstore hreferenced
  have hmenus : tables'.menus = (db.menus.filter fun menu => menu.storeId ≠ store) ++ rows := by
    rw [hsaves.menus, h.menus]
  have hnodup := tables'.menus_pkey
  rw [hmenus, List.map_append, List.nodup_append] at hnodup
  obtain ⟨-, hids, hdisjoint⟩ := hnodup
  constructor
  · unfold MenuAdminController.saveMenus
    simp only [huploaded, bind, Except.bind, Database.deleteMenus_eq_ok_iff.mpr ⟨hfree, rfl⟩]
    rw [Database.insertMenus_of_fresh ?_ hids ?_]
    · unfold onto
      rw [hmenus]
    · intro menu hmem
      rw [h.stores]
      exact hsaves.known menu hmem
    · exact fun menu hmem hold => hdisjoint _ hold _ (List.mem_map_of_mem hmem) rfl
  · exact ⟨h.stores.trans (congrArg _ hsaves.stores.symm), rfl,
      h.orderItems.trans hsaves.orderedMenus.symm⟩

end IsIn

/-! ## The second call -/

/-- The same call once more, with what `uuidv4()` gives now. -/
def MenuUpload.again (upload : MenuUpload) (uuids : ℕ → Uuid) : MenuUpload :=
  { upload with uuids := uuids }

section Again

variable {uuids : ℕ → Uuid}

/-- The upload's store has no ordered menus afterwards either. -/
theorem MenuTables.Saves.free_after (h : Saves upload tables tables' store items rows) :
    ∀ menu ∈ tables'.menus, menu.storeId = store → menu.id ∉ tables'.orderedMenus := by
  intro menu hmem hstore hordered
  rw [h.orderedMenus] at hordered
  obtain ⟨old, hold, hid⟩ := List.mem_map.mp (tables.order_items_menu_id_fkey _ hordered)
  have hother : old.storeId ≠ store := fun hown => h.free old hold hown (hid ▸ hordered)
  have hkept : old ∈ tables'.menus := by
    rw [h.menus]
    exact List.mem_append_left _ (List.mem_filter.mpr ⟨hold, decide_eq_true hother⟩)
  have hsame : old = menu := List.inj_on_of_nodup_map tables'.menus_pkey hkept hmem hid
  exact hother (hsame ▸ hstore)

/-- The menus of the other stores are the same. -/
theorem MenuTables.Saves.others (h : Saves upload tables tables' store items rows) :
    (tables'.menus.filter fun menu => menu.storeId ≠ store) =
      tables.menus.filter fun menu => menu.storeId ≠ store := by
  have hnone : rows.filter (fun menu => menu.storeId ≠ store) = [] := by
    rw [List.filter_eq_nil_iff]
    intro row hmem
    simpa using h.stored.storeId row hmem
  rw [h.menus, List.filter_append, hnone, List.append_nil, List.filter_filter]
  simp only [Bool.and_self]

/-- Items with UUIDs have the same rows again. -/
theorem MenuTables.Saves.again_eq (h : Saves upload tables tables' store items rows)
    (hids : ∀ item ∈ items, matchesUuid (posId item) = true) :
    tables'.saveMenus (upload.again uuids) = .ok tables' := by
  have huuid : ∀ item ∈ items.zipIdx, matchesUuid (posId item.1) = true := fun item hmem =>
    hids item.1 (List.mem_of_getElem? (List.mem_zipIdx_iff_getElem?.mp hmem))
  have hstored : Stores store uuids items.zipIdx rows := by
    refine List.Forall₂.imp ?_ ((List.forall₂_and_left _ _).mpr ⟨huuid, h.stored⟩)
    rintro item row ⟨hmatches, hrow⟩
    exact (menuRow_congr hmatches store _ _).trans hrow
  refine saveMenus_eq_ok_iff.mpr ⟨store, items, rows, h.storeId, h.listed, h.free_after, hstored,
    h.stores ▸ h.known, ?_, rfl, rfl, ?_⟩
  · rw [h.others]
    exact h.nodup
  · rw [h.others]
    exact h.menus

theorem MenuUpload.Uploadable.of_again (h : (upload.again uuids).Uploadable tables store) :
    upload.Uploadable tables store :=
  ⟨h.storeId, h.listed, h.free, h.known, h.columns, h.distinct, h.unused⟩

/-- What could be uploaded once can be uploaded again. -/
theorem MenuTables.Saves.uploadable_again (h : Saves upload tables tables' store items rows) :
    (upload.again uuids).Uploadable tables' store := by
  have hold := h.uploadable
  refine ⟨hold.storeId, hold.listed, h.free_after, fun hne => h.stores ▸ hold.known hne, hold.columns,
    hold.distinct, fun menu hmem hother => ?_⟩
  have hkept : menu ∈ tables.menus.filter fun menu => menu.storeId ≠ store := by
    rw [← h.others]
    exact List.mem_filter.mpr ⟨hmem, decide_eq_true hother⟩
  exact hold.unused menu (List.mem_of_mem_filter hkept) hother

/-- A second upload that gives ids again leaves other rows. -/
theorem matchesUuid_of_perm (hfresh : upload.IsFresh tables)
    (hfresh' : (upload.again uuids).IsFresh (tables.after upload))
    (huploadable : upload.Uploadable tables store)
    (hperm : ((tables.after upload).after (upload.again uuids)).menus.Perm
      (tables.after upload).menus) :
    ∀ item ∈ upload.items, matchesUuid (posId item) = true := by
  intro item hmem
  by_contra hmatches
  obtain ⟨tables₁, rows₁, hfirst⟩ := huploadable.exists_saves hfresh
  have hafter : tables.after upload = tables₁ :=
    after_eq_of_ok (saveMenus_eq_ok_iff.mpr ⟨_, _, _, hfirst⟩)
  rw [hafter] at hfresh' hperm
  obtain ⟨tables₂, rows₂, hsecond⟩ := hfirst.uploadable_again.exists_saves hfresh'
  rw [after_eq_of_ok (saveMenus_eq_ok_iff.mpr ⟨_, _, _, hsecond⟩)] at hperm
  obtain ⟨k, hitem⟩ := List.mem_iff_getElem?.mp hmem
  have hown : ownId item = none := ownId_eq_none_iff.mpr ((Bool.not_eq_true _).mp hmatches)
  have hnew : uuids k ∈ rows₂.map MenuRow.id := by
    rw [hsecond.stored.ids]
    exact mem_rowIdsFrom_of_drawn hitem hown
  -- the generated id is in the table only after the second upload
  refine hfresh'.noRow k (List.getElem?_eq_some_iff.mp hitem).1 ((hperm.map _).mem_iff.mp ?_)
  rw [hsecond.menus, List.map_append]
  exact List.mem_append_right _ hnew

/-- Where all ids are UUIDs or the upload is refused, a second one changes nothing. -/
theorem after_again (hfresh : upload.IsFresh tables)
    (h : ∀ store, upload.Uploadable tables store →
      ∀ item ∈ upload.items, matchesUuid (posId item) = true) :
    (tables.after upload).after (upload.again uuids) = tables.after upload := by
  cases hsave : tables.saveMenus upload with
  | ok tables₁ =>
      obtain ⟨store, items, rows, hsaves⟩ := saveMenus_eq_ok_iff.mp hsave
      have hids := h store hsaves.uploadable
      rw [hsaves.items_eq] at hids
      rw [after_eq_of_ok hsave, after_eq_of_ok (hsaves.again_eq hids)]
  | error e =>
      have hafter : tables.after upload = tables := by
        unfold after
        rw [hsave]
      rw [hafter]
      cases hagain : tables.saveMenus (upload.again uuids) with
      | error e' =>
          unfold after
          rw [hagain]
      | ok tables₁ =>
          -- what could be uploaded now could have been before
          obtain ⟨store, items, rows, hsaves⟩ := saveMenus_eq_ok_iff.mp hagain
          obtain ⟨tables₂, rows₂, hfirst⟩ := hsaves.uploadable.of_again.exists_saves hfresh
          rw [saveMenus_eq_ok_iff.mpr ⟨_, _, _, hfirst⟩] at hsave
          cases hsave

end Again

/-! ## The menus an app has -/

open CreateOrderService PublicController in
/-- What an app orders of the menus it got before is accepted after as it was then. -/
def StillAccepted (before after : MenuTables) : Prop :=
  ∀ collation storeId entries, GetsMenus collation before storeId (.menus entries) →
    ∀ (w : World) (choices : ℕ → Choice) (cmd : CreateOrderCommand) validated, before.IsIn w.db →
      (∀ item ∈ cmd.items, item.menuId ∈ entries.map MenuEntry.id) →
      (Program.run Op.exec choices (validateAndEnrichItems cmd) 0 w).1 = .ok validated →
      (Program.run Op.exec choices (validateAndEnrichItems cmd) 0
        { w with db := after.onto w.db }).1 = .ok validated

/-- **The second upload changes nothing**: not the rows, and not what is accepted. -/
def RepeatsExactly (upload : MenuUpload) (uuids : ℕ → Uuid) (tables : MenuTables) : Prop :=
  ((tables.after upload).after (upload.again uuids)).menus.Perm (tables.after upload).menus ∧
    StillAccepted (tables.after upload) ((tables.after upload).after (upload.again uuids))

/-- **When an upload can be repeated**: exactly if it is refused, or every item has a UUID. -/
theorem repeatsExactly_iff {uuids : ℕ → Uuid} (hfresh : upload.IsFresh tables)
    (hfresh' : (upload.again uuids).IsFresh (tables.after upload)) :
    RepeatsExactly upload uuids tables ↔ ∀ store, upload.Uploadable tables store →
      ∀ item ∈ upload.items, matchesUuid (posId item) = true := by
  constructor
  · rintro ⟨hperm, -⟩ store huploadable
    exact matchesUuid_of_perm hfresh hfresh' huploadable hperm
  · intro h
    unfold RepeatsExactly
    rw [after_again hfresh h]
    refine ⟨.refl _, fun collation storeId entries _ w choices cmd validated hin _ hrun => ?_⟩
    rw [hin.onto_eq]
    exact hrun

/-! ### A menu with a number for its id -/

/-- The seeded stores, and no menus. -/
def bareTables : MenuTables where
  stores := [⟨⟨0x11111111111111111111111111111111⟩, "홍대점", true, 0⟩,
    ⟨⟨0x22222222222222222222222222222222⟩, "신촌점", true, 1⟩]
  menus := []
  orderedMenus := []
  menus_pkey := List.nodup_nil
  menus_store_id_fkey := nofun
  order_items_menu_id_fkey := nofun

/-- An item whose id is a number. -/
def numberedItem : JsValue :=
  .object [("id", .string "1"), ("name", .string "후라이드치킨"), ("price", .number "18000")]

/-- The upload of that item, for which a first id is generated. -/
def numberedUpload : MenuUpload where
  storeId := "11111111-1111-1111-1111-111111111111"
  body := .object [("items", .array [numberedItem])]
  uuids n := ⟨BitVec.ofNat 128 (100 + n)⟩

/-- What `uuidv4()` gives the second time. -/
def newUuids (n : ℕ) : Uuid := ⟨BitVec.ofNat 128 (200 + n)⟩

theorem isFresh_numberedUpload : numberedUpload.IsFresh bareTables where
  distinct := by decide +kernel
  noItem := by decide +kernel
  noRow := by decide +kernel

theorem isFresh_numberedUpload_again :
    (numberedUpload.again newUuids).IsFresh (bareTables.after numberedUpload) where
  distinct := by decide +kernel
  noItem := by decide +kernel
  noRow := by decide +kernel

theorem repeatsExactly_iff_numbered :
    RepeatsExactly numberedUpload newUuids bareTables ↔
      ∀ store, numberedUpload.Uploadable bareTables store →
        ∀ item ∈ numberedUpload.items, matchesUuid (posId item) = true :=
  repeatsExactly_iff isFresh_numberedUpload isFresh_numberedUpload_again

theorem uploadable_numberedUpload : numberedUpload.Uploadable bareTables seedStore where
  storeId := by decide +kernel
  listed := rfl
  free := nofun
  known := by decide +kernel
  columns := by
    intro item hmem
    obtain rfl : item = numberedItem := List.mem_singleton.mp hmem
    have hmeta : (metaColumn numberedItem (posId numberedItem)).isOk = true := by decide +kernel
    refine ⟨rfl, ⟨"후라이드치킨", by decide +kernel⟩, ⟨"", by decide +kernel⟩, ⟨0, by decide +kernel⟩, ?_,
      ⟨some 18000, by decide +kernel⟩, by decide +kernel⟩
    cases hcolumn : metaColumn numberedItem (posId numberedItem) with
    | ok v => exact ⟨v, rfl⟩
    | error e =>
        rw [hcolumn] at hmeta
        cases hmeta
  distinct := by decide +kernel
  unused := nofun

/-- An order for the menu, as the first upload has it. -/
def numberedCommand : CreateOrderCommand where
  idempotencyKey := "key-7"
  storeId := "11111111-1111-1111-1111-111111111111"
  userId := none
  requestedAmount := "18000"
  items := [⟨"00000000-0000-0000-0000-000000000064", 1⟩]

/-- The validation of that order with these menus. -/
def validatedOn (tables : MenuTables) : Except OrderError (String × List OrderItem) :=
  (Program.run Op.exec (fun n => .undisturbed n)
    (CreateOrderService.validateAndEnrichItems numberedCommand) 0 (.init (tables.onto .seed))).1

/-- After the first upload the order is accepted. -/
theorem validatedOn_first : validatedOn (bareTables.after numberedUpload) =
    .ok ("18000.00", [⟨"00000000-0000-0000-0000-000000000064", "후라이드치킨", 18000, 1⟩]) := by
  decide +kernel

theorem validatedOn_second :
    validatedOn ((bareTables.after numberedUpload).after (numberedUpload.again newUuids)) =
      .error (.menuNotFound "00000000-0000-0000-0000-000000000064") := by
  decide +kernel

/-- The app gets the menu's id in between. -/
theorem exists_getsMenus_first : ∃ entries,
    PublicController.GetsMenus Relational.Collation.codePoints (bareTables.after numberedUpload)
      (some numberedUpload.storeId) (.menus entries) ∧
    "00000000-0000-0000-0000-000000000064" ∈ entries.map MenuEntry.id := by
  have hmenu : ∃ row ∈ (bareTables.after numberedUpload).menus,
      decide (row.storeId = seedStore ∧ row.isAvailable) = true ∧
      row.id.toText = "00000000-0000-0000-0000-000000000064" := by decide +kernel
  obtain ⟨row, hmem, hshown, hid⟩ := hmenu
  have hselection := Relational.isSelection_mergeSort (bareTables.after numberedUpload).menus
    (fun row => row.storeId = seedStore ∧ row.isAvailable)
    (.thenBy (.ofLinearOrder MenuRow.sortOrder)
      (.comap MenuRow.name Relational.Collation.codePoints))
  refine ⟨_, ⟨_, rfl, hselection⟩, List.mem_map.mpr ⟨row.entry, List.mem_map_of_mem ?_, hid⟩⟩
  exact hselection.mem_iff.mpr ⟨hmem, hshown⟩

/-- **The second upload gives the menu another id**, and the app's order is refused, although
nothing of the menu has changed. -/
theorem not_repeatsExactly_of_number :
    ¬ ((bareTables.after numberedUpload).after (numberedUpload.again newUuids)).menus.Perm
      (bareTables.after numberedUpload).menus ∧
    ¬ StillAccepted (bareTables.after numberedUpload)
      ((bareTables.after numberedUpload).after (numberedUpload.again newUuids)) := by
  constructor
  · intro hperm
    have hnumber : matchesUuid (posId numberedItem) = false := by decide +kernel
    rw [matchesUuid_of_perm isFresh_numberedUpload isFresh_numberedUpload_again
      uploadable_numberedUpload hperm numberedItem (List.mem_singleton.mpr rfl)] at hnumber
    cases hnumber
  · intro haccepted
    obtain ⟨entries, hgets, hmem⟩ := exists_getsMenus_first
    have hin : (bareTables.after numberedUpload).IsIn
        ((bareTables.after numberedUpload).onto .seed) := ⟨by decide +kernel, rfl, by decide +kernel⟩
    have hitems : ∀ item ∈ numberedCommand.items, item.menuId ∈ entries.map MenuEntry.id := by
      intro item hitem
      obtain rfl := List.mem_singleton.mp hitem
      exact hmem
    have hagain := haccepted _ _ entries hgets (.init _) (fun n => .undisturbed n) numberedCommand _
      hin hitems validatedOn_first
    cases validatedOn_second.symm.trans hagain

end ChickenOrder
