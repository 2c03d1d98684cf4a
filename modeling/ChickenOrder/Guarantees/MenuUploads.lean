import ChickenOrder.Database.AuditTrail
import ChickenOrder.Services.MenuReads

/-!
# Menu uploads on a store with orders

An upload deletes the store's menus and inserts the uploaded ones.  `TakesEffect` is what the
operator expects of it, `uploadTakesEffect_iff` when it happens: never once an order item
refers to one of the store's menus, whatever is uploaded.  Order items are not deleted, so one
order is enough: `frozen_of_reaches` says that such a store's menus stay as they are in
every run.

Beside the name and the price, which `Valid` is about, two more columns can refuse an item: a
category of more than a hundred characters and a `sort` that is no integer.  `metadata` only
refuses texts Postgres cannot hold.  And the handler fails on an object that has a property
`toString` where it reads a text or a number.

The transaction is a `DELETE` and a loop of `INSERT`s.  What the loop asks of an item is
collected first (`Shows`, `OtherColumnsTake`), what the keys ask of all items next (`Valid`);
then an upload is a `DELETE` that is refused, or goes through.
-/

namespace ChickenOrder

open Interaction

namespace MenuAdminController

/-! ## The rows of an upload -/

/-- The id of an item's row: its own if it is a UUID, and a generated one otherwise. -/
def rowId (fresh : Uuid) (item : JsValue) : Uuid :=
  (Uuid.ofText? (toUuid (item.get "id") fresh)).getD fresh

/-- What `toUuid` gives can be stored, and is this id. -/
theorem uuidColumn_toUuid (fresh : Uuid) (item : JsValue) :
    uuidColumn (toUuid (item.get "id") fresh) = .ok (rowId fresh item) := by
  have hread : ∃ u, Uuid.ofText? (toUuid (item.get "id") fresh) = some u := by
    unfold toUuid
    split
    · rename_i hmatches
      exact ofText?_of_matchesUuid hmatches
    · exact ⟨fresh, Uuid.ofText?_toText fresh⟩
  obtain ⟨u, hu⟩ := hread
  unfold rowId uuidColumn
  rw [hu]
  rfl

/-- The ids of an upload's rows. -/
def rowIds (uuids : ℕ → Uuid) (items : List JsValue) : List Uuid :=
  items.zipIdx.map fun item => rowId (uuids item.2) item.1

/-- The item's name as it is sent.  A name that is no text is printed as one. -/
def nameText (item : JsValue) : String := (nameValue item).toText

/-- The category as it is sent. -/
def categoryText (item : JsValue) : String := (categoryValue item).toText

/-- The row has the item's content, column by column, and everything that the handler converts on
the way has a text. -/
structure Shows (store fresh : Uuid) (item : JsValue) (row : MenuRow) : Prop where
  id : row.id = rowId fresh item
  storeId : row.storeId = store
  name : varcharColumn (nameText item) = .ok row.name
  unitPrice : priceColumn (price item) = .ok row.unitPrice
  isAvailable : row.isAvailable = avail item
  category : ∃ category, row.category = some category ∧
    varcharColumnOf 100 (categoryText item) = .ok category
  sortOrder : integerColumn (sort item) = .ok row.sortOrder
  metadata : metaColumn item (toUuid (item.get "id") fresh) = .ok row.metadata
  readable : isReadable item = true

/-- A row is what shows its item; `null` has none. -/
theorem menuRow_eq_ok_iff {store fresh : Uuid} {item : JsValue} {row : MenuRow} :
    menuRow store fresh item = .ok row ↔
      item.isNullish = false ∧ Shows store fresh item row := by
  unfold menuRow
  rw [uuidColumn_toUuid]
  cases item.isNullish with
  | true => simp
  | false =>
      simp only [Bool.false_eq_true, if_false, true_and]
      by_cases hreadable : isReadable item = true
      swap
      · rw [if_pos hreadable]
        exact iff_of_false nofun fun hshows => hreadable hshows.readable
      rw [if_neg (not_not_intro hreadable)]
      constructor
      · intro h
        simp only [bind, Except.bind, pure, Except.pure] at h
        repeat' split at h
        all_goals simp only [reduceCtorEq, Except.ok.injEq] at h
        subst h
        exact ⟨rfl, rfl, ‹_›, ‹_›, rfl, ⟨_, rfl, ‹_›⟩, ‹_›, ‹_›, hreadable⟩
      · rintro ⟨hid, hstore, hname, hprice, havail, ⟨category, hcategory, htext⟩, hsort, hmeta, -⟩
        unfold nameText at hname
        unfold categoryText at htext
        obtain ⟨id, storeId, name, unitPrice, isAvailable, category', sortOrder, metadata⟩ := row
        simp only at hid hstore hname hprice havail hcategory hsort hmeta
        simp [hname, htext, hsort, hmeta, hprice, hid, hstore, havail, hcategory, bind, Except.bind,
          pure, Except.pure]

/-- What the item's name and price do not concern: the other columns, and that everything the
handler converts has a text. -/
structure OtherColumnsTake (fresh : Uuid) (item : JsValue) : Prop where
  category : ∃ category, varcharColumnOf 100 (categoryText item) = .ok category
  sort : ∃ n, integerColumn (sort item) = .ok n
  metadata : ∃ v, metaColumn item (toUuid (item.get "id") fresh) = .ok v
  readable : isReadable item = true

/-- An item with a valid name and a valid price has a row if the other columns take it. -/
theorem exists_shows_iff {store fresh : Uuid} {item : JsValue}
    (hname : ∃ name, varcharColumn (nameText item) = .ok name)
    (hprice : ∃ unitPrice, priceColumn (price item) = .ok unitPrice) :
    (∃ row, Shows store fresh item row) ↔ OtherColumnsTake fresh item := by
  constructor
  · rintro ⟨row, hrow⟩
    obtain ⟨category, -, hcategory⟩ := hrow.category
    exact ⟨⟨category, hcategory⟩, ⟨_, hrow.sortOrder⟩, ⟨_, hrow.metadata⟩, hrow.readable⟩
  · rintro ⟨⟨category, hcategory⟩, ⟨n, hsort⟩, ⟨v, hmeta⟩, hreadable⟩
    obtain ⟨name, hname⟩ := hname
    obtain ⟨unitPrice, hunitPrice⟩ := hprice
    exact ⟨⟨rowId fresh item, store, name, unitPrice, avail item, some category, n, v⟩,
      rfl, rfl, hname, hunitPrice, rfl, ⟨category, rfl, hcategory⟩, hsort, hmeta, hreadable⟩

/-- The rows of items, in their order. -/
def ShowAll (store : Uuid) (uuids : ℕ → Uuid) (items : List (JsValue × ℕ)) (rows : List MenuRow) :
    Prop :=
  List.Forall₂ (fun item row => Shows store (uuids item.2) item.1 row) items rows

/-- The rows of an upload are those of its items, in their order. -/
theorem menuRows_eq_ok_iff {store : Uuid} {uuids : ℕ → Uuid} {n : ℕ} {items : List JsValue}
    {rows : List MenuRow} (hnull : ∀ item ∈ items, item.isNullish = false) :
    menuRows store uuids n items = .ok rows ↔ ShowAll store uuids (items.zipIdx n) rows := by
  induction items generalizing n rows with
  | nil =>
      simp [menuRows, ShowAll, eq_comm]
  | cons item rest ih =>
      have hnull₀ := hnull item List.mem_cons_self
      have hrest : ∀ {n rows}, menuRows store uuids n rest = .ok rows ↔
          ShowAll store uuids (rest.zipIdx n) rows :=
        ih fun item hmem => hnull item (List.mem_cons_of_mem _ hmem)
      rw [menuRows, List.zipIdx_cons, ShowAll, List.forall₂_cons_left_iff]
      constructor
      · intro h
        cases hrow : menuRow store (uuids n) item with
        | error e =>
            rw [hrow] at h
            cases h
        | ok row =>
            cases htail : menuRows store uuids (n + 1) rest with
            | error e =>
                rw [hrow, htail] at h
                cases h
            | ok rows' =>
                rw [hrow, htail] at h
                cases h
                exact ⟨row, rows', (menuRow_eq_ok_iff.mp hrow).2, hrest.mp htail, rfl⟩
      · rintro ⟨row, rows', hrow, htail, rfl⟩
        rw [menuRow_eq_ok_iff.mpr ⟨hnull₀, hrow⟩, hrest.mpr htail]
        rfl

theorem ShowAll.ids {store : Uuid} {uuids : ℕ → Uuid} {items : List (JsValue × ℕ)}
    {rows : List MenuRow} (h : ShowAll store uuids items rows) :
    rows.map MenuRow.id = items.map fun item => rowId (uuids item.2) item.1 := by
  induction h with
  | nil => rfl
  | cons hrow _ ih => rw [List.map_cons, List.map_cons, ih, hrow.id]

theorem ShowAll.storeId {store : Uuid} {uuids : ℕ → Uuid} {items : List (JsValue × ℕ)}
    {rows : List MenuRow} (h : ShowAll store uuids items rows) :
    ∀ row ∈ rows, row.storeId = store := by
  induction h with
  | nil => simp
  | cons hrow _ ih => simpa [hrow.storeId] using ih

/-- There is a row for every item exactly if every item has one. -/
theorem exists_showAll_iff {store : Uuid} {uuids : ℕ → Uuid} {items : List (JsValue × ℕ)} :
    (∃ rows, ShowAll store uuids items rows) ↔
      ∀ item ∈ items, ∃ row, Shows store (uuids item.2) item.1 row := by
  induction items with
  | nil => exact ⟨fun _ => by simp, fun _ => ⟨[], .nil⟩⟩
  | cons item rest ih =>
      rw [List.forall_mem_cons, ← ih]
      constructor
      · rintro ⟨rows, hrows⟩
        obtain ⟨row, rows', hrow, hrest, -⟩ := List.forall₂_cons_left_iff.mp hrows
        exact ⟨⟨row, hrow⟩, rows', hrest⟩
      · rintro ⟨⟨row, hrow⟩, rows', hrest⟩
        exact ⟨row :: rows', .cons hrow hrest⟩

end MenuAdminController

/-! ## The transaction -/

namespace Database

variable {db db' : Database}

/-- New rows of a known store are inserted. -/
theorem insertMenus_of_fresh {rows : List MenuRow}
    (hstore : ∀ row ∈ rows, row.storeId ∈ db.stores.map StoreRow.id)
    (hnodup : (rows.map MenuRow.id).Nodup)
    (hfresh : ∀ row ∈ rows, row.id ∉ db.menus.map MenuRow.id) :
    insertMenus rows db = .ok { db with menus := db.menus ++ rows } := by
  induction rows generalizing db with
  | nil => simp [insertMenus]
  | cons row rest ih =>
      obtain ⟨hstore₀, hstores⟩ := List.forall_mem_cons.mp hstore
      obtain ⟨hfresh₀, hfreshs⟩ := List.forall_mem_cons.mp hfresh
      obtain ⟨hnotin, hnodup⟩ := List.nodup_cons.mp (List.map_cons ▸ hnodup)
      have hinsert : db.insertMenu row = .ok { db with menus := db.menus ++ [row] } := by
        unfold insertMenu
        rw [if_neg (not_not.mpr hstore₀), if_neg hfresh₀]
      have hnew : ∀ other ∈ rest, other.id ∉ (db.menus ++ [row]).map MenuRow.id := by
        intro other hmem
        rw [List.map_append, List.mem_append, not_or]
        refine ⟨hfreshs other hmem, fun hid => hnotin ?_⟩
        rw [← List.mem_singleton.mp hid]
        exact List.mem_map_of_mem hmem
      have hrest : insertMenus rest { db with menus := db.menus ++ [row] } =
          .ok { db with menus := (db.menus ++ [row]) ++ rest } := ih hstores hnodup hnew
      rw [insertMenus, hinsert]
      exact hrest.trans (by simp)

/-- An order item refers to one of the store's menus.  The foreign key is `ON DELETE RESTRICT`, so
this is enough to refuse the `DELETE` of all of them. -/
def Referenced (db : Database) (store : Uuid) : Prop :=
  ∃ menu ∈ db.menus, menu.storeId = store ∧ menu.id ∈ db.orderItems.map OrderItemRow.menuId

/-- The `DELETE` takes all menus of the store, or is refused. -/
theorem deleteMenus_eq_ok_iff {store : Uuid} :
    db.deleteMenus store = .ok db' ↔ ¬ db.Referenced store ∧
      db' = { db with menus := db.menus.filter fun menu => menu.storeId ≠ store } := by
  unfold deleteMenus Referenced
  split
  · rename_i hreferenced
    exact iff_of_false nofun fun h => h.1 hreferenced
  · rename_i hfree
    rw [Except.ok.injEq, eq_comm]
    exact (and_iff_right hfree).symm

end Database

namespace MenuAdminController

/-- The upload of a known store, with items whose names and prices are valid and whose ids
are distinct and not used by another store. -/
structure Valid (upload : MenuUpload) (store : Uuid) (items : List JsValue) (db : Database) :
    Prop where
  storeId : uuidColumn upload.storeId = .ok store
  known : store ∈ db.stores.map StoreRow.id
  listed : iterate ((upload.body.get "items").coalesce (.array [])) = .ok items
  notNull : ∀ item ∈ items, item.isNullish = false
  names : ∀ item ∈ items, ∃ name, varcharColumn (nameText item) = .ok name
  prices : ∀ item ∈ items, ∃ q unitPrice, price item = .finite q ∧ amountColumn q = .ok unitPrice
  distinct : (rowIds upload.uuids items).Nodup
  unused : ∀ menu ∈ db.menus, menu.storeId ≠ store → menu.id ∉ rowIds upload.uuids items

/-- **The upload takes effect**: the store's menus are the uploaded items, and nothing else has
changed. -/
def TakesEffect (upload : MenuUpload) (store : Uuid) (items : List JsValue) (db : Database) : Prop :=
  ∃ db', saveMenus upload db = .ok db' ∧
    ShowAll store upload.uuids items.zipIdx (db'.menus.filter fun menu => menu.storeId = store) ∧
    (db'.menus.filter fun menu => menu.storeId ≠ store) =
      db.menus.filter (fun menu => menu.storeId ≠ store) ∧
    db'.orders = db.orders ∧ db'.orderItems = db.orderItems

section Uploads

variable {upload : MenuUpload} {store : Uuid} {items : List JsValue} {db db' : Database}

theorem Valid.uploaded_eq (h : Valid upload store items db) :
    uploaded upload = (menuRows store upload.uuids 0 items).map fun rows => (store, rows) := by
  have hne : upload.storeId ≠ "" := by
    intro hempty
    have hcolumn := h.storeId
    rw [hempty] at hcolumn
    cases hcolumn
  unfold uploaded
  rw [if_neg hne, h.storeId, h.listed]
  show (menuRows store upload.uuids 0 items >>= fun rows => pure (store, rows)) = _
  cases menuRows store upload.uuids 0 items with
  | error e => rfl
  | ok rows => rfl

/-- An upload that succeeds has deleted its store's menus. -/
theorem not_referenced_of_saveMenus {rows : List MenuRow} (hsave : saveMenus upload db = .ok db')
    (huploaded : uploaded upload = .ok (store, rows)) : ¬ db.Referenced store := by
  unfold saveMenus at hsave
  rw [huploaded] at hsave
  cases hdelete : db.deleteMenus store with
  | error e =>
      simp only [bind, Except.bind, hdelete] at hsave
      cases hsave
  | ok db₁ => exact (Database.deleteMenus_eq_ok_iff.mp hdelete).1

/-- What a valid upload does, if it succeeds: the old menus go, the rows of the items come, and
other stores keep theirs. -/
theorem Valid.saveMenus_iff (h : Valid upload store items db) :
    saveMenus upload db = .ok db' ↔ ¬ db.Referenced store ∧ ∃ rows,
      ShowAll store upload.uuids items.zipIdx rows ∧
      db' = { db with
        menus := (db.menus.filter fun menu => menu.storeId ≠ store) ++ rows } := by
  -- the rows that the handler builds are those that show the items
  have hrows : ∀ {rows}, menuRows store upload.uuids 0 items = .ok rows ↔
      ShowAll store upload.uuids items.zipIdx rows := menuRows_eq_ok_iff h.notNull
  constructor
  · intro hsave
    obtain ⟨store', rows, huploaded, hdb⟩ := saveMenus_eq_ok hsave
    have hfree := not_referenced_of_saveMenus hsave huploaded
    rw [h.uploaded_eq] at huploaded
    cases hmenus : menuRows store upload.uuids 0 items with
    | error e =>
        rw [hmenus] at huploaded
        cases huploaded
    | ok rows' =>
        rw [hmenus] at huploaded
        cases huploaded
        exact ⟨hfree, rows, hrows.mp hmenus, hdb⟩
  · rintro ⟨hfree, rows, hshow, rfl⟩
    unfold saveMenus
    rw [h.uploaded_eq, hrows.mpr hshow]
    simp only [Except.map, bind, Except.bind, Database.deleteMenus_eq_ok_iff.mpr ⟨hfree, rfl⟩]
    -- the new rows are of a known store, and meet no ids among themselves or in what is left
    refine Database.insertMenus_of_fresh (fun row hmem => ?_) ?_ fun row hmem hold => ?_
    · rw [hshow.storeId row hmem]
      exact h.known
    · rw [hshow.ids]
      exact h.distinct
    · obtain ⟨menu, hmenu, hid⟩ := List.mem_map.mp hold
      obtain ⟨hmenu, hother⟩ := List.mem_filter.mp hmenu
      refine h.unused menu hmenu (by simpa using hother) ?_
      rw [hid, rowIds, ← hshow.ids]
      exact List.mem_map_of_mem hmem

/-- **When an upload takes effect.** A valid one exactly if no order item refers to the store's
menus and the other columns take every item. -/
theorem uploadTakesEffect_iff (h : Valid upload store items db) :
    TakesEffect upload store items db ↔ ¬ db.Referenced store ∧
      ∀ item ∈ items.zipIdx, OtherColumnsTake (upload.uuids item.2) item.1 := by
  -- the prices and names are valid, so it is the other columns that decide
  have hshown : (∃ rows, ShowAll store upload.uuids items.zipIdx rows) ↔
      ∀ item ∈ items.zipIdx, OtherColumnsTake (upload.uuids item.2) item.1 := by
    rw [exists_showAll_iff]
    refine forall₂_congr fun item hmem => ?_
    have hitem : item.1 ∈ items := List.mem_of_getElem? (List.mem_zipIdx_iff_getElem?.mp hmem)
    obtain ⟨q, unitPrice, hq, hcolumn⟩ := h.prices item.1 hitem
    refine exists_shows_iff (h.names item.1 hitem) ⟨some unitPrice, ?_⟩
    rw [hq, priceColumn, hcolumn]
    rfl
  constructor
  · rintro ⟨db', hsave, hshow, -⟩
    obtain ⟨hfree, rows, hrows, -⟩ := h.saveMenus_iff.mp hsave
    exact ⟨hfree, hshown.mp ⟨rows, hrows⟩⟩
  · rintro ⟨hfree, hcolumns⟩
    obtain ⟨rows, hrows⟩ := hshown.mpr hcolumns
    have hself : rows.filter (fun menu => menu.storeId = store) = rows := by
      rw [List.filter_eq_self]
      intro row hmem
      simpa using hrows.storeId row hmem
    have hnone : rows.filter (fun menu => menu.storeId ≠ store) = [] := by
      rw [List.filter_eq_nil_iff]
      intro row hmem
      simpa using hrows.storeId row hmem
    refine ⟨_, h.saveMenus_iff.mpr ⟨hfree, rows, hrows, rfl⟩, ?_, ?_, rfl, rfl⟩
    · rw [List.filter_append, hself]
      simpa [List.filter_filter] using hrows
    · rw [List.filter_append, hnone]
      simp [List.filter_filter]

end Uploads

/-! ### The menus of the first seeded store -/

/-- The store's first menu at a new price. -/
def seedItem : JsValue :=
  .object [("id", .string "aaaaaaaa-aaaa-aaaa-aaaa-aaaaaaaaaaaa"), ("name", .string "후라이드치킨"),
    ("price", .number "17000")]

/-- The upload of that one item. -/
def seedUpload : MenuUpload where
  storeId := "11111111-1111-1111-1111-111111111111"
  body := .object [("items", .array [seedItem])]
  uuids _ := ⟨0⟩

/-- The store it is for. -/
def seedStore : Uuid := ⟨0x11111111111111111111111111111111⟩

/-- A database with the seed's menus. -/
theorem valid_seedUpload {db : Database} (hstores : db.stores = Database.seed.stores)
    (hmenus : db.menus = Database.seed.menus) : Valid seedUpload seedStore [seedItem] db where
  storeId := by decide +kernel
  known := by
    rw [hstores]
    decide
  listed := rfl
  notNull := by simp [seedItem, JsValue.isNullish]
  names := by
    rintro item hmem
    rw [List.mem_singleton.mp hmem]
    exact ⟨"후라이드치킨", by decide +kernel⟩
  prices := by
    rintro item hmem
    rw [List.mem_singleton.mp hmem]
    exact ⟨17000, 17000, by decide +kernel, by decide +kernel⟩
  distinct := List.nodup_singleton _
  unused := by
    rw [hmenus]
    decide +kernel

/-- The equivalence for one item of the seeded store. -/
theorem uploadTakesEffect_iff_seed :
    TakesEffect seedUpload seedStore [seedItem] .seed ↔ ¬ Database.seed.Referenced seedStore ∧
      ∀ item ∈ [seedItem].zipIdx, OtherColumnsTake (seedUpload.uuids item.2) item.1 :=
  uploadTakesEffect_iff (valid_seedUpload rfl rfl)

/-- The seed database with an order in it. -/
def orderedSeed : Database := ((RepoOp.createOrder seedOrder).effect 0 .seed).2

/-- After one order the store's menus cannot be uploaded: neither a new price nor a sold-out menu
ever gets into the table again. -/
theorem not_uploadTakesEffect_of_order :
    ¬ ∀ upload store items db, Valid upload store items db → TakesEffect upload store items db := by
  intro h
  have hstores : orderedSeed.stores = Database.seed.stores := by
    show (settle Database.seed (Database.seed.createOrder seedOrder 0)).2.stores = _
    rcases hresult : Database.seed.createOrder seedOrder 0 with e | ⟨inserted, db'⟩
    · rfl
    · obtain ⟨-, rfl, -⟩ | ⟨-, -, -, -, -, -, -, hstores⟩ := Database.createOrder_eq_ok hresult
      · rfl
      · exact hstores
  have hmenus : orderedSeed.menus = Database.seed.menus :=
    (RepoOp.createOrder seedOrder).effect_menus 0 .seed
  obtain ⟨db', hsave, -⟩ := h _ _ _ _ (valid_seedUpload hstores hmenus)
  have hrefused : (saveMenus seedUpload orderedSeed).isOk = false := by decide +kernel
  rw [hsave] at hrefused
  exact Bool.noConfusion hrefused

end MenuAdminController

/-! ## Menus that orders refer to -/

section Referenced

variable {db db' : Database} {store : Uuid}

/-- No call takes an order item away. -/
theorem RepoOp.effect_orderItems (o : RepoOp) (now : Time) (db : Database) :
    ∃ rows, (o.effect now db).2.orderItems = db.orderItems ++ rows := by
  cases o with
  | createOrder p =>
      show ∃ rows, (settle db (db.createOrder p now)).2.orderItems = _
      rcases hresult : db.createOrder p now with e | ⟨inserted, db'⟩
      · exact ⟨[], (List.append_nil _).symm⟩
      · cases inserted with
        | true =>
            obtain ⟨row, rows, hpk, huk, -, -, rfl⟩ := Database.createOrder_eq_ok_true hresult
            exact ⟨rows, rfl⟩
        | false =>
            obtain ⟨-, rfl, -⟩ | ⟨hinserted, -⟩ := Database.createOrder_eq_ok hresult
            · exact ⟨[], (List.append_nil _).symm⟩
            · cases hinserted
  | transitionStatus p =>
      show ∃ rows, (settle db (quietly (db.transitionStatus p now))).2.orderItems = _
      rcases hresult : db.transitionStatus p now with e | db'
      · exact ⟨[], (List.append_nil _).symm⟩
      · obtain ⟨s, row, -, -, -, -, -, rfl⟩ := Database.transitionStatus_eq_ok hresult
        exact ⟨[], (List.append_nil _).symm⟩
  | findById orderId => exact ⟨[], (List.append_nil _).symm⟩
  | markDlq orderId reason =>
      show ∃ rows, (settle db (quietly (db.markDlq orderId reason now))).2.orderItems = _
      rcases hresult : db.markDlq orderId reason now with e | db'
      · exact ⟨[], (List.append_nil _).symm⟩
      · obtain ⟨-, rfl⟩ := Database.markDlq_eq_ok_iff.mp hresult
        exact ⟨[], (List.append_nil _).symm⟩
  | incrementRetryCount orderId =>
      show ∃ rows, (settle db (quietly (db.incrementRetryCount orderId))).2.orderItems = _
      unfold Database.incrementRetryCount
      split
      · exact ⟨[], (List.append_nil _).symm⟩
      · split
        · exact ⟨[], (List.append_nil _).symm⟩
        · exact ⟨[], (List.append_nil _).symm⟩

theorem Op.exec_orderItems (o : Op) (c : Choice) (w : World) :
    ∃ rows, (o.exec c w).2.db.orderItems = w.db.orderItems ++ rows := by
  refine Op.exec_invariant (I := fun w' => ∃ rows, w'.db.orderItems = w.db.orderItems ++ rows)
    ⟨[], (List.append_nil _).symm⟩ ?_
  obtain ⟨r, -, hdb⟩ | ⟨id, new, -, -, hdb⟩ | hdb := o.effect_db c w
  · rw [hdb]
    exact r.effect_orderItems c.now w.db
  · rw [hdb]
    exact ⟨[], (List.append_nil _).symm⟩
  · rw [hdb]
    exact ⟨[], (List.append_nil _).symm⟩

/-- The store's menus, and an order item that refers to one of them.  From then on neither changes.
-/
structure Frozen (store : Uuid) (menus : List MenuRow) (db : Database) : Prop where
  referenced : db.Referenced store
  menus : (db.menus.filter fun menu => menu.storeId = store) = menus

theorem Frozen.exec {menus : List MenuRow} {w : World} (h : Frozen store menus w.db) (o : Op)
    (c : Choice) : Frozen store menus (o.exec c w).2.db := by
  obtain ⟨rows, hitems⟩ := o.exec_orderItems c w
  have hmenus := o.exec_menus c w
  refine ⟨?_, hmenus ▸ h.menus⟩
  obtain ⟨menu, hmem, hstore, hreferenced⟩ := h.referenced
  refine ⟨menu, hmenus ▸ hmem, hstore, ?_⟩
  rw [hitems, List.map_append]
  exact List.mem_append_left _ hreferenced

/-- An upload for the store is refused, and one for another store leaves its menus. -/
theorem Frozen.saveMenus {menus : List MenuRow} (h : Frozen store menus db) {upload : MenuUpload}
    (hsave : MenuAdminController.saveMenus upload db = .ok db') : Frozen store menus db' := by
  obtain ⟨store', rows, huploaded, rfl⟩ := MenuAdminController.saveMenus_eq_ok hsave
  have hother : store ≠ store' := by
    rintro rfl
    exact MenuAdminController.not_referenced_of_saveMenus hsave huploaded h.referenced
  constructor
  · obtain ⟨menu, hmem, hstore, hreferenced⟩ := h.referenced
    refine ⟨menu, List.mem_append_left _ (List.mem_filter.mpr ⟨hmem, ?_⟩), hstore, hreferenced⟩
    rw [hstore]
    exact decide_eq_true hother
  · have hnone : rows.filter (fun menu => menu.storeId = store) = [] := by
      rw [List.filter_eq_nil_iff]
      intro row hmem
      rw [(MenuAdminController.uploaded_storeId huploaded).2 row hmem]
      simpa using hother.symm
    have hkept : (db.menus.filter fun menu => menu.storeId ≠ store').filter
        (fun menu => menu.storeId = store) = db.menus.filter fun menu => menu.storeId = store := by
      rw [List.filter_filter]
      refine List.filter_congr fun menu _ => ?_
      by_cases hstore : menu.storeId = store
      · simp [hstore, hother]
      · simp [hstore]
    show List.filter _ (_ ++ rows) = menus
    rw [List.filter_append, hnone, List.append_nil, hkept]
    exact h.menus

/-- **The menus of a store with an order stay as they are**, in every run of requests, expiring
keys and uploads. -/
theorem frozen_of_reaches {config : AppConfig}
    {ok : Label Choice Request CatalogStep → OrderPool → Prop}
    {P₀ P : OrderPool} {menus : List MenuRow} (hfrozen : Frozen store menus P₀.world.db)
    (h : (catalogSystem config).Reaches ok P₀ P) : Frozen store menus P.world.db := by
  refine System.Reaches.world_invariant (I := fun w => Frozen store menus w.db) hfrozen ?_ ?_ h
  · intro P i c t o k _ _ _ _ hfrozen
    exact hfrozen.exec o c
  · intro P e w _ hstep hfrozen
    cases hstep
    cases e with
    | expire e =>
        show Frozen store menus (e.apply P.world).db
        rwa [Expiry.apply_db]
    | saveMenus upload fault =>
        refine Fault.apply_invariant (I := Frozen store menus) hfrozen ?_
        cases hsave : MenuAdminController.saveMenus upload P.world.db with
        | error e => exact hfrozen
        | ok db' => exact hfrozen.saveMenus hsave

end Referenced

end ChickenOrder
