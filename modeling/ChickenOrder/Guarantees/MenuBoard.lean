import ChickenOrder.Guarantees.PosSheets
import ChickenOrder.Guarantees.RepeatedUploads

/-!
# The board of menus

Each store has a sheet of menus.  An upload writes it anew, unless orders refer to it or another
store has one of the ids, and `GET /menus` reads from it.  `MenuBoard.step` says so without rows,
foreign keys or loops, and `menus_implement_board` shows that the endpoints cannot be told apart
from it.  `menus_of_upload` is what a store gets out of that.

The proof goes through the endpoints one by one: what an upload reads (`menuSheet_eq_some_iff`),
how it fails, what it writes, and what a query of the table lists.  `step_board` puts them
together, and the rest follows from the simulation alone.
-/

namespace ChickenOrder

open Interaction Relational MenuAdminController

/-! ## The board -/

/-- Each store's menus, and the menus that orders refer to.  The second is there for what it
forbids. -/
@[ext] structure MenuBoard where
  sheets : Uuid → List MenuRow
  ordered : List Uuid

/-- The sheet of an upload, if the columns take all of its items.  It does not depend on what is on
the board. -/
def menuSheet (upload : MenuUpload) : Option (Uuid × List MenuRow) :=
  readSheet (fun store n item => (menuRow store (upload.uuids n) item).map some) upload.storeId
    upload.body

namespace MenuBoard

/-- The sheet can be the store's: the store is known, every menu has an id of its own, and no order
refers to the menus that go. -/
structure Takes (stores : List Uuid) (board : MenuBoard) (store : Uuid) (rows : List MenuRow) :
    Prop where
  known : rows ≠ [] → store ∈ stores
  distinct : (rows.map MenuRow.id).Nodup
  unused : ∀ other ≠ store, ∀ menu ∈ board.sheets other, menu.id ∉ rows.map MenuRow.id
  free : ∀ menu ∈ board.sheets store, menu.id ∉ board.ordered

open Classical in
/-- The sheet that an upload is taken as: its own, if the board takes it.  There is nothing in
between, an upload is one transaction. -/
noncomputable def taken (stores : List Uuid) (board : MenuBoard) (upload : MenuUpload) :
    Option (Uuid × List MenuRow) :=
  (menuSheet upload).filter fun sheet => board.Takes stores sheet.1 sheet.2

open Classical in
/-- Orders can only refer to menus on the board; an order with any other item is not stored. -/
noncomputable def orderItems (menuIds : List Uuid) (board : MenuBoard) : MenuBoard :=
  if ∀ id ∈ menuIds, ∃ store, ∃ menu ∈ board.sheets store, menu.id = id then
    { board with ordered := board.ordered ++ menuIds }
  else board

/-- The menus of the store that can be ordered, in the order of the query.  Those that are sold out
are on the sheet and not in the list. -/
def Lists (collation : Collation) (board : MenuBoard) (store : Uuid) (reply : MenusReply) : Prop :=
  ∃ rows, reply = .menus (rows.map MenuRow.entry) ∧
    IsSelection (board.sheets store) MenuRow.isAvailable
      (.thenBy (.ofLinearOrder MenuRow.sortOrder) (.comap MenuRow.name collation)) rows

/-- What may be read of a store, or of the oldest that is active. -/
def Gets (collation : Collation) (stores : List AreaStoreRow) (board : MenuBoard)
    (storeId : Option String) (reply : MenusReply) : Prop :=
  match truthyText? storeId with
  | some storeId =>
      match uuidColumn storeId with
      | .error e => reply = .failed e
      | .ok store => board.Lists collation store reply
  | none => ∃ active,
      IsSelection stores AreaStoreRow.isActive (.ofLinearOrder AreaStoreRow.createdAt) active ∧
      match active.head? with
      | none => reply = .closed
      | some store => board.Lists collation store.id reply

open GlobalExceptionFilter in
/-- One request after the other, on the board: an upload writes its sheet or nothing, a read lists a
sheet, an order refers to menus. -/
noncomputable def step (collation : Collation) (stores : List AreaStoreRow) (call : MenuCall)
    (board : MenuBoard) : Set PosAnswer × MenuBoard :=
  match call.request with
  | .saveMenus upload =>
      if upload.storeId = "" then ({.failed (response storeIdRequired)}, board)
      else
        let (answer, sheets) :=
          publish call.fault (board.taken (stores.map AreaStoreRow.id) upload) board.sheets
        (answer, { board with sheets := sheets })
  | .getMenus storeId =>
      match call.fault with
      | .none => ({answer | ∃ reply, board.Gets collation stores storeId reply ∧
          answer = reply.answer}, board)
      | _ => ({.failed internalError}, board)
  | .orderItems menuIds => (∅, board.orderItems menuIds)

end MenuBoard

/-! ## Reading an upload -/

section Reading

variable {upload : MenuUpload} {store : Uuid} {rows : List MenuRow}

/-- Items are read one by one, and one that cannot be read fails them all. -/
theorem readItems_map_some_iff {α : Type} {f : ℕ → JsValue → Except OrderError α} {n : ℕ}
    {items : List JsValue} {rows : List α} :
    readItems (fun n item => (f n item).map some) n items = .ok rows ↔
      List.Forall₂ (fun item row => f item.2 item.1 = .ok row) (items.zipIdx n) rows := by
  induction items generalizing n rows with
  | nil =>
      rw [List.zipIdx_nil, List.forall₂_nil_left_iff, readItems, Except.ok.injEq]
      exact eq_comm
  | cons item rest ih =>
      rw [List.zipIdx_cons, readItems_cons_eq_ok_iff, List.forall₂_cons_left_iff]
      constructor
      · rintro ⟨row?, rows', hrow, hrest, rfl⟩
        cases hitem : f n item with
        | error e =>
            rw [hitem] at hrow
            cases hrow
        | ok row =>
            rw [hitem] at hrow
            cases hrow
            exact ⟨row, rows', rfl, ih.mp hrest, rfl⟩
      · rintro ⟨row, rows', hrow, hrest, rfl⟩
        exact ⟨some row, rows', congrArg (Except.map some) hrow, ih.mpr hrest, rfl⟩

/-- The sheet of an upload, in terms of its store and its items. -/
theorem menuSheet_eq_some_iff : menuSheet upload = some (store, rows) ↔
    uuidColumn upload.storeId = .ok store ∧
      ∃ items, iterate ((upload.body.get "items").coalesce (.array [])) = .ok items ∧
        MenuTables.Stores store upload.uuids items.zipIdx rows := by
  rw [menuSheet, readSheet_eq_some_iff]
  constructor
  · rintro ⟨items, hstore, hitems, hread⟩
    exact ⟨hstore, items, hitems, readItems_map_some_iff.mp hread⟩
  · rintro ⟨hstore, items, hitems, hstored⟩
    exact ⟨items, hstore, hitems, readItems_map_some_iff.mpr hstored⟩

theorem menuSheet_storeId (h : menuSheet upload = some (store, rows)) :
    ∀ row ∈ rows, row.storeId = store := by
  obtain ⟨-, items, -, hstored⟩ := menuSheet_eq_some_iff.mp h
  exact hstored.storeId

end Reading

/-! ## Failures -/

section Failures

variable {tables : MenuTables} {store fresh : Uuid} {item : JsValue}

/-- What a column refuses is no HTTP exception, and is answered as an internal error. -/
theorem failsInternally_varcharColumnOf (n : ℕ) (s : String) :
    FailsInternally (varcharColumnOf n s) := by
  unfold varcharColumnOf
  split_ifs
  · exact failsInternally_error rfl
  · exact failsInternally_ok _
  · exact failsInternally_ok _
  · exact failsInternally_error rfl

/-- The same holds of the column of the item itself, which is `JSONB`. -/
theorem failsInternally_metaColumn (item : JsValue) (id : String) :
    FailsInternally (metaColumn item id) := by
  unfold metaColumn
  split
  · exact failsInternally_error rfl
  · exact failsInternally_jsonbColumn _

theorem failsInternally_priceColumn (n : JsNumber) : FailsInternally (priceColumn n) := by
  have hamount : ∀ q, FailsInternally (amountColumn q) := by
    intro q
    unfold amountColumn
    split_ifs
    · exact failsInternally_error rfl
    · exact failsInternally_ok _
    · exact failsInternally_error rfl
  cases n with
  | finite q => exact (hamount q).bind fun a => failsInternally_ok (some a)
  | infinite neg => exact failsInternally_error rfl
  | nan => exact failsInternally_ok _

theorem failsInternally_menuRow : FailsInternally (menuRow store fresh item) := by
  unfold menuRow
  split
  · exact failsInternally_error rfl
  split
  · exact failsInternally_error rfl
  · exact (failsInternally_uuidColumn _).bind fun id =>
      (failsInternally_varcharColumnOf 255 _).bind fun name =>
        (failsInternally_varcharColumnOf 100 _).bind fun category =>
          (failsInternally_integerColumn _).bind fun sortOrder =>
            (failsInternally_metaColumn _ _).bind fun metadata =>
              (failsInternally_priceColumn _).bind fun unitPrice => failsInternally_ok _

theorem failsInternally_insertItems {uuids : ℕ → Uuid} {n : ℕ} {items : List JsValue} :
    FailsInternally (MenuTables.insertItems store uuids n items tables) := by
  induction items generalizing n tables with
  | nil => exact failsInternally_ok _
  | cons item rest ih =>
      refine failsInternally_menuRow.bind fun row => FailsInternally.bind ?_ fun tables' => ih
      unfold MenuTables.insertMenu
      split_ifs
      · exact failsInternally_error rfl
      · exact failsInternally_ok _
      · exact failsInternally_error rfl

theorem failsInternally_saveMenus {upload : MenuUpload} (h : upload.storeId ≠ "") :
    FailsInternally (tables.saveMenus upload) := by
  unfold MenuTables.saveMenus
  rw [if_neg h]
  refine (failsInternally_uuidColumn _).bind fun store => FailsInternally.bind ?_ fun tables' =>
    (failsInternally_iterate _).bind fun items => failsInternally_insertItems
  unfold MenuTables.deleteMenus
  split_ifs
  · exact failsInternally_ok _
  · exact failsInternally_error rfl

end Failures

/-! ## The table as a board -/

namespace MenuTables

variable {tables tables' : MenuTables} {upload : MenuUpload} {store : Uuid} {rows : List MenuRow}

/-- The board that the tables are. -/
def board (tables : MenuTables) : MenuBoard where
  sheets := part MenuRow.storeId tables.menus
  ordered := tables.orderedMenus

theorem taken_eq_some_iff {stores : List Uuid} {board : MenuBoard} :
    board.taken stores upload = some (store, rows) ↔
      menuSheet upload = some (store, rows) ∧ board.Takes stores store rows := by
  classical
  rw [MenuBoard.taken, Option.filter_eq_some_iff]
  exact and_congr_right fun _ => decide_eq_true_iff

/-- What the keys of the tables ask of new rows is what the board asks. -/
theorem takes_board_iff (hrows : ∀ row ∈ rows, row.storeId = store) :
    tables.board.Takes (tables.stores.map AreaStoreRow.id) store rows ↔
      (∀ menu ∈ tables.menus, menu.storeId = store → menu.id ∉ tables.orderedMenus) ∧
      (∀ row ∈ rows, row.storeId ∈ tables.stores.map AreaStoreRow.id) ∧
      ((replacePart MenuRow.storeId tables.menus store rows).map MenuRow.id).Nodup := by
  have hknown : (∀ row ∈ rows, row.storeId ∈ tables.stores.map AreaStoreRow.id) ↔
      (rows ≠ [] → store ∈ tables.stores.map AreaStoreRow.id) := by
    constructor
    · intro hall hne
      obtain ⟨row, hmem⟩ := List.exists_mem_of_ne_nil rows hne
      exact hrows row hmem ▸ hall row hmem
    · intro hstore row hmem
      exact hrows row hmem ▸ hstore (List.ne_nil_of_mem hmem)
  rw [hknown, nodup_replacePart_iff tables.menus_pkey]
  constructor
  · rintro ⟨hstore, hdistinct, hunused, hfree⟩
    refine ⟨fun menu hmem hown => hfree menu (mem_part_iff.mpr ⟨hmem, hown⟩), hstore, hdistinct,
      fun menu hmem hother => ?_⟩
    exact hunused menu.storeId hother menu (mem_part_iff.mpr ⟨hmem, rfl⟩)
  · rintro ⟨hfree, hstore, hdistinct, hunused⟩
    refine ⟨hstore, hdistinct, fun other hother menu hmem => ?_, fun menu hmem => ?_⟩
    · obtain ⟨hmenu, rfl⟩ := mem_part_iff.mp hmem
      exact hunused menu hmenu hother
    · obtain ⟨hmenu, hown⟩ := mem_part_iff.mp hmem
      exact hfree menu hmenu hown

/-- **An upload writes the sheet that it is taken as**, or fails.  All keys and foreign keys of the
table come into the board's condition here. -/
theorem saveMenus_eq_ok_iff_taken : tables.saveMenus upload = .ok tables' ↔
    ∃ store rows,
      tables.board.taken (tables.stores.map AreaStoreRow.id) upload = some (store, rows) ∧
      tables'.stores = tables.stores ∧
      tables'.board = ⟨Function.update tables.board.sheets store rows, tables.board.ordered⟩ ∧
      tables'.menus = replacePart MenuRow.storeId tables.menus store rows := by
  rw [saveMenus_eq_ok_iff]
  constructor
  · rintro ⟨store, items, rows, h⟩
    have hsheet := menuSheet_eq_some_iff.mpr ⟨h.storeId, items, h.listed, h.stored⟩
    have hrows := menuSheet_storeId hsheet
    refine ⟨store, rows, taken_eq_some_iff.mpr ⟨hsheet, (takes_board_iff hrows).mpr
      ⟨h.free, h.known, h.nodup⟩⟩, h.stores, MenuBoard.ext ?_ h.orderedMenus, h.menus⟩
    show part MenuRow.storeId tables'.menus = _
    rw [h.menus]
    exact part_replacePart hrows
  · rintro ⟨store, rows, htaken, hstores, hboard, hmenus⟩
    obtain ⟨hsheet, htakes⟩ := taken_eq_some_iff.mp htaken
    obtain ⟨hstore, items, hitems, hstored⟩ := menuSheet_eq_some_iff.mp hsheet
    obtain ⟨hfree, hknown, hnodup⟩ := (takes_board_iff (menuSheet_storeId hsheet)).mp htakes
    exact ⟨store, items, rows, hstore, hitems, hfree, hstored, hknown, hnodup, hstores,
      congrArg MenuBoard.ordered hboard, hmenus⟩

/-- Tables can have the board that an upload leaves. -/
theorem exists_saveMenus (h : tables.board.taken (tables.stores.map AreaStoreRow.id) upload =
    some (store, rows)) : ∃ tables', tables.saveMenus upload = .ok tables' := by
  obtain ⟨hsheet, htakes⟩ := taken_eq_some_iff.mp h
  obtain ⟨hstore, items, hitems, hstored⟩ := menuSheet_eq_some_iff.mp hsheet
  obtain ⟨hfree, hknown, hnodup⟩ := (takes_board_iff (menuSheet_storeId hsheet)).mp htakes
  obtain ⟨tables', hsaves⟩ := exists_saves hstore hitems hfree hstored hknown hnodup
  exact ⟨tables', saveMenus_eq_ok_iff.mpr ⟨store, items, rows, hsaves⟩⟩

/-- The transaction of an upload writes the sheet that it is taken as. -/
theorem sendUpload_saveMenus (fault : Fault String) (hne : upload.storeId ≠ "") :
    (sendUpload fault tables (tables.saveMenus upload)).1 = (publish fault
        (tables.board.taken (tables.stores.map AreaStoreRow.id) upload) tables.board.sheets).1 ∧
      (sendUpload fault tables (tables.saveMenus upload)).2.board.sheets = (publish fault
        (tables.board.taken (tables.stores.map AreaStoreRow.id) upload) tables.board.sheets).2 := by
  let sheets (tables : MenuTables) := tables.board.sheets
  refine @sendUpload_eq_publish _ _ fault tables _ _ sheets (fun tables' hsave => ?_)
    (fun e hsave => ?_) (failsInternally_saveMenus hne)
  · obtain ⟨store, rows, htaken, -, hboard, -⟩ := saveMenus_eq_ok_iff_taken.mp hsave
    exact ⟨(store, rows), htaken, congrArg MenuBoard.sheets hboard⟩
  · rw [Option.eq_none_iff_forall_ne_some]
    rintro ⟨store, rows⟩ htaken
    obtain ⟨tables', hsaved⟩ := exists_saveMenus htaken
    rw [hsaved] at hsave
    cases hsave

/-- An upload leaves the stores and the orders. -/
theorem sendUpload_saveMenus_kept (fault : Fault String) :
    (sendUpload fault tables (tables.saveMenus upload)).2.stores = tables.stores ∧
      (sendUpload fault tables (tables.saveMenus upload)).2.orderedMenus = tables.orderedMenus := by
  have hsaved : ∀ tables', tables.saveMenus upload = .ok tables' →
      tables'.stores = tables.stores ∧ tables'.orderedMenus = tables.orderedMenus := by
    intro tables' hsave
    obtain ⟨store, rows, -, hstores, hboard, -⟩ := saveMenus_eq_ok_iff_taken.mp hsave
    exact ⟨hstores, congrArg MenuBoard.ordered hboard⟩
  cases hsave : tables.saveMenus upload with
  | error e => cases fault <;> exact ⟨rfl, rfl⟩
  | ok tables' =>
      cases fault with
      | none => exact hsaved tables' hsave
      | rejected m => exact ⟨rfl, rfl⟩
      | unacknowledged m => exact hsaved tables' hsave

/-- A query of the store's menus is one of its sheet. -/
theorem listsMenus_iff {collation : Collation} {reply : MenusReply} :
    PublicController.ListsMenus collation tables store reply ↔
      tables.board.Lists collation store reply := by
  unfold PublicController.ListsMenus MenuBoard.Lists
  exact exists_congr fun rows => and_congr_right fun _ => isSelection_part

theorem getsMenus_iff {collation : Collation} {storeId : Option String} {reply : MenusReply} :
    PublicController.GetsMenus collation tables storeId reply ↔
      tables.board.Gets collation tables.stores storeId reply := by
  unfold PublicController.GetsMenus MenuBoard.Gets
  cases truthyText? storeId with
  | some storeId =>
      dsimp only
      cases uuidColumn storeId with
      | error e => exact Iff.rfl
      | ok store => exact listsMenus_iff
  | none =>
      refine exists_congr fun active => and_congr_right fun _ => ?_
      cases active.head? with
      | none => exact Iff.rfl
      | some store => exact listsMenus_iff

/-- An order refers to the same menus on both sides, and from then on keeps them from being
replaced. -/
theorem orderItems_board (menuIds : List Uuid) :
    (tables.orderItems menuIds).board = tables.board.orderItems menuIds := by
  have hknown : (∀ id ∈ menuIds, id ∈ tables.menus.map MenuRow.id) ↔
      ∀ id ∈ menuIds, ∃ store, ∃ menu ∈ tables.board.sheets store, menu.id = id := by
    refine forall₂_congr fun id _ => ?_
    rw [List.mem_map]
    constructor
    · rintro ⟨menu, hmem, hid⟩
      exact ⟨menu.storeId, menu, mem_part_iff.mpr ⟨hmem, rfl⟩, hid⟩
    · rintro ⟨store, menu, hmem, hid⟩
      exact ⟨menu, (mem_part_iff.mp hmem).1, hid⟩
  unfold orderItems MenuBoard.orderItems
  by_cases hall : ∀ id ∈ menuIds, id ∈ tables.menus.map MenuRow.id
  · rw [dif_pos hall, if_pos (hknown.mp hall)]
    rfl
  · rw [dif_neg hall, if_neg fun hboard => hall (hknown.mpr hboard)]

theorem orderItems_stores (menuIds : List Uuid) : (tables.orderItems menuIds).stores = tables.stores := by
  unfold orderItems
  split
  · rfl
  · rfl

/-- The tables are those stores and that board.  This is the relation between the two sides that
every request keeps. -/
def Keeps (stores : List AreaStoreRow) (tables : MenuTables) (board : MenuBoard) : Prop :=
  tables.stores = stores ∧ tables.board = board

/-- **One request does to the tables what it does to the board**, and gives the same set of answers.
-/
theorem step_board {collation : Collation} (call : MenuCall) (tables : MenuTables) :
    (tables.step collation call).1 =
        (MenuBoard.step collation tables.stores call tables.board).1 ∧
      Keeps tables.stores (tables.step collation call).2
        (MenuBoard.step collation tables.stores call tables.board).2 := by
  obtain ⟨request, fault⟩ := call
  cases request with
  | saveMenus upload =>
      unfold step MenuBoard.step
      dsimp only
      split_ifs with hempty
      · exact ⟨rfl, rfl, rfl⟩
      · obtain ⟨hanswer, hsheets⟩ := @sendUpload_saveMenus tables upload fault hempty
        obtain ⟨hstores, hordered⟩ := @sendUpload_saveMenus_kept tables upload fault
        exact ⟨hanswer, hstores, MenuBoard.ext hsheets hordered⟩
  | getMenus storeId =>
      cases fault with
      | none =>
          refine ⟨?_, rfl, rfl⟩
          ext answer
          exact exists_congr fun reply => and_congr_left fun _ => getsMenus_iff
      | rejected m => exact ⟨rfl, rfl, rfl⟩
      | unacknowledged m => exact ⟨rfl, rfl, rfl⟩
  | orderItems menuIds => exact ⟨rfl, orderItems_stores menuIds, orderItems_board menuIds⟩

end MenuTables

/-! ## The endpoints and the board -/

section Service

variable {collation : Collation}

theorem simulation_menuBoard (collation : Collation) (stores : List AreaStoreRow) :
    Simulation (MenuTables.step collation) (MenuBoard.step collation stores)
      (MenuTables.Keeps stores) where
  output := by
    rintro tables _ ⟨rfl, rfl⟩ call
    exact (tables.step_board call).1
  kept := by
    rintro tables _ ⟨rfl, rfl⟩ call
    exact (tables.step_board call).2

/-- **The endpoints implement the board.**  In every history of uploads, reads and orders, with any
transaction lost on its way or on its way back, the answers are the board's, and the table ends up
as the board does. -/
theorem menus_implement_board (collation : Collation) (calls : List MenuCall) (tables : MenuTables) :
    transcript (MenuTables.step collation) calls tables =
        transcript (MenuBoard.step collation tables.stores) calls tables.board ∧
      (final (MenuTables.step collation) calls tables).board =
        final (MenuBoard.step collation tables.stores) calls tables.board := by
  have hsimulation := simulation_menuBoard collation tables.stores
  exact ⟨hsimulation.transcript_eq ⟨rfl, rfl⟩ calls, (hsimulation.final ⟨rfl, rfl⟩ calls).2⟩

/-! ## What a store has uploaded -/

/-- The request is an upload for the store. -/
def MenuRequest.IsFor (store : Uuid) : MenuRequest → Prop
  | .saveMenus upload => uuidColumn upload.storeId = .ok store
  | _ => False

variable {stores : List AreaStoreRow} {board : MenuBoard} {store : Uuid}

/-- A request that names its store reads the sheet of that store. -/
theorem MenuBoard.gets_iff {storeId : String} {reply : MenusReply}
    (h : uuidColumn storeId = .ok store) :
    board.Gets collation stores (some storeId) reply ↔ board.Lists collation store reply := by
  have hne : storeId ≠ "" := by
    rintro rfl
    cases h
  have htruthy : truthyText? (some storeId) = some storeId := if_neg hne
  unfold MenuBoard.Gets
  rw [htruthy]
  dsimp only
  rw [h]

/-- The items have one sheet. -/
theorem MenuTables.Stores.unique {uuids : ℕ → Uuid} {items : List (JsValue × ℕ)}
    {rows rows' : List MenuRow} (h : MenuTables.Stores store uuids items rows)
    (h' : MenuTables.Stores store uuids items rows') : rows = rows' := by
  refine List.right_unique_forall₂' ?_ h h'
  intro item row row' hrow hrow'
  exact Except.ok.inj (hrow.symm.trans hrow')

/-- Requests that are no uploads for the store leave its sheet. -/
theorem menuStep_other {call : MenuCall} (h : ¬ call.request.IsFor store) :
    (MenuBoard.step collation stores call board).2.sheets store = board.sheets store := by
  obtain ⟨request, fault⟩ := call
  cases request with
  | saveMenus upload =>
      unfold MenuBoard.step
      dsimp only
      split_ifs with hempty
      · rfl
      · dsimp only
        rw [publish_sheets]
        cases htaken : board.taken (stores.map AreaStoreRow.id) upload with
        | none => cases fault <;> rfl
        | some sheet =>
            obtain ⟨hsheet, -⟩ := MenuTables.taken_eq_some_iff.mp htaken
            have hother : sheet.1 ≠ store := by
              rintro rfl
              exact h (menuSheet_eq_some_iff.mp hsheet).1
            cases fault with
            | none => exact congrArg (Option.getD · _) (if_neg hother)
            | rejected m => rfl
            | unacknowledged m => exact congrArg (Option.getD · _) (if_neg hother)
  | getMenus storeId => cases fault <;> rfl
  | orderItems menuIds =>
      show (board.orderItems menuIds).sheets store = _
      unfold MenuBoard.orderItems
      split_ifs
      · rfl
      · rfl

/-- An upload that is answered with success has written its sheet. -/
theorem menuStep_saved {upload : MenuUpload} {fault : Fault String}
    (hstore : uuidColumn upload.storeId = .ok store)
    (hsaved : (MenuBoard.step collation stores ⟨.saveMenus upload, fault⟩ board).1 = {.saved}) :
    MenuTables.Stores store upload.uuids upload.items.zipIdx
      ((MenuBoard.step collation stores ⟨.saveMenus upload, fault⟩ board).2.sheets store) := by
  have hfailed : ∀ response, ({PosAnswer.failed response} : Set PosAnswer) ≠ {.saved} := by
    intro response h
    cases Set.singleton_injective h
  unfold MenuBoard.step at hsaved ⊢
  dsimp only at hsaved ⊢
  split_ifs at hsaved ⊢ with hempty
  · exact absurd hsaved (hfailed _)
  · dsimp only at hsaved ⊢
    cases htaken : board.taken (stores.map AreaStoreRow.id) upload with
    | none =>
        rw [htaken] at hsaved
        exact absurd hsaved (hfailed _)
    | some sheet =>
        rw [htaken] at hsaved
        obtain ⟨hsheet, -⟩ := MenuTables.taken_eq_some_iff.mp htaken
        obtain ⟨hown, items, hitems, hstored⟩ := menuSheet_eq_some_iff.mp hsheet
        obtain rfl : store = sheet.1 := Except.ok.inj (hstore.symm.trans hown)
        have hlisted : upload.items = items := by
          unfold MenuUpload.items
          rw [hitems]
          rfl
        rw [hlisted]
        cases fault with
        | none =>
            show MenuTables.Stores _ _ _ (Function.update board.sheets sheet.1 sheet.2 sheet.1)
            rw [Function.update_self]
            exact hstored
        | rejected m => exact absurd hsaved (hfailed _)
        | unacknowledged m => exact absurd hsaved (hfailed _)

/-- **What is uploaded is what is read.**  After an upload that was answered with success, and until
the next one for the same store, `GET /menus` shows the items that can be ordered, by `sort` and
name, whatever else is uploaded, ordered, read or lost. -/
theorem menus_of_upload {upload : MenuUpload} {fault : Fault String} {earlier later : List MenuCall}
    {tables : MenuTables} {storeId : String} (hstore : uuidColumn upload.storeId = .ok store)
    (hsaved : ((final (MenuTables.step collation) earlier tables).step collation
      ⟨.saveMenus upload, fault⟩).1 = {.saved})
    (hlater : ∀ call ∈ later, ¬ call.request.IsFor store)
    (hread : uuidColumn storeId = .ok store) :
    ((final (MenuTables.step collation) (earlier ++ ⟨.saveMenus upload, fault⟩ :: later) tables).step
        collation ⟨.getMenus (some storeId), .none⟩).1 =
      {answer | ∃ rows shown, MenuTables.Stores store upload.uuids upload.items.zipIdx rows ∧
        IsSelection rows MenuRow.isAvailable
          (.thenBy (.ofLinearOrder MenuRow.sortOrder) (.comap MenuRow.name collation)) shown ∧
        answer = .menus (shown.map MenuRow.entry)} := by
  -- on the board, a sheet is only changed by an upload for its store
  have hkept : ∀ (calls : List MenuCall) (board : MenuBoard),
      (∀ call ∈ calls, ¬ call.request.IsFor store) →
      (final (MenuBoard.step collation tables.stores) calls board).sheets store =
        board.sheets store := by
    intro calls
    induction calls with
    | nil => exact fun _ _ => rfl
    | cons call calls ih =>
        intro board hothers
        rw [final_cons, ih _ fun other hmem => hothers other (List.mem_cons_of_mem _ hmem)]
        exact menuStep_other (hothers call List.mem_cons_self)
  -- the tables answer as the board does, before the upload and after everything
  have hsimulation := simulation_menuBoard collation tables.stores
  have hearlier := hsimulation.final ⟨rfl, rfl⟩ earlier
  have hnow := hsimulation.final ⟨rfl, rfl⟩ (earlier ++ ⟨.saveMenus upload, fault⟩ :: later)
  rw [hsimulation.output hearlier] at hsaved
  rw [hsimulation.output hnow, final_append, final_cons]
  have hstored := menuStep_saved hstore hsaved
  rw [← hkept later _ hlater] at hstored
  ext answer
  constructor
  · rintro ⟨reply, hgets, rfl⟩
    obtain ⟨shown, rfl, hshown⟩ := (MenuBoard.gets_iff hread).mp hgets
    exact ⟨_, shown, hstored, hshown, rfl⟩
  · rintro ⟨rows, shown, hrows, hshown, rfl⟩
    rw [hrows.unique hstored] at hshown
    exact ⟨_, (MenuBoard.gets_iff hread).mpr ⟨shown, rfl, hshown⟩, rfl⟩

end Service

/-! ### A menu that is read after an order -/

/-- Another store's upload and an order for the menu. -/
def laterMenuCalls : List MenuCall :=
  [⟨.saveMenus ⟨"22222222-2222-2222-2222-222222222222", .object [], newUuids⟩, .none⟩,
    ⟨.orderItems [⟨100⟩], .none⟩]

theorem menus_of_upload_numbered :
    ((final (MenuTables.step .codePoints)
        ([] ++ ⟨.saveMenus numberedUpload, .none⟩ :: laterMenuCalls) bareTables).step .codePoints
        ⟨.getMenus (some "11111111-1111-1111-1111-111111111111"), .none⟩).1 =
      {answer | ∃ rows shown,
        MenuTables.Stores seedStore numberedUpload.uuids numberedUpload.items.zipIdx rows ∧
        IsSelection rows MenuRow.isAvailable
          (.thenBy (.ofLinearOrder MenuRow.sortOrder)
            (.comap MenuRow.name Collation.codePoints)) shown ∧
        answer = .menus (shown.map MenuRow.entry)} := by
  have hsave : (bareTables.saveMenus numberedUpload).isOk = true := by decide +kernel
  have hsaved : (bareTables.step .codePoints ⟨.saveMenus numberedUpload, .none⟩).1 = {.saved} := by
    have hne : numberedUpload.storeId ≠ "" := by decide
    unfold MenuTables.step
    dsimp only
    rw [if_neg hne]
    cases hsaves : bareTables.saveMenus numberedUpload with
    | ok tables => rfl
    | error e =>
        rw [hsaves] at hsave
        cases hsave
  have hstore : uuidColumn numberedUpload.storeId = .ok seedStore := by decide +kernel
  have hother : uuidColumn "22222222-2222-2222-2222-222222222222" ≠ .ok seedStore := by
    decide +kernel
  refine @menus_of_upload _ _ _ _ [] laterMenuCalls _ _ hstore hsaved ?_ hstore
  intro call hmem
  rcases List.mem_cons.mp hmem with rfl | hmem
  · exact hother
  · rw [List.mem_singleton.mp hmem]
    exact not_false

end ChickenOrder
