import ChickenOrder.Interaction.Simulation
import ChickenOrder.Services.PosUploads

/-!
# The sheets of the stores

What uploads are for: every store has a sheet of categories and a sheet of options, and an upload
writes one of them anew.  `SheetBoard.step` says so, with no rows, keys or loops, and
`posUploads_implement_sheets` shows that the endpoints cannot be told apart from it.
`sheet_eq_last` reads a sheet off the history alone.

The first half is not about categories or options: how a transaction fails, how a body is read,
and what it means to write a sheet.  The menus use it as well
(`ChickenOrder.Guarantees.MenuBoard`).
-/

namespace ChickenOrder

open Interaction Relational

/-! ## Failures of a transaction -/

section Failures

open GlobalExceptionFilter

variable {α β : Type}

/-- Whatever it fails with is answered in the same way.  The filter says no more of a database error
than that there was one. -/
def FailsInternally (x : Except OrderError α) : Prop := ∀ e, x = .error e → response e = internalError

theorem failsInternally_ok (a : α) : FailsInternally (.ok a) := by
  intro e h
  cases h

theorem failsInternally_error {e : OrderError} (h : response e = internalError) :
    FailsInternally (.error e : Except OrderError α) := by
  rintro _ ⟨⟩
  exact h

theorem FailsInternally.bind {x : Except OrderError α} {f : α → Except OrderError β}
    (hx : FailsInternally x) (hf : ∀ a, FailsInternally (f a)) : FailsInternally (x >>= f) := by
  cases x with
  | error e => exact failsInternally_error (hx e rfl)
  | ok a => exact hf a

/-- A text that is no UUID is a database error, which the filter answers with 500. -/
theorem failsInternally_uuidColumn (s : String) : FailsInternally (uuidColumn s) := by
  unfold uuidColumn
  split
  · exact failsInternally_ok _
  · exact failsInternally_error rfl

theorem failsInternally_textColumn (s : String) : FailsInternally (textColumn s) := by
  unfold textColumn
  split
  · exact failsInternally_error rfl
  · exact failsInternally_ok _

theorem failsInternally_integerColumn (n : JsNumber) : FailsInternally (integerColumn n) := by
  unfold integerColumn
  split
  · split_ifs
    · exact failsInternally_error rfl
    · exact failsInternally_error rfl
    · exact failsInternally_ok _
  · exact failsInternally_error rfl

theorem failsInternally_jsonbColumn (v : JsValue) : FailsInternally (jsonbColumn v) := by
  unfold jsonbColumn
  split
  · exact failsInternally_ok _
  · exact failsInternally_error rfl

/-- A value that cannot be iterated is a `TypeError`, answered in the same way. -/
theorem failsInternally_iterate (v : JsValue) :
    FailsInternally (MenuAdminController.iterate v) := by
  unfold MenuAdminController.iterate
  split
  · exact failsInternally_ok _
  · exact failsInternally_ok _
  · exact failsInternally_error rfl

end Failures

/-! ## Reading an upload -/

section Reading

open MenuAdminController

variable {α : Type}

/-- The rows of the items, counting from `n`; some items have none. -/
def readItems (rowOf : ℕ → JsValue → Except OrderError (Option α)) :
    ℕ → List JsValue → Except OrderError (List α)
  | _, [] => .ok []
  | n, item :: rest => do
      let row ← rowOf n item
      let rows ← readItems rowOf (n + 1) rest
      return row.toList ++ rows

/-- The sheet of an upload, if all of its items can be read. -/
def readSheet (rowOf : Uuid → ℕ → JsValue → Except OrderError (Option α)) (storeId : String)
    (body : JsValue) : Option (Uuid × List α) := do
  let store ← (uuidColumn storeId).toOption
  let items ← (iterate ((body.get "items").coalesce (.array []))).toOption
  let rows ← (readItems (rowOf store) 0 items).toOption
  return (store, rows)

variable {rowOf : ℕ → JsValue → Except OrderError (Option α)} {n : ℕ} {items rest : List JsValue}
variable {item : JsValue} {rows : List α}

theorem readItems_cons_eq_ok_iff :
    readItems rowOf n (item :: rest) = .ok rows ↔
      ∃ row rows', rowOf n item = .ok row ∧ readItems rowOf (n + 1) rest = .ok rows' ∧
        rows = row.toList ++ rows' := by
  rw [readItems]
  constructor
  · intro h
    cases hrow : rowOf n item with
    | error e =>
        rw [hrow] at h
        cases h
    | ok row =>
        cases hrest : readItems rowOf (n + 1) rest with
        | error e =>
            rw [hrow, hrest] at h
            cases h
        | ok rows' =>
            rw [hrow, hrest] at h
            cases h
            exact ⟨row, rows', rfl, rfl, rfl⟩
  · rintro ⟨row, rows', hrow, hrest, rfl⟩
    rw [hrow, hrest]
    rfl

theorem forall_of_readItems {P : α → Prop} (hrow : ∀ n item row, rowOf n item = .ok (some row) → P row)
    (h : readItems rowOf n items = .ok rows) : ∀ row ∈ rows, P row := by
  induction items generalizing n rows with
  | nil =>
      cases h
      simp
  | cons item rest ih =>
      obtain ⟨row, rows', hitem, hrest, rfl⟩ := readItems_cons_eq_ok_iff.mp h
      intro a ha
      obtain hown | hlater := List.mem_append.mp ha
      · obtain rfl := Option.mem_toList.mp hown
        exact hrow n item a hitem
      · exact ih hrest a hlater

theorem readSheet_eq_some_iff {rowOf : Uuid → ℕ → JsValue → Except OrderError (Option α)}
    {storeId : String} {body : JsValue} {store : Uuid} :
    readSheet rowOf storeId body = some (store, rows) ↔
      ∃ items, uuidColumn storeId = .ok store ∧
        iterate ((body.get "items").coalesce (.array [])) = .ok items ∧
        readItems (rowOf store) 0 items = .ok rows := by
  unfold readSheet
  constructor
  · intro h
    cases hstore : uuidColumn storeId with
    | error e =>
        rw [hstore] at h
        cases h
    | ok store' =>
        cases hitems : iterate ((body.get "items").coalesce (.array [])) with
        | error e =>
            rw [hstore, hitems] at h
            cases h
        | ok items =>
            cases hrows : readItems (rowOf store') 0 items with
            | error e =>
                simp only [hstore, hitems, Except.toOption, Option.bind_eq_bind, Option.bind_some,
                  hrows] at h
                cases h
            | ok rows' =>
                simp only [hstore, hitems, Except.toOption, Option.bind_eq_bind, Option.bind_some,
                  hrows] at h
                cases h
                exact ⟨items, rfl, rfl, hrows⟩
  · rintro ⟨items, hstore, hitems, hrows⟩
    rw [hstore, hitems]
    simp only [Except.toOption, Option.bind_eq_bind, Option.bind_some, hrows]
    rfl

end Reading

/-! ## Writing a sheet -/

section Publishing

variable {α σ : Type}

/-- The sheets after an upload that is taken as `sheet?`, if at all; lost or not.  A transaction
whose answer is lost is answered like one that failed. -/
def publish (fault : Fault String) (sheet? : Option (Uuid × List α)) (sheets : Uuid → List α) :
    Set PosAnswer × (Uuid → List α) :=
  match sheet? with
  | none => ({.failed GlobalExceptionFilter.internalError}, sheets)
  | some sheet =>
      match fault with
      | .none => ({.saved}, Function.update sheets sheet.1 sheet.2)
      | .rejected _ => ({.failed GlobalExceptionFilter.internalError}, sheets)
      | .unacknowledged _ =>
          ({.failed GlobalExceptionFilter.internalError}, Function.update sheets sheet.1 sheet.2)

/-- The sheet that an upload leaves, if its transaction is not lost on its way. -/
def committed? (fault : Fault String) (sheet? : Option (Uuid × List α)) : Option (Uuid × List α) :=
  match fault with
  | .rejected _ => none
  | _ => sheet?

theorem publish_sheets (fault : Fault String) (sheet? : Option (Uuid × List α))
    (sheets : Uuid → List α) (store : Uuid) :
    (publish fault sheet? sheets).2 store =
      ((committed? fault sheet?).bind fun sheet =>
        if sheet.1 = store then some sheet.2 else none).getD (sheets store) := by
  have hupdate : ∀ sheet : Uuid × List α, Function.update sheets sheet.1 sheet.2 store =
      (if sheet.1 = store then some sheet.2 else none).getD (sheets store) := by
    intro sheet
    by_cases hstore : sheet.1 = store
    · subst hstore
      simp
    · rw [Function.update_of_ne (Ne.symm hstore), if_neg hstore]
      rfl
  cases sheet? with
  | none => cases fault <;> rfl
  | some sheet =>
      cases fault with
      | none => exact hupdate sheet
      | rejected m => rfl
      | unacknowledged m => exact hupdate sheet

/-- **A transaction that replaces a part writes a sheet.** This is the general step from tables to
sheets; each endpoint only says which sheet it is taken as. -/
theorem sendUpload_eq_publish {fault : Fault String} {s : σ} {transaction : Except OrderError σ}
    {sheet? : Option (Uuid × List α)} {sheets : σ → Uuid → List α}
    (hok : ∀ s', transaction = .ok s' → ∃ sheet, sheet? = some sheet ∧
      sheets s' = Function.update (sheets s) sheet.1 sheet.2)
    (herror : ∀ e, transaction = .error e → sheet? = none)
    (hinternal : FailsInternally transaction) :
    (sendUpload fault s transaction).1 = (publish fault sheet? (sheets s)).1 ∧
      sheets (sendUpload fault s transaction).2 = (publish fault sheet? (sheets s)).2 := by
  cases transaction with
  | ok s' =>
      obtain ⟨sheet, rfl, hsheets⟩ := hok s' rfl
      cases fault with
      | none => exact ⟨rfl, hsheets⟩
      | rejected m => exact ⟨rfl, rfl⟩
      | unacknowledged m => exact ⟨rfl, hsheets⟩
  | error e =>
      obtain rfl := herror e rfl
      have hanswer := congrArg (fun response => ({PosAnswer.failed response} : Set PosAnswer))
        (hinternal e rfl)
      cases fault with
      | none => exact ⟨hanswer, rfl⟩
      | rejected m => exact ⟨rfl, rfl⟩
      | unacknowledged m => exact ⟨rfl, rfl⟩

end Publishing

/-! ## Categories and options -/

namespace MenuAdminController

variable {stores : List Uuid} {table table' : PosRows stores} {content : JsValue → JsValue}
variable {store : Uuid} {items : List JsValue} {item : JsValue} {n : ℕ}

theorem failsInternally_posRow : FailsInternally (posRow content store item) := by
  unfold posRow
  split
  · exact failsInternally_error rfl
  split
  · exact failsInternally_error rfl
  split
  · exact failsInternally_ok _
  split
  · exact failsInternally_error rfl
  · exact (failsInternally_textColumn _).bind fun id => (failsInternally_textColumn _).bind fun name =>
      (failsInternally_integerColumn _).bind fun sortOrder =>
        (failsInternally_jsonbColumn _).bind fun content => failsInternally_ok _

theorem failsInternally_insertPosItems :
    FailsInternally (insertPosItems content store items table) := by
  induction items generalizing table with
  | nil => exact failsInternally_ok _
  | cons item rest ih =>
      rw [insertPosItems]
      refine failsInternally_posRow.bind fun row => ?_
      cases row with
      | none => exact ih
      | some row =>
          refine FailsInternally.bind ?_ fun table' => ih
          unfold PosRows.insertRow
          split_ifs
          · exact failsInternally_error rfl
          · exact failsInternally_ok _
          · exact failsInternally_error rfl

theorem posRow_storeId {row : PosRow} (h : posRow content store item = .ok (some row)) :
    row.storeId = store := by
  unfold posRow at h
  split_ifs at h
  · cases h
  · simp only [bind, Except.bind, pure, Except.pure] at h
    repeat' split at h
    all_goals simp only [reduceCtorEq, Except.ok.injEq, Option.some.injEq] at h
    subst h
    rfl

/-- An `INSERT` asks for a new key and a known store. -/
theorem insertRow_eq_ok_iff {row : PosRow} :
    table.insertRow row = .ok table' ↔ row.key ∉ table.rows.map PosRow.key ∧ row.storeId ∈ stores ∧
      table'.rows = table.rows ++ [row] := by
  unfold PosRows.insertRow
  split_ifs with hpk hstore
  · exact iff_of_false (by simp) fun h => h.1 hpk
  · rw [Except.ok.injEq, eq_comm, PosRows.ext_iff]
    exact (and_iff_right_of_imp fun _ => hpk).symm.trans
      (and_congr_right fun _ => (and_iff_right hstore).symm)
  · exact iff_of_false (by simp) fun h => hstore h.2.1

/-- The loop appends a row for every item with an id, where the keys allow it. -/
theorem insertPosItems_eq_ok_iff :
    insertPosItems content store items table = .ok table' ↔
      ∃ rows, readItems (fun _ => posRow content store) n items = .ok rows ∧
        (∀ row ∈ rows, row.storeId ∈ stores) ∧ ((table.rows ++ rows).map PosRow.key).Nodup ∧
        table'.rows = table.rows ++ rows := by
  -- on the items: each writes its row, or is passed over, or fails the statement
  induction items generalizing n table with
  | nil =>
      constructor
      · intro h
        cases h
        exact ⟨[], rfl, by simp, by simpa using table'.pkey, by simp⟩
      · rintro ⟨rows, hrows, -, -, htable⟩
        cases hrows
        rw [List.append_nil] at htable
        exact congrArg Except.ok (PosRows.ext htable.symm)
  | cons item rest ih =>
      rw [insertPosItems]
      constructor
      · intro h
        cases hrow : posRow content store item with
        | error e =>
            rw [hrow] at h
            cases h
        | ok row? =>
            rw [hrow] at h
            cases row? with
            | none =>
                obtain ⟨rows, hrows, hknown, hnodup, htable⟩ := ih.mp h
                exact ⟨rows, readItems_cons_eq_ok_iff.mpr ⟨none, rows, hrow, hrows, rfl⟩, hknown,
                  hnodup, htable⟩
            | some row =>
                cases hinsert : table.insertRow row with
                | error e =>
                    simp only [bind, Except.bind, hinsert] at h
                    cases h
                | ok table₁ =>
                    simp only [bind, Except.bind, hinsert] at h
                    obtain ⟨hpk, hstore, hrows₁⟩ := insertRow_eq_ok_iff.mp hinsert
                    obtain ⟨rows, hrows, hknown, hnodup, htable⟩ := ih.mp h
                    rw [hrows₁, List.append_assoc, List.singleton_append] at hnodup htable
                    exact ⟨row :: rows,
                      readItems_cons_eq_ok_iff.mpr ⟨some row, rows, hrow, hrows, rfl⟩,
                      List.forall_mem_cons.mpr ⟨hstore, hknown⟩, hnodup, htable⟩
      · rintro ⟨rows, hread, hknown, hnodup, htable⟩
        obtain ⟨row?, rows, hrow, hrest, rfl⟩ := readItems_cons_eq_ok_iff.mp hread
        rw [hrow]
        cases row? with
        | none => exact ih.mpr ⟨rows, hrest, hknown, hnodup, htable⟩
        | some row =>
            obtain ⟨hstore, hknown⟩ := List.forall_mem_cons.mp hknown
            -- all keys are different at the end, so this one is new
            have hpk : row.key ∉ table.rows.map PosRow.key := by
              intro hold
              rw [List.map_append, List.nodup_append] at hnodup
              exact hnodup.2.2 _ hold _ (List.mem_map_of_mem List.mem_cons_self) rfl
            obtain ⟨table₁, hinsert⟩ : ∃ table₁, table.insertRow row = .ok table₁ := by
              unfold PosRows.insertRow
              rw [dif_neg hpk, dif_pos hstore]
              exact ⟨_, rfl⟩
            obtain ⟨-, -, hrows₁⟩ := insertRow_eq_ok_iff.mp hinsert
            have happend : table₁.rows ++ rows = table.rows ++ row :: rows := by
              rw [hrows₁, List.append_assoc, List.singleton_append]
            simp only [bind, Except.bind, hinsert]
            exact ih.mpr ⟨rows, hrest, hknown, happend ▸ hnodup, happend ▸ htable⟩

/-- The sheet that an upload is taken as: its ids are distinct, and its store is known.  This does
not depend on what the table has. -/
def posSheet (stores : List Uuid) (content : JsValue → JsValue) (upload : PosUpload) :
    Option (Uuid × List PosRow) :=
  (readSheet (fun store _ => posRow content store) upload.storeId upload.body).filter fun sheet =>
    (sheet.2.map PosRow.id).Nodup ∧ (sheet.2 ≠ [] → sheet.1 ∈ stores)

/-- The keys of rows of one store are distinct if their ids are. -/
theorem nodup_keys_iff {rows : List PosRow} (hrows : ∀ row ∈ rows, row.storeId = store) :
    (rows.map PosRow.key).Nodup ↔ (rows.map PosRow.id).Nodup := by
  have hkeys : rows.map PosRow.key = (rows.map PosRow.id).map fun id => (id, store) := by
    rw [List.map_map]
    exact List.map_congr_left fun row hmem => congrArg (Prod.mk row.id) (hrows row hmem)
  rw [hkeys]
  exact List.nodup_map_iff fun id id' h => (Prod.mk.inj h).1

/-- A store's new rows are keyed if their ids are distinct, whatever the other stores have. -/
theorem nodup_replaceRows_iff {rows : List PosRow} (hrows : ∀ row ∈ rows, row.storeId = store) :
    ((replacePart PosRow.storeId table.rows store rows).map PosRow.key).Nodup ↔
      (rows.map PosRow.id).Nodup := by
  rw [nodup_replacePart_iff table.pkey, nodup_keys_iff hrows]
  refine and_iff_left fun row _ hother hkey => ?_
  obtain ⟨row', hmem, heq⟩ := List.mem_map.mp hkey
  exact hother ((Prod.mk.inj heq).2.symm.trans (hrows row' hmem))

/-- The foreign key asks for the store once, and not at all if there are no rows. -/
theorem forall_storeId_mem_iff {rows : List PosRow} (hrows : ∀ row ∈ rows, row.storeId = store) :
    (∀ row ∈ rows, row.storeId ∈ stores) ↔ (rows ≠ [] → store ∈ stores) := by
  constructor
  · intro hall hne
    obtain ⟨row, hmem⟩ := List.exists_mem_of_ne_nil rows hne
    exact hrows row hmem ▸ hall row hmem
  · intro hstore row hmem
    exact hrows row hmem ▸ hstore (List.ne_nil_of_mem hmem)

section Sheet

variable {upload : PosUpload} {rows : List PosRow}

/-- The sheet that an upload is taken as, in terms of its items. -/
theorem posSheet_eq_some_iff : posSheet stores content upload = some (store, rows) ↔
    (∃ items, uuidColumn upload.storeId = .ok store ∧
      iterate ((upload.body.get "items").coalesce (.array [])) = .ok items ∧
      readItems (fun _ => posRow content store) 0 items = .ok rows) ∧
    (rows.map PosRow.id).Nodup ∧ (rows ≠ [] → store ∈ stores) := by
  rw [posSheet, Option.filter_eq_some_iff, readSheet_eq_some_iff, decide_eq_true_eq]

theorem posSheet_storeId (h : posSheet stores content upload = some (store, rows)) :
    ∀ row ∈ rows, row.storeId = store := by
  obtain ⟨⟨items, -, -, hread⟩, -⟩ := posSheet_eq_some_iff.mp h
  exact forall_of_readItems (fun _ _ _ hrow => posRow_storeId hrow) hread

theorem posSheet_of_empty (h : upload.storeId = "") : posSheet stores content upload = none := by
  rw [posSheet, readSheet, h]
  rfl

/-- A table can have the sheet of an upload. -/
theorem exists_replaceRows (h : posSheet stores content upload = some (store, rows))
    (table : PosRows stores) : ∃ table' : PosRows stores,
      table'.rows = replacePart PosRow.storeId table.rows store rows := by
  have hrows := posSheet_storeId h
  obtain ⟨-, hdistinct, hknown⟩ := posSheet_eq_some_iff.mp h
  refine ⟨⟨_, (nodup_replaceRows_iff hrows).mpr hdistinct, fun row hmem => ?_⟩, rfl⟩
  obtain ⟨hold, -⟩ | hnew := mem_replacePart_iff.mp hmem
  · exact table.store_id_fkey row hold
  · exact (forall_storeId_mem_iff hrows).mpr hknown row hnew

/-- **An upload writes its sheet**, or fails.  The old rows are deleted first, so that they stand in
nobody's way. -/
theorem savePosItems_eq_ok_iff :
    savePosItems content upload table = .ok table' ↔
      ∃ store rows, posSheet stores content upload = some (store, rows) ∧
        table'.rows = replacePart PosRow.storeId table.rows store rows := by
  unfold savePosItems
  constructor
  · intro h
    cases hstore : uuidColumn upload.storeId with
    | error e =>
        rw [hstore] at h
        cases h
    | ok store =>
        cases hitems : iterate ((upload.body.get "items").coalesce (.array [])) with
        | error e =>
            rw [hstore, hitems] at h
            cases h
        | ok items =>
            rw [hstore, hitems] at h
            obtain ⟨rows, hread, hall, hnodup, htable⟩ := (insertPosItems_eq_ok_iff (n := 0)).mp h
            have hrows := forall_of_readItems (fun _ _ _ hrow => posRow_storeId hrow) hread
            exact ⟨store, rows, posSheet_eq_some_iff.mpr ⟨⟨items, hstore, hitems, hread⟩,
              (nodup_replaceRows_iff hrows).mp hnodup, (forall_storeId_mem_iff hrows).mp hall⟩, htable⟩
  · rintro ⟨store, rows, hsheet, htable⟩
    have hrows := posSheet_storeId hsheet
    obtain ⟨⟨items, hstore, hitems, hread⟩, hdistinct, hknown⟩ := posSheet_eq_some_iff.mp hsheet
    rw [hstore, hitems]
    exact (insertPosItems_eq_ok_iff (n := 0)).mpr ⟨rows, hread,
      (forall_storeId_mem_iff hrows).mpr hknown, (nodup_replaceRows_iff hrows).mpr hdistinct, htable⟩

theorem failsInternally_savePosItems : FailsInternally (savePosItems content upload table) :=
  (failsInternally_uuidColumn _).bind fun _ => (failsInternally_iterate _).bind fun _ =>
    failsInternally_insertPosItems

/-- The transaction of an upload writes the sheet that it is taken as. -/
theorem sendUpload_savePosItems (fault : Fault String) (upload : PosUpload) (table : PosRows stores) :
    (sendUpload fault table (savePosItems content upload table)).1 =
        (publish fault (posSheet stores content upload) (part PosRow.storeId table.rows)).1 ∧
      part PosRow.storeId (sendUpload fault table (savePosItems content upload table)).2.rows =
        (publish fault (posSheet stores content upload) (part PosRow.storeId table.rows)).2 := by
  let sheets (table : PosRows stores) := part PosRow.storeId table.rows
  refine @sendUpload_eq_publish _ _ fault table _ _ sheets (fun table' hsave => ?_) (fun e hsave => ?_)
    failsInternally_savePosItems
  · obtain ⟨store, rows, hsheet, htable⟩ := savePosItems_eq_ok_iff.mp hsave
    refine ⟨(store, rows), hsheet, ?_⟩
    show part PosRow.storeId table'.rows = _
    rw [htable, part_replacePart (posSheet_storeId hsheet)]
  · rw [Option.eq_none_iff_forall_ne_some]
    rintro ⟨store, rows⟩ hsheet
    obtain ⟨table', htable⟩ := exists_replaceRows hsheet table
    rw [savePosItems_eq_ok_iff.mpr ⟨store, rows, hsheet, htable⟩] at hsave
    cases hsave

end Sheet

end MenuAdminController

/-! ## The board -/

section Board

open MenuAdminController GlobalExceptionFilter

/-- The sheets of both kinds, one for each store.  There are no keys here: a sheet is a list. -/
abbrev SheetBoard := PosTable → Uuid → List PosRow

/-- The last column of the table. -/
def PosTable.content : PosTable → JsValue → JsValue
  | .categories => categoryMeta
  | .options => subItems

/-- An upload writes the sheet that it is taken as. -/
def SheetBoard.step (stores : List Uuid) (call : PosCall) (board : SheetBoard) :
    Set PosAnswer × SheetBoard :=
  if call.upload.storeId = "" then ({.failed (response storeIdRequired)}, board)
  else
    let (answer, sheets) :=
      publish call.fault (posSheet stores call.table.content call.upload) (board call.table)
    (answer, Function.update board call.table sheets)

variable {stores : List Uuid}

/-- The board that the tables are. -/
def sheetBoard (tables : PosTable → PosRows stores) : SheetBoard :=
  fun table => part PosRow.storeId (tables table).rows

/-- Both endpoints are one, with another last column. -/
theorem PosTable.save_eq (table : PosTable) (fault : Fault String) (upload : PosUpload)
    (rows : PosRows stores) :
    table.save fault upload rows = saveUpload table.content fault upload rows := by
  cases table
  · rfl
  · rfl

/-- To change a table is to change its sheets. -/
theorem sheetBoard_update (tables : PosTable → PosRows stores) (table : PosTable)
    (rows : PosRows stores) : sheetBoard (Function.update tables table rows) =
      Function.update (sheetBoard tables) table (part PosRow.storeId rows.rows) := by
  funext table'
  by_cases htable : table' = table
  · subst htable
    rw [sheetBoard, Function.update_self, Function.update_self]
  · rw [sheetBoard, Function.update_of_ne htable, Function.update_of_ne htable]
    rfl

/-- **One call does to the tables what it does to the board**, with the same answers. -/
theorem posStep_sheetBoard (call : PosCall) (tables : PosTable → PosRows stores) :
    (PosTable.step call tables).1 = (SheetBoard.step stores call (sheetBoard tables)).1 ∧
      sheetBoard (PosTable.step call tables).2 =
        (SheetBoard.step stores call (sheetBoard tables)).2 := by
  unfold PosTable.step SheetBoard.step
  rw [PosTable.save_eq, saveUpload]
  dsimp only
  split_ifs with hempty
  · refine ⟨rfl, ?_⟩
    rw [Function.update_eq_self]
  · obtain ⟨hanswer, hsheets⟩ :=
      @sendUpload_savePosItems _ call.table.content call.fault call.upload (tables call.table)
    refine ⟨hanswer, ?_⟩
    rw [sheetBoard_update, hsheets]
    rfl

theorem simulation_sheetBoard (stores : List Uuid) :
    Simulation (@PosTable.step stores) (SheetBoard.step stores)
      fun tables board => sheetBoard tables = board where
  output := by
    rintro tables _ rfl call
    exact (posStep_sheetBoard call tables).1
  kept := by
    rintro tables _ rfl call
    exact (posStep_sheetBoard call tables).2

/-- **The uploads implement the sheets.**  In every history the answers are the board's, and the
tables end up as the board does. -/
theorem posUploads_implement_sheets (calls : List PosCall) (tables : PosTable → PosRows stores) :
    transcript PosTable.step calls tables =
        transcript (SheetBoard.step stores) calls (sheetBoard tables) ∧
      sheetBoard (final PosTable.step calls tables) =
        final (SheetBoard.step stores) calls (sheetBoard tables) :=
  ⟨(simulation_sheetBoard stores).transcript_eq rfl calls,
    (simulation_sheetBoard stores).final rfl calls⟩

/-! ## The last upload -/

/-- The rows that a call leaves on the store's sheet, whatever was there. -/
def PosCall.leaves? (stores : List Uuid) (table : PosTable) (store : Uuid) (call : PosCall) :
    Option (List PosRow) :=
  if call.table = table then
    (committed? call.fault (posSheet stores call.table.content call.upload)).bind fun sheet =>
      if sheet.1 = store then some sheet.2 else none
  else none

theorem sheetBoard_step (call : PosCall) (board : SheetBoard) (table : PosTable) (store : Uuid) :
    (SheetBoard.step stores call board).2 table store =
      (call.leaves? stores table store).getD (board table store) := by
  unfold SheetBoard.step PosCall.leaves?
  split_ifs with hempty htable htable
  · rw [posSheet_of_empty hempty]
    cases call.fault <;> rfl
  · rfl
  · subst htable
    dsimp only
    rw [Function.update_self, publish_sheets]
  · dsimp only
    rw [Function.update_of_ne (Ne.symm htable)]
    rfl

/-- **A sheet is the last upload of it.**  What the store has in the table is what the last call
with its own transaction committed and its items in order says, whatever the other calls were and
whatever became of them. -/
theorem sheet_eq_last (calls : List PosCall) (tables : PosTable → PosRows stores) (table : PosTable)
    (store : Uuid) :
    part PosRow.storeId (final PosTable.step calls tables table).rows store =
      (calls.reverse.findSome? fun call => call.leaves? stores table store).getD
        (part PosRow.storeId (tables table).rows store) := by
  have hboard : ∀ (calls : List PosCall) (board : SheetBoard),
      final (SheetBoard.step stores) calls board table store =
        (calls.reverse.findSome? fun call => call.leaves? stores table store).getD
          (board table store) := by
    intro calls
    induction calls with
    | nil => exact fun board => rfl
    | cons call calls ih =>
        intro board
        rw [final_cons, ih, sheetBoard_step, List.reverse_cons, List.findSome?_append]
        cases calls.reverse.findSome? fun call => call.leaves? stores table store with
        | some rows => rfl
        | none =>
            show _ = (List.findSome? _ [call]).getD _
            cases hleaves : call.leaves? stores table store with
            | none => simp [hleaves]
            | some rows => simp [hleaves]
  have hfinal := (simulation_sheetBoard stores).final (Eq.refl (sheetBoard tables)) calls
  exact (congrFun (congrFun hfinal table) store).trans (hboard calls (sheetBoard tables))

end Board

end ChickenOrder
