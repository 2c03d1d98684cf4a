import ChickenOrder.Interaction.Simulation
import ChickenOrder.Services.AreaAdmin

/-!
# The areas as a book

What the area endpoints are for: a book of areas, one for each id, that whoever has the password
may edit and everyone may read.  `AreaBook.step` says so without rows, keys or joins.
`areas_implement_book` shows that the endpoints over the tables cannot be told apart from it, and
`areas_purged` that requests without the password might as well not have been sent.

`AreaTables.Keeps` relates the tables to a book, and `AreaEdit.statement_apply` is the one place
where rows, keys and foreign keys are met.  The rest is general: that a simulation gives equal
transcripts, and an unwinding noninterference, is proved in `ChickenOrder.Interaction`.
-/

namespace ChickenOrder

open Interaction Relational

/-! ## The book -/

/-- The areas by their ids: all there is to a table with a primary key and columns that nothing else
reads. -/
abbrev AreaBook := Uuid → Option Area

/-- A change of one entry. -/
inductive AreaEdit
  | create (id : Uuid) (area : Area)
  | update (id : Uuid) (area : Area)
  | delete (id : Uuid)
  deriving DecidableEq

/-- The edit of a book.  Each area must be one of an existing store, and a change of an id that is
not in the book is none. -/
def AreaEdit.apply (stores : List AreaStoreRow) : AreaEdit → AreaBook → Except OrderError AreaBook
  | .create id area, book =>
      if area.storeId ∉ stores.map AreaStoreRow.id then .error storeMissing
      else if (book id).isSome then .error areaExists
      else .ok (Function.update book id (some area))
  | .update id area, book =>
      if (book id).isSome ∧ area.storeId ∉ stores.map AreaStoreRow.id then .error storeMissing
      else .ok (Function.update book id ((book id).map fun _ => area))
  | .delete id, book => .ok (Function.update book id none)

/-- How a request that writes is taken: it is answered at once, or its edit is tried, and then the
answer depends on whether the statement succeeds. -/
inductive AreaTaken
  | answered (answer : AreaAnswer)
  | tried (edit : Except OrderError AreaEdit) (answer : AreaAnswer)

/-- What is done about the request from the state `s`, where `change` makes an edit. -/
def AreaTaken.carryOut {σ : Type} (fault : Fault String) (change : AreaEdit → Except OrderError σ)
    (s : σ) : AreaTaken → Set AreaAnswer × σ
  | .answered answer => ({answer}, s)
  | .tried edit answer => sendStatement fault answer s (edit.bind change)

section Requests

open AdminController

variable (adminPassword : String)

/-- The password first, then what can be read, then the two fields that must be there. -/
def takeEdit (body : JsValue) (edit : Except OrderError AreaEdit) (answer : AreaAnswer) : AreaTaken :=
  if hasPassword adminPassword body then
    if ¬ isReadableArea body then .answered (.failed .noPrimitive)
    else if areaName body = "" ∨ areaStoreId body = "" then .answered fieldsRequired
    else .tried edit answer
  else .answered (refusal body)

/-- Of a request that reads, nothing. -/
def AreaRequest.taken : AreaRequest → Option AreaTaken
  | .createArea body uuid => some (takeEdit adminPassword body
      ((areaColumns (areaName body) (areaStoreId body) (areaSortOrder body) true).map (.create uuid))
      (.created uuid))
  | .updateArea id body => some (takeEdit adminPassword body
      (do
        let area ← areaColumns (areaName body) (areaStoreId body) (areaSortOrder body)
          (areaIsActive body)
        let id ← uuidColumn id
        return .update id area)
      .done)
  | .deleteArea id body => some
      (if hasPassword adminPassword body then .tried ((uuidColumn id).map .delete) .done
      else .answered (refusal body))
  | _ => none

end Requests

namespace AreaBook

/-- A list of the entries that satisfy `p`, each once and in order.  Entries that the order does not
tell apart may come in any order. -/
structure Lists (book : AreaBook) (p : AreaRow → Bool) (order : SortKey AreaRow)
    (rows : List AreaRow) : Prop where
  nodup : rows.Nodup
  mem_iff : ∀ row, row ∈ rows ↔ book row.id = some row.area ∧ p row = true
  sorted : rows.Pairwise fun a b => order.le a b = true

/-- The store of an area.  Every area of a book that edits have led to has one, since an edit asks
for it and no request deletes a store. -/
def storeOf (stores : List AreaStoreRow) (row : AreaRow) : AreaStoreRow :=
  (stores.find? fun store => store.id = row.storeId).getD ⟨row.storeId, "", false, 0⟩

open PublicController AdminController in
/-- The answers to a request that reads. -/
def answers (adminPassword : String) (collation : Collation) (stores : List AreaStoreRow)
    (fault : Fault String) (book : AreaBook) : AreaRequest → Set AreaAnswer
  | .getAreasData password =>
      if checkAdminPassword adminPassword (password.getD "") then
        sendQuery fault {answer | ∃ rows active,
          book.Lists (fun _ => true) (bySortOrder collation) rows ∧
          IsSelection stores AreaStoreRow.isActive (.comap AreaStoreRow.name collation) active ∧
          answer = .data (rows.map fun row => (row, (storeOf stores row).name))
            (active.map fun store => (store.id, store.name))}
      else {wrongPassword}
  | .getAreas =>
      sendQuery fault {answer | ∃ rows,
        book.Lists AreaRow.isActive
          (.thenBy (.ofLinearOrder fun row => row.storeId.bits.toNat) (.ofLinearOrder AreaRow.sortOrder))
          rows ∧
        answer = .areas (rows.map AreaRow.entry)}
  | .getArea id =>
      sendQuery fault
        (match uuidColumn id with
        | .error e => {.failed e}
        | .ok id =>
            match (book id).filter fun area => area.isActive with
            | none => {.refused "지역 없음"}
            | some area => {.area id area.name area.storeId})
  | .resolveArea address type =>
      sendQuery fault {answer | ∃ rows active,
        book.Lists AreaRow.isActive (bySortOrder collation) rows ∧
        IsSelection stores AreaStoreRow.isActive (.ofLinearOrder AreaStoreRow.createdAt) active ∧
        answer = (PublicController.resolveArea address type (active.take 1)
          (rows.map fun row => (row, storeOf stores row))).answer}
  | _ => ∅

/-- One request after the other, on the book.  The tables are not mentioned: an edit is tried on the
book, a read lists it. -/
def step (adminPassword : String) (collation : Collation) (stores : List AreaStoreRow)
    (call : AreaCall) (book : AreaBook) : Set AreaAnswer × AreaBook :=
  match call.request.taken adminPassword with
  | some taken => taken.carryOut call.fault (fun edit => edit.apply stores book) book
  | none => (book.answers adminPassword collation stores call.fault call.request, book)

end AreaBook

/-! ## The tables as a book -/

/-- The book that the table of areas is. -/
def AreaTables.book (tables : AreaTables) : AreaBook :=
  fun id => (lookup AreaRow.id tables.areas id).map AreaRow.area

/-- The statement of an edit. -/
def AreaEdit.statement : AreaEdit → AreaTables → Except OrderError AreaTables
  | .create id area, tables => tables.insertArea id area
  | .update id area, tables => tables.updateArea id area
  | .delete id, tables => .ok (tables.deleteArea id)

/-- The tables are those stores and that book. -/
def AreaTables.Keeps (stores : List AreaStoreRow) (tables : AreaTables) (book : AreaBook) : Prop :=
  tables.stores = stores ∧ tables.book = book

namespace AreaTables

variable {tables : AreaTables} {id : Uuid} {area : Area}

/-- An id is in the book exactly if a row has it. -/
theorem isSome_book : (tables.book id).isSome ↔ id ∈ tables.areas.map AreaRow.id := by
  rw [book, Option.isSome_map, Option.isSome_iff_ne_none, ne_eq, lookup_eq_none_iff, not_not]

/-- A row of the table is an entry of the book. -/
theorem lookup_eq_some_iff_book {row : AreaRow} :
    lookup AreaRow.id tables.areas row.id = some row ↔ tables.book row.id = some row.area := by
  rw [book, Option.map_eq_some_iff]
  constructor
  · intro h
    exact ⟨row, h, rfl⟩
  · rintro ⟨found, hfound, harea⟩
    -- the id and the other columns make the row
    have hsame : found = row := by
      rw [← found.area_row, ← row.area_row, harea, key_of_lookup hfound]
    rw [hfound, hsame]

theorem book_insert (hnew : id ∉ tables.areas.map AreaRow.id) :
    (fun k => (lookup AreaRow.id (tables.areas ++ [area.row id]) k).map AreaRow.area) =
      Function.update tables.book id (some area) := by
  funext k
  rw [lookup_insert (a := area.row id) hnew, Area.row_id]
  by_cases hk : k = id
  · subst hk
    simp
  · rw [Function.update_of_ne hk, Function.update_of_ne hk]
    rfl

/-- An `UPDATE` changes the entry, if there is one. -/
theorem book_assign :
    (fun k => (lookup AreaRow.id (assign AreaRow.id tables.areas id fun row => area.row row.id)
      k).map AreaRow.area) =
      Function.update tables.book id ((tables.book id).map fun _ => area) := by
  funext k
  rw [lookup_assign (f := fun row : AreaRow => area.row row.id) fun _ => rfl]
  by_cases hk : k = id
  · subst hk
    rw [Function.update_self, Function.update_self, Option.map_map, book, Option.map_map]
    rfl
  · rw [Function.update_of_ne hk, Function.update_of_ne hk]
    rfl

theorem book_deleteArea :
    (tables.deleteArea id).book = Function.update tables.book id none := by
  funext k
  show (lookup AreaRow.id (erase AreaRow.id tables.areas id) k).map AreaRow.area = _
  rw [lookup_erase]
  by_cases hk : k = id
  · subst hk
    simp
  · rw [Function.update_of_ne hk, Function.update_of_ne hk]
    rfl

end AreaTables

/-! ## Statements and edits -/

/-- Both fail in the same way, or both give related states.  The error is part of the answer, so it
has to be the same one. -/
inductive SameResult {σ τ : Type} (R : σ → τ → Prop) :
    Except OrderError σ → Except OrderError τ → Prop
  | ok {s : σ} {t : τ} (h : R s t) : SameResult R (.ok s) (.ok t)
  | error (e : OrderError) : SameResult R (.error e) (.error e)

section Edits

variable {stores : List AreaStoreRow} {tables : AreaTables} {book : AreaBook}

/-- **A statement does to the table what the edit does to the book.** This is one case for each of
the three statements; foreign key, primary key and missing rows included. -/
theorem AreaEdit.statement_apply (h : tables.Keeps stores book) (edit : AreaEdit) :
    SameResult (AreaTables.Keeps stores) (edit.statement tables) (edit.apply stores book) := by
  obtain ⟨rfl, rfl⟩ := h
  cases edit with
  | create id area =>
      rw [statement, apply, AreaTables.insertArea]
      by_cases hstore : area.storeId ∈ tables.stores.map AreaStoreRow.id
      · rw [dif_pos hstore, if_neg (not_not.mpr hstore)]
        by_cases hpk : id ∈ tables.areas.map AreaRow.id
        · rw [dif_pos hpk, if_pos (AreaTables.isSome_book.mpr hpk)]
          exact .error _
        · rw [dif_neg hpk, if_neg fun hsome => hpk (AreaTables.isSome_book.mp hsome)]
          exact .ok ⟨rfl, AreaTables.book_insert hpk⟩
      · rw [dif_neg hstore, if_pos hstore]
        exact .error _
  | update id area =>
      rw [statement, apply, AreaTables.updateArea]
      by_cases hstore : id ∈ tables.areas.map AreaRow.id →
          area.storeId ∈ tables.stores.map AreaStoreRow.id
      · rw [dif_pos hstore, if_neg fun hmissing =>
          hmissing.2 (hstore (AreaTables.isSome_book.mp hmissing.1))]
        exact .ok ⟨rfl, AreaTables.book_assign⟩
      · rw [dif_neg hstore, if_pos]
        · exact .error _
        · rw [Classical.not_imp] at hstore
          exact ⟨AreaTables.isSome_book.mpr hstore.1, hstore.2⟩
  | delete id => exact .ok ⟨rfl, AreaTables.book_deleteArea⟩

variable {σ τ : Type} {R : σ → τ → Prop} {s : σ} {t : τ}

/-- Lost or not, statements with the same result look alike. -/
theorem SameResult.sendStatement {x : Except OrderError σ} {y : Except OrderError τ}
    (h : SameResult R x y) (hs : R s t) (fault : Fault String) (answer : AreaAnswer) :
    (sendStatement fault answer s x).1 = (ChickenOrder.sendStatement fault answer t y).1 ∧
      R (ChickenOrder.sendStatement fault answer s x).2 (ChickenOrder.sendStatement fault answer t y).2 := by
  cases h with
  | ok h =>
      cases fault with
      | none => exact ⟨rfl, h⟩
      | rejected m => exact ⟨rfl, hs⟩
      | unacknowledged m => exact ⟨rfl, h⟩
  | error e =>
      cases fault with
      | none => exact ⟨rfl, hs⟩
      | rejected m => exact ⟨rfl, hs⟩
      | unacknowledged m => exact ⟨rfl, hs⟩

end Edits

/-! ## Reads -/

namespace AreaTables

variable {tables : AreaTables} {p : AreaRow → Bool} {order : SortKey AreaRow}

/-- A query of the areas is a list of entries. -/
theorem isSelection_areas {rows : List AreaRow} :
    IsSelection tables.areas p order rows ↔ tables.book.Lists p order rows := by
  rw [isSelection_iff tables.areas_pkey]
  constructor
  · rintro ⟨hnodup, hmem, hsorted⟩
    exact ⟨hnodup, fun row => (hmem row).trans (and_congr_left fun _ => lookup_eq_some_iff_book), hsorted⟩
  · rintro ⟨hnodup, hmem, hsorted⟩
    exact ⟨hnodup, fun row => (hmem row).trans (and_congr_left fun _ => lookup_eq_some_iff_book.symm),
      hsorted⟩

/-- Each area joins its one store. -/
theorem joined_eq : tables.joined =
    tables.areas.map fun row => (row, AreaBook.storeOf tables.stores row) := by
  have hone : ∀ row ∈ tables.areas, ((tables.stores.filter fun store =>
      store.id = row.storeId).map fun store => (row, store)) =
        [(row, AreaBook.storeOf tables.stores row)] := by
    intro row hrow
    have hstore : lookup AreaStoreRow.id tables.stores row.storeId ≠ none := fun hnone =>
      lookup_eq_none_iff.mp hnone (tables.areas_store_id_fkey row hrow)
    obtain ⟨store, hfound⟩ := Option.ne_none_iff_exists'.mp hstore
    rw [filter_key tables.stores_pkey, AreaBook.storeOf, hfound]
    show [(row, store)] = [(row, (lookup AreaStoreRow.id tables.stores row.storeId).getD _)]
    rw [hfound]
    rfl
  rw [joined, List.flatMap_def, List.map_congr_left hone, ← List.flatMap_def, List.map_eq_flatMap]

/-- A query of the join is a list of entries, each with its store. -/
theorem isSelection_joined {result : List (AreaRow × AreaStoreRow)} :
    IsSelection tables.joined (fun row => p row.1) (.comap Prod.fst order) result ↔
      ∃ rows, tables.book.Lists p order rows ∧
        result = rows.map fun row => (row, AreaBook.storeOf tables.stores row) := by
  rw [joined_eq, isSelection_map (fun _ => rfl)]
  exact exists_congr fun rows => and_congr_left fun _ => isSelection_areas

end AreaTables

section Reads

variable {stores : List AreaStoreRow} {tables : AreaTables} {book : AreaBook}
variable (adminPassword : String) (collation : Collation) (fault : Fault String)

/-- `getAreasData` answers what the book says. -/
theorem getAreasData_eq (h : tables.Keeps stores book) (password : Option String) :
    AdminController.getAreasData adminPassword fault tables collation password =
      book.answers adminPassword collation stores fault (.getAreasData password) := by
  obtain ⟨rfl, rfl⟩ := h
  unfold AdminController.getAreasData AreaBook.answers
  congr 2
  ext answer
  constructor
  · rintro ⟨result, active, hresult, hactive, rfl⟩
    obtain ⟨rows, hrows, rfl⟩ := (AreaTables.isSelection_joined (p := fun _ => true)).mp hresult
    exact ⟨rows, active, hrows, hactive, by rw [List.map_map]; rfl⟩
  · rintro ⟨rows, active, hrows, hactive, rfl⟩
    refine ⟨_, active, (AreaTables.isSelection_joined (p := fun _ => true)).mpr ⟨rows, hrows, rfl⟩,
      hactive, ?_⟩
    rw [List.map_map]
    rfl

/-- `getAreas` likewise: the entries that are active, in their order. -/
theorem getAreas_eq (h : tables.Keeps stores book) :
    PublicController.getAreas fault tables =
      book.answers adminPassword collation stores fault .getAreas := by
  obtain ⟨rfl, rfl⟩ := h
  unfold PublicController.getAreas AreaBook.answers
  congr 1
  ext answer
  exact exists_congr fun rows => and_congr_left fun _ => AreaTables.isSelection_areas

theorem getArea_eq (h : tables.Keeps stores book) (id : String) :
    PublicController.getArea fault tables id =
      book.answers adminPassword collation stores fault (.getArea id) := by
  obtain ⟨rfl, rfl⟩ := h
  unfold PublicController.getArea AreaBook.answers
  congr 1
  cases uuidColumn id with
  | error e => rfl
  | ok id =>
      have hfilter : (tables.areas.filter fun row => row.id = id ∧ row.isActive) =
          (lookup AreaRow.id tables.areas id).toList.filter AreaRow.isActive := by
        rw [← filter_key tables.areas_pkey, List.filter_filter]
        exact List.filter_congr fun row _ => by simp [and_comm]
      dsimp only
      rw [hfilter, AreaTables.book]
      cases hrow : lookup AreaRow.id tables.areas id with
      | none => rfl
      | some row =>
          by_cases hactive : row.isActive = true
          · have hfound : (some row.area).filter (fun area => area.isActive) = some row.area :=
              if_pos hactive
            rw [Option.map_some, hfound, Option.toList_some, List.filter_cons_of_pos hactive]
            exact congrArg (fun id => {AreaAnswer.area id row.name row.storeId}) (key_of_lookup hrow)
          · have hhidden : (some row.area).filter (fun area => area.isActive) = none :=
              if_neg hactive
            rw [Option.map_some, hhidden, Option.toList_some, List.filter_cons_of_neg hactive]
            rfl

/-- `resolveArea` is a function of two lists of the book. -/
theorem resolveArea_eq (h : tables.Keeps stores book) (address type : Option String) :
    sendQuery fault {answer | ∃ reply,
        PublicController.ResolvesArea collation tables address type reply ∧
        answer = reply.answer} =
      book.answers adminPassword collation stores fault (.resolveArea address type) := by
  obtain ⟨rfl, rfl⟩ := h
  unfold AreaBook.answers
  congr 1
  ext answer
  constructor
  · rintro ⟨_, ⟨active, result, hactive, hresult, rfl⟩, rfl⟩
    obtain ⟨rows, hrows, rfl⟩ := AreaTables.isSelection_joined.mp hresult
    exact ⟨rows, active, hrows, hactive, rfl⟩
  · rintro ⟨rows, active, hrows, hactive, rfl⟩
    exact ⟨_, ⟨active, _, hactive, AreaTables.isSelection_joined.mpr ⟨rows, hrows, rfl⟩, rfl⟩, rfl⟩

end Reads

/-! ## The endpoints and the book -/

section Service

variable {adminPassword : String} {collation : Collation} {stores : List AreaStoreRow}
variable {tables : AreaTables} {book : AreaBook} {call : AreaCall}

open AdminController

/-- A request that writes sends the statement of its edit, or none. -/
theorem areaStep_of_taken {taken : AreaTaken}
    (h : call.request.taken adminPassword = some taken) :
    tables.step adminPassword collation call =
      taken.carryOut call.fault (fun edit => edit.statement tables) tables := by
  obtain ⟨request, fault⟩ := call
  -- the handlers check the password, and differ in the columns that they read
  cases request with
  | createArea body uuid =>
      cases h
      show createArea adminPassword fault tables body uuid = _
      unfold createArea takeEdit
      split
      · split
        · rfl
        split
        · rfl
        · refine congrArg (sendStatement fault _ tables) ?_
          cases areaColumns (areaName body) (areaStoreId body) (areaSortOrder body) true <;> rfl
      · rfl
  | updateArea id body =>
      cases h
      show updateArea adminPassword fault tables id body = _
      unfold updateArea takeEdit
      split
      · split
        · rfl
        split
        · rfl
        · refine congrArg (sendStatement fault _ tables) ?_
          cases areaColumns (areaName body) (areaStoreId body) (areaSortOrder body)
            (areaIsActive body) with
          | error e => rfl
          | ok area => cases uuidColumn id <;> rfl
      · rfl
  | deleteArea id body =>
      cases h
      show deleteArea adminPassword fault tables id body = _
      unfold deleteArea
      split_ifs with hpassword
      · refine congrArg (sendStatement fault _ tables) ?_
        cases uuidColumn id <;> rfl
      · rfl
  | getAreasData password => cases h
  | getAreas => cases h
  | getArea id => cases h
  | resolveArea address type => cases h

/-- The endpoints and the book, side by side: whatever the request, they give the same set of
answers and are related again. -/
theorem simulation_areaBook (adminPassword : String) (collation : Collation)
    (stores : List AreaStoreRow) :
    Simulation (AreaTables.step adminPassword collation)
      (AreaBook.step adminPassword collation stores) (AreaTables.Keeps stores) := by
  have hboth : ∀ {tables book}, AreaTables.Keeps stores tables book → ∀ call : AreaCall,
      (tables.step adminPassword collation call).1 =
        (AreaBook.step adminPassword collation stores call book).1 ∧
      AreaTables.Keeps stores (tables.step adminPassword collation call).2
        (AreaBook.step adminPassword collation stores call book).2 := by
    intro tables book hkeeps call
    cases htaken : call.request.taken adminPassword with
    -- requests that read are answered from the same rows
    | none =>
        have hstep : AreaBook.step adminPassword collation stores call book =
            (book.answers adminPassword collation stores call.fault call.request, book) := by
          rw [AreaBook.step, htaken]
        rw [hstep]
        obtain ⟨request, fault⟩ := call
        cases request with
        | getAreasData password =>
            exact ⟨getAreasData_eq adminPassword collation fault hkeeps password, hkeeps⟩
        | getAreas => exact ⟨getAreas_eq adminPassword collation fault hkeeps, hkeeps⟩
        | getArea id => exact ⟨getArea_eq adminPassword collation fault hkeeps id, hkeeps⟩
        | resolveArea address type =>
            exact ⟨resolveArea_eq adminPassword collation fault hkeeps address type, hkeeps⟩
        | createArea body uuid => cases htaken
        | updateArea id body => cases htaken
        | deleteArea id body => cases htaken
    -- an edit changes the book as its statement changes the tables
    | some taken =>
        rw [areaStep_of_taken htaken, AreaBook.step, htaken]
        dsimp only
        cases taken with
        | answered answer => exact ⟨rfl, hkeeps⟩
        | tried edit answer =>
            refine SameResult.sendStatement ?_ hkeeps call.fault answer
            cases edit with
            | error e => exact .error e
            | ok edit => exact edit.statement_apply hkeeps
  exact ⟨fun h call => (hboth h call).1, fun h call => (hboth h call).2⟩

/-- The tables are the book again after any requests. -/
theorem keeps_final (adminPassword : String) (collation : Collation) (calls : List AreaCall)
    (tables : AreaTables) :
    AreaTables.Keeps tables.stores (final (AreaTables.step adminPassword collation) calls tables)
      (final (AreaBook.step adminPassword collation tables.stores) calls tables.book) :=
  (simulation_areaBook adminPassword collation tables.stores).final ⟨rfl, rfl⟩ calls

/-- **The endpoints implement the book.**  Over every history of requests, with any statement lost
on its way or on its way back, the answers are those of the book, and the table ends up as the book
does. -/
theorem areas_implement_book (adminPassword : String) (collation : Collation)
    (calls : List AreaCall) (tables : AreaTables) :
    transcript (AreaTables.step adminPassword collation) calls tables =
        transcript (AreaBook.step adminPassword collation tables.stores) calls tables.book ∧
      (final (AreaTables.step adminPassword collation) calls tables).stores = tables.stores ∧
      (final (AreaTables.step adminPassword collation) calls tables).book =
        final (AreaBook.step adminPassword collation tables.stores) calls tables.book := by
  have hsimulation := simulation_areaBook adminPassword collation tables.stores
  obtain ⟨hstores, hbook⟩ := keeps_final adminPassword collation calls tables
  exact ⟨hsimulation.transcript_eq ⟨rfl, rfl⟩ calls, hstores, hbook⟩

/-! ## Requests without the password -/

/-- The request is public or carries the password.  A password that is no text carries it if it
prints as it. -/
def AreaRequest.isAuthorised (adminPassword : String) : AreaRequest → Bool
  | .getAreasData password => checkAdminPassword adminPassword (password.getD "")
  | .createArea body _ => hasPassword adminPassword body
  | .updateArea _ body => hasPassword adminPassword body
  | .deleteArea _ body => hasPassword adminPassword body
  | _ => true

/-- What it is answered if it is not, whatever the areas are. -/
def AreaRequest.refusal : AreaRequest → AreaAnswer
  | .createArea body _ => AdminController.refusal body
  | .updateArea _ body => AdminController.refusal body
  | .deleteArea _ body => AdminController.refusal body
  | _ => wrongPassword

/-- A request without the password is refused, and nothing else happens. -/
theorem areaStep_of_not_authorised (h : call.request.isAuthorised adminPassword = false) :
    tables.step adminPassword collation call = ({call.request.refusal}, tables) := by
  obtain ⟨request, fault⟩ := call
  replace h : ¬ request.isAuthorised adminPassword = true := (Bool.not_eq_true _).mpr h
  cases request with
  | getAreasData password => exact congrArg (·, tables) (if_neg h)
  | createArea body uuid => exact if_neg h
  | updateArea id body => exact if_neg h
  | deleteArea id body => exact if_neg h
  | getAreas => exact absurd rfl h
  | getArea id => exact absurd rfl h
  | resolveArea address type => exact absurd rfl h

theorem unwinding_authorised (adminPassword : String) (collation : Collation) :
    Unwinding (AreaTables.step adminPassword collation)
      (fun call _ => call.request.isAuthorised adminPassword) Eq where
  seen := fun _ => rfl
  hidden := by
    rintro call tables tables' hhidden rfl
    rw [areaStep_of_not_authorised hhidden]
  output := by
    rintro call tables tables' - rfl
    rfl
  kept := by
    rintro call tables tables' - rfl
    rfl

/-- **Requests without the password might as well not have been sent.**  Their answers say nothing
of the areas, and taking them out of a history changes neither the answers to the others nor the
table. -/
theorem areas_purged (adminPassword : String) (collation : Collation) (calls : List AreaCall)
    (tables : AreaTables) :
    (∀ entry ∈ transcript (AreaTables.step adminPassword collation) calls tables,
        entry.1.request.isAuthorised adminPassword = false → entry.2 = {entry.1.request.refusal}) ∧
      (transcript (AreaTables.step adminPassword collation) calls tables).filter
          (fun entry => entry.1.request.isAuthorised adminPassword) =
        transcript (AreaTables.step adminPassword collation)
          (calls.filter fun call => call.request.isAuthorised adminPassword) tables ∧
      final (AreaTables.step adminPassword collation) calls tables =
        final (AreaTables.step adminPassword collation)
          (calls.filter fun call => call.request.isAuthorised adminPassword) tables := by
  have hunwinding := unwinding_authorised adminPassword collation
  refine ⟨fun entry hentry hhidden => ?_, hunwinding.transcript_filter calls rfl, ?_⟩
  · obtain ⟨earlier, later, hsplit⟩ := List.append_of_mem hentry
    rw [transcript_eq_append_cons _ hsplit, areaStep_of_not_authorised hhidden]
  · have hfinal := hunwinding.final_purge calls (Eq.refl tables)
    rwa [purge_eq_filter] at hfinal

/-! ## The last edit -/

/-- The entry that is changed. -/
def AreaEdit.id : AreaEdit → Uuid
  | .create id _ => id
  | .update id _ => id
  | .delete id => id

/-- What it is changed to. -/
def AreaEdit.entry : AreaEdit → Option Area → Option Area
  | .create _ area, _ => some area
  | .update _ area, old => old.map fun _ => area
  | .delete _, _ => none

/-- The edit that a request asks for, if it is authorised and its columns take it. -/
def AreaRequest.edit? (adminPassword : String) (request : AreaRequest) : Option AreaEdit :=
  match request.taken adminPassword with
  | some (.tried (.ok edit) _) => some edit
  | _ => none

/-- The edit of a request is the one that is tried. -/
theorem AreaRequest.edit?_eq_some {request : AreaRequest} {edit : AreaEdit} :
    request.edit? adminPassword = some edit ↔
      ∃ answer, request.taken adminPassword = some (.tried (.ok edit) answer) := by
  unfold edit?
  split
  · rename_i htaken
    rw [htaken]
    simp
  · rename_i hother
    refine iff_of_false (by simp) ?_
    rintro ⟨answer, htaken⟩
    exact hother _ _ htaken

/-- An edit changes its own entry and no other. -/
theorem AreaEdit.apply_eq_ok {edit : AreaEdit} {book' : AreaBook}
    (h : edit.apply stores book = .ok book') :
    book' = Function.update book edit.id (edit.entry (book edit.id)) := by
  cases edit with
  | create id area =>
      rw [apply] at h
      split_ifs at h
      cases h
      rfl
  | update id area =>
      rw [apply] at h
      split_ifs at h
      cases h
      rfl
  | delete id =>
      cases h
      rfl

/-- A request that edits another entry, or none, leaves this one. -/
theorem bookStep_other {id : Uuid}
    (hother : ∀ edit, call.request.edit? adminPassword = some edit → edit.id ≠ id) :
    (AreaBook.step adminPassword collation stores call book).2 id = book id := by
  unfold AreaBook.step
  split
  · rename_i taken htaken
    cases taken with
    | answered answer => rfl
    | tried edit answer =>
        cases edit with
        | error e => cases call.fault <;> rfl
        | ok edit =>
            have hne := hother edit (AreaRequest.edit?_eq_some.mpr ⟨answer, htaken⟩)
            have hchanged : ∀ book', edit.apply stores book = .ok book' → book' id = book id := by
              intro book' happly
              rw [AreaEdit.apply_eq_ok happly, Function.update_of_ne (Ne.symm hne)]
            show (sendStatement call.fault answer book (edit.apply stores book)).2 id = book id
            obtain ⟨book', happly, hsent⟩ | ⟨e, book', hsent, rfl | happly⟩ :=
              sendStatement_cases call.fault answer book (edit.apply stores book)
            · rw [hsent]
              exact hchanged book' happly
            · rw [hsent]
            · rw [hsent]
              exact hchanged book' happly
  · rfl

/-- A request that is answered, and not with a failure, has made its edit.  A statement whose answer
is lost is answered with a failure, whether or not it took effect. -/
theorem bookStep_answered {edit : AreaEdit} (hedit : call.request.edit? adminPassword = some edit)
    (hanswered : ∀ e, (AreaBook.step adminPassword collation stores call book).1 ≠ {.failed e}) :
    (AreaBook.step adminPassword collation stores call book).2 edit.id =
      edit.entry (book edit.id) := by
  obtain ⟨answer, htaken⟩ := AreaRequest.edit?_eq_some.mp hedit
  have hstep : AreaBook.step adminPassword collation stores call book =
      sendStatement call.fault answer book (edit.apply stores book) := by
    rw [AreaBook.step, htaken]
    rfl
  rw [hstep] at hanswered ⊢
  obtain ⟨book', happly, hsent⟩ | ⟨e, book', hsent, -⟩ :=
    sendStatement_cases call.fault answer book (edit.apply stores book)
  · rw [hsent, AreaEdit.apply_eq_ok happly]
    exact Function.update_self ..
  · rw [hsent] at hanswered
    exact absurd rfl (hanswered e)

/-- **An edit lasts.**  An entry is what the last answered edit of it has made it, whatever other
requests come after that: each of those reads, is refused, or edits another entry. -/
theorem area_edit_lasts {edit : AreaEdit} {earlier later : List AreaCall} {tables : AreaTables}
    (hedit : call.request.edit? adminPassword = some edit)
    (hanswered : ∀ e, ((final (AreaTables.step adminPassword collation) earlier tables).step
      adminPassword collation call).1 ≠ {.failed e})
    (hlater : ∀ other ∈ later, ∀ edit', other.request.edit? adminPassword = some edit' →
      edit'.id ≠ edit.id) :
    (final (AreaTables.step adminPassword collation) (earlier ++ call :: later) tables).book edit.id =
      edit.entry ((final (AreaTables.step adminPassword collation) earlier tables).book edit.id) := by
  have hkept : ∀ (calls : List AreaCall) (book : AreaBook), (∀ other ∈ calls, ∀ edit',
      other.request.edit? adminPassword = some edit' → edit'.id ≠ edit.id) →
      final (AreaBook.step adminPassword collation tables.stores) calls book edit.id =
        book edit.id := by
    intro calls
    induction calls with
    | nil => exact fun _ _ => rfl
    | cons other calls ih =>
        intro book hothers
        rw [final_cons, ih _ fun other' hmem => hothers other' (List.mem_cons_of_mem _ hmem)]
        exact bookStep_other (hothers other List.mem_cons_self)
  obtain ⟨hstores, hbook⟩ := keeps_final adminPassword collation earlier tables
  have hsimulation := simulation_areaBook adminPassword collation tables.stores
  rw [hsimulation.output ⟨hstores, rfl⟩ call] at hanswered
  rw [(keeps_final adminPassword collation _ tables).2, final_append, final_cons,
    hkept later _ hlater, ← hbook]
  exact bookStep_answered hedit hanswered

end Service

/-! ### A second area, and a stranger -/

/-- The first seeded store, without areas. -/
def oneStore : AreaTables where
  stores := [⟨⟨0x11111111111111111111111111111111⟩, "1호점", true, 0⟩]
  areas := []
  stores_pkey := by decide
  areas_pkey := by decide
  areas_store_id_fkey := nofun

/-- A body with the password, for an area of the first store. -/
def areaBody (name : String) : JsValue :=
  .object [("password", .string "admin1234"), ("name", .string name),
    ("storeId", .string "11111111-1111-1111-1111-111111111111")]

/-- The area that the body stands for. -/
def guwol : Area := ⟨"남동구 구월동", ⟨0x11111111111111111111111111111111⟩, true, 0⟩

/-- Another area is added, and someone without the password tries to delete the first. -/
def laterCalls : List AreaCall :=
  [⟨.createArea (areaBody "부평구 부평동") ⟨8⟩, .none⟩,
    ⟨.deleteArea "00000000-0000-0000-0000-000000000007" (.object []), .none⟩]

theorem area_edit_lasts_guwol :
    (final (AreaTables.step "admin1234" .codePoints)
      ([] ++ ⟨.createArea (areaBody "남동구 구월동") ⟨7⟩, .none⟩ :: laterCalls) oneStore).book ⟨7⟩ =
        some guwol := by
  have hcolumns : areaColumns (AdminController.areaName (areaBody "남동구 구월동"))
      (AdminController.areaStoreId (areaBody "남동구 구월동"))
      (AdminController.areaSortOrder (areaBody "남동구 구월동")) true = .ok guwol := by
    decide +kernel
  have hedit : (AreaRequest.createArea (areaBody "남동구 구월동") ⟨7⟩).edit? "admin1234" =
      some (.create ⟨7⟩ guwol) := by
    decide +kernel
  refine @area_edit_lasts _ _ ⟨.createArea (areaBody "남동구 구월동") ⟨7⟩, .none⟩ _ [] laterCalls
    oneStore hedit ?_ ?_
  · intro e
    have hpassword : AdminController.hasPassword "admin1234" (areaBody "남동구 구월동") = true := by
      decide +kernel
    have hreadable : AdminController.isReadableArea (areaBody "남동구 구월동") = true := by
      decide +kernel
    have hfields : ¬ (AdminController.areaName (areaBody "남동구 구월동") = "" ∨
        AdminController.areaStoreId (areaBody "남동구 구월동") = "") := by
      decide +kernel
    obtain ⟨tables', hinsert⟩ : ∃ tables', oneStore.insertArea ⟨7⟩ guwol = .ok tables' :=
      ⟨_, (dif_pos (by decide)).trans (dif_neg (by decide))⟩
    have hcreated : (AdminController.createArea "admin1234" .none oneStore
        (areaBody "남동구 구월동") ⟨7⟩).1 = {.created ⟨7⟩} := by
      rw [AdminController.createArea, if_pos hpassword, if_neg (not_not_intro hreadable),
        if_neg hfields, hcolumns]
      show (sendStatement .none (.created ⟨7⟩) oneStore (oneStore.insertArea ⟨7⟩ guwol)).1 = _
      rw [hinsert]
      rfl
    show (AdminController.createArea "admin1234" .none oneStore (areaBody "남동구 구월동") ⟨7⟩).1 ≠ _
    rw [hcreated]
    intro hfailed
    cases Set.singleton_injective hfailed
  · decide +kernel

end ChickenOrder
