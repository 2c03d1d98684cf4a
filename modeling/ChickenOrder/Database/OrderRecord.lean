import ChickenOrder.Database.Changes

/-!
# The record of an order

Everything the database keeps under one order id: its row, its audit rows and its item
rows.  `Database.createOrder_recordOf` and `Database.transitionStatus_recordOf` say what
the two transactions make of it, `RepoOp.effect_recordOf` that no other call touches it.

A record forgets when and by whom a row was written, and keeps everything else that is stored
under the id.  Statements about a single order are therefore statements about its record, and
two runs that leave the same record have done the same to the order.

Items come first, as their `INSERT` is the one that can fail in the most ways:
`insertItems_eq_ok_iff` lists them.
-/

namespace ChickenOrder

open Interaction

/-! ## Item rows -/

/-- The row in which `order_items` stores an item, with columns that accept it.  The price is
rounded to hundredths, the quantity is a whole number. -/
structure OrderItem.StoredAs (orderId : Uuid) (item : OrderItem) (row : OrderItemRow) : Prop where
  orderId : row.orderId = orderId
  menuId : uuidColumn item.menuId = .ok row.menuId
  menuName : varcharColumn item.menuName = .ok row.menuName
  unitPrice : amountColumn item.unitPrice = .ok row.unitPrice
  quantity : quantityColumn item.quantity = .ok row.quantity
  subtotal : ∃ q, amountColumn (row.unitPrice * row.quantity) = .ok q

namespace Database

variable {db db' : Database}

/-- The `INSERT` of an item succeeds exactly if its columns accept it and its menu
exists, and adds the row. -/
theorem insertOrderItem_eq_ok_iff {orderId : Uuid} {item : OrderItem} :
    db.insertOrderItem orderId item = .ok db' ↔
      ∃ row, OrderItem.StoredAs orderId item row ∧ row.menuId ∈ db.menus.map MenuRow.id ∧
        db' = { db with orderItems := db.orderItems ++ [row] } := by
  unfold insertOrderItem
  simp only [bind, Except.bind, pure, Except.pure]
  constructor
  · intro h
    split at h
    · cases h
    · rename_i menuId hmenuId
      split at h
      · cases h
      · rename_i menuName hmenuName
        split at h
        · cases h
        · rename_i unitPrice hunitPrice
          split at h
          · cases h
          · rename_i quantity hquantity
            split at h
            · cases h
            · rename_i subtotal hsubtotal
              split at h
              · rename_i hmenu
                cases h
                exact ⟨⟨orderId, menuId, menuName, unitPrice, quantity⟩,
                  ⟨rfl, hmenuId, hmenuName, hunitPrice, hquantity, subtotal, hsubtotal⟩, hmenu, rfl⟩
              · cases h
  · rintro ⟨row, ⟨rfl, hmenuId, hmenuName, hunitPrice, hquantity, subtotal, hsubtotal⟩, hmenu, rfl⟩
    simp only [hmenuId, hmenuName, hunitPrice, hquantity, hsubtotal, if_pos hmenu]

/-- The loop over the items succeeds exactly if every `INSERT` does, and adds the rows in
order. -/
theorem insertItems_eq_ok_iff {orderId : Uuid} {items : List OrderItem} :
    insertItems orderId items db = .ok db' ↔
      ∃ rows, List.Forall₂ (fun item row => OrderItem.StoredAs orderId item row ∧
          row.menuId ∈ db.menus.map MenuRow.id) items rows ∧
        db' = { db with orderItems := db.orderItems ++ rows } := by
  induction items generalizing db with
  | nil =>
      constructor
      · intro h
        cases h
        exact ⟨[], .nil, by simp⟩
      · rintro ⟨rows, hrows, rfl⟩
        cases hrows
        simp [insertItems]
  | cons item rest ih =>
      rw [insertItems]
      constructor
      · intro h
        split at h
        · cases h
        · rename_i db₁ hitem
          obtain ⟨row, hstored, hmenu, rfl⟩ := insertOrderItem_eq_ok_iff.mp hitem
          obtain ⟨rows, hrows, rfl⟩ := ih.mp h
          exact ⟨row :: rows, .cons ⟨hstored, hmenu⟩ hrows, by simp⟩
      · rintro ⟨rows, hrows, rfl⟩
        cases hrows with
        | cons hrow hrest =>
            rw [insertOrderItem_eq_ok_iff.mpr ⟨_, hrow.1, hrow.2, rfl⟩]
            exact ih.mpr ⟨_, hrest, by simp⟩

/-- **Everything an inserting `createOrder` has checked and done**: it has added one row, its items
and one audit entry. -/
theorem createOrder_eq_ok_true {p : CreateOrderParams} {now : Time}
    (h : db.createOrder p now = .ok (true, db')) :
    ∃ row rows hpk huk, p.toRow now = .ok row ∧
      List.Forall₂ (OrderItem.StoredAs p.id) p.items rows ∧
      db' = { db with
        orders := db.orders.insert row hpk huk
        orderItems := db.orderItems ++ rows
        transitions := db.transitions ++ [(CreateOrderParams.audit p).toRow now] } := by
  unfold createOrder at h
  split at h
  · cases h
  · cases h
  · rename_i db₁ hinsert
    split at h
    · cases h
    · rename_i db₂ hitems
      split at h
      · cases h
      rename_i haudited
      obtain ⟨-, rfl⟩ := insertTransition_created_iff.mp haudited
      cases h
      obtain ⟨row, hrow, ⟨hids, -⟩ | ⟨-, hpk, huk, rfl⟩⟩ := insertOrder_eq_ok hinsert
      · cases hids
      · obtain ⟨rows, hrows, rfl⟩ := insertItems_eq_ok_iff.mp hitems
        exact ⟨row, rows, hpk, huk, hrow, hrows.imp fun _ _ h => h.1, rfl⟩

/-- The tables accept the order: its columns take its values, its keys are free, the
store and the menus it names exist, and its audit entry can say who has inserted it. -/
def Admits (db : Database) (p : CreateOrderParams) (now : Time) : Prop :=
  FitsVarchar p.workerId ∧ ∃ row rows, p.toRow now = .ok row ∧
    row.idempotencyKey ∉ db.orders.rows.map OrderRow.idempotencyKey ∧
    row.id ∉ db.orders.rows.map OrderRow.id ∧ row.storeId ∈ db.stores.map StoreRow.id ∧
    List.Forall₂ (fun item row => OrderItem.StoredAs p.id item row ∧
      row.menuId ∈ db.menus.map MenuRow.id) p.items rows

/-- An order is inserted exactly if the tables accept it. -/
theorem createOrder_ok_true_iff {p : CreateOrderParams} {now : Time} :
    (∃ db', db.createOrder p now = .ok (true, db')) ↔ db.Admits p now := by
  constructor
  · rintro ⟨db', h⟩
    unfold createOrder at h
    split at h
    · cases h
    · cases h
    · rename_i id ids db₁ hinsert
      split at h
      · cases h
      · rename_i db₂ hitems
        split at h
        · cases h
        rename_i haudited
        unfold insertOrder at hinsert
        split at hinsert
        · cases hinsert
        · rename_i row hrow
          split_ifs at hinsert with huk hpk hstore
          · cases hinsert
          · cases hinsert
            -- every statement of the transaction has succeeded
            obtain ⟨rows, hrows, -⟩ := insertItems_eq_ok_iff.mp hitems
            exact ⟨(insertTransition_created_iff.mp haudited).1, row, rows, hrow, huk, hpk, hstore,
              hrows⟩
  · -- nothing stands in the way of the three insertions
    rintro ⟨hworker, row, rows, hrow, huk, hpk, hstore, hrows⟩
    have hinsert : db.insertOrder p now =
        .ok ([row.id], { db with orders := db.orders.insert row hpk huk }) := by
      unfold insertOrder
      rw [hrow]
      simp only [dif_neg huk, dif_neg hpk, if_neg (not_not.mpr hstore)]
    have hitems : insertItems p.id p.items { db with orders := db.orders.insert row hpk huk } =
        .ok { db with orders := db.orders.insert row hpk huk, orderItems := db.orderItems ++ rows } :=
      insertItems_eq_ok_iff.mpr ⟨rows, hrows, rfl⟩
    refine ⟨{ db with
      orders := db.orders.insert row hpk huk
      orderItems := db.orderItems ++ rows
      transitions := db.transitions ++ [(CreateOrderParams.audit p).toRow now] }, ?_⟩
    unfold createOrder
    rw [hinsert]
    simp only [hitems, insertTransition_created_iff.mpr ⟨hworker, rfl⟩]

/-- A row is proposed exactly if each column takes its value. -/
theorem toRow_ok_iff {p : CreateOrderParams} {now : Time} :
    (∃ row, p.toRow now = .ok row) ↔
      (∃ key, varcharColumn p.idempotencyKey = .ok key) ∧
      (∃ traceId, varcharColumn p.traceId = .ok traceId) ∧
      (∃ storeId, uuidColumn p.storeId = .ok storeId) ∧
      (∃ userId, uuidColumn? p.userId = .ok userId) ∧
      (∃ requested, amountTextColumn p.requestedAmount = .ok requested) ∧
      ∃ calculated, amountTextColumn p.calculatedAmount = .ok calculated := by
  constructor
  · rintro ⟨row, hrow⟩
    have hstored := storedAs_of_toRow hrow
    exact ⟨⟨_, hstored.key⟩, ⟨_, hstored.traceId⟩, ⟨_, hstored.storeId⟩, ⟨_, hstored.userId⟩,
      ⟨_, hstored.requestedAmount⟩, ⟨_, hstored.calculatedAmount⟩⟩
  · rintro ⟨⟨key, hkey⟩, ⟨traceId, htrace⟩, ⟨storeId, hstore⟩, ⟨userId, huser⟩,
      ⟨requested, hrequested⟩, ⟨calculated, hcalculated⟩⟩
    unfold CreateOrderParams.toRow
    rw [hkey, htrace, hstore, huser, hrequested, hcalculated]
    exact ⟨_, rfl⟩

/-- A key is found if the column holds it as some row's key. -/
theorem isSome_findByKey?_iff {key stored : String} (h : varcharColumn key = .ok stored) :
    (db.findByKey? key).isSome ↔ stored ∈ db.orders.rows.map OrderRow.idempotencyKey := by
  unfold findByKey?
  rw [h]
  show (db.orders.findUnique? stored).isSome ↔ _
  rw [← not_iff_not, ← Relational.Table.findUnique?_eq_none_iff]
  simp

/-- **When `createOrder` does not fail**: its row can be proposed and the key is used, or the
tables accept the order. -/
theorem createOrder_ok_iff {p : CreateOrderParams} {now : Time} :
    (∃ result, db.createOrder p now = .ok result) ↔
      (∃ row, p.toRow now = .ok row) ∧
        ((db.findByKey? p.idempotencyKey).isSome ∨ db.Admits p now) := by
  constructor
  · rintro ⟨⟨inserted, db'⟩, h⟩
    cases inserted with
    | true =>
        have hadmits : db.Admits p now := createOrder_ok_true_iff.mp ⟨db', h⟩
        exact ⟨hadmits.2.imp fun _ ⟨_, hrow, _⟩ => hrow, .inr hadmits⟩
    | false =>
        obtain ⟨-, -, used, hfind⟩ | ⟨hinserted, -⟩ := createOrder_eq_ok h
        · refine ⟨?_, .inl (by rw [hfind]; rfl)⟩
          cases hrow : p.toRow now with
          | ok row => exact ⟨row, rfl⟩
          | error e =>
              unfold createOrder insertOrder at h
              rw [hrow] at h
              cases h
        · cases hinserted
  · rintro ⟨⟨row, hrow⟩, hfound | hadmits⟩
    · have hmem := (isSome_findByKey?_iff (storedAs_of_toRow hrow).key).mp hfound
      refine ⟨(false, db), ?_⟩
      unfold createOrder insertOrder
      rw [hrow]
      simp only [dif_pos hmem]
    · obtain ⟨db', h⟩ := createOrder_ok_true_iff.mpr hadmits
      exact ⟨_, h⟩

end Database

/-! ## Records -/

/-- What the database keeps under an order id.  Dispatches and failures are told by it. -/
@[ext] structure OrderRecord where
  row : Option OrderRow
  audits : List TransitionRow
  items : List OrderItemRow

/-- Nothing is kept. -/
def OrderRecord.none : OrderRecord := ⟨.none, [], []⟩

/-- The record once a transition is committed: the row is updated, and the audit log is one entry
longer. -/
def OrderRecord.moved (r : OrderRecord) (p : TransitionParams) (now : Time) : OrderRecord where
  row := r.row.map fun row => row.transition p now
  audits := r.audits ++ [(Database.TransitionParams.audit p).toRow now]
  items := r.items

namespace Database

variable {db db' : Database} {id : Uuid}

variable (db id) in
/-- What the database has on an order: its row, its audit entries and its items, the last two in the
order of their insertion. -/
def recordOf : OrderRecord where
  row := db.orders.find? id
  audits := db.transitions.filter fun t => t.orderId = id
  items := db.orderItems.filter fun item => item.orderId = id

/-- An update of another order's row. -/
theorem recordOf_modify_of_ne {k : Uuid} (hid : id ≠ k) (f : OrderRow → OrderRow)
    (hf : Relational.Table.KeepsKeys OrderRow.id OrderRow.idempotencyKey f) :
    ({ db with orders := db.orders.modify k f hf } : Database).recordOf id = db.recordOf id :=
  OrderRecord.ext (Relational.Table.find?_modify_of_ne _ hid _ hf) rfl rfl

/-- The item rows of an order are under its id. -/
theorem filter_storedAs {orderId : Uuid} {items : List OrderItem} {rows : List OrderItemRow}
    (h : List.Forall₂ (OrderItem.StoredAs orderId) items rows) (id : Uuid) :
    (rows.filter fun item => item.orderId = id) = if orderId = id then rows else [] := by
  induction h with
  | nil => simp
  | cons hstored _ ih =>
      rw [List.filter_cons, ih, hstored.orderId]
      by_cases hid : orderId = id
      · simp [hid]
      · simp [hid]

/-- **What an inserting `createOrder` makes of a record.** -/
theorem createOrder_recordOf {p : CreateOrderParams} {now : Time}
    (h : db.createOrder p now = .ok (true, db')) :
    (∃ row rows, p.toRow now = .ok row ∧ List.Forall₂ (OrderItem.StoredAs p.id) p.items rows ∧
      db'.recordOf p.id = ⟨some row,
        (db.recordOf p.id).audits ++ [(CreateOrderParams.audit p).toRow now],
        (db.recordOf p.id).items ++ rows⟩) ∧
    ∀ id, p.id ≠ id → db'.recordOf id = db.recordOf id := by
  obtain ⟨row, rows, hpk, huk, hrow, hrows, rfl⟩ := createOrder_eq_ok_true h
  have hid := (proposes_of_toRow hrow).id
  have hfind := Relational.Table.find?_insert db.orders row hpk huk
  have hitems := filter_storedAs hrows
  constructor
  · refine ⟨row, rows, hrow, hrows, OrderRecord.ext ?_ ?_ ?_⟩
    · exact (hfind p.id).trans (if_pos hid)
    · show List.filter _ (db.transitions ++ _) = _
      rw [List.filter_append]
      simp [AuditParams.toRow, CreateOrderParams.audit, recordOf]
    · show List.filter _ (db.orderItems ++ rows) = _
      rw [List.filter_append, hitems, if_pos rfl]
      rfl
  · intro id hne
    refine OrderRecord.ext ?_ ?_ ?_
    · exact (hfind id).trans (if_neg fun hrow => hne (hid.symm.trans hrow))
    · show List.filter _ (db.transitions ++ _) = _
      rw [List.filter_append]
      simp [AuditParams.toRow, CreateOrderParams.audit, recordOf, hne]
    · show List.filter _ (db.orderItems ++ rows) = _
      rw [List.filter_append, hitems, if_neg hne, List.append_nil]
      rfl

/-- **What a committed `transitionStatus` makes of a record.** -/
theorem transitionStatus_recordOf {p : TransitionParams} {now : Time}
    (h : db.transitionStatus p now = .ok db') :
    db'.recordOf p.orderId = (db.recordOf p.orderId).moved p now ∧
      ∀ id, p.orderId ≠ id → db'.recordOf id = db.recordOf id := by
  obtain ⟨s, row, -, -, hfind, -, -, rfl⟩ := transitionStatus_eq_ok h
  have hkeeps := transition_keepsKeys p now
  constructor
  · refine OrderRecord.ext ?_ ?_ rfl
    · exact Relational.Table.find?_modify_self db.orders p.orderId _ hkeeps
    · show List.filter _ (db.transitions ++ _) = _
      rw [List.filter_append]
      simp [AuditParams.toRow, TransitionParams.audit, recordOf, OrderRecord.moved]
  · intro id hne
    refine OrderRecord.ext ?_ ?_ rfl
    · exact Relational.Table.find?_modify_of_ne _ (Ne.symm hne) _ hkeeps
    · show List.filter _ (db.transitions ++ _) = _
      rw [List.filter_append]
      simp [AuditParams.toRow, TransitionParams.audit, recordOf, hne]

end Database

/-- The call writes under the order id.  Reads do not. -/
def RepoOp.Writes : RepoOp → Uuid → Prop
  | .createOrder p, id => p.id = id
  | .transitionStatus p, id => p.orderId = id
  | .findById _, _ => False
  | .markDlq orderId _, id => orderId = id
  | .incrementRetryCount orderId, id => orderId = id

/-- A call that does not write under an order id leaves its record. -/
theorem RepoOp.effect_recordOf {o : RepoOp} {id : Uuid} (ho : ¬ o.Writes id) (now : Time)
    (db : Database) : (o.effect now db).2.recordOf id = db.recordOf id := by
  cases o with
  | createOrder p =>
      show (settle db (db.createOrder p now)).2.recordOf id = _
      rcases hresult : db.createOrder p now with e | ⟨inserted, db'⟩
      · rfl
      · cases inserted with
        | true => exact (Database.createOrder_recordOf hresult).2 id ho
        | false =>
            obtain ⟨-, rfl, -⟩ | ⟨hinserted, -⟩ := Database.createOrder_eq_ok hresult
            · rfl
            · cases hinserted
  | transitionStatus p =>
      show (settle db (quietly (db.transitionStatus p now))).2.recordOf id = _
      rcases hresult : db.transitionStatus p now with e | db'
      · rfl
      · exact (Database.transitionStatus_recordOf hresult).2 id ho
  | findById orderId => rfl
  | markDlq orderId reason =>
      show (settle db (quietly (db.markDlq orderId reason now))).2.recordOf id = _
      cases hresult : db.markDlq orderId reason now with
      | error e => rfl
      | ok db' =>
          obtain ⟨-, rfl⟩ := Database.markDlq_eq_ok_iff.mp hresult
          exact Database.recordOf_modify_of_ne (Ne.symm ho) (fun row => row.sentToDlq reason now) _
  | incrementRetryCount orderId =>
      show (settle db (quietly (db.incrementRetryCount orderId))).2.recordOf id = _
      unfold Database.incrementRetryCount
      split
      · rfl
      · split
        · rfl
        · exact Database.recordOf_modify_of_ne (Ne.symm ho) OrderRow.retried _

end ChickenOrder
