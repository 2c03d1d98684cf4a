import ChickenOrder.Domain.OrderJob
import ChickenOrder.Relational.Table

/-!
# The database after migration 007

Rows of the tables the order services touch, and the statements they send, as
functions on a database state.  Column types, `CHECK`s, keys and foreign keys
are the migrations'; a statement that violates one throws and, being one
statement, changes nothing.

`orders` is a `Relational.Table`, so every state satisfies the primary key and
`uq_orders_idempotency_key` by construction.

The columns that no modelled statement reads are left out, and so are indexes.  What a column
refuses is an error of the statement, with the reason that Postgres gives: the texts of the
reasons reach the log and the dead letter queue, so that they have to be right in kind, not in
wording.

Times are those of `NOW()`, which is the start of the transaction.
-/

namespace ChickenOrder

/-! ## Rows -/

/-- A row of `stores`, as far as the dispatch of an order reads it.  The type is a text, which the
adapter factory may not know. -/
structure StoreRow where
  id : Uuid
  posType : String
  posEndpoint : String
  posApiKeyEnc : Option String

/-- A row of `menus`.  `NUMERIC(10,2)` has the value `NaN`, which is `none` here: an upload whose
price is no number stores it, and `CHECK (unit_price >= 0)` lets it pass, as to Postgres `NaN` is
greater than every number. -/
structure MenuRow where
  id : Uuid
  storeId : Uuid
  name : String
  unitPrice : Option ℚ
  isAvailable : Bool
  category : Option String
  sortOrder : ℤ
  metadata : JsValue

/-- A row of `orders`.  The key of idempotency is unique in it beside the id, and `version` is what
the optimistic lock compares. -/
structure OrderRow where
  id : Uuid
  idempotencyKey : String
  traceId : String
  storeId : Uuid
  userId : Option Uuid
  status : RowStatus
  requestedAmount : ℚ
  calculatedAmount : ℚ
  version : ℤ
  posResponse : JsValue
  posErrorMessage : Option String
  retryCount : ℕ
  dlqAt : Option Time
  failureReason : Option String
  createdAt : Time
  queuedAt : Time
  savedAt : Option Time
  sentToPosAt : Option Time
  completedAt : Option Time
  failedAt : Option Time
  updatedAt : Option Time

/-- A row of `order_items`.  `subtotal` is a generated column, computed from two of the others.  The
price is that of the order, whatever the menu costs later. -/
structure OrderItemRow where
  orderId : Uuid
  menuId : Uuid
  menuName : String
  unitPrice : ℚ
  quantity : ℤ

/-- A row of `order_state_transitions`, the audit log.  Only the insert of an order has no status
before it. -/
structure TransitionRow where
  orderId : Uuid
  fromStatus : Option RowStatus
  toStatus : RowStatus
  workerId : String
  jobId : Option JobId
  reason : Option String
  transitionedAt : Time

/-- The table `orders`, with its primary key and the unique key of idempotency.  Both are kept by
the type. -/
abbrev OrdersTable := Relational.Table OrderRow.id OrderRow.idempotencyKey

/-- The tables of the order services.  Uploads replace menus; orders, items and audit entries are
there for ever, as no statement of the source deletes any. -/
structure Database where
  stores : List StoreRow
  menus : List MenuRow
  orders : OrdersTable
  orderItems : List OrderItemRow
  transitions : List TransitionRow

/-- The seed data of migration 001, and no orders. -/
def Database.seed : Database where
  stores :=
    [⟨⟨0x11111111111111111111111111111111⟩, "MODERN_V2", "http://pos-modern:8080", none⟩,
      ⟨⟨0x22222222222222222222222222222222⟩, "LEGACY_V1", "http://pos-legacy:8080", none⟩]
  menus :=
    [⟨⟨0xaaaaaaaaaaaaaaaaaaaaaaaaaaaaaaaa⟩, ⟨0x11111111111111111111111111111111⟩, "후라이드치킨",
        some 18000, true, none, 0, .object []⟩,
      ⟨⟨0xbbbbbbbbbbbbbbbbbbbbbbbbbbbbbbbb⟩, ⟨0x11111111111111111111111111111111⟩, "양념치킨",
        some 19000, true, none, 0, .object []⟩,
      ⟨⟨0xcccccccccccccccccccccccccccccccc⟩, ⟨0x22222222222222222222222222222222⟩, "간장치킨",
        some 20000, true, none, 0, .object []⟩]
  orders := .empty
  orderItems := []
  transitions := []

/-- An order with its items, as `findOne({ relations: ['items'] })` loads it.  The services never
see a row without them. -/
structure OrderEntity where
  row : OrderRow
  items : List OrderItemRow

/-- The largest value of type `INTEGER`. -/
def int4Max : ℤ := 2147483647

/-! ## Column input -/

/-- The error of a query Postgres rejects or that never reached it.  The services do not tell the
two apart. -/
def queryFailed (reason : String) : OrderError := .other reason

/-- The value that a column of type `uuid` reads of a text, or the error of the statement.  Postgres
prints it in lower case, however it was written. -/
def uuidColumn (s : String) : Except OrderError Uuid :=
  match Uuid.ofText? s with
  | some u => .ok u
  | none => .error (queryFailed "invalid input syntax for type uuid")

/-- A nullable `UUID` column. -/
def uuidColumn? : Option String → Except OrderError (Option Uuid)
  | none => .ok none
  | some s => (uuidColumn s).map some

/-- A `VARCHAR(n)` column: no NUL character, and at most `n` characters, where
blanks beyond them are cut off. -/
def varcharColumnOf (n : ℕ) (s : String) : Except OrderError String :=
  if Char.ofNat 0 ∈ s.toList then
    .error (queryFailed "invalid byte sequence for encoding UTF8")
  else if s.length ≤ n then .ok s
  else if (s.toList.drop n).all fun c => c = ' ' then .ok (String.ofList (s.toList.take n))
  else .error (queryFailed ("value too long for type character varying(" ++ toString n ++ ")"))

/-- A `VARCHAR(255)` column. -/
def varcharColumn (s : String) : Except OrderError String := varcharColumnOf 255 s

/-- A text that `VARCHAR(255)` takes: no NUL character, and only blanks beyond 255 characters.
These are cut off, as SQL has it. -/
def FitsVarchar (s : String) : Prop :=
  Char.ofNat 0 ∉ s.toList ∧ ∀ c ∈ s.toList.drop 255, c = ' '

instance (s : String) : Decidable (FitsVarchar s) :=
  inferInstanceAs (Decidable (Char.ofNat 0 ∉ s.toList ∧ ∀ c ∈ s.toList.drop 255, c = ' '))

/-- What `VARCHAR(255)` has of a text that it takes. -/
def varcharText (s : String) : String := String.ofList (s.toList.take 255)

/-- The column takes exactly the texts that fit it, and has their first 255 characters. -/
theorem varcharColumn_eq_ok_iff {s t : String} :
    varcharColumn s = .ok t ↔ FitsVarchar s ∧ t = varcharText s := by
  unfold varcharColumn varcharColumnOf FitsVarchar varcharText
  split
  · rename_i hnul
    simp [hnul]
  · rename_i hnul
    split
    · rename_i hlength
      have hall : s.toList.length ≤ 255 := String.length_toList.trans_le hlength
      simp [hnul, List.drop_eq_nil_of_le hall, List.take_of_length_le hall, eq_comm]
    · split
      · rename_i hblank
        have hfits : ∀ c ∈ s.toList.drop 255, c = ' ' := by simpa using hblank
        simp [hnul, and_iff_right hfits, eq_comm]
      · rename_i hblank
        have hlong : ¬ ∀ c ∈ s.toList.drop 255, c = ' ' := by simpa using hblank
        exact iff_of_false nofun fun h => hlong h.1.2

/-- A text that does not fit fails the statement. -/
theorem varcharColumn_of_not_fits {s : String} (h : ¬ FitsVarchar s) :
    ∃ message, varcharColumn s = .error (queryFailed message) := by
  cases hread : varcharColumn s with
  | ok t => exact absurd (varcharColumn_eq_ok_iff.mp hread).1 h
  | error e =>
      unfold varcharColumn varcharColumnOf at hread
      split at hread
      · cases hread
        exact ⟨_, rfl⟩
      · split at hread
        · cases hread
        · split at hread
          · cases hread
          · cases hread
            exact ⟨_, rfl⟩

/-- Whether the column takes a text does not depend on what it makes of it. -/
theorem varcharColumn_ok_iff {s : String} : (∃ t, varcharColumn s = .ok t) ↔ FitsVarchar s := by
  simp only [varcharColumn_eq_ok_iff, exists_and_left, exists_eq, and_true]

/-- A `TEXT` column: any length, and no NUL character. -/
def textColumn (s : String) : Except OrderError String :=
  if Char.ofNat 0 ∈ s.toList then .error (queryFailed "invalid byte sequence for encoding UTF8")
  else .ok s

/-- A nullable `TEXT` column. -/
def textColumn? : Option String → Except OrderError (Option String)
  | none => .ok none
  | some s => (textColumn s).map some

/-- A text that `TEXT` takes.  Postgres has no character NUL, which JSON and JavaScript have. -/
def FitsText (s : String) : Prop := Char.ofNat 0 ∉ s.toList

instance (s : String) : Decidable (FitsText s) :=
  inferInstanceAs (Decidable (Char.ofNat 0 ∉ s.toList))

/-- The column stores a text it takes as it is. -/
theorem textColumn_of_fits {s : String} (h : FitsText s) : textColumn s = .ok s := if_neg h

theorem eq_of_textColumn {s t : String} (h : textColumn s = .ok t) : s = t := by
  unfold textColumn at h
  split at h
  · cases h
  · exact Except.ok.inj h

/-- It refuses a text with the character NUL, as Postgres has no such text. -/
theorem textColumn_of_not_fits {s : String} (h : ¬ FitsText s) :
    textColumn s = .error (queryFailed "invalid byte sequence for encoding UTF8") :=
  if_pos (not_not.mp h)

/-- A `TEXT` column that may be `NULL` takes whatever is no such text. -/
theorem textColumn?_ok_iff {s? : Option String} :
    (∃ r, textColumn? s? = .ok r) ↔ ∀ s, s? = some s → FitsText s := by
  cases s? with
  | none => exact ⟨fun _ s h => (by cases h), fun _ => ⟨none, rfl⟩⟩
  | some s =>
      by_cases hfits : FitsText s
      · exact iff_of_true ⟨some s, by rw [textColumn?, textColumn_of_fits hfits]; rfl⟩
          fun s' h => Option.some.inj h ▸ hfits
      · refine iff_of_false (fun ⟨r, hr⟩ => ?_) fun h => hfits (h s rfl)
        rw [textColumn?, textColumn_of_not_fits hfits] at hr
        cases hr

/-- A `NUMERIC(10,2)` column with `CHECK (column >= 0)`, given a number.  It is rounded before it is
checked. -/
def amountColumn (q : ℚ) : Except OrderError ℚ :=
  if ¬ Decimal.FitsNumeric q then .error (queryFailed "numeric field overflow")
  else if Decimal.round2 q < 0 then .error (queryFailed "new row violates check constraint")
  else .ok (Decimal.round2 q)

/-- The same column, given a text. -/
def amountTextColumn (s : String) : Except OrderError ℚ :=
  match Decimal.ofText? s with
  | some q => amountColumn q
  | none => .error (queryFailed "invalid input syntax for type numeric")

/-- `quantity INTEGER NOT NULL CHECK (quantity > 0)`.  A number is sent as its text, and one with a
fraction is not read. -/
def quantityColumn : JsNumber → Except OrderError ℤ
  | .finite q =>
      if q.den ≠ 1 then .error (queryFailed "invalid input syntax for type integer")
      else if q.num < -int4Max - 1 ∨ int4Max < q.num then .error (queryFailed "integer out of range")
      else if q.num ≤ 0 then .error (queryFailed "new row violates check constraint")
      else .ok q.num
  | _ => .error (queryFailed "null value in column quantity violates not-null constraint")

/-- An `INTEGER` column, given the text of a number. -/
def integerColumn : JsNumber → Except OrderError ℤ
  | .finite q =>
      if q.den ≠ 1 then .error (queryFailed "invalid input syntax for type integer")
      else if q.num < -int4Max - 1 ∨ int4Max < q.num then .error (queryFailed "integer out of range")
      else .ok q.num
  | _ => .error (queryFailed "invalid input syntax for type integer")

mutual

/-- No string in the value has a NUL character, neither among the values nor among the names of
fields. -/
def JsValue.nulFree : JsValue → Bool
  | .string s => Char.ofNat 0 ∉ s.toList
  | .array elements => JsValue.nulFreeAll elements
  | .object fields => JsValue.nulFreeFields fields
  | _ => true

/-- No element has a text with the character NUL. -/
def JsValue.nulFreeAll : List JsValue → Bool
  | [] => true
  | v :: rest => v.nulFree && JsValue.nulFreeAll rest

/-- No field has one, neither in its name nor in its value. -/
def JsValue.nulFreeFields : List (String × JsValue) → Bool
  | [] => true
  | field :: rest => JsValue.nulFreeField field && JsValue.nulFreeFields rest

/-- Neither the name nor the value has one. -/
def JsValue.nulFreeField : String × JsValue → Bool
  | (name, v) => Char.ofNat 0 ∉ name.toList && v.nulFree

end

/-- A `JSONB` column: JSON has an escape for the NUL character, the column refuses it. -/
def jsonbColumn (v : JsValue) : Except OrderError JsValue :=
  if v.nulFree then .ok v
  else .error (queryFailed "unsupported Unicode escape sequence")

/-! ## Statements -/

/-- The parameters of `createOrder`, as texts: the statements read them into the types of the
columns, and fail where that is impossible. -/
structure CreateOrderParams where
  id : Uuid
  idempotencyKey : String
  traceId : String
  storeId : String
  userId : Option String
  requestedAmount : String
  calculatedAmount : String
  items : List OrderItem
  workerId : String
  jobId : JobId

/-- The row `INSERT INTO orders` proposes, if its columns accept the values.  Whether its keys are
free is asked later. -/
def CreateOrderParams.toRow (p : CreateOrderParams) (now : Time) : Except OrderError OrderRow := do
  let key ← varcharColumn p.idempotencyKey
  let traceId ← varcharColumn p.traceId
  let storeId ← uuidColumn p.storeId
  let userId ← uuidColumn? p.userId
  let requested ← amountTextColumn p.requestedAmount
  let calculated ← amountTextColumn p.calculatedAmount
  return {
    id := p.id
    idempotencyKey := key
    traceId := traceId
    storeId := storeId
    userId := userId
    status := .worker .queued
    requestedAmount := requested
    calculatedAmount := calculated
    version := 0
    posResponse := .undefined
    posErrorMessage := none
    retryCount := 0
    dlqAt := none
    failureReason := none
    createdAt := now
    queuedAt := now
    savedAt := none
    sentToPosAt := none
    completedAt := none
    failedAt := none
    updatedAt := none }

/-- The parameters of `transitionStatus`: the change, what it is based on, and what is written
beside the status.  An absent `posResponse` is `undefined`. -/
structure TransitionParams where
  orderId : Uuid
  expectedStatus : RowStatus
  nextStatus : OrderStatus
  currentVersion : ℤ
  workerId : String
  jobId : Option JobId
  reason : Option String
  posResponse : JsValue
  posErrorMessage : Option String

/-- What `insertTransition` is given: the two statuses, who has made the transition and for what
reason. -/
structure AuditParams where
  orderId : Uuid
  fromStatus : Option RowStatus
  toStatus : RowStatus
  workerId : String
  jobId : Option JobId
  reason : Option String

/-- The audit entry that is inserted at a time, as the columns have it. -/
def AuditParams.toRow (t : AuditParams) (now : Time) : TransitionRow :=
  ⟨t.orderId, t.fromStatus, t.toStatus, varcharText t.workerId, t.jobId, t.reason, now⟩

/-- `SET ${timestampColumn(next)} = NOW()`: every status of the worker has a column for the time it
was entered. -/
def OrderRow.stamp (row : OrderRow) (now : Time) : OrderStatus → OrderRow
  | .queued => { row with queuedAt := now }
  | .saved => { row with savedAt := some now }
  | .sentToPos => { row with sentToPosAt := some now }
  | .completed => { row with completedAt := some now }
  | .failed => { row with failedAt := some now }

/-- The time column of a status. -/
def OrderRow.stampOf (row : OrderRow) : OrderStatus → Option Time
  | .queued => some row.queuedAt
  | .saved => row.savedAt
  | .sentToPos => row.sentToPosAt
  | .completed => row.completedAt
  | .failed => row.failedAt

/-- A text parameter that is left out when it is missing or empty. -/
def truthyText? : Option String → Option String
  | some s => if s = "" then none else some s
  | none => none

/-- The parameters of the optional `SET` clauses, each read by its column's type.  Postgres
reads a statement's parameters before it looks for the row. -/
def TransitionParams.readExtras (p : TransitionParams) : Except OrderError Unit := do
  let _posResponse ← jsonbColumn p.posResponse
  let _posErrorMessage ← textColumn? (truthyText? p.posErrorMessage)
  let _reason ← textColumn? (truthyText? p.reason)
  return ()

/-- The texts of the statuses fit. -/
theorem fitsText_of_ofText? {s : String} {status : RowStatus}
    (h : RowStatus.ofText? s = some status) : FitsText s := by
  have htext : status.text = s := by simpa using List.find?_some h
  rw [← htext]
  cases status with
  | worker status => cases status <;> decide
  | pos status => cases status <;> decide

/-- The texts and the answer of a transition are such that the columns of its `UPDATE` take them.
They come from outside, so that this is not to be taken for granted. -/
structure TransitionParams.Readable (p : TransitionParams) : Prop where
  posResponse : p.posResponse.nulFree = true
  posErrorMessage : ∀ s, p.posErrorMessage = some s → FitsText s
  reason : ∀ s, p.reason = some s → FitsText s

/-- The columns of both statements take the parameters.  That of the audit entry has the worker's
id, which is made of the name of its host. -/
structure TransitionParams.Storable (p : TransitionParams) : Prop extends p.Readable where
  workerId : FitsVarchar p.workerId

/-- Leaving out an empty text leaves out none that a column refuses. -/
theorem fitsText_truthyText? {s? : Option String} :
    (∀ s, truthyText? s? = some s → FitsText s) ↔ ∀ s, s? = some s → FitsText s := by
  cases s? with
  | none => exact Iff.rfl
  | some s =>
      unfold truthyText?
      by_cases hs : s = ""
      · subst hs
        exact iff_of_true (by simp) fun s h => Option.some.inj h ▸ by decide
      · simp only [if_neg hs]

/-- The `UPDATE` reads its parameters exactly if their columns take them. -/
theorem TransitionParams.readExtras_eq_ok_iff {p : TransitionParams} :
    p.readExtras = .ok () ↔ p.Readable := by
  have htext : ∀ s?, (∃ r, textColumn? (truthyText? s?) = .ok r) ↔ ∀ s, s? = some s → FitsText s :=
    fun _ => textColumn?_ok_iff.trans fitsText_truthyText?
  have hmessage := htext p.posErrorMessage
  have hreason := htext p.reason
  unfold readExtras jsonbColumn
  cases hjson : p.posResponse.nulFree with
  | false => exact iff_of_false nofun fun h => absurd (hjson.symm.trans h.posResponse) nofun
  | true =>
      cases hm : textColumn? (truthyText? p.posErrorMessage) with
      | error e =>
          refine iff_of_false nofun fun h => ?_
          obtain ⟨r, hr⟩ := hmessage.mpr h.posErrorMessage
          rw [hm] at hr
          cases hr
      | ok m =>
          cases hr : textColumn? (truthyText? p.reason) with
          | error e =>
              refine iff_of_false nofun fun h => ?_
              obtain ⟨r, hread⟩ := hreason.mpr h.reason
              rw [hr] at hread
              cases hread
          | ok r => exact iff_of_true rfl ⟨hjson, hmessage.mp ⟨m, hm⟩, hreason.mp ⟨r, hr⟩⟩

/-- The optional `SET` clauses of a transition.  What is missing is left out of the statement, and
so is an empty text. -/
def OrderRow.setExtras (row : OrderRow) (p : TransitionParams) : OrderRow :=
  { row with
    posResponse := match p.posResponse with
      | .undefined => row.posResponse
      | v => v
    posErrorMessage := (truthyText? p.posErrorMessage).or row.posErrorMessage
    failureReason := (truthyText? p.reason).or row.failureReason }

/-- The row update of `transitionStatus`: the status, its time, the version, and what is optional.
-/
def OrderRow.transition (row : OrderRow) (p : TransitionParams) (now : Time) : OrderRow :=
  (OrderRow.stamp { row with status := p.nextStatus, version := row.version + 1 } now
    p.nextStatus).setExtras p

/-- `SET dlq_at = NOW(), failure_reason = $1`, whatever the status of the row is. -/
def OrderRow.sentToDlq (row : OrderRow) (reason : String) (now : Time) : OrderRow :=
  { row with dlqAt := some now, failureReason := some reason }

/-- `SET retry_count = retry_count + 1`. -/
def OrderRow.retried (row : OrderRow) : OrderRow := { row with retryCount := row.retryCount + 1 }

/-- `SET status = $1, updated_at = NOW()`.  The version stays, so that an optimistic lock does not
notice. -/
def OrderRow.patched (row : OrderRow) (status : RowStatus) (now : Time) : OrderRow :=
  { row with status := status, updatedAt := some now }

section RowUpdates

variable (row : OrderRow) (p : TransitionParams) (now : Time)

@[simp] theorem OrderRow.transition_id : (row.transition p now).id = row.id := by
  cases h : p.nextStatus <;> simp [transition, stamp, setExtras, h]

@[simp] theorem OrderRow.transition_idempotencyKey :
    (row.transition p now).idempotencyKey = row.idempotencyKey := by
  cases h : p.nextStatus <;> simp [transition, stamp, setExtras, h]

@[simp] theorem OrderRow.transition_status :
    (row.transition p now).status = p.nextStatus := by
  cases h : p.nextStatus <;> simp [transition, stamp, setExtras, h]

@[simp] theorem OrderRow.transition_version :
    (row.transition p now).version = row.version + 1 := by
  cases h : p.nextStatus <;> simp [transition, stamp, setExtras, h]

@[simp] theorem OrderRow.transition_dlqAt : (row.transition p now).dlqAt = row.dlqAt := by
  cases h : p.nextStatus <;> simp [transition, stamp, setExtras, h]

/-- A transition stamps the status it enters and no other. -/
theorem OrderRow.transition_stampOf (s : OrderStatus) :
    (row.transition p now).stampOf s = if p.nextStatus = s then some now else row.stampOf s := by
  cases h : p.nextStatus <;> cases s <;> simp [transition, stamp, setExtras, stampOf, h]

end RowUpdates

namespace Database

variable (db : Database)

/-- `findOne({ where: { id }, relations: ['items'] })`. -/
def findOrder? (id : Uuid) : Option OrderEntity :=
  (db.orders.find? id).map fun row => ⟨row, db.orderItems.filter fun item => item.orderId = id⟩

/-- `INSERT INTO orders … ON CONFLICT (idempotency_key) DO NOTHING RETURNING id`.  A conflict on the
primary key is an error, one on the other key is no row. -/
def insertOrder (p : CreateOrderParams) (now : Time) : Except OrderError (List Uuid × Database) :=
  match p.toRow now with
  | .error e => .error e
  | .ok row =>
      if huk : row.idempotencyKey ∈ db.orders.rows.map OrderRow.idempotencyKey then .ok ([], db)
      else if hpk : row.id ∈ db.orders.rows.map OrderRow.id then
        .error (queryFailed "duplicate key value violates unique constraint orders_pkey")
      else if row.storeId ∉ db.stores.map StoreRow.id then
        .error (queryFailed "insert on table orders violates foreign key constraint")
      else .ok ([row.id], { db with orders := db.orders.insert row hpk huk })

/-- `INSERT INTO order_items`.  The menu has to exist; its price is not compared with the item's. -/
def insertOrderItem (orderId : Uuid) (item : OrderItem) : Except OrderError Database := do
  let menuId ← uuidColumn item.menuId
  let menuName ← varcharColumn item.menuName
  let unitPrice ← amountColumn item.unitPrice
  let quantity ← quantityColumn item.quantity
  let _subtotal ← amountColumn (unitPrice * quantity)
  if menuId ∈ db.menus.map MenuRow.id then
    return { db with orderItems := db.orderItems ++ [⟨orderId, menuId, menuName, unitPrice, quantity⟩] }
  else
    .error (queryFailed "insert on table order_items violates foreign key constraint")

/-- `INSERT INTO order_state_transitions`, which fails for a worker's id that `worker_id` does not
take, or a reason that no `TEXT` column takes. -/
def insertTransition (t : AuditParams) (now : Time) : Except OrderError Database :=
  match varcharColumn t.workerId with
  | .error e => .error e
  | .ok _ =>
      match textColumn? t.reason with
      | .error e => .error e
      | .ok _ => .ok { db with transitions := db.transitions ++ [t.toRow now] }

/-- The row update of an `UPDATE orders` changes neither key. -/
theorem transition_keepsKeys (p : TransitionParams) (now : Time) :
    Relational.Table.KeepsKeys OrderRow.id OrderRow.idempotencyKey
      (fun row => row.transition p now) :=
  ⟨fun row => row.transition_id p now, fun row => row.transition_idempotencyKey p now⟩

/-- `UPDATE orders SET status … WHERE id AND status AND version`: the number of
updated rows.  A parameter its type refuses fails the statement whatever the row is. -/
def updateStatus (p : TransitionParams) (now : Time) : Except OrderError (ℕ × Database) :=
  match p.readExtras with
  | .error e => .error e
  | .ok () =>
      match db.orders.find? p.orderId with
      | none => .ok (0, db)
      | some row =>
          if row.status = p.expectedStatus ∧ row.version = p.currentVersion then
            if int4Max < row.version + 1 then .error (queryFailed "integer out of range")
            else .ok (1, { db with
              orders := db.orders.modify p.orderId (fun row => row.transition p now)
                (transition_keepsKeys p now) })
          else .ok (0, db)

/-- `UPDATE orders SET dlq_at = NOW(), failure_reason = $1 WHERE id = $2`, which fails for a
reason no `TEXT` column takes also where it would meet no row. -/
def markDlq (orderId : Uuid) (reason : String) (now : Time) : Except OrderError Database :=
  match textColumn reason with
  | .error e => .error e
  | .ok reason => .ok { db with
      orders := db.orders.modify orderId (fun row => row.sentToDlq reason now)
        ⟨fun _ => rfl, fun _ => rfl⟩ }

/-- The rows `findFailedOrders` lists: `WHERE status = 'FAILED' AND dlq_at IS NOT NULL`. -/
def findFailedOrders : List OrderRow :=
  db.orders.rows.filter fun row => row.status = .worker .failed ∧ row.dlqAt.isSome

/-- `UPDATE orders SET retry_count = retry_count + 1 WHERE id = $1`.  An order without a row is no
error. -/
def incrementRetryCount (orderId : Uuid) : Except OrderError Database :=
  match db.orders.find? orderId with
  | none => .ok db
  | some row =>
      if int4Max < (row.retryCount : ℤ) + 1 then .error (queryFailed "integer out of range")
      else .ok { db with
        orders := db.orders.modify orderId OrderRow.retried ⟨fun _ => rfl, fun _ => rfl⟩ }

/-- `UPDATE orders SET status = $1, updated_at = NOW() WHERE id = $2 RETURNING
store_id, status`: the two status handlers' statement.  The parameters are read
first; the row's `CHECK` is evaluated only if a row matches. -/
def patchStatus (status orderId : String) (now : Time) :
    Except OrderError (List (Uuid × RowStatus) × Database) :=
  match uuidColumn orderId, textColumn status with
  | .error e, _ => .error e
  | _, .error e => .error e
  | .ok id, .ok status =>
      match db.orders.find? id with
      | none => .ok ([], db)
      | some row =>
          match RowStatus.ofText? status with
          | none => .error (queryFailed "new row violates check constraint chk_order_status")
          | some next => .ok ([(row.storeId, next)], { db with
              orders := db.orders.modify id (fun row => row.patched next now)
                ⟨fun _ => rfl, fun _ => rfl⟩ })

/-- `SELECT pos_type, pos_endpoint, pos_api_key_enc FROM stores WHERE id = $1`. -/
def findStore (storeId : String) : Except OrderError (Option StoreRow) :=
  (uuidColumn storeId).map fun id => db.stores.find? fun store => store.id = id

/-- The row that holds an idempotency key, as the column stores the key: blanks beyond its length
are cut off. -/
def findByKey? (key : String) : Option OrderRow :=
  match varcharColumn key with
  | .ok stored => db.orders.findUnique? stored
  | .error _ => none

/-- A key leads to the row that stores it. -/
theorem findByKey?_eq_some_iff {db : Database} {key : String} {row : OrderRow} :
    db.findByKey? key = some row ↔
      varcharColumn key = .ok row.idempotencyKey ∧ db.orders.find? row.id = some row := by
  unfold findByKey?
  rw [Relational.Table.find?_eq_some_iff]
  cases hkey : varcharColumn key with
  | error e => simp
  | ok stored =>
      show db.orders.findUnique? stored = some row ↔ _
      rw [Relational.Table.findUnique?_eq_some_iff, Except.ok.injEq]
      constructor
      · rintro ⟨hmem, hstored⟩
        exact ⟨hstored.symm, hmem, rfl⟩
      · rintro ⟨hstored, hmem, -⟩
        exact ⟨hmem, hstored.symm⟩

/-- The status of an order, if it has a row. -/
def statusOf (id : Uuid) : Option RowStatus := (db.orders.find? id).map OrderRow.status

end Database

end ChickenOrder
