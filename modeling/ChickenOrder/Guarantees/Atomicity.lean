import ChickenOrder.Database.AuditTrail
import ChickenOrder.Database.OrderRecord
import ChickenOrder.Database.OrderRepository

/-!
# `createOrder` at every failure position

`OrderRepository.createOrder` makes its calls one after the other, and each can be lost: at
positions 0 and 1 the connection and the transaction's start, then the statements, the commit,
the release and the read that follows it.  Before the commit every failure is rolled back.  A
commit that took effect and is not answered leaves the method as an exception, and so does a
read that fails behind an answered one: the order is stored, and the caller is told that it is
not.  `createOrderAtomic_iff` says that these are the only ways in which the method is not
atomic.

The method is run statement by statement, and each statement is answered, or is lost before or
after its effect.  `ran_statement` treats all statements alike, so that the case analysis is by
what has become of the transaction, not by the position at which it broke off.
-/

namespace ChickenOrder

open Interaction Interaction.Program

namespace OrderRepository

/-! ## Positions -/

section Positions

variable {choices : ℕ → RepoChoice} {db : Database} {now : Time}

/-- No call from position `n` up to `m` is lost.  Positions count the calls of the method, from the
connection on. -/
def Answered (choices : ℕ → RepoChoice) (n m : ℕ) : Prop :=
  ∀ k, n ≤ k → k < m → (choices k).fault = .none

theorem Answered.cons {n m : ℕ} (hn : (choices n).fault = .none) (h : Answered choices (n + 1) m) :
    Answered choices n m := by
  intro k hle hlt
  by_cases hk : k = n
  · rw [hk, hn]
  · exact h k (by omega) hlt

/-- The transaction at work on `work`. -/
def working (db : Database) (now : Time) (work : Database) : Session :=
  ⟨db, some ⟨now, work, false⟩⟩

/-- The `try` block has thrown in its transaction.  Which call it was no longer matters: what is
committed is still what it was before. -/
def Interrupted {α : Type} (db : Database) (r : Except OrderError α × ℕ × Session) : Prop :=
  ∃ e m t, r = (.error e, m, ⟨db, some t⟩)

/-- What follows an interrupted part is not run. -/
theorem Interrupted.bind {α β : Type} {p : SqlProgram α} {f : α → SqlProgram β} {n : ℕ} {s : Session}
    (h : Interrupted db (ran SqlOp.exec choices p n s)) :
    Interrupted db (ran SqlOp.exec choices (p >>= f) n s) := by
  obtain ⟨e, m, t, hran⟩ := h
  exact ⟨e, m, t, ran_bind_of_error hran⟩

/-- A call with a fixed answer is answered, or is lost before or after its effect. -/
theorem ran_roundTrip (choices : ℕ → RepoChoice) {o : SqlOp} {n : ℕ} {a : SqlOp.Reply o}
    {s s' : Session}
    (hexec : SqlOp.exec o (choices n) s = (choices n).fault.apply .other s (.ok a, s')) :
    ((choices n).fault = .none ∧
      ran SqlOp.exec choices (SqlOp.call o) n s = (.ok a, n + 1, s')) ∨
    (choices n).fault ≠ .none ∧ ∃ e t, (t = s ∨ t = s') ∧
      ran SqlOp.exec choices (SqlOp.call o) n s = (.error e, n + 1, t) := by
  rw [ran_perform, hexec]
  cases (choices n).fault with
  | none => exact .inl ⟨rfl, rfl⟩
  | rejected reason => exact .inr ⟨nofun, _, s, .inl rfl, rfl⟩
  | unacknowledged reason => exact .inr ⟨nofun, _, s', .inr rfl, rfl⟩

/-- A statement is answered and does its work, or it ends the transaction. -/
theorem ran_statement (choices : ℕ → RepoChoice) (db : Database) (now : Time) {o : SqlOp}
    {f : Time → Database → Except OrderError (SqlOp.Reply o × Database)}
    (hexec : ∀ c s, SqlOp.exec o c s = s.statement c.fault f) (n : ℕ) (work : Database) :
    ((choices n).fault = .none ∧ ∃ b work', f now work = .ok (b, work') ∧
      ran SqlOp.exec choices (SqlOp.call o) n (working db now work) =
        (.ok b, n + 1, working db now work')) ∨
    ((choices n).fault = .none → ∃ e, f now work = .error e) ∧
      Interrupted db (ran SqlOp.exec choices (SqlOp.call o) n (working db now work)) := by
  rw [ran_perform, hexec]
  cases hfault : (choices n).fault with
  | none =>
      cases hf : f now work with
      | ok bw =>
          refine .inl ⟨rfl, bw.1, bw.2, rfl, ?_⟩
          simp [working, Session.statement, hf]
      | error e =>
          refine .inr ⟨fun _ => ⟨e, rfl⟩, e, n + 1, ⟨now, work, true⟩, ?_⟩
          simp [working, Session.statement, Session.abort, hf]
  | rejected reason => exact .inr ⟨fun h => (by cases h), _, _, _, rfl⟩
  | unacknowledged reason => exact .inr ⟨fun h => (by cases h), _, _, _, rfl⟩

/-- A rollback ends the transaction, or fails and leaves it. -/
theorem ran_rollback (choices : ℕ → RepoChoice) (db : Database) (n : ℕ) (t : Transaction) :
    ran SqlOp.exec choices (SqlOp.call .rollbackTransaction) n ⟨db, some t⟩ =
        (.ok (), n + 1, ⟨db, none⟩) ∨
      ∃ e, ran SqlOp.exec choices (SqlOp.call .rollbackTransaction) n ⟨db, some t⟩ =
        (.error e, n + 1, ⟨db, some t⟩) := by
  rw [ran_perform, SqlOp.exec]
  cases (choices n).fault with
  | none => exact .inl rfl
  | rejected reason => exact .inr ⟨_, rfl⟩
  | unacknowledged reason => exact .inr ⟨_, rfl⟩

/-- The loop over the items. -/
theorem ran_insertItems (choices : ℕ → RepoChoice) (db : Database) (now : Time) (orderId : Uuid)
    (items : List OrderItem) (n : ℕ) (work : Database) :
    (Answered choices n (n + items.length) ∧
      ∃ work', Database.insertItems orderId items work = .ok work' ∧
        ran SqlOp.exec choices
            (forEach items fun item => SqlOp.call (.insertOrderItem orderId item)) n
            (working db now work) =
          (.ok (), n + items.length, working db now work')) ∨
    (Answered choices n (n + items.length) →
        ∃ e, Database.insertItems orderId items work = .error e) ∧
      Interrupted db (ran SqlOp.exec choices
        (forEach items fun item => SqlOp.call (.insertOrderItem orderId item)) n
        (working db now work)) := by
  -- on the items, each of which is one statement of the loop
  induction items generalizing n work with
  | nil => exact .inl ⟨fun k hle hlt => by simp at hlt; omega, work, rfl, rfl⟩
  | cons item rest ih =>
      rw [List.length_cons, forEach, Database.insertItems]
      obtain ⟨hfault, b, work₁, hitem, hran⟩ | ⟨hitem, hinterrupted⟩ :=
        ran_statement choices db now (o := .insertOrderItem orderId item)
          (f := fun _ db => quietly (db.insertOrderItem orderId item)) (fun _ _ => rfl) n work
      · rw [quietly_eq_ok] at hitem
        rw [hitem]
        have hbind := ran_bind_of_ok
          (f := fun _ => forEach rest fun item => SqlOp.call (.insertOrderItem orderId item)) hran
        have hlength : n + 1 + rest.length = n + (rest.length + 1) := by omega
        have hrest := ih (n + 1) work₁
        rw [hlength] at hrest
        obtain ⟨hanswered, work', hwork', hrest⟩ | ⟨hfails, hinterrupted⟩ := hrest
        · exact .inl ⟨.cons hfault hanswered, work', hwork', hbind.trans hrest⟩
        · refine .inr ⟨fun hanswered => hfails fun k hle hlt => hanswered k (by omega) hlt, ?_⟩
          obtain ⟨e, m, t, hrest⟩ := hinterrupted
          exact ⟨e, m, t, hbind.trans hrest⟩
      · -- an item that fails ends the loop, whatever the others are
        refine .inr ⟨fun hanswered => ?_, hinterrupted.bind⟩
        obtain ⟨e, he⟩ := hitem (hanswered n le_rfl (by omega))
        rw [quietly_eq_error] at he
        exact ⟨e, by rw [he]⟩

end Positions

/-! ## The body -/

/-- The position of the `COMMIT`, when the statements before it are answered. -/
def commitPosition (p : CreateOrderParams) : ℕ := 4 + p.items.length

/-- **The `try` block up to the commit.**  It gets there with what `Database.createOrder`
computes, or it throws in its transaction, or it finds the key used. -/
theorem ran_createOrderBody (p : CreateOrderParams) (db : Database) (choices : ℕ → RepoChoice)
    (now : Time) :
    (Answered choices 2 (commitPosition p) ∧ ∃ db', db.createOrder p now = .ok (true, db') ∧
      ran SqlOp.exec choices (createOrderBody p) 2 (working db now db) =
        ran SqlOp.exec choices (SqlOp.call .commitTransaction >>= fun _ => Pure.pure true)
          (commitPosition p) (working db now db')) ∨
    ¬ (Answered choices 2 (commitPosition p) ∧ ∃ db', db.createOrder p now = .ok (true, db')) ∧
      (Interrupted db (ran SqlOp.exec choices (createOrderBody p) 2 (working db now db)) ∨
        ∃ m, ran SqlOp.exec choices (createOrderBody p) 2 (working db now db) =
          (.ok false, m, ⟨db, none⟩)) := by
  unfold createOrderBody commitPosition
  obtain ⟨hfault, ids, work, hinsert, hran⟩ | ⟨hinsert, hinterrupted⟩ :=
    ran_statement choices db now (o := .insertOrder p)
      (f := fun now db => db.insertOrder p now) (fun _ _ => rfl) 2 db
  swap
  · -- the `INSERT` into `orders` fails
    refine .inr ⟨?_, .inl hinterrupted.bind⟩
    rintro ⟨hanswered, db', hcreate⟩
    obtain ⟨e, he⟩ := hinsert (hanswered 2 le_rfl (by omega))
    unfold Database.createOrder at hcreate
    rw [he] at hcreate
    cases hcreate
  rw [ran_bind_of_ok hran]
  cases ids with
  | nil =>
      -- the key is used
      have hduplicate : db.createOrder p now = .ok (false, db) := by
        unfold Database.createOrder
        rw [hinsert]
      have hwork : work = db := by
        obtain ⟨row, -, ⟨-, hwork, -⟩ | ⟨hids, -⟩⟩ := Database.insertOrder_eq_ok hinsert
        · exact hwork
        · cases hids
      refine .inr ⟨?_, ?_⟩
      · rintro ⟨-, db', hcreate⟩
        rw [hduplicate] at hcreate
        cases hcreate
      · obtain hrollback | ⟨e, hrollback⟩ := ran_rollback choices db 3
          ⟨now, work, false⟩
        · exact .inr ⟨4, ran_bind_of_ok hrollback⟩
        · exact .inl (Interrupted.bind ⟨e, 4, _, hrollback⟩)
  | cons id ids =>
      have hspec := Database.createOrder_of_inserted hinsert
      simp only [List.length_cons, Nat.add_one_ne_zero, if_false]
      obtain ⟨hanswered, work', hitems, hloop⟩ | ⟨hitems, hinterrupted⟩ :=
        ran_insertItems choices db now p.id p.items 3 work
      swap
      · -- one of the items fails
        refine .inr ⟨?_, .inl hinterrupted.bind⟩
        rintro ⟨hanswered, db', hcreate⟩
        obtain ⟨e, he⟩ := hitems fun k hle hlt => hanswered k (by omega) (by omega)
        rw [hspec, he] at hcreate
        cases hcreate
      rw [hitems] at hspec
      rw [ran_bind_of_ok hloop]
      obtain ⟨hfault', b, work'', haudit, hran'⟩ | ⟨haudit, hinterrupted⟩ :=
        ran_statement choices db now
          (o := .insertTransition (Database.CreateOrderParams.audit p))
          (f := fun now db => quietly (db.insertTransition (Database.CreateOrderParams.audit p) now))
          (fun _ _ => rfl) (3 + p.items.length) work'
      swap
      · -- the audit row fails
        refine .inr ⟨?_, .inl hinterrupted.bind⟩
        rintro ⟨hanswered', db', hcreate⟩
        obtain ⟨e, he⟩ := haudit (hanswered' _ (by omega) (by omega))
        simp only [hspec, quietly_eq_error.mp he] at hcreate
        cases hcreate
      simp only [quietly_eq_ok.mp haudit] at hspec
      refine .inl ⟨?_, _, hspec, ?_⟩
      · intro k hle hlt
        obtain rfl | hk | rfl : k = 2 ∨ (3 ≤ k ∧ k < 3 + p.items.length) ∨ k = 3 + p.items.length := by
          omega
        · exact hfault
        · exact hanswered k hk.1 hk.2
        · exact hfault'
      · rw [ran_bind_of_ok hran', show 3 + p.items.length + 1 = 4 + p.items.length by omega]

/-! ## The frame -/

section Frame

variable {α : Type} {body : SqlProgram α} {db : Database} {choices : ℕ → RepoChoice}

/-- The method gets to its `try` block in a transaction of its own, or throws and nothing has
happened. -/
theorem ran_inTransaction (body : SqlProgram α) (db : Database) (choices : ℕ → RepoChoice) :
    (Answered choices 0 2 ∧ ran SqlOp.exec choices (inTransaction body) 0 ⟨db, none⟩ =
      ran SqlOp.exec choices
        (tryFinally
          (tryCatch body fun err => SqlOp.call .rollbackTransaction >>= fun _ => Program.throw err)
          (SqlOp.call .release)) 2 (working db (choices 1).now db)) ∨
    ¬ Answered choices 0 2 ∧
      ∃ e m t, ran SqlOp.exec choices (inTransaction body) 0 ⟨db, none⟩ = (.error e, m, ⟨db, t⟩) := by
  unfold inTransaction
  obtain ⟨hfault, hconnect⟩ | ⟨hfault, e, s, hs, hconnect⟩ :=
    ran_roundTrip choices (o := .connect) (n := 0) (s := ⟨db, none⟩) rfl
  swap
  · refine .inr ⟨fun h => hfault (h 0 le_rfl (by omega)), e, 1, none, ran_bind_of_error ?_⟩
    obtain rfl | rfl := hs
    · exact hconnect
    · exact hconnect
  rw [ran_bind_of_ok hconnect]
  obtain ⟨hfault', hstart⟩ | ⟨hfault', e, s, hs, hstart⟩ :=
    ran_roundTrip choices (o := .startTransaction) (n := 1) (s := ⟨db, none⟩) rfl
  swap
  · refine .inr ⟨fun h => hfault' (h 1 (by omega) (by omega)), e, 2, s.transaction,
      ran_bind_of_error ?_⟩
    obtain rfl | rfl := hs
    · exact hstart
    · exact hstart
  refine .inl ⟨fun k _ hlt => ?_, ran_bind_of_ok hstart⟩
  obtain rfl | rfl : k = 0 ∨ k = 1 := by omega
  · exact hfault
  · exact hfault'

/-- The `finally` keeps what is committed. -/
theorem ran_release {r : Except OrderError α} {p : SqlProgram α} {n m : ℕ} {s s' : Session}
    (h : ran SqlOp.exec choices p n s = (r, m, s')) :
    ran SqlOp.exec choices (tryFinally p (SqlOp.call .release)) n s =
      (r, m + 1, ⟨s'.committed, none⟩) :=
  ran_tryFinally h (ran_perform _)

/-- A `try` block that returns. -/
theorem ran_inTransaction_of_ok (h : Answered choices 0 2) {a : α} {m : ℕ} {s : Session}
    (hbody : ran SqlOp.exec choices body 2 (working db (choices 1).now db) = (.ok a, m, s)) :
    ran SqlOp.exec choices (inTransaction body) 0 ⟨db, none⟩ =
      (.ok a, m + 1, ⟨s.committed, none⟩) := by
  obtain ⟨-, hran⟩ | ⟨hnot, -⟩ := ran_inTransaction body db choices
  swap
  · exact absurd h hnot
  rw [hran]
  exact ran_release (ran_tryCatch_of_ok hbody)

/-- A `try` block that throws: the rollback keeps what is committed, whether it succeeds or
not. -/
theorem ran_inTransaction_of_error (h : Answered choices 0 2) {e : OrderError} {m : ℕ} {s : Session}
    (hbody : ran SqlOp.exec choices body 2 (working db (choices 1).now db) = (.error e, m, s)) :
    ∃ e' m', ran SqlOp.exec choices (inTransaction body) 0 ⟨db, none⟩ =
      (.error e', m', ⟨s.committed, none⟩) := by
  obtain ⟨-, hran⟩ | ⟨hnot, -⟩ := ran_inTransaction body db choices
  swap
  · exact absurd h hnot
  rw [hran]
  have hcatch : ∃ e' m' t, ran SqlOp.exec choices
      (tryCatch body fun err => SqlOp.call .rollbackTransaction >>= fun _ => Program.throw err) 2
      (working db (choices 1).now db) = (.error e', m', ⟨s.committed, t⟩) := by
    rw [ran_tryCatch_of_error hbody]
    obtain ⟨committed, transaction⟩ := s
    cases transaction with
    | none =>
        refine ⟨transactionNotStarted, m + 1, none, ran_bind_of_error ?_⟩
        rw [ran_perform]
        cases hfault : (choices m).fault <;> simp [SqlOp.exec, Session.rollback]
    | some t =>
        obtain hrollback | ⟨e', hrollback⟩ := ran_rollback choices committed m t
        · exact ⟨e, m + 1, none, ran_bind_of_ok hrollback⟩
        · exact ⟨e', m + 1, some t, ran_bind_of_error hrollback⟩
  obtain ⟨e', m', t, hcatch⟩ := hcatch
  have hrelease := ran_release hcatch
  exact ⟨e', m' + 1, hrelease⟩

end Frame

end OrderRepository

/-! ## Atomicity -/

/-- The tables an order is written to are as they were. -/
def Database.SameOrders (db db' : Database) : Prop :=
  db'.orders = db.orders ∧ db'.orderItems = db.orderItems ∧ db'.transitions = db.transitions

/-- The tables have gained the order: its row, its items in their order, its audit row. -/
def Database.Gained (db db' : Database) (p : CreateOrderParams) (now : Time) : Prop :=
  ∃ row rows hpk huk, p.toRow now = .ok row ∧
    List.Forall₂ (OrderItem.StoredAs p.id) p.items rows ∧
    db'.orders = db.orders.insert row hpk huk ∧
    db'.orderItems = db.orderItems ++ rows ∧
    db'.transitions = db.transitions ++ [(Database.CreateOrderParams.audit p).toRow now]

/-- Tables that have gained an order are not what they were. -/
theorem Database.Gained.not_sameOrders {db db' : Database} {p : CreateOrderParams} {now : Time}
    (h : db.Gained db' p now) : ¬ db.SameOrders db' := by
  obtain ⟨row, rows, hpk, huk, -, -, -, -, htransitions⟩ := h
  rintro ⟨-, -, hsame⟩
  rw [hsame] at htransitions
  simpa using congrArg List.length htransitions

/-- What a successful transaction leaves has gained the order. -/
theorem Database.gained_of_createOrder {db db' : Database} {p : CreateOrderParams} {now : Time}
    (h : db.createOrder p now = .ok (true, db')) : db.Gained db' p now := by
  obtain ⟨row, rows, hpk, huk, hrow, hrows, rfl⟩ := createOrder_eq_ok_true h
  exact ⟨row, rows, hpk, huk, hrow, hrows, rfl, rfl, rfl⟩

/-- The order a read finds after the `INSERT`. -/
theorem Database.Gained.findOrder? {db db' : Database} {p : CreateOrderParams} {now : Time}
    (h : db.Gained db' p now) : (db'.findOrder? p.id).isSome := by
  obtain ⟨row, rows, hpk, huk, hrow, -, horders, -, -⟩ := h
  have hid := (proposes_of_toRow hrow).id
  have hfind := Relational.Table.find?_insert db.orders row hpk huk p.id
  rw [if_pos hid] at hfind
  unfold Database.findOrder?
  rw [horders, hfind]
  rfl

namespace OrderRepository

/-- **`createOrder` is atomic**: an order that is returned was added, and otherwise the tables
are as before. -/
def CreateOrderAtomic (p : CreateOrderParams) (db : Database) (choices : ℕ → RepoChoice) : Prop :=
  match run SqlOp.exec choices (createOrder p) 0 ⟨db, none⟩ with
  | (.ok (some _), s) => db.Gained s.committed p (choices 1).now
  | (_, s) => db.SameOrders s.committed

/-- The position of the read: behind the commit and the release of the connection, where the `catch`
block is no longer in charge. -/
def readPosition (p : CreateOrderParams) : ℕ := commitPosition p + 2

/-- The commit's acknowledgement is lost after it took effect, or the read behind it fails.  In both
cases the order is stored and the caller is told that something went wrong. -/
def LosesCommitted (p : CreateOrderParams) (choices : ℕ → RepoChoice) : Prop :=
  (∃ reason, (choices (commitPosition p)).fault = .unacknowledged reason) ∨
    (choices (commitPosition p)).fault = .none ∧ (choices (readPosition p)).fault ≠ .none

section Atomic

variable {p : CreateOrderParams} {db db' : Database} {choices : ℕ → RepoChoice}

/-- The end of the `try` block. -/
theorem ran_commit {n : ℕ} {now : Time} :
    ran SqlOp.exec choices (SqlOp.call .commitTransaction >>= fun _ => Pure.pure true) n
        (working db now db') =
      match (choices n).fault with
      | .rejected reason => (.error (.other reason), n + 1, working db now db')
      | .unacknowledged reason => (.error (.other reason), n + 1, working db' now db')
      | .none => (.ok true, n + 1, ⟨db', none⟩) := by
  have hcommit : ran SqlOp.exec choices (SqlOp.call .commitTransaction) n (working db now db') =
      (((working db now db').commit (choices n).fault).1, n + 1,
        ((working db now db').commit (choices n).fault).2) := ran_perform _
  cases hfault : (choices n).fault with
  | rejected reason =>
      rw [hfault] at hcommit
      exact ran_bind_of_error hcommit
  | unacknowledged reason =>
      rw [hfault] at hcommit
      exact ran_bind_of_error hcommit
  | none =>
      rw [hfault] at hcommit
      exact ran_bind_of_ok hcommit

/-- The read behind an inserting transaction. -/
theorem ran_read {m : ℕ} {s : Session}
    (hran : ran SqlOp.exec choices (inTransaction (createOrderBody p)) 0 ⟨db, none⟩ =
      (.ok true, m, s)) :
    ((choices m).fault = .none ∧ ran SqlOp.exec choices (createOrder p) 0 ⟨db, none⟩ =
      (.ok (s.committed.findOrder? p.id), m + 1, s)) ∨
    (choices m).fault ≠ .none ∧ ∃ e, ran SqlOp.exec choices (createOrder p) 0 ⟨db, none⟩ =
      (.error e, m + 1, s) := by
  have hbind := ran_bind_of_ok
    (f := fun inserted => if inserted then SqlOp.call (.findOne p.id) else Pure.pure none) hran
  have hexec : SqlOp.exec (.findOne p.id) (choices m) s =
      (choices m).fault.apply .other s (.ok (s.committed.findOrder? p.id), s) := rfl
  obtain ⟨hfault, hread⟩ | ⟨hfault, e, t, ht, hread⟩ := ran_roundTrip choices hexec
  · exact .inl ⟨hfault, hbind.trans hread⟩
  · obtain rfl : t = s := ht.elim id id
    exact .inr ⟨hfault, e, hbind.trans hread⟩

/-- A method that has returned an order should have added it, and one that has returned none should
have added nothing. -/
theorem createOrderAtomic_of_ok {a : Option OrderEntity} {s : Session} {m : ℕ}
    (hran : ran SqlOp.exec choices (createOrder p) 0 ⟨db, none⟩ = (.ok a, m, s)) :
    CreateOrderAtomic p db choices ↔
      if a.isSome then db.Gained s.committed p (choices 1).now else db.SameOrders s.committed := by
  unfold CreateOrderAtomic
  rw [run_eq_ran, hran]
  cases a with
  | none => rfl
  | some entity => rfl

/-- A method that has thrown should have added nothing. -/
theorem createOrderAtomic_of_error {e : OrderError} {s : Session} {m : ℕ}
    (hran : ran SqlOp.exec choices (createOrder p) 0 ⟨db, none⟩ = (.error e, m, s)) :
    CreateOrderAtomic p db choices ↔ db.SameOrders s.committed := by
  unfold CreateOrderAtomic
  rw [run_eq_ran, hran]

/-- The calls before the commit are the two that open the transaction and the statements. -/
theorem answered_commitPosition :
    Answered choices 0 (commitPosition p) ↔
      Answered choices 0 2 ∧ Answered choices 2 (commitPosition p) := by
  unfold Answered commitPosition
  constructor
  · intro h
    exact ⟨fun k hle hlt => h k hle (by omega), fun k hle hlt => h k (by omega) hlt⟩
  · rintro ⟨hstart, hrest⟩ k - hlt
    by_cases hk : k < 2
    · exact hstart k (by omega) hk
    · exact hrest k (by omega) hlt

/-- **`createOrder` is atomic unless its commit is lost on the way back.** That is, unless every
call before the commit is answered, the database admits the order, and then the acknowledgement or
the read behind it is lost. -/
theorem createOrderAtomic_iff (p : CreateOrderParams) (db : Database) (choices : ℕ → RepoChoice) :
    CreateOrderAtomic p db choices ↔
      ¬ (Answered choices 0 (commitPosition p) ∧ db.Admits p (choices 1).now ∧
        LosesCommitted p choices) := by
  have hsame : db.SameOrders db := ⟨rfl, rfl, rfl⟩
  rw [answered_commitPosition, ← Database.createOrder_ok_true_iff]
  -- an error of the transaction is the method's
  have herror : ∀ {e m s}, ran SqlOp.exec choices (inTransaction (createOrderBody p)) 0 ⟨db, none⟩ =
      (.error e, m, s) → (CreateOrderAtomic p db choices ↔ db.SameOrders s.committed) :=
    fun hran => createOrderAtomic_of_error (ran_bind_of_error hran)
  obtain ⟨hstarted, -⟩ | ⟨hstarted, e, m, t, hran⟩ :=
    ran_inTransaction (createOrderBody p) db choices
  swap
  · -- the transaction has not started
    have hatomic : CreateOrderAtomic p db choices := (herror hran).mpr hsame
    exact iff_of_true hatomic fun h => hstarted h.1.1
  obtain ⟨hanswered, db', hcreate, hbody⟩ | ⟨hnot, hrest⟩ :=
    ran_createOrderBody p db choices (choices 1).now
  swap
  · -- the `try` block does not get to its commit
    have hatomic : CreateOrderAtomic p db choices := by
      obtain ⟨e, m, t, hbody⟩ | ⟨m, hbody⟩ := hrest
      · obtain ⟨e', m', hran⟩ := ran_inTransaction_of_error hstarted hbody
        exact (herror hran).mpr hsame
      · have hran := ran_inTransaction_of_ok hstarted hbody
        exact (createOrderAtomic_of_ok (ran_bind_of_ok hran)).mpr hsame
    exact iff_of_true hatomic fun h => hnot ⟨h.1.2, h.2.1⟩
  have hgained := Database.gained_of_createOrder hcreate
  rw [ran_commit] at hbody
  cases hcommit : (choices (commitPosition p)).fault with
  | rejected reason =>
      rw [hcommit] at hbody
      obtain ⟨e', m', hran⟩ := ran_inTransaction_of_error hstarted hbody
      refine iff_of_true ((herror hran).mpr hsame) fun h => ?_
      obtain ⟨-, -, ⟨reason', hunacknowledged⟩ | ⟨hnone, -⟩⟩ := h
      · rw [hcommit] at hunacknowledged
        cases hunacknowledged
      · rw [hcommit] at hnone
        cases hnone
  | unacknowledged reason =>
      -- the order is stored and the transaction throws
      rw [hcommit] at hbody
      obtain ⟨e', m', hran⟩ := ran_inTransaction_of_error hstarted hbody
      refine iff_of_false (fun hatomic => hgained.not_sameOrders ((herror hran).mp hatomic)) ?_
      exact fun h => h ⟨⟨hstarted, hanswered⟩, ⟨db', hcreate⟩, .inl ⟨reason, hcommit⟩⟩
  | none =>
      rw [hcommit] at hbody
      obtain ⟨hread, hran⟩ | ⟨hread, e, hran⟩ :=
        ran_read (ran_inTransaction_of_ok hstarted hbody)
      · have hatomic : CreateOrderAtomic p db choices := by
          refine (createOrderAtomic_of_ok hran).mpr ?_
          rw [if_pos hgained.findOrder?]
          exact hgained
        refine iff_of_true hatomic fun h => ?_
        obtain ⟨-, -, ⟨reason', hunacknowledged⟩ | ⟨-, hlost⟩⟩ := h
        · rw [hcommit] at hunacknowledged
          cases hunacknowledged
        · exact hlost hread
      · -- the order is stored and the read throws
        refine iff_of_false
          (fun hatomic => hgained.not_sameOrders ((createOrderAtomic_of_error hran).mp hatomic)) ?_
        exact fun h => h ⟨⟨hstarted, hanswered⟩, ⟨db', hcreate⟩, .inr ⟨hcommit, hread⟩⟩

end Atomic

/-- The read behind the commit of an order with one item is lost. -/
def lostRead (n : ℕ) : RepoChoice := ⟨if n = 7 then .rejected "Connection terminated" else .none, 0⟩

/-- `createOrder` is not atomic: the order is stored, and the caller gets an exception. -/
theorem not_createOrderAtomic_of_lostRead :
    ¬ ∀ p db choices, CreateOrderAtomic p db choices := by
  intro h
  have hatomic := h seedOrder .seed lostRead
  unfold CreateOrderAtomic at hatomic
  have hfacts : (run SqlOp.exec lostRead (createOrder seedOrder) 0 ⟨.seed, none⟩).1.isOk = false ∧
      (run SqlOp.exec lostRead (createOrder seedOrder) 0
        ⟨.seed, none⟩).2.committed.transitions.length = 1 := by
    decide +kernel
  generalize run SqlOp.exec lostRead (createOrder seedOrder) 0 ⟨.seed, none⟩ = outcome
    at hatomic hfacts
  obtain ⟨result, s⟩ := outcome
  cases result with
  | ok a => exact absurd hfacts.1 Bool.noConfusion
  | error e =>
      obtain ⟨-, -, htransitions⟩ := hatomic
      rw [htransitions] at hfacts
      exact absurd hfacts.2 (by decide)

end OrderRepository

end ChickenOrder
