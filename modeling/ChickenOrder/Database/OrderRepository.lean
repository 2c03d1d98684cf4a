import ChickenOrder.Database.Transactions

/-!
# `OrderRepository`, statement by statement

The two transactional methods as the source writes them: a query runner, a
`try` whose `catch` rolls back and rethrows, a `finally` that releases.  A
`Session` is the runner's connection; inside a transaction statements work on a
private copy, the first failing statement aborts it, and a commit publishes it.
Every round trip can be lost.

`createOrder_refines` and `transitionStatus_refines` are the point of the
module: run alone under any faults, the methods end as their one-step versions
in `ChickenOrder.Database.Transactions` do under some faults of the same kinds.
-/

namespace ChickenOrder

open Interaction Interaction.Program

/-! ## Sessions -/

/-- A transaction in progress: the time that `NOW()` has in all of it, its own view of the tables,
and whether a statement of it has failed. -/
structure Transaction where
  now : Time
  work : Database
  aborted : Bool

/-- A query runner's connection: what is committed, and the open transaction if there is one. -/
structure Session where
  committed : Database
  transaction : Option Transaction

/-- What the query runner is asked to do.  Each is a round trip, and each of these can be lost. -/
inductive SqlOp
  | connect
  | startTransaction
  | insertOrder (p : CreateOrderParams)
  | insertOrderItem (orderId : Uuid) (item : OrderItem)
  | insertTransition (t : AuditParams)
  | updateStatus (p : TransitionParams)
  | commitTransaction
  | rollbackTransaction
  | release
  | findOne (id : Uuid)

/-- What a statement answers: the ids that `RETURNING` gives, the number of changed rows, the row
that was read, or nothing. -/
abbrev SqlOp.Reply : SqlOp → Type
  | .insertOrder _ => List Uuid
  | .updateStatus _ => ℕ
  | .findOne _ => Option OrderEntity
  | _ => Unit

/-- What TypeORM throws on a commit or a rollback outside a transaction, before it asks the
database. -/
def transactionNotStarted : OrderError :=
  .other "Transaction is not started yet, start transaction before committing or rolling it back."

namespace Session

/-- After a failed statement only a rollback is accepted.  Postgres answers anything else with an
error. -/
def abort (s : Session) : Session :=
  { s with transaction := s.transaction.map fun t => { t with aborted := true } }

/-- One statement of the open transaction.  It works on the transaction's view; if it fails, the
transaction is aborted. -/
def statement {β : Type} (s : Session) (fault : Fault String)
    (f : Time → Database → Except OrderError (β × Database)) : Except OrderError β × Session :=
  match s.transaction, fault with
  | none, _ => (.error (queryFailed "there is no transaction in progress"), s)
  | some _, .rejected m => (.error (.other m), s.abort)
  | some _, .unacknowledged m => (.error (.other m), s.abort)
  | some t, .none =>
      if t.aborted then (.error (queryFailed "current transaction is aborted"), s)
      else match f t.now t.work with
        | .ok (b, work) => (.ok b, { s with transaction := some { t with work := work } })
        | .error e => (.error e, s.abort)

/-- `COMMIT`; of an aborted transaction it is a rollback, which Postgres reports as a success. -/
def commit (s : Session) (fault : Fault String) : Except OrderError Unit × Session :=
  match s.transaction, fault with
  | none, _ => (.error transactionNotStarted, s)
  | some _, .rejected m => (.error (.other m), s)
  | some t, .unacknowledged m =>
      (.error (.other m), { s with committed := if t.aborted then s.committed else t.work })
  | some t, .none => (.ok (), ⟨if t.aborted then s.committed else t.work, none⟩)

/-- `rollbackTransaction`.  Without an open transaction it throws, and if it is lost either way the
connection keeps the transaction, which nobody will commit. -/
def rollback (s : Session) (fault : Fault String) : Except OrderError Unit × Session :=
  match s.transaction, fault with
  | none, _ => (.error transactionNotStarted, s)
  | some _, .rejected m => (.error (.other m), s)
  | some _, .unacknowledged m => (.error (.other m), s)
  | some _, .none => (.ok (), { s with transaction := none })

end Session

/-- A statement on the session.  Every one of them can be lost, and outside a transaction a
statement that writes takes effect at once. -/
def SqlOp.exec : (o : SqlOp) → RepoChoice → Session → Except OrderError (Reply o) × Session
  | .connect, c, s => c.fault.apply .other s (.ok (), s)
  | .startTransaction, c, s =>
      c.fault.apply .other s (.ok (), { s with transaction := some ⟨c.now, s.committed, false⟩ })
  | .insertOrder p, c, s => s.statement c.fault fun now db => db.insertOrder p now
  | .insertOrderItem orderId item, c, s =>
      s.statement c.fault fun _ db => quietly (db.insertOrderItem orderId item)
  | .insertTransition t, c, s =>
      s.statement c.fault fun now db => quietly (db.insertTransition t now)
  | .updateStatus p, c, s => s.statement c.fault fun now db => db.updateStatus p now
  | .commitTransaction, c, s => s.commit c.fault
  | .rollbackTransaction, c, s => s.rollback c.fault
  | .release, _, s => (.ok (), { s with transaction := none })
  | .findOne id, c, s => c.fault.apply .other s (.ok (s.committed.findOrder? id), s)

/-! ## The source's methods -/

/-- A program of such statements. -/
abbrev SqlProgram := Program SqlOp.Reply OrderError

/-- One round trip of the query runner. -/
abbrev SqlOp.call (o : SqlOp) : SqlProgram (Reply o) := Program.perform o

namespace OrderRepository

/-- The frame both methods share: the transaction, the rollback of its `catch`
and the release of its `finally`. -/
def inTransaction {α : Type} (body : SqlProgram α) : SqlProgram α := do
  SqlOp.call .connect
  SqlOp.call .startTransaction
  tryFinally
    (tryCatch body fun err => do
      SqlOp.call .rollbackTransaction
      Program.throw err)
    (SqlOp.call .release)

/-- The `try` block of `createOrder`: whether it inserted the order and committed.  For a key that
is taken it commits, too, with nothing to write. -/
def createOrderBody (p : CreateOrderParams) : SqlProgram Bool := do
  let result ← SqlOp.call (.insertOrder p)
  if result.length = 0 then
    SqlOp.call .rollbackTransaction
    return false
  else
    Program.forEach p.items fun item => SqlOp.call (.insertOrderItem p.id item)
    SqlOp.call (.insertTransition (Database.CreateOrderParams.audit p))
    SqlOp.call .commitTransaction
    return true

/-- `OrderRepository.createOrder`.  The source returns the promise of the read from inside the
`try`, without `await`: the `catch` is behind it when it settles, so a read that fails is not
answered by a rollback, and its own error leaves the method. -/
def createOrder (p : CreateOrderParams) : SqlProgram (Option OrderEntity) := do
  let inserted ← inTransaction (createOrderBody p)
  if inserted then SqlOp.call (.findOne p.id) else return none

/-- The `try` block of `transitionStatus`.  The state machine is asked before the first statement.
An `UPDATE` without a row is a lost race. -/
def transitionStatusBody (p : TransitionParams) : SqlProgram Unit :=
  match OrderStateMachine.validate p.expectedStatus p.nextStatus false with
  | .error e => Program.throw e
  | .ok () => do
      let rowCount ← SqlOp.call (.updateStatus p)
      if rowCount = 0 then
        Program.throw (.staleOrderVersion p.orderId.toText p.currentVersion)
      else
        SqlOp.call (.insertTransition (Database.TransitionParams.audit p))
        SqlOp.call .commitTransaction

/-- `OrderRepository.transitionStatus`. -/
def transitionStatus (p : TransitionParams) : SqlProgram Unit :=
  inTransaction (transitionStatusBody p)

/-! ## Refinement -/

section Refinement

variable {r u : Prop}

/-- The steps of a session whose calls are rejected only if `r` and lose their answer only if `u`.
The two are kept apart, as claims differ in them. -/
abbrev SessionStep (r u : Prop) :=
  Program.Executes SqlOp.exec fun _ c => c.fault.Within r u

/-- No restriction on the calls a method makes. -/
abbrev anyCall : SqlOp → Session → Prop := fun _ _ => True

/-- `result` with the database `db'` is an outcome of the one-step program
`prog` from `db`, under faults of the same kinds. -/
def Reproduced {α : Type} (r u : Prop) (prog : RepoProgram α) (db : Database)
    (result : Except OrderError α) (db' : Database) : Prop :=
  ∃ choices : ℕ → RepoChoice, (∀ n, (choices n).fault.Within r u) ∧
    Program.run RepoOp.exec choices prog 0 db = (result, db')

/-- A round trip that always has an answer: it is answered or lost. -/
theorem wp_roundTrip (hru : u → r) {o : SqlOp} {a : SqlOp.Reply o} {g : Time → Session}
    {Q : SqlOp.Reply o → Session → Prop} {E : OrderError → Session → Prop} {s : Session}
    (hexec : ∀ c, SqlOp.exec o c s = c.fault.apply .other s (.ok a, g c.now))
    (hok : ∀ now, Q a (g now))
    (herror : r → ∀ m now, E (.other m) s ∧ E (.other m) (g now)) :
    (SqlOp.call o).wp (SessionStep r u) anyCall Q E s := by
  refine (wp_perform_executes _).mpr ⟨trivial, ?_⟩
  rintro ⟨fault, now⟩ hfault
  rw [hexec]
  cases fault with
  | none => exact hok now
  | rejected m => exact (herror hfault m now).1
  | unacknowledged m => exact (herror (hru hfault) m now).2

/-- A statement of the open transaction does its work or aborts the transaction.  Lost before or
after, it throws. -/
theorem wp_statement (hru : u → r) {o : SqlOp}
    {f : Time → Database → Except OrderError (SqlOp.Reply o × Database)}
    (hexec : ∀ c s, SqlOp.exec o c s = s.statement c.fault f)
    {Q : SqlOp.Reply o → Session → Prop} {E : OrderError → Session → Prop}
    {db work : Database} {now : Time}
    (hok : ∀ b work', f now work = .ok (b, work') → Q b ⟨db, some ⟨now, work', false⟩⟩)
    (herror : ∀ e, (f now work = .error e ∨ r ∧ ∃ m, e = .other m) →
      E e ⟨db, some ⟨now, work, true⟩⟩) :
    (SqlOp.call o).wp (SessionStep r u) anyCall Q E ⟨db, some ⟨now, work, false⟩⟩ := by
  refine (wp_perform_executes _).mpr ⟨trivial, ?_⟩
  rintro ⟨fault, time⟩ hfault
  rw [hexec]
  cases fault with
  | rejected m => exact herror _ (.inr ⟨hfault, m, rfl⟩)
  | unacknowledged m => exact herror _ (.inr ⟨hru hfault, m, rfl⟩)
  | none =>
      cases hf : f now work with
      | error e =>
          simp only [Session.statement, hf]
          exact herror _ (.inl hf)
      | ok bw =>
          simp only [Session.statement, hf]
          exact hok _ _ hf

/-- A rollback changes nothing that was committed, whether it succeeds or throws. -/
theorem wp_rollback (hru : u → r) {Q : Unit → Session → Prop} {E : OrderError → Session → Prop}
    {s : Session} (hok : s.transaction.isSome → Q () { s with transaction := none })
    (hnone : s.transaction = none → E transactionNotStarted s)
    (herror : s.transaction.isSome → r → ∀ m, E (.other m) s) :
    (SqlOp.call .rollbackTransaction).wp (SessionStep r u) anyCall Q E s := by
  refine (wp_perform_executes _).mpr ⟨trivial, ?_⟩
  rintro ⟨fault, time⟩ hfault
  obtain ⟨committed, transaction⟩ := s
  cases transaction with
  | none => exact hnone rfl
  | some t =>
      cases fault with
      | none => exact hok rfl
      | rejected m => exact herror rfl hfault m
      | unacknowledged m => exact herror rfl (hru hfault) m

/-- A release never fails. -/
theorem wp_release {Q : Unit → Session → Prop} {E : OrderError → Session → Prop} {s : Session}
    (hok : Q () { s with transaction := none }) :
    (SqlOp.call .release).wp (SessionStep r u) anyCall Q E s :=
  (wp_perform_executes _).mpr ⟨trivial, fun _ _ => hok⟩

/-- A commit publishes the transaction's work, or fails before or after.  The caller cannot tell the
last two apart. -/
theorem wp_commit {Q : Unit → Session → Prop} {E : OrderError → Session → Prop}
    {db work : Database} {now : Time} (hok : Q () ⟨work, none⟩)
    (hrejected : r → ∀ m, E (.other m) ⟨db, some ⟨now, work, false⟩⟩)
    (hlost : u → ∀ m, E (.other m) ⟨work, some ⟨now, work, false⟩⟩) :
    (SqlOp.call .commitTransaction).wp (SessionStep r u) anyCall Q E
      ⟨db, some ⟨now, work, false⟩⟩ := by
  refine (wp_perform_executes _).mpr ⟨trivial, ?_⟩
  rintro ⟨fault, time⟩ hfault
  cases fault with
  | none => exact hok
  | rejected m => exact hrejected hfault m
  | unacknowledged m => exact hlost hfault m

/-- What is left to show when a `try` block throws: the outcome if the rollback
succeeds, and if it fails in turn. -/
def Stopped {α : Type} (r : Prop) (R : Except OrderError α → Database → Prop)
    (e : OrderError) (s : Session) : Prop :=
  match s.transaction with
  | some _ => R (.error e) s.committed ∧ (r → ∀ m, R (.error (.other m)) s.committed)
  | none => R (.error transactionNotStarted) s.committed

/-- The shared frame: what it takes for every outcome of a method to satisfy `R`.  The rollback and
the release are dealt with here, once. -/
theorem wp_inTransaction {α : Type} (hru : u → r) {body : SqlProgram α} {db : Database}
    {R : Except OrderError α → Database → Prop} (hlost : r → ∀ m, R (.error (.other m)) db)
    (hbody : ∀ now, body.wp (SessionStep r u) anyCall (fun a s => R (.ok a) s.committed)
      (Stopped r R) ⟨db, some ⟨now, db, false⟩⟩) :
    (inTransaction body).wp (SessionStep r u) anyCall (fun a s => R (.ok a) s.committed)
      (fun e s => R (.error e) s.committed) ⟨db, none⟩ := by
  unfold inTransaction
  rw [wp_bind]
  refine wp_roundTrip hru (g := fun _ => ⟨db, none⟩) (fun _ => rfl) (fun _ => ?_)
    (fun hr m _ => ⟨hlost hr m, hlost hr m⟩)
  rw [wp_bind]
  refine wp_roundTrip hru (g := fun now => ⟨db, some ⟨now, db, false⟩⟩) (fun _ => rfl)
    (fun now => ?_) (fun hr m _ => ⟨hlost hr m, hlost hr m⟩)
  rw [wp_tryFinally, wp_tryCatch]
  refine wp_mono _ _ (fun a s ha => wp_release ha) (fun e s hstopped => ?_) (hbody now)
  rw [wp_bind]
  unfold Stopped at hstopped
  refine wp_rollback hru (fun hsome => wp_release ?_) (fun hnone => wp_release ?_)
    (fun hsome hr m => wp_release ?_)
  · obtain ⟨t, ht⟩ := Option.isSome_iff_exists.mp hsome
    rw [ht] at hstopped
    exact hstopped.1
  · rw [hnone] at hstopped
    exact hstopped
  · obtain ⟨t, ht⟩ := Option.isSome_iff_exists.mp hsome
    rw [ht] at hstopped
    exact hstopped.2 hr m

/-! ### `createOrder` -/

section CreateOrder

variable {p : CreateOrderParams} {db db' : Database} {now : Time}

/-- The one-step `createOrder` under the choices `first` for the transaction and
`second` for the read. -/
private theorem reproduced_createOrder (first second : RepoChoice)
    {result : Except OrderError (Option OrderEntity)}
    (hfirst : first.fault.Within r u) (hsecond : second.fault.Within r u)
    (hrun : Program.run RepoOp.exec (fun n => if n = 0 then first else second)
      (AtomicRepository.createOrder p) 0 db = (result, db')) :
    Reproduced r u (AtomicRepository.createOrder p) db result db' := by
  refine ⟨_, fun n => ?_, hrun⟩
  show Fault.Within r u (if n = 0 then first else second).fault
  split
  · exact hfirst
  · exact hsecond

/-- The one step can be lost before it does anything, as the program can at any of its first
statements. -/
theorem createOrder_lost (hr : r) (m : String) :
    Reproduced r u (AtomicRepository.createOrder p) db (.error (.other m)) db :=
  reproduced_createOrder ⟨.rejected m, 0⟩ ⟨.rejected m, 0⟩ hr hr
    (Program.run_bind_of_error _ rfl)

/-- It fails with the error of a statement, and leaves the database as it was. -/
theorem createOrder_failed {e : OrderError} (h : db.createOrder p now = .error e) :
    Reproduced r u (AtomicRepository.createOrder p) db (.error e) db := by
  refine reproduced_createOrder ⟨.none, now⟩ ⟨.none, now⟩ trivial trivial
    (Program.run_bind_of_error _ ?_)
  show settle db (db.createOrder p now) = _
  rw [h]
  rfl

/-- It returns no order where the key is taken. -/
theorem createOrder_duplicate (h : db.createOrder p now = .ok (false, db')) :
    Reproduced r u (AtomicRepository.createOrder p) db (.ok none) db' := by
  refine reproduced_createOrder ⟨.none, now⟩ ⟨.none, now⟩ trivial trivial
    ((Program.run_bind_of_ok _ false db' ?_).trans rfl)
  show settle db (db.createOrder p now) = _
  rw [h]
  rfl

/-- Its answer can be lost once it has inserted the order, as the answer to the `COMMIT` can. -/
theorem createOrder_commitLost (hu : u) (h : db.createOrder p now = .ok (true, db')) (m : String) :
    Reproduced r u (AtomicRepository.createOrder p) db (.error (.other m)) db' := by
  refine reproduced_createOrder ⟨.unacknowledged m, now⟩ ⟨.unacknowledged m, now⟩ hu hu
    (Program.run_bind_of_error _ ?_)
  show ((.error (.other m) : Except OrderError Bool), (settle db (db.createOrder p now)).2) = _
  rw [h]
  rfl

/-- It returns the order that it has inserted, as a read afterwards finds it, if nothing was lost.
-/
theorem createOrder_inserted (h : db.createOrder p now = .ok (true, db')) :
    Reproduced r u (AtomicRepository.createOrder p) db (.ok (db'.findOrder? p.id)) db' := by
  refine reproduced_createOrder ⟨.none, now⟩ ⟨.none, now⟩ trivial trivial
    ((Program.run_bind_of_ok _ true db' ?_).trans rfl)
  show settle db (db.createOrder p now) = _
  rw [h]
  rfl

/-- The read behind the `COMMIT` can fail, and the order is inserted all the same. -/
theorem createOrder_readLost (hr : r) (h : db.createOrder p now = .ok (true, db')) (m : String) :
    Reproduced r u (AtomicRepository.createOrder p) db (.error (.other m)) db' := by
  refine reproduced_createOrder ⟨.none, now⟩ ⟨.rejected m, now⟩ trivial hr
    ((Program.run_bind_of_ok _ true db' ?_).trans rfl)
  show settle db (db.createOrder p now) = _
  rw [h]
  rfl

/-- What the transaction of `createOrder` has come to: an insert, or an outcome of the one-step
version. -/
def Transacted (r u : Prop) (p : CreateOrderParams) (db : Database) :
    Except OrderError Bool → Database → Prop
  | .ok true, db' => ∃ now, db.createOrder p now = .ok (true, db')
  | .ok false, db' => Reproduced r u (AtomicRepository.createOrder p) db (.ok none) db'
  | .error e, db' => Reproduced r u (AtomicRepository.createOrder p) db (.error e) db'

/-- The `try` block of `createOrder`, from the start of its transaction, statement by statement. -/
theorem wp_createOrderBody (hru : u → r) (p : CreateOrderParams) (db : Database) (now : Time) :
    (createOrderBody p).wp (SessionStep r u) anyCall
      (fun a s => Transacted r u p db (.ok a) s.committed) (Stopped r (Transacted r u p db))
      ⟨db, some ⟨now, db, false⟩⟩ := by
  -- before the commit every error leaves `db`, whatever the working copy is
  have hstop : ∀ {e : OrderError} {work : Database} {aborted : Bool},
      (db.createOrder p now = .error e ∨ r ∧ ∃ m, e = .other m) →
      Stopped r (Transacted r u p db) e ⟨db, some ⟨now, work, aborted⟩⟩ := by
    rintro e work aborted (hspec | ⟨hr, m, rfl⟩)
    · exact ⟨createOrder_failed hspec, fun hr m => createOrder_lost hr m⟩
    · exact ⟨createOrder_lost hr m, fun hr m => createOrder_lost hr m⟩
  unfold createOrderBody
  rw [wp_bind]
  refine wp_statement hru (o := .insertOrder p) (f := fun now db => db.insertOrder p now) (fun _ _ => rfl)
    (fun ids work hinsert => ?_) ?_
  · rw [wp_ite]
    constructor
    · intro hempty
      have hids : ids = [] := List.length_eq_zero_iff.mp hempty
      subst hids
      have hspec : db.createOrder p now = .ok (false, db) := by
        unfold Database.createOrder
        rw [hinsert]
      rw [wp_bind]
      refine wp_rollback hru (fun _ => createOrder_duplicate hspec) (fun h => by cases h)
        (fun _ hr m => hstop (.inr ⟨hr, m, rfl⟩))
    · intro hnonempty
      obtain ⟨id, ids, rfl⟩ := List.exists_cons_of_ne_nil (fun hnil => hnonempty (congrArg _ hnil))
      have hspec := Database.createOrder_of_inserted hinsert
      rw [wp_bind]
      -- the loop keeps the working copy on the way to what `insertItems` computes
      refine wp_mono _ _ ?_ (fun _ _ h => h) (wp_forEach _ _ _
        (fun rest s => ∃ current, s = ⟨db, some ⟨now, current, false⟩⟩ ∧
          Database.insertItems p.id p.items work = Database.insertItems p.id rest current) _
        ?_ p.items _ ⟨work, rfl, rfl⟩)
      · rintro ⟨⟩ s ⟨current, rfl, hitems⟩
        rw [hitems] at hspec
        rw [wp_bind]
        refine wp_statement hru (o := .insertTransition (Database.CreateOrderParams.audit p))
          (f := fun now db => quietly (db.insertTransition (Database.CreateOrderParams.audit p) now))
          (fun _ _ => rfl) (fun _ work' htransition => ?_) ?_
        · rw [quietly_eq_ok] at htransition
          simp only [Database.insertItems, htransition] at hspec
          rw [wp_bind]
          refine wp_commit ⟨now, hspec⟩ (fun hr m => hstop (.inr ⟨hr, m, rfl⟩)) (fun hu m => ?_)
          exact ⟨createOrder_commitLost hu hspec m, fun _ m => createOrder_commitLost hu hspec m⟩
        · rintro e (herror | hlost)
          · simp only [Database.insertItems, quietly_eq_error.mp herror] at hspec
            exact hstop (.inl hspec)
          · exact hstop (.inr hlost)
      · rintro item rest s ⟨current, rfl, hitems⟩
        rw [Database.insertItems] at hitems
        refine wp_statement hru (o := .insertOrderItem p.id item)
          (f := fun _ db => quietly (db.insertOrderItem p.id item)) (fun _ _ => rfl)
            (fun _ work' hitem => ?_) ?_
        · rw [quietly_eq_ok.mp hitem] at hitems
          exact ⟨work', rfl, hitems⟩
        · rintro e (herror | hlost)
          · rw [quietly_eq_error.mp herror] at hitems
            rw [hitems] at hspec
            exact hstop (.inl hspec)
          · exact hstop (.inr hlost)
  · rintro e (herror | hlost)
    · refine hstop (.inl ?_)
      unfold Database.createOrder
      rw [herror]
    · exact hstop (.inr hlost)

/-- The whole method: its transaction, and the read behind it. -/
theorem wp_createOrder (hru : u → r) (p : CreateOrderParams) (db : Database) :
    (createOrder p).wp (SessionStep r u) anyCall
      (fun a s => Reproduced r u (AtomicRepository.createOrder p) db (.ok a) s.committed)
      (fun e s => Reproduced r u (AtomicRepository.createOrder p) db (.error e) s.committed)
      ⟨db, none⟩ := by
  unfold createOrder
  rw [wp_bind]
  refine wp_mono _ _ (fun inserted s hdone => ?_) (fun e s h => h)
    (wp_inTransaction hru (R := Transacted r u p db) (fun hr m => createOrder_lost hr m)
      (fun now => wp_createOrderBody hru p db now))
  cases inserted with
  | false => exact hdone
  | true =>
      obtain ⟨now, hspec⟩ := hdone
      refine wp_roundTrip hru (fun _ => rfl) (fun _ => createOrder_inserted hspec)
        (fun hr m _ => ?_)
      exact ⟨createOrder_readLost hr hspec m, createOrder_readLost hr hspec m⟩

/-- **`createOrder` is one step.**  Run under any faults, the source's
`createOrder` ends as its one-step version does under some faults of the same
kinds, with the same result and the same committed database. -/
theorem createOrder_refines (hru : u → r) (p : CreateOrderParams) (db : Database)
    {choices : ℕ → RepoChoice} (hchoices : ∀ n, (choices n).fault.Within r u) :
    Reproduced r u (AtomicRepository.createOrder p) db
      (Program.run SqlOp.exec choices (createOrder p) 0 ⟨db, none⟩).1
      (Program.run SqlOp.exec choices (createOrder p) 0 ⟨db, none⟩).2.committed := by
  have hrun := Program.wp_run SqlOp.exec _ (n := 0) (fun n _ => hchoices n)
    (wp_createOrder hru p db)
  split at hrun
  · rename_i hresult
    rw [hresult]
    exact hrun
  · rename_i hresult
    rw [hresult]
    exact hrun

end CreateOrder

/-! ### `transitionStatus` -/

section TransitionStatus

variable {p : TransitionParams} {db db' : Database} {now : Time}

/-- An outcome of the one step is an outcome of its program. -/
private theorem reproduced_transitionStatus (choice : RepoChoice) {result : Except OrderError Unit}
    (hchoice : choice.fault.Within r u)
    (hrun : RepoOp.exec (.transitionStatus p) choice db = (result, db')) :
    Reproduced r u (AtomicRepository.transitionStatus p) db result db' := by
  exact ⟨fun _ => choice, fun _ => hchoice, Program.run_perform _ hrun⟩

/-- The one step can be lost before it does anything. -/
theorem transitionStatus_lost (hr : r) (m : String) :
    Reproduced r u (AtomicRepository.transitionStatus p) db (.error (.other m)) db :=
  reproduced_transitionStatus ⟨.rejected m, 0⟩ hr rfl

/-- It fails with the error of a statement, and leaves the database as it was. -/
theorem transitionStatus_failed {e : OrderError} (h : db.transitionStatus p now = .error e) :
    Reproduced r u (AtomicRepository.transitionStatus p) db (.error e) db := by
  refine reproduced_transitionStatus ⟨.none, now⟩ trivial ?_
  show settle db (quietly (db.transitionStatus p now)) = _
  rw [h]
  rfl

/-- It succeeds with the database that its statements make. -/
theorem transitionStatus_done (h : db.transitionStatus p now = .ok db') :
    Reproduced r u (AtomicRepository.transitionStatus p) db (.ok ()) db' := by
  refine reproduced_transitionStatus ⟨.none, now⟩ trivial ?_
  show settle db (quietly (db.transitionStatus p now)) = _
  rw [h]
  rfl

/-- Its answer can be lost once the transition is made, as the answer to the `COMMIT` can. -/
theorem transitionStatus_commitLost (hu : u) (h : db.transitionStatus p now = .ok db')
    (m : String) :
    Reproduced r u (AtomicRepository.transitionStatus p) db (.error (.other m)) db' := by
  refine reproduced_transitionStatus ⟨.unacknowledged m, now⟩ hu ?_
  show ((.error (.other m) : Except OrderError Unit),
    (settle db (quietly (db.transitionStatus p now))).2) = _
  rw [h]
  rfl

/-- The `try` block of `transitionStatus`, from the start of its transaction. -/
theorem wp_transitionStatusBody (hru : u → r) (p : TransitionParams) (db : Database) (now : Time) :
    (transitionStatusBody p).wp (SessionStep r u) anyCall
      (fun a s => Reproduced r u (AtomicRepository.transitionStatus p) db (.ok a) s.committed)
      (Stopped r (Reproduced r u (AtomicRepository.transitionStatus p) db))
      ⟨db, some ⟨now, db, false⟩⟩ := by
  -- before the commit every error leaves `db`, whatever the working copy is
  have hstop : ∀ {e : OrderError} {work : Database} {aborted : Bool},
      (db.transitionStatus p now = .error e ∨ r ∧ ∃ m, e = .other m) →
      Stopped r (Reproduced r u (AtomicRepository.transitionStatus p) db) e
        ⟨db, some ⟨now, work, aborted⟩⟩ := by
    rintro e work aborted (hspec | ⟨hr, m, rfl⟩)
    · exact ⟨transitionStatus_failed hspec, fun hr m => transitionStatus_lost hr m⟩
    · exact ⟨transitionStatus_lost hr m, fun hr m => transitionStatus_lost hr m⟩
  unfold transitionStatusBody
  cases hvalid : OrderStateMachine.validate p.expectedStatus p.nextStatus false with
  | error e =>
      refine hstop (.inl ?_)
      unfold Database.transitionStatus
      rw [hvalid]
  | ok done =>
      cases done
      have hspec := @Database.transitionStatus_of_valid db p now hvalid
      show Program.wp _ _ (_ >>= _) _ _ _
      rw [wp_bind]
      refine wp_statement hru (o := .updateStatus p) (f := fun now db => db.updateStatus p now)
        (fun _ _ => rfl) (fun rowCount work hupdate => ?_) ?_
      · rw [hupdate] at hspec
        rw [wp_ite]
        constructor
        · rintro rfl
          exact hstop (.inl hspec)
        · intro hpos
          obtain ⟨n, rfl⟩ := Nat.exists_eq_succ_of_ne_zero hpos
          rw [wp_bind]
          refine wp_statement hru (o := .insertTransition (Database.TransitionParams.audit p))
            (f := fun now db => quietly (db.insertTransition (Database.TransitionParams.audit p) now))
            (fun _ _ => rfl) (fun _ work' htransition => ?_) ?_
          · rw [quietly_eq_ok] at htransition
            replace hspec := hspec.trans htransition
            refine wp_commit (transitionStatus_done hspec) (fun hr m => hstop (.inr ⟨hr, m, rfl⟩))
              (fun hu m => ?_)
            exact ⟨transitionStatus_commitLost hu hspec m,
              fun _ m => transitionStatus_commitLost hu hspec m⟩
          · rintro e (herror | hlost)
            · exact hstop (.inl (hspec.trans (quietly_eq_error.mp herror)))
            · exact hstop (.inr hlost)
      · rintro e (herror | hlost)
        · rw [herror] at hspec
          exact hstop (.inl hspec)
        · exact hstop (.inr hlost)

/-- **`transitionStatus` is one step**, in the same sense: whatever the faults of its statements,
its end is one of the single step's. -/
theorem transitionStatus_refines (hru : u → r) (p : TransitionParams) (db : Database)
    {choices : ℕ → RepoChoice} (hchoices : ∀ n, (choices n).fault.Within r u) :
    Reproduced r u (AtomicRepository.transitionStatus p) db
      (Program.run SqlOp.exec choices (transitionStatus p) 0 ⟨db, none⟩).1
      (Program.run SqlOp.exec choices (transitionStatus p) 0 ⟨db, none⟩).2.committed := by
  have hwp := wp_inTransaction hru (fun hr m => transitionStatus_lost hr m)
    (fun now => wp_transitionStatusBody hru p db now)
  have hrun := Program.wp_run SqlOp.exec _ (n := 0) (fun n _ => hchoices n) hwp
  show Reproduced r u _ db
    (Program.run SqlOp.exec choices (inTransaction (transitionStatusBody p)) 0 _).1
    (Program.run SqlOp.exec choices (inTransaction (transitionStatusBody p)) 0 _).2.committed
  split at hrun
  · rename_i hresult
    rw [hresult]
    exact hrun
  · rename_i hresult
    rw [hresult]
    exact hrun

end TransitionStatus

end Refinement

end OrderRepository

end ChickenOrder
