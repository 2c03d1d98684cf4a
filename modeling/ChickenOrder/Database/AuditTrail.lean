import ChickenOrder.Database.Changes
import ChickenOrder.Interaction.Pool

/-!
# The audit log, the version and the status agree

Any number of callers use the repository at once.  Each calls one method with
whatever arguments it likes: stale versions, wrong expected statuses, unknown
orders.  `repositorySystem` is that system; its threads are the calls.

`AuditTrail` couples the three places an order's history is kept in: its audit
rows form a chain of the transition map that ends in the row's status, the
version counts them, and the time stamps mark exactly the visited statuses.  It
is an invariant of every single change (`AuditTrail.change`), hence of every
interleaving.  The optimistic lock then follows from versions never going back.
-/

namespace ChickenOrder

open Interaction

/-! ## Trails -/

/-- The chains of audit rows the transition map allows, with their last status.  A chain starts with
the insert in `QUEUED`. -/
inductive Trail : List AuditEntry → OrderStatus → Prop
  | created : Trail [(none, .worker .queued)] .queued
  | moved {entries : List AuditEntry} {s next : OrderStatus} (trail : Trail entries s)
      (hnext : next ∈ allowedTransitions s) :
      Trail (entries ++ [(some (.worker s), .worker next)]) next

/-- A trail has at least the entry of the insert. -/
theorem Trail.length_pos {entries : List AuditEntry} {s : OrderStatus} (h : Trail entries s) :
    0 < entries.length := by
  cases h with
  | created => exact Nat.zero_lt_one
  | moved trail hnext =>
      rw [List.length_append]
      exact Nat.lt_of_lt_of_le Nat.zero_lt_one (Nat.le_add_left _ _)

/-- The row of an order agrees with its audit rows: in its status, its version, which counts them,
and the times it has entered a status. -/
structure AuditTrail (row : OrderRow) (entries : List AuditEntry) : Prop where
  /-- The audit rows form a chain from `QUEUED` to the row's status. -/
  chain : ∃ s, row.status = .worker s ∧ Trail entries s
  /-- The version counts the transitions. -/
  version : row.version = (entries.length : ℤ) - 1
  /-- A status is stamped exactly if it was visited. -/
  stamps : ∀ s, (row.stampOf s).isSome ↔ RowStatus.worker s ∈ entries.map Prod.snd

/-- Every row agrees with its audit rows, and only rows have audit rows. -/
structure Audited (db : Database) : Prop where
  row : ∀ id row, db.orders.find? id = some row → AuditTrail row (db.trail id)
  absent : ∀ id, db.orders.find? id = none → db.trail id = []

namespace Audited

variable {db db' : Database}

/-- A database without orders and audit rows. -/
theorem of_empty (horders : db.orders.rows = []) (htransitions : db.transitions = []) :
    Audited db := by
  constructor
  · intro id row hfind
    have hmem := (Relational.Table.find?_eq_some_iff.mp hfind).1
    rw [horders] at hmem
    cases hmem
  · intro id _
    unfold Database.trail
    rw [htransitions]
    rfl

/-- **The agreement survives every change** that does not write a status past the state machine.
The `PATCH`es are what is excluded. -/
theorem change (h : Audited db) (hchange : ∀ id, OrderChange (fun _ _ => False) db db' id) :
    Audited db' := by
  constructor
  · intro id row hfind
    -- the row is as old as its trail: both begin with the insertion and grow together
    cases hchange id with
    | untouched hrow htrail =>
        rw [htrail]
        exact h.row id row (hrow ▸ hfind)
    | created fresh hold hnew hstatus hversion hstamps htrail =>
        rw [hnew] at hfind
        cases hfind
        rw [htrail, h.absent id hold]
        refine ⟨⟨.queued, hstatus, .created⟩, ?_, fun s => ?_⟩
        · rw [hversion]
          rfl
        · rw [hstamps s]
          simp
    | moved old new s next now hold hnew hstatus hnext hstatus' hkey hversion hstamps htrail =>
        rw [hnew] at hfind
        cases hfind
        obtain ⟨⟨s₀, hs₀, hchain⟩, hcount, hvisited⟩ := h.row id old hold
        have hs : s₀ = s := by
          rw [hstatus] at hs₀
          cases hs₀
          rfl
        subst hs
        rw [htrail]
        refine ⟨⟨next, hstatus', hchain.moved hnext⟩, ?_, fun v => ?_⟩
        · have hpos := hchain.length_pos
          -- one more entry in the trail, and one more version
          rw [hversion, hcount, List.length_append, List.length_singleton]
          omega
        · rw [hstamps v, List.map_append, List.mem_append]
          by_cases hv : next = v
          · subst hv
            simp
          · rw [if_neg hv, hvisited v]
            have hne : v ≠ next := Ne.symm hv
            simp [hne]
    | annotated old new hold hnew hsame hstatus htrail =>
        rw [hnew] at hfind
        cases hfind
        obtain ⟨⟨s, hs, hchain⟩, hcount, hvisited⟩ := h.row id old hold
        rw [htrail]
        refine ⟨⟨s, hstatus.trans hs, hchain⟩, hsame.version.trans hcount, fun v => ?_⟩
        rw [hsame.stamps v]
        exact hvisited v
    -- no statement past the state machine is allowed here
    | patched old new hold hnew hsame hwrites => exact hwrites.elim
  · intro id hnone
    cases hchange id with
    | untouched hrow htrail =>
        rw [htrail]
        exact h.absent id (hrow ▸ hnone)
    | created fresh hold hnew => rw [hnew] at hnone; cases hnone
    | moved old new s next now hold hnew => rw [hnew] at hnone; cases hnone
    | annotated old new hold hnew => rw [hnew] at hnone; cases hnone
    | patched old new hold hnew => rw [hnew] at hnone; cases hnone

end Audited

/-! ## The repository under concurrent callers -/

/-- One call of a writing method of the repository, with its arguments as any caller may choose
them. -/
inductive RepositoryCall
  | createOrder (p : CreateOrderParams)
  | transitionStatus (p : TransitionParams)
  | markDlq (orderId : Uuid) (reason : String)
  | incrementRetryCount (orderId : Uuid)

/-- What a call returns; only `createOrder` has a value. -/
inductive RepositoryResult
  | created (order : Option OrderEntity)
  | done

namespace RepositoryCall

/-- The call as a program over the repository, each of whose methods is one step here: the calls of
`AtomicRepository`, with the result wrapped up. -/
def program : RepositoryCall → Program RepoOp.Reply OrderError RepositoryResult
  | .createOrder p => do
      let order ← AtomicRepository.createOrder p
      return .created order
  | .transitionStatus p => do
      AtomicRepository.transitionStatus p
      return .done
  | .markDlq orderId reason => do
      AtomicRepository.markDlq orderId reason
      return .done
  | .incrementRetryCount orderId => do
      AtomicRepository.incrementRetryCount orderId
      return .done

end RepositoryCall

/-- Any number of repository calls on one database.  Nobody else writes. -/
def repositorySystem :
    System RepoOp.Reply OrderError RepositoryResult Database RepoChoice RepositoryCall Empty where
  exec := RepoOp.exec
  program := RepositoryCall.program
  env := fun e => e.elim

/-- Any number of such calls, interleaved, over one database. -/
abbrev RepositoryPool := Pool RepoOp.Reply OrderError RepositoryResult Database RepositoryCall

/-- The pools reachable when callers and faults are arbitrary. -/
def RepositoryReaches (db : Database) (P : RepositoryPool) : Prop :=
  repositorySystem.Reaches (fun _ _ => True) (Pool.init db) P

/-- What a `transitionStatus` call does against any environment: its one
transaction, and it returns exactly if that was answered. -/
def transitionProtocol : Protocol RepoOp.Reply OrderError RepositoryResult RepositoryCall where
  admits := fun _ => True
  allows := fun _ _ _ => True
  issues := fun q h o => ∀ p, q = .transitionStatus p → h = [] ∧ o = .transitionStatus p
  returns := fun q h _ => ∀ p, q = .transitionStatus p → h = [⟨.transitionStatus p, .ok ()⟩]
  throws := fun q h e => ∀ p, q = .transitionStatus p → h = [⟨.transitionStatus p, .error e⟩]

/-- Every method of the repository follows the protocol. -/
theorem transitionProtocol_follows (q : RepositoryCall) :
    transitionProtocol.Follows q q.program [] := by
  cases q with
  | transitionStatus p =>
      simp [Protocol.Follows, RepositoryCall.program, AtomicRepository.transitionStatus,
        transitionProtocol]
  | createOrder p =>
      simp [Protocol.Follows, RepositoryCall.program, AtomicRepository.createOrder,
        transitionProtocol]
  | markDlq orderId reason =>
      simp [Protocol.Follows, RepositoryCall.program, AtomicRepository.markDlq, transitionProtocol]
  | incrementRetryCount orderId =>
      simp [Protocol.Follows, RepositoryCall.program, AtomicRepository.incrementRetryCount,
        transitionProtocol]

section Runs

variable {db : Database} {P P' : RepositoryPool}

/-- Every step of the system changes every order in one of the listed ways. -/
theorem repositorySystem_step_change {ℓ : Label RepoChoice RepositoryCall Empty}
    (h : repositorySystem.step ℓ P = some P') (id : Uuid) :
    OrderChange (fun _ _ => False) P.world P'.world id := by
  obtain ⟨i, q, rfl, -, rfl⟩ | ⟨i, c, t, o, k, rfl, ht, hrest, rfl⟩ | ⟨e, w, rfl, -⟩ :=
    repositorySystem.step_cases h
  · exact .refl _ id
  · exact o.exec_change c P.world id
  · exact e.elim

/-- Every run of such calls keeps to the protocol, which asks nothing of what a call is. -/
theorem transitionProtocol_respects (db : Database) :
    transitionProtocol.Respects repositorySystem (fun _ _ => True) (Pool.init db) :=
  ⟨fun _ _ _ _ => trivial, fun _ _ _ _ _ _ _ _ _ _ => trivial⟩

/-- Every thread of a reachable pool keeps to the protocol. -/
theorem follows_transitionProtocol (h : RepositoryReaches db P) {i : ℕ}
    {t : Thread RepoOp.Reply OrderError RepositoryResult RepositoryCall}
    (ht : P.threads i = some t) : transitionProtocol.Follows t.request t.rest t.hist :=
  (Protocol.follows_of_reaches (transitionProtocol_respects db)
    (fun q _ => transitionProtocol_follows q) (fun _ => rfl) h i t ht).2

/-- The audit trail holds in every reachable state. -/
theorem audited_of_reaches (hdb : Audited db) (h : RepositoryReaches db P) : Audited P.world := by
  refine System.Reaches.invariant (I := fun P => Audited P.world) hdb ?_ h
  intro P ℓ P' _ hI _ hstep
  exact hI.change (repositorySystem_step_change hstep)

/-- **The optimistic lock.**  Of all `transitionStatus` calls on an order with the
same version at most one returns. -/
def OneWinner (P : RepositoryPool) : Prop :=
  ∀ i j t u p q a b, P.threads i = some t → P.threads j = some u →
    t.request = .transitionStatus p → u.request = .transitionStatus q →
    p.orderId = q.orderId → p.currentVersion = q.currentVersion →
    t.Returned a → u.Returned b → i = j

/-- Of the calls that start from one status and version of an order, one wins: the winner has
counted the version up. -/
theorem oneWinner_of_reaches (h : RepositoryReaches db P) : OneWinner P := by
  intro i j t u p q a b ht hu hp hq hid hversion ha hb
  -- a successful call moves the row past the version it was given
  have hexclusive := System.exclusive_of_reaches
    (fun e => ∃ p' : TransitionParams, p'.orderId = p.orderId ∧
      p'.currentVersion = p.currentVersion ∧ e = ⟨.transitionStatus p', .ok ()⟩)
    (fun db => ∃ row, db.orders.find? p.orderId = some row ∧ p.currentVersion < row.version)
    (fun _ => rfl) ?_ ?_ h
  · have hfollows := follows_transitionProtocol h ht
    have hfollows' := follows_transitionProtocol h hu
    rw [ha] at hfollows
    rw [hb] at hfollows'
    refine hexclusive i j t u ⟨.transitionStatus p, .ok ()⟩ ⟨.transitionStatus q, .ok ()⟩ ht hu
      ?_ ?_ ⟨p, rfl, rfl, rfl⟩ ⟨q, hid.symm, hversion.symm, rfl⟩
    · rw [hfollows p hp]
      exact List.mem_singleton_self _
    · rw [hfollows' q hq]
      exact List.mem_singleton_self _
  · rintro P i c t o k - - ht hrest ⟨p', hid', hversion', hevent⟩
    cases hevent_op : o with
    | transitionStatus p'' =>
        subst hevent_op
        have hop := congrArg Event.op hevent
        cases hop
        have hanswer : (RepoOp.exec (.transitionStatus p') c P.world).1 = .ok () :=
          Event.answer_eq hevent
        have hspec := RepoOp.exec_transitionStatus_eq_ok hanswer
        obtain ⟨row, hfind, hrow, hfind'⟩ := Database.transitionStatus_find? hspec
        rw [hid'] at hfind hfind'
        rw [hversion'] at hrow
        constructor
        · rintro ⟨row', hold, hlt⟩
          rw [hfind] at hold
          cases hold
          omega
        · refine ⟨_, hfind', ?_⟩
          rw [OrderRow.transition_version]
          omega
    | _ =>
        subst hevent_op
        have hop := congrArg Event.op hevent
        cases hop
  · rintro P ℓ P' - - hstep ⟨row, hfind, hlt⟩
    obtain ⟨row', hfind', -, hle⟩ := (repositorySystem_step_change hstep p.orderId).persists hfind
    exact ⟨row', hfind', by omega⟩

/-- A finished order keeps its status, its version and its audit rows.  `markDlq` may still write
beside them. -/
def SettledKept (db db' : Database) : Prop :=
  ∀ id row, db.orders.find? id = some row → row.status.Settled →
    ∃ row', db'.orders.find? id = some row' ∧ row'.status = row.status ∧
      row'.version = row.version ∧ db'.trail id = db.trail id

/-- A change of one order keeps what is settled of all. -/
theorem settledKept_of_change {db db' : Database}
    (h : ∀ id, OrderChange (fun _ _ => False) db db' id) : SettledKept db db' := by
  intro id row hfind hsettled
  cases h id with
  | untouched hrow htrail => exact ⟨row, hrow.trans hfind, rfl, rfl, htrail⟩
  | created fresh hold => rw [hold] at hfind; cases hfind
  | moved old new s next now hold hnew hstatus hnext =>
      rw [hold] at hfind
      cases hfind
      rw [hstatus] at hsettled
      rcases hsettled with hcompleted | hfailed
      · cases hcompleted
        cases hnext
      · cases hfailed
        cases hnext
  | annotated old new hold hnew hsame hstatus htrail =>
      rw [hold] at hfind
      cases hfind
      exact ⟨new, hnew, hstatus, hsame.version, htrail⟩
  | patched old new hold hnew hsame hwrites => exact hwrites.elim

/-- A `transitionStatus` call that throws at the step `ℓ` has changed nothing at all in the
database. -/
def ThrowChangesNothing (ℓ : Label RepoChoice RepositoryCall Empty) (P P' : RepositoryPool) : Prop :=
  ∀ i c t u p e, ℓ = .act i c → P.threads i = some t → t.request = .transitionStatus p →
    P'.threads i = some u → u.Threw e → P'.world = P.world

/-- What a `transitionStatus` call that throws at the step `ℓ` has done: nothing, unless its
`COMMIT` took effect and the answer was lost.  The caller cannot tell the two apart, and in
the second case the transition is made, whole. -/
def ThrowAccounted (ℓ : Label RepoChoice RepositoryCall Empty) (P P' : RepositoryPool) : Prop :=
  ∀ i c t u p e, ℓ = .act i c → P.threads i = some t → t.request = .transitionStatus p →
    P'.threads i = some u → u.Threw e →
      P'.world = P.world ∨
        (∃ m, c.fault = .unacknowledged m) ∧ P.world.transitionStatus p c.now = .ok P'.world

/-- A call that throws has changed nothing, or its `COMMIT` was carried out and the answer to it
lost. -/
theorem throwAccounted_of_step (h : RepositoryReaches db P)
    {ℓ : Label RepoChoice RepositoryCall Empty} (hstep : repositorySystem.step ℓ P = some P') :
    ThrowAccounted ℓ P P' := by
  intro i c t u p e hℓ ht hp hu hthrew
  have hreach' : RepositoryReaches db P' := .tail h ⟨ℓ, trivial, hstep⟩
  have hfollows := follows_transitionProtocol hreach' hu
  rw [hthrew] at hfollows
  obtain hold | ⟨q, hspawn, -⟩ | ⟨c', t', o, k, hact, ht', hrest, hworld, rfl⟩ :=
    repositorySystem.step_threads hstep hu
  · -- the thread did not move, so it had not thrown at this step
    subst hℓ
    obtain ⟨j, q, hspawn, -⟩ | ⟨j, c', t', o, k, hact, ht', hrest, hP'⟩ | ⟨e', w, henv, -⟩ :=
      repositorySystem.step_cases hstep
    · cases hspawn
    · cases hact
      rw [hold] at ht'
      cases ht'
      rw [hthrew] at hrest
      cases hrest
    · exact e'.elim
  · rw [hℓ] at hspawn
    cases hspawn
  · rw [hℓ] at hact
    cases hact
    rw [ht] at ht'
    cases ht'
    -- what the thread has thrown is the answer of this very call
    have hhist := hfollows p hp
    simp only [Thread.answered] at hhist
    have hevent := (List.cons.inj hhist).1
    have hop := congrArg Event.op hevent
    cases hop
    have hanswer : (RepoOp.exec (.transitionStatus p) c P.world).1 = .error e :=
      Event.answer_eq hevent
    rw [hworld]
    exact RepoOp.exec_transitionStatus_state hanswer

/-- **Audit log, version and status stay consistent.**  From a database without
orders, in every state that concurrent repository calls can reach, every row
agrees with its audit rows and of the calls with one version at most one has
returned; and every further step leaves finished orders as they are, and a
`transitionStatus` that throws at it has changed nothing, or has made its
transition and lost the answer to its `COMMIT`. -/
theorem repository_consistent (horders : db.orders.rows = []) (htransitions : db.transitions = [])
    (h : RepositoryReaches db P) :
    Audited P.world ∧ OneWinner P ∧
      ∀ ℓ P', repositorySystem.step ℓ P = some P' →
        SettledKept P.world P'.world ∧ ThrowAccounted ℓ P P' := by
  refine ⟨audited_of_reaches (.of_empty horders htransitions) h, oneWinner_of_reaches h, ?_⟩
  intro ℓ P' hstep
  exact ⟨settledKept_of_change (repositorySystem_step_change hstep),
    throwAccounted_of_step h hstep⟩

end Runs

/-! ### A run -/

/-- An order of one menu of the first seeded store. -/
def seedOrder : CreateOrderParams where
  id := ⟨7⟩
  idempotencyKey := "key-7"
  traceId := "trace-7"
  storeId := "11111111-1111-1111-1111-111111111111"
  userId := none
  requestedAmount := "18000.00"
  calculatedAmount := "18000.00"
  items := [⟨"aaaaaaaa-aaaa-aaaa-aaaa-aaaaaaaaaaaa", "후라이드치킨", 18000, 1⟩]
  workerId := "worker-a-1"
  jobId := .order ⟨7⟩

/-- Its first transition. -/
def seedTransition : TransitionParams where
  orderId := ⟨7⟩
  expectedStatus := .worker .queued
  nextStatus := .saved
  currentVersion := 0
  workerId := "worker-a-1"
  jobId := some (.order ⟨7⟩)
  reason := none
  posResponse := .undefined
  posErrorMessage := none

/-- The order is created, and two callers race for its first transition.  Both have read the row in
`QUEUED`. -/
def seedRace : List (Label RepoChoice RepositoryCall Empty) :=
  [.spawn 0 (.createOrder seedOrder), .act 0 ⟨.none, 1⟩, .act 0 ⟨.none, 2⟩,
    .spawn 1 (.transitionStatus seedTransition), .spawn 2 (.transitionStatus seedTransition),
    .act 2 ⟨.none, 3⟩, .act 1 ⟨.none, 4⟩]

theorem seedRace_replays : (repositorySystem.replay seedRace (Pool.init .seed)).isSome = true := by
  decide +kernel

/-- The guarantees, after two transitions of one order have raced. -/
theorem repository_consistent_seedRace :
    Audited (repositorySystem.after seedRace (Pool.init .seed) seedRace_replays).world ∧
      OneWinner (repositorySystem.after seedRace (Pool.init .seed) seedRace_replays) ∧
      ∀ ℓ P', repositorySystem.step ℓ
          (repositorySystem.after seedRace (Pool.init .seed) seedRace_replays) = some P' →
        SettledKept (repositorySystem.after seedRace (Pool.init .seed) seedRace_replays).world
          P'.world ∧
        ThrowAccounted ℓ
          (repositorySystem.after seedRace (Pool.init .seed) seedRace_replays) P' :=
  repository_consistent rfl rfl
    (System.Reaches.after (System.Admitted.of_forall (fun _ _ => trivial) _ _) seedRace_replays)

/-! ### A lost answer -/

/-- The order is created. -/
def createdRun : List (Label RepoChoice RepositoryCall Empty) :=
  [.spawn 0 (.createOrder seedOrder), .act 0 ⟨.none, 1⟩, .act 0 ⟨.none, 2⟩]

/-- The run that creates an order can be replayed. -/
theorem createdRun_replays :
    (repositorySystem.replay createdRun (Pool.init .seed)).isSome = true := by
  decide +kernel

/-- The database and the threads after `createdRun`. -/
def createdPool : RepositoryPool :=
  repositorySystem.after createdRun (Pool.init .seed) createdRun_replays

/-- A transition of that order can be called next. -/
theorem createdPool_calls : (repositorySystem.replay
    [.spawn 1 (.transitionStatus seedTransition)] createdPool).isSome = true := by
  decide +kernel

/-- A caller is about to make the order's first transition. -/
def calledPool : RepositoryPool :=
  repositorySystem.after [.spawn 1 (.transitionStatus seedTransition)] createdPool createdPool_calls

theorem calledPool_thread :
    calledPool.threads 1 = some (repositorySystem.start (.transitionStatus seedTransition)) :=
  repositorySystem.step_spawn (System.step_after createdPool_calls)

/-- The transition is committed, and the connection is lost before the answer. -/
def lostAnswer : Label RepoChoice RepositoryCall Empty :=
  .act 1 ⟨.unacknowledged "Connection terminated", 3⟩

theorem calledPool_commits :
    (repositorySystem.replay [lostAnswer] calledPool).isSome = true := by
  decide +kernel

/-- The pool once the answer of that call's `COMMIT` is lost. -/
def lostAnswerPool : RepositoryPool :=
  repositorySystem.after [lostAnswer] calledPool calledPool_commits

theorem lostAnswerPool_thread : ∃ u e, lostAnswerPool.threads 1 = some u ∧ u.Threw e := by
  have hphase : (lostAnswerPool.threads 1).map Thread.phase = some .threw := by decide +kernel
  obtain ⟨u, hu, hthrew⟩ := Option.map_eq_some_iff.mp hphase
  obtain ⟨e, he⟩ := Thread.phase_eq_threw hthrew
  exact ⟨u, e, hu, he⟩

/-- **A throwing `transitionStatus` can have changed the order**: the transition was committed,
and only its answer was lost. -/
theorem not_throwChangesNothing_of_lostAnswer :
    ¬ ∀ (db : Database) (P P' : RepositoryPool) (ℓ : Label RepoChoice RepositoryCall Empty),
      db.orders.rows = [] → db.transitions = [] → RepositoryReaches db P →
      repositorySystem.step ℓ P = some P' → ThrowChangesNothing ℓ P P' := by
  intro h
  have hreach : RepositoryReaches .seed calledPool :=
    Relation.ReflTransGen.trans
      (System.Reaches.after (.of_forall (fun _ _ => trivial) _ _) createdRun_replays)
      (System.Reaches.after (.of_forall (fun _ _ => trivial) _ _) createdPool_calls)
  obtain ⟨u, e, hu, hthrew⟩ := lostAnswerPool_thread
  have hworld : lostAnswerPool.world = calledPool.world :=
    h .seed calledPool lostAnswerPool lostAnswer rfl rfl hreach (System.step_after calledPool_commits)
      1 _ _ u seedTransition e rfl calledPool_thread rfl hu hthrew
  have hbefore : calledPool.world.transitions.length = 1 := by decide +kernel
  have hafter : lostAnswerPool.world.transitions.length = 2 := by decide +kernel
  rw [hworld, hbefore] at hafter
  exact absurd hafter (by decide)

end ChickenOrder
