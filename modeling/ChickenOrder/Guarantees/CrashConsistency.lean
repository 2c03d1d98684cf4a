import ChickenOrder.Database.OrderRecord
import ChickenOrder.Interaction.Rely
import ChickenOrder.Services.Executions
import ChickenOrder.Services.Locking

/-!
# What an execution leaves behind

`process` writes an order in four transactions, and any of its calls can throw.  `Chain` lists
what the database keeps under the order id after each of them.
`crashConsistent_of_singleExecution` says that an execution whose order nobody else writes ends
with one of these records and, but for an acquire whose answer was lost, with its lock free; it
has returned if the chain is complete, but for a last commit whose answer was lost.

The proof is a weakest precondition over the execution's history and the world, with the steps
of others in between (`relyWp`).  What the others may do is `OrderKept`: anything but write
under this order's id, take its key or its lock.  `Progress` is the invariant, the record after
`n` transactions; a transaction whose answer is lost takes it one further than the execution
knows, and that is where the amended cases come from.
-/

namespace ChickenOrder

open Interaction Interaction.Program ProcessOrderService

/-! ## The chain -/

/-- The record of an order after `n` transactions of an execution: the insertion with all
items, and the three transitions. -/
inductive Chain (payload : OrderJobPayload) (jobMeta : JobMeta) : ℕ → OrderRecord → Prop
  | nothing : Chain payload jobMeta 0 .none
  | queued {row : OrderRow} {rows : List OrderItemRow} {now : Time}
      (hrow : (createParams payload jobMeta).toRow now = .ok row)
      (hitems : List.Forall₂ (OrderItem.StoredAs payload.orderId) payload.items rows) :
      Chain payload jobMeta 1 ⟨some row,
        [(Database.CreateOrderParams.audit (createParams payload jobMeta)).toRow now], rows⟩
  | saved {r : OrderRecord} (now : Time) (h : Chain payload jobMeta 1 r) :
      Chain payload jobMeta 2 (r.moved
        (transitionParams payload.orderId (.worker .queued) .saved 0 jobMeta) now)
  | sentToPos {r : OrderRecord} (now : Time) (posResponse : JsValue)
      (h : Chain payload jobMeta 2 r) :
      Chain payload jobMeta 3 (r.moved
        { transitionParams payload.orderId (.worker .saved) .sentToPos 1 jobMeta with
          posResponse := posResponse } now)
  | completed {r : OrderRecord} (now : Time) (h : Chain payload jobMeta 3 r) :
      Chain payload jobMeta 4 (r.moved
        (transitionParams payload.orderId (.worker .sentToPos) .completed 2 jobMeta) now)

section Chain

variable {payload : OrderJobPayload} {jobMeta : JobMeta} {n : ℕ} {r : OrderRecord}

/-- The record has a row, of this order and at this version.  The version is what the next
transition is based on. -/
def OrderRecord.HasRow (r : OrderRecord) (id : Uuid) (version : ℤ) : Prop :=
  ∃ row, r.row = some row ∧ row.id = id ∧ row.version = version

theorem OrderRecord.HasRow.moved {id : Uuid} {version : ℤ} (h : r.HasRow id version)
    (p : TransitionParams) (now : Time) : (r.moved p now).HasRow id (version + 1) := by
  obtain ⟨row, hrow, hid, hversion⟩ := h
  refine ⟨row.transition p now, ?_, ?_, ?_⟩
  · simp [OrderRecord.moved, hrow]
  · simp [hid]
  · simp [hversion]

/-- From the insertion on the row counts the transitions.  This is how an execution that reads its
row back knows where it is. -/
theorem Chain.hasRow (h : Chain payload jobMeta n r) (hn : n ≠ 0) :
    r.HasRow payload.orderId (n - 1) := by
  induction h with
  | nothing => exact absurd rfl hn
  | queued hrow hitems =>
      have hproposes := Database.proposes_of_toRow hrow
      exact ⟨_, rfl, hproposes.id, hproposes.version⟩
  | saved now _ ih => exact (ih nofun).moved _ now
  | sentToPos now posResponse _ ih => exact (ih nofun).moved _ now
  | completed now _ ih => exact (ih nofun).moved _ now

/-- Before the first transaction there is nothing. -/
theorem Chain.eq_none (h : Chain payload jobMeta 0 r) : r = .none := by
  cases h
  rfl

/-- A record is that of one number of transactions only. -/
theorem Chain.unique {m : ℕ} (hn : Chain payload jobMeta n r) (hm : Chain payload jobMeta m r) :
    n = m := by
  have hnone : ∀ {n}, Chain payload jobMeta n r → r.row = none → n = 0 := by
    intro n h hnone
    by_contra hn
    obtain ⟨row, hrow, -⟩ := h.hasRow hn
    rw [hnone] at hrow
    cases hrow
  cases hrow : r.row with
  | none => rw [hnone hn hrow, hnone hm hrow]
  | some row =>
      have hpos : ∀ {n}, Chain payload jobMeta n r → n ≠ 0 := by
        rintro n h rfl
        cases h
        cases hrow
      obtain ⟨row₁, hrow₁, -, hversion₁⟩ := hn.hasRow (hpos hn)
      obtain ⟨row₂, hrow₂, -, hversion₂⟩ := hm.hasRow (hpos hm)
      rw [hrow₁, Option.some.injEq] at hrow₂
      subst hrow₂
      omega

end Chain

/-! ## The surroundings of an execution -/

/-- The call writes under the order id: one of the repository's, or a `PATCH` statement whose id is
that of the order. -/
def Op.Writes : Op → Uuid → Prop
  | .repo o, id => o.Writes id
  | .patchStatus _ orderId, id => uuidColumn orderId = .ok id
  | _, _ => False

/-- A call that does not write under an order id leaves its record. -/
theorem Op.exec_recordOf {o : Op} {id : Uuid} (ho : ¬ o.Writes id) (c : Choice) (w : World) :
    (o.exec c w).2.db.recordOf id = w.db.recordOf id := by
  refine Op.exec_invariant (I := fun w' => w'.db.recordOf id = w.db.recordOf id) rfl ?_
  obtain ⟨r, rfl, hdb⟩ | ⟨k, new, hwrites, -, hdb⟩ | hdb := o.effect_db c w
  · rw [hdb]
    exact RepoOp.effect_recordOf ho c.now w.db
  · have hid : id ≠ k := by
      rintro rfl
      obtain ⟨text, orderId, rfl, hid, -⟩ := hwrites
      exact ho hid
    rw [hdb]
    exact Database.recordOf_modify_of_ne hid (fun row => row.patched new c.now) _
  · rw [hdb]

/-- The call is of the lock of this order. -/
def Op.Locks : Op → Uuid → Prop
  | .lockSetNx orderId _, id => orderId = id
  | .lockRelease orderId _, id => orderId = id
  | _, _ => False

theorem Op.exec_locks {o : Op} {id : Uuid} (ho : ¬ o.Locks id) (c : Choice) (w : World) :
    (o.exec c w).2.locks id = w.locks id := by
  refine Op.exec_invariant (I := fun w' => w'.locks id = w.locks id) rfl ?_
  obtain ⟨k, token, rfl, -, hlocks⟩ | ⟨k, token, rfl, -, hlocks⟩ | hlocks := o.effect_locks c w
  · rw [hlocks, Function.update_of_ne (Ne.symm ho)]
  · rw [hlocks, Function.update_of_ne (Ne.symm ho)]
  · rw [hlocks]

/-- The call inserts an order under this idempotency key, as the column of keys reads it. -/
def Op.Claims : Op → String → Prop
  | .repo (.createOrder p), key => varcharColumn p.idempotencyKey = varcharColumn key
  | _, _ => False

/-- A key stays free until an order is inserted under it. -/
theorem Op.exec_findByKey? {o : Op} {key : String} (ho : ¬ o.Claims key) (c : Choice) {w : World}
    (hfree : w.db.findByKey? key = none) : (o.exec c w).2.db.findByKey? key = none := by
  by_contra hused
  obtain ⟨row, hrow⟩ := Option.ne_none_iff_exists'.mp hused
  obtain ⟨hkey, hfind⟩ := Database.findByKey?_eq_some_iff.mp hrow
  -- the row was there before, or the call has inserted it
  have hbefore : ∀ old, w.db.orders.find? row.id = some old →
      old.idempotencyKey = row.idempotencyKey → False := by
    intro old hold hsame
    have hid := (Relational.Table.find?_eq_some_iff.mp hold).2
    have hused := Database.findByKey?_eq_some_iff.mpr ⟨hkey.trans (congrArg _ hsame.symm), hid ▸ hold⟩
    rw [hfree] at hused
    cases hused
  have heffect := o.exec_row c w row.id
  rw [hfind] at heffect
  generalize hr : some row = r at heffect
  cases heffect with
  | same => exact hbefore row hr.symm rfl
  | repo h =>
      cases h with
      | same => exact hbefore row hr.symm rfl
      | inserted hid hnone hnew =>
          cases hr
          exact ho ((Database.proposes_of_toRow hnew).key.trans hkey.symm)
      | moved hid hold =>
          cases hr
          exact hbefore _ hold (by simp)
      | marked hold =>
          cases hr
          exact hbefore _ hold rfl
      | retried hold =>
          cases hr
          exact hbefore _ hold rfl
  | patched hwrites hold =>
      cases hr
      exact hbefore _ hold rfl

/-- The call is about this order: its rows, its lock or its idempotency key. -/
def Op.Concerns (o : Op) (payload : OrderJobPayload) : Prop :=
  o.Writes payload.orderId ∨ o.Locks payload.orderId ∨ o.Claims payload.idempotencyKey

/-- What nobody else changes about an order, but for the expiry of its lock.  It is the rely of an
execution that is alone with its order. -/
structure OrderKept (payload : OrderJobPayload) (w w' : World) : Prop where
  record : w'.db.recordOf payload.orderId = w.db.recordOf payload.orderId
  key : w.db.findByKey? payload.idempotencyKey = none →
    w'.db.findByKey? payload.idempotencyKey = none
  lock : w'.locks payload.orderId = w.locks payload.orderId ∨ w'.locks payload.orderId = none

section Surroundings

variable {payload : OrderJobPayload} {w w₁ w₂ : World}

theorem OrderKept.refl (w : World) : OrderKept payload w w := ⟨rfl, id, .inl rfl⟩

theorem OrderKept.trans (h₁ : OrderKept payload w w₁) (h₂ : OrderKept payload w₁ w₂) :
    OrderKept payload w w₂ := by
  refine ⟨h₂.record.trans h₁.record, fun hfree => h₂.key (h₁.key hfree), ?_⟩
  rcases h₂.lock with hlock | hlock
  · rw [hlock]
    exact h₁.lock
  · exact .inr hlock

/-- A call that is not about the order keeps to it. -/
theorem orderKept_of_exec {o : Op} (ho : ¬ o.Concerns payload) (c : Choice) (w : World) :
    OrderKept payload w (o.exec c w).2 where
  record := Op.exec_recordOf (fun h => ho (.inl h)) c w
  key := Op.exec_findByKey? (fun h => ho (.inr (.inr h))) c
  lock := .inl (Op.exec_locks (fun h => ho (.inr (.inl h))) c w)

theorem orderKept_of_expiry (e : Expiry) (w : World) : OrderKept payload w (e.apply w) := by
  refine ⟨by rw [Expiry.apply_db], fun h => by rwa [Expiry.apply_db], ?_⟩
  cases e with
  | lock k =>
      show (Function.update w.locks k none) payload.orderId = _ ∨ _
      by_cases hid : payload.orderId = k
      · exact .inr (by rw [hid]; exact Function.update_self ..)
      · exact .inl (Function.update_of_ne hid ..)
  | idempotency key => exact .inl rfl
  | menuCache key => exact .inl rfl

/-- The failures of an execution's calls: the release of a lock does not fail, and calls
that fail after they took effect are among them only if `lossy`. -/
structure Fails (lossy : Prop) (o : Op) (c : Choice) : Prop where
  release : ∀ id token, o = .lockRelease id token → c.fault = .none
  answers : c.fault.Within True lossy

/-- Thread `i` is the only one whose calls are about the order. -/
structure LeftAlone (payload : OrderJobPayload) (i : ℕ) (lossy : Prop) (ℓ : OrderLabel)
    (P : OrderPool) : Prop where
  alone : ∀ j c o, ℓ = .act j c → j ≠ i → ℓ.call? P = some o → ¬ o.Concerns payload
  fails : ∀ c o, ℓ = .act i c → ℓ.call? P = some o → Fails lossy o c

theorem LeftAlone.orderKept {config : AppConfig} {i : ℕ} {lossy : Prop} {ℓ : OrderLabel}
    {P P' : OrderPool} (h : LeftAlone payload i lossy ℓ P) (hother : ∀ c, ℓ ≠ .act i c)
    (hstep : (orderSystem config).step ℓ P = some P') : OrderKept payload P.world P'.world := by
  obtain ⟨j, q, rfl, -, rfl⟩ | ⟨j, c, t, o, k, rfl, ht, hrest, rfl⟩ | ⟨e, w, rfl, hw, rfl⟩ :=
    (orderSystem config).step_cases hstep
  · exact .refl _
  · have hji : j ≠ i := by
      rintro rfl
      exact hother c rfl
    exact orderKept_of_exec (h.alone j c o rfl hji (Label.call?_act ht hrest c)) c P.world
  · cases hw
    exact orderKept_of_expiry e P.world

end Surroundings

/-! ## The execution -/

/-- The point of sale has answered a request. -/
def PosReturned (h : List OrderEvent) : Prop :=
  ∃ request reply, (⟨.postToPos request, .ok reply⟩ : OrderEvent) ∈ h

theorem PosReturned.mono {h h' : List OrderEvent} (hreturned : PosReturned h) (hsub : h ⊆ h') :
    PosReturned h' := by
  obtain ⟨request, reply, hmem⟩ := hreturned
  exact ⟨request, reply, hsub hmem⟩

/-- The acquire was not answered. -/
def AcquireLost (payload : OrderJobPayload) (jobMeta : JobMeta) (h : List OrderEvent) : Prop :=
  ∃ e, (⟨.lockSetNx payload.orderId (lockToken jobMeta), .error e⟩ : OrderEvent) ∈ h

/-- The last transaction was answered by an error. -/
def CommitLost (h : List OrderEvent) : Prop :=
  ∃ p e, p.nextStatus = .completed ∧ (⟨.repo (.transitionStatus p), .error e⟩ : OrderEvent) ∈ h

theorem CommitLost.mono {h h' : List OrderEvent} (hlost : CommitLost h) (hsub : h ⊆ h') :
    CommitLost h' := by
  obtain ⟨p, e, hp, hmem⟩ := hlost
  exact ⟨p, e, hp, hsub hmem⟩

/-- The execution has come through `n` transactions, and is inside its lock unless that
has expired. -/
structure Progress (payload : OrderJobPayload) (jobMeta : JobMeta) (n : ℕ)
    (s : List OrderEvent × World) : Prop where
  chain : Chain payload jobMeta n (s.2.db.recordOf payload.orderId)
  posReturned : 3 ≤ n → PosReturned s.1
  lock : s.2.locks payload.orderId = some (lockToken jobMeta) ∨ s.2.locks payload.orderId = none

/-- It has thrown on the way. -/
def Stopped (payload : OrderJobPayload) (jobMeta : JobMeta) (lossy : Prop)
    (s : List OrderEvent × World) : Prop :=
  ∃ n ≤ 4, Progress payload jobMeta n s ∧ (n = 4 → lossy ∧ CommitLost s.1)

section Execution

variable {config : AppConfig} {payload : OrderJobPayload} {jobMeta : JobMeta} {lossy : Prop}
variable {n : ℕ} {h : List OrderEvent} {w w' : World}

/-- `wp` of an execution that alone is about its order. -/
abbrev aloneWp (config : AppConfig) (payload : OrderJobPayload) (lossy : Prop) {α : Type}
    (p : Service α)
    (Q : α → List OrderEvent × World → Prop) (E : List OrderEvent × World → Prop)
    (s : List OrderEvent × World) : Prop :=
  (orderSystem config).relyWp (OrderKept payload) (Fails lossy) p Q (fun _ => E) s

/-- What others do does not count as progress. -/
theorem Progress.moved (hprogress : Progress payload jobMeta n (h, w))
    (hmove : OrderKept payload w w') : Progress payload jobMeta n (h, w') := by
  refine ⟨?_, hprogress.posReturned, ?_⟩
  · rw [hmove.record]
    exact hprogress.chain
  · rcases hmove.lock with hlock | hlock
    · rw [hlock]
      exact hprogress.lock
    · exact .inr hlock

/-- An event of the execution's own history is no progress by itself: progress is read off the row,
the lock and the answer of the point of sale. -/
theorem Progress.cons (hprogress : Progress payload jobMeta n (h, w)) (e : OrderEvent) :
    Progress payload jobMeta n (e :: h, w) := by
  refine ⟨hprogress.chain, fun hn => ?_, hprogress.lock⟩
  obtain ⟨request, reply, hmem⟩ := hprogress.posReturned hn
  exact ⟨request, reply, List.mem_cons_of_mem _ hmem⟩

/-- A call that is not about the order keeps the progress. -/
theorem Progress.call (hprogress : Progress payload jobMeta n (h, w)) {o : Op}
    (ho : ¬ o.Concerns payload) (c : Choice) (e : OrderEvent) :
    Progress payload jobMeta n (e :: h, (o.exec c w).2) :=
  (hprogress.moved (orderKept_of_exec ho c w)).cons e

/-- A transaction that changes nothing. -/
theorem Progress.kept (hprogress : Progress payload jobMeta n (h, w)) (e : OrderEvent)
    (hdb : w'.db = w.db) (hlocks : w'.locks = w.locks) :
    Progress payload jobMeta n (e :: h, w') := by
  refine ⟨?_, (hprogress.cons e).posReturned, ?_⟩
  · show Chain payload jobMeta n (w'.db.recordOf payload.orderId)
    rw [hdb]
    exact hprogress.chain
  · show w'.locks payload.orderId = _ ∨ w'.locks payload.orderId = none
    rw [hlocks]
    exact hprogress.lock

/-- A transaction of the chain that commits, seen by its caller or not.  If it is not seen, the
execution throws one record further than it knows. -/
theorem Progress.advance (hprogress : Progress payload jobMeta n (h, w))
    (hpos : 3 ≤ n + 1 → PosReturned h) (e : OrderEvent)
    (hchain : Chain payload jobMeta (n + 1) (w'.db.recordOf payload.orderId))
    (hlocks : w'.locks = w.locks) : Progress payload jobMeta (n + 1) (e :: h, w') := by
  refine ⟨hchain, fun hn => ?_, ?_⟩
  · obtain ⟨request, reply, hmem⟩ := hpos hn
    exact ⟨request, reply, List.mem_cons_of_mem _ hmem⟩
  · show w'.locks payload.orderId = _ ∨ _
    rw [hlocks]
    exact hprogress.lock

/-- **Calls that are not about the order** keep the progress on both exits.  Most of an execution
consists of such calls. -/
theorem aloneWp_progress {α : Type} {p : Service α}
    (hp : p.OnlyCalls fun o => ¬ o.Concerns payload)
    (hprogress : Progress payload jobMeta n (h, w)) :
    aloneWp config payload lossy p (fun _ => Progress payload jobMeta n) (Progress payload jobMeta n)
      (h, w) := by
  refine wp_invariant _ _ (Progress payload jobMeta n) (fun _ _ _ _ => trivial) ?_ hp hprogress
  rintro o ⟨h, w⟩ r ⟨h', w'⟩ ho hprogress ⟨w₁, c, hmove, -, hexec, rfl⟩
  have hcall := (hprogress.moved hmove).call ho c (⟨o, r⟩ : OrderEvent)
  rwa [show Op.exec o c w₁ = (r, w') from hexec] at hcall

/-- An order that is read back is at the version of the chain. -/
theorem aloneWp_findById (hprogress : Progress payload jobMeta (n + 1) (h, w)) :
    aloneWp config payload lossy (OrderRepository.findById payload.orderId)
      (fun found s => Progress payload jobMeta (n + 1) s ∧ ∃ order, found = some order ∧
        order.row.id = payload.orderId ∧ order.row.version = n)
      (Progress payload jobMeta (n + 1)) (h, w) := by
  have hread : ¬ (Op.repo (.findById payload.orderId)).Concerns payload := by
    rintro (h | h | h) <;> exact h
  rw [OrderRepository.findById_eq]
  refine System.relyWp_perform (fun w₁ c found hmove _ hexec => ?_) (fun w₁ c e hmove _ _ => ?_)
  · have hprogress₁ := hprogress.moved hmove
    refine ⟨hprogress₁.call hread c _, ?_⟩
    obtain ⟨row, hrow, hid, hversion⟩ := hprogress₁.chain.hasRow (Nat.succ_ne_zero n)
    rw [← Op.exec_findById_eq_ok hexec]
    refine ⟨_, congrArg (Option.map _) hrow, hid, ?_⟩
    simpa using hversion
  · exact (hprogress.moved hmove).call hread c _

/-- **One transition of the chain.** It commits or leaves everything as it was; and it may commit
without the execution getting to know. -/
theorem aloneWp_transition {p : TransitionParams} (hid : p.orderId = payload.orderId)
    (hchain : ∀ r now, Chain payload jobMeta n r → Chain payload jobMeta (n + 1) (r.moved p now))
    (hprogress : Progress payload jobMeta n (h, w)) (hpos : 3 ≤ n + 1 → PosReturned h) :
    aloneWp config payload lossy (OrderRepository.transition p)
      (fun _ => Progress payload jobMeta (n + 1))
      (fun s => Progress payload jobMeta n s ∨ Progress payload jobMeta (n + 1) s ∧
        lossy ∧ ∃ e, (⟨.repo (.transitionStatus p), .error e⟩ : OrderEvent) ∈ s.1) (h, w) := by
  have hlocks : ∀ c w, (Op.exec (.repo (.transitionStatus p)) c w).2.locks = w.locks :=
    fun c w => Op.exec_invariant (I := fun w' => w'.locks = w.locks) rfl rfl
  -- committed, it is one more of the chain
  have hcommit : ∀ {w₁ : World} {db' : Database} {now : Time},
      Progress payload jobMeta n (h, w₁) → w₁.db.transitionStatus p now = .ok db' →
      Chain payload jobMeta (n + 1) (db'.recordOf payload.orderId) := by
    intro w₁ db' now hprogress hcommitted
    rw [← hid, (Database.transitionStatus_recordOf hcommitted).1, hid]
    exact hchain _ now hprogress.chain
  rw [OrderRepository.transition_eq]
  refine System.relyWp_perform (fun w₁ c done hmove _ hexec => ?_)
    (fun w₁ c e hmove hfails hexec => ?_)
  · have hprogress₁ := hprogress.moved hmove
    exact hprogress₁.advance hpos _
      (hcommit hprogress₁ (Op.exec_transitionStatus_eq_ok hexec)) (hlocks c w₁)
  · have hprogress₁ := hprogress.moved hmove
    rcases Op.exec_transitionStatus_db_of_error hfails.answers hexec with
      hsame | ⟨hlossy, hcommitted⟩
    · exact .inl (hprogress₁.kept _ hsame (hlocks c w₁))
    · exact .inr ⟨hprogress₁.advance hpos _ (hcommit hprogress₁ hcommitted) (hlocks c w₁), hlossy,
        e, List.mem_cons_self⟩

/-- **The insertion**, of an order whose key is free. -/
theorem aloneWp_create (hprogress : Progress payload jobMeta 0 (h, w))
    (hfree : w.db.findByKey? payload.idempotencyKey = none) :
    aloneWp config payload lossy (OrderRepository.create (createParams payload jobMeta))
      (fun created s => Progress payload jobMeta 1 s ∧ ∃ order, created = some order ∧
        order.row.id = payload.orderId ∧ order.row.version = 0)
      (fun s => Progress payload jobMeta 0 s ∨ Progress payload jobMeta 1 s) (h, w) := by
  have hlocks : ∀ c w, (Op.exec (.repo (.createOrder (createParams payload jobMeta))) c w).2.locks =
      w.locks :=
    fun c w => Op.exec_invariant (I := fun w' => w'.locks = w.locks) rfl rfl
  have hcommit : ∀ {w₁ : World} {db' : Database} {now : Time},
      Progress payload jobMeta 0 (h, w₁) →
      w₁.db.createOrder (createParams payload jobMeta) now = .ok (true, db') →
      Chain payload jobMeta 1 (db'.recordOf payload.orderId) := by
    intro w₁ db' now hprogress hcommitted
    obtain ⟨⟨row, rows, hrow, hrows, hrecord⟩, -⟩ := Database.createOrder_recordOf hcommitted
    rw [show db'.recordOf payload.orderId = _ from hrecord]
    rw [show w₁.db.recordOf (createParams payload jobMeta).id = _ from hprogress.chain.eq_none]
    exact .queued hrow hrows
  -- the key is free, so the transaction cannot find it used
  have hnew : ∀ {w₁ : World} {db' : Database} {now : Time} {inserted : Bool},
      OrderKept payload w w₁ →
      w₁.db.createOrder (createParams payload jobMeta) now = .ok (inserted, db') →
      inserted = true := by
    intro w₁ db' now inserted hmove hcommitted
    obtain ⟨-, -, row, hused⟩ | ⟨hinserted, -⟩ := Database.createOrder_eq_ok hcommitted
    · have hfree₁ : w₁.db.findByKey? (createParams payload jobMeta).idempotencyKey = none :=
        hmove.key hfree
      rw [hfree₁] at hused
      cases hused
    · exact hinserted
  rw [OrderRepository.create_eq]
  unfold aloneWp System.relyWp
  rw [wp_bind]
  refine System.relyWp_perform (fun w₁ c inserted hmove _ hexec => ?_)
    (fun w₁ c e hmove _ hexec => ?_)
  · have hcommitted := Op.exec_createOrder_eq_ok hexec
    have hinserted := hnew hmove hcommitted
    subst hinserted
    have hprogress₁ := (hprogress.moved hmove).advance (n := 0) (by omega)
      (⟨.repo (.createOrder (createParams payload jobMeta)), .ok true⟩ : OrderEvent)
      (hcommit (hprogress.moved hmove) hcommitted) (hlocks c w₁)
    rw [if_pos rfl]
    have hread : aloneWp config payload lossy (OrderRepository.findById payload.orderId) _ _ _ :=
      aloneWp_findById hprogress₁
    rw [OrderRepository.findById_eq] at hread
    refine wp_mono _ _ (fun created s hcreated => ?_) (fun _ s hprogress => ?_) hread
    · simpa using hcreated
    · exact .inr hprogress
  · have hprogress₁ := hprogress.moved hmove
    rcases Op.exec_createOrder_db (c := c) (w := w₁) (createParams payload jobMeta) with
      hsame | ⟨inserted, hcommitted⟩
    · exact .inl (hprogress₁.kept _ hsame (hlocks c w₁))
    · have hinserted := hnew hmove hcommitted
      subst hinserted
      exact .inr (hprogress₁.advance (by omega) _ (hcommit hprogress₁ hcommitted) (hlocks c w₁))

/-- A request to a point of sale is not about the tables. -/
theorem not_concerns_post (request : PosRequest) : ¬ (Op.postToPos request).Concerns payload := by
  rintro (h | h | h) <;> exact h

theorem not_concerns_consultBreaker (storeId : String) :
    ¬ (Op.consultBreaker storeId).Concerns payload := by
  rintro (h | h | h) <;> exact h

theorem not_concerns_findStore (storeId : String) : ¬ (Op.findStore storeId).Concerns payload := by
  rintro (h | h | h) <;> exact h

/-- An adapter that returns has been answered. -/
theorem aloneWp_sendOrder (adapter : PosAdapter) (order : DomainOrder)
    (hprogress : Progress payload jobMeta n (h, w)) :
    aloneWp config payload lossy (adapter.sendOrder order)
      (fun _ s => Progress payload jobMeta n s ∧ PosReturned s.1) (Progress payload jobMeta n)
      (h, w) := by
  unfold aloneWp System.relyWp
  rw [adapter.sendOrder_eq order]
  simp only [wp_tryCatch, wp_bind, wp_throw]
  refine System.relyWp_perform (fun w₁ c reply hmove _ _ => ?_) (fun w₁ c e hmove _ _ => ?_)
  · have hprogress₁ := (hprogress.moved hmove).call (not_concerns_post (adapter.request order)) c
      (⟨.postToPos (adapter.request order), .ok reply⟩ : OrderEvent)
    split
    · exact ⟨hprogress₁, adapter.request order, reply, List.mem_cons_self⟩
    · exact hprogress₁
  · exact (hprogress.moved hmove).call (not_concerns_post (adapter.request order)) c _

/-- The retries change nothing about this. -/
theorem aloneWp_execute (adapter : PosAdapter) (order : DomainOrder) (storeId : String)
    (hprogress : Progress payload jobMeta n (h, w)) :
    aloneWp config payload lossy (PosCircuitBreakerService.execute storeId (adapter.sendOrder order))
      (fun _ s => Progress payload jobMeta n s ∧ PosReturned s.1) (Progress payload jobMeta n)
      (h, w) := by
  have hbreaker : ∀ s, Progress payload jobMeta n s → aloneWp config payload lossy
      (PosCircuitBreakerService.breaker storeId (adapter.sendOrder order))
      (fun _ s => Progress payload jobMeta n s ∧ PosReturned s.1) (Progress payload jobMeta n) s := by
    rintro ⟨h, w⟩ hprogress
    unfold aloneWp System.relyWp PosCircuitBreakerService.breaker
    rw [wp_bind]
    refine wp_mono _ _ (fun isOpen s hprogress₁ => ?_) (fun _ _ hprogress₁ => hprogress₁)
      (aloneWp_progress (.perform (not_concerns_consultBreaker storeId)) hprogress)
    cases isOpen with
    | true => exact hprogress₁
    | false => exact aloneWp_sendOrder adapter order hprogress₁
  unfold aloneWp System.relyWp PosCircuitBreakerService.execute
  rw [wp_tryCatch]
  refine wp_mono _ _ (fun _ _ hQ => hQ) (fun err _ hprogress₁ => ?_)
    (PosCircuitBreakerService.wp_retry hbreaker 3 hprogress)
  split
  · exact hprogress₁
  · exact hprogress₁

/-- An execution may throw at any record before the last. -/
theorem Progress.stopped {s : List OrderEvent × World} (hprogress : Progress payload jobMeta n s)
    (hn : n < 4) : Stopped payload jobMeta lossy s :=
  ⟨n, by omega, hprogress, fun h => by omega⟩

/-- **The last two transitions**, of an order the point of sale has taken.  Between them the order
is sent and not completed, and an execution may well throw there. -/
theorem aloneWp_recordDispatch (posResult : PosOrderResult)
    (hprogress : Progress payload jobMeta 2 (h, w)) (hreturned : PosReturned h) :
    aloneWp config payload lossy (recordDispatch payload jobMeta posResult)
      (fun _ => Progress payload jobMeta 4) (Stopped payload jobMeta lossy) (h, w) := by
  unfold aloneWp System.relyWp recordDispatch
  rw [wp_bind]
  refine wp_mono _ _ (fun saved s hsaved => ?_)
    (fun _ _ hstopped => hstopped.1.stopped (by omega))
    (System.relyWp_suffix List.suffix_rfl (aloneWp_findById hprogress))
  -- the row is read again, so the transition to `SENT_TO_POS` carries its version
  obtain ⟨⟨hprogress₁, saved, rfl, -, hversion⟩, hpast⟩ := hsaved
  have hreturned₁ := hreturned.mono hpast.subset
  simp only [wp_bind]
  refine wp_mono _ _ (fun _ s₂ hprogress₂ => ?_) (fun _ s₂ hstopped => ?_)
    (aloneWp_transition rfl (fun r now hr => ?_) hprogress₁ fun _ => hreturned₁)
  · refine wp_mono _ _ (fun sent s₃ hsent => ?_) (fun _ _ hstopped => hstopped.stopped (by omega))
      (aloneWp_findById hprogress₂)
    -- and once more, for that to `COMPLETED`
    obtain ⟨hprogress₃, sent, rfl, -, hversion₃⟩ := hsent
    refine wp_mono _ _ (fun _ _ hprogress₄ => hprogress₄) (fun _ s₄ hstopped => ?_)
      (aloneWp_transition rfl (fun r now hr => ?_) hprogress₃ fun _ =>
        hprogress₃.posReturned (by omega))
    · rcases hstopped with hprogress₄ | ⟨hprogress₄, hlossy, e, hlost⟩
      · exact hprogress₄.stopped (by omega)
      · exact ⟨4, le_rfl, hprogress₄, fun _ => ⟨hlossy, _, e, rfl, hlost⟩⟩
    · rw [hversion₃]
      exact .completed now hr
  · rcases hstopped with hprogress₂ | ⟨hprogress₂, -⟩
    · exact hprogress₂.stopped (by omega)
    · exact hprogress₂.stopped (by omega)
  · rw [hversion]
    exact .sentToPos now posResult.rawResponse hr

/-- Step 4 takes the record from the second transaction to the last. -/
theorem aloneWp_sendToPos (hprogress : Progress payload jobMeta 2 (h, w)) :
    aloneWp config payload lossy (sendToPos payload jobMeta) (fun _ => Progress payload jobMeta 4)
      (Stopped payload jobMeta lossy) (h, w) := by
  unfold aloneWp System.relyWp sendToPos
  rw [wp_bind]
  refine wp_mono _ _ (fun storeRow s hprogress₁ => ?_)
    (fun _ _ hprogress₁ => hprogress₁.stopped (by omega))
    (aloneWp_progress (.perform (not_concerns_findStore payload.storeId)) hprogress)
  cases storeRow with
  | none => exact hprogress₁.stopped (by omega)
  | some store =>
      dsimp only
      split
      · exact hprogress₁.stopped (by omega)
      · rename_i adapter hadapter
        rw [wp_bind]
        exact wp_mono _ _ (fun posResult s₂ hsent => aloneWp_recordDispatch posResult hsent.1 hsent.2)
          (fun _ _ hprogress₂ => hprogress₂.stopped (by omega))
          (aloneWp_execute adapter (domainOrder payload) payload.storeId hprogress₁)

/-- All that happens under the lock: from nothing to the whole chain, or to a throw at some record
of it. -/
theorem aloneWp_processWithLock (hprogress : Progress payload jobMeta 0 (h, w))
    (hfree : w.db.findByKey? payload.idempotencyKey = none) :
    aloneWp config payload lossy (processWithLock payload jobMeta) (fun _ => Progress payload jobMeta 4)
      (Stopped payload jobMeta lossy) (h, w) := by
  unfold aloneWp System.relyWp processWithLock
  rw [wp_bind]
  refine wp_mono _ _ (fun created s hcreated => ?_) (fun _ _ hstopped => ?_)
    (aloneWp_create hprogress hfree)
  · obtain ⟨hprogress₁, order, rfl, hid, hversion⟩ := hcreated
    have hsave : ∀ r now, Chain payload jobMeta 1 r → Chain payload jobMeta 2 (r.moved
        (transitionParams order.row.id (.worker .queued) .saved order.row.version jobMeta) now) := by
      intro r now hr
      rw [hid, hversion]
      exact .saved now hr
    simp only [transitionToSaved, wp_bind]
    refine wp_mono _ _ (fun _ s₂ hprogress₂ => aloneWp_sendToPos hprogress₂) (fun _ _ hstopped => ?_)
      (aloneWp_transition hid hsave hprogress₁ (by omega))
    rcases hstopped with hprogress₂ | ⟨hprogress₂, -⟩
    · exact hprogress₂.stopped (by omega)
    · exact hprogress₂.stopped (by omega)
  · rcases hstopped with hprogress₁ | hprogress₁
    · exact hprogress₁.stopped (by omega)
    · exact hprogress₁.stopped (by omega)

/-- After the release the lock is free, unless the acquire took effect and its answer was lost.  The
record is what it was before. -/
structure Rests (payload : OrderJobPayload) (jobMeta : JobMeta) (lossy : Prop) (n : ℕ)
    (s : List OrderEvent × World) : Prop where
  chain : Chain payload jobMeta n (s.2.db.recordOf payload.orderId)
  posReturned : 3 ≤ n → PosReturned s.1
  unlocked : s.2.locks payload.orderId = none ∨ lossy ∧ AcquireLost payload jobMeta s.1

/-- What an execution that has thrown leaves behind. -/
def Thrown (payload : OrderJobPayload) (jobMeta : JobMeta) (lossy : Prop)
    (s : List OrderEvent × World) : Prop :=
  ∃ n ≤ 4, Rests payload jobMeta lossy n s ∧ (n = 4 → lossy ∧ CommitLost s.1)

/-- Nothing is kept under the order id, the key is free, and so is the lock: the state that a first
attempt finds. -/
structure Fresh (payload : OrderJobPayload) (w : World) : Prop where
  record : w.db.recordOf payload.orderId = .none
  key : w.db.findByKey? payload.idempotencyKey = none
  lock : w.locks payload.orderId = none

theorem Rests.moved (hrests : Rests payload jobMeta lossy n (h, w))
    (hmove : OrderKept payload w w') : Rests payload jobMeta lossy n (h, w') := by
  refine ⟨?_, hrests.posReturned, ?_⟩
  · rw [hmove.record]
    exact hrests.chain
  · rcases hmove.lock with hlock | hlock
    · rw [hlock]
      exact hrests.unlocked
    · exact .inl hlock

/-- **The acquire**, of a lock that is free. -/
theorem aloneWp_acquire (hfresh : Fresh payload w) :
    aloneWp config payload lossy
      (DistributedLockService.acquireOrThrow payload.orderId (lockToken jobMeta))
      (fun _ s => Progress payload jobMeta 0 s ∧ s.2.db.findByKey? payload.idempotencyKey = none)
      (Rests payload jobMeta lossy 0) ([], w) := by
  have hrecord : ∀ {w₁ : World} c, OrderKept payload w w₁ → Chain payload jobMeta 0
      ((Op.exec (.lockSetNx payload.orderId (lockToken jobMeta)) c w₁).2.db.recordOf
        payload.orderId) := by
    intro w₁ c hmove
    rw [Op.exec_recordOf id, hmove.record, hfresh.record]
    exact .nothing
  -- nobody else works on this order, and an expiry can only free the lock
  have hfree : ∀ {w₁ : World}, OrderKept payload w w₁ → w₁.locks payload.orderId = none := by
    intro w₁ hmove
    rcases hmove.lock with hlock | hlock
    · exact hlock.trans hfresh.lock
    · exact hlock
  unfold aloneWp System.relyWp DistributedLockService.acquireOrThrow DistributedLockService.acquire
  rw [wp_bind]
  refine System.relyWp_perform (fun w₁ c isAcquired hmove _ hexec => ?_)
    (fun w₁ c e hmove hfails hexec => ?_)
  · -- the lock is free, so the answer is that it is taken now
    have htrue : isAcquired = true := Op.exec_lockSetNx_eq_ok (hfree hmove) hexec
    subst htrue
    rw [if_pos rfl]
    refine ⟨⟨hrecord c hmove, by omega, .inl (Op.exec_lockSetNx_eq_true hexec).2⟩, ?_⟩
    exact Op.exec_findByKey? id c (hmove.key hfresh.key)
  · -- a call that fails has set the lock only if its answer was lost
    refine ⟨hrecord c hmove, by omega, ?_⟩
    rcases Op.exec_of_within hfails.answers (.lockSetNx payload.orderId (lockToken jobMeta)) w₁ with
      hsame | heffect | hlossy
    · refine .inl ?_
      show (Op.exec (.lockSetNx payload.orderId (lockToken jobMeta)) c w₁).2.locks _ = none
      rw [hsame]
      exact hfree hmove
    · replace hexec : (Op.exec (.lockSetNx payload.orderId (lockToken jobMeta)) c w₁).1 =
        .error e := hexec
      rw [heffect] at hexec
      cases hexec
    · exact .inr ⟨hlossy, e, List.mem_cons_self⟩

/-- **The release.**  It finds the lock in place or expired, and leaves it free. -/
theorem aloneWp_release (hprogress : Progress payload jobMeta n (h, w)) :
    aloneWp config payload lossy
      (DistributedLockService.release payload.orderId (lockToken jobMeta))
      (fun _ s => Rests payload jobMeta lossy n s ∧ h <:+ s.1) (fun _ => False) (h, w) := by
  refine System.relyWp_perform (fun w₁ c done hmove hfails _ => ?_)
    (fun w₁ c e hmove hfails hexec => ?_)
  · have hprogress₁ := hprogress.moved hmove
    refine ⟨⟨?_, (hprogress₁.cons _).posReturned, .inl ?_⟩, List.suffix_cons _ _⟩
    · show Chain payload jobMeta n ((Op.exec (.lockRelease payload.orderId (lockToken jobMeta)) c
        w₁).2.db.recordOf payload.orderId)
      rw [Op.exec_recordOf id]
      exact hprogress₁.chain
    · exact Op.exec_lockRelease (hfails.release _ _ rfl) hprogress₁.lock
  · -- it is answered
    replace hexec : (Op.exec (.lockRelease payload.orderId (lockToken jobMeta)) c w₁).1 =
      .error e := hexec
    rw [Op.exec_undisturbed (hfails.release _ _ rfl)] at hexec
    cases hexec

/-- **One execution**, wherever it throws.  It rests at the whole chain if it returns, and at some
part of it if it throws. -/
theorem aloneWp_process (hfresh : Fresh payload w) :
    aloneWp config payload lossy (process payload jobMeta) (fun _ => Rests payload jobMeta lossy 4)
      (Thrown payload jobMeta lossy) ([], w) := by
  unfold aloneWp System.relyWp process
  rw [wp_bind]
  refine wp_mono _ _ (fun _ s hacquired => ?_) (fun _ s hrests => ?_) (aloneWp_acquire hfresh)
  · obtain ⟨hprogress, hfree⟩ := hacquired
    rw [wp_tryFinally]
    refine wp_mono _ _ (fun _ s₂ hprogress₂ => ?_) (fun _ s₂ hstopped => ?_)
      (aloneWp_processWithLock hprogress hfree)
    · exact wp_mono _ _ (fun _ s₃ hrests => hrests.1) (fun _ _ hfalse => hfalse.elim)
        (aloneWp_release hprogress₂)
    · obtain ⟨n, hn, hprogress₂, hlost⟩ := hstopped
      refine wp_mono _ _ (fun _ s₃ hrests => ?_) (fun _ _ hfalse => hfalse.elim)
        (aloneWp_release hprogress₂)
      exact ⟨n, hn, hrests.1, fun h => ⟨(hlost h).1, (hlost h).2.mono hrests.2.subset⟩⟩
  · exact ⟨0, by omega, hrests, fun h => by omega⟩

theorem Thrown.moved (hthrown : Thrown payload jobMeta lossy (h, w))
    (hmove : OrderKept payload w w') : Thrown payload jobMeta lossy (h, w') := by
  obtain ⟨n, hn, hrests, hlost⟩ := hthrown
  exact ⟨n, hn, hrests.moved hmove, hlost⟩

end Execution

/-! ## Single executions -/

/-- A run from where thread `i` starts to process a fresh order, alone, to where it has
ended as `t`. -/
structure SingleExecution (config : AppConfig) (payload : OrderJobPayload) (jobMeta : JobMeta)
    (lossy : Prop) (i : ℕ) (P₀ P : OrderPool) (t : OrderThread) : Prop where
  start : P₀.threads i = some ((orderSystem config).start (.process payload jobMeta))
  fresh : Fresh payload P₀.world
  run : (orderSystem config).Reaches (LeftAlone payload i lossy) P₀ P
  thread : P.threads i = some t
  ended : t.rest.next = none

section Runs

variable {config : AppConfig} {payload : OrderJobPayload} {jobMeta : JobMeta} {lossy : Prop}
variable {i : ℕ} {P₀ P : OrderPool} {t : OrderThread}

/-- How the run of a single execution leaves its thread: the weakest precondition is carried through
the run, with the steps of others in between. -/
theorem SingleExecution.aloneWp (h : SingleExecution config payload jobMeta lossy i P₀ P t) :
    ChickenOrder.aloneWp config payload lossy t.rest
      (fun _ => Rests payload jobMeta lossy 4) (Thrown payload jobMeta lossy)
      (t.hist, P.world) := by
  have hstart : ChickenOrder.aloneWp config payload lossy
      ((orderSystem config).start (.process payload jobMeta)).rest
      (fun _ => Rests payload jobMeta lossy 4) (Thrown payload jobMeta lossy) ([], P₀.world) :=
    (wp_bind _ _ (process payload jobMeta) (fun _ => return Outcome.done) _ _ _).mpr
      (aloneWp_process h.fresh)
  obtain ⟨u, hu, -, hwp⟩ := System.relyWp_of_reaches OrderKept.refl (fun _ _ _ => OrderKept.trans)
    (fun _ _ _ _ hmove hrests => hrests.moved hmove)
    (fun _ _ _ _ hmove hthrown => hthrown.moved hmove)
    (fun _ _ _ hok hother hstep => hok.orderKept hother hstep)
    (fun P c t o k hok ht hrest => hok.fails c o rfl (Label.call?_act ht hrest c))
    h.start hstart h.run
  rw [h.thread, Option.some.injEq] at hu
  subst hu
  exact hwp

/-- **Crash consistency.**  An execution that alone writes a fresh order, and whose calls
fail as they may, leaves a prefix of the chain.  Its lock is free, unless the answer of the
acquire was lost.  The prefix is the whole chain if it has returned, and only then, unless
the answer of the last commit was lost. -/
theorem crashConsistent_of_singleExecution
    (h : SingleExecution config payload jobMeta lossy i P₀ P t) :
    ∃ n ≤ 4, Chain payload jobMeta n (P.world.db.recordOf payload.orderId) ∧
      (3 ≤ n → PosReturned t.hist) ∧
      (P.world.locks payload.orderId = none ∨ lossy ∧ AcquireLost payload jobMeta t.hist) ∧
      ((∃ a, t.Returned a) → n = 4) ∧
      (n = 4 → (∃ a, t.Returned a) ∨ lossy ∧ CommitLost t.hist) := by
  have hwp := h.aloneWp
  have hended := h.ended
  cases hrest : t.rest with
  | pure a =>
      rw [hrest] at hwp
      exact ⟨4, le_rfl, hwp.chain, hwp.posReturned, hwp.unlocked, fun _ => rfl,
        fun _ => .inl ⟨a, hrest⟩⟩
  | throw e =>
      rw [hrest] at hwp
      obtain ⟨n, hn, hrests, hlost⟩ := hwp
      refine ⟨n, hn, hrests.chain, hrests.posReturned, hrests.unlocked, ?_,
        fun hn => .inr (hlost hn)⟩
      rintro ⟨a, hreturned⟩
      rw [Thread.Returned, hrest] at hreturned
      cases hreturned
  | call o k =>
      rw [hrest] at hended
      cases hended

end Runs

/-! ### An attempt at the seeded order -/

/-- The attempt starts, alone. -/
def soloPool : OrderPool where
  world := World.init .seed
  threads := Function.update (fun _ => none) 0
    (some ((orderSystem seedConfig).start (.process seedPayload (seedJob 0))))

/-- Its first `n` calls. -/
def soloRun (faults : ℕ → Fault String) (n : ℕ) : List OrderLabel :=
  (List.range n).map fun k => .act 0 ⟨faults k, k, false, .ok (.string "<ORDER_ID>A1</ORDER_ID>")⟩

/-- The call gives a lock back. -/
def Op.releases : Op → Bool
  | .lockRelease _ _ => true
  | _ => false

/-- A step of the attempt. -/
def SoloStep (lossy : Prop) (ℓ : OrderLabel) (P : OrderPool) : Prop :=
  match ℓ with
  | .act j c => j = 0 ∧ c.fault.Within True lossy ∧
      (c.fault = .none ∨ ∀ o ∈ ℓ.call? P, o.releases = false)
  | _ => False

instance (lossy : Prop) [Decidable lossy] (ℓ : OrderLabel) (P : OrderPool) :
    Decidable (SoloStep lossy ℓ P) :=
  match ℓ with
  | .act _ _ => inferInstanceAs (Decidable (_ ∧ _ ∧ (_ ∨ _)))
  | .spawn _ _ => inferInstanceAs (Decidable False)
  | .env _ => inferInstanceAs (Decidable False)

theorem SoloStep.leftAlone {payload : OrderJobPayload} {lossy : Prop} {ℓ : OrderLabel}
    {P : OrderPool} (h : SoloStep lossy ℓ P) : LeftAlone payload 0 lossy ℓ P := by
  cases ℓ with
  | act j c =>
      obtain ⟨rfl, hwithin, hrelease⟩ := h
      refine ⟨?_, ?_⟩
      · rintro j c' o hℓ hj
        cases hℓ
        exact absurd rfl hj
      · rintro c' o hℓ hcall
        cases hℓ
        refine ⟨?_, hwithin⟩
        rintro id token rfl
        rcases hrelease with hquiet | hrelease
        · exact hquiet
        · cases hrelease _ hcall
  | spawn j q => exact h.elim
  | env e => exact h.elim

/-- The attempt alone, to where it has ended. -/
theorem singleExecution_of_solo {lossy : Prop} [Decidable lossy] {faults : ℕ → Fault String} {n : ℕ}
    (hadmitted : (orderSystem seedConfig).admitted? (SoloStep lossy) (soloRun faults n) soloPool =
      true)
    (hreplays : ((orderSystem seedConfig).replay (soloRun faults n) soloPool).isSome = true)
    {t : OrderThread}
    (ht : ((orderSystem seedConfig).after (soloRun faults n) soloPool hreplays).threads 0 = some t)
    (hended : t.rest.next = none) :
    SingleExecution seedConfig seedPayload (seedJob 0) lossy 0 soloPool
      ((orderSystem seedConfig).after (soloRun faults n) soloPool hreplays) t where
  start := rfl
  fresh := ⟨rfl, rfl, rfl⟩
  run := .after (.mono (fun _ _ h => h.leftAlone) (.of_check hadmitted)) hreplays
  thread := ht
  ended := hended

/-- The call after which it has sent the order is refused. -/
def refusedCall (n : ℕ) : Fault String := if n = 8 then .rejected "connection lost" else .none

/-- The last commit is not acknowledged. -/
def lostCommit (n : ℕ) : Fault String := if n = 10 then .unacknowledged "connection lost" else .none

/-- The acquire is not acknowledged. -/
def lostAcquire (n : ℕ) : Fault String := if n = 0 then .unacknowledged "connection lost" else .none

/-- The message of the error that a thread has ended with. -/
def threwText (t : OrderThread) : Option String :=
  match t.rest with
  | .throw e => some e.message
  | _ => none

theorem threwText_eq_some {t : OrderThread} {message : String} (h : threwText t = some message) :
    ∃ e, t.rest = .throw e := by
  unfold threwText at h
  split at h
  · rename_i e hrest
    exact ⟨e, hrest⟩
  · cases h

theorem soloRuns_replay :
    ((orderSystem seedConfig).replay (soloRun refusedCall 10) soloPool).isSome = true ∧
    ((orderSystem seedConfig).replay (soloRun lostCommit 12) soloPool).isSome = true ∧
    ((orderSystem seedConfig).replay (soloRun lostAcquire 1) soloPool).isSome = true := by
  decide +kernel

/-- In the first a call is refused; in the other two an answer is lost. -/
theorem soloRuns_admitted :
    (orderSystem seedConfig).admitted? (SoloStep False) (soloRun refusedCall 10) soloPool = true ∧
    (orderSystem seedConfig).admitted? (SoloStep True) (soloRun lostCommit 12) soloPool = true ∧
    (orderSystem seedConfig).admitted? (SoloStep True) (soloRun lostAcquire 1) soloPool = true := by
  decide +kernel

/-- The pool in which the call was refused. -/
def refusedCallPool : OrderPool :=
  (orderSystem seedConfig).after (soloRun refusedCall 10) soloPool soloRuns_replay.1

/-- The pool in which the commit was lost. -/
def lostCommitPool : OrderPool :=
  (orderSystem seedConfig).after (soloRun lostCommit 12) soloPool soloRuns_replay.2.1

/-- The pool in which the answer to the lock was lost. -/
def lostAcquirePool : OrderPool :=
  (orderSystem seedConfig).after (soloRun lostAcquire 1) soloPool soloRuns_replay.2.2

theorem soloPools_threw :
    (refusedCallPool.threads 0).bind threwText = some "connection lost" ∧
    (lostCommitPool.threads 0).bind threwText = some "connection lost" ∧
    (lostAcquirePool.threads 0).bind threwText = some "connection lost" := by
  decide +kernel

theorem threw_of_bind {P : OrderPool} {message : String}
    (h : (P.threads 0).bind threwText = some message) :
    ∃ t e, P.threads 0 = some t ∧ t.rest = .throw e := by
  obtain ⟨t, ht, hthrew⟩ := Option.bind_eq_some_iff.mp h
  obtain ⟨e, hrest⟩ := threwText_eq_some hthrew
  exact ⟨t, e, ht, hrest⟩

/-- What the refused call leaves behind is a part of the chain, and the lock is free. -/
theorem crashConsistent_of_singleExecution_refusedCall :
    ∃ t, refusedCallPool.threads 0 = some t ∧ ∃ n ≤ 4,
      Chain seedPayload (seedJob 0) n (refusedCallPool.world.db.recordOf seedPayload.orderId) ∧
      (3 ≤ n → PosReturned t.hist) ∧
      (refusedCallPool.world.locks seedPayload.orderId = none ∨
        False ∧ AcquireLost seedPayload (seedJob 0) t.hist) ∧
      ((∃ a, t.Returned a) → n = 4) ∧ (n = 4 → (∃ a, t.Returned a) ∨ False ∧ CommitLost t.hist) := by
  obtain ⟨t, e, ht, hrest⟩ := threw_of_bind soloPools_threw.1
  have hended : t.rest.next = none := by
    rw [hrest]
    rfl
  exact ⟨t, ht, crashConsistent_of_singleExecution
    (singleExecution_of_solo soloRuns_admitted.1 soloRuns_replay.1 ht hended)⟩

/-- **Answers can be lost.**  An execution whose last commit is not acknowledged leaves the
whole chain and throws; one whose acquire is not acknowledged leaves its lock. -/
theorem not_crashConsistent_of_lostAnswers :
    (¬ ∀ (config : AppConfig) (payload : OrderJobPayload) (jobMeta : JobMeta) (i : ℕ)
        (P₀ P : OrderPool) (t : OrderThread),
      SingleExecution config payload jobMeta True i P₀ P t →
      ∃ n, Chain payload jobMeta n (P.world.db.recordOf payload.orderId) ∧
        (n = 4 ↔ ∃ a, t.Returned a)) ∧
    ¬ ∀ (config : AppConfig) (payload : OrderJobPayload) (jobMeta : JobMeta) (i : ℕ)
        (P₀ P : OrderPool) (t : OrderThread),
      SingleExecution config payload jobMeta True i P₀ P t →
      P.world.locks payload.orderId = none := by
  refine ⟨fun h => ?_, fun h => ?_⟩
  · obtain ⟨t, e, ht, hrest⟩ := threw_of_bind soloPools_threw.2.1
    have hended : t.rest.next = none := by
      rw [hrest]
      rfl
    obtain ⟨n, hchain, hiff⟩ := h seedConfig seedPayload (seedJob 0) 0 soloPool lostCommitPool t
      (singleExecution_of_solo soloRuns_admitted.2.1 soloRuns_replay.2.1 ht hended)
    -- the row has the version of the whole chain
    have hversion : (lostCommitPool.world.db.recordOf ⟨7⟩).row.map OrderRow.version = some 3 := by
      decide +kernel
    obtain ⟨row, hrow, hthree⟩ := Option.map_eq_some_iff.mp hversion
    have hpos : n ≠ 0 := by
      rintro rfl
      rw [show lostCommitPool.world.db.recordOf ⟨7⟩ = .none from hchain.eq_none] at hrow
      cases hrow
    obtain ⟨row', hrow', -, hversion'⟩ := hchain.hasRow hpos
    have hsame : row' = row := Option.some.inj (hrow'.symm.trans hrow)
    rw [hsame] at hversion'
    obtain ⟨a, hreturned⟩ := hiff.mp (by omega)
    rw [Thread.Returned, hrest] at hreturned
    cases hreturned
  · obtain ⟨t, e, ht, hrest⟩ := threw_of_bind soloPools_threw.2.2
    have hended : t.rest.next = none := by
      rw [hrest]
      rfl
    have hfree := h seedConfig seedPayload (seedJob 0) 0 soloPool lostAcquirePool t
      (singleExecution_of_solo soloRuns_admitted.2.2 soloRuns_replay.2.2 ht hended)
    have hlocked : lostAcquirePool.world.locks ⟨7⟩ = some ⟨"worker-a-1", .order ⟨7⟩⟩ := by
      decide +kernel
    rw [show lostAcquirePool.world.locks ⟨7⟩ = none from hfree] at hlocked
    cases hlocked

end ChickenOrder
