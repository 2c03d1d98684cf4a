import ChickenOrder.Services.Executions

/-!
# Acknowledged jobs

A job is acknowledged when an execution of `process` returns.  The claim of the
failure scenarios is that nothing is lost by it: the order is then settled, or
somebody is still going to work on it.  `Accounted` says so of a pool.

The duplicate branch of step 2 breaks it.  It takes every row that exists for an
order that is already processed, also the row a failed attempt of the same job
left at `SAVED`.  In runs where step 2 only ever meets settled rows the guarantee
holds, and in its strong form: whatever is acknowledged is settled.

The proof follows an execution by its own history.  One that has returned has met a duplicate in
step 2 or has made the transition to `COMPLETED`, and both are answers of calls: what they say
of the table holds from then on, because a settled row stays settled (`settled_row_kept`) as
long as no `PATCH` writes it.  So nothing has to be known of the lock, of the other executions
or of the queue.
-/

namespace ChickenOrder

open Interaction Interaction.Program ProcessOrderService

/-! ## The guarantee -/

/-- Somebody but thread `i` is still going to work on the key: an execution that is
under way, a job nobody has taken, or the retry of a failed attempt. -/
inductive Outstanding (P : OrderPool) (key : String) (i : ℕ) : Prop
  | underWay (j : ℕ) (t : OrderThread) (payload : OrderJobPayload) (jobMeta : JobMeta)
      (hother : j ≠ i) (hthread : P.threads j = some t)
      (hrequest : t.request = .process payload jobMeta) (hkey : payload.idempotencyKey = key)
      (hphase : t.phase = .running)
  | waiting (job : Job) (hqueued : job ∈ P.world.mainQueue) (hkey : job.data.idempotencyKey = key)
      (huntaken : ∀ j t payload jobMeta, P.threads j = some t →
        t.request = .process payload jobMeta → jobMeta.jobId ≠ job.id)
  | retry (j : ℕ) (t : OrderThread) (payload : OrderJobPayload) (jobMeta : JobMeta)
      (hthread : P.threads j = some t) (hrequest : t.request = .process payload jobMeta)
      (hkey : payload.idempotencyKey = key) (hphase : t.phase = .threw)
      (hlast : ∀ l u payload' jobMeta', P.threads l = some u →
        u.request = .process payload' jobMeta' → jobMeta'.jobId = jobMeta.jobId →
        jobMeta'.attemptsMade ≤ jobMeta.attemptsMade)

/-- The order that holds the key is `COMPLETED` or `FAILED`: nobody has to do anything for it any
more.  Which order holds a key is a matter of the unique column, not of the job. -/
def KeySettled (key : String) (db : Database) : Prop :=
  ∃ row, db.findByKey? key = some row ∧ row.status.Settled

/-- No acknowledged job for the key has left its order behind: the order is settled, or an
execution, a waiting job or a retry is still to come.  This is what the failure scenarios of the
documentation promise. -/
def Accounted (key : String) (P : OrderPool) : Prop :=
  ∀ i t payload jobMeta, P.threads i = some t → t.request = .process payload jobMeta →
    payload.idempotencyKey = key → t.phase = .returned →
    KeySettled key P.world.db ∨ Outstanding P key i

/-! ## The condition -/

/-- No `PATCH` statement at this step writes the order that holds the key.  The handlers write past
the state machine, and so could take a settled order back. -/
def Unpatched (key : String) (ℓ : OrderLabel) (P : OrderPool) : Prop :=
  ∀ o ∈ ℓ.call? P, ∀ target ∈ o.patchTarget? P.world.db,
    varcharColumn key ≠ .ok target.1.idempotencyKey

/-- The call is step 2 for the key, and the database is going to answer that the key is used.
A call that is lost or refused is not taken for a duplicate. -/
def Op.meetsDuplicate (o : Op) (key : String) (c : Choice) (w : World) : Bool :=
  match o with
  | .repo (.createOrder p) =>
      match c.fault, w.db.createOrder p c.now with
      | .none, .ok (false, _) => p.idempotencyKey = key
      | _, _ => false
  | _ => false

/-- Step 2 for the key, if this step is one, is answered with no duplicate, or with a settled one.
Nothing is asked of calls that fail, nor of those for other keys. -/
def FindsSettled (key : String) (ℓ : OrderLabel) (P : OrderPool) : Prop :=
  match ℓ with
  | .act _ c => ∀ o ∈ ℓ.call? P, o.meetsDuplicate key c P.world = true →
      ∀ row ∈ P.world.db.findByKey? key, row.status.Settled
  | _ => True

/-- The steps of runs that lose nothing: those at which the key's order is not patched, and step 2
finds no row that a failed attempt has left half way. -/
def Retryable (key : String) (ℓ : OrderLabel) (P : OrderPool) : Prop :=
  Unpatched key ℓ P ∧ FindsSettled key ℓ P

instance (key : String) (ℓ : OrderLabel) (P : OrderPool) : Decidable (Unpatched key ℓ P) :=
  inferInstanceAs (Decidable (∀ o ∈ ℓ.call? P, _))

instance (key : String) (ℓ : OrderLabel) (P : OrderPool) : Decidable (FindsSettled key ℓ P) :=
  match ℓ with
  | .act i c => inferInstanceAs (Decidable (∀ o ∈ (Label.act i c : OrderLabel).call? P, _))
  | .spawn _ _ | .env _ => .isTrue trivial

instance (key : String) (ℓ : OrderLabel) (P : OrderPool) : Decidable (Retryable key ℓ P) :=
  inferInstanceAs (Decidable (_ ∧ _))

/-! ## Settled orders stay settled -/

section Runs

variable {config : AppConfig} {P₀ P P' : OrderPool} {ℓ : OrderLabel} {key : String}

/-- The order `id` exists, and if it holds the key it is settled.  An execution knows the id of its
payload, and only the row says whether that is the order of the key. -/
def SettledIfHolder (key : String) (id : Uuid) (db : Database) : Prop :=
  ∃ row, db.orders.find? id = some row ∧
    (varcharColumn key = .ok row.idempotencyKey → row.status.Settled)

/-- A settled row stays settled.  No transition leaves a settled status, since a re-drive is refused
and an execution bases its transitions on `QUEUED` and `SAVED`; and a `PATCH` of this order is
excluded. -/
theorem settled_row_kept (hpatch : Unpatched key ℓ P)
    (hstep : (orderSystem config).step ℓ P = some P') {id : Uuid} {row : OrderRow}
    (hrow : P.world.db.orders.find? id = some row)
    (hsettled : varcharColumn key = .ok row.idempotencyKey → row.status.Settled) :
    ∃ row', P'.world.db.orders.find? id = some row' ∧
      row'.idempotencyKey = row.idempotencyKey ∧
      (varcharColumn key = .ok row'.idempotencyKey → row'.status.Settled) := by
  have hchange := orderSystem_step_change hstep id
  obtain ⟨row', hrow', hkey', -⟩ := hchange.persists hrow
  refine ⟨row', hrow', hkey', fun hholds => ?_⟩
  rw [hkey'] at hholds
  have hold := hsettled hholds
  obtain hsame | ⟨s, next, hs, hnext, -⟩ | ⟨o, hcall, hwrites⟩ := hchange.status_cases hrow hrow'
  · rw [hsame]
    exact hold
  · rw [hs] at hold
    rcases hold with hcompleted | hfailed
    · cases hcompleted
      cases hnext
    · cases hfailed
      cases hnext
  · exact absurd hholds (hpatch o hcall _ (hwrites.patchTarget? hrow))

/-- One step of the system keeps what is known of the order. -/
theorem SettledIfHolder.step {id : Uuid} (h : SettledIfHolder key id P.world.db)
    (hpatch : Unpatched key ℓ P) (hstep : (orderSystem config).step ℓ P = some P') :
    SettledIfHolder key id P'.world.db := by
  obtain ⟨row, hrow, hsettled⟩ := h
  obtain ⟨row', hrow', -, hsettled'⟩ := settled_row_kept hpatch hstep hrow hsettled
  exact ⟨row', hrow', hsettled'⟩

/-- One step of the system keeps the key's order settled. -/
theorem KeySettled.step (h : KeySettled key P.world.db) (hpatch : Unpatched key ℓ P)
    (hstep : (orderSystem config).step ℓ P = some P') : KeySettled key P'.world.db := by
  obtain ⟨row, hrow, hsettled⟩ := h
  obtain ⟨hholds, hfind⟩ := Database.findByKey?_eq_some_iff.mp hrow
  obtain ⟨row', hrow', hkey', hsettled'⟩ := settled_row_kept hpatch hstep hfind fun _ => hsettled
  have hholds' : varcharColumn key = .ok row'.idempotencyKey := by rw [hkey', hholds]
  have hid := (Relational.Table.find?_eq_some_iff.mp hrow').2
  exact ⟨row', Database.findByKey?_eq_some_iff.mpr ⟨hholds', by rw [hid, hrow']⟩, hsettled' hholds'⟩

/-! ## Retryable runs lose nothing -/

/-- A duplicate that step 2 has met is settled: it was when it was met, as the run is retryable, and
it has stayed so ever since. -/
theorem keySettled_of_duplicate (hinit : ∀ i, P₀.threads i = none)
    (h : (orderSystem config).Reaches (Retryable key) P₀ P) {i : ℕ} {t : OrderThread}
    (ht : P.threads i = some t) {p : CreateOrderParams} (hkey : p.idempotencyKey = key)
    (hmem : (⟨.repo (.createOrder p), .ok false⟩ : OrderEvent) ∈ t.hist) :
    KeySettled key P.world.db := by
  refine System.facts_of_reaches
    (fun e w => ∀ p : CreateOrderParams, p.idempotencyKey = key →
      e = (⟨.repo (.createOrder p), .ok false⟩ : OrderEvent) → KeySettled key w.db)
    hinit ?_ ?_ h i t ht _ hmem p hkey rfl
  · rintro P i c t o k - hok ht hrest p rfl he
    obtain ⟨rfl, hanswer⟩ := Event.mk.inj he
    have hspec := Op.exec_createOrder_eq_ok (eq_of_heq hanswer)
    obtain ⟨-, hdb, row, hrow⟩ | ⟨hins, -⟩ := Database.createOrder_eq_ok hspec
    · have hcall : (Label.act i c : OrderLabel).call? P = some (.repo (.createOrder p)) :=
        Label.call?_act ht hrest c
      have hquiet : c.fault = .none := Fault.eq_none_of_apply_eq_ok (eq_of_heq hanswer)
      have hmeets : Op.meetsDuplicate (.repo (.createOrder p)) p.idempotencyKey c P.world = true := by
        simp only [Op.meetsDuplicate, hquiet, hspec, decide_true]
      have hsettled := hok.2 _ hcall hmeets row hrow
      refine ⟨row, ?_, hsettled⟩
      rw [show ((orderSystem config).exec (.repo (.createOrder p)) c P.world).2.db = _ from hdb]
      exact hrow
    · cases hins
  · intro P ℓ P' e _ hok hstep hold p hkey he
    exact (hold p hkey he).step hok.1 hstep

/-- An order that an execution has completed is settled, if it holds the key: its last transition is
an answered call, whose effect no later step undoes. -/
theorem settledIfHolder_of_completed (hinit : ∀ i, P₀.threads i = none)
    (h : (orderSystem config).Reaches (Retryable key) P₀ P) {i : ℕ} {t : OrderThread}
    (ht : P.threads i = some t) {p : TransitionParams} (hnext : p.nextStatus = .completed)
    (hmem : (⟨.repo (.transitionStatus p), .ok ()⟩ : OrderEvent) ∈ t.hist) :
    SettledIfHolder key p.orderId P.world.db := by
  refine System.facts_of_reaches
    (fun e w => ∀ p : TransitionParams, p.nextStatus = .completed →
      e = (⟨.repo (.transitionStatus p), .ok ()⟩ : OrderEvent) →
      SettledIfHolder key p.orderId w.db)
    hinit ?_ ?_ h i t ht _ hmem p hnext rfl
  · rintro P i c t o k - - - - p hnext he
    obtain ⟨rfl, hanswer⟩ := Event.mk.inj he
    obtain ⟨row, -, -, hrow⟩ :=
      Database.transitionStatus_find? (Op.exec_transitionStatus_eq_ok (eq_of_heq hanswer))
    exact ⟨_, hrow, fun _ => .inl (by rw [OrderRow.transition_status, hnext])⟩
  · intro P ℓ P' e _ hok hstep hold p hnext he
    exact (hold p hnext he).step hok.1 hstep

/-- **Whatever is acknowledged is settled**, in runs where step 2 meets no unsettled row.  An
execution that returns has either completed its order or met a duplicate, and both are settled
orders of the key. -/
theorem keySettled_of_returned (hinit : ∀ i, P₀.threads i = none)
    (h : (orderSystem config).Reaches (Retryable key) P₀ P) {i : ℕ} {t : OrderThread}
    (ht : P.threads i = some t) {payload : OrderJobPayload} {jobMeta : JobMeta}
    (hreq : t.request = .process payload jobMeta) (hkey : payload.idempotencyKey = key)
    (hphase : t.phase = .returned) : KeySettled key P.world.db := by
  obtain ⟨a, hret⟩ := Thread.phase_eq_returned hphase
  have hfinished := Protocol.returns_of_reaches (respects_executions hinit)
    (fun q _ => follows_executions config q) hinit h ht hret payload jobMeta hreq
  rcases hfinished with hdup | ⟨hins, p, hid, hnext, hmoved⟩
  · exact keySettled_of_duplicate hinit h ht hkey hdup
  · obtain ⟨row, hrow, hrowId⟩ := keyTaken_of_reaches hinit h ht hins
    obtain ⟨row', hrow', hsettled⟩ := settledIfHolder_of_completed hinit h ht hnext hmoved
    have hown : payload.idempotencyKey = key := hkey
    rw [show (createParams payload jobMeta).idempotencyKey = key from hown] at hrow
    obtain ⟨hholds, hfind⟩ := Database.findByKey?_eq_some_iff.mp hrow
    have hsame : row.id = p.orderId := (hrowId rfl).trans hid.symm
    rw [hsame, hrow'] at hfind
    cases hfind
    exact ⟨row, hrow, hsettled hholds⟩

/-- **Acknowledgements lose nothing in retryable runs.**  From any stored orders,
with any requests, failures and expiring keys: if no `PATCH` writes the key's order
and step 2 only finds settled rows for the key, every acknowledged job is accounted
for. -/
theorem accounted_of_retryable {db : Database}
    (h : (orderSystem config).Reaches (Retryable key) (Pool.init (World.init db)) P) :
    Accounted key P :=
  fun _ _ _ _ ht hreq hkey hphase =>
    .inl (keySettled_of_returned (fun _ => rfl) h ht hreq hkey hphase)

end Runs

/-! ### A job whose only attempt succeeds -/

/-- The API takes the order, and one attempt completes it.  Nothing fails in between, and no `PATCH`
is made. -/
def smoothRun : List OrderLabel :=
  .spawn 0 (.createOrder seedCommand seedContext) ::
    (List.range 7).map (fun n => .act 0 (.undisturbed n)) ++
    .spawn 1 (.process seedPayload (seedJob 0)) ::
    (List.range 12).map (fun n => .act 1 (.undisturbed (10 + n)))

theorem smoothRun_replays :
    ((orderSystem seedConfig).replay smoothRun (Pool.init (World.init .seed))).isSome = true := by
  decide +kernel

theorem smoothRun_admitted :
    (orderSystem seedConfig).admitted? (Retryable "key-7") smoothRun
      (Pool.init (World.init .seed)) = true := by
  decide +kernel

/-- The pool after that run. -/
def smoothPool : OrderPool :=
  (orderSystem seedConfig).after smoothRun (Pool.init (World.init .seed)) smoothRun_replays

/-- In that run the guarantee holds by the theorem, as its steps meet the condition. -/
theorem accounted_of_retryable_smooth : Accounted "key-7" smoothPool :=
  accounted_of_retryable (.after (.of_check smoothRun_admitted) smoothRun_replays)

example : smoothPool.world.db.statusOf ⟨7⟩ = some (.worker .completed) := by decide +kernel

/-! ### A job whose first attempt fails -/

/-- The API takes the order; the first attempt stores it and fails to look up the
store; the failure is counted; the second attempt meets the stored row. -/
def lostRun : List OrderLabel :=
  .spawn 0 (.createOrder seedCommand seedContext) ::
    (List.range 7).map (fun n => .act 0 (.undisturbed n)) ++
    [.spawn 1 (.process seedPayload (seedJob 0)), .act 1 (.undisturbed 10),
      .act 1 (.undisturbed 11), .act 1 (.undisturbed 12), .act 1 (.undisturbed 13),
      .act 1 ⟨.rejected "connection terminated", 14, false, .error ""⟩, .act 1 (.undisturbed 15),
      .spawn 2 (.handleFailure seedPayload (.other "connection terminated") (seedJob 1)),
      .act 2 (.undisturbed 16),
      .spawn 3 (.process seedPayload (seedJob 1)), .act 3 (.undisturbed 1016),
      .act 3 (.undisturbed 1017), .act 3 (.undisturbed 1018)]

theorem lostRun_replays :
    ((orderSystem seedConfig).replay lostRun (Pool.init (World.init .seed))).isSome = true := by
  decide +kernel

/-- Nothing in it is patched; it is step 2 that meets an unsettled row. -/
theorem lostRun_admitted :
    (orderSystem seedConfig).admitted? (Unpatched "key-7") lostRun
      (Pool.init (World.init .seed)) = true := by
  decide +kernel

/-- The pool after it. -/
def lostPool : OrderPool :=
  (orderSystem seedConfig).after lostRun (Pool.init (World.init .seed)) lostRun_replays

/-- Two attempts, one failed and one acknowledged, of the only job; and the row, which is still at
`SAVED`. -/
theorem lostPool_facts :
    (executionOf lostPool 0 = none ∧ executionOf lostPool 2 = none ∧
      executionOf lostPool 1 = some (seedPayload, seedJob 0, .threw) ∧
      executionOf lostPool 3 = some (seedPayload, seedJob 1, .returned)) ∧
      lostPool.world.mainQueue.map Job.id = [.order ⟨7⟩] ∧
      (lostPool.world.db.findByKey? "key-7").map OrderRow.status = some (.worker .saved) := by
  decide +kernel

/-- The executions of that pool are the two attempts. -/
theorem lostPool_execution_cases {j : ℕ} {t : OrderThread} {payload : OrderJobPayload}
    {jobMeta : JobMeta} (ht : lostPool.threads j = some t)
    (hreq : t.request = .process payload jobMeta) :
    (j = 1 ∧ jobMeta = seedJob 0 ∧ t.phase = .threw) ∨
      (j = 3 ∧ jobMeta = seedJob 1 ∧ t.phase = .returned) := by
  have hj : j ∈ System.spawned lostRun := System.spawned_of_after ht
  have hspawned : System.spawned lostRun = [0, 1, 2, 3] := by decide +kernel
  have hexec : executionOf lostPool j = some (payload, jobMeta, t.phase) :=
    executionOf_eq_some.mpr ⟨t, ht, hreq, rfl⟩
  obtain ⟨⟨h₀, h₂, h₁, h₃⟩, -⟩ := lostPool_facts
  rw [hspawned] at hj
  simp only [List.mem_cons, List.not_mem_nil, or_false] at hj
  rcases hj with rfl | rfl | rfl | rfl
  · rw [h₀] at hexec
    cases hexec
  · rw [h₁, Option.some.injEq, Prod.mk.injEq, Prod.mk.injEq] at hexec
    exact .inl ⟨rfl, hexec.2.1.symm, hexec.2.2.symm⟩
  · rw [h₂] at hexec
    cases hexec
  · rw [h₃, Option.some.injEq, Prod.mk.injEq, Prod.mk.injEq] at hexec
    exact .inr ⟨rfl, hexec.2.1.symm, hexec.2.2.symm⟩

/-- Nobody works on the order any more. -/
theorem lostPool_not_outstanding : ¬ Outstanding lostPool "key-7" 3 := by
  obtain ⟨⟨-, -, h₁, h₃⟩, hqueue, -⟩ := lostPool_facts
  obtain ⟨t₁, ht₁, hreq₁, -⟩ := executionOf_eq_some.mp h₁
  obtain ⟨t₃, ht₃, hreq₃, -⟩ := executionOf_eq_some.mp h₃
  rintro (⟨j, t, payload, jobMeta, -, ht, hreq, -, hphase⟩ | ⟨job, hqueued, -, huntaken⟩ |
    ⟨j, t, payload, jobMeta, ht, hreq, -, hphase, hlast⟩)
  · -- both attempts are over
    obtain ⟨-, -, hover⟩ | ⟨-, -, hover⟩ := lostPool_execution_cases ht hreq
    · rw [hphase] at hover
      cases hover
    · rw [hphase] at hover
      cases hover
  · -- the only job was taken
    have hid : job.id ∈ lostPool.world.mainQueue.map Job.id := List.mem_map_of_mem hqueued
    rw [hqueue, List.mem_singleton] at hid
    exact huntaken 1 t₁ seedPayload (seedJob 0) ht₁ hreq₁ hid.symm
  · -- the failed attempt has been retried
    obtain ⟨-, rfl, -⟩ | ⟨-, -, hover⟩ := lostPool_execution_cases ht hreq
    · have hle := hlast 3 t₃ seedPayload (seedJob 1) ht₃ hreq₃ rfl
      exact absurd hle (by decide)
    · rw [hphase] at hover
      cases hover

/-- **A retry loses the order.**  It takes the row of its own failed attempt for an
order that is already processed, and is acknowledged with the row at `SAVED`. -/
theorem not_accounted_of_retry :
    ¬ ∀ (config : AppConfig) (key : String) (db : Database) (P : OrderPool),
      (orderSystem config).Reaches (Unpatched key) (Pool.init (World.init db)) P →
      Accounted key P := by
  intro h
  have haccounted := h seedConfig "key-7" .seed lostPool
    (.after (.of_check lostRun_admitted) lostRun_replays)
  obtain ⟨⟨-, -, -, h₃⟩, -, hrow⟩ := lostPool_facts
  obtain ⟨t, ht, hreq, hphase⟩ := executionOf_eq_some.mp h₃
  rcases haccounted 3 t seedPayload (seedJob 1) ht hreq rfl hphase with hsettled | hwork
  · obtain ⟨row, hfind, hstatus⟩ := hsettled
    rw [hfind, Option.map_some, Option.some.injEq] at hrow
    rw [hrow] at hstatus
    exact absurd hstatus (by decide)
  · exact lostPool_not_outstanding hwork

end ChickenOrder
