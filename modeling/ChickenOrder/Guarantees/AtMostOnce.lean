import ChickenOrder.Services.Executions

/-!
# At-most-once dispatch to the point of sale

However many executions of `process` carry one idempotency key, at most one of
them goes on to the point of sale.  The lock plays no part: what makes the
execution unique is that its `createOrder` committed the one row of the key, and
rows stay.  The retry policy then bounds the requests of that execution by four.

Two arguments meet in `atMostOnce_dispatch`.  The first is about one program: `Request.atMost`
counts the requests in its text, whatever is answered.  The second is about interleavings: a
request for the key is sent only by an execution whose `createOrder` inserted the key's row, and
there is one of those (`inserter_unique`).
-/

namespace ChickenOrder

open Interaction Interaction.Program

/-! ## The requests of one execution -/

/-- The call is a request to the point of sale.  Whether it was received is another matter; this
counts what was sent. -/
def Op.isPost : Op → Bool
  | .postToPos _ => true
  | _ => false

/-- An adapter sends one request at most: it looks at the headers and at the answer, but does not
try again. -/
theorem PosAdapter.sendOrder_atMost (adapter : PosAdapter) (order : DomainOrder) :
    (adapter.sendOrder order).AtMost Op.isPost 1 := by
  cases adapter with
  | legacyV1 endpoint apiKey =>
      refine .tryCatch (n := 0) (.bind (n := 0) (.perform _) fun response => ?_) fun err => trivial
      split <;> trivial
  | modernV2 endpoint apiKey =>
      refine .tryCatch (n := 0) (.bind (n := 0) (.perform _) fun response => ?_) fun err => trivial
      split <;> trivial

/-- `n` further invocations make `n` times the calls again.  The induction is on the retries that
are left. -/
theorem PosCircuitBreakerService.retry_atMost {α : Type} {counted : Op → Bool} {m : ℕ}
    {fn : Service α} (h : fn.AtMost counted m) (n : ℕ) :
    (PosCircuitBreakerService.retry n fn).AtMost counted ((n + 1) * m) := by
  induction n with
  | zero =>
      rw [Nat.zero_add, Nat.one_mul]
      exact h
  | succ n ih =>
      have htwice : (PosCircuitBreakerService.retry (n + 1) fn).AtMost counted (m + (n + 1) * m) :=
        .tryCatch h fun _ => ih
      have hcount : m + (n + 1) * m = (n + 1 + 1) * m := by
        rw [Nat.add_mul (n + 1) 1 m, Nat.one_mul, Nat.add_comm]
      rwa [hcount] at htwice

/-- The retry policy makes at most four requests: one, and three retries of it. -/
theorem PosCircuitBreakerService.execute_atMost {α : Type} {storeId : String} {fn : Service α}
    (h : fn.AtMost Op.isPost 1) :
    (PosCircuitBreakerService.execute storeId fn).AtMost Op.isPost 4 := by
  have hbreaker : (PosCircuitBreakerService.breaker storeId fn).AtMost Op.isPost (0 + 1) := by
    refine .bind (.of_onlyCalls (.perform rfl) 0) fun isOpen => ?_
    split
    · trivial
    · exact h
  have hhandler : ∀ err : OrderError,
      (if err.isBrokenCircuitError then Program.throw (.circuitBreakerOpen storeId)
        else Program.throw err : Service α).AtMost Op.isPost 0 := by
    intro err
    split <;> trivial
  exact .tryCatch (PosCircuitBreakerService.retry_atMost hbreaker 3) hhandler

namespace ProcessOrderService

variable (payload : OrderJobPayload) (jobMeta : JobMeta)

/-- Step 4 makes at most four requests, those of the policy. -/
theorem sendToPos_atMost : (sendToPos payload jobMeta).AtMost Op.isPost 4 := by
  refine (AtMost.bind (n := 4) (.of_onlyCalls (.perform rfl) 0) fun store => ?_)
  cases store with
  | none => trivial
  | some store =>
      dsimp only
      split
      · trivial
      · rename_i posAdapter _
        have hrecord : ∀ posResult, (recordDispatch payload jobMeta posResult).OnlyCalls
            fun o => o.isPost = false :=
          recordDispatch_onlyCalls payload jobMeta rfl fun _ _ _ => rfl
        exact .bind (n := 0) (PosCircuitBreakerService.execute_atMost
          (PosAdapter.sendOrder_atMost posAdapter _)) fun posResult => .of_onlyCalls (hrecord posResult) 0

theorem processWithLock_atMost : (processWithLock payload jobMeta).AtMost Op.isPost 4 := by
  refine (AtMost.bind (n := 4)
    (.of_onlyCalls (OrderRepository.create_onlyCalls rfl rfl) 0) fun order => ?_)
  cases order with
  | none => trivial
  | some order =>
      exact .bind (n := 4) (.of_onlyCalls (OrderRepository.transition_onlyCalls rfl) 0) fun _ =>
        sendToPos_atMost payload jobMeta

theorem process_atMost : (process payload jobMeta).AtMost Op.isPost 4 := by
  have hacquire : (DistributedLockService.acquireOrThrow payload.orderId
      ⟨jobMeta.workerId, jobMeta.jobId⟩).OnlyCalls fun o => o.isPost = false := by
    refine .bind (.perform rfl) fun acquired => ?_
    split <;> trivial
  exact .bind (n := 4) (.of_onlyCalls hacquire 0) fun _ =>
    .tryFinally (n := 0) (processWithLock_atMost payload jobMeta) (.of_onlyCalls (.perform rfl) 0)

end ProcessOrderService

/-- Only executions send to the point of sale.  The API, the failure handler, the re-drive and the
`PATCH` handlers make no such call. -/
theorem Request.isPost_of_allows {q : Request} {o : Op} (h : q.allows o) (hpost : o.isPost = true) :
    ∃ payload jobMeta, q = .process payload jobMeta := by
  cases o with
  | postToPos request =>
      cases q with
      | process payload jobMeta => exact ⟨payload, jobMeta, rfl⟩
      | _ => cases h
  | _ => cases hpost

/-- No request of the system sends more than four orders to a point of sale. -/
theorem Request.atMost (config : AppConfig) (q : Request) :
    (q.program config).AtMost Op.isPost 4 := by
  by_cases hq : ∃ payload jobMeta, q = .process payload jobMeta
  · obtain ⟨payload, jobMeta, rfl⟩ := hq
    exact .bind (n := 0) (ProcessOrderService.process_atMost payload jobMeta) fun _ => trivial
  · refine .of_onlyCalls ((Request.onlyCalls config q).mono fun o hallows => ?_) 4
    rw [Bool.eq_false_iff]
    exact fun hpost => hq (isPost_of_allows hallows hpost)

/-! ## The requests of all executions -/

/-- How many requests for the key the point of sale has received. -/
def World.dispatched (w : World) (key : String) : ℕ :=
  w.posInbox.countP fun received => received.1.order.idempotencyKey = key

open ProcessOrderService

section Runs

variable {config : AppConfig} {ok : OrderLabel → OrderPool → Prop} {P₀ P : OrderPool}

/-- **One insertion per key.** Two threads whose `createOrder` for the key inserted a row are the
same, since each has its answer from a table in which the key is unique and rows stay. -/
theorem inserter_unique (hinit : ∀ i, P₀.threads i = none)
    (h : (orderSystem config).Reaches ok P₀ P) {i j : ℕ} {t u : OrderThread}
    {p p' : CreateOrderParams} (ht : P.threads i = some t) (hu : P.threads j = some u)
    (hp : (⟨.repo (.createOrder p), .ok true⟩ : OrderEvent) ∈ t.hist)
    (hp' : (⟨.repo (.createOrder p'), .ok true⟩ : OrderEvent) ∈ u.hist)
    (hkey : p.idempotencyKey = p'.idempotencyKey) : i = j := by
  refine System.exclusive_of_reaches
    (fun e => ∃ q : CreateOrderParams, q.idempotencyKey = p.idempotencyKey ∧
      e = (⟨.repo (.createOrder q), .ok true⟩ : OrderEvent))
    (fun w => ∃ row, w.db.findByKey? p.idempotencyKey = some row) hinit ?_ ?_ h i j t u _ _ ht hu
    hp hp' ⟨p, rfl, rfl⟩ ⟨p', hkey.symm, rfl⟩
  · rintro P i c t o k - - - - ⟨q, hq, he⟩
    obtain ⟨rfl, hanswer⟩ := Event.mk.inj he
    obtain ⟨⟨row, hrow, -⟩, hfree⟩ :=
      Database.createOrder_keyTaken (Op.exec_createOrder_eq_ok (eq_of_heq hanswer))
    rw [hq] at hrow hfree
    refine ⟨fun ⟨other, hother⟩ => ?_, row, hrow⟩
    rw [hfree rfl] at hother
    cases hother
  · rintro P ℓ P' - - hstep ⟨row, hrow⟩
    have hchange : ∀ id, OrderChange (fun _ _ => True) P.world.db P'.world.db id :=
      fun id => (orderSystem_step_change hstep id).mono fun _ _ _ => trivial
    obtain ⟨row', hrow', -⟩ := OrderChange.findByKey?_persists hchange hrow
    exact ⟨row', hrow'⟩

/-- An execution that has come to the point of sale has inserted its row.  One that met a duplicate
has returned before that, whatever the lock did. -/
theorem inserted_of_issues (hinit : ∀ i, P₀.threads i = none)
    (h : (orderSystem config).Reaches ok P₀ P) {i : ℕ} {t : OrderThread}
    (ht : P.threads i = some t) {payload : OrderJobPayload} {jobMeta : JobMeta}
    (hreq : t.request = .process payload jobMeta) {o : Op} (ho : t.Issues o) (hfaces : o.FacesPos) :
    insertAnswered payload jobMeta true ∈ t.hist := by
  obtain ⟨past, hsuffix, hissues⟩ := Protocol.issues_of_reaches (respects_executions hinit)
    (fun q _ => follows_executions config q) hinit h ht ho
  exact hsuffix.subset (hissues payload jobMeta hreq hfaces)

/-- Thread `i` is an execution for the key that has come to the point of sale. -/
def Dispatches (P : OrderPool) (key : String) (i : ℕ) : Prop :=
  ∃ t payload jobMeta o, P.threads i = some t ∧ t.request = .process payload jobMeta ∧
    payload.idempotencyKey = key ∧ t.Issues o ∧ o.FacesPos

/-- Thread `i` is an execution for the key that inserted the row. -/
structure Inserter (P : OrderPool) (key : String) (i : ℕ) (t : OrderThread) : Prop where
  thread : P.threads i = some t
  inserted : ∃ payload jobMeta, t.request = .process payload jobMeta ∧
    payload.idempotencyKey = key ∧ insertAnswered payload jobMeta true ∈ t.hist

theorem Inserter.unique (hinit : ∀ i, P₀.threads i = none)
    (h : (orderSystem config).Reaches ok P₀ P) {key : String} {i j : ℕ} {t u : OrderThread}
    (hi : Inserter P key i t) (hj : Inserter P key j u) : i = j := by
  obtain ⟨payload, jobMeta, -, hkey, hins⟩ := hi.inserted
  obtain ⟨payload', jobMeta', -, hkey', hins'⟩ := hj.inserted
  exact inserter_unique hinit h hi.thread hj.thread hins hins' (hkey.trans hkey'.symm)

/-- An inserter remains one, and its history only grows. -/
theorem Inserter.step {P' : OrderPool} {ℓ : OrderLabel} {key : String} {i : ℕ} {t : OrderThread}
    (hi : Inserter P key i t) (hstep : (orderSystem config).step ℓ P = some P') :
    ∃ t', Inserter P' key i t' ∧ t.hist <:+ t'.hist := by
  obtain ⟨t', ht', hreq', hsuffix⟩ := (orderSystem config).step_persists hstep hi.thread
  obtain ⟨payload, jobMeta, hreq, hkey, hins⟩ := hi.inserted
  exact ⟨t', ⟨ht', payload, jobMeta, hreq'.trans hreq, hkey, hsuffix.subset hins⟩, hsuffix⟩

/-- The thread that is about to send a request for the key is its inserter. -/
theorem inserter_of_post (hinit : ∀ i, P₀.threads i = none)
    (h : (orderSystem config).Reaches ok P₀ P) {i : ℕ} {t : OrderThread}
    (ht : P.threads i = some t) {request : PosRequest}
    {k : Except OrderError (Op.Reply (.postToPos request)) → Service Outcome}
    (hrest : t.rest = .call (.postToPos request) k) :
    Inserter P request.order.idempotencyKey i t ∧
      request.Carries request.order.idempotencyKey := by
  have hallows := allows_of_reaches hinit h ht hrest
  obtain ⟨payload, jobMeta, hreq⟩ := Request.isPost_of_allows hallows rfl
  rw [hreq] at hallows
  obtain ⟨horder, hcarries⟩ : request.order = domainOrder payload ∧
    request.Carries payload.idempotencyKey := hallows
  rw [horder]
  have hissues : t.Issues (.postToPos request) := by
    refine .inl ?_
    rw [hrest]
    rfl
  exact ⟨⟨ht, payload, jobMeta, hreq, rfl, inserted_of_issues hinit h ht hreq hissues trivial⟩,
    hcarries⟩

/-- All requests for the key come from its one inserter, which knows of each of them: the point of
sale has not received more than the inserter has sent. -/
def SoleDispatcher (key : String) (P : OrderPool) : Prop :=
  P.world.dispatched key = 0 ∨ ∃ i t, Inserter P key i t ∧
    P.world.dispatched key ≤ t.hist.countP fun e => e.op.isPost

/-- A step that sends nothing for the key keeps this. -/
theorem SoleDispatcher.of_unchanged {P' : OrderPool} {ℓ : OrderLabel} {key : String}
    (hsole : SoleDispatcher key P) (hstep : (orderSystem config).step ℓ P = some P')
    (hcount : P'.world.dispatched key = P.world.dispatched key) : SoleDispatcher key P' := by
  rcases hsole with hzero | ⟨i, t, hi, hle⟩
  · exact .inl (hcount.trans hzero)
  · obtain ⟨t', hi', hsuffix⟩ := hi.step hstep
    refine .inr ⟨i, t', hi', ?_⟩
    rw [hcount]
    exact hle.trans (hsuffix.sublist.countP_le)

/-- A request of the inserter is one more in its own history, so that both sides of the inequality
grow by one. -/
theorem SoleDispatcher.of_post (hinit : ∀ i, P₀.threads i = none)
    (h : (orderSystem config).Reaches ok P₀ P) {P' : OrderPool} {key : String} {i : ℕ}
    {t t' : OrderThread} (hsole : SoleDispatcher key P) (hi : Inserter P key i t)
    (hi' : Inserter P' key i t')
    (hhist : (t'.hist.countP fun e => e.op.isPost) = (t.hist.countP fun e => e.op.isPost) + 1)
    (hcount : P'.world.dispatched key ≤ P.world.dispatched key + 1) : SoleDispatcher key P' := by
  refine .inr ⟨i, t', hi', ?_⟩
  rw [hhist]
  rcases hsole with hzero | ⟨j, u, hj, hle⟩
  · omega
  · have hji : j = i := hj.unique hinit h hi
    subst hji
    have hut : u = t := Option.some.inj (hj.thread.symm.trans hi.thread)
    subst hut
    omega

/-- **All requests for a key come from one execution.** By induction on the run: a step that sends a
request for the key is one of an inserter, and there is only one. -/
theorem soleDispatcher_of_reaches (key : String) (hinit : ∀ i, P₀.threads i = none)
    (hempty : P₀.world.posInbox = []) (h : (orderSystem config).Reaches ok P₀ P) :
    SoleDispatcher key P := by
  -- by induction on the run: whoever sends the key has inserted its row, so it is the one that has
  -- sent it before
  refine System.Reaches.invariant (I := SoleDispatcher key) (.inl ?_) ?_ h
  · unfold World.dispatched
    rw [hempty]
    rfl
  · intro P ℓ P' hreach hsole _ hstep
    obtain ⟨i, q, rfl, -, rfl⟩ | ⟨i, c, t, o, k, rfl, ht, hrest, rfl⟩ | ⟨e, w, rfl, hw, rfl⟩ :=
      (orderSystem config).step_cases hstep
    · exact hsole.of_unchanged hstep rfl
    · obtain hsame | ⟨request, rfl, happend⟩ := o.exec_posInbox c P.world
      · exact hsole.of_unchanged hstep (congrArg (List.countP _) hsame)
      · have hcount : ((orderSystem config).advance P i c t (.postToPos request) k).world.dispatched
            key = P.world.dispatched key +
              if request.order.idempotencyKey = key then 1 else 0 := by
          show List.countP _ (Op.exec (.postToPos request) c P.world).2.posInbox = _
          rw [happend, List.countP_append]
          simp [World.dispatched, List.countP_cons]
        by_cases hkey : request.order.idempotencyKey = key
        · rw [if_pos hkey] at hcount
          -- one more request, by the execution that has inserted the row
          obtain ⟨hi, -⟩ := inserter_of_post hinit hreach ht hrest
          rw [hkey] at hi
          obtain ⟨t', hi', -⟩ := hi.step hstep
          have ht' : t' = t.answered (.postToPos request) k _ :=
            Option.some.inj (hi'.thread.symm.trans (Function.update_self ..))
          refine hsole.of_post hinit hreach hi hi' ?_ hcount.le
          rw [ht']
          exact List.countP_cons_of_pos rfl
        · rw [if_neg hkey] at hcount
          exact hsole.of_unchanged hstep hcount
    · cases hw
      refine hsole.of_unchanged hstep ?_
      cases e <;> rfl

/-- **At most once.**  In every run from any stored orders, with any requests, crashes,
lost calls and expiring keys: at most one execution for a key comes to the point of
sale, the point of sale receives at most four requests for the key, and each carries
the key's idempotency header. -/
theorem atMostOnce_dispatch {db : Database} (key : String)
    (h : (orderSystem config).Reaches (fun _ _ => True) (Pool.init (World.init db)) P) :
    (∀ i j, Dispatches P key i → Dispatches P key j → i = j) ∧
      P.world.dispatched key ≤ 4 ∧
      ∀ received ∈ P.world.posInbox, received.1.order.idempotencyKey = key →
        received.1.Carries key := by
  have hinit : ∀ i, (Pool.init (World.init db) : OrderPool).threads i = none := fun _ => rfl
  refine ⟨?_, ?_, ?_⟩
  · -- both executions have inserted the row of the key, which is unique
    rintro i j ⟨t, payload, jobMeta, o, ht, hreq, hkey, ho, hfaces⟩
      ⟨u, payload', jobMeta', o', hu, hreq', hkey', ho', hfaces'⟩
    have hi : Inserter P key i t :=
      ⟨ht, payload, jobMeta, hreq, hkey, inserted_of_issues hinit h ht hreq ho hfaces⟩
    have hj : Inserter P key j u :=
      ⟨hu, payload', jobMeta', hreq', hkey', inserted_of_issues hinit h hu hreq' ho' hfaces'⟩
    exact hi.unique hinit h hj
  · -- one execution, and its policies make four attempts at most
    rcases soleDispatcher_of_reaches key hinit rfl h with hzero | ⟨i, t, hi, hle⟩
    · omega
    · obtain ⟨n, -, hcount⟩ :=
        System.countP_of_reaches (Request.atMost config) hinit h i t hi.thread
      omega
  · -- what is sent is the payload of the execution, by induction on the run
    have hcarries : ∀ received ∈ P.world.posInbox,
        received.1.Carries received.1.order.idempotencyKey := by
      refine System.Reaches.world_invariant
        (I := fun w => ∀ received ∈ w.posInbox, received.1.Carries received.1.order.idempotencyKey)
        (fun _ hmem => by cases hmem) ?_ ?_ h
      · intro P i c t o k hreach _ ht hrest hI received hmem
        obtain hsame | ⟨request, rfl, happend⟩ := o.exec_posInbox c P.world
        · exact hI received (hsame ▸ hmem)
        · rw [show ((orderSystem config).exec (.postToPos request) c P.world).2.posInbox = _ from
            happend] at hmem
          rcases List.mem_append.mp hmem with hold | hnew
          · exact hI received hold
          · rw [List.mem_singleton.mp hnew]
            exact (inserter_of_post hinit hreach ht hrest).2
      · intro P e w _ hw hI
        cases hw
        cases e <;> exact hI
    rintro received hmem rfl
    exact hcarries received hmem

end Runs

/-- Two attempts at one job, the first of which loses its lock while it is at work: the second
acquires it and stops at the duplicate. -/
def expiredLockRun : List OrderLabel :=
  [.spawn 0 (.process seedPayload (seedJob 0)), .spawn 1 (.process seedPayload (seedJob 1)),
    .act 0 (.undisturbed 1), .env (.lock ⟨7⟩), .act 1 (.undisturbed 2), .act 0 (.undisturbed 3),
    .act 1 (.undisturbed 4), .act 0 (.undisturbed 5), .act 0 (.undisturbed 6),
    .act 0 (.undisturbed 7), .act 0 (.undisturbed 8), .act 0 (.undisturbed 9)]

theorem expiredLockRun_replays :
    ((orderSystem seedConfig).replay expiredLockRun (Pool.init (World.init .seed))).isSome = true := by
  decide +kernel

/-- The pool in which the first attempt has reached the point of sale. -/
def expiredLockPool : OrderPool :=
  (orderSystem seedConfig).after expiredLockRun (Pool.init (World.init .seed)) expiredLockRun_replays

/-- The bounds at that run, where the lock did not help. -/
theorem atMostOnce_dispatch_expiredLock :
    (∀ i j, Dispatches expiredLockPool "key-7" i → Dispatches expiredLockPool "key-7" j → i = j) ∧
      expiredLockPool.world.dispatched "key-7" ≤ 4 ∧
      ∀ received ∈ expiredLockPool.world.posInbox, received.1.order.idempotencyKey = "key-7" →
        received.1.Carries "key-7" :=
  atMostOnce_dispatch "key-7" (.after (.of_forall (fun _ _ => trivial) _ _) expiredLockRun_replays)

example : expiredLockPool.world.dispatched "key-7" = 1 := by decide +kernel

end ChickenOrder
