import ChickenOrder.Services.Calls

/-!
# The lock of an order

What the calls do to `lock:order:<id>`, and what an execution's own history says about
it: `HoldsLock` is the time between an answered acquire and the release, which is all
the time an execution works on the order.  Whether the lock is still in place then is
another matter; it expires by itself.

`locking` is the protocol of an execution: its first call is the acquire, every other call is
made between acquire and release, and it does not end in between.  From this, statements about
all calls of an execution become statements about the time it holds its lock.
-/

namespace ChickenOrder

open Interaction Interaction.Program

/-! ## What the calls do to locks -/

/-- **Everything a call does to the locks**: an acquire sets one that is free, a release frees one
of its token. -/
theorem Op.effect_locks (o : Op) (c : Choice) (w : World) :
    (∃ id token, o = .lockSetNx id token ∧ w.locks id = none ∧
      (o.effect c w).2.locks = Function.update w.locks id (some token)) ∨
    (∃ id token, o = .lockRelease id token ∧ w.locks id = some token ∧
      (o.effect c w).2.locks = Function.update w.locks id none) ∨
    (o.effect c w).2.locks = w.locks := by
  cases o with
  | lockSetNx id token =>
      show (∃ id' token', _ ∧ _ ∧ (w.lockSetNx id token).2.locks = _) ∨ _ ∨
        (w.lockSetNx id token).2.locks = w.locks
      unfold World.lockSetNx
      split
      · exact .inr (.inr rfl)
      · rename_i hfree
        exact .inl ⟨id, token, rfl, hfree, rfl⟩
  | lockRelease id token =>
      show _ ∨ (∃ id' token', _ ∧ _ ∧ (w.lockRelease id token).locks = _) ∨
        (w.lockRelease id token).locks = w.locks
      unfold World.lockRelease
      split
      · rename_i hheld
        exact .inr (.inl ⟨id, token, rfl, hheld, rfl⟩)
      · exact .inr (.inr rfl)
  | idempotencySetNx key id =>
      obtain ⟨keys, hframe⟩ := w.idempotencySetNx_frame key id
      exact .inr (.inr (congrArg World.locks hframe :))
  | patchStatus text orderId =>
      obtain ⟨db, hframe⟩ := w.patchStatus_frame text orderId c.now
      exact .inr (.inr (congrArg World.locks hframe :))
  | mainQueueAdd data =>
      obtain ⟨queue, hframe⟩ := w.mainQueueAdd_frame data
      exact .inr (.inr (congrArg World.locks hframe :))
  | dlqQueueAdd data reason attempts =>
      obtain ⟨queue, hframe⟩ := w.dlqQueueAdd_frame data reason attempts c.now
      exact .inr (.inr (congrArg World.locks hframe :))
  | postToPos request =>
      obtain ⟨inbox, hframe⟩ := effect_postToPos_frame request c w
      exact .inr (.inr (congrArg World.locks hframe :))
  | _ => exact .inr (.inr rfl)

/-- An acquire that succeeds has found the lock free and has set it. -/
theorem Op.exec_lockSetNx_eq_true {c : Choice} {w : World} {id : Uuid} {token : LockToken}
    (h : (Op.exec (.lockSetNx id token) c w).1 = .ok true) :
    w.locks id = none ∧ (Op.exec (.lockSetNx id token) c w).2.locks id = some token := by
  have heffect := exec_eq_effect_of_ok h
  rw [heffect] at h ⊢
  have hanswer : (w.lockSetNx id token).1 = true := Except.ok.inj h
  show w.locks id = none ∧ (w.lockSetNx id token).2.locks id = some token
  unfold World.lockSetNx at hanswer ⊢
  split at hanswer
  · cases hanswer
  · rename_i hfree
    simp [hfree]

/-- An acquire that finds the lock free succeeds, if it is answered. -/
theorem Op.exec_lockSetNx_eq_ok {c : Choice} {w : World} {id : Uuid} {token : LockToken}
    {isAcquired : Bool} (hfree : w.locks id = none)
    (h : (Op.exec (.lockSetNx id token) c w).1 = .ok isAcquired) : isAcquired = true := by
  rw [exec_eq_effect_of_ok h] at h
  have hanswer : (w.lockSetNx id token).1 = isAcquired := Except.ok.inj h
  unfold World.lockSetNx at hanswer
  rw [hfree] at hanswer
  exact hanswer.symm

/-- A release that is answered leaves no lock of its token. -/
theorem Op.exec_lockRelease {c : Choice} {w : World} {id : Uuid} {token : LockToken}
    (hquiet : c.fault = .none) (h : w.locks id = some token ∨ w.locks id = none) :
    (Op.exec (.lockRelease id token) c w).2.locks id = none := by
  rw [Op.exec_undisturbed hquiet]
  show (w.lockRelease id token).locks id = none
  unfold World.lockRelease
  split
  · exact Function.update_self ..
  · rename_i hother
    rcases h with hheld | hfree
    · exact absurd hheld hother
    · exact hfree

/-- **What one step of the system does to one lock**: nothing, an acquire that finds it
free, a release by its token, or its expiry. -/
theorem orderSystem_step_locks {config : AppConfig} {ℓ : OrderLabel} {P P' : OrderPool}
    (h : (orderSystem config).step ℓ P = some P') (id : Uuid) :
    P'.world.locks id = P.world.locks id ∨
    (∃ i c token, ℓ = .act i c ∧ ℓ.call? P = some (.lockSetNx id token) ∧
      P.world.locks id = none ∧ P'.world.locks id = some token) ∨
    (∃ i c token, ℓ = .act i c ∧ ℓ.call? P = some (.lockRelease id token) ∧
      P.world.locks id = some token ∧ P'.world.locks id = none) ∨
    (ℓ = .env (.lock id) ∧ P'.world.locks id = none) := by
  -- a start, a call, or an expiry; only two calls and one expiry touch this lock
  obtain ⟨i, q, rfl, -, rfl⟩ | ⟨i, c, t, o, k, rfl, ht, hrest, rfl⟩ | ⟨e, w, rfl, hw, rfl⟩ :=
    (orderSystem config).step_cases h
  · exact .inl rfl
  · have hcall : (Label.act i c : OrderLabel).call? P = some o := Label.call?_act ht hrest c
    refine Op.exec_invariant (I := fun w => w.locks id = P.world.locks id ∨
      (∃ i' c' token, (Label.act i c : OrderLabel) = .act i' c' ∧
        (Label.act i c : OrderLabel).call? P = some (.lockSetNx id token) ∧
        P.world.locks id = none ∧ w.locks id = some token) ∨
      (∃ i' c' token, (Label.act i c : OrderLabel) = .act i' c' ∧
        (Label.act i c : OrderLabel).call? P = some (.lockRelease id token) ∧
        P.world.locks id = some token ∧ w.locks id = none) ∨
      ((Label.act i c : OrderLabel) = .env (.lock id) ∧ w.locks id = none)) (.inl rfl) ?_
    obtain ⟨k', token, rfl, hfree, heffect⟩ | ⟨k', token, rfl, hheld, heffect⟩ | heffect :=
      o.effect_locks c P.world
    · rw [heffect]
      by_cases hid : id = k'
      · subst hid
        exact .inr (.inl ⟨i, c, token, rfl, hcall, hfree, Function.update_self ..⟩)
      · exact .inl (Function.update_of_ne hid ..)
    · rw [heffect]
      by_cases hid : id = k'
      · subst hid
        exact .inr (.inr (.inl ⟨i, c, token, rfl, hcall, hheld, Function.update_self ..⟩))
      · exact .inl (Function.update_of_ne hid ..)
    · exact .inl (congrFun heffect id)
  · cases hw
    cases e with
    | lock k' =>
        show (Function.update P.world.locks k' none) id = _ ∨ _
        by_cases hid : id = k'
        · subst hid
          exact .inr (.inr (.inr ⟨rfl, Function.update_self ..⟩))
        · exact .inl (Function.update_of_ne hid ..)
    | idempotency key => exact .inl rfl
    | menuCache key => exact .inl rfl

/-- The call is none of a lock's.  Everything inside the `try` is such. -/
def Op.LeavesLocks : Op → Prop
  | .lockSetNx _ _ => False
  | .lockRelease _ _ => False
  | _ => True

/-! ## What an execution does with its lock -/

/-- The acquire has answered that the lock is the caller's. -/
def lockAcquired (id : Uuid) (token : LockToken) : OrderEvent := ⟨.lockSetNx id token, .ok true⟩

/-- The thread has acquired the lock and has not come to release it.  Whether Redis still has it is
another question, as it expires. -/
def HoldsLock (id : Uuid) (token : LockToken) (h : List OrderEvent) : Prop :=
  lockAcquired id token ∈ h ∧ ∀ r, (⟨.lockRelease id token, r⟩ : OrderEvent) ∉ h

theorem not_holdsLock_nil (id : Uuid) (token : LockToken) : ¬ HoldsLock id token [] :=
  fun h => absurd h.1 List.not_mem_nil

/-- A call starts the holding only if it is an acquire that succeeds. -/
theorem HoldsLock.of_cons {id : Uuid} {token : LockToken} {h : List OrderEvent} {e : OrderEvent}
    (hholding : HoldsLock id token (e :: h)) : e = lockAcquired id token ∨ HoldsLock id token h := by
  obtain ⟨hacquired, hunreleased⟩ := hholding
  rcases List.mem_cons.mp hacquired with he | hacquired
  · exact .inl he.symm
  · exact .inr ⟨hacquired, fun r hr => hunreleased r (List.mem_cons_of_mem _ hr)⟩

/-- A call ends the holding only if it is the release. -/
theorem HoldsLock.cons {id : Uuid} {token : LockToken} {h : List OrderEvent}
    (hholding : HoldsLock id token h) {e : OrderEvent} (he : e.op ≠ .lockRelease id token) :
    HoldsLock id token (e :: h) := by
  refine ⟨List.mem_cons_of_mem _ hholding.1, fun r hr => ?_⟩
  rcases List.mem_cons.mp hr with rfl | hr
  · exact he rfl
  · exact hholding.2 r hr

/-- **How a thread comes to hold a lock**: by its acquire, which found the lock free and set it.
Holding ends with the release. -/
theorem orderSystem_step_holding {config : AppConfig} {ℓ : OrderLabel} {P P' : OrderPool}
    (h : (orderSystem config).step ℓ P = some P') {j : ℕ} {u : OrderThread}
    (hu : P'.threads j = some u) {id : Uuid} {token : LockToken}
    (hholding : HoldsLock id token u.hist) :
    (∃ t, P.threads j = some t ∧ HoldsLock id token t.hist) ∨
      ∃ c, ℓ = .act j c ∧ ℓ.call? P = some (.lockSetNx id token) ∧ P.world.locks id = none ∧
        P'.world.locks id = some token := by
  obtain hold | ⟨q, rfl, rfl⟩ | ⟨c, t, o, k, rfl, ht, hrest, hworld, rfl⟩ :=
    (orderSystem config).step_threads h hu
  · exact .inl ⟨u, hold, hholding⟩
  · exact absurd hholding (not_holdsLock_nil id token)
  · rcases hholding.of_cons with hacquired | hholding
    · obtain ⟨rfl, hanswer⟩ := Event.mk.inj hacquired
      obtain ⟨hfree, hset⟩ := Op.exec_lockSetNx_eq_true (eq_of_heq hanswer)
      rw [hworld]
      exact .inr ⟨c, rfl, Label.call?_act ht hrest c, hfree, hset⟩
    · exact .inl ⟨t, ht, hholding⟩

/-- The call asks for a lock. -/
def Op.acquires : Op → Bool
  | .lockSetNx _ _ => true
  | _ => false

/-- The step is no acquire. -/
def NoAcquire (ℓ : OrderLabel) (P : OrderPool) : Prop := ∀ o ∈ ℓ.call? P, o.acquires = false

instance (ℓ : OrderLabel) (P : OrderPool) : Decidable (NoAcquire ℓ P) :=
  inferInstanceAs (Decidable (∀ o ∈ ℓ.call? P, _))

/-- A request that comes in acquires nothing yet. -/
theorem noAcquire_spawn (i : ℕ) (q : Request) (P : OrderPool) : NoAcquire (.spawn i q) P :=
  fun _ hcall => by cases hcall

namespace ProcessOrderService

/-- `${jobMeta.workerId}:${jobMeta.jobId}`.  The worker's id is that of its process, not of the
attempt. -/
def lockToken (jobMeta : JobMeta) : LockToken := ⟨jobMeta.workerId, jobMeta.jobId⟩

/-- The execution is between its acquire and its release, and so inside the `try`. -/
abbrev Inside (payload : OrderJobPayload) (jobMeta : JobMeta) (h : List OrderEvent) : Prop :=
  HoldsLock payload.orderId (lockToken jobMeta) h

/-- The protocol of locking: the first call of an execution is its acquire, it makes
every other call while it holds the lock, and it does not end without the release. -/
def locking : Protocol Op.Reply OrderError Outcome Request where
  admits := fun _ => True
  allows := fun _ _ _ => True
  issues := fun q h o => ∀ payload jobMeta, q = .process payload jobMeta →
    h = [] ∧ o = .lockSetNx payload.orderId (lockToken jobMeta) ∨ Inside payload jobMeta h
  returns := fun q h _ => ∀ payload jobMeta, q = .process payload jobMeta →
    ¬ Inside payload jobMeta h
  throws := fun q h _ => ∀ payload jobMeta, q = .process payload jobMeta →
    ¬ Inside payload jobMeta h

section Follows

variable {payload : OrderJobPayload} {jobMeta : JobMeta}

/-- `wp` against the protocol of locking. -/
abbrev lockingWp (payload : OrderJobPayload) (jobMeta : JobMeta) {α : Type} (p : Service α)
    (Q : List OrderEvent → Prop) (E : List OrderEvent → Prop) (h : List OrderEvent) : Prop :=
  p.wp (locking.record (.process payload jobMeta))
    (fun o h => locking.issues (.process payload jobMeta) h o) (fun _ => Q) (fun _ => E) h

theorem issues_of_inside {h : List OrderEvent} (hinside : Inside payload jobMeta h) (o : Op) :
    locking.issues (.process payload jobMeta) h o := by
  intro payload' jobMeta' hq
  cases hq
  exact .inr hinside

/-- Between acquire and release an execution stays inside its lock. -/
theorem lockingWp_inside {α : Type} {p : Service α} (hp : p.OnlyCalls Op.LeavesLocks)
    {h : List OrderEvent} (hinside : Inside payload jobMeta h) :
    lockingWp payload jobMeta p (Inside payload jobMeta) (Inside payload jobMeta) h := by
  have hkeep : ∀ (o : Op) (h : List OrderEvent) r h', o.LeavesLocks → Inside payload jobMeta h →
      locking.record (.process payload jobMeta) o h r h' → Inside payload jobMeta h' := by
    rintro o h r h' ho hinside ⟨-, rfl⟩
    refine hinside.cons fun hrelease => ?_
    have hop : o = .lockRelease payload.orderId (lockToken jobMeta) := hrelease
    rw [hop] at ho
    exact ho
  exact wp_invariant _ _ (Inside payload jobMeta) (fun o _ _ hinside => issues_of_inside hinside o)
    hkeep hp hinside

/-- After the release, answered or not, the execution is not inside. -/
theorem release_locking {h : List OrderEvent} (hinside : Inside payload jobMeta h) :
    lockingWp payload jobMeta (DistributedLockService.release payload.orderId (lockToken jobMeta))
      (fun h' => ¬ Inside payload jobMeta h') (fun h' => ¬ Inside payload jobMeta h') h := by
  unfold lockingWp DistributedLockService.release
  rw [wp_perform]
  refine ⟨issues_of_inside hinside _, ?_, ?_⟩
  · rintro done h' ⟨-, rfl⟩ hstill
    exact hstill.2 _ List.mem_cons_self
  · rintro e h' ⟨-, rfl⟩ hstill
    exact hstill.2 _ List.mem_cons_self

/-- `process` makes its calls under the lock, and is out of it when it ends, whether it returns or
throws. -/
theorem process_locking :
    lockingWp payload jobMeta (process payload jobMeta) (fun h => ¬ Inside payload jobMeta h)
      (fun h => ¬ Inside payload jobMeta h) [] := by
  have hunlocked : (processWithLock payload jobMeta).OnlyCalls Op.LeavesLocks :=
    processWithLock_onlyCalls_of payload jobMeta trivial (fun _ _ _ => trivial) trivial
      (fun _ _ => trivial) trivial trivial fun _ _ _ => trivial
  -- an acquire that has not succeeded begins nothing
  have hout : ∀ r, r ≠ .ok true →
      ¬ Inside payload jobMeta [⟨.lockSetNx payload.orderId (lockToken jobMeta), r⟩] := by
    rintro r hr ⟨hacquired, -⟩
    exact hr (Event.answer_eq (List.mem_singleton.mp hacquired)).symm
  unfold lockingWp process DistributedLockService.acquireOrThrow DistributedLockService.acquire
  simp only [wp_bind, wp_perform, wp_tryFinally]
  refine ⟨?_, ?_, ?_⟩
  · rintro payload' jobMeta' hq
    cases hq
    exact .inl ⟨rfl, rfl⟩
  · rintro isAcquired h₁ ⟨-, rfl⟩
    cases isAcquired with
    | false => exact hout _ (fun h => by cases h)
    | true =>
        have hinside : Inside payload jobMeta
            [⟨.lockSetNx payload.orderId (lockToken jobMeta), .ok true⟩] := by
          refine ⟨List.mem_singleton_self _, fun r hr => ?_⟩
          cases List.mem_singleton.mp hr
        rw [if_pos rfl, wp_return]
        exact wp_mono _ _ (fun _ h₂ hinside₂ => release_locking hinside₂)
          (fun _ h₂ hinside₂ => release_locking hinside₂) (lockingWp_inside hunlocked hinside)
  · rintro e h₁ ⟨-, rfl⟩
    exact hout _ (fun h => by cases h)

end Follows

/-- **Every program follows the protocol of locking.** -/
theorem follows_locking (config : AppConfig) (q : Request) :
    locking.Follows q (q.program config) [] := by
  by_cases hq : ∃ payload jobMeta, q = .process payload jobMeta
  · obtain ⟨payload, jobMeta, rfl⟩ := hq
    refine (wp_bind _ _ (process payload jobMeta) (fun _ => return Outcome.done) _ _ _).mpr ?_
    refine wp_mono _ _ (fun _ h hout => ?_) (fun _ h hout => ?_) process_locking
    · intro payload' jobMeta' hq
      cases hq
      exact hout
    · intro payload' jobMeta' hq
      cases hq
      exact hout
  · have hfree : ∀ payload jobMeta, q ≠ .process payload jobMeta :=
      fun payload jobMeta h => hq ⟨payload, jobMeta, h⟩
    exact wp_mono _ _ (fun _ _ _ payload jobMeta h => absurd h (hfree payload jobMeta))
      (fun _ _ _ payload jobMeta h => absurd h (hfree payload jobMeta))
      (wp_always _ _ (fun _ _ _ payload jobMeta h => absurd h (hfree payload jobMeta))
        (fun _ _ _ _ _ _ => trivial) _ trivial)

section Runs

variable {config : AppConfig} {ok : OrderLabel → OrderPool → Prop} {P₀ P : OrderPool}

/-- Every thread keeps to this, whatever the others do. -/
theorem respects_locking : locking.Respects (orderSystem config) ok P₀ where
  admits := fun _ _ _ _ => trivial
  allows := fun _ _ _ _ _ _ _ _ _ _ => trivial

/-- An execution that is at a call other than its acquire is inside its lock.  This is where the
protocol is used. -/
theorem inside_of_call (hinit : ∀ i, P₀.threads i = none)
    (h : (orderSystem config).Reaches ok P₀ P) {i : ℕ} {t : OrderThread}
    (ht : P.threads i = some t) {payload : OrderJobPayload} {jobMeta : JobMeta}
    (hreq : t.request = .process payload jobMeta) {o : Op}
    {k : Except OrderError (Op.Reply o) → Service Outcome} (hrest : t.rest = .call o k)
    (hacquire : ∀ id token, o ≠ .lockSetNx id token) : Inside payload jobMeta t.hist := by
  obtain ⟨-, hfollows⟩ := Protocol.follows_of_reaches respects_locking
    (fun q _ => follows_locking config q) hinit h i t ht
  rw [hrest] at hfollows
  obtain ⟨-, hop⟩ | hinside := hfollows.1 payload jobMeta hreq
  · exact absurd hop (hacquire _ _)
  · exact hinside

/-- A thread at the release of a lock is an execution that holds it. -/
theorem holding_of_release (hinit : ∀ i, P₀.threads i = none)
    (h : (orderSystem config).Reaches ok P₀ P) {i : ℕ} {t : OrderThread}
    (ht : P.threads i = some t) {id : Uuid} {token : LockToken}
    {k : Except OrderError (Op.Reply (.lockRelease id token)) → Service Outcome}
    (hrest : t.rest = .call (.lockRelease id token) k) : HoldsLock id token t.hist := by
  have hallows := allows_of_reaches hinit h ht hrest
  cases hreq : t.request with
  | process payload jobMeta =>
      rw [hreq] at hallows
      obtain ⟨rfl, rfl⟩ := hallows
      exact inside_of_call hinit h ht hreq hrest nofun
  | _ =>
      rw [hreq] at hallows
      cases hallows

/-- Only executions for the order hold its lock, each with its own token. -/
theorem process_of_holdsLock (hinit : ∀ i, P₀.threads i = none)
    (h : (orderSystem config).Reaches ok P₀ P) {i : ℕ} {t : OrderThread}
    (ht : P.threads i = some t) {id : Uuid} {token : LockToken}
    (hholds : HoldsLock id token t.hist) :
    ∃ payload jobMeta, t.request = .process payload jobMeta ∧ payload.orderId = id ∧
      lockToken jobMeta = token := by
  have hallows : t.request.allows (.lockSetNx id token) :=
    (System.onlyCalls_of_reaches (fun q => Request.onlyCalls config q) hinit h i t ht).2 _ hholds.1
  cases hreq : t.request with
  | process payload jobMeta =>
      rw [hreq] at hallows
      obtain ⟨rfl, rfl⟩ := hallows
      exact ⟨payload, jobMeta, rfl, rfl, rfl⟩
  | _ =>
      rw [hreq] at hallows
      cases hallows

/-- A thread that has ended holds no lock: the `finally` has seen to that. -/
theorem not_holdsLock_of_ended (hinit : ∀ i, P₀.threads i = none)
    (h : (orderSystem config).Reaches ok P₀ P) {i : ℕ} {t : OrderThread}
    (ht : P.threads i = some t) (hended : t.rest.next = none) (id : Uuid) (token : LockToken) :
    ¬ HoldsLock id token t.hist := by
  intro hholds
  obtain ⟨payload, jobMeta, hreq, rfl, rfl⟩ := process_of_holdsLock hinit h ht hholds
  obtain ⟨-, hfollows⟩ := Protocol.follows_of_reaches respects_locking
    (fun q _ => follows_locking config q) hinit h i t ht
  cases hrest : t.rest with
  | pure a =>
      rw [hrest] at hfollows
      exact hfollows payload jobMeta hreq hholds
  | throw e =>
      rw [hrest] at hfollows
      exact hfollows payload jobMeta hreq hholds
  | call o k => simp [hrest] at hended

end Runs

end ProcessOrderService

end ChickenOrder
