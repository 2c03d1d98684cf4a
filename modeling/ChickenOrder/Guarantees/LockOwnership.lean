import ChickenOrder.Services.Locking

/-!
# Who releases a lock

The release compares the value in place with the caller's token, and the token names
the worker process and the job.  Two executions of one job in one process have the same
token, so the comparison cannot tell their locks apart: after an expiry the first one
can delete what the second one set.  `TokensApart` excludes that, and then every release
deletes what the same execution had set.

What an execution knows of its lock is in its own history (`HoldsLock`); who has set the value
that is in place is not in the world at all, and so `lockSetters` keeps it beside the pool.  The
invariant `SettersHold` ties the two together.
-/

namespace ChickenOrder

open Interaction ProcessOrderService

/-- Which thread's acquire has set the value in place at each lock.  It is recorded beside the pool,
since the value itself names a job and not an execution. -/
def lockSetters (ℓ : OrderLabel) (P P' : OrderPool) (setter : Uuid → Option ℕ) : Uuid → Option ℕ :=
  fun id =>
    if P'.world.locks id = P.world.locks id then setter id
    else
      match ℓ with
      | .act i _ => (P'.world.locks id).map fun _ => i
      | _ => none

/-- Before the run nobody has set a lock. -/
def noSetters : Uuid → Option ℕ := fun _ => none

/-- An acquire that finds its lock free is not of a token another execution still holds.  It is a
condition on the state before the step, and about free locks only. -/
def TokensApart (ℓ : OrderLabel) (P : OrderPool) : Prop :=
  ∀ id token, ℓ.call? P = some (.lockSetNx id token) → P.world.locks id = none →
    ∀ j u, P.threads j = some u → ¬ HoldsLock id token u.hist

/-- The step ends the time of `e` at the lock: its own release, or the expiry.  Nobody else's step
may. -/
def EndsLock (e : ℕ) (id : Uuid) (ℓ : OrderLabel) (P : OrderPool) : Prop :=
  ℓ = .env (.lock id) ∨
    ∃ c token, ℓ = .act e c ∧ ℓ.call? P = some (.lockRelease id token)

/-- A lock is only released by the execution that acquired it.  The setter of a lock is a record
beside the run, since the value in Redis does not say it. -/
structure LocksOwned (config : AppConfig) (ok : OrderLabel → OrderPool → Prop) (P : OrderPool)
    (setter : Uuid → Option ℕ) : Prop where
  /-- A release deletes only a value that the caller's own acquire has set. -/
  released : ∀ e c id token P', (orderSystem config).step (.act e c) P = some P' →
    (Label.act e c : OrderLabel).call? P = some (.lockRelease id token) →
    P'.world.locks id ≠ P.world.locks id → setter id = some e
  /-- From an acquire on, no other one succeeds before the release or the expiry. -/
  exclusive : ∀ e c id token P₁, ok (.act e c) P →
    (orderSystem config).step (.act e c) P = some P₁ →
    (Label.act e c : OrderLabel).call? P = some (.lockSetNx id token) →
    (Op.exec (.lockSetNx id token) c P.world).1 = .ok true →
    ∀ P₂, (orderSystem config).Reaches (fun ℓ P => ok ℓ P ∧ ¬ EndsLock e id ℓ P) P₁ P₂ →
    ∀ j c' token', (Label.act j c' : OrderLabel).call? P₂ = some (.lockSetNx id token') →
      (Op.exec (.lockSetNx id token') c' P₂.world).1 ≠ .ok true

/-- The threads that hold the token in place are the one that has set it.  Where tokens are shared
this is what fails. -/
def SettersHold (P : OrderPool) (setter : Uuid → Option ℕ) : Prop :=
  ∀ id token, P.world.locks id = some token → ∀ j u, P.threads j = some u →
    HoldsLock id token u.hist → setter id = some j

section Runs

variable {config : AppConfig} {P₀ P P' : OrderPool} {ℓ : OrderLabel} {setter : Uuid → Option ℕ}

theorem SettersHold.step (h : SettersHold P setter) (hapart : TokensApart ℓ P)
    (hstep : (orderSystem config).step ℓ P = some P') :
    SettersHold P' (lockSetters ℓ P P' setter) := by
  intro id token hlock j u hu hholding
  obtain ⟨t, ht, hholding₀⟩ | ⟨c, rfl, -, hfree, hset⟩ := orderSystem_step_holding hstep hu hholding
  · -- an old holder, so the lock is the same as before: only an acquire sets a lock
    obtain hsame | ⟨i, c, token', rfl, hcall, hfree, hset⟩ | ⟨-, -, -, -, -, -, hgone⟩ |
      ⟨-, hgone⟩ := orderSystem_step_locks hstep id
    · unfold lockSetters
      rw [if_pos hsame]
      exact h id token (hsame ▸ hlock) j t ht hholding₀
    · rw [hlock, Option.some.injEq] at hset
      subst hset
      exact absurd hholding₀ (hapart id token hcall hfree j t ht)
    · rw [hlock] at hgone
      cases hgone
    · rw [hlock] at hgone
      cases hgone
  · have hchanged : P'.world.locks id ≠ P.world.locks id := by
      rw [hfree, hset]
      nofun
    unfold lockSetters
    rw [if_neg hchanged, hset]
    rfl

/-- **Holders have set their locks**, in every run that keeps tokens apart.  An acquire that
succeeds makes its thread the setter, and no other thread holds its token then. -/
theorem settersHold_of_reaches (hinit : ∀ i, P₀.threads i = none)
    (h : (orderSystem config).ReachesWith TokensApart lockSetters (P₀, noSetters) (P, setter)) :
    SettersHold P setter := by
  have hstart : SettersHold P₀ noSetters := by
    intro id token _ j u hu
    rw [hinit j] at hu
    cases hu
  refine System.ReachesWith.invariant (I := SettersHold) hstart ?_ h
  intro P setter ℓ P' _ hold hapart hstep
  exact hold.step hapart hstep

/-- The lock is in place with the token of `e`, which only `e` holds.  This is what an execution may
rely on while it works. -/
def HeldBy (e : ℕ) (id : Uuid) (token : LockToken) (P : OrderPool) : Prop :=
  P.world.locks id = some token ∧
    ∀ j u, P.threads j = some u → HoldsLock id token u.hist → j = e

/-- An acquire that succeeds begins it. -/
theorem heldBy_of_acquire {e : ℕ} {c : Choice} {id : Uuid} {token : LockToken}
    (hapart : TokensApart (.act e c) P) (hstep : (orderSystem config).step (.act e c) P = some P')
    (hcall : (Label.act e c : OrderLabel).call? P = some (.lockSetNx id token))
    (hanswer : (Op.exec (.lockSetNx id token) c P.world).1 = .ok true) :
    HeldBy e id token P' := by
  obtain ⟨hfree, hset⟩ := Op.exec_lockSetNx_eq_true hanswer
  have hworld : P'.world = (Op.exec (.lockSetNx id token) c P.world).2 := by
    obtain ⟨i, q, hℓ, -⟩ | ⟨i, c', t, o, k, hℓ, ht, hrest, rfl⟩ | ⟨env, w, hℓ, -⟩ :=
      (orderSystem config).step_cases hstep
    · cases hℓ
    · cases hℓ
      rw [Label.call?_act ht hrest c] at hcall
      cases hcall
      rfl
    · cases hℓ
  refine ⟨by rw [hworld, hset], fun j u hu hholding => ?_⟩
  obtain ⟨t, ht, hholding₀⟩ | ⟨c', hℓ, -⟩ := orderSystem_step_holding hstep hu hholding
  · exact absurd hholding₀ (hapart id token hcall hfree j t ht)
  · cases hℓ
    rfl

/-- It stays so until the release of `e` or the expiry.  A release by another thread carries another
token, or `e` would not be the only holder. -/
theorem HeldBy.step {e : ℕ} {id : Uuid} {token : LockToken} (h : HeldBy e id token P)
    (hinit : ∀ i, P₀.threads i = none) {ok : OrderLabel → OrderPool → Prop}
    (hreach : (orderSystem config).Reaches ok P₀ P) (hlasts : ¬ EndsLock e id ℓ P)
    (hstep : (orderSystem config).step ℓ P = some P') : HeldBy e id token P' := by
  obtain ⟨hlock, honly⟩ := h
  have hholders : ∀ j u, P'.threads j = some u → HoldsLock id token u.hist → j = e := by
    intro j u hu hholding
    obtain ⟨t, ht, hholding₀⟩ | ⟨c, -, -, hfree, -⟩ := orderSystem_step_holding hstep hu hholding
    · exact honly j t ht hholding₀
    · rw [hlock] at hfree
      cases hfree
  obtain hsame | ⟨i, c, token', -, -, hfree, -⟩ | ⟨i, c, token', rfl, hcall, hheld, -⟩ | ⟨rfl, -⟩ :=
    orderSystem_step_locks hstep id
  · exact ⟨hsame.trans hlock, hholders⟩
  · rw [hlock] at hfree
    cases hfree
  · -- the thread that releases holds the token, so it is `e`
    rw [hlock, Option.some.injEq] at hheld
    subst hheld
    obtain ⟨t, k, ht, hrest⟩ := Label.thread_of_call? hcall
    have hie := honly i t ht (holding_of_release hinit hreach ht hrest)
    subst hie
    exact absurd (.inr ⟨c, token, rfl, hcall⟩) hlasts
  · exact absurd (.inl rfl) hlasts

/-- **A lock is only released by the execution that acquired it**, in every run in
which no acquire takes a free lock with a token that another execution still holds. -/
theorem locksOwned_of_tokensApart {w : World}
    (h : (orderSystem config).ReachesWith TokensApart lockSetters (Pool.init w, noSetters)
      (P, setter)) : LocksOwned config TokensApart P setter := by
  have hinit : ∀ i, (Pool.init w : OrderPool).threads i = none := fun _ => rfl
  have hreach := h.reaches
  have hsetters := settersHold_of_reaches hinit h
  refine ⟨?_, ?_⟩
  · -- of the steps that change a lock, only a release is one of this call
    intro e c id token P' hstep hcall hdeleted
    obtain ⟨t, k, ht, hrest⟩ := Label.thread_of_call? hcall
    have hholding := holding_of_release hinit hreach ht hrest
    obtain hsame | ⟨i, c', token', -, hacquire, -⟩ | ⟨i, c', token', -, hrelease, hheld, -⟩ | ⟨hℓ, -⟩ :=
      orderSystem_step_locks hstep id
    · exact absurd hsame hdeleted
    · rw [hcall] at hacquire
      cases hacquire
    · rw [hcall] at hrelease
      cases hrelease
      exact hsetters id token hheld e t ht hholding
    · cases hℓ
  · -- as long as the execution holds the lock, nobody finds it free
    intro e c id token P₁ hapart hstep hcall hanswer P₂ hlater j c' token' _ hanswer'
    have hheld := heldBy_of_acquire hapart hstep hcall hanswer
    have hreach₁ : (orderSystem config).Reaches TokensApart (Pool.init w) P₁ :=
      .tail hreach ⟨_, hapart, hstep⟩
    have hheld₂ : HeldBy e id token P₂ := by
      refine System.Reaches.invariant (I := HeldBy e id token) hheld ?_ hlater
      intro P ℓ P' hreach₂ hheld hok hstep
      have hall := Relation.ReflTransGen.trans hreach₁ (hreach₂.mono fun _ _ hok => hok.1)
      exact hheld.step hinit hall hok.2 hstep
    have hfree := (Op.exec_lockSetNx_eq_true hanswer').1
    rw [hheld₂.1] at hfree
    cases hfree

end Runs

/-! ## Executions of one job -/

/-- A step that acquires nothing keeps tokens apart: the condition is about successful acquires
only. -/
theorem NoAcquire.tokensApart {ℓ : OrderLabel} {P : OrderPool} (h : NoAcquire ℓ P) :
    TokensApart ℓ P :=
  fun _ _ hcall => by cases h _ hcall

/-- An execution takes its lock. -/
def acquiringRun : List OrderLabel :=
  [.spawn 0 (.process seedPayload (seedJob 0)), .act 0 (.undisturbed 1)]

theorem acquiringRun_replays :
    ((orderSystem seedConfig).replay acquiringRun (Pool.init (World.init .seed))).isSome = true := by
  decide +kernel

/-- The execution is alone, so its token is nobody else's. -/
theorem acquiringRun_admitted :
    (orderSystem seedConfig).Admitted TokensApart acquiringRun (Pool.init (World.init .seed)) := by
  refine ⟨NoAcquire.tokensApart (noAcquire_spawn _ _ _), fun P₁ hspawn => ⟨?_, fun _ _ => trivial⟩⟩
  intro id token _ _ j u hu
  obtain ⟨-, rfl⟩ := (orderSystem seedConfig).step_spawn_init hspawn hu
  exact not_holdsLock_nil id token

/-- The pool once the lock is set. -/
def acquiredPool : OrderPool :=
  (orderSystem seedConfig).after acquiringRun (Pool.init (World.init .seed)) acquiringRun_replays

/-- A choice that loses its call. -/
def lostChoice (now : Time) : Choice :=
  { Choice.undisturbed now with fault := .rejected "connection terminated" }

/-- The insertion of the execution fails, so that it comes to its release. -/
theorem acquiredPool_replays :
    ((orderSystem seedConfig).replay [.act 0 (lostChoice 2)] acquiredPool).isSome = true := by
  decide +kernel

/-- The pool in which the next call of its holder has failed, so that the release comes next. -/
def releasingPool : OrderPool :=
  (orderSystem seedConfig).after [.act 0 (lostChoice 2)] acquiredPool acquiredPool_replays

/-- It is reached by a run that keeps tokens apart. -/
theorem releasingPool_reached :
    (orderSystem seedConfig).ReachesWith TokensApart lockSetters
      (Pool.init (World.init .seed), noSetters)
      (releasingPool, (orderSystem seedConfig).recordOf lockSetters [.act 0 (lostChoice 2)]
        acquiredPool ((orderSystem seedConfig).recordOf lockSetters acquiringRun
          (Pool.init (World.init .seed)) noSetters)) := by
  have hacquired : (orderSystem seedConfig).replay acquiringRun (Pool.init (World.init .seed)) =
      some acquiredPool :=
    System.replay_after acquiringRun_replays
  have hreleasing : (orderSystem seedConfig).replay [.act 0 (lostChoice 2)] acquiredPool =
      some releasingPool :=
    System.replay_after acquiredPool_replays
  have hquiet : (orderSystem seedConfig).Admitted TokensApart [.act 0 (lostChoice 2)]
      acquiredPool :=
    .mono (fun _ _ (h : NoAcquire _ _) => h.tokensApart) (.of_check (by decide +kernel))
  exact .trans (.of_replay acquiringRun_admitted hacquired noSetters)
    (.of_replay hquiet hreleasing _)

theorem locksOwned_of_tokensApart_releasing :
    LocksOwned seedConfig TokensApart releasingPool
      ((orderSystem seedConfig).recordOf lockSetters [.act 0 (lostChoice 2)] acquiredPool
        ((orderSystem seedConfig).recordOf lockSetters acquiringRun (Pool.init (World.init .seed))
          noSetters)) :=
  locksOwned_of_tokensApart releasingPool_reached

/-- Two executions of one job in one worker process.  The lock of the first expires, the
second takes it, and the first fails. -/
def sharedTokenRun : List OrderLabel :=
  [.spawn 0 (.process seedPayload (seedJob 0)), .spawn 1 (.process seedPayload (seedJob 1)),
    .act 0 (.undisturbed 1), .env (.lock ⟨7⟩), .act 1 (.undisturbed 2), .act 0 (lostChoice 3)]

theorem sharedTokenRun_replays :
    ((orderSystem seedConfig).replay sharedTokenRun (Pool.init (World.init .seed))).isSome =
      true := by
  decide +kernel

/-- The pool after that run. -/
def sharedTokenPool : OrderPool :=
  (orderSystem seedConfig).after sharedTokenRun (Pool.init (World.init .seed))
    sharedTokenRun_replays

/-- Who has set the locks by then. -/
def sharedTokenSetters : Uuid → Option ℕ :=
  (orderSystem seedConfig).recordOf lockSetters sharedTokenRun (Pool.init (World.init .seed))
    noSetters

theorem sharedTokenPool_replays :
    ((orderSystem seedConfig).replay [.act 0 (.undisturbed 4)] sharedTokenPool).isSome = true := by
  decide +kernel

/-- The first execution has released. -/
def deletedPool : OrderPool :=
  (orderSystem seedConfig).after [.act 0 (.undisturbed 4)] sharedTokenPool sharedTokenPool_replays

/-- The first execution is at its release, and deletes the lock of the second: the token of both is
made of the worker and the job, and the comparison in Redis cannot tell them apart. -/
theorem sharedTokenPool_eq :
    (match (Label.act 0 (.undisturbed 4) : OrderLabel).call? sharedTokenPool with
      | some (.lockRelease id _) => decide (id = ⟨7⟩)
      | _ => false) = true ∧
    deletedPool.world.locks ⟨7⟩ ≠ sharedTokenPool.world.locks ⟨7⟩ ∧
    sharedTokenSetters ⟨7⟩ = some 1 := by
  decide +kernel

/-- **A release deletes another execution's lock.** The script compares the value, and the value is
the same. -/
theorem not_locksOwned_of_sharedToken :
    ¬ ∀ (config : AppConfig) (w : World) (P : OrderPool) (setter : Uuid → Option ℕ),
      (orderSystem config).ReachesWith (fun _ _ => True) lockSetters (Pool.init w, noSetters)
        (P, setter) → LocksOwned config (fun _ _ => True) P setter := by
  intro h
  have howned := h seedConfig (World.init .seed) sharedTokenPool sharedTokenSetters
    (.of_replay (.of_forall (fun _ _ => trivial) _ _) (Option.some_get sharedTokenRun_replays).symm
      noSetters)
  obtain ⟨hcall, hdeleted, hsetter⟩ := sharedTokenPool_eq
  split at hcall
  · rename_i id token hrelease
    rw [← of_decide_eq_true hcall] at hdeleted hsetter
    have hown := howned.released 0 _ id token _ (System.step_after sharedTokenPool_replays)
      hrelease hdeleted
    rw [hsetter] at hown
    cases hown
  · cases hcall

end ChickenOrder
