import ChickenOrder.Services.Creations

/-!
# API idempotency under concurrency

Any number of calls of `execute` share one idempotency key.  The pending key is
a lock without a holder's token: whoever's `SET … NX` succeeds owns it until its
own `DEL`.  `owner_unique` is that a call which has published keeps it for good,
so that no second call comes to publish, however often the key went from one
failed call to the next before.

The runs of this module have one key, and only validation and publishing fail in them; that a
key expires or a response cannot be stored is left to `ChickenOrder.Guarantees.AllOrNothing`.
The invariants are `SolePublisher`, on the queue, and `completer_of_reaches`, on the stored
response; each is proved from what one step does to that part of the world, `queue_step` and
`response_step`.
-/

namespace ChickenOrder

open Interaction Interaction.Program CreateOrderService

/-! ## Runs on one key -/

/-- What can fail of a call: validation, and publishing.  A job that is refused is not on the queue;
that a publication takes effect and is not answered is a failure after a successful one, which these
runs exclude. -/
def Op.Tolerates (o : Op) (fault : Fault String) : Prop :=
  match o with
  | .menuCacheGet _ => True
  | .menuCacheSet _ _ => True
  | .findMenusByIds _ _ => True
  | .mainQueueAdd _ => fault.Within True False
  | _ => fault = .none

instance (o : Op) (fault : Fault String) : Decidable (o.Tolerates fault) := by
  unfold Op.Tolerates
  split <;> infer_instance

/-- The steps of a run in which all calls carry the key, only validation and publishing
fail, and no idempotency key expires. -/
def EarlyFailuresOnly (key : String) (ℓ : OrderLabel) (P : OrderPool) : Prop :=
  match ℓ with
  | .spawn _ (.createOrder cmd _) => cmd.idempotencyKey = key
  | .spawn _ _ => False
  | .act i c => ∀ o ∈ (Label.act i c : OrderLabel).call? P, o.Tolerates c.fault
  | .env (.idempotency _) => False
  | .env _ => True

instance (key : String) (ℓ : OrderLabel) (P : OrderPool) : Decidable (EarlyFailuresOnly key ℓ P) := by
  unfold EarlyFailuresOnly
  split <;> infer_instance

/-- How many jobs have been published for the key.  The guarantee is that this never passes one. -/
def World.jobs (w : World) (key : String) : ℕ :=
  w.mainQueue.countP fun job => job.data.idempotencyKey = key

/-- Redis knows nothing of the key: it is not held, no response is stored under it, and no job on
the queue carries it. -/
structure Unknown (key : String) (w : World) : Prop where
  pending : w.idempotency (IdempotencyService.pendingKey key) = none
  response : w.idempotency (IdempotencyService.responseKey key) = none
  unpublished : w.jobs key = 0

/-- What the calls with one key have come to, at any moment: one job at most, one original answer at
most, of which all the others are replays, and no other way to end than a conflict, a rejection or
an unavailable service. -/
structure Idempotent (key : String) (P : OrderPool) : Prop where
  published : P.world.jobs key ≤ 1
  /-- At most one call returns a result that is not replayed. -/
  original : ∀ i j t u r s, P.threads i = some t → P.threads j = some u →
    t.Returned (.created r) → u.Returned (.created s) → r.replayed = false →
    s.replayed = false → i = j
  /-- Every result is that call's, and is about the job on the queue. -/
  agreed : ∀ i t a, P.threads i = some t → t.Returned a → ∃ r, a = .created r ∧
    (∃ j u s, P.threads j = some u ∧ u.Returned (.created s) ∧ s.replayed = false ∧
      r.orderId = s.orderId ∧ r.traceId = s.traceId) ∧
    ∀ job ∈ P.world.mainQueue, job.data.idempotencyKey = key → job.data.orderId = r.orderId
  refused : ∀ i t err, P.threads i = some t → t.Threw err →
    ∃ status m, err = .http status m ∧ (status = 409 ∨ status = 422 ∨ status = 503)

section Runs

variable {config : AppConfig} {key : String} {w : World} {P P' : OrderPool}

/-- The pools of these runs: requests with one key, of which only validations and publications fail,
and whose key does not expire. -/
abbrev OneKeyPool (config : AppConfig) (key : String) (w : World) (P : OrderPool) : Prop :=
  (orderSystem config).Reaches (EarlyFailuresOnly key) (Pool.init w) P

/-- All threads of these runs are calls with the key. -/
theorem creates_of_reaches (h : OneKeyPool config key w P) :
    ∀ i t, P.threads i = some t →
      ∃ cmd ctx, t.request = .createOrder cmd ctx ∧ cmd.idempotencyKey = key := by
  refine System.Reaches.invariant
    (I := fun P => ∀ i t, P.threads i = some t →
      ∃ cmd ctx, t.request = .createOrder cmd ctx ∧ cmd.idempotencyKey = key)
    (fun i t ht => by cases ht) ?_ h
  intro P ℓ P' _ hI hok hstep i u hu
  obtain hold | ⟨q, rfl, rfl⟩ | ⟨c, t, o, k, rfl, ht, -, -, rfl⟩ :=
    (orderSystem config).step_threads hstep hu
  · exact hI i u hold
  · cases q with
    | createOrder cmd ctx => exact ⟨cmd, ctx, rfl, hok⟩
    | _ => cases hok
  · exact hI i t ht

/-- A call of these runs: what makes it, with what, and which faults it can have. -/
theorem call_of_reaches (h : OneKeyPool config key w P) {i : ℕ} {t : OrderThread} {c : Choice}
    (ht : P.threads i = some t) {o : Op} {k : Except OrderError (Op.Reply o) → Service Outcome}
    (hrest : t.rest = .call o k) (hok : EarlyFailuresOnly key (.act i c) P) :
    ∃ cmd ctx, t.request = .createOrder cmd ctx ∧ cmd.idempotencyKey = key ∧
      ExecuteCalls cmd ctx o ∧ o.Tolerates c.fault := by
  obtain ⟨cmd, ctx, hreq, hkey⟩ := creates_of_reaches h i t ht
  have hallows := allows_of_reaches (fun _ => rfl) h ht hrest
  rw [hreq] at hallows
  exact ⟨cmd, ctx, hreq, hkey, hallows, hok o (Label.call?_act ht hrest c)⟩

/-- Under the response key there is only ever a response. -/
theorem response_of_reaches (hw : Unknown key w) (h : OneKeyPool config key w P)
    {value : IdempotencyValue}
    (hvalue : P.world.idempotency (IdempotencyService.responseKey key) = some value) :
    ∃ r, value = .response r := by
  have hne := IdempotencyService.pendingKey_ne_responseKey key
  -- only `setCompleted` writes this key, and it writes a response
  refine System.Reaches.world_invariant
    (I := fun w => ∀ value, w.idempotency (IdempotencyService.responseKey key) = some value →
      ∃ r, value = .response r) ?_ ?_ ?_ h value hvalue
  · intro value hvalue
    rw [show (Pool.init w : OrderPool).world.idempotency _ = none from hw.response] at hvalue
    cases hvalue
  · intro P i c t o k hreach hok ht hrest hI
    obtain ⟨cmd, ctx, -, rfl, hcalls, -⟩ := call_of_reaches hreach ht hrest hok
    refine Op.exec_invariant
      (I := fun w => ∀ value,
        w.idempotency (IdempotencyService.responseKey cmd.idempotencyKey) = some value →
          ∃ r, value = .response r) hI ?_
    obtain ⟨k, id, rfl, -, heffect⟩ | ⟨k, r, rfl, heffect⟩ | ⟨k, rfl, heffect⟩ | heffect :=
      o.effect_idempotency c P.world
    · obtain ⟨rfl, rfl⟩ := hcalls
      rw [heffect, Function.update_of_ne hne.symm]
      exact hI
    · obtain ⟨rfl, rfl⟩ := hcalls
      rw [heffect, Function.update_self]
      rintro value hvalue
      cases hvalue
      exact ⟨_, rfl⟩
    · obtain rfl := hcalls
      rw [heffect, Function.update_of_ne hne.symm]
      exact hI
    · rw [heffect]
      exact hI
  · intro P e w' hok hw' hI
    cases hw'
    cases e with
    | idempotency key => cases hok
    | lock orderId => exact hI
    | menuCache key => exact hI

/-- These runs are smooth: only validation and publishing fail, and so a key is given back only by a
call that has not published. -/
theorem respects_smooth (hw : Unknown key w) :
    (creations True).Respects (orderSystem config) (EarlyFailuresOnly key) (Pool.init w) where
  admits := fun _ _ _ _ => trivial
  allows := by
    intro P i c t o k hreach hok ht hrest _
    obtain ⟨cmd, ctx, -, rfl, hcalls, hfault⟩ := call_of_reaches hreach ht hrest hok
    show Smooth ⟨o, (o.exec c P.world).1⟩
    cases o with
    | menuCacheGet key => trivial
    | menuCacheSet key menus => trivial
    | findMenusByIds menuIds storeId => trivial
    | mainQueueAdd data => trivial
    | idempotencyGet key =>
        obtain rfl := hcalls
        rw [Op.exec_undisturbed hfault]
        cases hvalue : P.world.idempotency (IdempotencyService.responseKey cmd.idempotencyKey) with
        | none => exact ⟨none, congrArg _ hvalue⟩
        | some value =>
            obtain ⟨r, rfl⟩ := response_of_reaches hw hreach hvalue
            exact ⟨some r, congrArg _ hvalue⟩
    | idempotencySetNx key id =>
        rw [Op.exec_undisturbed hfault]
        exact ⟨_, rfl⟩
    | idempotencySet key r =>
        rw [Op.exec_undisturbed hfault]
        exact ⟨_, rfl⟩
    | idempotencyDel key =>
        rw [Op.exec_undisturbed hfault]
        exact ⟨_, rfl⟩
    | emitNewOrder storeId orderId items amount traceId =>
        rw [Op.exec_undisturbed hfault]
        exact ⟨_, rfl⟩
    | _ => cases hcalls

/-- A call is made at its stage: what a thread has done so far decides what it may do next, as the
source's order of statements has it. -/
theorem mayCall_of_reaches (hw : Unknown key w) (h : OneKeyPool config key w P) {i : ℕ}
    {t : OrderThread} (ht : P.threads i = some t) {o : Op}
    {k : Except OrderError (Op.Reply o) → Service Outcome} (hrest : t.rest = .call o k) :
    MayCall True (creationStage t.hist) o := by
  obtain ⟨cmd, ctx, hreq, -⟩ := creates_of_reaches h i t ht
  obtain ⟨-, hfollows⟩ := Protocol.follows_of_reaches (respects_smooth hw)
    (fun q _ => follows_creations True config q) (fun _ => rfl) h i t ht
  rw [hreq, hrest] at hfollows
  exact hfollows.1

/-! ### The owner of the key -/

/-- The pending key is a lock: a call has it from its `SET … NX` to its `DEL`.  As it has no
holder's token, this depends on nobody deleting a key it does not have. -/
theorem guards_pendingKey (hw : Unknown key w) :
    (orderSystem config).Guards (EarlyFailuresOnly key) (Pool.init w)
      (fun h => (creationStage h).HasKey)
      (fun w => w.idempotency (IdempotencyService.pendingKey key) ≠ none) where
  start := by rintro (h | h | h) <;> cases h
  call := by
    intro P i c t o k hreach hok ht hrest
    obtain ⟨cmd, ctx, -, rfl, hcalls, hfault⟩ := call_of_reaches hreach ht hrest hok
    have hstage := mayCall_of_reaches hw hreach ht hrest
    show (¬ _ ∧ (o.exec c P.world).2.idempotency _ ≠ none) ∨
      (_ ∧ ¬ (creationStage (⟨o, (o.exec c P.world).1⟩ :: t.hist)).HasKey) ∨
      (((creationStage (⟨o, (o.exec c P.world).1⟩ :: t.hist)).HasKey → _) ∧
        (_ → (o.exec c P.world).2.idempotency _ ≠ none))
    cases o with
    | idempotencySetNx key id =>
        obtain ⟨rfl, rfl⟩ := hcalls
        by_cases hfree : P.world.idempotency (IdempotencyService.pendingKey cmd.idempotencyKey) = none
        · refine .inl ⟨fun hheld => hheld hfree, ?_⟩
          have hheld : Function.update P.world.idempotency
              (IdempotencyService.pendingKey cmd.idempotencyKey) (some (.orderId ctx.orderId))
              (IdempotencyService.pendingKey cmd.idempotencyKey) = some (.orderId ctx.orderId) :=
            Function.update_self ..
          rw [Op.exec_setNx_of_none hfault hfree ctx.orderId]
          exact ne_of_eq_of_ne hheld nofun
        · -- the key belongs to another call
          refine .inr (.inr ⟨?_, fun hheld => Op.exec_idempotency_ne_none nofun hheld⟩)
          rw [Op.exec_setNx_of_ne_none hfault hfree ctx.orderId, creationStage_cons, hstage]
          rintro (h | h | h) <;> cases h
    | idempotencyGet key =>
        refine .inr (.inr ⟨?_, fun hheld => Op.exec_idempotency_ne_none nofun hheld⟩)
        rw [creationStage_cons, hstage]
        rintro (h | h | h) <;> cases h
    -- a release is what ends the ownership, as only a call that has the key makes it
    | idempotencyDel key =>
        obtain hstage | ⟨hrough, -⟩ := hstage
        · refine .inr (.inl ⟨.inl hstage, ?_⟩)
          rw [Op.exec_undisturbed hfault, creationStage_cons, hstage]
          rintro (h | h | h) <;> cases h
        · exact absurd trivial hrough
    | idempotencySet key response =>
        exact .inr (.inr ⟨fun _ => .inr (.inl hstage),
          fun hheld => Op.exec_idempotency_ne_none nofun hheld⟩)
    | emitNewOrder storeId orderId items amount traceId =>
        exact .inr (.inr ⟨fun _ => .inr (.inl hstage),
          fun hheld => Op.exec_idempotency_ne_none nofun hheld⟩)
    | _ =>
        exact .inr (.inr ⟨fun _ => .inl hstage,
          fun hheld => Op.exec_idempotency_ne_none nofun hheld⟩)
  env := by
    intro P e w' _ hok hw' hheld
    cases hw'
    cases e with
    -- the key does not expire in these runs
    | idempotency key => cases hok
    | lock orderId => exact hheld
    | menuCache key => exact hheld

/-- **One owner.** At most one call has the key.  It is the general rule of locks, applied to the
pending key. -/
theorem owner_unique (hw : Unknown key w) (h : OneKeyPool config key w P) {i j : ℕ}
    {t u : OrderThread} (ht : P.threads i = some t) (hu : P.threads j = some u)
    (hi : (creationStage t.hist).HasKey) (hj : (creationStage u.hist).HasKey) : i = j :=
  (System.owner_of_reaches (guards_pendingKey hw) (fun _ => rfl) h ht hi).2 j u hu hj

/-- A call that has a job keeps it.  Once it has published it does not come to its `catch` block any
more. -/
theorem hasJob_step (hw : Unknown key w) (h : OneKeyPool config key w P) {ℓ : OrderLabel}
    (hstep : (orderSystem config).step ℓ P = some P') {i : ℕ} {t : OrderThread}
    (ht : P.threads i = some t) (hjob : (creationStage t.hist).HasJob) :
    ∃ t', P'.threads i = some t' ∧ t'.request = t.request ∧ (creationStage t'.hist).HasJob := by
  obtain ⟨t', ht', hreq, hsuffix⟩ := (orderSystem config).step_persists hstep ht
  refine ⟨t', ht', hreq, ?_⟩
  obtain hold | ⟨q, -, rfl⟩ | ⟨c, t₀, o, k, -, ht₀, hrest, -, rfl⟩ :=
    (orderSystem config).step_threads hstep ht'
  · rw [ht] at hold
    cases hold
    exact hjob
  · rw [List.eq_nil_of_suffix_nil hsuffix] at hjob
    rcases hjob with hjob | hjob <;> cases hjob
  · rw [ht] at ht₀
    cases ht₀
    exact hasJob_next hjob (mayCall_of_reaches hw h ht hrest) _

/-- A call that has completed has returned its own result. -/
theorem returned_of_completed (hw : Unknown key w) (h : OneKeyPool config key w P) {i : ℕ}
    {t : OrderThread} (ht : P.threads i = some t) {cmd : CreateOrderCommand} {ctx : ApiContext}
    (hreq : t.request = .createOrder cmd ctx) (hstage : creationStage t.hist = .completed) :
    t.Returned (.created (result ctx)) := by
  have hprog := fun q (_ : True) => follows_creations True config q
  cases hrest : t.rest with
  | pure a =>
      have hreturns := Protocol.returns_of_reaches (respects_smooth hw) hprog (fun _ => rfl) h ht hrest
      rw [hreq] at hreturns
      obtain ⟨r, rfl, ⟨-, rfl⟩ | ⟨hrefused, -⟩⟩ := hreturns
      · exact hrest
      · rw [hstage] at hrefused
        cases hrefused
  | throw err =>
      have hthrows := Protocol.throws_of_reaches (respects_smooth hw) hprog (fun _ => rfl) h ht hrest
      rw [hreq] at hthrows
      obtain ⟨hover, -⟩ := hthrows trivial
      rw [hstage] at hover
      rcases hover with hover | hover <;> cases hover
  | call o k =>
      have hcall := mayCall_of_reaches hw h ht hrest
      rw [hstage] at hcall
      exact absurd hcall not_mayCall_completed

/-! ### What a step does to the response and to the queue -/

/-- The thread of an acting call, one event later. -/
theorem acted_of_step (config : AppConfig) (P : OrderPool) (i : ℕ) (c : Choice) {t : OrderThread}
    {o : Op} (k : Except OrderError (Op.Reply o) → Service Outcome) {cmd : CreateOrderCommand}
    {ctx : ApiContext} (hreq : t.request = .createOrder cmd ctx) :
    ∃ t', ((orderSystem config).advance P i c t o k).threads i = some t' ∧
      t'.request = .createOrder cmd ctx ∧ t'.hist = ⟨o, (o.exec c P.world).1⟩ :: t.hist :=
  ⟨_, (orderSystem config).advance_threads_self .., hreq, rfl⟩

/-- **The response key** stays as it is, or a call that has published completes.  This is the only
statement that writes it. -/
theorem response_step (hw : Unknown key w) (h : OneKeyPool config key w P) {ℓ : OrderLabel}
    (hok : EarlyFailuresOnly key ℓ P) (hstep : (orderSystem config).step ℓ P = some P') :
    P'.world.idempotency (IdempotencyService.responseKey key) =
      P.world.idempotency (IdempotencyService.responseKey key) ∨
    ∃ i t t' cmd ctx, P.threads i = some t ∧ creationStage t.hist = .published ∧
      P'.threads i = some t' ∧ t'.request = .createOrder cmd ctx ∧
      creationStage t'.hist = .completed ∧
      P'.world.idempotency (IdempotencyService.responseKey key) = some (.response (result ctx)) := by
  obtain ⟨i, q, rfl, -, rfl⟩ | ⟨i, c, t, o, k, rfl, ht, hrest, rfl⟩ | ⟨e, w', rfl, hw', rfl⟩ :=
    (orderSystem config).step_cases hstep
  · exact .inl rfl
  · -- only step 5 writes the response; the other commands are on the pending key
    obtain ⟨cmd, ctx, hreq, rfl, hcalls, hfault⟩ := call_of_reaches h ht hrest hok
    have hstage := mayCall_of_reaches hw h ht hrest
    by_cases hset : ∃ k r, o = .idempotencySet k r
    · obtain ⟨key, r, rfl⟩ := hset
      obtain ⟨rfl, rfl⟩ := hcalls
      obtain ⟨t', ht', hreq', hhist⟩ := acted_of_step config P i c k hreq
      refine .inr ⟨i, t, t', cmd, ctx, ht, hstage, ht', hreq', ?_, ?_⟩
      · rw [hhist, creationStage_cons, hstage, Op.exec_undisturbed hfault]
        rfl
      · show (Op.exec _ c P.world).2.idempotency _ = _
        rw [Op.exec_undisturbed hfault]
        exact Function.update_self ..
    · left
      have hne := (IdempotencyService.pendingKey_ne_responseKey cmd.idempotencyKey).symm
      refine Op.exec_invariant (I := fun w =>
        w.idempotency (IdempotencyService.responseKey cmd.idempotencyKey) =
          P.world.idempotency (IdempotencyService.responseKey cmd.idempotencyKey)) rfl ?_
      obtain ⟨key, id, rfl, -, heffect⟩ | ⟨key, r, rfl, -⟩ | ⟨key, rfl, heffect⟩ | heffect :=
        o.effect_idempotency c P.world
      · obtain ⟨rfl, -⟩ := hcalls
        rw [heffect, Function.update_of_ne hne]
      · exact absurd ⟨key, r, rfl⟩ hset
      · obtain rfl := hcalls
        rw [heffect, Function.update_of_ne hne]
      · rw [heffect]
  · cases hw'
    cases e with
    | idempotency key => cases hok
    | lock orderId => exact .inl rfl
    | menuCache key => exact .inl rfl

/-- **The queue** stays as it is, or a call that has the key publishes its job. -/
theorem queue_step (hw : Unknown key w) (h : OneKeyPool config key w P) {ℓ : OrderLabel}
    (hok : EarlyFailuresOnly key ℓ P) (hstep : (orderSystem config).step ℓ P = some P') :
    P'.world.mainQueue = P.world.mainQueue ∨
    ∃ i t t' cmd ctx data, P.threads i = some t ∧ creationStage t.hist = .holding ∧
      P'.threads i = some t' ∧ t'.request = .createOrder cmd ctx ∧
      creationStage t'.hist = .published ∧ data.orderId = ctx.orderId ∧
      data.idempotencyKey = key ∧
      P'.world.mainQueue = P.world.mainQueue ++ [⟨.order data.orderId, data⟩] := by
  obtain ⟨i, q, rfl, -, rfl⟩ | ⟨i, c, t, o, k, rfl, ht, hrest, rfl⟩ | ⟨e, w', rfl, hw', rfl⟩ :=
    (orderSystem config).step_cases hstep
  · exact .inl rfl
  · obtain ⟨cmd, ctx, hreq, rfl, hcalls, hfault⟩ := call_of_reaches h ht hrest hok
    have hstage := mayCall_of_reaches hw h ht hrest
    show (o.exec c P.world).2.mainQueue = P.world.mainQueue ∨ _
    obtain ⟨data, rfl, -, hadded⟩ | hsame := o.effect_mainQueue c P.world
    · obtain ⟨amount, items, rfl⟩ := hcalls
      obtain ⟨t', ht', hreq', hhist⟩ := acted_of_step config P i c k hreq
      cases hlost : c.fault with
      | none =>
          refine .inr ⟨i, t, t', cmd, ctx, payload cmd ctx amount items, ht, hstage, ht', hreq', ?_,
            rfl, rfl, ?_⟩
          · rw [hhist, creationStage_cons, hstage, Op.exec_undisturbed hlost]
            rfl
          · show (Op.exec _ c P.world).2.mainQueue = _
            rw [Op.exec_undisturbed hlost, hadded]
      | rejected m =>
          -- a refused job is not on the queue
          left
          unfold Op.exec
          rw [hlost]
          rfl
      | unacknowledged m =>
          unfold Op.Tolerates at hfault
          rw [hlost] at hfault
          exact hfault.elim
    · exact .inl (Op.exec_invariant (I := fun w => w.mainQueue = P.world.mainQueue) rfl hsame)
  · cases hw'
    cases e <;> exact .inl rfl

/-! ### One job, one response -/

/-- At most one job for the key, and the call that published it keeps the key, so that no other call
comes to publish. -/
structure SolePublisher (key : String) (P : OrderPool) : Prop where
  count : P.world.jobs key ≤ 1
  publisher : ∀ job ∈ P.world.mainQueue, job.data.idempotencyKey = key →
    ∃ i t cmd ctx, P.threads i = some t ∧ t.request = .createOrder cmd ctx ∧
      (creationStage t.hist).HasJob ∧ job.data.orderId = ctx.orderId

/-- A step that publishes is one of the key's owner, and an owner that has not published is the
first to do so. -/
theorem SolePublisher.step (hw : Unknown key w) (h : OneKeyPool config key w P) {ℓ : OrderLabel}
    (hsole : SolePublisher key P) (hok : EarlyFailuresOnly key ℓ P)
    (hstep : (orderSystem config).step ℓ P = some P') : SolePublisher key P' := by
  -- a publisher keeps its job through the step
  have hkept : ∀ job ∈ P.world.mainQueue, job.data.idempotencyKey = key →
      ∃ i t cmd ctx, P'.threads i = some t ∧ t.request = .createOrder cmd ctx ∧
        (creationStage t.hist).HasJob ∧ job.data.orderId = ctx.orderId := by
    intro job hmem hkey
    obtain ⟨i, t, cmd, ctx, ht, hreq, hjob, horder⟩ := hsole.publisher job hmem hkey
    obtain ⟨t', ht', hreq', hjob'⟩ := hasJob_step hw h hstep ht hjob
    exact ⟨i, t', cmd, ctx, ht', hreq'.trans hreq, hjob', horder⟩
  obtain hsame | ⟨i, t, t', cmd, ctx, data, ht, hstage, ht', hreq', hstage', horder, hkey, hadded⟩ :=
    queue_step hw h hok hstep
  · -- the queue is as it was
    refine ⟨?_, ?_⟩
    · unfold World.jobs
      rw [hsame]
      exact hsole.count
    · rw [hsame]
      exact hkept
  · -- the publisher of an earlier job would own the key as well
    have hnone : ∀ job ∈ P.world.mainQueue, job.data.idempotencyKey ≠ key := by
      intro job hmem hjobkey
      obtain ⟨j, u, -, -, hu, -, hjob, -⟩ := hsole.publisher job hmem hjobkey
      have hij : i = j := owner_unique hw h ht hu (.inl hstage) hjob.hasKey
      subst hij
      rw [ht] at hu
      cases hu
      rw [hstage] at hjob
      rcases hjob with hjob | hjob <;> cases hjob
    have hzero : P.world.mainQueue.countP (fun job => job.data.idempotencyKey = key) = 0 :=
      List.countP_eq_zero.mpr fun job hmem => by simpa using hnone job hmem
    refine ⟨?_, ?_⟩
    · unfold World.jobs
      rw [hadded, List.countP_append, hzero, Nat.zero_add]
      exact List.countP_le_length
    · rw [hadded]
      intro job hmem hjobkey
      rcases List.mem_append.mp hmem with hold | hnew
      · exact absurd hjobkey (hnone job hold)
      · rw [List.mem_singleton.mp hnew]
        exact ⟨i, t', cmd, ctx, ht', hreq', .inl hstage', horder⟩

/-- There is one publisher at most in every run. -/
theorem solePublisher_of_reaches (hw : Unknown key w) (h : OneKeyPool config key w P) :
    SolePublisher key P := by
  refine System.Reaches.invariant (I := SolePublisher key) ⟨?_, ?_⟩ ?_ h
  · exact (Nat.le_of_eq hw.unpublished).trans (Nat.zero_le 1)
  · intro job hmem hkey
    have hnone := List.countP_eq_zero.mp hw.unpublished job hmem
    simp [hkey] at hnone
  · intro P ℓ P' hreach hsole hok hstep
    exact hsole.step hw hreach hok hstep

/-- A stored response is that of a call which has completed. -/
theorem completer_of_reaches (hw : Unknown key w) (h : OneKeyPool config key w P)
    {r : CreateOrderResult}
    (hr : P.world.idempotency (IdempotencyService.responseKey key) = some (.response r)) :
    ∃ i t cmd ctx, P.threads i = some t ∧ t.request = .createOrder cmd ctx ∧
      creationStage t.hist = .completed ∧ r = result ctx := by
  refine System.Reaches.invariant
    (I := fun P => ∀ r,
      P.world.idempotency (IdempotencyService.responseKey key) = some (.response r) →
        ∃ i t cmd ctx, P.threads i = some t ∧ t.request = .createOrder cmd ctx ∧
          creationStage t.hist = .completed ∧ r = result ctx) ?_ ?_ h r hr
  · intro r hr
    rw [show (Pool.init w : OrderPool).world.idempotency _ = none from hw.response] at hr
    cases hr
  · intro P ℓ P' hreach hI hok hstep r hr
    obtain hsame | ⟨i, t, t', cmd, ctx, -, -, ht', hreq', hstage', hset⟩ :=
      response_step hw hreach hok hstep
    · obtain ⟨i, t, cmd, ctx, ht, hreq, hstage, hresult⟩ := hI r (hsame ▸ hr)
      have hfinished : t.rest.next = none := by
        rw [returned_of_completed hw hreach ht hreq hstage]
        rfl
      exact ⟨i, t, cmd, ctx, (orderSystem config).step_finished hstep ht hfinished, hreq, hstage,
        hresult⟩
    · rw [hset] at hr
      cases hr
      exact ⟨i, t', cmd, ctx, ht', hreq', hstage', rfl⟩

/-- A response that a call has read is still the stored one: it is written once and, in these runs,
does not expire. -/
theorem cached_of_reaches (hw : Unknown key w) (h : OneKeyPool config key w P) {i : ℕ}
    {t : OrderThread} (ht : P.threads i = some t) {cached : CreateOrderResult}
    (hread : (⟨.idempotencyGet (IdempotencyService.responseKey key),
      .ok (some (.response cached))⟩ : OrderEvent) ∈ t.hist) :
    P.world.idempotency (IdempotencyService.responseKey key) = some (.response cached) := by
  refine System.facts_of_reaches
    (fun e w => ∀ cached, e = (⟨.idempotencyGet (IdempotencyService.responseKey key),
      .ok (some (.response cached))⟩ : OrderEvent) →
        w.idempotency (IdempotencyService.responseKey key) = some (.response cached))
    (fun _ => rfl) ?_ ?_ h i t ht _ hread cached rfl
  · intro P i c t o k _ _ _ _ cached he
    obtain ⟨rfl, hanswer⟩ := Event.mk.inj he
    obtain ⟨hsame, hvalue⟩ := Op.exec_idempotencyGet_eq_ok (eq_of_heq hanswer)
    show (Op.exec _ c P.world).2.idempotency _ = _
    rw [hsame]
    exact hvalue
  · intro P ℓ P' e hreach hok hstep hold cached he
    have hcached := hold cached he
    obtain hsame | ⟨i, t, -, -, -, ht, hstage, -⟩ := response_step hw hreach hok hstep
    · rw [hsame]
      exact hcached
    · -- the call that stored it has the key for good
      obtain ⟨j, u, -, -, hu, -, hdone, -⟩ := completer_of_reaches hw hreach hcached
      have hij : i = j := owner_unique hw hreach ht hu (.inr (.inl hstage)) (.inr (.inr hdone))
      subst hij
      rw [ht] at hu
      cases hu
      rw [hstage] at hdone
      cases hdone

/-- What a call that has returned goes back to: a call that completed, be it itself or the one whose
response it has read. -/
theorem source_of_returned (hw : Unknown key w) (h : OneKeyPool config key w P) {i : ℕ}
    {t : OrderThread} (ht : P.threads i = some t) {a : Outcome} (ha : t.Returned a) :
    ∃ r, a = .created r ∧ (r.replayed = false → (creationStage t.hist).HasKey) ∧
      ∃ j u cmd ctx, P.threads j = some u ∧ u.request = .createOrder cmd ctx ∧
        creationStage u.hist = .completed ∧ r.orderId = ctx.orderId ∧
        r.traceId = (result ctx).traceId := by
  obtain ⟨cmd, ctx, hreq, rfl⟩ := creates_of_reaches h i t ht
  have hreturns := Protocol.returns_of_reaches (respects_smooth hw)
    (fun q _ => follows_creations True config q) (fun _ => rfl) h ht ha
  rw [hreq] at hreturns
  obtain ⟨r, rfl, ⟨hdone, rfl⟩ | ⟨-, cached, rfl, hread⟩⟩ := hreturns
  · exact ⟨_, rfl, fun _ => .inr (.inr hdone), i, t, cmd, ctx, ht, hreq, hdone, rfl, rfl⟩
  · have hcached := cached_of_reaches hw h ht hread
    obtain ⟨j, u, cmd', ctx', hu, hreq', hdone, rfl⟩ := completer_of_reaches hw h hcached
    exact ⟨_, rfl, nofun, j, u, cmd', ctx', hu, hreq', hdone, rfl, rfl⟩

/-- **Concurrent calls with one key are one order.**  In every run of calls with a key Redis
does not know, of which only validation and publishing fail: one job at most is published,
one call at most returns a result that is not replayed, every result is that call's, and every
other call ends with 409, 422 or 503. -/
theorem idempotent_of_reaches (hw : Unknown key w) (h : OneKeyPool config key w P) :
    Idempotent key P := by
  have hsole := solePublisher_of_reaches hw h
  refine ⟨hsole.count, ?_, ?_, ?_⟩
  · -- a result of its own makes a call the owner of the key, and there is one
    intro i j t u r s ht hu hr hs hfresh hfresh'
    obtain ⟨_, hr', howner, -⟩ := source_of_returned hw h ht hr
    obtain ⟨_, hs', howner', -⟩ := source_of_returned hw h hu hs
    cases hr'
    cases hs'
    exact owner_unique hw h ht hu (howner hfresh) (howner' hfresh')
  · -- what is returned was completed by a call, which is the publisher of the job
    intro i t a ht ha
    obtain ⟨r, rfl, -, j, u, cmd, ctx, hu, hreq, hdone, horder, htrace⟩ :=
      source_of_returned hw h ht ha
    refine ⟨r, rfl, ⟨j, u, result ctx, hu, returned_of_completed hw h hu hreq hdone, rfl, horder,
      htrace⟩, ?_⟩
    intro job hmem hkey
    obtain ⟨j', u', cmd', ctx', hu', hreq', hjob, hid⟩ := hsole.publisher job hmem hkey
    have hjj : j = j' := owner_unique hw h hu hu' (.inr (.inr hdone)) hjob.hasKey
    subst hjj
    rw [hu] at hu'
    cases hu'
    rw [hreq] at hreq'
    cases hreq'
    exact hid.trans horder.symm
  · -- what a call throws is left to its protocol
    intro i t err ht herr
    obtain ⟨cmd, ctx, hreq, -⟩ := creates_of_reaches h i t ht
    have hthrows := Protocol.throws_of_reaches (respects_smooth hw)
      (fun q _ => follows_creations True config q) (fun _ => rfl) h ht herr
    rw [hreq] at hthrows
    exact (hthrows trivial).2

end Runs

/-- A first call whose job is refused, a second one that takes the key over, and a third
one in between that asks for the response too early. -/
def takeoverRun : List OrderLabel :=
  let refused : Choice := { Choice.undisturbed 0 with fault := .rejected "queue" }
  let call (n : ℕ) : Request :=
    .createOrder seedCommand { seedContext with orderId := ⟨n⟩ }
  [.spawn 0 (call 7), .spawn 1 (call 8), .spawn 2 (call 9), .act 0 (.undisturbed 0),
    .act 2 (.undisturbed 0), .act 0 (.undisturbed 0), .act 0 (.undisturbed 0),
    .act 0 (.undisturbed 0), .act 0 refused, .act 0 (.undisturbed 0), .act 1 (.undisturbed 0),
    .act 2 (.undisturbed 0), .act 1 (.undisturbed 0), .act 1 (.undisturbed 0),
    .act 1 (.undisturbed 0), .act 1 (.undisturbed 0), .spawn 3 (call 10), .act 3 (.undisturbed 0),
    .act 3 (.undisturbed 0)]

theorem takeoverRun_replays :
    ((orderSystem seedConfig).replay takeoverRun (Pool.init (World.init .seed))).isSome = true := by
  decide +kernel

/-- The pool in which the second call has been accepted and a fourth one is answered with its
order. -/
def takeoverPool : OrderPool :=
  (orderSystem seedConfig).after takeoverRun (Pool.init (World.init .seed)) takeoverRun_replays

/-- In it two calls are answered with one order, after another call has given the key up. -/
theorem idempotent_takeover : Idempotent "key-7" takeoverPool := by
  have hadmitted : (orderSystem seedConfig).Admitted (EarlyFailuresOnly "key-7") takeoverRun
      (Pool.init (World.init .seed)) := .of_check (by decide +kernel)
  exact idempotent_of_reaches ⟨rfl, rfl, rfl⟩ (.after hadmitted takeoverRun_replays)

example : takeoverPool.world.jobs "key-7" = 1 := by decide +kernel

end ChickenOrder
