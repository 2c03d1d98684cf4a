import Mathlib.Data.List.Pairwise
import ChickenOrder.Services.Creations
import ChickenOrder.Services.Executions

/-!
# One order on both levels of deduplication

The API deduplicates by a Redis key that expires, the worker by a unique column
that does not.  A client that was handed an order id relies on both having
decided for the same order.  `Deduplicated` says so of a pool.

When the Redis key is gone, the API draws a new order id for a key that the
table has stored with another one, and the worker acknowledges the new job as a
duplicate.  As long as no second job is published for a stored key,
the two levels agree: `deduplicated_of_firstOfItsKey`.

Two invariants carry the proof.  On the queue, jobs are named after their orders, and no two are
for one key (`JobsDistinct`).  And wherever the API has an order id from, be it an answer of its
own, a stored response or a response it has read, there is a job of that order under that key
(`HasJob`).  A row comes from a job (`row_of_reaches`), so the row of the key and the order of
the client are those of one job.
-/

namespace ChickenOrder

open Interaction Interaction.Program CreateOrderService ProcessOrderService

/-! ## The guarantee -/

/-- The call of thread `i`, with the key, returned `r`.  That may also be a replay of another call's
result. -/
def Accepted (P : OrderPool) (i : ℕ) (key : String) (r : CreateOrderResult) : Prop :=
  ∃ t cmd ctx, P.threads i = some t ∧ t.request = .createOrder cmd ctx ∧
    cmd.idempotencyKey = key ∧ t.Returned (.created r)

/-- The key and the result of a thread that was accepted. -/
def acceptedBy (P : OrderPool) (i : ℕ) : Option (String × CreateOrderResult) :=
  (P.threads i).bind fun t =>
    match t.request, t.rest with
    | .createOrder cmd _, .pure (.created r) => some (cmd.idempotencyKey, r)
    | _, _ => none

/-- What is read off a pool is what the thread has returned. -/
theorem accepted_of_acceptedBy {P : OrderPool} {i : ℕ} {key : String} {r : CreateOrderResult}
    (h : acceptedBy P i = some (key, r)) : Accepted P i key r := by
  obtain ⟨t, ht, hresult⟩ := Option.bind_eq_some_iff.mp h
  split at hresult
  · rename_i cmd ctx r' hreq hrest
    cases hresult
    exact ⟨t, cmd, ctx, ht, hreq, rfl, hrest⟩
  · cases hresult

/-- An execution of the order's job has returned. -/
def Acknowledged (P : OrderPool) (orderId : Uuid) : Prop :=
  ∃ i payload jobMeta, executionOf P i = some (payload, jobMeta, .returned) ∧
    payload.orderId = orderId

/-- What a client that was handed `orderId` for the key relies on: the job is on the queue, and once
the job is acknowledged the row is stored under this key. -/
structure Deduplicated (P : OrderPool) (key : String) (orderId : Uuid) : Prop where
  queued : ∃ job ∈ P.world.mainQueue, job.data.orderId = orderId ∧ job.data.idempotencyKey = key
  stored : Acknowledged P orderId → ∃ row, P.world.db.findByKey? key = some row ∧ row.id = orderId

/-! ## The runs, and the condition -/

/-- The payload a call adds to the main queue. -/
def Op.job? : Op → Option OrderJobPayload
  | .mainQueueAdd data => some data
  | _ => none

/-- Workers are handed jobs of the queue, and a new order's id is not that of an earlier job.  Both
are up to the runtime: BullMQ's delivery and `uuidv4()`. -/
def HandsOutJobs (ℓ : OrderLabel) (P : OrderPool) : Prop :=
  match ℓ with
  | .spawn _ (.process payload _) => ∃ job ∈ P.world.mainQueue, job.data = payload
  | .act i c => ∀ o ∈ (Label.act i c : OrderLabel).call? P, ∀ data ∈ o.job?,
      JobId.order data.orderId ∉ P.world.mainQueue.map Job.id
  | _ => True

instance (ℓ : OrderLabel) (P : OrderPool) : Decidable (HandsOutJobs ℓ P) :=
  match ℓ with
  | .spawn _ (.process payload _) =>
      inferInstanceAs (Decidable (∃ job ∈ P.world.mainQueue, job.data = payload))
  | .act i c => inferInstanceAs (Decidable (∀ o ∈ (Label.act i c : OrderLabel).call? P,
      ∀ data ∈ o.job?, JobId.order data.orderId ∉ P.world.mainQueue.map Job.id))
  | .spawn _ (.createOrder ..) => .isTrue trivial
  | .spawn _ (.handleFailure ..) => .isTrue trivial
  | .spawn _ (.redriveOrder ..) => .isTrue trivial
  | .spawn _ (.updateStatus ..) => .isTrue trivial
  | .spawn _ (.updateOrderStatus ..) => .isTrue trivial
  | .env _ => .isTrue trivial

/-- API requests and worker jobs, of which nothing fails. -/
def Undisturbed (ℓ : OrderLabel) (P : OrderPool) : Prop :=
  HandsOutJobs ℓ P ∧
    match ℓ with
    | .spawn _ (.createOrder _ _) => True
    | .spawn _ (.process _ _) => True
    | .spawn _ _ => False
    | .act _ c => c.fault = .none
    | .env _ => True

instance (ℓ : OrderLabel) (P : OrderPool) : Decidable (Undisturbed ℓ P) :=
  @instDecidableAnd _ _ inferInstance <|
    match ℓ with
    | .spawn _ (.createOrder _ _) => .isTrue trivial
    | .spawn _ (.process _ _) => .isTrue trivial
    | .spawn _ (.handleFailure ..) => .isFalse id
    | .spawn _ (.redriveOrder ..) => .isFalse id
    | .spawn _ (.updateStatus ..) => .isFalse id
    | .spawn _ (.updateOrderStatus ..) => .isFalse id
    | .act _ c => inferInstanceAs (Decidable (c.fault = .none))
    | .env _ => .isTrue trivial

/-- The two keys are one to the `VARCHAR` column, which has its own idea of trailing blanks beyond
its length. -/
def SameColumn (key key' : String) : Prop :=
  match varcharColumn key, varcharColumn key' with
  | .ok stored, .ok stored' => stored = stored'
  | _, _ => False

instance (key key' : String) : Decidable (SameColumn key key') := by
  unfold SameColumn
  split <;> infer_instance

/-- A job that this step publishes is the first one of its key.  This is what an expired Redis key
no longer ensures. -/
def FirstOfItsKey (ℓ : OrderLabel) (P : OrderPool) : Prop :=
  ∀ o ∈ ℓ.call? P, ∀ data ∈ o.job?, ∀ job ∈ P.world.mainQueue,
    ¬ SameColumn job.data.idempotencyKey data.idempotencyKey

instance (ℓ : OrderLabel) (P : OrderPool) : Decidable (FirstOfItsKey ℓ P) :=
  inferInstanceAs (Decidable (∀ o ∈ ℓ.call? P, _))

/-- The steps of runs in which the two levels agree.  Workers take up jobs of the queue, and a job
that is published is the first of its key. -/
def DedupSafe (ℓ : OrderLabel) (P : OrderPool) : Prop :=
  HandsOutJobs ℓ P ∧ FirstOfItsKey ℓ P

instance (ℓ : OrderLabel) (P : OrderPool) : Decidable (DedupSafe ℓ P) :=
  inferInstanceAs (Decidable (_ ∧ _))

theorem sameColumn_iff {key key' : String} :
    SameColumn key key' ↔ ∃ stored, varcharColumn key = .ok stored ∧ varcharColumn key' = .ok stored := by
  unfold SameColumn
  split
  · rename_i stored stored' hkey hkey'
    constructor
    · rintro rfl
      exact ⟨stored, hkey, hkey'⟩
    · rintro ⟨s, hs, hs'⟩
      simp_all
  · rename_i hnot
    refine iff_of_false id ?_
    rintro ⟨s, hs, hs'⟩
    exact hnot s s hs hs'

/-! ## The jobs of the queue -/

/-- Two jobs for rows of their own: the column keeps their keys apart. -/
def Apart (job job' : Job) : Prop :=
  ¬ SameColumn job.data.idempotencyKey job'.data.idempotencyKey

instance : Std.Symm Apart where
  symm := by
    intro job job' hapart hsame
    obtain ⟨stored, hkey, hkey'⟩ := sameColumn_iff.mp hsame
    exact hapart (sameColumn_iff.mpr ⟨stored, hkey', hkey⟩)

/-- What holds of the queue in these runs. -/
structure JobsDistinct (queue : List Job) : Prop where
  named : ∀ job ∈ queue, job.id = .order job.data.orderId
  ids : (queue.map Job.id).Nodup
  keys : queue.Pairwise Apart

namespace JobsDistinct

variable {queue : List Job} {job job' : Job}

/-- A job with a new id and a new key may be added. -/
theorem append (h : JobsDistinct queue) {data : OrderJobPayload}
    (hid : JobId.order data.orderId ∉ queue.map Job.id)
    (hkey : ∀ job ∈ queue, ¬ SameColumn job.data.idempotencyKey data.idempotencyKey) :
    JobsDistinct (queue ++ [⟨.order data.orderId, data⟩]) where
  named := by
    intro job hjob
    rcases List.mem_append.mp hjob with hold | hnew
    · exact h.named job hold
    · rw [List.mem_singleton.mp hnew]
  ids := by
    rw [List.map_append, List.map_singleton]
    exact h.ids.append (List.nodup_singleton _) (by simpa using hid)
  keys := by
    rw [List.pairwise_append]
    refine ⟨h.keys, List.pairwise_singleton _ _, ?_⟩
    intro job hjob job' hjob'
    rw [List.mem_singleton.mp hjob']
    exact hkey job hjob

theorem eq_of_orderId (h : JobsDistinct queue) (hjob : job ∈ queue) (hjob' : job' ∈ queue)
    (hid : job.data.orderId = job'.data.orderId) : job = job' := by
  refine List.inj_on_of_nodup_map h.ids hjob hjob' ?_
  rw [h.named job hjob, h.named job' hjob', hid]

theorem eq_of_key (h : JobsDistinct queue) (hjob : job ∈ queue) (hjob' : job' ∈ queue)
    (hkey : SameColumn job.data.idempotencyKey job'.data.idempotencyKey) : job = job' := by
  by_contra hne
  exact h.keys.forall hjob hjob' hne hkey

end JobsDistinct

/-- The job of an order, under its key.  This is what both levels are compared by. -/
def HasJob (P : OrderPool) (orderId : Uuid) (key : String) : Prop :=
  ∃ job ∈ P.world.mainQueue, job.data.orderId = orderId ∧ job.data.idempotencyKey = key

section Runs

variable {config : AppConfig} {P P' : OrderPool} {ℓ : OrderLabel} {orderId : Uuid} {key : String}

theorem HasJob.step (h : HasJob P orderId key) (hstep : (orderSystem config).step ℓ P = some P') :
    HasJob P' orderId key := by
  obtain ⟨job, hmem, hjob⟩ := h
  exact ⟨job, orderSystem_step_mem_mainQueue hstep hmem, hjob⟩

variable {db : Database}

/-- The pools of these runs. -/
abbrev DedupPool (config : AppConfig) (db : Database) (P : OrderPool) : Prop :=
  (orderSystem config).Reaches DedupSafe (Pool.init (World.init db)) P

theorem jobsDistinct_of_reaches (h : DedupPool config db P) : JobsDistinct P.world.mainQueue := by
  refine System.Reaches.invariant (I := fun P => JobsDistinct P.world.mainQueue) ?_ ?_ h
  · exact ⟨fun job hjob => absurd hjob List.not_mem_nil, List.nodup_nil, List.Pairwise.nil⟩
  · intro P ℓ P' _ hjobs hok hstep
    obtain hsame | ⟨data, hcall, hfresh, hadded⟩ := orderSystem_step_mainQueue hstep
    · rwa [hsame]
    · rw [hadded]
      exact hjobs.append hfresh (hok.2 _ hcall data rfl)

/-- An execution works on a job of the queue. -/
theorem execution_of_reaches (h : DedupPool config db P) :
    ∀ i t payload jobMeta, P.threads i = some t → t.request = .process payload jobMeta →
      ∃ job ∈ P.world.mainQueue, job.data = payload := by
  refine System.Reaches.invariant
    (I := fun P => ∀ i t payload jobMeta, P.threads i = some t →
      t.request = .process payload jobMeta → ∃ job ∈ P.world.mainQueue, job.data = payload)
    (fun i t payload jobMeta ht => by cases ht) ?_ h
  intro P ℓ P' _ hI hok hstep i u payload jobMeta hu hreq
  have hkeep : (∃ job ∈ P.world.mainQueue, job.data = payload) →
      ∃ job ∈ P'.world.mainQueue, job.data = payload := by
    rintro ⟨job, hmem, hdata⟩
    exact ⟨job, orderSystem_step_mem_mainQueue hstep hmem, hdata⟩
  obtain hold | ⟨q, rfl, rfl⟩ | ⟨c, t, o, k, rfl, ht, -, -, rfl⟩ :=
    (orderSystem config).step_threads hstep hu
  · exact hkeep (hI i u payload jobMeta hold hreq)
  · obtain rfl : q = .process payload jobMeta := hreq
    exact hkeep hok.1
  · exact hkeep (hI i t payload jobMeta ht hreq)

/-- **Rows come from the queue.** Only an execution inserts one, and it works on a job of the queue:
so the row's key is that of a job with its id. -/
theorem row_of_reaches (hempty : ∀ id, db.orders.find? id = none) (h : DedupPool config db P)
    {row : OrderRow} (hrow : P.world.db.orders.find? orderId = some row) :
    ∃ job ∈ P.world.mainQueue, job.data.orderId = orderId ∧
      varcharColumn job.data.idempotencyKey = .ok row.idempotencyKey := by
  refine System.Reaches.invariant
    (I := fun P => ∀ id row, P.world.db.orders.find? id = some row →
      ∃ job ∈ P.world.mainQueue, job.data.orderId = id ∧
        varcharColumn job.data.idempotencyKey = .ok row.idempotencyKey) ?_ ?_ h orderId row hrow
  · intro id row hrow
    rw [show (Pool.init (World.init db) : OrderPool).world.db.orders.find? id = none from
      hempty id] at hrow
    cases hrow
  · intro P ℓ P' hreach hI hok hstep id row hrow
    cases hold : P.world.db.orders.find? id with
    | some row₀ =>
        -- the row was there, and has kept its key
        obtain ⟨job, hmem, hid, hkey⟩ := hI id row₀ hold
        obtain ⟨row', hrow', hkey', -⟩ := (orderSystem_step_change hstep id).persists hold
        rw [hrow] at hrow'
        cases hrow'
        exact ⟨job, orderSystem_step_mem_mainQueue hstep hmem, hid, hkey.trans (congrArg _ hkey'.symm)⟩
    | none =>
        obtain ⟨i, q, rfl, -, rfl⟩ | ⟨i, c, t, o, k, rfl, ht, hrest, rfl⟩ | ⟨e, w, rfl, hw, rfl⟩ :=
          (orderSystem config).step_cases hstep
        · rw [hold] at hrow
          cases hrow
        · obtain ⟨p, rfl, rfl, hkey⟩ := Op.exec_inserts hold hrow
          obtain ⟨payload, jobMeta, hreq, rfl⟩ : ∃ payload jobMeta,
              t.request = .process payload jobMeta ∧ p = createParams payload jobMeta := by
            have hallows := allows_of_reaches (fun _ => rfl) hreach ht hrest
            cases hreq : t.request with
            | process payload jobMeta =>
                rw [hreq] at hallows
                exact ⟨payload, jobMeta, rfl, hallows⟩
            | _ =>
                rw [hreq] at hallows
                cases hallows
          obtain ⟨job, hmem, rfl⟩ := execution_of_reaches hreach i t payload jobMeta ht hreq
          exact ⟨job, orderSystem_step_mem_mainQueue hstep hmem, rfl, hkey⟩
        · cases hw
          rw [Expiry.apply_db, hold] at hrow
          cases hrow

/-! ## The results of the API -/

/-- Published jobs are on the queue. -/
theorem published_of_reaches (h : DedupPool config db P) {i : ℕ} {t : OrderThread}
    (ht : P.threads i = some t) {data : OrderJobPayload}
    (hmem : (⟨.mainQueueAdd data, .ok ()⟩ : OrderEvent) ∈ t.hist) :
    HasJob P data.orderId data.idempotencyKey := by
  refine System.facts_of_reaches
    (fun e w => ∀ data, e = (⟨.mainQueueAdd data, .ok ()⟩ : OrderEvent) →
      ∃ job ∈ w.mainQueue, job.data.orderId = data.orderId ∧
        job.data.idempotencyKey = data.idempotencyKey) (fun _ => rfl) ?_ ?_ h i t ht _ hmem data rfl
  · intro P i c t o k _ hok ht hrest data he
    obtain ⟨rfl, hanswer⟩ := Event.mk.inj he
    have hfresh := hok.1 _ (Label.call?_act ht hrest c) data rfl
    have hexec : Op.exec (.mainQueueAdd data) c P.world = Op.effect (.mainQueueAdd data) c P.world :=
      Op.exec_eq_effect_of_ok (eq_of_heq hanswer)
    show ∃ job ∈ (Op.exec (.mainQueueAdd data) c P.world).2.mainQueue, _
    rw [hexec]
    show ∃ job ∈ (P.world.mainQueueAdd data).mainQueue, _
    rw [World.mainQueueAdd_of_not_mem hfresh]
    exact ⟨_, List.mem_append_right _ (List.mem_singleton_self _), rfl, rfl⟩
  · intro P ℓ P' e _ _ hstep hold data he
    obtain ⟨job, hjob, hdata⟩ := hold data he
    exact ⟨job, orderSystem_step_mem_mainQueue hstep hjob, hdata⟩

/-- The calls of `execute` go through their stages in these runs too. -/
theorem respects_creations : (creations False).Respects (orderSystem config) DedupSafe
    (Pool.init (World.init db)) where
  admits := fun _ _ _ _ => trivial
  allows := fun _ _ _ _ _ _ _ _ _ _ hfalse => hfalse.elim

/-- A call that has a job has published its own. -/
theorem job_of_hasJob (h : DedupPool config db P) {i : ℕ} {t : OrderThread}
    (ht : P.threads i = some t) {cmd : CreateOrderCommand} {ctx : ApiContext}
    (hreq : t.request = .createOrder cmd ctx) (hjob : (creationStage t.hist).HasJob) :
    HasJob P ctx.orderId cmd.idempotencyKey := by
  obtain ⟨data, hmem⟩ := published_of_hasJob hjob
  obtain ⟨-, hcalls⟩ := System.onlyCalls_of_reaches (Request.onlyCalls config) (fun _ => rfl) h i t ht
  have hcall := hcalls _ hmem
  rw [hreq] at hcall
  obtain ⟨amount, items, rfl⟩ := hcall
  exact published_of_reaches h ht hmem

/-- The job of every stored response is on the queue. -/
theorem cached_hasJob_of_reaches (h : DedupPool config db P) {r : CreateOrderResult}
    (hr : P.world.idempotency (IdempotencyService.responseKey key) = some (.response r)) :
    HasJob P r.orderId key := by
  -- by induction on the run; the job of a stored response stays on the queue
  refine System.Reaches.invariant
    (I := fun P => ∀ key r,
      P.world.idempotency (IdempotencyService.responseKey key) = some (.response r) →
        HasJob P r.orderId key) (fun key r hr => by cases hr) ?_ h key r hr
  intro P ℓ P' hreach hI hok hstep key r hr
  obtain ⟨i, q, rfl, -, rfl⟩ | ⟨i, c, t, o, k, rfl, ht, hrest, rfl⟩ | ⟨e, w, rfl, hw, rfl⟩ :=
    (orderSystem config).step_cases hstep
  · exact hI key r hr
  · -- the value was there, or it is the response of a call that has published
    have horigin : P.world.idempotency (IdempotencyService.responseKey key) = some (.response r) ∨
        o = .idempotencySet (IdempotencyService.responseKey key) r := by
      refine Op.exec_invariant (I := fun w =>
        w.idempotency (IdempotencyService.responseKey key) = some (.response r) →
          P.world.idempotency (IdempotencyService.responseKey key) = some (.response r) ∨
            o = .idempotencySet (IdempotencyService.responseKey key) r) .inl ?_ hr
      intro hvalue
      obtain ⟨k', id, rfl, -, heffect⟩ | ⟨k', r', rfl, heffect⟩ | ⟨k', rfl, heffect⟩ | heffect :=
        o.effect_idempotency c P.world
      · rw [heffect, Function.update_apply] at hvalue
        split at hvalue
        · cases hvalue
        · exact .inl hvalue
      · rw [heffect, Function.update_apply] at hvalue
        split at hvalue
        · rename_i hkey
          cases hvalue
          exact .inr (by rw [hkey])
        · exact .inl hvalue
      · rw [heffect, Function.update_apply] at hvalue
        split at hvalue
        · cases hvalue
        · exact .inl hvalue
      · rw [heffect] at hvalue
        exact .inl hvalue
    obtain hold | rfl := horigin
    · exact (hI key r hold).step hstep
    · have hallows := allows_of_reaches (fun _ => rfl) hreach ht hrest
      cases hreq : t.request with
      | createOrder cmd ctx =>
          rw [hreq] at hallows
          obtain ⟨hkey, rfl⟩ := hallows
          obtain ⟨-, hfollows⟩ := Protocol.follows_of_reaches respects_creations
            (fun q _ => follows_creations False config q) (fun _ => rfl) hreach i t ht
          rw [hreq, hrest] at hfollows
          have hstage : creationStage t.hist = .published := hfollows.1
          obtain rfl := IdempotencyService.responseKey_injective hkey
          exact (job_of_hasJob hreach ht hreq (.inl hstage)).step hstep
      | _ =>
          rw [hreq] at hallows
          cases hallows
  · -- a key that expires takes its response with it
    cases hw
    cases e with
    | idempotency k =>
        have hvalue : Function.update P.world.idempotency k none
            (IdempotencyService.responseKey key) = some (.response r) := hr
        rw [Function.update_apply] at hvalue
        split at hvalue
        · cases hvalue
        · exact hI key r hvalue
    | lock orderId => exact hI key r hr
    | menuCache key' => exact hI key r hr

/-- The job of every response that was read is on the queue, as that of a stored one is. -/
theorem read_hasJob_of_reaches (h : DedupPool config db P) {i : ℕ} {t : OrderThread}
    (ht : P.threads i = some t) {r : CreateOrderResult}
    (hread : (⟨.idempotencyGet (IdempotencyService.responseKey key), .ok (some (.response r))⟩ :
      OrderEvent) ∈ t.hist) : HasJob P r.orderId key := by
  refine System.facts_of_reaches
    (fun e w => ∀ r, e = (⟨.idempotencyGet (IdempotencyService.responseKey key),
      .ok (some (.response r))⟩ : OrderEvent) →
        ∃ job ∈ w.mainQueue, job.data.orderId = r.orderId ∧ job.data.idempotencyKey = key)
    (fun _ => rfl) ?_ ?_ h i t ht _ hread r rfl
  · intro P i c t o k hreach _ ht hrest r he
    obtain ⟨rfl, hanswer⟩ := Event.mk.inj he
    obtain ⟨hsame, hvalue⟩ := Op.exec_idempotencyGet_eq_ok (eq_of_heq hanswer)
    show ∃ job ∈ (Op.exec _ c P.world).2.mainQueue, _
    rw [hsame]
    exact cached_hasJob_of_reaches hreach hvalue
  · intro P ℓ P' e _ _ hstep hold r he
    obtain ⟨job, hjob, hdata⟩ := hold r he
    exact ⟨job, orderSystem_step_mem_mainQueue hstep hjob, hdata⟩

/-- **The job of every accepted request is on the queue.** A result is a call's own, and then it has
published; or it was read in Redis, where only a call that has published has put it. -/
theorem accepted_hasJob (h : DedupPool config db P) {i : ℕ} {r : CreateOrderResult}
    (haccepted : Accepted P i key r) : HasJob P r.orderId key := by
  obtain ⟨t, cmd, ctx, ht, hreq, rfl, hr⟩ := haccepted
  have hreturns := Protocol.returns_of_reaches respects_creations
    (fun q _ => follows_creations False config q) (fun _ => rfl) h ht hr
  rw [hreq] at hreturns
  obtain ⟨_, hresult, ⟨hdone, rfl⟩ | ⟨-, cached, rfl, hread⟩⟩ := hreturns
  · cases hresult
    exact job_of_hasJob h ht hreq (.inr hdone)
  · cases hresult
    have hjob : HasJob P cached.orderId cmd.idempotencyKey := read_hasJob_of_reaches h ht hread
    exact hjob

/-- **The two levels agree.**  In every run from an empty table, with any requests, lost
calls, crashes and expiring keys, in which a job is only published for a key that no earlier
job stores: whoever was accepted with an order id finds the row of the key with that id, once
the job is acknowledged. -/
theorem deduplicated_of_firstOfItsKey (hempty : ∀ id, db.orders.find? id = none)
    (h : DedupPool config db P) {i : ℕ} {r : CreateOrderResult} (haccepted : Accepted P i key r) :
    Deduplicated P key r.orderId := by
  have hdistinct := jobsDistinct_of_reaches h
  have hjob := accepted_hasJob h haccepted
  refine ⟨hjob, ?_⟩
  rintro ⟨j, payload, jobMeta, hexec, hpayload⟩
  obtain ⟨job, hmem, hid, hkey⟩ := hjob
  obtain ⟨u, hu, hreq, hphase⟩ := executionOf_eq_some.mp hexec
  -- the acknowledged job is the one that was published
  obtain ⟨job', hmem', hdata⟩ := execution_of_reaches h j u payload jobMeta hu hreq
  have hsame : job' = job := hdistinct.eq_of_orderId hmem' hmem (by rw [hdata, hpayload, hid])
  subst hsame
  obtain ⟨a, ha⟩ := Thread.phase_eq_returned hphase
  have hfinished := Protocol.returns_of_reaches (respects_executions (fun _ => rfl))
    (fun q _ => follows_executions config q) (fun _ => rfl) h hu ha payload jobMeta hreq
  obtain ⟨inserted, hinsert⟩ : ∃ inserted, insertAnswered payload jobMeta inserted ∈ u.hist := by
    rcases hfinished with hdup | ⟨hins, -⟩
    · exact ⟨false, hdup⟩
    · exact ⟨true, hins⟩
  obtain ⟨row, hrow, -⟩ := keyTaken_of_reaches (fun _ => rfl) h hu hinsert
  have hrowkey : P.world.db.findByKey? key = some row := by
    rw [← hkey, hdata]
    exact hrow
  -- and the row of the key came from that job too
  obtain ⟨hstored, hfind⟩ := Database.findByKey?_eq_some_iff.mp hrowkey
  obtain ⟨origin, horigin, horiginId, horiginKey⟩ := row_of_reaches hempty h hfind
  have hsame : origin = job' := by
    refine hdistinct.eq_of_key horigin hmem (sameColumn_iff.mpr ⟨_, horiginKey, ?_⟩)
    rw [hkey]
    exact hstored
  subst hsame
  exact ⟨row, hrowkey, horiginId.symm.trans hid⟩

end Runs

/-- A request that is accepted and processed. -/
def acceptedRun : List OrderLabel :=
  .spawn 0 (.createOrder seedCommand seedContext) ::
    (List.range 7).map (fun n => .act 0 (.undisturbed n)) ++
    .spawn 1 (.process seedPayload (seedJob 0)) ::
      (List.range 12).map (fun n => .act 1 (.undisturbed (10 + n)))

theorem acceptedRun_replays :
    ((orderSystem seedConfig).replay acceptedRun (Pool.init (World.init .seed))).isSome = true := by
  decide +kernel

/-- The pool once the order is accepted. -/
def acceptedPool : OrderPool :=
  (orderSystem seedConfig).after acceptedRun (Pool.init (World.init .seed)) acceptedRun_replays

theorem deduplicated_accepted : Deduplicated acceptedPool "key-7" ⟨7⟩ := by
  have hadmitted : (orderSystem seedConfig).Admitted DedupSafe acceptedRun
      (Pool.init (World.init .seed)) := .of_check (by decide +kernel)
  have hby : acceptedBy acceptedPool 0 = some ("key-7", ⟨⟨7⟩, "trace-7", false⟩) := by decide +kernel
  exact deduplicated_of_firstOfItsKey (fun _ => rfl) (.after hadmitted acceptedRun_replays)
    (accepted_of_acceptedBy hby)

/-- The same request again, once the key has expired: it is accepted as a new order,
whose job is acknowledged as a duplicate. -/
def expiredKeyRun : List OrderLabel :=
  acceptedRun ++
    [.env (.idempotency (IdempotencyService.pendingKey "key-7")),
      .spawn 2 (.createOrder seedCommand { seedContext with orderId := ⟨70⟩ })] ++
    (List.range 5).map (fun n => .act 2 (.undisturbed (90000000 + n))) ++
    .spawn 3 (.process { seedPayload with orderId := ⟨70⟩ } ⟨.order ⟨70⟩, "worker-a-1", 0⟩) ::
      (List.range 3).map (fun n => .act 3 (.undisturbed (90000010 + n)))

theorem expiredKeyRun_replays :
    ((orderSystem seedConfig).replay expiredKeyRun (Pool.init (World.init .seed))).isSome = true := by
  decide +kernel

/-- The pool once its key has expired and the order is accepted again. -/
def expiredKeyPool : OrderPool :=
  (orderSystem seedConfig).after expiredKeyRun (Pool.init (World.init .seed)) expiredKeyRun_replays

/-- **An expired key loses the order**: the client was handed the id of an order that
will never exist. -/
theorem not_deduplicated_of_expiredKey :
    ¬ ∀ (config : AppConfig) (db : Database) (P : OrderPool) (i : ℕ) (key : String)
      (r : CreateOrderResult), (∀ id, db.orders.find? id = none) →
      (orderSystem config).Reaches Undisturbed (Pool.init (World.init db)) P →
      Accepted P i key r → Deduplicated P key r.orderId := by
  intro h
  have hadmitted : (orderSystem seedConfig).Admitted Undisturbed expiredKeyRun
      (Pool.init (World.init .seed)) := .of_check (by decide +kernel)
  have hby : acceptedBy expiredKeyPool 2 = some ("key-7", ⟨⟨70⟩, "trace-7", false⟩) := by
    decide +kernel
  have hexec : executionOf expiredKeyPool 3 =
      some ({ seedPayload with orderId := ⟨70⟩ }, ⟨.order ⟨70⟩, "worker-a-1", 0⟩, .returned) := by
    decide +kernel
  have hrow : (expiredKeyPool.world.db.findByKey? "key-7").map OrderRow.id = some ⟨7⟩ := by
    decide +kernel
  have hdedup := h seedConfig .seed expiredKeyPool 2 "key-7" _ (fun _ => rfl)
    (.after hadmitted expiredKeyRun_replays) (accepted_of_acceptedBy hby)
  obtain ⟨row, hfind, hid⟩ := hdedup.stored ⟨3, _, _, hexec, rfl⟩
  rw [hfind, Option.map_some, hid] at hrow
  exact absurd hrow (by decide)

end ChickenOrder
