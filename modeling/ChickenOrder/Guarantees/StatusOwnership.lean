import ChickenOrder.Services.Calls

/-!
# Who may write which status

The source's comment says the transition map cannot be bypassed: `CANCELLED` and
`DONE` are final, the worker's statuses belong to the worker, its failure handler
and the re-drive, and only a re-drive leaves `FAILED`.  `StatusOwnership` says
this of one step of the system.

The repository's transitions keep to it in every run.  The two `PATCH` handlers
write the status without asking the state machine, so a step that makes their
call keeps to it only if the order and the text happen to be harmless;
`PatchRespects` is that condition, on the state before the step.

Every writer of the column is one of the cases of `ChickenOrder.Database.Changes`, and which
request makes which call is in `ChickenOrder.Services.Calls`.  The proof is by those cases: a
transition keeps to the map, an insertion meets no row, and a `PATCH` is harmless by the
condition.
-/

namespace ChickenOrder

open Interaction

/-- The requests that may write the worker's statuses: executions, failure handlers, and re-drives.
The API creates no row, and the `PATCH` handlers are the point of sale's. -/
def Request.OwnsWorkerStatuses : Request → Prop
  | .process _ _ => True
  | .handleFailure _ _ _ => True
  | .redriveOrder _ _ => True
  | _ => False

/-- The thread that makes its next call at the step `ℓ` runs a request `q`. -/
def StepOf (ℓ : OrderLabel) (P : OrderPool) (q : Request) : Prop :=
  ∃ i c t, ℓ = .act i c ∧ P.threads i = some t ∧ t.request = q

/-- The step keeps the order statuses to their owners: a closed order stays closed, only a re-drive
leaves `FAILED`, and a worker's status is written by a request that owns it. -/
structure StatusOwnership (ℓ : OrderLabel) (P P' : OrderPool) : Prop where
  /-- An order in `CANCELLED` or `DONE` keeps its status. -/
  closed : ∀ id row, P.world.db.orders.find? id = some row → row.status.Closed →
    ∃ row', P'.world.db.orders.find? id = some row' ∧ row'.status = row.status
  /-- A row is written with a worker's status only by the status' owners. -/
  owned : ∀ id row' s, P'.world.db.orders.find? id = some row' → row'.status = .worker s →
    P.world.db.orders.find? id ≠ some row' → ∃ q, StepOf ℓ P q ∧ q.OwnsWorkerStatuses
  /-- An order leaves `FAILED` only by the re-drive. -/
  failed : ∀ id row, P.world.db.orders.find? id = some row → row.status = .worker .failed →
    ∃ row', P'.world.db.orders.find? id = some row' ∧
      (row'.status = .worker .failed ∨ ∃ orderId ctx, StepOf ℓ P (.redriveOrder orderId ctx))

/-- Writing `new` over the row keeps to the owners of both statuses: `new` is a
status of the point of sale, the order is not `FAILED`, and if it is `CANCELLED`
or `DONE` it stays so. -/
def Harmless (row : OrderRow) (new : RowStatus) : Prop :=
  new.IsPos ∧ (row.status.Closed → new = row.status) ∧ row.status ≠ .worker .failed

instance (row : OrderRow) (new : RowStatus) : Decidable (Harmless row new) :=
  inferInstanceAs (Decidable (_ ∧ _))

/-- If the step is a `PATCH` statement that finds a row, what it writes is harmless.  It is a
condition on the order and the text, before the step. -/
def PatchRespects (ℓ : OrderLabel) (P : OrderPool) : Prop :=
  ∀ o ∈ ℓ.call? P, ∀ target ∈ o.patchTarget? P.world.db, Harmless target.1 target.2

instance (ℓ : OrderLabel) (P : OrderPool) : Decidable (PatchRespects ℓ P) :=
  inferInstanceAs (Decidable (∀ o ∈ ℓ.call? P, _))

section Runs

variable {config : AppConfig} {ok : OrderLabel → OrderPool → Prop} {P₀ P P' : OrderPool}
variable {ℓ : OrderLabel}

/-- Neither the transition map nor a harmless `PATCH` takes an order out of
`CANCELLED`, `DONE` or `FAILED`. -/
theorem final_status_kept (hpatch : PatchRespects ℓ P)
    (hstep : (orderSystem config).step ℓ P = some P') {id : Uuid} {row : OrderRow}
    (hrow : P.world.db.orders.find? id = some row)
    (hfinal : row.status.Closed ∨ row.status = .worker .failed) :
    ∃ row', P'.world.db.orders.find? id = some row' ∧ row'.status = row.status := by
  have hchange := orderSystem_step_change hstep id
  obtain ⟨row', hrow', -⟩ := hchange.persists hrow
  refine ⟨row', hrow', ?_⟩
  obtain hsame | ⟨s, next, hs, hnext, -⟩ | ⟨o, hperforms, hwrites⟩ := hchange.status_cases hrow hrow'
  · exact hsame
  · -- no transition of the map starts in a final status
    rw [hs] at hfinal
    rcases hfinal with (hdone | hcancelled) | hfailed
    · cases hdone
    · cases hcancelled
    · cases hfailed
      cases hnext
  · obtain ⟨-, hclosed, hnotFailed⟩ := hpatch o hperforms _ (hwrites.patchTarget? hrow)
    rcases hfinal with hfinal | hfailed
    · exact hclosed hfinal
    · exact absurd hfailed hnotFailed

/-- A call of a request that does not own the worker's statuses never writes one,
except through the `PATCH` statement. -/
theorem row_of_unowned {o : Op} {q : Request} {c : Choice} {w : World}
    (howns : ¬ q.OwnsWorkerStatuses) (hallows : q.allows o) {id : Uuid} {row' : OrderRow}
    (hrow' : (o.exec c w).2.db.orders.find? id = some row') :
    w.db.orders.find? id = some row' ∨
      ∃ row, w.db.orders.find? id = some row ∧ o.WritesStatus id row'.status := by
  revert hrow'
  refine Op.exec_invariant (I := fun w' => w'.db.orders.find? id = some row' → _) Or.inl ?_
  intro hrow'
  obtain ⟨r, rfl, -⟩ | ⟨k, new, hwrites, hpatched⟩ | hdb := o.effect_db c w
  · -- the repository is used by owners only
    cases q with
    | process payload jobMeta => exact absurd trivial howns
    | handleFailure payload error jobMeta => exact absurd trivial howns
    | redriveOrder orderId ctx => exact absurd trivial howns
    | createOrder cmd ctx => cases hallows
    | updateStatus orderId status => cases hallows
    | updateOrderStatus orderId body => cases hallows
  · obtain hsame | ⟨rfl, row, hrow, hpatch⟩ := hpatched.find? id
    · exact .inl (hsame.symm.trans hrow')
    · rw [hpatch] at hrow'
      cases hrow'
      exact .inr ⟨row, hrow, hwrites⟩
  · rw [hdb] at hrow'
    exact .inl hrow'

/-- **The state machine is kept to, but for the `PATCH` handlers.**  In every run,
from any world and with any requests, whose `PATCH` steps meet `PatchRespects`,
every step that meets it leaves the statuses to their owners. -/
theorem statusOwnership_of_patchRespects {w : World}
    (h : (orderSystem config).Reaches PatchRespects (Pool.init w) P) (hpatch : PatchRespects ℓ P)
    (hstep : (orderSystem config).step ℓ P = some P') : StatusOwnership ℓ P P' := by
  refine ⟨?_, ?_, ?_⟩
  · intro id row hrow hclosed
    exact final_status_kept hpatch hstep hrow (.inl hclosed)
  · intro id row' s hrow' hs hnew
    obtain ⟨i, q, rfl, -, rfl⟩ | ⟨i, c, t, o, k, rfl, ht, hrest, rfl⟩ | ⟨e, w', rfl, hw, rfl⟩ :=
      (orderSystem config).step_cases hstep
    · exact absurd hrow' hnew
    · by_cases howns : t.request.OwnsWorkerStatuses
      · exact ⟨t.request, ⟨i, c, t, rfl, ht, rfl⟩, howns⟩
      · have hallows := allows_of_reaches (fun _ => rfl) h ht hrest
        obtain hold | ⟨row, hrow, hwrites⟩ := row_of_unowned howns hallows hrow'
        · exact absurd hold hnew
        · have hpos := (hpatch o (Label.call?_act ht hrest c) _ (hwrites.patchTarget? hrow)).1
          rw [hs] at hpos
          exact hpos.elim
    · cases hw
      have hrow₀ : (e.apply P.world).db.orders.find? id = some row' := hrow'
      rw [Expiry.apply_db] at hrow₀
      exact absurd hrow₀ hnew
  · intro id row hrow hfailed
    obtain ⟨row', hrow', hstatus⟩ := final_status_kept hpatch hstep hrow (.inr hfailed)
    exact ⟨row', hrow', .inl (hstatus.trans hfailed)⟩

end Runs

/-! ### The handlers on a stored order -/

/-- A worker has stored the order, and the point of sale asks for `ACCEPTED`. -/
def acceptRun : List OrderLabel :=
  [.spawn 0 (.process seedPayload (seedJob 0)), .act 0 (.undisturbed 1), .act 0 (.undisturbed 2),
    .spawn 1 (.updateStatus seedOrderId .accepted)]

theorem acceptRun_replays :
    ((orderSystem seedConfig).replay acceptRun (Pool.init (World.init .seed))).isSome = true := by
  decide +kernel

theorem acceptRun_admitted :
    (orderSystem seedConfig).admitted? PatchRespects acceptRun (Pool.init (World.init .seed)) =
      true := by
  decide +kernel

/-- The pool in which that request is about to write. -/
def acceptPool : OrderPool :=
  (orderSystem seedConfig).after acceptRun (Pool.init (World.init .seed)) acceptRun_replays

theorem acceptPool_steps :
    ((orderSystem seedConfig).replay [.act 1 (.undisturbed 3)] acceptPool).isSome = true := by
  decide +kernel

/-- An order that is on its way may be accepted. -/
theorem statusOwnership_accept :
    StatusOwnership (.act 1 (.undisturbed 3)) acceptPool
      ((orderSystem seedConfig).after [.act 1 (.undisturbed 3)] acceptPool acceptPool_steps) :=
  statusOwnership_of_patchRespects
    (.after (.of_check acceptRun_admitted) acceptRun_replays) (by decide +kernel)
    (System.step_after acceptPool_steps)

/-- A worker has stored the order, the point of sale has cancelled it, and a
compatibility `PATCH` asks for `queued`. -/
def requeueRun : List OrderLabel :=
  [.spawn 0 (.process seedPayload (seedJob 0)), .act 0 (.undisturbed 1), .act 0 (.undisturbed 2),
    .spawn 1 (.updateStatus seedOrderId .cancelled), .act 1 (.undisturbed 3),
    .spawn 2 (.updateOrderStatus seedOrderId (.object [("status", .string "queued")]))]

theorem requeueRun_replays :
    ((orderSystem seedConfig).replay requeueRun (Pool.init (World.init .seed))).isSome = true := by
  decide +kernel

/-- The pool in which that request is about to write. -/
def requeuePool : OrderPool :=
  (orderSystem seedConfig).after requeueRun (Pool.init (World.init .seed)) requeueRun_replays

/-- It can be continued by the second `PATCH`. -/
theorem requeuePool_steps :
    ((orderSystem seedConfig).replay [.act 2 (.undisturbed 4)] requeuePool).isSome = true := by
  decide +kernel

/-- The second `PATCH` takes the order from `CANCELLED` to `QUEUED`, which no arrow of the map does.
-/
theorem requeue_statuses :
    requeuePool.world.db.statusOf ⟨7⟩ = some (.pos .cancelled) ∧
      ((orderSystem seedConfig).after [.act 2 (.undisturbed 4)] requeuePool
        requeuePool_steps).world.db.statusOf ⟨7⟩ = some (.worker .queued) := by
  decide +kernel

/-- **The handlers bypass the state machine**: a `PATCH` takes the cancelled order
back to `QUEUED`. -/
theorem not_statusOwnership_of_patch :
    ¬ ∀ (config : AppConfig) (w : World) (P P' : OrderPool) (ℓ : OrderLabel),
      (orderSystem config).Reaches (fun _ _ => True) (Pool.init w) P →
      (orderSystem config).step ℓ P = some P' → StatusOwnership ℓ P P' := by
  intro h
  have hreach : (orderSystem seedConfig).Reaches (fun _ _ => True) (Pool.init (World.init .seed))
      requeuePool := .after (.of_forall (fun _ _ => trivial) _ _) requeueRun_replays
  have howned := h seedConfig (World.init .seed) requeuePool _ _ hreach
    (System.step_after requeuePool_steps)
  obtain ⟨hbefore, hafter⟩ := requeue_statuses
  obtain ⟨row, hrow, hstatus⟩ := Option.map_eq_some_iff.mp hbefore
  obtain ⟨row', hrow', hkept⟩ := howned.closed ⟨7⟩ row hrow (.inr hstatus)
  obtain ⟨row'', hrow'', hqueued⟩ := Option.map_eq_some_iff.mp hafter
  rw [hrow'] at hrow''
  cases hrow''
  rw [hkept, hstatus] at hqueued
  cases hqueued

end ChickenOrder
