import ChickenOrder.Database.Changes
import ChickenOrder.Guarantees.DeadLetter

/-!
# The re-drive of a failed order

`RedriveWorks` is the recovery path from end to end: the administrator's request
takes the row back to `QUEUED` and publishes a job, and that job completes the
order.  It works for no order.  The state machine has a map of its own for this
transition, but the repository never asks for it, so every request is refused by
the map of the ordinary transitions, in which `FAILED` is final.

The refusal is the same for every order, as the transition is fixed by the source; so a request
for any `FAILED` row, in any world, throws at its second call and changes nothing.

Nothing else stands in the way.  The row is there, the administrator is asked for no version,
and the state machine has the very transition in its second map.
-/

namespace ChickenOrder

open Interaction Interaction.Program

/-- How a request for the order's re-drive ends, and the world after it. -/
def redriveRun (choices : ℕ → Choice) (row : OrderRow) (ctx : AdminService.RedriveContext)
    (w : World) : Except OrderError Unit × World :=
  run Op.exec choices (AdminService.redriveOrder row.id ctx) 0 w

/-- The re-drive of the order works end to end: the request succeeds, the row is back at `QUEUED`
with its move in the audit trail, and a job is published that completes the order. -/
structure RedriveWorks (choices : ℕ → Choice) (row : OrderRow) (ctx : AdminService.RedriveContext)
    (w : World) : Prop where
  succeeds : (redriveRun choices row ctx w).1 = .ok ()
  requeued : ∃ row', (redriveRun choices row ctx w).2.db.orders.find? row.id = some row' ∧
    row'.status = .worker .queued ∧ row'.version = row.version + 1
  audited : (redriveRun choices row ctx w).2.db.trail row.id =
    w.db.trail row.id ++ [(some (.worker .failed), .worker .queued)]
  /-- A job is published whose processing, if no step fails, completes the order. -/
  published : ∃ job ∈ (redriveRun choices row ctx w).2.mainQueue, job ∉ w.mainQueue ∧
    ∀ choices' jobMeta, Quiet choices' →
      (run Op.exec choices' (ProcessOrderService.process job.data jobMeta) 0
        (redriveRun choices row ctx w).2).2.db.statusOf row.id = some (.worker .completed)

/-- The transition the re-drive asks for is not in the map the repository checks.  The map that has
it is only consulted with a flag that the repository never sets. -/
theorem redriveTransition_refused (db : Database) (order : OrderEntity) (now : Time) :
    db.transitionStatus (AdminService.redriveTransition order) now =
      .error (.invalidStateTransition "FAILED" "QUEUED" []) := rfl

/-- The request for a `FAILED` order is answered with the refused transition, and changes
nothing. -/
theorem redriveRun_of_failed {choices : ℕ → Choice} {w : World} {row : OrderRow}
    (hquiet : Quiet choices) (hrow : w.db.orders.find? row.id = some row)
    (hfailed : row.status = .worker .failed) (ctx : AdminService.RedriveContext) :
    redriveRun choices row ctx w = (.error (.invalidStateTransition "FAILED" "QUEUED" []), w) := by
  obtain ⟨items, hfound⟩ : ∃ items, w.db.findOrder? row.id = some ⟨row, items⟩ := by
    unfold Database.findOrder?
    rw [hrow]
    exact ⟨_, rfl⟩
  have hfind : Op.exec (.repo (.findById row.id)) (choices 0) w = (.ok (some ⟨row, items⟩), w) := by
    rw [Op.exec_undisturbed (hquiet 0), ← hfound]
    rfl
  have htransition : Op.exec (.repo (.transitionStatus (AdminService.redriveTransition ⟨row, items⟩)))
      (choices 1) w = (.error (.invalidStateTransition "FAILED" "QUEUED" []), w) := by
    rw [Op.exec_undisturbed (hquiet 1)]
    have hspec := redriveTransition_refused w.db ⟨row, items⟩ (choices 1).now
    show ((settle w.db (quietly (w.db.transitionStatus _ (choices 1).now))).1,
      { w with db := (settle w.db (quietly (w.db.transitionStatus _ (choices 1).now))).2 }) = _
    rw [hspec]
    rfl
  unfold redriveRun AdminService.redriveOrder
  rw [OrderRepository.findById_eq, run_bind_of_ok Op.exec _ _ hfind]
  simp only [hfailed, ne_eq, not_true_eq_false, if_false]
  rw [OrderRepository.transition_eq, run_bind_of_error Op.exec htransition]

/-- **No re-drive works.**  For every `FAILED` order in every world, with nothing failing
and nobody else writing, the request throws, leaves the world as it was, and so does
nothing a re-drive is for. -/
theorem redriveOrder_refused {choices : ℕ → Choice} {w : World} {row : OrderRow}
    (hquiet : Quiet choices) (hrow : w.db.orders.find? row.id = some row)
    (hfailed : row.status = .worker .failed) (ctx : AdminService.RedriveContext) :
    redriveRun choices row ctx w = (.error (.invalidStateTransition "FAILED" "QUEUED" []), w) ∧
      ¬ RedriveWorks choices row ctx w := by
  have hrun := redriveRun_of_failed hquiet hrow hfailed ctx
  refine ⟨hrun, fun hworks => ?_⟩
  have hsucceeds := hworks.succeeds
  rw [hrun] at hsucceeds
  cases hsucceeds

/-! ### A failed order at the first seeded store -/

/-- The stored order, once its last attempt has failed. -/
def failedWorld : World :=
  (run Op.exec (fun n => .undisturbed (200 + n))
    (ProcessOrderService.handleFailure seedConfig seedPayload (.circuitBreakerOpen seedPayload.storeId)
      (seedJob 2)) 0 storedWorld).2

theorem failedWorld_row : ∃ row, failedWorld.db.orders.find? row.id = some row ∧
    row.status = .worker .failed := by
  have hstatus : failedWorld.db.statusOf ⟨7⟩ = some (.worker .failed) := by decide +kernel
  obtain ⟨row, hrow, hfailed⟩ := Option.map_eq_some_iff.mp hstatus
  have hid := (Relational.Table.find?_eq_some_iff.mp hrow).2
  exact ⟨row, by rw [hid]; exact hrow, hfailed⟩

/-- Its re-drive is refused, and nothing has changed. -/
theorem redriveOrder_refused_stored :
    ∃ row, redriveRun (fun n => .undisturbed n) row ⟨none, 300⟩ failedWorld =
        (.error (.invalidStateTransition "FAILED" "QUEUED" []), failedWorld) ∧
      ¬ RedriveWorks (fun n => .undisturbed n) row ⟨none, 300⟩ failedWorld := by
  obtain ⟨row, hrow, hfailed⟩ := failedWorld_row
  exact ⟨row, redriveOrder_refused (fun _ => rfl) hrow hfailed ⟨none, 300⟩⟩

/-- **The only recovery path of a failed order is closed**, at one that was stored and has failed.
-/
theorem not_redriveWorks_stored :
    ¬ ∀ (choices : ℕ → Choice) (w : World) (row : OrderRow) (ctx : AdminService.RedriveContext),
        Quiet choices → w.db.orders.find? row.id = some row → row.status = .worker .failed →
        RedriveWorks choices row ctx w := by
  intro h
  obtain ⟨row, hrow, hfailed⟩ := failedWorld_row
  have hquiet : Quiet fun n => .undisturbed n := fun _ => rfl
  have hsucceeds := (h _ failedWorld row ⟨none, 300⟩ hquiet hrow hfailed).succeeds
  rw [redriveRun_of_failed hquiet hrow hfailed] at hsucceeds
  cases hsucceeds

end ChickenOrder
