import ChickenOrder.Services.Calls
import ChickenOrder.Services.MenuAdmin

/-!
# The worker of the dead letter queue

`DlqProcessor` reports the jobs of the dead letter queue, and re-drives none.  `moveToDlq` has
reported them before.  Jobs stay in the queue when they are done, so a job is taken out by nobody.

The processor has no branches: it sends the alert and ends, and the alert never fails.  What
matters is which jobs it is handed, and those are the ones that `moveToDlq` has added;
`dlqSystem` puts such workers beside the requests of the order system.
-/

namespace ChickenOrder

open Interaction Interaction.Program

/-- What `moveToDlq` reports, with a link to the order. -/
def ProcessOrderService.failureAlert (config : AppConfig) (payload : OrderJobPayload)
    (error : OrderError) (jobMeta : JobMeta) : AlertPayload where
  orderId := payload.orderId
  traceId := payload.traceId
  storeId := payload.storeId
  reason := error.message
  attempts := jobMeta.attemptsMade
  dashboardUrl := some (config.adminBaseUrl ++ "/admin/orders/" ++ payload.orderId.toText)

/-- What `DlqProcessor` reports: the same facts once more, without the link. -/
def DlqProcessor.jobAlert (job : DlqJob) : AlertPayload where
  orderId := job.data.orderId
  traceId := job.data.traceId
  storeId := job.data.storeId
  reason := job.failureReason
  attempts := job.attempts
  dashboardUrl := none

/-- `DlqProcessor.process`. -/
def DlqProcessor.process (config : AppConfig) (job : DlqJob) : Service Unit :=
  NotificationService.sendDlqAlert config (jobAlert job)

/-- The order system with workers of the dead letter queue.  They make calls like all others. -/
def dlqSystem (config : AppConfig) :
    System Op.Reply OrderError Outcome World Choice (Request ⊕ DlqJob) CatalogStep where
  exec := Op.exec
  program
    | .inl q => q.program config
    | .inr job => do
        DlqProcessor.process config job
        return .done
  env := fun e w => some (e.apply w)

/-- The order system with the workers of the dead letter queue beside its requests. -/
abbrev DlqPool := Pool Op.Reply OrderError Outcome World (Request ⊕ DlqJob)

/-- A thread of that system: a request, or a job of the dead letter queue. -/
abbrev DlqThread := Thread Op.Reply OrderError Outcome (Request ⊕ DlqJob)

/-- A step of it. -/
abbrev DlqLabel := Label Choice (Request ⊕ DlqJob) CatalogStep

/-- A worker of the dead letter queue is handed a job of it, any number of times. -/
def WorksOnDlq : DlqLabel → DlqPool → Prop
  | .spawn _ q, P => ∀ job ∈ q.getRight?, job ∈ P.world.dlqQueue
  | .act _ _, _ => True
  | .env _, _ => True

deriving instance DecidableEq for DlqJob

instance (ℓ : DlqLabel) (P : DlqPool) : Decidable (WorksOnDlq ℓ P) :=
  match ℓ with
  | .spawn _ q => inferInstanceAs (Decidable (∀ job ∈ q.getRight?, job ∈ P.world.dlqQueue))
  | .act _ _ => .isTrue trivial
  | .env _ => .isTrue trivial

/-- **Everything a call does to the alerts**: only a post to the webhook appends one. -/
theorem Op.exec_alerts (o : Op) (c : Choice) (w : World) :
    (o.exec c w).2.alerts = w.alerts ∨
      ∃ alert, o = .postAlert alert ∧ (o.exec c w).2.alerts = w.alerts ++ [alert] := by
  refine Op.exec_invariant (I := fun w' => w'.alerts = w.alerts ∨
    ∃ alert, o = .postAlert alert ∧ w'.alerts = w.alerts ++ [alert]) (.inl rfl) ?_
  cases o with
  | postAlert alert => exact .inr ⟨alert, rfl, rfl⟩
  | patchStatus text orderId =>
      obtain ⟨db, hframe⟩ := w.patchStatus_frame text orderId c.now
      exact .inl (congrArg World.alerts hframe :)
  | idempotencySetNx key orderId =>
      obtain ⟨keys, hframe⟩ := w.idempotencySetNx_frame key orderId
      exact .inl (congrArg World.alerts hframe :)
  | lockSetNx orderId token =>
      obtain ⟨locks, hframe⟩ := w.lockSetNx_frame orderId token
      exact .inl (congrArg World.alerts hframe :)
  | lockRelease orderId token =>
      obtain ⟨locks, hframe⟩ := w.lockRelease_frame orderId token
      exact .inl (congrArg World.alerts hframe :)
  | mainQueueAdd data =>
      obtain ⟨queue, hframe⟩ := w.mainQueueAdd_frame data
      exact .inl (congrArg World.alerts hframe :)
  | dlqQueueAdd data reason attempts =>
      obtain ⟨queue, hframe⟩ := w.dlqQueueAdd_frame data reason attempts c.now
      exact .inl (congrArg World.alerts hframe :)
  | postToPos request =>
      obtain ⟨inbox, hframe⟩ := effect_postToPos_frame request c w
      exact .inl (congrArg World.alerts hframe :)
  | _ => exact .inl rfl

end ChickenOrder
