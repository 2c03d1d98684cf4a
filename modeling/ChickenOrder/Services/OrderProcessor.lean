import ChickenOrder.Services.ProcessOrder

/-!
# `OrderProcessor` and the attempts of a job

The queue runs a job until an attempt succeeds or its configured number of
attempts has failed.  Every failed attempt raises the `failed` event, which
carries the number of attempts made so far and is handled by `onFailed`.

BullMQ counts an attempt when it fails, so that the first failure arrives with the number one.
`runJob` is the sequence of these events for a job whose attempts end as a function says; which
of them is the last depends on the configured number alone.
-/

namespace ChickenOrder

open Interaction Interaction.Program

/-- A `failed` event of a job: the error of the attempt, and how many attempts have failed by then.
-/
structure FailedEvent where
  error : OrderError
  attemptsMade : ℕ
  /-- The queue starts no further attempt of the job. -/
  last : Bool

/-- What the queue has seen of a job: its failed attempts, and whether it has given up. -/
structure JobRun where
  failures : List FailedEvent
  gaveUp : Bool

/-- The run of a job that has `left` attempts to go, where `outcome k` is how its
attempt after `k` failed ones ends. -/
def runJob (outcome : ℕ → Except OrderError Unit) : (left attemptsMade : ℕ) → JobRun
  | 0, _ => ⟨[], true⟩
  | left + 1, attemptsMade =>
      match outcome attemptsMade with
      | .ok () => ⟨[], false⟩
      | .error error =>
          let rest := runJob outcome left (attemptsMade + 1)
          ⟨⟨error, attemptsMade + 1, left = 0⟩ :: rest.failures, rest.gaveUp⟩

namespace OrderProcessor

/-- `onFailed`: the handler gets the job's data, and BullMQ's count of its attempts. -/
def onFailed (config : AppConfig) (data : OrderJobPayload) (id : JobId) (workerId : String)
    (event : FailedEvent) : Service Unit :=
  ProcessOrderService.handleFailure config data event.error ⟨id, workerId, event.attemptsMade⟩

/-- The handler of this event runs `moveToDlq`. -/
def movesToDlq (event : FailedEvent) : Bool :=
  ProcessOrderService.goesToDlq event.error event.attemptsMade

end OrderProcessor

end ChickenOrder
