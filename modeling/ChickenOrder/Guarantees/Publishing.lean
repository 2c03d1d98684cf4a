import ChickenOrder.Interaction.JobQueue
import ChickenOrder.Services.OrderSystem

/-!
# What the main queue makes of a publication

`publishOrder` derives the job's id from the order's, so a second publication for an order
takes effect only once the queue has forgotten the first.  `publicationTaken_iff` says when
that is: the order's last job completed, and a thousand others have completed since.  A failed
job is never forgotten, so the publication of a re-drive is dropped while the call returns the
id of the failed job.

The queue of `World` keeps every job it was ever given.  `Mirrors` relates the two: they agree
until a thousand jobs have completed.

The queue itself is the one of `ChickenOrder.Interaction.JobQueue`, whose theorem reads off a
history what is known at its end; here are the options the source gives it, and its ids.
-/

namespace ChickenOrder

open Interaction

/-! ## Job options -/

/-- BullMQ's `removeOnComplete` and `removeOnFail`. -/
inductive KeepJobs
  | remove (always : Bool)
  | count (n : ℕ)

/-- How many jobs are kept, `none` for all. -/
def KeepJobs.limit : KeepJobs → Option ℕ
  | .remove always => if always then some 0 else none
  | .count n => some n

/-- The options a job is added with, of which retention is what matters to the queue's keys. -/
structure JobsOptions where
  attempts : ℕ
  backoffDelay : ℕ
  removeOnComplete : KeepJobs
  removeOnFail : KeepJobs

/-- `defaultJobOptions`, with the configured `retry.maxAttempts` and `retry.baseDelayMs`.  Completed
jobs are kept up to a thousand, failed ones for ever. -/
def OrderQueueService.defaultJobOptions (maxAttempts baseDelay : ℕ) : JobsOptions where
  attempts := maxAttempts
  backoffDelay := baseDelay
  removeOnComplete := .count 1000
  removeOnFail := .remove false

/-- How many finished jobs are kept, by how they ended. -/
def JobsOptions.retention (options : JobsOptions) : Retention
  | .completed => options.removeOnComplete.limit
  | .failed => options.removeOnFail.limit

/-! ## The main queue -/

/-- The queue of orders. -/
abbrev MainQueue := JobQueue JobId OrderJobPayload

/-- What happens to the main queue: a publication, and the two ways in which a job finishes. -/
inductive MainQueueEvent
  | publishOrder (payload : OrderJobPayload)
  | completed (orderId : Uuid)
  | failed (orderId : Uuid)

/-- What it means to a queue of jobs. -/
def MainQueueEvent.toJobEvent : MainQueueEvent → JobEvent JobId OrderJobPayload
  | .publishOrder payload => .add (.order payload.orderId) payload
  | .completed orderId => .finish .completed (.order orderId)
  | .failed orderId => .finish .failed (.order orderId)

/-- What the queue of the world sees of it. -/
def MainQueueEvent.onWorld : MainQueueEvent → World → World
  | .publishOrder payload, w => w.mainQueueAdd payload
  | .completed _, w => w
  | .failed _, w => w

/-- A job was completed. -/
def MainQueueEvent.isCompleted : MainQueueEvent → Bool
  | .completed _ => true
  | _ => false

namespace MainQueue

/-- `publishOrder` on the queue: the id of the job that is there afterwards, and the queue. -/
def publishOrder (queue : MainQueue) (payload : OrderJobPayload) : JobId × MainQueue :=
  (.order payload.orderId, queue.add (.order payload.orderId) payload)

/-- The queue after a history, latest event first. -/
def after (options : JobsOptions) (history : List MainQueueEvent) : Option MainQueue :=
  JobQueue.after options.retention (history.map MainQueueEvent.toJobEvent)

/-- The last finish of the order's job, with the number of those that ended the same way
since. -/
def lastFinish (orderId : Uuid) (history : List MainQueueEvent) : Option (JobOutcome × ℕ) :=
  JobQueue.lastFinish (.order orderId) (history.map MainQueueEvent.toJobEvent)

/-- The publication is not dropped: a job with its payload will be run.  The method returns the id
of a job in any case. -/
def Taken (queue : MainQueue) (payload : OrderJobPayload) : Prop :=
  (.order payload.orderId, payload) ∈ (queue.publishOrder payload).2.pending

/-- The order's last job completed, and a thousand others have completed since.  A job that failed
is never forgotten. -/
def Forgotten (orderId : Uuid) (history : List MainQueueEvent) : Prop :=
  ∃ n, 1000 ≤ n ∧ lastFinish orderId history = some (.completed, n)

/-- What the queue keeps of an order that has no job in it to be run. -/
theorem knows_iff_not_forgotten {maxAttempts baseDelay : ℕ} {history : List MainQueueEvent}
    {queue : MainQueue} {orderId : Uuid}
    (hafter : after (OrderQueueService.defaultJobOptions maxAttempts baseDelay) history = some queue)
    (hidle : ¬ queue.Pending (.order orderId)) (hfinished : (lastFinish orderId history).isSome) :
    queue.Knows (.order orderId) ↔ ¬ Forgotten orderId history := by
  obtain ⟨⟨outcome, n⟩, hlast⟩ := Option.isSome_iff_exists.mp hfinished
  have hknows := JobQueue.knows_iff hafter hidle
  unfold lastFinish at hlast
  rw [hknows, hlast]
  unfold Forgotten lastFinish
  rw [hlast]
  cases outcome with
  | completed =>
      simp [JobQueue.Keeps, JobsOptions.retention, OrderQueueService.defaultJobOptions,
        KeepJobs.limit]
  | failed =>
      simp [JobQueue.Keeps, JobsOptions.retention, OrderQueueService.defaultJobOptions,
        KeepJobs.limit]

/-- **When the publication for an order whose job has finished takes effect**: exactly if the queue
has forgotten that job.  This holds after every history of the queue. -/
theorem publicationTaken_iff {maxAttempts baseDelay : ℕ} {history : List MainQueueEvent}
    {queue : MainQueue} {payload : OrderJobPayload}
    (hafter : after (OrderQueueService.defaultJobOptions maxAttempts baseDelay) history = some queue)
    (hidle : ¬ queue.Pending (.order payload.orderId))
    (hfinished : (lastFinish payload.orderId history).isSome) :
    Taken queue payload ↔ Forgotten payload.orderId history := by
  have hmem : Taken queue payload ↔ ¬ queue.Knows (.order payload.orderId) :=
    JobQueue.mem_add_iff hidle
  rw [hmem, knows_iff_not_forgotten hafter hidle hfinished, not_not]

/-! ### The queue of the world -/

/-- The world's queue has exactly the jobs that are pending or retained, so that both drop the same
publications. -/
def Mirrors (queue : MainQueue) (w : World) : Prop :=
  ∀ job : Job, job ∈ w.mainQueue ↔
    (job.id, job.data) ∈ queue.pending ∨ ∃ o, (job.id, job.data) ∈ queue.finished o

theorem Mirrors.knows_iff {queue : MainQueue} {w : World} (h : Mirrors queue w) {id : JobId} :
    queue.Knows id ↔ id ∈ w.mainQueue.map Job.id := by
  rw [JobQueue.knows_iff_exists, List.mem_map]
  constructor
  · rintro (hpending | ⟨o, ho⟩)
    · obtain ⟨job, hjob, rfl⟩ := List.mem_map.mp hpending
      exact ⟨⟨job.1, job.2⟩, (h _).mpr (.inl hjob), rfl⟩
    · obtain ⟨job, hjob, rfl⟩ := List.mem_map.mp ho
      exact ⟨⟨job.1, job.2⟩, (h _).mpr (.inr ⟨o, hjob⟩), rfl⟩
  · rintro ⟨job, hjob, rfl⟩
    obtain hpending | ⟨o, ho⟩ := (h job).mp hjob
    · exact .inl (List.mem_map_of_mem hpending)
    · exact .inr ⟨o, List.mem_map_of_mem ho⟩

/-- A publication does the same to both. -/
theorem Mirrors.publishOrder {queue : MainQueue} {w : World} (h : Mirrors queue w)
    (payload : OrderJobPayload) :
    Mirrors (queue.publishOrder payload).2 (w.mainQueueAdd payload) := by
  show Mirrors (queue.add _ payload) _
  by_cases hknows : queue.Knows (.order payload.orderId)
  · rwa [JobQueue.add_of_knows hknows, World.mainQueueAdd_of_mem (h.knows_iff.mp hknows)]
  · rw [JobQueue.add_of_not_knows hknows,
      World.mainQueueAdd_of_not_mem fun hmem => hknows (h.knows_iff.mpr hmem)]
    intro job
    simp only [List.mem_append, List.mem_singleton, Prod.mk.injEq, h job]
    obtain ⟨id, data⟩ := job
    simp only [Job.mk.injEq]
    tauto

/-- The finish of a job is not seen by the world's queue while nothing is dropped. -/
theorem Mirrors.finish {options : JobsOptions} {events : List (JobEvent JobId OrderJobPayload)}
    {queue queue' : MainQueue} {w : World} {o : JobOutcome} {id : JobId} (h : Mirrors queue w)
    (hremembers : JobQueue.Remembers options.retention events queue)
    (hroom : ∀ k, options.retention o = some k → (queue.finished o).length < k)
    (hfinish : queue.finish options.retention o id = some queue') : Mirrors queue' w := by
  obtain ⟨data, hfinished, hpending⟩ := JobQueue.mem_pending_finish hremembers hfinish
  -- there is room, so the queue forgets nothing when the job finishes
  have hall : JobQueue.retain (options.retention o) ((id, data) :: queue.finished o) =
      (id, data) :: queue.finished o :=
    JobQueue.retain_of_length_le fun k hk => Nat.succ_le_of_lt (hroom k hk)
  rw [hall] at hfinished
  intro job
  rw [h job, hpending, hfinished]
  constructor
  · rintro ((hjob | hjob) | ⟨o', hjob⟩)
    · exact .inr ⟨o, by simp [hjob]⟩
    · exact .inl hjob
    · refine .inr ⟨o', ?_⟩
      by_cases ho : o' = o
      · subst ho
        simp [hjob]
      · rwa [Function.update_of_ne ho]
  · rintro (hjob | ⟨o', hjob⟩)
    · exact .inl (.inr hjob)
    · by_cases ho : o' = o
      · subst ho
        rw [Function.update_self] at hjob
        obtain hjob | hjob := List.mem_cons.mp hjob
        · exact .inl (.inl hjob)
        · exact .inr ⟨o', hjob⟩
      · rw [Function.update_of_ne ho] at hjob
        exact .inr ⟨o', hjob⟩

/-- As many jobs are retained as completed are at most as many as have completed. -/
theorem length_completed_le {options : JobsOptions} {history : List MainQueueEvent}
    {queue : MainQueue} (hafter : after options history = some queue) :
    (queue.finished .completed).length ≤ history.countP MainQueueEvent.isCompleted := by
  induction history generalizing queue with
  | nil =>
      cases hafter
      rfl
  | cons event history ih =>
      obtain ⟨queue₀, hqueue₀, hstep⟩ := Option.bind_eq_some_iff.mp hafter
      have hle := ih hqueue₀
      rw [List.countP_cons]
      cases event with
      | publishOrder payload =>
          obtain rfl : queue₀.add _ payload = queue := Option.some.inj hstep
          unfold JobQueue.add
          split
          · exact hle
          · exact hle
      | completed orderId =>
          obtain ⟨data, -, -, hfinished⟩ := JobQueue.finish_eq_some hstep
          rw [hfinished, Function.update_self]
          refine (JobQueue.length_retain_le _ _).trans ?_
          simpa [MainQueueEvent.isCompleted] using hle
      | failed orderId =>
          obtain ⟨data, -, -, hfinished⟩ := JobQueue.finish_eq_some hstep
          have hother : JobOutcome.completed ≠ .failed := by decide
          rw [hfinished, Function.update_of_ne hother]
          exact hle

/-- **The queue of the world is the main queue** until a thousand jobs have completed.  From then on
the real one forgets, and the world's does not. -/
theorem mirrors_of_after {maxAttempts baseDelay : ℕ} {history : List MainQueueEvent}
    {queue : MainQueue}
    (hafter : after (OrderQueueService.defaultJobOptions maxAttempts baseDelay) history = some queue)
    (hfew : history.countP MainQueueEvent.isCompleted ≤ 1000) (db : Database) :
    Mirrors queue (history.foldr MainQueueEvent.onWorld (World.init db)) := by
  induction history generalizing queue with
  | nil =>
      cases hafter
      exact fun job => by simp [World.init, JobQueue.empty]
  | cons event history ih =>
      obtain ⟨queue₀, hqueue₀, hstep⟩ := Option.bind_eq_some_iff.mp hafter
      have hremembers := JobQueue.remembers_of_after hqueue₀
      rw [List.countP_cons] at hfew
      have hmirrors := ih hqueue₀ (by omega)
      cases event with
      | publishOrder payload =>
          obtain rfl : queue₀.add _ payload = queue := Option.some.inj hstep
          exact hmirrors.publishOrder payload
      | completed orderId =>
          refine hmirrors.finish hremembers (fun k hk => ?_) hstep
          have hle := length_completed_le hqueue₀
          cases hk
          simp only [MainQueueEvent.isCompleted, if_true] at hfew
          omega
      | failed orderId =>
          refine hmirrors.finish hremembers (fun k hk => ?_) hstep
          cases hk

/-! ### A re-drive -/

/-- The payload of the seed order's re-drive. -/
def redrivePayload : OrderJobPayload :=
  { seedPayload with isRedrive := true, redriveAt := some 100 }

/-- The seed order's job has failed for good. -/
def failedHistory : List MainQueueEvent :=
  [.failed seedPayload.orderId, .publishOrder seedPayload]

/-- A queue that still has the failed job of the seeded order. -/
def failedQueue : MainQueue where
  pending := []
  finished
    | .completed => []
    | .failed => [(.order seedPayload.orderId, seedPayload)]

theorem after_failedHistory :
    after (OrderQueueService.defaultJobOptions 3 1000) failedHistory = some failedQueue := by
  have hfinished : ∀ job : JobId × OrderJobPayload,
      Function.update (fun _ => []) JobOutcome.failed [job] = fun
        | .completed => []
        | .failed => [job] := by
    intro job
    funext o
    cases o with
    | completed => rfl
    | failed => rfl
  exact congrArg (fun f => some (⟨[], f⟩ : MainQueue)) (hfinished _)

/-- The equivalence for the re-drive of the failed job. -/
theorem publicationTaken_iff_failed :
    Taken failedQueue redrivePayload ↔ Forgotten redrivePayload.orderId failedHistory :=
  publicationTaken_iff after_failedHistory (by decide) (by decide)

/-- The re-drive of an order whose job has failed is dropped: its publication returns the id of the
failed job. -/
theorem not_publicationTaken_of_failed :
    ¬ ∀ maxAttempts baseDelay history queue payload,
      after (OrderQueueService.defaultJobOptions maxAttempts baseDelay) history = some queue →
      ¬ queue.Pending (.order payload.orderId) →
      (lastFinish payload.orderId history).isSome → Taken queue payload := by
  intro h
  have htaken := h 3 1000 failedHistory failedQueue redrivePayload after_failedHistory (by decide)
    (by decide)
  exact absurd htaken (by unfold Taken; decide)

end MainQueue
end ChickenOrder
