import ChickenOrder.Services.Calls

/-!
# What a call of `execute` knows

A call of `CreateOrderService.execute` goes through a few stages, and its own
history tells which one it is in.  `creations` is the protocol of that: which
calls belong to which stage, and at which stages the call ends.

The protocol is parametric in whether the run is `smooth`, that is whether
nothing but validation and publishing fails.  In a smooth run the key is only
given back before the job is published, and a call that does not return ends
with one of three status codes.

Every claim about a call's own past is read off its stage.  That other calls do not interfere
with it is not said here; it depends on what the calls do to the keys, and is proved of runs.
-/

namespace ChickenOrder

open Interaction Interaction.Program

/-! ## Stages -/

/-- How far a call of `execute` is.  The stage is all that later calls of it depend on. -/
inductive CreationStage
  | fresh
  /-- Another call has the key. -/
  | refused
  /-- It has the key, and has published no job. -/
  | holding
  | published
  /-- The response is stored. -/
  | completed
  /-- It has given the key back. -/
  | released
  deriving DecidableEq

/-- The stage after one more answered call.  Calls that fail, and those to the menus, leave it. -/
def CreationStage.next : CreationStage → OrderEvent → CreationStage
  | .fresh, ⟨.idempotencySetNx _ _, .ok isNew⟩ => if isNew then .holding else .refused
  | .holding, ⟨.mainQueueAdd _, .ok _⟩ => .published
  | .holding, ⟨.idempotencyDel _, .ok _⟩ => .released
  | .published, ⟨.idempotencySet _ _, .ok _⟩ => .completed
  | .published, ⟨.idempotencyDel _, .ok _⟩ => .released
  | stage, _ => stage

/-- The stage of a call with the given history, latest event first. -/
def creationStage (h : List OrderEvent) : CreationStage :=
  h.foldr (fun e stage => stage.next e) .fresh

@[simp] theorem creationStage_nil : creationStage [] = .fresh := rfl

@[simp] theorem creationStage_cons (e : OrderEvent) (h : List OrderEvent) :
    creationStage (e :: h) = (creationStage h).next e := rfl

/-- The call has the key, as far as it knows.  The key may have expired meanwhile. -/
def CreationStage.HasKey (stage : CreationStage) : Prop :=
  stage = .holding ∨ stage = .published ∨ stage = .completed

/-- The call has been told that its job is on the queue, and keeps the key. -/
def CreationStage.HasJob (stage : CreationStage) : Prop :=
  stage = .published ∨ stage = .completed

/-- A call that has published its job holds its key. -/
theorem CreationStage.HasJob.hasKey {stage : CreationStage} (h : stage.HasJob) : stage.HasKey :=
  .inr h

/-- A call that has a job has published it. -/
theorem published_of_hasJob {h : List OrderEvent} (hjob : (creationStage h).HasJob) :
    ∃ data, (⟨.mainQueueAdd data, .ok ()⟩ : OrderEvent) ∈ h := by
  induction h with
  | nil => rcases hjob with hjob | hjob <;> cases hjob
  | cons e h ih =>
      by_cases hold : (creationStage h).HasJob
      · obtain ⟨data, hmem⟩ := ih hold
        exact ⟨data, List.mem_cons_of_mem _ hmem⟩
      · rw [creationStage_cons] at hjob
        unfold CreationStage.next at hjob
        split at hjob
        · split at hjob <;> rcases hjob with hjob | hjob <;> cases hjob
        · exact ⟨_, List.mem_cons_self⟩
        · rcases hjob with hjob | hjob <;> cases hjob
        · rename_i hstage
          exact absurd (.inl hstage) hold
        · rcases hjob with hjob | hjob <;> cases hjob
        · exact absurd hjob hold

/-! ## The protocol -/

/-- An answer in a run where only validation and publishing fail.  Under a response key
there is a response or nothing. -/
def Smooth : OrderEvent → Prop
  | ⟨.menuCacheGet _, _⟩ => True
  | ⟨.menuCacheSet _ _, _⟩ => True
  | ⟨.findMenusByIds _ _, _⟩ => True
  | ⟨.mainQueueAdd _, _⟩ => True
  | ⟨.idempotencyGet _, answer⟩ =>
      ∃ cached : Option CreateOrderResult, answer = .ok (cached.map .response)
  | ⟨_, answer⟩ => ∃ reply, answer = .ok reply

namespace CreateOrderService

/-- The `catch` block can be entered: before the job is published, or, in a run that is not smooth,
after it. -/
def MayAbandon (smooth : Prop) (stage : CreationStage) : Prop :=
  stage = .holding ∨ ¬ smooth ∧ stage = .published

/-- The stage at which a call is made.  This is the control flow of `execute`, read off its calls.
-/
def MayCall (smooth : Prop) (stage : CreationStage) : Op → Prop
  | .idempotencySetNx _ _ => stage = .fresh
  | .idempotencyGet _ => stage = .refused
  | .idempotencyDel _ => MayAbandon smooth stage
  | .emitNewOrder _ _ _ _ _ => stage = .published
  | .idempotencySet _ _ => stage = .published
  | _ => stage = .holding

/-- In a smooth run a call that has a job keeps it. -/
theorem hasJob_next {stage : CreationStage} {o : Op} (hjob : stage.HasJob)
    (hcall : MayCall True stage o) (answer : Except OrderError (Op.Reply o)) :
    (stage.next ⟨o, answer⟩).HasJob := by
  have hkept : ¬ MayAbandon True stage := by
    rintro (rfl | ⟨hrough, -⟩)
    · rcases hjob with hjob | hjob <;> cases hjob
    · exact hrough trivial
  rcases hjob with rfl | rfl
  · cases o with
    | emitNewOrder storeId orderId items amount traceId => exact .inl rfl
    | idempotencySet key response =>
        cases answer with
        | ok reply => exact .inr rfl
        | error err => exact .inl rfl
    | idempotencyDel key => exact absurd hcall hkept
    | _ => cases hcall
  · cases o with
    | idempotencyDel key => exact absurd hcall hkept
    | _ => cases hcall

/-- A call that has completed makes no call any more. -/
theorem not_mayCall_completed {o : Op} : ¬ MayCall True .completed o := by
  intro hcall
  cases o with
  | idempotencyDel key =>
      rcases hcall with hcall | ⟨hrough, -⟩
      · cases hcall
      · exact hrough trivial
  | _ => cases hcall

/-- What a call that returns has seen: it has completed, or it has read the response of
another one. -/
def Created (cmd : CreateOrderCommand) (ctx : ApiContext) (h : List OrderEvent)
    (r : CreateOrderResult) : Prop :=
  creationStage h = .completed ∧ r = result ctx ∨
    creationStage h = .refused ∧ ∃ cached, r = { cached with replayed := true } ∧
      (⟨.idempotencyGet (IdempotencyService.responseKey cmd.idempotencyKey),
        .ok (some (.response cached))⟩ : OrderEvent) ∈ h

/-- How a call ends that does not return: without its key, and with an HTTP exception. -/
def Rejected (h : List OrderEvent) (err : OrderError) : Prop :=
  (creationStage h = .refused ∨ creationStage h = .released) ∧
    ∃ status m, err = .http status m ∧ (status = 409 ∨ status = 422 ∨ status = 503)

/-- The protocol of `execute`.  Other requests are free.  It is stated for runs of either kind, as
most of it does not need a smooth one. -/
def creations (smooth : Prop) : Protocol Op.Reply OrderError Outcome Request where
  admits := fun _ => True
  allows := fun _ _ e => smooth → Smooth e
  issues := fun q h o =>
    match q with
    | .createOrder _ _ => MayCall smooth (creationStage h) o
    | _ => True
  returns := fun q h a =>
    match q with
    | .createOrder cmd ctx => ∃ r, a = .created r ∧ Created cmd ctx h r
    | _ => True
  throws := fun q h err =>
    match q with
    | .createOrder _ _ => smooth → Rejected h err
    | _ => True

section Follows

variable {smooth : Prop} {cmd : CreateOrderCommand} {ctx : ApiContext} {h : List OrderEvent}

/-- `wp` against the protocol of a call. -/
abbrev createWp (smooth : Prop) (cmd : CreateOrderCommand) (ctx : ApiContext) {α : Type}
    (p : Service α) (Q : α → List OrderEvent → Prop) (E : OrderError → List OrderEvent → Prop)
    (h : List OrderEvent) : Prop :=
  p.wp ((creations smooth).record (.createOrder cmd ctx))
    (fun o h => MayCall smooth (creationStage h) o) Q E h

/-- A smooth run answers the calls that have to be answered. -/
theorem not_smooth_of_error {o : Op} {err : OrderError} {h' : List OrderEvent}
    (hrec : (creations smooth).record (.createOrder cmd ctx) o h (.error err) h')
    (hanswered : ¬ Smooth ⟨o, .error err⟩) : ¬ smooth :=
  fun hsmooth => hanswered (hrec.1 hsmooth)

/-- Validation leaves the call where it is: the key is set, and nothing is published. -/
theorem validate_holding (hstage : creationStage h = .holding) :
    createWp smooth cmd ctx (validateAndEnrichItems cmd)
      (fun _ h' => creationStage h' = .holding) (fun _ h' => creationStage h' = .holding) h := by
  refine wp_invariant _ _ (fun h => creationStage h = .holding) ?_ ?_
    (validateAndEnrichItems_onlyCalls cmd) hstage
  · intro o h ho hstage
    cases o with
    | menuCacheGet key => exact hstage
    | menuCacheSet key menus => exact hstage
    | findMenusByIds menuIds storeId => exact hstage
    | _ => cases ho
  · rintro o h r h' ho hstage ⟨-, rfl⟩
    rw [creationStage_cons, hstage]
    cases o with
    | menuCacheGet key => rfl
    | menuCacheSet key menus => rfl
    | findMenusByIds menuIds storeId => rfl
    | _ => cases ho

/-- The last steps end with everything done.  Where they throw, the call may give its key back only
if it has not published. -/
theorem publish_completed (hstage : creationStage h = .holding) (amount : String)
    (items : List OrderItem) :
    createWp smooth cmd ctx (publish cmd ctx amount items)
      (fun r h' => creationStage h' = .completed ∧ r = result ctx)
      (fun _ h' => MayAbandon smooth (creationStage h')) h := by
  unfold createWp publish OrderQueueService.publishOrder IdempotencyService.setCompleted
  simp only [wp_bind, wp_perform, wp_return]
  -- the publication, the announcement and the response in turn, each answered or failing
  refine ⟨hstage, ?_, ?_⟩
  · rintro - h₁ ⟨-, rfl⟩
    have hpublished : creationStage
        (⟨.mainQueueAdd (payload cmd ctx amount items), .ok ()⟩ :: h) = .published := by
      rw [creationStage_cons, hstage]
      rfl
    refine ⟨hpublished, ?_, ?_⟩
    · rintro - h₂ ⟨-, rfl⟩
      have hannounced : creationStage
          (⟨.emitNewOrder cmd.storeId ctx.orderId items amount
            (payload cmd ctx amount items).traceId, .ok ()⟩ ::
              ⟨.mainQueueAdd (payload cmd ctx amount items), .ok ()⟩ :: h) = .published := by
        rw [creationStage_cons, hpublished]
        rfl
      refine ⟨hannounced, ?_, ?_⟩
      · rintro - h₃ ⟨-, rfl⟩
        rw [creationStage_cons, hannounced]
        exact ⟨rfl, trivial⟩
      · rintro err h₃ hrec
        have hrough := not_smooth_of_error hrec (by rintro ⟨_, hok⟩; cases hok)
        rw [hrec.2, creationStage_cons, hannounced]
        exact .inr ⟨hrough, rfl⟩
    · rintro err h₂ hrec
      have hrough := not_smooth_of_error hrec (by rintro ⟨_, hok⟩; cases hok)
      rw [hrec.2, creationStage_cons, hpublished]
      exact .inr ⟨hrough, rfl⟩
  · -- nothing is published, so the key may be given back
    rintro err h₁ ⟨-, rfl⟩
    rw [creationStage_cons, hstage]
    exact .inl rfl

/-- The `catch` block ends in a rejection, for which nothing is left behind if the run is smooth. -/
theorem abandon_rejected (err : OrderError) (hstage : MayAbandon smooth (creationStage h)) :
    createWp smooth cmd ctx (abandon cmd err) (fun _ _ => False)
      (fun err h' => smooth → Rejected h' err) h := by
  unfold createWp abandon IdempotencyService.release
  rw [wp_bind, wp_perform]
  refine ⟨hstage, ?_, ?_⟩
  · rintro - h₁ ⟨-, rfl⟩
    have hreleased : creationStage
        (⟨.idempotencyDel (IdempotencyService.pendingKey cmd.idempotencyKey), .ok ()⟩ :: h) =
          .released := by
      rw [creationStage_cons]
      rcases hstage with hstage | ⟨-, hstage⟩ <;> rw [hstage] <;> rfl
    rw [wp_ite]
    exact ⟨fun _ _ => ⟨.inr hreleased, 422, _, rfl, .inr (.inl rfl)⟩,
      fun _ _ => ⟨.inr hreleased, 503, _, rfl, .inr (.inr rfl)⟩⟩
  · intro err h₁ hrec hsmooth
    exact absurd hsmooth (not_smooth_of_error hrec (fun ⟨_, h⟩ => by cases h))

/-- A duplicate returns the stored response or is rejected, and does nothing else. -/
theorem replay_refused (hstage : creationStage h = .refused) :
    createWp smooth cmd ctx (replay cmd) (fun r h' => Created cmd ctx h' r)
      (fun err h' => smooth → Rejected h' err) h := by
  unfold createWp replay IdempotencyService.getCachedResponse
  rw [wp_bind, wp_bind, wp_perform]
  have hstill : ∀ answer, creationStage
      (⟨.idempotencyGet (IdempotencyService.responseKey cmd.idempotencyKey), answer⟩ :: h) =
        .refused := by
    intro answer
    rw [creationStage_cons, hstage]
    rfl
  refine ⟨hstage, ?_, ?_⟩
  · rintro found h₁ ⟨hallowed, rfl⟩
    cases found with
    | none => exact fun _ => ⟨.inl (hstill _), 409, _, rfl, .inl rfl⟩
    | some value =>
        cases value with
        | response cached => exact .inr ⟨hstill _, cached, rfl, List.mem_cons_self⟩
        | orderId id =>
            -- an order id under the response key is not an answer of a smooth run
            intro hsmooth
            obtain ⟨cached, hcached⟩ := hallowed hsmooth
            cases cached <;> cases hcached
  · intro err h₁ hrec hsmooth
    refine absurd hsmooth (not_smooth_of_error hrec ?_)
    rintro ⟨cached, hcached⟩
    cases hcached

/-- What a call of `execute` has done when it returns, and when it throws.  The parts above are put
together here. -/
theorem execute_created :
    createWp smooth cmd ctx (execute cmd ctx) (fun r h' => Created cmd ctx h' r)
      (fun err h' => smooth → Rejected h' err) [] := by
  unfold createWp execute IdempotencyService.tryAcquire
  rw [wp_bind, wp_perform]
  refine ⟨rfl, ?_, ?_⟩
  · rintro isNew h₁ ⟨-, rfl⟩
    rw [wp_ite]
    refine ⟨fun hnew => ?_, fun hnew => ?_⟩
    · subst hnew
      rw [wp_tryCatch]
      unfold validateAndPublish
      rw [wp_bind]
      refine wp_mono _ _ (fun validated h₂ hstage => ?_) (fun err h₂ hstage => ?_)
        (validate_holding rfl)
      · exact wp_mono _ _ (fun _ _ hdone => .inl hdone) (fun err h₃ hstage =>
          wp_mono _ _ (fun _ _ hfalse => hfalse.elim) (fun _ _ hrejected => hrejected)
            (abandon_rejected err hstage)) (publish_completed hstage _ _)
      · exact wp_mono _ _ (fun _ _ hfalse => hfalse.elim) (fun _ _ hrejected => hrejected)
          (abandon_rejected err (.inl hstage))
    · obtain rfl : isNew = false := by simpa using hnew
      exact replay_refused rfl
  · intro err h₁ hrec hsmooth
    exact absurd hsmooth (not_smooth_of_error hrec (fun ⟨_, h⟩ => by cases h))

end Follows

/-- **Every program follows the protocol of creations**, smooth run or not. -/
theorem follows_creations (smooth : Prop) (config : AppConfig) (q : Request) :
    (creations smooth).Follows q (q.program config) [] := by
  have hfree : ∀ {α : Type} (p : Service α), wp ((creations smooth).record q) (fun _ _ => True) p
      (fun _ _ => True) (fun _ _ => True) [] :=
    fun p => wp_always _ _ (fun _ _ _ => trivial) (fun _ _ _ _ _ _ => trivial) p trivial
  cases q with
  | createOrder cmd ctx =>
      show createWp smooth cmd ctx (execute cmd ctx >>= fun r => return Outcome.created r)
        (fun a h => ∃ r, a = Outcome.created r ∧ Created cmd ctx h r)
        (fun err h => smooth → Rejected h err) []
      unfold createWp
      rw [wp_bind]
      exact wp_mono _ _ (fun r _ hcreated => ⟨r, rfl, hcreated⟩) (fun _ _ hrejected => hrejected)
        execute_created
  | _ => exact hfree _

end CreateOrderService

end ChickenOrder
