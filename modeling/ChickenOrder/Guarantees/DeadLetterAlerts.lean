import ChickenOrder.Guarantees.Provenance
import ChickenOrder.Services.DlqWorker

/-!
# Operators and dead letters

A job that the queue gives up on is put into the dead letter queue and reported, once by the
failure handler and once by the worker of that queue.  `alert_is_of_dead_letter`: nothing else is
ever reported.  `dead_letter_is_reported`: what is reported on a dead letter has been, once the
handler or the worker is done, if there is anywhere to report it to.

The system is the order system with any number of workers of the dead letter queue beside its
requests.  A report is an answered call of one of the two, and both know of the job they report:
the handler has just added it, the worker was handed it (`reports`).
-/

namespace ChickenOrder

open Interaction Interaction.Program
open ProcessOrderService

/-- The failure handler has put the job into the dead letter queue. -/
def letterSent (payload : OrderJobPayload) (error : OrderError) (jobMeta : JobMeta) : OrderEvent :=
  ⟨.dlqQueueAdd payload error.message jobMeta.attemptsMade, .ok ()⟩

/-- Who reports what, and when: the failure handler after it has put the job into the dead letter
queue, and a worker of that queue for the job it was handed. -/
def reports (config : AppConfig) : Protocol Op.Reply OrderError Outcome (Request ⊕ DlqJob) where
  admits := fun _ => True
  allows := fun _ _ _ => True
  issues := fun q h o => ∀ alert, o = .postAlert alert →
    (∃ payload error jobMeta, q = .inl (.handleFailure payload error jobMeta) ∧
      goesToDlq error jobMeta.attemptsMade = true ∧
      alert = failureAlert config payload error jobMeta ∧ letterSent payload error jobMeta ∈ h) ∨
    ∃ job, q = .inr job ∧ alert = DlqProcessor.jobAlert job
  returns := fun q h _ => config.slackWebhookUrl ≠ "" →
    (∀ payload error jobMeta, q = .inl (.handleFailure payload error jobMeta) →
      goesToDlq error jobMeta.attemptsMade = true → letterSent payload error jobMeta ∈ h ∧
        ∃ r, (⟨.postAlert (failureAlert config payload error jobMeta), r⟩ : OrderEvent) ∈ h) ∧
    ∀ job, q = .inr job →
      ∃ r, (⟨.postAlert (DlqProcessor.jobAlert job), r⟩ : OrderEvent) ∈ h
  throws := fun _ _ _ => True

section Follows

variable {config : AppConfig} {q : Request ⊕ DlqJob} {h : List OrderEvent}

/-- `wp` against the reports of a request. -/
abbrev reportWp (config : AppConfig) (q : Request ⊕ DlqJob) {α : Type} (p : Service α)
    (Q : α → List OrderEvent → Prop) (E : OrderError → List OrderEvent → Prop)
    (h : List OrderEvent) : Prop :=
  p.wp ((reports config).record q) (fun o h => (reports config).issues q h o) Q E h

/-- Programs that report nothing. -/
theorem reportWp_of_silent {α : Type} {p : Service α}
    (hsilent : p.OnlyCalls fun o => ∀ alert, o ≠ .postAlert alert) :
    reportWp config q p (fun _ _ => True) (fun _ _ => True) h :=
  wp_invariant _ _ (fun _ => True) (fun _ _ ho _ alert halert => absurd halert (ho alert))
    (fun _ _ _ _ _ _ _ => trivial) hsilent trivial

/-- A report is posted if there is anywhere to post it to; that it fails is only logged, so that a
handler may return without its report having arrived. -/
theorem sendDlqAlert_reports {alert : AlertPayload}
    (hissued : (reports config).issues q h (.postAlert alert)) :
    reportWp config q (NotificationService.sendDlqAlert config alert)
      (fun _ h' => h <:+ h' ∧ (config.slackWebhookUrl ≠ "" →
        ∃ r, (⟨.postAlert alert, r⟩ : OrderEvent) ∈ h')) (fun _ _ => False) h := by
  unfold reportWp NotificationService.sendDlqAlert
  rw [wp_ite]
  refine ⟨fun hnowhere => ⟨List.suffix_rfl, fun hslack => absurd hnowhere hslack⟩, fun _ => ?_⟩
  rw [wp_tryCatch, wp_perform]
  refine ⟨hissued, ?_, ?_⟩
  · rintro - h₁ ⟨-, rfl⟩
    exact ⟨List.suffix_cons _ _, fun _ => ⟨_, List.mem_cons_self⟩⟩
  · rintro err h₁ ⟨-, rfl⟩
    exact ⟨List.suffix_cons _ _, fun _ => ⟨_, List.mem_cons_self⟩⟩

/-- The transition to `FAILED` reports nothing. -/
theorem markFailed_silent (payload : OrderJobPayload) (error : OrderError) (jobMeta : JobMeta) :
    (markFailed payload error jobMeta).OnlyCalls fun o => ∀ alert, o ≠ .postAlert alert := by
  have hrepo : ∀ r alert, Op.repo r ≠ .postAlert alert := fun _ _ h => by cases h
  refine .tryCatch (.bind (OrderRepository.findById_onlyCalls (hrepo _)) fun order => ?_) fun err => ?_
  · split
    · trivial
    · exact OrderRepository.transition_onlyCalls (hrepo _)
  · split <;> trivial

/-- The branch of the DLQ reports the job that it has put there. -/
theorem moveToDlq_reports {payload : OrderJobPayload} {error : OrderError} {jobMeta : JobMeta}
    (hbranch : goesToDlq error jobMeta.attemptsMade = true) :
    reportWp config (.inl (.handleFailure payload error jobMeta))
      (moveToDlq config payload error jobMeta)
      (fun _ h' => letterSent payload error jobMeta ∈ h' ∧ (config.slackWebhookUrl ≠ "" →
        ∃ r, (⟨.postAlert (failureAlert config payload error jobMeta), r⟩ : OrderEvent) ∈ h'))
      (fun _ _ => True) h := by
  unfold reportWp moveToDlq OrderQueueService.publishToDlq
  rw [wp_bind]
  refine wp_mono _ _ (fun _ h₁ _ => ?_) (fun _ _ _ => trivial)
    (reportWp_of_silent (markFailed_silent payload error jobMeta))
  rw [wp_bind]
  have hmark : (OrderRepository.markDlq payload.orderId error.message).OnlyCalls
      fun o => ∀ alert, o ≠ .postAlert alert := .embed Op.repo (.perform fun _ h => by cases h)
  refine wp_mono _ _ (fun _ h₂ _ => ?_) (fun _ _ _ => trivial) (reportWp_of_silent hmark)
  rw [wp_bind, wp_perform]
  have hadd : (reports config).issues (.inl (.handleFailure payload error jobMeta)) h₂
      (.dlqQueueAdd payload error.message jobMeta.attemptsMade) := by
    intro alert halert
    cases halert
  refine ⟨hadd, ?_, fun _ _ _ => trivial⟩
  rintro - h₃ ⟨-, rfl⟩
  have hpost : (reports config).issues (.inl (.handleFailure payload error jobMeta))
      (letterSent payload error jobMeta :: h₂)
      (.postAlert (failureAlert config payload error jobMeta)) := by
    intro alert halert
    cases halert
    exact .inl ⟨payload, error, jobMeta, rfl, hbranch, rfl, List.mem_cons_self⟩
  exact wp_mono _ _ (fun _ _ hreported => ⟨hreported.1.subset List.mem_cons_self, hreported.2⟩)
    (fun _ _ _ => trivial) (sendDlqAlert_reports hpost)

/-- Only the failure handler and the worker of the dead letter queue report. -/
theorem Request.reportsNothing (config : AppConfig) {q : Request}
    (hother : ∀ payload error jobMeta, q = .handleFailure payload error jobMeta →
      goesToDlq error jobMeta.attemptsMade = false) :
    (q.program config).OnlyCalls fun o => ∀ alert, o ≠ .postAlert alert := by
  have hall := q.onlyCalls config
  cases q with
  | handleFailure payload error jobMeta =>
      refine .bind ?_ fun _ => trivial
      unfold ProcessOrderService.handleFailure
      rw [if_neg (by rw [hother payload error jobMeta rfl]; decide)]
      exact .embed Op.repo (.perform fun _ h => by cases h)
  | _ =>
      refine hall.mono fun o ho alert halert => ?_
      subst halert
      exact ho

/-- Every request and every worker keeps to this. -/
theorem follows_reports (config : AppConfig) (q : Request ⊕ DlqJob) :
    (reports config).Follows q ((dlqSystem config).program q) [] := by
  cases q with
  -- a worker of the dead letter queue alerts for the job it was given
  | inr job =>
      have hpost : (reports config).issues (.inr job) [] (.postAlert (DlqProcessor.jobAlert job)) := by
        intro alert halert
        cases halert
        exact .inr ⟨job, rfl, rfl⟩
      show reportWp config (.inr job) (DlqProcessor.process config job >>= fun _ =>
        return Outcome.done) _ (fun _ _ => True) []
      unfold reportWp
      rw [wp_bind]
      refine wp_mono _ _ (fun _ h hreported => ?_) (fun _ _ _ => trivial) (sendDlqAlert_reports hpost)
      intro hslack
      refine ⟨fun _ _ _ hq _ => (by cases hq), ?_⟩
      rintro job' hjob
      cases hjob
      exact hreported.2 hslack
  | inl q =>
      -- a handler that gives up reports; every other program sends no alert
      by_cases hgives : ∃ payload error jobMeta, q = .handleFailure payload error jobMeta ∧
          goesToDlq error jobMeta.attemptsMade = true
      · obtain ⟨payload, error, jobMeta, rfl, hbranch⟩ := hgives
        show reportWp config _ (handleFailure config payload error jobMeta >>= fun _ =>
          return Outcome.done) _ (fun _ _ => True) []
        unfold reportWp handleFailure
        rw [if_pos hbranch, wp_bind]
        refine wp_mono _ _ (fun _ h hreported => ?_) (fun _ _ _ => trivial)
          (moveToDlq_reports hbranch)
        intro hslack
        refine ⟨?_, fun _ hq => by cases hq⟩
        rintro payload' error' jobMeta' hq -
        cases hq
        exact ⟨hreported.1, hreported.2 hslack⟩
      · have hsilent : reportWp config (.inl q) (q.program config) (fun _ _ => True)
            (fun _ _ => True) [] := by
          refine reportWp_of_silent (Request.reportsNothing config ?_)
          rintro payload error jobMeta rfl
          exact (Bool.not_eq_true _).mp fun hbranch => hgives ⟨payload, error, jobMeta, rfl, hbranch⟩
        refine wp_mono _ _ (fun _ h _ => ?_) (fun _ _ _ => trivial) hsilent
        intro _
        refine ⟨?_, fun _ hq => by cases hq⟩
        rintro payload error jobMeta hq hbranch
        exact absurd ⟨payload, error, jobMeta, Sum.inl.inj hq, hbranch⟩ hgives

end Follows

/-! ## Runs -/

section Runs

variable {config : AppConfig} {ok : DlqLabel → DlqPool → Prop} {P₀ P P' : DlqPool} {ℓ : DlqLabel}

/-- The protocol is kept in every run, as it relies on no answer. -/
theorem respects_reports : (reports config).Respects (dlqSystem config) ok P₀ where
  admits := fun _ _ _ _ => trivial
  allows := fun _ _ _ _ _ _ _ _ _ _ => trivial

/-- Nothing is taken out of the dead letter queue, and no report is taken back. -/
theorem dlq_grows (hstep : (dlqSystem config).step ℓ P = some P') :
    P.world.dlqQueue <+: P'.world.dlqQueue ∧ P.world.alerts <+: P'.world.alerts := by
  obtain ⟨i, q, rfl, -, rfl⟩ | ⟨i, c, t, o, k, rfl, -, -, rfl⟩ | ⟨e, w, rfl, hw, rfl⟩ :=
    (dlqSystem config).step_cases hstep
  · exact ⟨List.prefix_rfl, List.prefix_rfl⟩
  · show P.world.dlqQueue <+: (o.exec c P.world).2.dlqQueue ∧
      P.world.alerts <+: (o.exec c P.world).2.alerts
    constructor
    · obtain hsame | ⟨data, reason, attempts, -, hadded⟩ := o.exec_dlqQueue c P.world
      · rw [hsame]
      · rw [hadded]
        exact List.prefix_append _ _
    · obtain hsame | ⟨alert, -, hadded⟩ := o.exec_alerts c P.world
      · rw [hsame]
      · rw [hadded]
        exact List.prefix_append _ _
  · cases hw
    cases e with
    | expire e => cases e <;> exact ⟨List.prefix_rfl, List.prefix_rfl⟩
    | saveMenus upload fault => exact ⟨List.prefix_rfl, List.prefix_rfl⟩

/-- A job of the dead letter queue has the id of its order. -/
theorem dlqQueue_ids (hqueue : P₀.world.dlqQueue = []) (h : (dlqSystem config).Reaches ok P₀ P) :
    ∀ job ∈ P.world.dlqQueue, ∃ now, job.id = .dlq job.data.orderId now := by
  refine System.Reaches.world_invariant
    (I := fun w => ∀ job ∈ w.dlqQueue, ∃ now, job.id = .dlq job.data.orderId now) ?_ ?_ ?_ h
  · rw [hqueue]
    exact fun _ hjob => by cases hjob
  · intro P i c t o k _ _ _ _ hI
    show ∀ job ∈ (o.exec c P.world).2.dlqQueue, _
    obtain hsame | ⟨data, reason, attempts, -, hadded⟩ := o.exec_dlqQueue c P.world
    · rwa [hsame]
    · rw [hadded]
      exact List.forall_mem_append.mpr ⟨hI, List.forall_mem_singleton.mpr ⟨c.now, rfl⟩⟩
  · intro P e w _ hw hI
    cases hw
    cases e with
    | expire e => cases e <;> exact hI
    | saveMenus upload fault => exact hI

/-- **A dead letter stays in its queue.** Under its id there can be an earlier one of its order,
given up at the same time; then the queue keeps that one. -/
theorem mem_dlqQueue_of_letterSent (hinit : ∀ i, P₀.threads i = none)
    (hqueue : P₀.world.dlqQueue = []) (h : (dlqSystem config).Reaches ok P₀ P) {i : ℕ}
    {t : DlqThread} (ht : P.threads i = some t) {payload : OrderJobPayload} {error : OrderError}
    {jobMeta : JobMeta} (hsent : letterSent payload error jobMeta ∈ t.hist) :
    ∃ job ∈ P.world.dlqQueue, job.data.orderId = payload.orderId := by
  have hid : ∃ job ∈ P.world.dlqQueue, ∃ now, job.id = .dlq payload.orderId now := by
    refine System.facts_of_reaches (fun e w => ∀ payload error jobMeta,
      e = letterSent payload error jobMeta →
        ∃ job ∈ w.dlqQueue, ∃ now, job.id = .dlq payload.orderId now) hinit ?_ ?_ h i t ht _ hsent
      payload error jobMeta rfl
    · rintro P i c t o k - - - - payload error jobMeta hevent
      obtain ⟨rfl, hanswer⟩ := Event.mk.inj hevent
      have heffect := Op.exec_eq_effect_of_ok (eq_of_heq hanswer)
      show ∃ job ∈ (Op.exec (.dlqQueueAdd payload error.message jobMeta.attemptsMade) c
        P.world).2.dlqQueue, _
      rw [heffect]
      show ∃ job ∈ (P.world.dlqQueueAdd payload error.message jobMeta.attemptsMade c.now).dlqQueue, _
      unfold World.dlqQueueAdd
      split
      · rename_i htaken
        obtain ⟨job, hjob, hid⟩ := List.mem_map.mp htaken
        exact ⟨job, hjob, c.now, hid⟩
      · exact ⟨_, List.mem_append_right _ List.mem_cons_self, c.now, rfl⟩
    · intro P ℓ P' e _ _ hstep hI payload error jobMeta hevent
      obtain ⟨job, hjob, hid⟩ := hI payload error jobMeta hevent
      exact ⟨job, (dlq_grows hstep).1.subset hjob, hid⟩
  obtain ⟨job, hjob, now, hid⟩ := hid
  obtain ⟨now', hid'⟩ := dlqQueue_ids hqueue h job hjob
  exact ⟨job, hjob, (JobId.dlq.inj (hid'.symm.trans hid)).1⟩

/-- The alert is that of a dead letter.  Two parties send alerts, the failure handler that has moved
the job and the worker of the dead letter queue, and both name the job's order. -/
def IsOfDeadLetter (config : AppConfig) (P : DlqPool) (alert : AlertPayload) : Prop :=
  ∃ job ∈ P.world.dlqQueue, job.data.orderId = alert.orderId ∧
    ((∃ i t payload error jobMeta, P.threads i = some t ∧
        t.request = .inl (.handleFailure payload error jobMeta) ∧
        goesToDlq error jobMeta.attemptsMade = true ∧
        alert = failureAlert config payload error jobMeta) ∨
      alert = DlqProcessor.jobAlert job)

theorem IsOfDeadLetter.step (hstep : (dlqSystem config).step ℓ P = some P') {alert : AlertPayload}
    (h : IsOfDeadLetter config P alert) : IsOfDeadLetter config P' alert := by
  obtain ⟨job, hjob, horder, hsource⟩ := h
  refine ⟨job, (dlq_grows hstep).1.subset hjob, horder, hsource.imp_left ?_⟩
  rintro ⟨i, t, payload, error, jobMeta, ht, hrequest, hbranch, halert⟩
  obtain ⟨t', ht', hrequest', -⟩ := (dlqSystem config).step_persists hstep ht
  exact ⟨i, t', payload, error, jobMeta, ht', hrequest'.trans hrequest, hbranch, halert⟩

/-- What a worker of the dead letter queue works on is in the queue. -/
theorem mem_dlqQueue_of_worker (hinit : ∀ i, P₀.threads i = none)
    (h : (dlqSystem config).Reaches WorksOnDlq P₀ P) :
    ∀ i t job, P.threads i = some t → t.request = .inr job → job ∈ P.world.dlqQueue := by
  refine System.Reaches.invariant (I := fun P => ∀ i t job, P.threads i = some t →
    t.request = .inr job → job ∈ P.world.dlqQueue) (fun i t _ ht => by simp [hinit i] at ht) ?_ h
  intro P ℓ P' _ hI hok hstep i t job ht hrequest
  refine (dlq_grows hstep).1.subset ?_
  obtain hold | ⟨q, rfl, rfl⟩ | ⟨c, t₀, o, k, -, ht₀, -, -, rfl⟩ :=
    (dlqSystem config).step_threads hstep ht
  · exact hI i t job hold hrequest
  · exact hok job (congrArg Sum.getRight? hrequest)
  · exact hI i t₀ job ht₀ hrequest

/-- **Nothing but dead letters is reported.** In every run of the services with any number of
workers of the dead letter queue, each report on Slack is of a job in that queue, and made by its
handler or by a worker. -/
theorem alert_is_of_dead_letter (hinit : ∀ i, P₀.threads i = none)
    (hqueue : P₀.world.dlqQueue = []) (halerts : P₀.world.alerts = [])
    (h : (dlqSystem config).Reaches WorksOnDlq P₀ P) :
    ∀ alert ∈ P.world.alerts, IsOfDeadLetter config P alert := by
  -- by induction on the run; a step that posts an alert has kept to the protocol of reports
  refine System.Reaches.invariant
    (I := fun P => ∀ alert ∈ P.world.alerts, IsOfDeadLetter config P alert) ?_ ?_ h
  · rw [halerts]
    exact fun _ halert => by cases halert
  · intro P ℓ P' hreach hI _ hstep
    have hkept : ∀ alert, IsOfDeadLetter config P alert → IsOfDeadLetter config P' alert :=
      fun alert halert => halert.step hstep
    have hold : ∀ alert ∈ P.world.alerts, IsOfDeadLetter config P' alert :=
      fun alert halert => hkept alert (hI alert halert)
    obtain ⟨i, q, rfl, -, rfl⟩ | ⟨i, c, t, o, k, rfl, ht, hrest, rfl⟩ | ⟨e, w, rfl, hw, rfl⟩ :=
      (dlqSystem config).step_cases hstep
    · exact hold
    · show ∀ alert ∈ (o.exec c P.world).2.alerts, _
      obtain hsame | ⟨alert, rfl, hadded⟩ := o.exec_alerts c P.world
      · rwa [hsame]
      · rw [hadded]
        refine List.forall_mem_append.mpr ⟨hold, List.forall_mem_singleton.mpr (hkept alert ?_)⟩
        obtain ⟨-, hfollows⟩ := Protocol.follows_of_reaches respects_reports
          (fun q _ => follows_reports config q) hinit hreach i t ht
        rw [hrest] at hfollows
        obtain ⟨payload, error, jobMeta, hrequest, hbranch, rfl, hsent⟩ | ⟨job, hrequest, rfl⟩ :=
          hfollows.1 alert rfl
        · obtain ⟨job, hjob, horder⟩ := mem_dlqQueue_of_letterSent hinit hqueue hreach ht hsent
          exact ⟨job, hjob, horder,
            .inl ⟨i, t, payload, error, jobMeta, ht, hrequest, hbranch, rfl⟩⟩
        · exact ⟨job, mem_dlqQueue_of_worker hinit hreach i t job ht hrequest, rfl, .inr rfl⟩
    · cases hw
      cases e with
      | expire e => cases e <;> exact hold
      | saveMenus upload fault => exact hold

/-- Reports get through, whether their answers do or not.  Without this nothing can be said of what
an operator sees. -/
def ReportsGetThrough (ℓ : DlqLabel) (P : DlqPool) : Prop :=
  ∀ i c alert, ℓ = .act i c → ℓ.call? P = some (.postAlert alert) → ∀ reason, c.fault ≠ .rejected reason

/-- **Dead letters are reported**, by the time their handler or a worker of their queue is done, if
there is a webhook and reports get through. -/
theorem dead_letter_is_reported (hinit : ∀ i, P₀.threads i = none)
    (hqueue : P₀.world.dlqQueue = []) (hslack : config.slackWebhookUrl ≠ "")
    (h : (dlqSystem config).Reaches ReportsGetThrough P₀ P) {i : ℕ} {t : DlqThread}
    (ht : P.threads i = some t) {a : Outcome} (hreturned : t.Returned a) :
    (∀ payload error jobMeta, t.request = .inl (.handleFailure payload error jobMeta) →
      goesToDlq error jobMeta.attemptsMade = true →
        failureAlert config payload error jobMeta ∈ P.world.alerts ∧
        ∃ job ∈ P.world.dlqQueue, job.data.orderId = payload.orderId) ∧
    ∀ job, t.request = .inr job → DlqProcessor.jobAlert job ∈ P.world.alerts := by
  -- what was posted stays with Slack, as these runs refuse no alert
  have hposted : ∀ alert r, (⟨.postAlert alert, r⟩ : OrderEvent) ∈ t.hist →
      alert ∈ P.world.alerts := by
    intro alert r hmem
    refine System.facts_of_reaches (fun e w => ∀ alert, e.op = .postAlert alert → alert ∈ w.alerts)
      hinit ?_ ?_ h i t ht _ hmem alert rfl
    · rintro P i c t o k - hok ht hrest alert rfl
      have hcall : (Label.act i c : DlqLabel).call? P = some (.postAlert alert) :=
        Label.call?_act ht hrest c
      show alert ∈ (Op.exec (.postAlert alert) c P.world).2.alerts
      unfold Op.exec
      rw [if_neg (show ¬ (Op.postAlert alert).isLocal = true from Bool.false_ne_true)]
      cases hfault : c.fault with
      | none => exact List.mem_append_right _ List.mem_cons_self
      | rejected reason => exact absurd hfault (hok i c alert rfl hcall reason)
      | unacknowledged reason => exact List.mem_append_right _ List.mem_cons_self
    · intro P ℓ P' e _ _ hstep hI alert halert
      exact (dlq_grows hstep).2.subset (hI alert halert)
  -- what a call that returned has done, by its protocol
  obtain ⟨hhandler, hworker⟩ := Protocol.returns_of_reaches respects_reports
    (fun q _ => follows_reports config q) hinit h ht hreturned hslack
  refine ⟨fun payload error jobMeta hrequest hbranch => ?_, fun job hrequest => ?_⟩
  · obtain ⟨hsent, r, hmem⟩ := hhandler payload error jobMeta hrequest hbranch
    exact ⟨hposted _ r hmem, mem_dlqQueue_of_letterSent hinit hqueue h ht hsent⟩
  · obtain ⟨r, hmem⟩ := hworker job hrequest
    exact hposted _ r hmem

end Runs

/-! ### An order that is given up -/

/-- A configuration with a webhook, without which no alert is sent at all. -/
def alertConfig : AppConfig := { seedConfig with slackWebhookUrl := "webhook" }

/-- The store's point of sale is down. -/
def posDown : OrderError := .circuitBreakerOpen seedPayload.storeId

/-- The dead letter of the seeded order. -/
def deadJob : DlqJob := ⟨.dlq ⟨7⟩ 0, seedPayload, posDown.message, 2⟩

/-- The last attempt has failed, and a worker takes up the dead letter. -/
def alertRun : List DlqLabel :=
  .spawn 0 (.inl (.handleFailure seedPayload posDown (seedJob 2))) ::
    List.replicate 4 (.act 0 (.undisturbed 0)) ++
    [.spawn 1 (.inr deadJob), .act 1 (.undisturbed 1)]

theorem alertRun_replays : ((dlqSystem alertConfig).replay alertRun
    (Pool.init (World.init .seed))).isSome = true := by
  decide +kernel

/-- The pool once its alert is sent. -/
def alertPool : DlqPool :=
  (dlqSystem alertConfig).after alertRun (Pool.init (World.init .seed)) alertRun_replays

theorem alertRun_admitted : (dlqSystem alertConfig).Admitted WorksOnDlq alertRun
    (Pool.init (World.init .seed)) :=
  .of_check (by decide +kernel)

theorem alert_is_of_dead_letter_seed : alertPool.world.alerts.length = 2 ∧
    ∀ alert ∈ alertPool.world.alerts, IsOfDeadLetter alertConfig alertPool alert :=
  ⟨by decide +kernel, alert_is_of_dead_letter (fun _ => rfl) rfl rfl
    (.after alertRun_admitted alertRun_replays)⟩

theorem dead_letter_is_reported_seed : ∃ t a, alertPool.threads 1 = some t ∧
    t.request = .inr deadJob ∧ t.Returned a ∧
    DlqProcessor.jobAlert deadJob ∈ alertPool.world.alerts := by
  have hthread : ((alertPool.threads 1).map fun t => (t.request.getRight?, t.phase)) =
      some (some deadJob, .returned) := by
    decide +kernel
  obtain ⟨t, ht, hfacts⟩ := Option.map_eq_some_iff.mp hthread
  obtain ⟨hright, hphase⟩ := Prod.mk.inj hfacts
  have hrequest : t.request = .inr deadJob := Sum.getRight?_eq_some_iff.mp hright
  obtain ⟨a, hreturned⟩ := Thread.phase_eq_returned hphase
  have hthrough : (dlqSystem alertConfig).Admitted ReportsGetThrough alertRun
      (Pool.init (World.init .seed)) := by
    refine .of_mem (fun ℓ hℓ P i c alert hact _ reason => ?_) _
    subst hact
    have hquiet : c.fault = .none := by
      simp only [alertRun, List.mem_append, List.mem_cons, List.mem_replicate, List.not_mem_nil,
        Label.act.injEq] at hℓ
      rcases hℓ with (hℓ | ⟨-, -, rfl⟩) | hℓ | ⟨-, rfl⟩ | hℓ
      · cases hℓ
      · rfl
      · cases hℓ
      · rfl
      · cases hℓ
    rw [hquiet]
    exact fun h => by cases h
  obtain ⟨-, hworker⟩ := dead_letter_is_reported (fun _ => rfl) rfl (by decide)
    (.after hthrough alertRun_replays) ht hreturned
  exact ⟨t, a, ht, hrequest, hreturned, hworker deadJob hrequest⟩

end ChickenOrder
