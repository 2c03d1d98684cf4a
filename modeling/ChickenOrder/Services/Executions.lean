import ChickenOrder.Services.Calls

/-!
# What an execution of `process` knows

An execution's own history tells how far it has come, whatever else happens in
between.  `executions` is the protocol of that: only the execution whose
`createOrder` inserted the row goes on to the point of sale, and an execution
that returns has met a duplicate or has completed the order.

The one answer a caller may rely on is that its row does not go away again;
`respects_executions` discharges it for every run of the system.

With it, a statement about what an execution has done at its end is a statement about its
history alone, and the induction over the run is done once for all of them.
-/

namespace ChickenOrder

open Interaction Interaction.Program

/-- The call is part of step 4's exchange with the point of sale.  No execution comes to one before
it has inserted its row. -/
def Op.FacesPos : Op → Prop
  | .consultBreaker _ => True
  | .postToPos _ => True
  | _ => False

namespace ProcessOrderService

/-- Step 2 has answered: `true` to the execution that inserted the row, `false` to one whose key was
taken. -/
def insertAnswered (payload : OrderJobPayload) (jobMeta : JobMeta) (inserted : Bool) : OrderEvent :=
  ⟨.repo (.createOrder (createParams payload jobMeta)), .ok inserted⟩

/-- The order was looked up and had no row.  For an execution that has inserted it this cannot
happen, as rows are never deleted. -/
def rowMissing (id : Uuid) : OrderEvent := ⟨.repo (.findById id), .ok none⟩

/-- The execution has committed the order's transition to `next`. -/
def HasMoved (payload : OrderJobPayload) (next : OrderStatus) (h : List OrderEvent) : Prop :=
  ∃ p : TransitionParams, p.orderId = payload.orderId ∧ p.nextStatus = next ∧
    (⟨.repo (.transitionStatus p), .ok ()⟩ : OrderEvent) ∈ h

/-- What an execution that returns has seen: that its key was taken, or its own row through to the
last transition. -/
def Finished (payload : OrderJobPayload) (jobMeta : JobMeta) (h : List OrderEvent) : Prop :=
  insertAnswered payload jobMeta false ∈ h ∨
    insertAnswered payload jobMeta true ∈ h ∧ HasMoved payload .completed h

/-- The protocol of executions.  Other requests are free.  The environment promises that an inserted
row stays. -/
def executions : Protocol Op.Reply OrderError Outcome Request where
  admits := fun _ => True
  allows := fun q h e => ∀ payload jobMeta, q = .process payload jobMeta →
    insertAnswered payload jobMeta true ∈ h → e ≠ rowMissing payload.orderId
  issues := fun q h o => ∀ payload jobMeta, q = .process payload jobMeta →
    o.FacesPos → insertAnswered payload jobMeta true ∈ h
  returns := fun q h _ => ∀ payload jobMeta, q = .process payload jobMeta →
    Finished payload jobMeta h
  throws := fun _ _ _ => True

section Follows

variable {payload : OrderJobPayload} {jobMeta : JobMeta}

/-- `wp` against the protocol of an execution. -/
abbrev execWp (payload : OrderJobPayload) (jobMeta : JobMeta) {α : Type} (p : Service α)
    (Q : α → List OrderEvent → Prop) (h : List OrderEvent) : Prop :=
  p.wp (executions.record (.process payload jobMeta))
    (fun o h => executions.issues (.process payload jobMeta) h o) Q (fun _ _ => True) h

/-- A call that does not face the point of sale can be made at any time. -/
theorem issues_of_not_facesPos {q : Request} {h : List OrderEvent} {o : Op} (ho : ¬ o.FacesPos) :
    executions.issues q h o :=
  fun _ _ _ hfaces => absurd hfaces ho

/-- An execution that has inserted its row may make any call. -/
theorem issues_of_inserted {h : List OrderEvent} (hins : insertAnswered payload jobMeta true ∈ h)
    (o : Op) : executions.issues (.process payload jobMeta) h o := by
  intro payload' jobMeta' hq _
  cases hq
  exact hins

/-- An answer to an execution that has inserted its row is not that the row is
missing. -/
theorem not_missing {h h' : List OrderEvent} {o : Op} {r : Except OrderError (Op.Reply o)}
    (hins : insertAnswered payload jobMeta true ∈ h)
    (hrec : executions.record (.process payload jobMeta) o h r h') :
    (⟨o, r⟩ : OrderEvent) ≠ rowMissing payload.orderId :=
  hrec.1 payload jobMeta rfl hins

/-- Between the insertion and the last transition an execution only remembers the insertion.
Everything after step 2 starts from this. -/
theorem execWp_inserted {α : Type} {p : Service α} {h : List OrderEvent}
    (hins : insertAnswered payload jobMeta true ∈ h) :
    execWp payload jobMeta p (fun _ h' => insertAnswered payload jobMeta true ∈ h') h := by
  have hkeep : ∀ o (h : List OrderEvent) r h', insertAnswered payload jobMeta true ∈ h →
      executions.record (.process payload jobMeta) o h r h' →
      insertAnswered payload jobMeta true ∈ h' := by
    rintro o h r h' hins ⟨-, rfl⟩
    exact List.mem_cons_of_mem _ hins
  exact wp_mono _ _ (fun _ _ hQ => hQ) (fun _ _ _ => trivial)
    (wp_always _ _ (fun o h hins => issues_of_inserted hins o) hkeep p hins)

/-- Recording a dispatch is behind an insert of the execution's own. -/
theorem recordDispatch_finished (posResult : PosOrderResult) {h : List OrderEvent}
    (hins : insertAnswered payload jobMeta true ∈ h) :
    execWp payload jobMeta (recordDispatch payload jobMeta posResult)
      (fun _ h' => Finished payload jobMeta h') h := by
  -- the answered insertion stays in the history, and with it every later call is allowed
  have hkeep : ∀ {h h' : List OrderEvent} {o : Op} {r : Except OrderError (Op.Reply o)},
      executions.record (.process payload jobMeta) o h r h' →
      insertAnswered payload jobMeta true ∈ h → insertAnswered payload jobMeta true ∈ h' := by
    rintro h h' o r ⟨-, rfl⟩ hmem
    exact List.mem_cons_of_mem _ hmem
  have hguard : ∀ {h : List OrderEvent}, insertAnswered payload jobMeta true ∈ h →
      ∀ o, executions.issues (.process payload jobMeta) h o := issues_of_inserted
  unfold execWp recordDispatch
  simp only [OrderRepository.findById_eq, OrderRepository.transition_eq, wp_bind, wp_perform]
  refine ⟨hguard hins _, ?_, fun _ _ _ => trivial⟩
  intro saved h₁ hrec₁
  have hins₁ := hkeep hrec₁ hins
  cases saved with
  -- the row was inserted, so it is found
  | none => exact absurd rfl (not_missing hins hrec₁)
  | some saved =>
      simp only [wp_bind, wp_perform]
      refine ⟨hguard hins₁ _, ?_, fun _ _ _ => trivial⟩
      intro _ h₂ hrec₂
      have hins₂ := hkeep hrec₂ hins₁
      refine ⟨hguard hins₂ _, ?_, fun _ _ _ => trivial⟩
      intro sent h₃ hrec₃
      have hins₃ := hkeep hrec₃ hins₂
      cases sent with
      | none => exact absurd rfl (not_missing hins₂ hrec₃)
      | some sent =>
          rw [wp_perform]
          refine ⟨hguard hins₃ _, ?_, fun _ _ _ => trivial⟩
          intro _ h₄ hrec₄
          -- the last answered call is the transition to `COMPLETED`
          refine .inr ⟨hkeep hrec₄ hins₃,
            transitionParams payload.orderId (.worker .sentToPos) .completed sent.row.version jobMeta,
            rfl, rfl, ?_⟩
          rw [hrec₄.2]
          exact List.mem_cons_self

theorem sendToPos_finished {h : List OrderEvent}
    (hins : insertAnswered payload jobMeta true ∈ h) :
    execWp payload jobMeta (sendToPos payload jobMeta)
      (fun _ h' => Finished payload jobMeta h') h := by
  unfold execWp sendToPos
  rw [wp_bind]
  refine wp_mono _ _ (fun store h₁ hins₁ => ?_) (fun _ _ _ => trivial) (execWp_inserted hins)
  cases store with
  | none => trivial
  | some store =>
      dsimp only
      split
      · trivial
      · rw [wp_bind]
        exact wp_mono _ _ (fun posResult h₂ hins₂ => recordDispatch_finished posResult hins₂)
          (fun _ _ _ => trivial) (execWp_inserted hins₁)

/-- An execution that returns has inserted its order, or has found its key taken. -/
theorem processWithLock_finished (h : List OrderEvent) :
    execWp payload jobMeta (processWithLock payload jobMeta)
      (fun _ h' => Finished payload jobMeta h') h := by
  unfold execWp processWithLock
  rw [wp_bind, OrderRepository.create_eq, wp_bind, wp_perform]
  refine ⟨issues_of_not_facesPos id, ?_, fun _ _ _ => trivial⟩
  rintro inserted h₁ ⟨-, rfl⟩
  have hanswer : insertAnswered payload jobMeta inserted ∈
    (⟨.repo (.createOrder (createParams payload jobMeta)), .ok inserted⟩ :: h : List OrderEvent) :=
    List.mem_cons_self
  cases inserted with
  | false => exact .inl hanswer
  | true =>
      simp only [if_true, wp_perform]
      refine ⟨issues_of_inserted hanswer _, ?_, fun _ _ _ => trivial⟩
      intro order h₂ hrec₂
      cases order with
      | none => exact absurd rfl (not_missing hanswer hrec₂)
      | some order =>
          have hins : insertAnswered payload jobMeta true ∈ h₂ := by
            rw [hrec₂.2]
            exact List.mem_cons_of_mem _ hanswer
          rw [wp_bind]
          exact wp_mono _ _ (fun _ _ hins => sendToPos_finished hins) (fun _ _ _ => trivial)
            (execWp_inserted hins)

/-- Once an execution has inserted its row or met a duplicate, it stays so. -/
theorem Finished.cons {h : List OrderEvent} (hfin : Finished payload jobMeta h) (e : OrderEvent) :
    Finished payload jobMeta (e :: h) := by
  rcases hfin with hdup | ⟨hins, p, hid, hnext, hmem⟩
  · exact .inl (List.mem_cons_of_mem _ hdup)
  · exact .inr ⟨List.mem_cons_of_mem _ hins, p, hid, hnext, List.mem_cons_of_mem _ hmem⟩

/-- The same of `process`, whose lock makes no difference to it. -/
theorem process_finished (h : List OrderEvent) :
    execWp payload jobMeta (process payload jobMeta) (fun _ h' => Finished payload jobMeta h') h := by
  unfold execWp process DistributedLockService.acquireOrThrow DistributedLockService.acquire
    DistributedLockService.release
  simp only [wp_bind, wp_perform, wp_tryFinally]
  refine ⟨issues_of_not_facesPos id, ?_, fun _ _ _ => trivial⟩
  rintro acquired h₁ -
  cases acquired with
  | false => trivial
  | true =>
      -- the release adds one event on either way out
      rw [if_pos rfl, wp_return]
      refine wp_mono _ _ (fun _ h₂ hfin => ?_) (fun _ h₂ _ => ?_) (processWithLock_finished h₁)
      · refine ⟨issues_of_not_facesPos id, ?_, fun _ _ _ => trivial⟩
        rintro _ h₃ ⟨-, rfl⟩
        exact hfin.cons _
      · exact ⟨issues_of_not_facesPos id, fun _ _ _ => trivial, fun _ _ _ => trivial⟩

end Follows

/-- **Every program follows the protocol of executions.** With `Protocol.Respects` this says it of
every thread of every run. -/
theorem follows_executions (config : AppConfig) (q : Request) :
    executions.Follows q (q.program config) [] := by
  by_cases hq : ∃ payload jobMeta, q = .process payload jobMeta
  · obtain ⟨payload, jobMeta, rfl⟩ := hq
    show execWp payload jobMeta (process payload jobMeta >>= fun _ => return .done)
      (fun a h => executions.returns (.process payload jobMeta) h a) []
    unfold execWp
    rw [wp_bind]
    refine wp_mono _ _ (fun _ h hfin => ?_) (fun _ _ _ => trivial) (process_finished [])
    rintro payload' jobMeta' hq
    cases hq
    exact hfin
  · have hfree : ∀ payload jobMeta, q ≠ .process payload jobMeta :=
      fun payload jobMeta h => hq ⟨payload, jobMeta, h⟩
    exact wp_mono _ _ (fun _ _ _ payload jobMeta h => absurd h (hfree payload jobMeta))
      (fun _ _ _ => trivial)
      (wp_always _ _ (fun _ _ _ payload jobMeta h => absurd h (hfree payload jobMeta))
        (fun _ _ _ _ _ _ => trivial) _ trivial)

end ProcessOrderService

/-! ## What an answered insertion leaves behind -/

/-- An answered `createOrder`: the key leads to a row, which is the caller's own if
it inserted one. -/
def KeyTaken (p : CreateOrderParams) (inserted : Bool) (db : Database) : Prop :=
  ∃ row, db.findByKey? p.idempotencyKey = some row ∧ (inserted = true → row.id = p.id)

/-- After `createOrder` the key is taken: by this order if it was inserted, and then it was free
before. -/
theorem Database.createOrder_keyTaken {db db' : Database} {p : CreateOrderParams} {now : Time}
    {inserted : Bool} (h : db.createOrder p now = .ok (inserted, db')) :
    KeyTaken p inserted db' ∧ (inserted = true → db.findByKey? p.idempotencyKey = none) := by
  obtain ⟨rfl, rfl, row, hrow⟩ | ⟨rfl, row, hpk, huk, hproposed, horders, -, -⟩ :=
    Database.createOrder_eq_ok h
  · exact ⟨⟨row, hrow, nofun⟩, nofun⟩
  · have hproposes := Database.proposes_of_toRow hproposed
    unfold KeyTaken Database.findByKey?
    rw [hproposes.key, horders]
    refine ⟨⟨row, ?_, fun _ => hproposes.id⟩, fun _ => ?_⟩
    · show (db.orders.insert row hpk huk).findUnique? row.idempotencyKey = some row
      rw [Relational.Table.findUnique?_insert, if_pos rfl]
    · exact Relational.Table.findUnique?_eq_none_iff.mpr huk

/-! An answered call on the whole world is an answered call on its database. -/

section Answered

variable {c : Choice} {w : World}

/-- A call of the repository is its one step on the database, and leaves the rest of the world. -/
theorem Op.exec_repo (o : RepoOp) :
    Op.exec (.repo o) c w = ((o.exec ⟨c.fault, c.now⟩ w.db).1,
      { w with db := (o.exec ⟨c.fault, c.now⟩ w.db).2 }) := by
  show c.fault.apply .other w (Op.effect (.repo o) c w) = _
  unfold RepoOp.exec
  cases c.fault with
  | none => rfl
  | rejected reason => rfl
  | unacknowledged reason => rfl

/-- An answered insert is one that the database has made. -/
theorem Op.exec_createOrder_eq_ok {p : CreateOrderParams} {inserted : Bool}
    (h : (Op.exec (.repo (.createOrder p)) c w).1 = .ok inserted) :
    w.db.createOrder p c.now = .ok (inserted, (Op.exec (.repo (.createOrder p)) c w).2.db) := by
  rw [Op.exec_repo] at h ⊢
  have hanswer : (RepoOp.exec (.createOrder p) ⟨c.fault, c.now⟩ w.db).1 = .ok inserted := h
  have hspec := RepoOp.exec_createOrder_eq_ok hanswer
  exact hspec

/-- An answered transition is one that the database has made. -/
theorem Op.exec_transitionStatus_eq_ok {p : TransitionParams} {done : Unit}
    (h : (Op.exec (.repo (.transitionStatus p)) c w).1 = .ok done) :
    w.db.transitionStatus p c.now = .ok (Op.exec (.repo (.transitionStatus p)) c w).2.db := by
  rw [Op.exec_repo] at h ⊢
  have hanswer : (RepoOp.exec (.transitionStatus p) ⟨c.fault, c.now⟩ w.db).1 = .ok done := h
  have hspec := RepoOp.exec_transitionStatus_eq_ok hanswer
  exact hspec

/-- Answered or not, the transaction has committed or changed nothing.  A lost answer leaves both
open. -/
theorem Op.exec_createOrder_db (p : CreateOrderParams) :
    (Op.exec (.repo (.createOrder p)) c w).2.db = w.db ∨
      ∃ inserted, w.db.createOrder p c.now =
        .ok (inserted, (Op.exec (.repo (.createOrder p)) c w).2.db) := by
  refine Op.exec_invariant (I := fun w' => w'.db = w.db ∨
    ∃ inserted, w.db.createOrder p c.now = .ok (inserted, w'.db)) (.inl rfl) ?_
  show (settle w.db (w.db.createOrder p c.now)).2 = w.db ∨ ∃ inserted,
    w.db.createOrder p c.now = .ok (inserted, (settle w.db (w.db.createOrder p c.now)).2)
  rcases w.db.createOrder p c.now with e | ⟨inserted, db'⟩
  · exact .inl rfl
  · exact .inr ⟨inserted, rfl⟩

/-- Answered or not, the database is as before or has made the transition. -/
theorem Op.exec_transitionStatus_db (p : TransitionParams) :
    (Op.exec (.repo (.transitionStatus p)) c w).2.db = w.db ∨
      w.db.transitionStatus p c.now = .ok (Op.exec (.repo (.transitionStatus p)) c w).2.db := by
  refine Op.exec_invariant (I := fun w' => w'.db = w.db ∨
    w.db.transitionStatus p c.now = .ok w'.db) (.inl rfl) ?_
  show (settle w.db (quietly (w.db.transitionStatus p c.now))).2 = w.db ∨
    w.db.transitionStatus p c.now =
      .ok (settle w.db (quietly (w.db.transitionStatus p c.now))).2
  rcases w.db.transitionStatus p c.now with e | db'
  · exact .inl rfl
  · exact .inr rfl

/-- A transition that fails has committed only if its answer was lost. -/
theorem Op.exec_transitionStatus_db_of_error {p : TransitionParams} {e : OrderError} {lossy : Prop}
    (hc : c.fault.Within True lossy)
    (h : (Op.exec (.repo (.transitionStatus p)) c w).1 = .error e) :
    (Op.exec (.repo (.transitionStatus p)) c w).2.db = w.db ∨
      lossy ∧ w.db.transitionStatus p c.now =
        .ok (Op.exec (.repo (.transitionStatus p)) c w).2.db := by
  rcases Op.exec_transitionStatus_db (c := c) (w := w) p with hsame | hcommitted
  · exact .inl hsame
  · rcases Op.exec_of_within hc (.repo (.transitionStatus p)) w with hsame | heffect | hlossy
    · rw [hsame]
      exact .inl rfl
    · rw [heffect] at h
      change (settle w.db (quietly (w.db.transitionStatus p c.now))).1 = .error e at h
      rw [hcommitted] at h
      cases h
    · exact .inr ⟨hlossy, hcommitted⟩

theorem Op.exec_findById_eq_ok {id : Uuid} {found : Option OrderEntity}
    (h : (Op.exec (.repo (.findById id)) c w).1 = .ok found) : w.db.findOrder? id = found := by
  rw [Op.exec_eq_effect_of_ok h] at h
  exact Except.ok.inj h

end Answered

section Runs

variable {config : AppConfig} {ok : OrderLabel → OrderPool → Prop} {P₀ P : OrderPool}

/-- A taken key stays taken, by the same order: rows are not deleted, and no statement changes a
key. -/
theorem KeyTaken.step {p : CreateOrderParams} {inserted : Bool} {ℓ : OrderLabel} {P' : OrderPool}
    (h : KeyTaken p inserted P.world.db) (hstep : (orderSystem config).step ℓ P = some P') :
    KeyTaken p inserted P'.world.db := by
  obtain ⟨row, hrow, hid⟩ := h
  have hchange : ∀ id, OrderChange (fun _ _ => True) P.world.db P'.world.db id :=
    fun id => (orderSystem_step_change hstep id).mono fun _ _ _ => trivial
  obtain ⟨row', hrow', hid'⟩ := OrderChange.findByKey?_persists hchange hrow
  exact ⟨row', hrow', fun hins => hid'.trans (hid hins)⟩

/-- **Insertions last.** In every reachable pool the key of an answered `createOrder` is taken, and
by its own order if it inserted one. -/
theorem keyTaken_of_reaches (hinit : ∀ i, P₀.threads i = none)
    (h : (orderSystem config).Reaches ok P₀ P) {i : ℕ} {t : OrderThread}
    (ht : P.threads i = some t) {p : CreateOrderParams} {inserted : Bool}
    (hmem : (⟨.repo (.createOrder p), .ok inserted⟩ : OrderEvent) ∈ t.hist) :
    KeyTaken p inserted P.world.db := by
  refine System.facts_of_reaches
    (fun e w => ∀ p inserted, e = (⟨.repo (.createOrder p), .ok inserted⟩ : OrderEvent) →
      KeyTaken p inserted w.db) hinit ?_ ?_ h i t ht _ hmem p inserted rfl
  · intro P i c t o k _ _ _ _ p inserted he
    obtain ⟨rfl, hanswer⟩ := Event.mk.inj he
    exact (Database.createOrder_keyTaken (Op.exec_createOrder_eq_ok (eq_of_heq hanswer))).1
  · intro P ℓ P' e _ _ hstep hold p inserted he
    exact (hold p inserted he).step hstep

/-- The environment of a run gives the answers executions rely on. -/
theorem respects_executions (hinit : ∀ i, P₀.threads i = none) :
    ProcessOrderService.executions.Respects (orderSystem config) ok P₀ where
  admits := fun _ _ _ _ => trivial
  allows := by
    intro P i c t o k hreach _ ht _ payload jobMeta _ hins hmissing
    obtain ⟨row, hrow, hid⟩ := keyTaken_of_reaches hinit hreach ht hins
    have hfind := (Database.findByKey?_eq_some_iff.mp hrow).2
    rw [hid rfl] at hfind
    obtain ⟨rfl, hanswer⟩ := Event.mk.inj hmissing
    have hnone := Op.exec_findById_eq_ok (eq_of_heq hanswer)
    unfold Database.findOrder? at hnone
    rw [show P.world.db.orders.find? payload.orderId = some row from hfind] at hnone
    cases hnone

end Runs

/-- The execution a thread runs, and how far it is. -/
def executionOf (P : OrderPool) (j : ℕ) : Option (OrderJobPayload × JobMeta × Phase) :=
  (P.threads j).bind fun t =>
    match t.request with
    | .process payload jobMeta => some (payload, jobMeta, t.phase)
    | _ => none

/-- An execution is a thread of a job, in the phase it is in. -/
theorem executionOf_eq_some {P : OrderPool} {j : ℕ} {payload : OrderJobPayload}
    {jobMeta : JobMeta} {phase : Phase} :
    executionOf P j = some (payload, jobMeta, phase) ↔
      ∃ t, P.threads j = some t ∧ t.request = .process payload jobMeta ∧ t.phase = phase := by
  unfold executionOf
  constructor
  · intro h
    obtain ⟨t, ht, hrequest⟩ := Option.bind_eq_some_iff.mp h
    split at hrequest
    · rename_i hreq
      cases hrequest
      exact ⟨t, ht, hreq, rfl⟩
    · cases hrequest
  · rintro ⟨t, ht, hreq, rfl⟩
    rw [ht, Option.bind_some, hreq]

end ChickenOrder
