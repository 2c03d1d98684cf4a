import ChickenOrder.Guarantees.Redrive
import ChickenOrder.Guarantees.Storability

/-!
# Where the data of the system comes from

An order passes through a queue, a table, a point of sale and possibly a second queue, and each
of them is written by another process.  `World.StemsFrom D` says that whatever rests in any of
them is the data of a job in `D`: the jobs themselves, the rows and items of an order, the
requests to a point of sale.  A call keeps it if what the call writes stems from `D` too,
`World.StemsFrom.exec`.

`provenance_of_reaches` takes for `D` the jobs that some API call has validated and published:
in every run in which the workers work on jobs of the queue, nothing else is ever stored, sent
or given up on.

The order of the sections is that of the argument: what a write leaves of an order
(`Database.KeepsOrders`), what data there is in each place, that no re-drive publishes, and then
the induction on the run.  Only the last uses which requests there are.
-/

namespace ChickenOrder

open Interaction Interaction.Program
open CreateOrderService ProcessOrderService

/-! ## What does not change of an order -/

/-- Two versions of one order: who ordered, where and for how much is the same.  Only the columns of
its progress may differ. -/
structure OrderRow.SameOrder (row row' : OrderRow) : Prop where
  id : row'.id = row.id
  key : row'.idempotencyKey = row.idempotencyKey
  traceId : row'.traceId = row.traceId
  storeId : row'.storeId = row.storeId
  userId : row'.userId = row.userId
  requestedAmount : row'.requestedAmount = row.requestedAmount
  calculatedAmount : row'.calculatedAmount = row.calculatedAmount

/-- A transition makes a version of the same order. -/
theorem OrderRow.sameOrder_transition (row : OrderRow) (p : TransitionParams) (now : Time) :
    row.SameOrder (row.transition p now) := by
  unfold transition setExtras stamp
  cases p.nextStatus with
  | queued => exact ⟨rfl, rfl, rfl, rfl, rfl, rfl, rfl⟩
  | saved => exact ⟨rfl, rfl, rfl, rfl, rfl, rfl, rfl⟩
  | sentToPos => exact ⟨rfl, rfl, rfl, rfl, rfl, rfl, rfl⟩
  | completed => exact ⟨rfl, rfl, rfl, rfl, rfl, rfl, rfl⟩
  | failed => exact ⟨rfl, rfl, rfl, rfl, rfl, rfl, rfl⟩

/-- What a write leaves of every order that there is: its items, and all of its row but the
columns of its progress. -/
structure Database.KeepsOrders (db db' : Database) : Prop where
  items : db'.orderItems = db.orderItems
  rows : ∀ id, db'.orders.find? id = db.orders.find? id ∨
    ∃ row row', db.orders.find? id = some row ∧ db'.orders.find? id = some row' ∧
      row.SameOrder row'

namespace Database

variable {db : Database}

theorem KeepsOrders.refl (db : Database) : db.KeepsOrders db := ⟨rfl, fun _ => .inl rfl⟩

/-- An update of one row, of columns of its progress. -/
theorem keepsOrders_of_modify {k : Uuid} {f : OrderRow → OrderRow}
    (hf : Relational.Table.KeepsKeys OrderRow.id OrderRow.idempotencyKey f)
    (hsame : ∀ row : OrderRow, row.SameOrder (f row)) (transitions : List TransitionRow) :
    db.KeepsOrders { db with orders := db.orders.modify k f hf, transitions := transitions } := by
  refine ⟨rfl, fun id => ?_⟩
  obtain hother | ⟨-, row, hrow, hupdated⟩ := db.find?_modify_cases (k := k) hf id
  · exact .inl hother
  · exact .inr ⟨row, f row, hrow, hupdated, hsame row⟩

end Database

/-- **What a repository call does to the orders**: it inserts one, or keeps them.  The other writers
only change the columns of progress. -/
theorem RepoOp.effect_orders (o : RepoOp) (now : Time) (db : Database) :
    (∃ p, o = .createOrder p ∧ db.createOrder p now = .ok (true, (o.effect now db).2)) ∨
      db.KeepsOrders (o.effect now db).2 := by
  -- only an insertion adds a row; the updates change columns that are not the order's own data
  cases o with
  | createOrder p =>
      show (∃ p', _ ∧ db.createOrder p' now = .ok (true, (settle db (db.createOrder p now)).2)) ∨
        db.KeepsOrders (settle db (db.createOrder p now)).2
      rcases hresult : db.createOrder p now with e | ⟨inserted, db'⟩
      · exact .inr (.refl db)
      · cases inserted with
        | true => exact .inl ⟨p, rfl, hresult⟩
        | false =>
            obtain ⟨-, rfl, -⟩ | ⟨hinserted, -⟩ := Database.createOrder_eq_ok hresult
            · exact .inr (.refl _)
            · cases hinserted
  | transitionStatus p =>
      right
      show db.KeepsOrders (settle db (quietly (db.transitionStatus p now))).2
      rcases hresult : db.transitionStatus p now with e | db'
      · exact .refl db
      · obtain ⟨s, row, -, -, -, -, -, rfl⟩ := Database.transitionStatus_eq_ok hresult
        exact Database.keepsOrders_of_modify _ (fun row => row.sameOrder_transition p now) _
  | findById orderId => exact .inr (.refl db)
  | markDlq orderId reason =>
      right
      show db.KeepsOrders (settle db (quietly (db.markDlq orderId reason now))).2
      rcases hresult : db.markDlq orderId reason now with e | db'
      · exact .refl db
      · obtain ⟨-, rfl⟩ := Database.markDlq_eq_ok_iff.mp hresult
        exact Database.keepsOrders_of_modify (f := fun row => row.sentToDlq reason now) _
          (fun _ => ⟨rfl, rfl, rfl, rfl, rfl, rfl, rfl⟩) db.transitions
  | incrementRetryCount orderId =>
      right
      show db.KeepsOrders (settle db (quietly (db.incrementRetryCount orderId))).2
      unfold Database.incrementRetryCount
      split
      · exact .refl db
      · split
        · exact .refl db
        · exact Database.keepsOrders_of_modify (f := OrderRow.retried) _
            (fun _ => ⟨rfl, rfl, rfl, rfl, rfl, rfl, rfl⟩) db.transitions

/-- The same of any call, whether it is lost or not. -/
theorem Op.exec_orders (o : Op) (c : Choice) (w : World) :
    (∃ p, o = .repo (.createOrder p) ∧
      w.db.createOrder p c.now = .ok (true, (o.exec c w).2.db)) ∨
      w.db.KeepsOrders (o.exec c w).2.db := by
  refine Op.exec_invariant (I := fun w' => (∃ p, o = .repo (.createOrder p) ∧
    w.db.createOrder p c.now = .ok (true, w'.db)) ∨ w.db.KeepsOrders w'.db) (.inr (.refl _)) ?_
  obtain ⟨r, rfl, hdb⟩ | ⟨k, new, -, -, hdb⟩ | hdb := o.effect_db c w
  · rw [hdb]
    obtain ⟨p, rfl, hcreated⟩ | hkeeps := r.effect_orders c.now w.db
    · exact .inl ⟨p, rfl, hcreated⟩
    · exact .inr hkeeps
  · rw [hdb]
    exact .inr (Database.keepsOrders_of_modify (f := fun row => row.patched new c.now) _
      (fun _ => ⟨rfl, rfl, rfl, rfl, rfl, rfl, rfl⟩) w.db.transitions)
  · rw [hdb]
    exact .inr (.refl _)

/-- **Everything a call does to the dead letter queue.** -/
theorem Op.exec_dlqQueue (o : Op) (c : Choice) (w : World) :
    (o.exec c w).2.dlqQueue = w.dlqQueue ∨
      ∃ data reason attempts, o = .dlqQueueAdd data reason attempts ∧ (o.exec c w).2.dlqQueue =
        w.dlqQueue ++ [⟨.dlq data.orderId c.now, data, reason, attempts⟩] := by
  refine Op.exec_invariant (I := fun w' => w'.dlqQueue = w.dlqQueue ∨
    ∃ data reason attempts, o = .dlqQueueAdd data reason attempts ∧ w'.dlqQueue =
      w.dlqQueue ++ [⟨.dlq data.orderId c.now, data, reason, attempts⟩]) (.inl rfl) ?_
  cases o with
  | dlqQueueAdd data reason attempts =>
      show (w.dlqQueueAdd data reason attempts c.now).dlqQueue = w.dlqQueue ∨ _
      by_cases hmem : JobId.dlq data.orderId c.now ∈ w.dlqQueue.map DlqJob.id
      · exact .inl (congrArg World.dlqQueue (if_pos hmem))
      · exact .inr ⟨data, reason, attempts, rfl, congrArg World.dlqQueue (if_neg hmem)⟩
  | patchStatus text orderId =>
      obtain ⟨db, hframe⟩ := w.patchStatus_frame text orderId c.now
      exact .inl (congrArg World.dlqQueue hframe :)
  | idempotencySetNx key orderId =>
      obtain ⟨keys, hframe⟩ := w.idempotencySetNx_frame key orderId
      exact .inl (congrArg World.dlqQueue hframe :)
  | lockSetNx orderId token =>
      obtain ⟨locks, hframe⟩ := w.lockSetNx_frame orderId token
      exact .inl (congrArg World.dlqQueue hframe :)
  | lockRelease orderId token =>
      obtain ⟨locks, hframe⟩ := w.lockRelease_frame orderId token
      exact .inl (congrArg World.dlqQueue hframe :)
  | mainQueueAdd data =>
      obtain ⟨queue, hframe⟩ := w.mainQueueAdd_frame data
      exact .inl (congrArg World.dlqQueue hframe :)
  | postToPos request =>
      obtain ⟨inbox, hframe⟩ := effect_postToPos_frame request c w
      exact .inl (congrArg World.dlqQueue hframe :)
  | _ => exact .inl rfl

/-! ## Data of jobs -/

/-- The row under which a job's order is stored, as far as it comes from the job: the columns read
the job's texts. -/
structure OrderJobPayload.RecordedAs (data : OrderJobPayload) (row : OrderRow) : Prop where
  id : row.id = data.orderId
  key : varcharColumn data.idempotencyKey = .ok row.idempotencyKey
  traceId : varcharColumn data.traceId = .ok row.traceId
  storeId : uuidColumn data.storeId = .ok row.storeId
  userId : uuidColumn? data.userId = .ok row.userId
  requestedAmount : amountTextColumn data.requestedAmount = .ok row.requestedAmount
  calculatedAmount : amountTextColumn data.calculatedAmount = .ok row.calculatedAmount

/-- Another version of the row is still the job's. -/
theorem OrderJobPayload.RecordedAs.of_same {data : OrderJobPayload} {row row' : OrderRow}
    (h : data.RecordedAs row) (hsame : row.SameOrder row') : data.RecordedAs row' where
  id := hsame.id.trans h.id
  key := hsame.key ▸ h.key
  traceId := hsame.traceId ▸ h.traceId
  storeId := hsame.storeId ▸ h.storeId
  userId := hsame.userId ▸ h.userId
  requestedAmount := hsame.requestedAmount ▸ h.requestedAmount
  calculatedAmount := hsame.calculatedAmount ▸ h.calculatedAmount

/-- What is kept under an order id is the order of a job in `D`; without a row there is nothing. -/
structure OrderRecord.StemsFrom (D : OrderJobPayload → Prop) (r : OrderRecord) : Prop where
  stored : ∀ row, r.row = some row → ∃ data, D data ∧ data.RecordedAs row ∧
    List.Forall₂ (OrderItem.StoredAs data.orderId) data.items r.items
  unowned : r.row = .none → r.items = []

/-- Whatever rests in the world is the data of a job in `D`. -/
structure World.StemsFrom (D : OrderJobPayload → Prop) (w : World) : Prop where
  queued : ∀ job ∈ w.mainQueue, D job.data
  dead : ∀ job ∈ w.dlqQueue, D job.data
  records : ∀ id, (w.db.recordOf id).StemsFrom D
  posted : ∀ post ∈ w.posInbox, ∃ data, D data ∧ post.1.order = domainOrder data

/-- What the call writes is the data of a job in `D`. -/
def Op.Uses (D : OrderJobPayload → Prop) : Op → Prop
  | .mainQueueAdd data => D data
  | .dlqQueueAdd data _ _ => D data
  | .repo (.createOrder p) => ∃ data jobMeta, D data ∧ p = createParams data jobMeta
  | .postToPos request => ∃ data, D data ∧ request.order = domainOrder data
  | _ => True

section StemsFrom

variable {D D' : OrderJobPayload → Prop} {w : World}

/-- What stems from fewer jobs stems from more. -/
theorem OrderRecord.StemsFrom.mono (hsub : ∀ data, D data → D' data) {r : OrderRecord}
    (h : r.StemsFrom D) : r.StemsFrom D' where
  stored := fun row hrow => (h.stored row hrow).imp fun data hdata => ⟨hsub data hdata.1, hdata.2⟩
  unowned := h.unowned

theorem World.StemsFrom.mono (hsub : ∀ data, D data → D' data) (h : w.StemsFrom D) :
    w.StemsFrom D' where
  queued := fun job hjob => hsub _ (h.queued job hjob)
  dead := fun job hjob => hsub _ (h.dead job hjob)
  records := fun id => (h.records id).mono hsub
  posted := fun post hpost => (h.posted post hpost).imp fun data hdata => ⟨hsub data hdata.1, hdata.2⟩

/-- A write that keeps the orders keeps where they stem from. -/
theorem Database.KeepsOrders.stemsFrom {db db' : Database} (hkeeps : db.KeepsOrders db')
    (h : ∀ id, (db.recordOf id).StemsFrom D) (id : Uuid) : (db'.recordOf id).StemsFrom D := by
  have hitems : (db'.recordOf id).items = (db.recordOf id).items := by
    show db'.orderItems.filter _ = db.orderItems.filter _
    rw [hkeeps.items]
  obtain hsame | ⟨row, row', hrow, hrow', hsame⟩ := hkeeps.rows id
  · refine ⟨fun row hrow => ?_, fun hnone => ?_⟩
    · rw [hitems]
      exact (h id).stored row (hsame.symm.trans hrow)
    · rw [hitems]
      exact (h id).unowned (hsame.symm.trans hnone)
  · obtain ⟨data, hdata, hrecorded, hstored⟩ := (h id).stored row hrow
    refine ⟨fun row'' hrow'' => ?_, fun hnone => ?_⟩
    · obtain rfl : row' = row'' := Option.some.inj (hrow'.symm.trans hrow'')
      rw [hitems]
      exact ⟨data, hdata, hrecorded.of_same hsame, hstored⟩
    · cases hrow'.symm.trans hnone

/-- A job that is stored is stored with its own data. -/
theorem recordedAs_of_toRow {data : OrderJobPayload} {jobMeta : JobMeta} {now : Time}
    {row : OrderRow} (h : (createParams data jobMeta).toRow now = .ok row) : data.RecordedAs row := by
  have hstored := Database.storedAs_of_toRow h
  exact ⟨(Database.proposes_of_toRow h).id, hstored.key, hstored.traceId, hstored.storeId,
    hstored.userId, hstored.requestedAmount, hstored.calculatedAmount⟩

/-- An insertion of a job in `D`. -/
theorem Database.stemsFrom_of_createOrder {db db' : Database} {data : OrderJobPayload}
    {jobMeta : JobMeta} {now : Time}
    (hcreated : db.createOrder (createParams data jobMeta) now = .ok (true, db')) (hdata : D data)
    (h : ∀ id, (db.recordOf id).StemsFrom D) (id : Uuid) : (db'.recordOf id).StemsFrom D := by
  obtain ⟨⟨row, rows, hrow, hrows, hrecord⟩, hother⟩ := Database.createOrder_recordOf hcreated
  by_cases hid : data.orderId = id
  · subst hid
    -- the id was free, so it had no items before
    have hfree : db.orders.find? data.orderId = none := by
      obtain ⟨row', -, hpk, -, hrow', -⟩ := Database.createOrder_eq_ok_true hcreated
      rw [← show row'.id = data.orderId from (recordedAs_of_toRow hrow').id]
      exact Relational.Table.find?_eq_none_iff.mpr hpk
    have hnoItems : (db.recordOf data.orderId).items = [] := (h data.orderId).unowned hfree
    replace hrecord : db'.recordOf data.orderId = _ := hrecord
    rw [hrecord]
    refine ⟨fun row' hrow' => ?_, fun hnone => by cases hnone⟩
    obtain rfl : row = row' := Option.some.inj hrow'
    refine ⟨data, hdata, recordedAs_of_toRow hrow, ?_⟩
    show List.Forall₂ _ data.items ((db.recordOf data.orderId).items ++ rows)
    rw [hnoItems, List.nil_append]
    exact hrows
  · rw [hother id hid]
    exact h id

/-- **A call keeps where data stems from**, if what it writes does too.  This is the step of the
whole argument, one case for each part of the world. -/
theorem World.StemsFrom.exec (h : w.StemsFrom D) {o : Op} (ho : o.Uses D) (c : Choice) :
    (o.exec c w).2.StemsFrom D where
  queued := by
    refine Op.exec_invariant (I := fun w' => ∀ job ∈ w'.mainQueue, D job.data) h.queued ?_
    obtain ⟨data, rfl, -, hadded⟩ | hsame := o.effect_mainQueue c w
    · rw [hadded]
      intro job hjob
      obtain hold | hnew := List.mem_append.mp hjob
      · exact h.queued job hold
      · rw [List.mem_singleton.mp hnew]
        exact ho
    · rw [hsame]
      exact h.queued
  dead := by
    obtain hsame | ⟨data, reason, attempts, rfl, hadded⟩ := o.exec_dlqQueue c w
    · rw [hsame]
      exact h.dead
    · rw [hadded]
      intro job hjob
      obtain hold | hnew := List.mem_append.mp hjob
      · exact h.dead job hold
      · rw [List.mem_singleton.mp hnew]
        exact ho
  records := by
    obtain ⟨p, rfl, hcreated⟩ | hkeeps := o.exec_orders c w
    · obtain ⟨data, jobMeta, hdata, rfl⟩ := ho
      exact Database.stemsFrom_of_createOrder hcreated hdata h.records
    · exact hkeeps.stemsFrom h.records
  posted := by
    obtain hsame | ⟨request, rfl, hadded⟩ := o.exec_posInbox c w
    · rw [hsame]
      exact h.posted
    · rw [hadded]
      intro post hpost
      obtain hold | hnew := List.mem_append.mp hpost
      · exact h.posted post hold
      · rw [List.mem_singleton.mp hnew]
        exact ho

end StemsFrom

/-! ## Re-drives publish nothing -/

/-- The state machine has not let an order out of `FAILED`. -/
def RefusesRedrive (e : OrderEvent) : Prop :=
  ∀ order, e ≠ ⟨.repo (.transitionStatus (AdminService.redriveTransition order)), .ok ()⟩

/-- The transition of a re-drive is refused, and so never answered. -/
theorem Op.exec_redriveTransition (order : OrderEntity) (c : Choice) (w : World) :
    (Op.exec (.repo (.transitionStatus (AdminService.redriveTransition order))) c w).1 ≠ .ok () := by
  intro h
  rw [Op.exec_eq_effect_of_ok h] at h
  have hrefused := redriveTransition_refused w.db order c.now
  replace h : (settle w.db (quietly (w.db.transitionStatus (AdminService.redriveTransition order)
    c.now))).1 = .ok () := h
  rw [hrefused] at h
  cases h

/-- A re-drive gets no further than the transition. -/
def redrives : Protocol Op.Reply OrderError Outcome Request where
  admits := fun _ => True
  allows := fun _ _ e => RefusesRedrive e
  issues := fun q _ o => ∀ orderId ctx, q = .redriveOrder orderId ctx → ∀ data, o ≠ .mainQueueAdd data
  returns := fun _ _ _ => True
  throws := fun _ _ _ => True

theorem respects_redrives {config : AppConfig} {ok : CatalogLabel → OrderPool → Prop}
    {P₀ : OrderPool} : redrives.Respects (catalogSystem config) ok P₀ where
  admits := fun _ _ _ _ => trivial
  allows := by
    intro P i c t o k _ _ _ _ order hevent
    obtain ⟨rfl, hanswer⟩ := Event.mk.inj hevent
    exact Op.exec_redriveTransition order c P.world (eq_of_heq hanswer)

theorem follows_redrives (config : AppConfig) (q : Request) :
    redrives.Follows q (q.program config) [] := by
  have hother : (∀ orderId ctx, q ≠ .redriveOrder orderId ctx) →
      redrives.Follows q (q.program config) [] := by
    intro hq
    refine wp_invariant _ _ (fun _ => True) ?_ (fun _ _ _ _ _ _ _ => trivial)
      (.of_forall (fun _ => trivial) _) trivial
    exact fun o _ _ _ orderId ctx hredrive => absurd hredrive (hq orderId ctx)
  cases q with
  | redriveOrder orderId ctx =>
      have hfree : ∀ {o : Op}, (∀ data, o ≠ .mainQueueAdd data) →
          ∀ h, redrives.issues (.redriveOrder orderId ctx) h o := fun ho _ _ _ _ => ho
      show wp _ _ (AdminService.redriveOrder orderId ctx >>= fun _ => return Outcome.done) _ _ []
      unfold AdminService.redriveOrder
      simp only [wp_bind, OrderRepository.findById_eq, wp_perform]
      refine ⟨hfree (fun _ h => by cases h) _, ?_, fun _ _ _ => trivial⟩
      rintro found h₁ -
      cases found with
      | none => trivial
      | some order =>
          show wp _ _ (if order.row.status ≠ .worker .failed then _ else _) _ _ h₁
          rw [wp_ite]
          refine ⟨fun _ => trivial, fun _ => ?_⟩
          simp only [wp_bind, OrderRepository.transition_eq, wp_perform]
          -- the transition is not answered, so nothing comes after it
          refine ⟨hfree (fun _ h => by cases h) _, ?_, fun _ _ _ => trivial⟩
          rintro done h₂ ⟨hrefuses, -⟩
          exact absurd rfl (hrefuses order)
  | createOrder cmd ctx => exact hother fun _ _ h => by cases h
  | process payload jobMeta => exact hother fun _ _ h => by cases h
  | handleFailure payload error jobMeta => exact hother fun _ _ h => by cases h
  | updateStatus orderId status => exact hother fun _ _ h => by cases h
  | updateOrderStatus id body => exact hother fun _ _ h => by cases h

/-! ## Runs -/

/-- The job that a request works on. -/
def Request.job? : Request → Option OrderJobPayload
  | .process payload _ => some payload
  | .handleFailure payload _ _ => some payload
  | _ => none

/-- A worker is handed a job of the queue, and so is a failure handler.  This is BullMQ's part in
the argument. -/
def WorksOnQueue : CatalogLabel → OrderPool → Prop
  | .spawn _ q, P => ∀ data ∈ q.job?, ∃ job ∈ P.world.mainQueue, job.data = data
  | .act _ _, _ => True
  | .env _, _ => True

instance (ℓ : CatalogLabel) (P : OrderPool) : Decidable (WorksOnQueue ℓ P) :=
  match ℓ with
  | .spawn _ q => inferInstanceAs
      (Decidable (∀ data ∈ q.job?, ∃ job ∈ P.world.mainQueue, job.data = data))
  | .act _ _ => .isTrue trivial
  | .env _ => .isTrue trivial

/-- An API call has published the job. -/
def HasPublished (P : OrderPool) (data : OrderJobPayload) : Prop :=
  ∃ i t cmd ctx, P.threads i = some t ∧ t.request = .createOrder cmd ctx ∧
    ∃ e ∈ t.hist, e.op = .mainQueueAdd data

/-- An API call has validated its command with conforming menus, and has published the job.  What
the validation has found out of the amounts is in this. -/
def HasValidated (P : OrderPool) (data : OrderJobPayload) : Prop :=
  ∃ i t cmd ctx answer amount items, P.threads i = some t ∧ t.request = .createOrder cmd ctx ∧
    (∃ e ∈ t.hist, e.op = .mainQueueAdd data) ∧ (∀ info ∈ answer, info.Conforms) ∧
    validateItems cmd answer = .ok (amount, items) ∧ data = payload cmd ctx amount items

section Runs

variable {config : AppConfig} {ok : CatalogLabel → OrderPool → Prop} {P₀ P P' : OrderPool}
variable {ℓ : CatalogLabel} {D : OrderJobPayload → Prop}

theorem HasPublished.step (hstep : (catalogSystem config).step ℓ P = some P')
    {data : OrderJobPayload} (h : HasPublished P data) : HasPublished P' data := by
  obtain ⟨i, t, cmd, ctx, ht, hrequest, e, he, ho⟩ := h
  obtain ⟨t', ht', hrequest', hsuffix⟩ := (catalogSystem config).step_persists hstep ht
  exact ⟨i, t', cmd, ctx, ht', hrequest'.trans hrequest, e, hsuffix.subset he, ho⟩

/-- An expiry or an upload of menus keeps all orders. -/
theorem CatalogStep.keepsOrders (e : CatalogStep) (w : World) : w.db.KeepsOrders (e.apply w).db := by
  cases e with
  | expire e =>
      cases e with
      | idempotency key => exact .refl w.db
      | lock orderId => exact .refl w.db
      | menuCache key => exact .refl w.db
  | saveMenus upload fault =>
      refine Fault.apply_invariant (I := w.db.KeepsOrders) (.refl w.db) ?_
      rcases hsave : MenuAdminController.saveMenus upload w.db with e | db'
      · exact .refl w.db
      · obtain ⟨store, rows, -, rfl⟩ := MenuAdminController.saveMenus_eq_ok hsave
        exact ⟨rfl, fun _ => .inl rfl⟩

/-- What the environment does brings no data. -/
theorem World.StemsFrom.env {w : World} (h : w.StemsFrom D) (e : CatalogStep) :
    (e.apply w).StemsFrom D := by
  have hrecords := (e.keepsOrders w).stemsFrom h.records
  cases e with
  | expire e =>
      cases e with
      | idempotency key => exact ⟨h.queued, h.dead, hrecords, h.posted⟩
      | lock orderId => exact ⟨h.queued, h.dead, hrecords, h.posted⟩
      | menuCache key => exact ⟨h.queued, h.dead, hrecords, h.posted⟩
  | saveMenus upload fault => exact ⟨h.queued, h.dead, hrecords, h.posted⟩

/-- **A call of a thread writes what was published**, if the job it works on was. -/
theorem uses_of_allows {q : Request} {o : Op} (hallows : q.allows o)
    (hcarried : ∀ data ∈ q.job?, D data)
    (hpublished : ∀ cmd ctx data, q = .createOrder cmd ctx → o = .mainQueueAdd data → D data)
    (hredrive : ∀ orderId ctx, q = .redriveOrder orderId ctx → ∀ data, o ≠ .mainQueueAdd data) :
    o.Uses D := by
  -- by what the request may call: creations, executions, failure handlers and re-drives carry data
  cases q with
  | createOrder cmd ctx =>
      cases o with
      | mainQueueAdd data => exact hpublished cmd ctx data rfl rfl
      | repo r => cases hallows
      | dlqQueueAdd data reason attempts => cases hallows
      | postToPos request => cases hallows
      | _ => trivial
  | process data jobMeta =>
      cases o with
      | repo r =>
          cases r with
          | createOrder p => exact ⟨data, jobMeta, hcarried data rfl, hallows⟩
          | _ => trivial
      | postToPos request => exact ⟨data, hcarried data rfl, hallows.1⟩
      | mainQueueAdd data => cases hallows
      | dlqQueueAdd data reason attempts => cases hallows
      | _ => trivial
  | handleFailure data error jobMeta =>
      cases o with
      | repo r =>
          cases r with
          | createOrder p => cases hallows
          | _ => trivial
      | dlqQueueAdd data' reason attempts =>
          obtain rfl : data' = data := hallows
          exact hcarried data' rfl
      | postToPos request => cases hallows
      | mainQueueAdd data => cases hallows
      | _ => trivial
  | redriveOrder orderId ctx =>
      cases o with
      | mainQueueAdd data => exact absurd rfl (hredrive orderId ctx rfl data)
      | repo r =>
          cases r with
          | createOrder p => cases hallows
          | _ => trivial
      | dlqQueueAdd data reason attempts => cases hallows
      | postToPos request => cases hallows
      | _ => trivial
  | updateStatus orderId status =>
      cases o with
      | patchStatus text id => trivial
      | emitOrderUpdated storeId id text => trivial
      | _ => cases hallows
  | updateOrderStatus id body =>
      cases o with
      | patchStatus text id => trivial
      | emitOrderUpdated storeId id text => trivial
      | _ => cases hallows

/-- **Provenance, by publication.**  Whatever rests in the world, and whatever a worker works on,
has been published by an API call. -/
theorem hasPublished_of_reaches (hinit : ∀ i, P₀.threads i = none)
    (hworld : P₀.world.StemsFrom fun _ => False)
    (h : (catalogSystem config).Reaches WorksOnQueue P₀ P) :
    P.world.StemsFrom (HasPublished P) ∧
      ∀ i t, P.threads i = some t → ∀ data ∈ t.request.job?, HasPublished P data := by
  refine System.Reaches.invariant (I := fun P => P.world.StemsFrom (HasPublished P) ∧
    ∀ i t, P.threads i = some t → ∀ data ∈ t.request.job?, HasPublished P data)
    ⟨hworld.mono fun _ hfalse => hfalse.elim, fun i t ht => by simp [hinit i] at ht⟩ ?_ h
  rintro P ℓ P' hreach ⟨hstems, hcarried⟩ hok hstep
  have hkept : ∀ data, HasPublished P data → HasPublished P' data := fun _ h => h.step hstep
  constructor
  · obtain ⟨i, q, rfl, -, rfl⟩ | ⟨i, c, t, o, k, rfl, ht, hrest, rfl⟩ | ⟨e, w, rfl, hw, rfl⟩ :=
      (catalogSystem config).step_cases hstep
    · exact hstems.mono hkept
    · refine (hstems.mono hkept).exec (uses_of_allows
        (System.allowed_of_reaches (fun q => Request.onlyCalls config q) hinit hreach ht hrest)
        (fun data hdata => hkept data (hcarried i t ht data hdata)) ?_ ?_) c
      · -- the job that this call publishes
        rintro cmd ctx data hrequest rfl
        exact ⟨i, _, cmd, ctx, (catalogSystem config).advance_threads_self .., hrequest, _,
          List.mem_cons_self, rfl⟩
      · have hfollows := (Protocol.follows_of_reaches respects_redrives
          (fun q _ => follows_redrives config q) hinit hreach i t ht).2
        rw [hrest] at hfollows
        exact hfollows.1
    · cases hw
      exact (hstems.mono hkept).env e
  · intro j u hu data hdata
    obtain hold | ⟨q, rfl, rfl⟩ | ⟨c, t, o, k, rfl, ht, hrest, -, rfl⟩ :=
      (catalogSystem config).step_threads hstep hu
    · exact hkept data (hcarried j u hold data hdata)
    · obtain ⟨job, hjob, rfl⟩ := hok data hdata
      exact hkept _ (hstems.queued job hjob)
    · exact hkept data (hcarried j t ht data hdata)

/-- A world in which no order has been placed: empty queues, empty tables of orders, and nothing
sent to a point of sale. -/
structure World.Fresh (w : World) : Prop where
  mainQueue : w.mainQueue = []
  dlqQueue : w.dlqQueue = []
  orders : ∀ id, w.db.orders.find? id = none
  orderItems : w.db.orderItems = []
  posInbox : w.posInbox = []
  menuCache : ∀ key, w.menuCache key = none

/-- Nothing is in it that had to stem from anything. -/
theorem World.Fresh.stemsFrom {w : World} (h : w.Fresh) : w.StemsFrom D where
  queued := by
    rw [h.mainQueue]
    exact nofun
  dead := by
    rw [h.dlqQueue]
    exact nofun
  records := fun id => by
    refine ⟨fun row hrow => ?_, fun _ => ?_⟩
    · cases (h.orders id).symm.trans hrow
    · show w.db.orderItems.filter _ = []
      rw [h.orderItems]
      rfl
  posted := by
    rw [h.posInbox]
    exact nofun

/-- What an API call has published, it has validated. -/
theorem HasPublished.validated (hinit : ∀ i, P₀.threads i = none) (hfresh : P₀.world.Fresh)
    (hmenus : ∀ menu ∈ P₀.world.db.menus, menu.Conforms) (h : (catalogSystem config).Reaches ok P₀ P)
    {data : OrderJobPayload} (hdata : HasPublished P data) : HasValidated P data := by
  obtain ⟨i, t, cmd, ctx, ht, hrequest, e, he, ho⟩ := hdata
  obtain ⟨answer, amount, items, hanswer, hvalid, hdata⟩ :=
    validated_of_issues hinit hfresh.menuCache hmenus h ht hrequest (.inr ⟨e, he, ho⟩)
  exact ⟨i, t, cmd, ctx, answer, amount, items, ht, hrequest, ⟨e, he, ho⟩, hanswer, hvalid, hdata⟩

/-- **Provenance.**  In every run that starts without orders and with conforming menus, and in
which workers work on jobs of the queue, each job of either queue, each stored order with its
items, and each request to a point of sale is the data of a job that some API call has validated
and published. -/
theorem provenance_of_reaches (hinit : ∀ i, P₀.threads i = none) (hfresh : P₀.world.Fresh)
    (hmenus : ∀ menu ∈ P₀.world.db.menus, menu.Conforms)
    (h : (catalogSystem config).Reaches WorksOnQueue P₀ P) : P.world.StemsFrom (HasValidated P) :=
  (hasPublished_of_reaches hinit hfresh.stemsFrom h).1.mono fun _ hdata =>
    hdata.validated hinit hfresh hmenus h

end Runs

/-! ### An order from the API to the point of sale -/

/-- The API takes the order, and a worker completes it. -/
def completedRun : List CatalogLabel :=
  .spawn 0 (.createOrder seedCommand seedContext) ::
    List.replicate 7 (.act 0 (.undisturbed 0)) ++
    .spawn 1 (.process seedPayload (seedJob 0)) :: List.replicate 12 (.act 1 (.undisturbed 1))

theorem completedRun_replays : ((catalogSystem seedConfig).replay completedRun
    (Pool.init (World.init .seed))).isSome = true := by
  decide +kernel

theorem completedRun_admitted : (catalogSystem seedConfig).Admitted WorksOnQueue completedRun
    (Pool.init (World.init .seed)) :=
  .of_check (by decide +kernel)

/-- The pool once the order is completed. -/
def completedPool : OrderPool :=
  (catalogSystem seedConfig).after completedRun (Pool.init (World.init .seed)) completedRun_replays

/-- A seeded installation has no orders. -/
theorem World.fresh_seed : (World.init .seed).Fresh where
  mainQueue := rfl
  dlqQueue := rfl
  orders := fun _ => rfl
  orderItems := rfl
  posInbox := rfl
  menuCache := fun _ => rfl

/-- All data of the completed order stems from its API call. -/
theorem provenance_of_reaches_completed :
    completedPool.world.StemsFrom (HasValidated completedPool) :=
  provenance_of_reaches (fun _ => rfl) World.fresh_seed Database.seed_conforms
    (.after completedRun_admitted completedRun_replays)

example : completedPool.world.db.statusOf ⟨7⟩ = some (.worker .completed) ∧
    completedPool.world.posInbox.length = 1 := by
  decide +kernel

end ChickenOrder
