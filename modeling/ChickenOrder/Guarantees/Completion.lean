import ChickenOrder.Guarantees.Ledger
import ChickenOrder.Services.PosCircuitBreaker

/-!
# What becomes of an accepted order

The other results about runs are about safety; this one is about progress.  Whatever has happened
before, a worker that takes up the job of an accepted, storable order and is not disturbed brings
the order to `COMPLETED` if the first readable answer to its four attempts can be stored, and
otherwise throws and leaves the order at `SAVED`: `accepted_order_outcome`.  An answer that
`pos_response` refuses is as good as none, and an order whose headers the HTTP client refuses is
not sent at all.  Either way the execution leaves nothing else behind but the requests it has sent.

The execution is run call by call, with an answer of its own for each.  `Sends` is what the four
attempts come to, `Database.BroughtTo` what the tables have come to; the two do not meet before
step 4 is over, so that each is followed through its own part of the program.  That the run is
undisturbed concerns this execution only: what has happened before it was an arbitrary run of
the system.
-/

namespace ChickenOrder

open Interaction Interaction.Program
open CreateOrderService ProcessOrderService

/-- The HTTP client sends the request that the adapter makes of the order.  It refuses a header with
a character that no header may have, before anything leaves the process. -/
def PosAdapter.CanSend (adapter : PosAdapter) (order : DomainOrder) : Prop :=
  (adapter.request order).invalidHeader? = none

instance (adapter : PosAdapter) (order : DomainOrder) : Decidable (adapter.CanSend order) :=
  inferInstanceAs (Decidable (_ = none))

/-- What reaches the point of sale at one attempt: the request, or nothing if the client refuses it.
-/
def PosAdapter.posts (adapter : PosAdapter) (order : DomainOrder) (now : Time) :
    List (PosRequest × Time) :=
  if adapter.CanSend order then [(adapter.request order, now)] else []

/-- What one attempt at sending the order comes to, if it is sent, answered and readable.  In all
other cases the attempt fails, and the policy tries again. -/
def PosAdapter.taken? (adapter : PosAdapter) (order : DomainOrder) (c : Choice) :
    Option PosOrderResult :=
  if adapter.CanSend order then
    match c.posAnswer with
    | .ok data => (adapter.readReply ⟨data, c.now⟩).toOption
    | .error _ => none
  else none

/-- Requests have arrived at the points of sale.  Nothing else of the world changes with them. -/
def World.posted (w : World) (posts : List (PosRequest × Time)) : World :=
  { w with posInbox := w.posInbox ++ posts }

@[simp] theorem World.posted_posted (w : World) (posts posts' : List (PosRequest × Time)) :
    (w.posted posts).posted posts' = w.posted (posts ++ posts') := by
  unfold posted
  simp

@[simp] theorem World.posted_nil (w : World) : w.posted [] = w := by
  unfold posted
  simp

/-! ## The parts of an execution -/

section Parts

variable {choices : ℕ → Choice} {n : ℕ} {w : World}

/-- A call of a quiet run does its effect. -/
theorem ran_call (hquiet : Quiet choices) (o : Op) :
    ran Op.exec choices (Op.call o) n w =
      ((o.effect (choices n) w).1, n + 1, (o.effect (choices n) w).2) := by
  rw [Op.call, ran_perform, Op.exec_undisturbed (hquiet n)]

variable {adapter : PosAdapter} {order : DomainOrder} {storeId : String}

/-- One request, and what the adapter makes of the answer. -/
theorem ran_sendOrder (hquiet : Quiet choices) (adapter : PosAdapter) (order : DomainOrder)
    (n : ℕ) (w : World) :
    ∃ r, ran Op.exec choices (adapter.sendOrder order) n w =
        (r, n + 1, w.posted (adapter.posts order (choices n).now)) ∧
      r.toOption = adapter.taken? order (choices n) := by
  rw [adapter.sendOrder_eq order]
  have hpost := ran_call hquiet (n := n) (w := w) (.postToPos (adapter.request order))
  by_cases hcan : adapter.CanSend order
  swap
  · -- the HTTP client refuses a header
    obtain ⟨name, hname⟩ := Option.ne_none_iff_exists'.mp hcan
    have hfailed : ran Op.exec choices (Op.call (.postToPos (adapter.request order))) n w =
        (.error (.typeError ("Invalid character in header content [\"" ++ name ++ "\"]")), n + 1,
          w) := by
      rw [hpost, Op.effect_postToPos, hname]
    unfold PosAdapter.posts PosAdapter.taken?
    rw [if_neg hcan, if_neg hcan, World.posted_nil]
    exact ⟨_, ran_tryCatch_of_error (ran_bind_of_error hfailed), rfl⟩
  unfold PosAdapter.posts PosAdapter.taken?
  -- the request goes out, and the transport or the adapter decides what comes of the answer
  rw [if_pos hcan, if_pos hcan]
  rw [Op.effect_postToPos_of_valid hcan] at hpost
  cases hanswer : (choices n).posAnswer with
  | error m =>
      rw [hanswer] at hpost
      exact ⟨_, ran_tryCatch_of_error (ran_bind_of_error hpost), rfl⟩
  | ok data =>
      rw [hanswer] at hpost
      dsimp only
      cases hread : adapter.readReply ⟨data, (choices n).now⟩ with
      | ok a =>
          refine ⟨.ok a, ran_tryCatch_of_ok ((ran_bind_of_ok hpost).trans ?_), rfl⟩
          simp only [hread]
          rfl
      | error e =>
          refine ⟨.error (posUnavailable order.storeId e),
            (ran_tryCatch_of_error ((ran_bind_of_ok hpost).trans ?_)).trans rfl, rfl⟩
          simp only [hread]
          rfl

/-- What a method that sends the order leaves behind: requests for it, if it can be sent, and what
the first of the `attempts` attempts that was taken comes to.  The answers are those of every other
call from the `n`-th on. -/
def Sends (choices : ℕ → Choice) (adapter : PosAdapter) (order : DomainOrder) (attempts n : ℕ)
    (w : World) (p : Service PosOrderResult) : Prop :=
  ∃ r m posts, ran Op.exec choices p n w = (r, m, w.posted posts) ∧
    (∀ post ∈ posts, post.1.order = order) ∧ (posts ≠ [] ↔ adapter.CanSend order) ∧
    posts.length ≤ attempts ∧
    r.toOption = (List.range attempts).findSome? fun j =>
      adapter.taken? order (choices (n + 2 * j + 1))

/-- A request is for the order it was made of. -/
theorem order_of_mem_posts {now : Time} {post : PosRequest × Time}
    (h : post ∈ adapter.posts order now) : post.1.order = order := by
  unfold PosAdapter.posts at h
  split at h
  · rw [List.mem_singleton.mp h]
    exact adapter.request_order order
  · cases h

/-- Something is posted exactly if the client sends it. -/
theorem posts_ne_nil_iff {now : Time} :
    adapter.posts order now ≠ [] ↔ adapter.CanSend order := by
  unfold PosAdapter.posts
  split
  · rename_i hcan
    simp [hcan]
  · rename_i hcan
    simp [hcan]

theorem length_posts_le {now : Time} : (adapter.posts order now).length ≤ 1 := by
  unfold PosAdapter.posts
  split
  · exact le_rfl
  · exact Nat.zero_le _

/-- The retries: an attempt consults the breaker and sends a request.  By induction on the retries
that are left; the breaker is closed at each of them. -/
theorem sends_retry (hquiet : Quiet choices) (hclosed : ∀ n, (choices n).circuitOpen = false)
    (left n : ℕ) (w : World) : Sends choices adapter order (left + 1) n w
      (PosCircuitBreakerService.retry left
        (PosCircuitBreakerService.breaker storeId (adapter.sendOrder order))) := by
  have hbreaker : ∀ n w, ∃ r, ran Op.exec choices
      (PosCircuitBreakerService.breaker storeId (adapter.sendOrder order)) n w =
        (r, n + 2, w.posted (adapter.posts order (choices (n + 1)).now)) ∧
      r.toOption = adapter.taken? order (choices (n + 1)) := by
    intro n w
    obtain ⟨r, hran, hr⟩ := ran_sendOrder hquiet adapter order (n + 1) w
    exact ⟨r, (PosCircuitBreakerService.ran_breaker_of_closed w (hclosed n)).trans hran, hr⟩
  induction left generalizing n w with
  | zero =>
      obtain ⟨r, hran, hr⟩ := hbreaker n w
      refine ⟨r, _, _, hran, fun _ => order_of_mem_posts, posts_ne_nil_iff, length_posts_le, ?_⟩
      rw [hr]
      simp [List.range_succ_eq_map]
  | succ left ih =>
      obtain ⟨r, hran, hr⟩ := hbreaker n w
      -- what the first attempt comes to, and the others from the second on
      have hfirst : (List.range (left + 1 + 1)).findSome? (fun j =>
          adapter.taken? order (choices (n + 2 * j + 1))) =
          (adapter.taken? order (choices (n + 1))).or ((List.range (left + 1)).findSome? fun j =>
            adapter.taken? order (choices (n + 2 + 2 * j + 1))) := by
        rw [List.range_succ_eq_map, List.findSome?_cons, List.findSome?_map]
        have hshift : (fun j => adapter.taken? order (choices (n + 2 * j + 1))) ∘ Nat.succ =
            fun j => adapter.taken? order (choices (n + 2 + 2 * j + 1)) := by
          funext j
          rw [Function.comp_apply, show n + 2 * (j + 1) + 1 = n + 2 + 2 * j + 1 by omega]
        rw [hshift]
        cases adapter.taken? order (choices (n + 1)) <;> rfl
      cases r with
      | ok a =>
          refine ⟨.ok a, _, _, ran_tryCatch_of_ok hran, fun _ => order_of_mem_posts,
            posts_ne_nil_iff, length_posts_le.trans (by omega), ?_⟩
          rw [hfirst, ← hr]
          rfl
      | error e =>
          obtain ⟨r, m, posts, hrest, hposts, hne, hlength, hr'⟩ :=
            ih (n + 2) (w.posted (adapter.posts order (choices (n + 1)).now))
          refine ⟨r, m, adapter.posts order (choices (n + 1)).now ++ posts, ?_, ?_, ?_, ?_, ?_⟩
          · rw [PosCircuitBreakerService.retry, ran_tryCatch_of_error hran, hrest,
              World.posted_posted]
          · intro post hpost
            rcases List.mem_append.mp hpost with hpost | hpost
            · exact order_of_mem_posts hpost
            · exact hposts post hpost
          · rw [Ne, List.append_eq_nil_iff, not_and_or]
            exact (or_congr posts_ne_nil_iff hne).trans or_self_iff
          · rw [List.length_append]
            have hone : (adapter.posts order (choices (n + 1)).now).length ≤ 1 := length_posts_le
            omega
          · rw [hr', hfirst, ← hr]
            rfl

/-- The method around the retries only renames an error. -/
theorem sends_execute (hquiet : Quiet choices) (hclosed : ∀ n, (choices n).circuitOpen = false)
    (n : ℕ) (w : World) : Sends choices adapter order 4 n w
      (PosCircuitBreakerService.execute storeId (adapter.sendOrder order)) := by
  obtain ⟨r, m, posts, hran, hposts, hne, hlength, hr⟩ :=
    @sends_retry choices adapter order storeId hquiet hclosed 3 n w
  unfold PosCircuitBreakerService.execute
  cases r with
  | ok a => exact ⟨.ok a, m, posts, ran_tryCatch_of_ok hran, hposts, hne, hlength, hr⟩
  | error e =>
      have hfailed : ∃ e', ran Op.exec choices
          (if e.isBrokenCircuitError then Program.throw (.circuitBreakerOpen storeId)
            else Program.throw e : Service PosOrderResult) m (w.posted posts) =
          (.error e', m, w.posted posts) := by
        split
        · exact ⟨_, rfl⟩
        · exact ⟨_, rfl⟩
      obtain ⟨e', he'⟩ := hfailed
      exact ⟨.error e', m, posts, (ran_tryCatch_of_error hran).trans he', hposts, hne, hlength, hr⟩

end Parts

/-! ## The order on its way -/

/-- What an undisturbed execution makes of the tables: they differ in the record of the job's order
only, whose audit trail has grown by `trail` up to `status`. -/
structure Database.BroughtTo (db₀ : Database) (data : OrderJobPayload) (status : OrderStatus)
    (trail : List AuditEntry) (db : Database) : Prop where
  row : ∃ row, db.orders.find? data.orderId = some row ∧ data.RecordedAs row ∧
    row.status = .worker status ∧ row.version + 1 = trail.length
  trail : db.trail data.orderId = db₀.trail data.orderId ++ trail
  items : ∃ rows, List.Forall₂ (OrderItem.StoredAs data.orderId) data.items rows ∧
    (db.recordOf data.orderId).items = (db₀.recordOf data.orderId).items ++ rows
  others : ∀ id, data.orderId ≠ id → db.recordOf id = db₀.recordOf id
  stores : db.stores = db₀.stores

/-- The trail of an order is that of its record. -/
theorem Database.trail_eq (db : Database) (id : Uuid) :
    db.trail id = (db.recordOf id).audits.map fun t => (t.fromStatus, t.toStatus) :=
  rfl

section OnTheWay

variable {db₀ db db' : Database} {data : OrderJobPayload} {status next : OrderStatus}
variable {trail : List AuditEntry} {p : TransitionParams} {now : Time}

/-- An insertion is the beginning: the row is at `QUEUED` with one audit entry, and no other order
has changed. -/
theorem Database.broughtTo_of_createOrder {jobMeta : JobMeta}
    (h : db.createOrder (createParams data jobMeta) now = .ok (true, db')) :
    db.BroughtTo data .queued [(none, .worker .queued)] db' := by
  obtain ⟨⟨row, rows, hrow, hrows, hrecord⟩, hothers⟩ := createOrder_recordOf h
  replace hrecord : db'.recordOf data.orderId = _ := hrecord
  have hproposes := proposes_of_toRow hrow
  refine ⟨⟨row, congrArg OrderRecord.row hrecord, recordedAs_of_toRow hrow, hproposes.status, ?_⟩,
    ?_, ⟨rows, hrows, congrArg OrderRecord.items hrecord⟩, hothers, ?_⟩
  · rw [hproposes.version]
    rfl
  · rw [trail_eq, hrecord, List.map_append]
    rfl
  · obtain ⟨-, -, -, -, -, -, rfl⟩ := createOrder_eq_ok_true h
    rfl

/-- A transition that the state machine allows takes it one status further.  It is not refused,
because the row is just as the execution has left it. -/
theorem Database.BroughtTo.transition (h : db₀.BroughtTo data status trail db)
    (hnext : next ∈ allowedTransitions status) (hlength : (trail.length : ℤ) ≤ int4Max)
    (hid : p.orderId = data.orderId) (hexpected : p.expectedStatus = .worker status)
    (hgoal : p.nextStatus = next)
    (hversion : ∀ row, db.orders.find? data.orderId = some row → row.version = p.currentVersion)
    (hstorable : p.Storable) :
    ∃ db', db.transitionStatus p now = .ok db' ∧
      db₀.BroughtTo data next (trail ++ [(some (.worker status), .worker next)]) db' := by
  obtain ⟨row, hrow, hrecorded, hstatus, hcount⟩ := h.row
  obtain ⟨db', hmoved, hstores⟩ : ∃ db', db.transitionStatus p now = .ok db' ∧
      db'.stores = db.stores :=
    ⟨_, transitionStatus_of_row hexpected (hgoal ▸ hnext) (hid ▸ hrow) hstatus (hversion row hrow)
      (by omega) hstorable, rfl⟩
  refine ⟨db', hmoved, ?_⟩
  obtain ⟨hrecord, hothers⟩ := transitionStatus_recordOf hmoved
  rw [hid] at hrecord hothers
  refine ⟨⟨row.transition p now, ?_, hrecorded.of_same (row.sameOrder_transition p now), ?_, ?_⟩,
    ?_, ?_, fun id hne => (hothers id hne).trans (h.others id hne), hstores.trans h.stores⟩
  · refine (congrArg OrderRecord.row hrecord).trans ?_
    show (db.orders.find? data.orderId).map _ = _
    rw [hrow]
    rfl
  · rw [OrderRow.transition_status, hgoal]
  · rw [OrderRow.transition_version, List.length_append, List.length_singleton]
    push_cast
    omega
  · rw [trail_eq, hrecord, ← List.append_assoc, ← h.trail, trail_eq, OrderRecord.moved,
      List.map_append]
    simp [AuditParams.toRow, TransitionParams.audit, hexpected, hgoal]
  · obtain ⟨rows, hrows, hitems⟩ := h.items
    refine ⟨rows, hrows, ?_⟩
    rw [hrecord, ← hitems]
    rfl

variable {choices : ℕ → Choice} {n : ℕ} {w : World}

/-- The same as a call of a service. -/
theorem ran_transition (hquiet : Quiet choices) (h : db₀.BroughtTo data status trail w.db)
    (hnext : next ∈ allowedTransitions status) (hlength : (trail.length : ℤ) ≤ int4Max)
    (hid : p.orderId = data.orderId) (hexpected : p.expectedStatus = .worker status)
    (hgoal : p.nextStatus = next)
    (hversion : ∀ row, w.db.orders.find? data.orderId = some row →
      row.version = p.currentVersion) (hstorable : p.Storable) :
    ∃ db, ran Op.exec choices (OrderRepository.transition p) n w =
        (.ok (), n + 1, { w with db := db }) ∧
      db₀.BroughtTo data next (trail ++ [(some (.worker status), .worker next)]) db := by
  obtain ⟨db, hmoved, hbrought⟩ : ∃ db, w.db.transitionStatus p (choices n).now = .ok db ∧
      db₀.BroughtTo data next (trail ++ [(some (.worker status), .worker next)]) db :=
    h.transition hnext hlength hid hexpected hgoal hversion hstorable
  refine ⟨db, ?_, hbrought⟩
  rw [OrderRepository.transition_eq, ran_call hquiet]
  show ((settle w.db (quietly (w.db.transitionStatus p (choices n).now))).1, n + 1,
    { w with db := (settle w.db (quietly (w.db.transitionStatus p (choices n).now))).2 }) = _
  rw [hmoved]
  rfl

/-- A lookup of the order finds its row. -/
theorem ran_findById (hquiet : Quiet choices) (h : db₀.BroughtTo data status trail w.db) :
    ∃ order : OrderEntity, ran Op.exec choices (OrderRepository.findById data.orderId) n w =
        (.ok (some order), n + 1, w) ∧
      order.row.id = data.orderId ∧
      ∀ row, w.db.orders.find? data.orderId = some row → row.version = order.row.version := by
  obtain ⟨row, hrow, hrecorded, -, -⟩ := h.row
  have hfound : ∃ order : OrderEntity, w.db.findOrder? data.orderId = some order ∧
      order.row = row := by
    unfold Database.findOrder?
    rw [hrow]
    exact ⟨_, rfl, rfl⟩
  obtain ⟨order, horder, rfl⟩ := hfound
  refine ⟨order, ?_, hrecorded.id, fun other hother => ?_⟩
  · rw [OrderRepository.findById_eq, ran_call hquiet]
    show (Except.ok (w.db.findOrder? data.orderId), n + 1, w) = _
    rw [horder]
  · rw [hrow] at hother
    rw [Option.some.inj hother]

/-- Without a reason, a message and an answer, a transition asks for the worker's id only. -/
theorem storable_transitionParams {orderId : Uuid} {expected : RowStatus} {next : OrderStatus}
    {version : ℤ} {jobMeta : JobMeta} (hworker : FitsVarchar jobMeta.workerId) :
    (transitionParams orderId expected next version jobMeta).Storable :=
  ⟨⟨rfl, fun _ h => (by cases h), fun _ h => (by cases h)⟩, hworker⟩

/-- After a point of sale has taken the order, two transitions complete it, if its answer can be
stored. -/
theorem ran_recordDispatch (hquiet : Quiet choices) (jobMeta : JobMeta) {posResult : PosOrderResult}
    (hnulFree : posResult.rawResponse.nulFree = true) (hworker : FitsVarchar jobMeta.workerId)
    (h : db₀.BroughtTo data .saved trail w.db) (hlength : (trail.length : ℤ) < int4Max) :
    ∃ db, ran Op.exec choices (recordDispatch data jobMeta posResult) n w =
        (.ok (), n + 4, { w with db := db }) ∧
      db₀.BroughtTo data .completed (trail ++ [(some (.worker .saved), .worker .sentToPos)] ++
        [(some (.worker .sentToPos), .worker .completed)]) db := by
  have hsend : OrderStatus.sentToPos ∈ allowedTransitions .saved := by decide
  have hcomplete : OrderStatus.completed ∈ allowedTransitions .sentToPos := by decide
  obtain ⟨saved, hsaved, -, hversion⟩ := ran_findById (n := n) hquiet h
  obtain ⟨db₁, hsent, h₁⟩ := ran_transition (n := n + 1) hquiet h
    (p := { transitionParams data.orderId (.worker .saved) .sentToPos saved.row.version jobMeta with
      posResponse := posResult.rawResponse })
    hsend hlength.le rfl rfl rfl hversion
    ⟨⟨hnulFree, fun _ h => (by cases h), fun _ h => (by cases h)⟩, hworker⟩
  obtain ⟨sent, hfound, -, hversion₁⟩ := ran_findById (n := n + 2) (w := { w with db := db₁ }) hquiet h₁
  obtain ⟨db₂, hcompleted, h₂⟩ := ran_transition (n := n + 3) (w := { w with db := db₁ }) hquiet h₁
    (p := transitionParams data.orderId (.worker .sentToPos) .completed sent.row.version jobMeta)
    hcomplete (by simp; omega) rfl rfl rfl hversion₁ (storable_transitionParams hworker)
  refine ⟨db₂, ?_, h₂⟩
  unfold recordDispatch
  rw [ran_bind_of_ok hsaved]
  dsimp only
  rw [ran_bind_of_ok hsent, ran_bind_of_ok hfound]
  exact hcompleted

/-- An answer that `pos_response` refuses ends the execution, and the order stays where it was.
Type `JSONB` has no way to write the character NUL. -/
theorem ran_recordDispatch_of_nul (hquiet : Quiet choices) (jobMeta : JobMeta)
    {posResult : PosOrderResult} (hnul : ¬ posResult.rawResponse.nulFree = true)
    (h : db₀.BroughtTo data .saved trail w.db) :
    ∃ e, ran Op.exec choices (recordDispatch data jobMeta posResult) n w = (.error e, n + 2, w) := by
  obtain ⟨saved, hsaved, -, -⟩ := ran_findById (n := n) hquiet h
  obtain ⟨e, hrefused⟩ : ∃ e, w.db.transitionStatus
      { transitionParams data.orderId (.worker .saved) .sentToPos saved.row.version jobMeta with
        posResponse := posResult.rawResponse } (choices (n + 1)).now = .error e :=
    Database.transitionStatus_of_not_storable fun hstorable => hnul hstorable.posResponse
  refine ⟨e, ?_⟩
  have htransition : ran Op.exec choices (OrderRepository.transition
      { transitionParams data.orderId (.worker .saved) .sentToPos saved.row.version jobMeta with
        posResponse := posResult.rawResponse }) (n + 1) w = (.error e, n + 2, w) := by
    rw [OrderRepository.transition_eq, ran_call hquiet]
    show ((settle w.db (quietly (w.db.transitionStatus _ (choices (n + 1)).now))).1, n + 2,
      { w with db := (settle w.db (quietly (w.db.transitionStatus _ (choices (n + 1)).now))).2 }) = _
    rw [hrefused]
    rfl
  unfold recordDispatch
  rw [ran_bind_of_ok hsaved]
  exact ran_bind_of_error htransition

end OnTheWay

/-! ## Executions -/

/-- One of the four attempts of an execution is taken, and what the first such attempt is answered
can be stored. -/
def PosAdapter.Completes (adapter : PosAdapter) (order : DomainOrder) (choices : ℕ → Choice) : Prop :=
  ∃ result, ((List.range 4).findSome? fun j => adapter.taken? order (choices (2 * j + 6))) =
    some result ∧ result.rawResponse.nulFree = true

/-- What an undisturbed execution from `w` ends with, when the tables take its order: at most four
requests, all for the order, and one at least if it can be sent; and a completed order if the point
of sale has taken one of them with an answer that can be stored. -/
structure EndsAsTaken (choices : ℕ → Choice) (adapter : PosAdapter) (data : OrderJobPayload)
    (w : World) (result : Except OrderError Unit × World) : Prop where
  world : ∃ posts db, result.2 = ({ w with db := db } : World).posted posts ∧
    (∀ post ∈ posts, post.1.order = domainOrder data) ∧
    (posts ≠ [] ↔ adapter.CanSend (domainOrder data)) ∧ posts.length ≤ 4
  taken : adapter.Completes (domainOrder data) choices → result.1 = .ok () ∧
    w.db.BroughtTo data .completed [(none, .worker .queued),
      (some (.worker .queued), .worker .saved), (some (.worker .saved), .worker .sentToPos),
      (some (.worker .sentToPos), .worker .completed)] result.2.db
  refused : ¬ adapter.Completes (domainOrder data) choices → (∃ e, result.1 = .error e) ∧
    w.db.BroughtTo data .saved [(none, .worker .queued),
      (some (.worker .queued), .worker .saved)] result.2.db

section Executions

variable {choices : ℕ → Choice} {w : World} {data : OrderJobPayload} {jobMeta : JobMeta}
variable {store : StoreRow} {adapter : PosAdapter}

/-- Step 2, where the tables take the order. -/
theorem ran_create (hquiet : Quiet choices) {n : ℕ} {db : Database}
    (h : w.db.createOrder (createParams data jobMeta) (choices n).now = .ok (true, db)) :
    ∃ order : OrderEntity, ran Op.exec choices (OrderRepository.create (createParams data jobMeta)) n
        w = (.ok (some order), n + 2, { w with db := db }) ∧ order.row.id = data.orderId ∧
      ∀ row, db.orders.find? data.orderId = some row → row.version = order.row.version := by
  have hinserted : ran Op.exec choices
      (Op.call (.repo (.createOrder (createParams data jobMeta)))) n w =
      (.ok true, n + 1, { w with db := db }) := by
    rw [ran_call hquiet]
    show ((settle w.db (w.db.createOrder (createParams data jobMeta) (choices n).now)).1, n + 1,
      { w with db := (settle w.db (w.db.createOrder (createParams data jobMeta)
        (choices n).now)).2 }) = _
    rw [h]
    rfl
  obtain ⟨order, hfound, hid, hversion⟩ := ran_findById (n := n + 1) (w := { w with db := db })
    hquiet (Database.broughtTo_of_createOrder h)
  rw [OrderRepository.findById_eq] at hfound
  refine ⟨order, ?_, hid, hversion⟩
  rw [OrderRepository.create_eq, ran_bind_of_ok hinserted, if_pos rfl]
  exact hfound

/-- The work under the lock, from an insertion to the last transition: step 2, the transition to
`SAVED`, the look-ups, the attempts and what is recorded of them. -/
theorem ran_processWithLock (hquiet : Quiet choices)
    (hclosed : ∀ n, (choices n).circuitOpen = false) {db : Database}
    (hinsert : w.db.createOrder (createParams data jobMeta) (choices 1).now = .ok (true, db))
    (hstore : w.db.findStore data.storeId = .ok (some store))
    (hadapter : PosAdapterFactory.create store.posType store.posEndpoint store.posApiKeyEnc =
      .ok adapter) :
    ∃ r m w', ran Op.exec choices (processWithLock data jobMeta) 1 w = (r, m, w') ∧
      EndsAsTaken choices adapter data w (r, w') := by
  have hsave : OrderStatus.saved ∈ allowedTransitions .queued := by decide
  have hworker : FitsVarchar jobMeta.workerId :=
    (Database.createOrder_ok_true_iff.mp ⟨db, hinsert⟩).1
  -- the order is stored, moved to `SAVED`, and its store is found
  obtain ⟨order, hcreated, hid, hversion⟩ := ran_create (n := 1) hquiet hinsert
  obtain ⟨db₁, hsaved, h₁⟩ := ran_transition (n := 3) (w := { w with db := db }) hquiet
    (Database.broughtTo_of_createOrder hinsert)
    (p := transitionParams order.row.id (.worker .queued) .saved order.row.version jobMeta)
    hsave (by decide) hid rfl rfl hversion (storable_transitionParams hworker)
  have hfound : ran Op.exec choices (Op.call (.findStore data.storeId)) 4
      ({ w with db := db₁ } : World) = (.ok (some store), 5, { w with db := db₁ }) := by
    have hsame : db₁.findStore data.storeId = .ok (some store) := by
      unfold Database.findStore at hstore ⊢
      rw [h₁.stores]
      exact hstore
    rw [ran_call hquiet]
    exact congrArg (fun r => (r, 5, ({ w with db := db₁ } : World))) hsame
  -- the policies make up to four attempts, of which the first that is taken counts
  obtain ⟨r, m, posts, hsent, hposts, hne, hlength, hr⟩ :=
    @sends_execute choices adapter (domainOrder data) data.storeId hquiet hclosed 5
      ({ w with db := db₁ } : World)
  replace hr : ((List.range 4).findSome? fun j =>
      adapter.taken? (domainOrder data) (choices (2 * j + 6))) = r.toOption := by
    have hshift : (fun j => adapter.taken? (domainOrder data) (choices (5 + 2 * j + 1))) =
        fun j => adapter.taken? (domainOrder data) (choices (2 * j + 6)) := by
      funext j
      rw [show 5 + 2 * j + 1 = 2 * j + 6 by omega]
    rw [hr, hshift]
  have hrun : ran Op.exec choices (processWithLock data jobMeta) 1 w =
      ran Op.exec choices (PosCircuitBreakerService.execute data.storeId
        (adapter.sendOrder (domainOrder data)) >>= recordDispatch data jobMeta) 5
        ({ w with db := db₁ } : World) := by
    unfold processWithLock
    rw [ran_bind_of_ok hcreated]
    show ran Op.exec choices (transitionToSaved order jobMeta >>= _) 3 _ = _
    unfold transitionToSaved
    rw [ran_bind_of_ok hsaved]
    unfold sendToPos
    rw [ran_bind_of_ok hfound]
    dsimp only
    rw [hadapter]
  cases r with
  | ok posResult =>
      -- what is left is to record the reply, which `JSONB` refuses if it has a NUL in it
      by_cases hnulFree : posResult.rawResponse.nulFree = true
      · obtain ⟨db₂, hrecorded, h₂⟩ := ran_recordDispatch (n := m)
          (w := ({ w with db := db₁ } : World).posted posts) hquiet jobMeta hnulFree hworker h₁
          (by decide)
        refine ⟨_, _, _, hrun.trans ((ran_bind_of_ok hsent).trans hrecorded), ?_⟩
        exact ⟨⟨posts, db₂, rfl, hposts, hne, hlength⟩, fun _ => ⟨rfl, h₂⟩,
          fun hrefused => absurd ⟨posResult, hr, hnulFree⟩ hrefused⟩
      · obtain ⟨e, hrecorded⟩ := ran_recordDispatch_of_nul (n := m)
          (w := ({ w with db := db₁ } : World).posted posts) hquiet jobMeta hnulFree h₁
        refine ⟨_, _, _, hrun.trans ((ran_bind_of_ok hsent).trans hrecorded), ?_⟩
        refine ⟨⟨posts, db₁, rfl, hposts, hne, hlength⟩, ?_, fun _ => ⟨⟨e, rfl⟩, h₁⟩⟩
        rintro ⟨result, htaken, hstored⟩
        obtain rfl : posResult = result := Option.some.inj (hr.symm.trans htaken)
        exact absurd hstored hnulFree
  | error e =>
      refine ⟨_, _, _, hrun.trans (ran_bind_of_error hsent), ?_⟩
      refine ⟨⟨posts, db₁, rfl, hposts, hne, hlength⟩, ?_, fun _ => ⟨⟨e, rfl⟩, h₁⟩⟩
      rintro ⟨result, htaken, -⟩
      cases hr.symm.trans htaken

/-- A release undoes the acquire, whatever the tables and the points of sale have got since.  The
lock was free before and is free again. -/
theorem World.lockRelease_taken (w : World) {id : Uuid} (hfree : w.locks id = none)
    (token : LockToken) (db : Database) (posts : List (PosRequest × Time)) :
    (World.posted { w with db := db, locks := Function.update w.locks id (some token) }
      posts).lockRelease id token = World.posted { w with db := db } posts := by
  have hrestored : Function.update (Function.update w.locks id (some token)) id none = w.locks := by
    rw [Function.update_idem, ← hfree, Function.update_eq_self]
  unfold World.lockRelease World.posted
  dsimp only
  rw [if_pos (Function.update_self ..), hrestored]

/-- The whole execution, where the lock is free: it is so afterwards. -/
theorem run_process (hquiet : Quiet choices) (hclosed : ∀ n, (choices n).circuitOpen = false)
    (hfree : w.locks data.orderId = none) {db : Database}
    (hinsert : w.db.createOrder (createParams data jobMeta) (choices 1).now = .ok (true, db))
    (hstore : w.db.findStore data.storeId = .ok (some store))
    (hadapter : PosAdapterFactory.create store.posType store.posEndpoint store.posApiKeyEnc =
      .ok adapter) :
    EndsAsTaken choices adapter data w (run Op.exec choices (process data jobMeta) 0 w) := by
  let token : LockToken := ⟨jobMeta.workerId, jobMeta.jobId⟩
  let locked : World := { w with locks := Function.update w.locks data.orderId (some token) }
  -- the lock is free, so it is set around all the rest and deleted at the end
  have hacquired : ran Op.exec choices (DistributedLockService.acquireOrThrow data.orderId token) 0 w =
      (.ok (), 1, locked) := by
    have hset : ran Op.exec choices (DistributedLockService.acquire data.orderId token) 0 w =
        (.ok true, 1, locked) := by
      unfold DistributedLockService.acquire
      rw [ran_call hquiet]
      show (Except.ok (w.lockSetNx data.orderId token).1, 1, (w.lockSetNx data.orderId token).2) = _
      unfold World.lockSetNx
      rw [hfree]
    unfold DistributedLockService.acquireOrThrow
    rw [ran_bind_of_ok hset]
    rfl
  obtain ⟨r, m, w', hran, hends⟩ := ran_processWithLock (w := locked) hquiet hclosed hinsert hstore
    hadapter
  obtain ⟨posts, db', hworld, hposts⟩ := hends.world
  dsimp only at hworld
  have hreleased : ran Op.exec choices (DistributedLockService.release data.orderId token) m w' =
      (.ok (), m + 1, ({ w with db := db' } : World).posted posts) := by
    unfold DistributedLockService.release
    rw [ran_call hquiet, hworld]
    exact congrArg (fun w => (Except.ok (), m + 1, w)) (w.lockRelease_taken hfree token db' posts)
  -- the `finally` block leaves the outcome as it is
  have hprocess : run Op.exec choices (process data jobMeta) 0 w =
      (r, ({ w with db := db' } : World).posted posts) := by
    rw [run_eq_ran]
    unfold process
    rw [ran_bind_of_ok hacquired, ran_tryFinally hran hreleased]
  rw [hprocess]
  refine ⟨⟨posts, db', rfl, hposts⟩, fun htaken => ?_, fun hrefused => ?_⟩
  · have htaken := hends.taken htaken
    rw [hworld] at htaken
    exact htaken
  · have hrefused := hends.refused hrefused
    rw [hworld] at hrefused
    exact hrefused

end Executions

/-- **What becomes of an accepted order.**  In every run that starts with conforming menus and an
empty menu cache, an undisturbed execution for a published order that is storable, whose key is not
used and whose lock is free, completes the order if its point of sale takes one of four attempts
and the first such answer can be stored, and otherwise throws with the order at `SAVED`; requests
are sent exactly if the order's headers admit it; the lock is free again, and nothing else has
changed. -/
theorem accepted_order_outcome {config : AppConfig} {ok : CatalogLabel → OrderPool → Prop}
    {P₀ P : OrderPool} (hinit : ∀ i, P₀.threads i = none)
    (hempty : ∀ key, P₀.world.menuCache key = none)
    (hmenus : ∀ menu ∈ P₀.world.db.menus, menu.Conforms)
    (h : (catalogSystem config).Reaches ok P₀ P) {i : ℕ} {t : OrderThread}
    (ht : P.threads i = some t) {cmd : CreateOrderCommand} {ctx : ApiContext}
    (hrequest : t.request = .createOrder cmd ctx) (hsubmitted : Submitted cmd)
    {data : OrderJobPayload} (hpublished : ∃ e ∈ t.hist, e.op = .mainQueueAdd data)
    (jobMeta : JobMeta) (hstorable : Storable P.world.db cmd ctx jobMeta.workerId)
    (hunused : P.world.db.findByKey? cmd.idempotencyKey = none)
    (hfree : P.world.locks data.orderId = none) {store : StoreRow}
    (hstore : P.world.db.findStore data.storeId = .ok (some store)) {adapter : PosAdapter}
    (hadapter : PosAdapterFactory.create store.posType store.posEndpoint store.posApiKeyEnc =
      .ok adapter)
    {choices : ℕ → Choice} (hquiet : Quiet choices)
    (hclosed : ∀ n, (choices n).circuitOpen = false) :
    EndsAsTaken choices adapter data P.world
      (run Op.exec choices (process data jobMeta) 0 P.world) := by
  obtain ⟨answer, amount, items, hanswer, hvalid, rfl⟩ :=
    validated_of_issues hinit hempty hmenus h ht hrequest (.inr hpublished)
  have hstored : ∃ result, P.world.db.createOrder
      (createParams (payload cmd ctx amount items) jobMeta) (choices 1).now = .ok result :=
    (createOrder_ok_iff_of_validated hanswer hvalid hsubmitted.userId).mpr hstorable
  obtain ⟨-, hused | hadmits⟩ := Database.createOrder_ok_iff.mp hstored
  · replace hused : (P.world.db.findByKey? cmd.idempotencyKey).isSome := hused
    rw [hunused] at hused
    cases hused
  · obtain ⟨db, hinsert⟩ := Database.createOrder_ok_true_iff.mpr hadmits
    exact run_process hquiet hclosed hfree hinsert hstore hadapter

/-! ### Two chickens -/

/-- The job that a call publishes. -/
def Op.published? : Op → Option OrderJobPayload
  | .mainQueueAdd data => some data
  | _ => none

/-- The order that a thread has published. -/
def published? (t : OrderThread) : Option (CreateOrderCommand × ApiContext × OrderJobPayload) :=
  match t.request with
  | .createOrder cmd ctx => (t.hist.findSome? fun e => e.op.published?).map fun data =>
      (cmd, ctx, data)
  | _ => none

/-- It has published that job in its own history. -/
theorem published?_eq_some {t : OrderThread} {cmd : CreateOrderCommand} {ctx : ApiContext}
    {data : OrderJobPayload} (h : published? t = some (cmd, ctx, data)) :
    t.request = .createOrder cmd ctx ∧ ∃ e ∈ t.hist, e.op = .mainQueueAdd data := by
  unfold published? at h
  split at h
  · rename_i hrequest
    obtain ⟨data', hfound, hdata⟩ := Option.map_eq_some_iff.mp h
    cases hdata
    obtain ⟨e, he, hop⟩ := List.exists_of_findSome?_eq_some hfound
    refine ⟨hrequest, e, he, ?_⟩
    unfold Op.published? at hop
    split at hop
    · rename_i heq
      cases hop
      exact heq
    · cases hop
  · cases h

/-- Two chickens, as `POST /internal/orders` takes them. -/
def wholeDto : BridgeOrderDto where
  orderId := "bbq-1"
  storeId := "11111111-1111-1111-1111-111111111111"
  items := [⟨"aaaaaaaa-aaaa-aaaa-aaaa-aaaaaaaaaaaa", .finite 2⟩]
  totalAmount := .finite 36000

/-- The job that is published for so many of them. -/
def chickenPayload (cmd : CreateOrderCommand) (amount : String) (quantity : ℚ) : OrderJobPayload :=
  payload cmd seedContext amount
    [⟨"aaaaaaaa-aaaa-aaaa-aaaa-aaaaaaaaaaaa", "후라이드치킨", 18000, .finite quantity⟩]

/-- The API has taken the order. -/
def queuedRun : List CatalogLabel :=
  .spawn 0 (.createOrder (InternalBridgeController.command wholeDto) seedContext) ::
    List.replicate 7 (.act 0 (.undisturbed 0))

theorem queuedRun_replays : ((catalogSystem seedConfig).replay queuedRun
    (Pool.init (World.init .seed))).isSome = true := by
  decide +kernel

/-- The pool once the job is on the queue. -/
def queuedPool : OrderPool :=
  (catalogSystem seedConfig).after queuedRun (Pool.init (World.init .seed)) queuedRun_replays

/-- The job of the order. -/
def wholePayload : OrderJobPayload :=
  chickenPayload (InternalBridgeController.command wholeDto) "36000.00" 2

theorem queuedPool_reaches : (catalogSystem seedConfig).Reaches (fun _ _ => True)
    (Pool.init (World.init .seed)) queuedPool :=
  .after (.of_forall (fun _ _ => trivial) _ _) queuedRun_replays

/-- The first thread of the run is the call that has published the job. -/
theorem queuedPool_published : ∃ t, queuedPool.threads 0 = some t ∧
    t.request = .createOrder (InternalBridgeController.command wholeDto) seedContext ∧
    ∃ e ∈ t.hist, e.op = .mainQueueAdd wholePayload := by
  have hthread : (queuedPool.threads 0).bind published? =
      some (InternalBridgeController.command wholeDto, seedContext, wholePayload) := by
    decide +kernel
  obtain ⟨t, ht, hpublished⟩ := Option.bind_eq_some_iff.mp hthread
  exact ⟨t, ht, published?_eq_some hpublished⟩

deriving instance DecidableEq for StoreRow

theorem storable_queuedPool :
    Storable queuedPool.world.db (InternalBridgeController.command wholeDto) seedContext
      (seedJob 0).workerId := by
  obtain ⟨t, ht, hrequest, hpublished⟩ := queuedPool_published
  obtain ⟨answer, amount, items, hanswer, hvalid, hdata⟩ :=
    validated_of_issues (fun _ => rfl) (fun _ => rfl) Database.seed_conforms queuedPool_reaches ht
      hrequest (.inr hpublished)
  have hstored : ((queuedPool.world.db.createOrder (createParams wholePayload (seedJob 0)) 0).map
      fun _ => ()) = .ok () := by
    decide +kernel
  have hresult : ∃ result, queuedPool.world.db.createOrder
      (createParams wholePayload (seedJob 0)) 0 = .ok result := by
    cases hcreated : queuedPool.world.db.createOrder (createParams wholePayload (seedJob 0)) 0 with
    | ok result => exact ⟨result, rfl⟩
    | error e =>
        rw [hcreated] at hstored
        cases hstored
  rw [hdata] at hresult
  exact (createOrder_ok_iff_of_validated hanswer hvalid (Submitted.bridgeOrder wholeDto).userId).mp
    hresult

theorem canSend_whole : PosAdapter.CanSend (.modernV2 "http://pos-modern:8080" none)
    (domainOrder wholePayload) := by
  decide +kernel

/-- The first attempt is taken, and the order is completed. -/
theorem accepted_order_outcome_whole : ∃ adapter,
    PosAdapter.Completes adapter (domainOrder wholePayload) (fun n => .undisturbed n) ∧
    EndsAsTaken (fun n => .undisturbed n) adapter wholePayload queuedPool.world
      (run Op.exec (fun n => .undisturbed n) (process wholePayload (seedJob 0)) 0
        queuedPool.world) := by
  obtain ⟨t, ht, hrequest, hpublished⟩ := queuedPool_published
  have hunused : queuedPool.world.db.findByKey?
      (InternalBridgeController.command wholeDto).idempotencyKey = none := by
    decide +kernel
  have hfree : queuedPool.world.locks wholePayload.orderId = none := by
    decide +kernel
  have hstoreId : uuidColumn wholePayload.storeId = .ok ⟨0x11111111111111111111111111111111⟩ := by
    decide +kernel
  have hrow : (queuedPool.world.db.stores.find? fun store =>
      store.id = ⟨0x11111111111111111111111111111111⟩) = some ⟨⟨0x11111111111111111111111111111111⟩,
        "MODERN_V2", "http://pos-modern:8080", none⟩ := by
    decide +kernel
  have hstore : queuedPool.world.db.findStore wholePayload.storeId = .ok (some
      ⟨⟨0x11111111111111111111111111111111⟩, "MODERN_V2", "http://pos-modern:8080", none⟩) := by
    unfold Database.findStore
    rw [hstoreId]
    exact congrArg Except.ok hrow
  refine ⟨.modernV2 "http://pos-modern:8080" none, ⟨⟨.undefined, .object []⟩, ?_, rfl⟩, ?_⟩
  · rw [List.range_succ_eq_map, List.findSome?_cons, PosAdapter.taken?, if_pos canSend_whole]
    rfl
  exact accepted_order_outcome (fun _ => rfl) (fun _ => rfl) Database.seed_conforms
    queuedPool_reaches ht hrequest (.bridgeOrder wholeDto) hpublished (seedJob 0)
    storable_queuedPool hunused hfree hstore rfl (fun _ => rfl) (fun _ => rfl)

end ChickenOrder
