import ChickenOrder.Services.Calls

/-!
# Status updates from the point of sale

Both `PATCH` handlers ought to answer `ok` only for an order that exists and now
has the requested status, announce it to the room of its store, and answer 404
for an order that does not exist; this matters because the API announces an order
before a worker stores it.  `StatusReported` says this of a finished handler.

`transitionStatus` takes the count out of the pair its `UPDATE` returns; the
handlers take the pair itself for the rows.  A pair is never empty and its first
component has no columns, so a handler that does not throw always answers `ok`
and emits `undefined`: see `announceStatus_eq`.

An `UPDATE` has four cases.  A row that is changed is answered with `ok`, but announced to no
room; a missing row is answered with `ok`, too; a malformed id fails with 500, where 404 was asked
for.  Only a text that is no status, for a row that exists, fails as it ought to, and that is what
`statusReported_iff` says.
-/

namespace ChickenOrder

open Interaction Interaction.Program

/-- The row that a path parameter names.  Postgres compares UUIDs, not texts, so that the letter
case of the parameter does not matter; a text that is no UUID names none. -/
def Database.rowOf? (db : Database) (orderId : String) : Option OrderRow :=
  match uuidColumn orderId with
  | .ok id => db.orders.find? id
  | .error _ => none

/-- The status and the order a request asks to write, if its handler goes on with it: not where
the status is missing, or has no text. -/
def Request.statusUpdate? : Request → Option (String × String)
  | .updateStatus orderId status => some (status.text, orderId)
  | .updateOrderStatus id body =>
      if ¬ (PublicController.statusValue body).hasText then none
      else if PublicController.requestedStatus body = "" then none
      else some (PublicController.requestedStatus body, id)
  | _ => none

/-- The thread `u` has told the truth about its `UPDATE`, which found the database `db` and left
`db'`.  The two databases are those around that one statement, so that nothing is asked of what
other threads do before the handler answers. -/
structure StatusReported (db db' : Database) (text orderId : String) (u : OrderThread) : Prop where
  /-- It answers `ok` only for a row that now has the status, and has told the
  row's store. -/
  told : ∀ body, u.Returned (.answered body) → body.get "ok" = .bool true →
    ∃ row row', db.rowOf? orderId = some row ∧ db'.rowOf? orderId = some row' ∧
      row'.status.text = text ∧
      (⟨.emitOrderUpdated (.string row'.storeId.toText) orderId (.string text), .ok ()⟩ :
        OrderEvent) ∈ u.hist
  /-- It answers 404 for a missing row, and tells nobody. -/
  missing : db.rowOf? orderId = none → (∃ message, u.Threw (.http 404 message)) ∧
    ∀ e ∈ u.hist, ∀ storeId status, e.op ≠ .emitOrderUpdated storeId orderId status

/-- What the handlers answer whatever the `UPDATE` returned.  The status that is read back is a
property of a number, and so `undefined`. -/
def updateAnswer (orderId : String) : JsValue :=
  .object [("ok", .bool true), ("orderId", .string orderId), ("status", .undefined)]

/-- **The handlers never look at a row.** Whatever the `UPDATE` has returned, neither of the two
components has the columns that they read. -/
theorem announceStatus_eq (orderId : String) (result : UpdateResult) :
    announceStatus orderId result =
      Op.call (.emitOrderUpdated .undefined orderId .undefined) >>= fun _ =>
        return updateAnswer orderId := rfl

/-- A handler that has its `UPDATE` answered. -/
def announce (orderId : String) : Service Outcome :=
  Op.call (.emitOrderUpdated .undefined orderId .undefined) >>= fun _ =>
    return .answered (updateAnswer orderId)

/-- What is left of a handler once its message is emitted, or cannot be.  Only the second of these
ends with an error. -/
def announceAfter (orderId : String) : Except OrderError Unit → Service Outcome
  | .ok () => .pure (.answered (updateAnswer orderId))
  | .error e => .throw e

theorem announce_eq (orderId : String) :
    announce orderId =
      .call (.emitOrderUpdated .undefined orderId .undefined) (announceAfter orderId) :=
  congrArg (Program.call _) (funext fun r => by cases r <;> rfl)

/-- A handler makes the `UPDATE` first, and goes on with what does not depend on its result. -/
theorem Request.program_of_statusUpdate? (config : AppConfig) {q : Request} {text orderId : String}
    (h : q.statusUpdate? = some (text, orderId)) :
    q.program config = Op.call (.patchStatus text orderId) >>= fun _ => announce orderId := by
  have hhandler : ∀ text orderId, ((Op.call (.patchStatus text orderId) >>= fun result =>
      announceStatus orderId result) >>= fun body => return .answered body) =
      Op.call (.patchStatus text orderId) >>= fun _ => announce orderId :=
    fun text orderId => (bind_assoc _ _ _).trans
      (congrArg (Program.bind _) (funext fun _ => bind_assoc _ _ _))
  cases q with
  | updateStatus id status =>
      simp only [statusUpdate?, Option.some.injEq, Prod.mk.injEq] at h
      obtain ⟨rfl, rfl⟩ := h
      exact hhandler status.text id
  | updateOrderStatus id body =>
      rw [statusUpdate?] at h
      split at h
      · cases h
      rename_i htext
      split at h
      · cases h
      rename_i hempty
      simp only [Option.some.injEq, Prod.mk.injEq] at h
      obtain ⟨rfl, rfl⟩ := h
      have hbody : PublicController.updateOrderStatus id body =
          Op.call (.patchStatus (PublicController.requestedStatus body) id) >>= fun result =>
            announceStatus id result := (if_neg htext).trans (if_neg hempty)
      show (PublicController.updateOrderStatus id body >>= _) = _
      rw [hbody]
      exact hhandler _ id
  | _ => simp [statusUpdate?] at h

/-- The `UPDATE` fails on a malformed id, and on a text that is no status if there
is a row to write it to. -/
theorem World.patchStatus_cases (w : World) (text orderId : String) (now : Time) :
    (∃ reason, (w.patchStatus text orderId now).1 = .error (.other reason) ∧
      (w.db.rowOf? orderId = none ∨ RowStatus.ofText? text = none)) ∨
    ∃ result, (w.patchStatus text orderId now).1 = .ok result ∧
      (w.db.rowOf? orderId = none ∨ RowStatus.ofText? text ≠ none) := by
  unfold World.patchStatus Database.patchStatus Database.rowOf?
  cases hid : uuidColumn orderId with
  | error e =>
      refine .inl ?_
      unfold uuidColumn at hid
      split at hid
      · cases hid
      · cases hid
        exact ⟨_, rfl, .inl rfl⟩
  | ok id =>
      by_cases hfits : FitsText text
      swap
      · refine .inl ⟨_, by rw [textColumn_of_not_fits hfits]; rfl, .inr ?_⟩
        cases htext : RowStatus.ofText? text with
        | none => rfl
        | some next => exact absurd (fitsText_of_ofText? htext) hfits
      rw [textColumn_of_fits hfits]
      cases hrow : w.db.orders.find? id with
      | none => simp [hrow]
      | some row =>
          cases htext : RowStatus.ofText? text with
          | none => simp [hrow, htext, queryFailed]
          | some next => simp [hrow, htext]

section Handlers

variable {config : AppConfig} {P P' P'' : OrderPool} {text orderId : String} {i : ℕ} {c : Choice}

/-- No call of the thread `i` is lost.  What a handler says about a statement whose answer it has
not got is another matter. -/
def CallsAnswered (i : ℕ) (ℓ : OrderLabel) (_ : OrderPool) : Prop :=
  ∀ c, ℓ = .act i c → c.fault = .none

/-- **Status updates are reported truthfully only if they fail.**  Whatever the
database and whatever happens meanwhile, a handler whose calls are answered ends as
it ought to if and only if its `UPDATE` finds a row and the table's `CHECK` rejects
the text. -/
theorem statusReported_iff {q : Request} {u : OrderThread}
    (hq : q.statusUpdate? = some (text, orderId))
    (ht : P.threads i = some ((orderSystem config).start q)) (hanswered : c.fault = .none)
    (hstep : (orderSystem config).step (.act i c) P = some P')
    (hreach : (orderSystem config).Reaches (CallsAnswered i) P' P'')
    (hu : P''.threads i = some u) (hended : u.rest.next = none) :
    StatusReported P.world.db P'.world.db text orderId u ↔
      P.world.db.rowOf? orderId ≠ none ∧ RowStatus.ofText? text = none := by
  obtain ⟨t, ht', -, hhist, hok, herror⟩ :=
    (orderSystem config).step_bind ht (Request.program_of_statusUpdate? config hq) hstep
  have hexec : ((orderSystem config).exec (.patchStatus text orderId) c P.world).1 =
      (P.world.patchStatus text orderId c.now).1 := by
    show (Op.exec _ c P.world).1 = _
    rw [Op.exec_undisturbed hanswered]
    rfl
  obtain ⟨reason, hpatch, hcause⟩ | ⟨result, hpatch, hcause⟩ :=
    P.world.patchStatus_cases text orderId c.now
  · -- the handler has thrown what the query threw
    have hthrew : t.rest = .throw (.other reason) := herror _ (hexec.trans hpatch)
    have hut : u = t := by
      have hkept := hreach.finished ht' (by rw [hthrew]; rfl)
      exact Option.some.inj (hu.symm.trans hkept)
    subst hut
    constructor
    · intro hreported
      have hrow : P.world.db.rowOf? orderId ≠ none := by
        intro hnone
        obtain ⟨⟨message, hmessage⟩, -⟩ := hreported.missing hnone
        rw [Thread.Threw, hthrew] at hmessage
        cases hmessage
      exact ⟨hrow, hcause.resolve_left hrow⟩
    · rintro ⟨hrow, -⟩
      refine ⟨fun body hreturned => ?_, fun hnone => absurd hnone hrow⟩
      rw [Thread.Returned, hthrew] at hreturned
      cases hreturned
  · -- the handler goes on to tell a store it does not know
    have hrest : t.rest = .call (.emitOrderUpdated .undefined orderId .undefined)
        (announceAfter orderId) :=
      (hok _ (hexec.trans hpatch)).trans (announce_eq orderId)
    have hlast : ∀ r, (announceAfter orderId r).next = none := by
      rintro (e | _)
      · rfl
      · rfl
    obtain hwaits | ⟨P₁, c₁, -, hok₁, hdone⟩ := hreach.lastCall ht' hrest hlast
    · rw [hu, Option.some.injEq] at hwaits
      rw [hwaits, hrest] at hended
      cases hended
    · have hemitted : ((orderSystem config).exec (.emitOrderUpdated .undefined orderId .undefined) c₁
          P₁.world).1 = .ok () := by
        show (Op.exec _ c₁ P₁.world).1 = _
        rw [Op.exec_undisturbed (hok₁ c₁ rfl)]
        rfl
      rw [hu, hemitted, Option.some.injEq] at hdone
      have hreturned : u.Returned (.answered (updateAnswer orderId)) := by
        rw [hdone]
        rfl
      constructor
      · intro hreported
        obtain ⟨row, row', -, -, -, hmem⟩ := hreported.told _ hreturned rfl
        rw [hdone] at hmem
        -- the two events of the handler name no store
        simp [Thread.answered, hhist, System.start] at hmem
      · rintro ⟨hrow, htext⟩
        exact absurd htext (hcause.resolve_left hrow)

end Handlers

/-! ### A status update before the worker -/

/-- The API has announced the order to its store; no worker has stored it yet.  This is the moment
that the point of sale may ask for `ACCEPTED` in. -/
def announcedRun : List OrderLabel :=
  [.spawn 0 (.createOrder seedCommand seedContext), .act 0 (.undisturbed 1),
    .act 0 (.undisturbed 2), .act 0 (.undisturbed 3), .act 0 (.undisturbed 4),
    .act 0 (.undisturbed 5), .act 0 (.undisturbed 6)]

/-- The point of sale asks for `ACCEPTED`. -/
def acceptRequest : Request := .updateStatus seedOrderId .accepted

theorem announcedRun_replays : ((orderSystem seedConfig).replay announcedRun
    (Pool.init (World.init .seed))).isSome = true := by
  decide +kernel

/-- The pool once the order is announced. -/
def announcedPool : OrderPool :=
  (orderSystem seedConfig).after announcedRun (Pool.init (World.init .seed)) announcedRun_replays

theorem announcedPool_asks :
    ((orderSystem seedConfig).replay [.spawn 1 acceptRequest] announcedPool).isSome = true := by
  decide +kernel

/-- The handler has been started. -/
def askedPool : OrderPool :=
  (orderSystem seedConfig).after [.spawn 1 acceptRequest] announcedPool announcedPool_asks

theorem askedPool_writes :
    ((orderSystem seedConfig).replay [.act 1 (.undisturbed 7)] askedPool).isSome = true := by
  decide +kernel

/-- It has made its `UPDATE`. -/
def writtenPool : OrderPool :=
  (orderSystem seedConfig).after [.act 1 (.undisturbed 7)] askedPool askedPool_writes

theorem writtenPool_answers :
    ((orderSystem seedConfig).replay [.act 1 (.undisturbed 8)] writtenPool).isSome = true := by
  decide +kernel

/-- It has answered. -/
def answeredPool : OrderPool :=
  (orderSystem seedConfig).after [.act 1 (.undisturbed 8)] writtenPool writtenPool_answers

/-- The handler answers, although there is no row for it to have changed. -/
theorem answeredPool_eq : (answeredPool.threads 1).map Thread.phase = some .returned ∧
    (askedPool.world.db.rowOf? seedOrderId).isNone = true := by
  decide +kernel

theorem answeredPool_thread : ∃ u, answeredPool.threads 1 = some u ∧ u.phase = .returned := by
  obtain ⟨u, hu, hphase⟩ := Option.map_eq_some_iff.mp answeredPool_eq.1
  exact ⟨u, hu, hphase⟩

theorem askedPool_thread :
    askedPool.threads 1 = some ((orderSystem seedConfig).start acceptRequest) :=
  (orderSystem seedConfig).step_spawn (System.step_after announcedPool_asks)

theorem writtenPool_reaches :
    (orderSystem seedConfig).Reaches (CallsAnswered 1) writtenPool answeredPool := by
  refine System.Reaches.after ?_ writtenPool_answers
  show _ ∧ _
  refine ⟨?_, fun _ _ => trivial⟩
  intro c hc
  cases hc
  rfl

theorem statusReported_iff_announced : ∃ u, answeredPool.threads 1 = some u ∧
    (StatusReported askedPool.world.db writtenPool.world.db "ACCEPTED" seedOrderId u ↔
      askedPool.world.db.rowOf? seedOrderId ≠ none ∧ RowStatus.ofText? "ACCEPTED" = none) := by
  obtain ⟨u, hu, hphase⟩ := answeredPool_thread
  obtain ⟨a, ha⟩ := Thread.phase_eq_returned hphase
  refine ⟨u, hu, statusReported_iff (q := acceptRequest) rfl askedPool_thread rfl
    (System.step_after askedPool_writes) writtenPool_reaches hu ?_⟩
  rw [ha]
  rfl

/-- **A status update can be lost with an `ok`**: the point of sale answers a
`new_order` before the worker has stored the order. -/
theorem not_statusReported_of_announced :
    ¬ ∀ (config : AppConfig) (db : Database) (P P' P'' : OrderPool) (i : ℕ) (c : Choice)
        (q : Request) (text orderId : String) (u : OrderThread),
      (orderSystem config).Reaches (fun _ _ => True) (Pool.init (World.init db)) P →
      q.statusUpdate? = some (text, orderId) →
      P.threads i = some ((orderSystem config).start q) → c.fault = .none →
      (orderSystem config).step (.act i c) P = some P' →
      (orderSystem config).Reaches (CallsAnswered i) P' P'' →
      P''.threads i = some u → u.rest.next = none →
      StatusReported P.world.db P'.world.db text orderId u := by
  intro h
  obtain ⟨u, hu, hphase⟩ := answeredPool_thread
  obtain ⟨a, ha⟩ := Thread.phase_eq_returned hphase
  have hreach : (orderSystem seedConfig).Reaches (fun _ _ => True)
      (Pool.init (World.init .seed)) askedPool :=
    Relation.ReflTransGen.trans
      (System.Reaches.after (.of_forall (fun _ _ => trivial) _ _) announcedRun_replays)
      (System.Reaches.after (.of_forall (fun _ _ => trivial) _ _) announcedPool_asks)
  have hreported := h seedConfig .seed askedPool writtenPool answeredPool 1 _ acceptRequest
    "ACCEPTED" seedOrderId u hreach rfl askedPool_thread rfl (System.step_after askedPool_writes)
    writtenPool_reaches hu (by rw [ha]; rfl)
  obtain ⟨⟨message, hmessage⟩, -⟩ := hreported.missing (by simpa using answeredPool_eq.2)
  rw [Thread.Threw, ha] at hmessage
  cases hmessage

end ChickenOrder
