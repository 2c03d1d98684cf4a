import ChickenOrder.Services.Calls

/-!
# `COMPLETED` and the answer of the point of sale

`sendToPos` ought to record a dispatch only if the point of sale answered with an
order id.  `Confirmed` says that an execution has seen such an answer.  The adapters
accept more: the legacy one makes up an id for a document without `<ORDER_ID>`, the
modern one takes any value for the id, also a missing one.

`ClearAnswers` is the condition on the answers under which this makes no difference:
each one names an order id or makes its adapter throw.

The protocol `dispatches` says of an execution what it has seen when it records a dispatch,
against answers that are clear; the programs are checked against it method by method.  What the
adapters accept is a matter of their parsers, `matchOrderId_isSome` and
`not_nullish_of_orderIdOf`.
-/

namespace ChickenOrder

open Interaction Interaction.Program

/-! ## The order id of an answer -/

/-- The text starts with a non-empty text that ends at `</ORDER_ID>`. -/
def StartsWithId (cs : List Char) : Prop :=
  ∃ id after, id ≠ [] ∧ '<' ∉ id ∧ cs = id ++ ("</ORDER_ID>".toList ++ after)

/-- The text holds an element `<ORDER_ID>` with a non-empty text. -/
def HasOrderId (xml : List Char) : Prop :=
  ∃ before rest, xml = before ++ ("<ORDER_ID>".toList ++ rest) ∧ StartsWithId rest

/-- An element is at the front of a text, or behind its first character. -/
theorem hasOrderId_cons (c : Char) (cs : List Char) :
    HasOrderId (c :: cs) ↔
      (∃ rest, c :: cs = "<ORDER_ID>".toList ++ rest ∧ StartsWithId rest) ∨ HasOrderId cs := by
  constructor
  · rintro ⟨_ | ⟨d, before⟩, rest, hxml, hrest⟩
    · exact .inl ⟨rest, hxml, hrest⟩
    · rw [List.cons_append, List.cons.injEq] at hxml
      exact .inr ⟨before, rest, hxml.2, hrest⟩
  · rintro (⟨rest, hxml, hrest⟩ | ⟨before, rest, rfl, hrest⟩)
    · exact ⟨[], rest, hxml, hrest⟩
    · exact ⟨c :: before, rest, rfl, hrest⟩

namespace LegacyV1PosAdapter

/-- The rest of the expression matches exactly such a text. -/
theorem readOrderId_isSome (cs : List Char) : (readOrderId cs).isSome ↔ StartsWithId cs := by
  have hsplit := List.takeWhile_append_dropWhile (p := fun c => c ≠ '<') (l := cs)
  constructor
  · intro h
    simp only [readOrderId] at h
    split at h
    · cases h
    · rename_i hid
      split at h
      · rename_i hend
        obtain ⟨after, hafter⟩ := List.isPrefixOf_iff_prefix.mp hend
        refine ⟨cs.takeWhile fun c => c ≠ '<', after, by simpa using hid, ?_, ?_⟩
        · intro hmem
          simpa using List.all_eq_true.mp List.all_takeWhile _ hmem
        · rw [hafter]
          exact hsplit.symm
      · cases h
  · rintro ⟨id, after, hid, hlt, rfl⟩
    have hpos : ∀ c ∈ id, decide (c ≠ '<') = true := by
      intro c hc
      rw [decide_eq_true_eq]
      rintro rfl
      exact hlt hc
    have htake : (id ++ ("</ORDER_ID>".toList ++ after)).takeWhile (fun c => c ≠ '<') = id := by
      rw [List.takeWhile_append_of_pos hpos]
      simp
    have hdrop : (id ++ ("</ORDER_ID>".toList ++ after)).dropWhile (fun c => c ≠ '<') =
        "</ORDER_ID>".toList ++ after := by
      rw [List.dropWhile_append_of_pos hpos]
      simp
    have hprefix : "</ORDER_ID>".toList.isPrefixOf ("</ORDER_ID>".toList ++ after) = true :=
      List.isPrefixOf_iff_prefix.mpr ⟨after, rfl⟩
    simp only [readOrderId]
    rw [htake, hdrop, if_neg (by simpa using hid), if_pos hprefix]
    rfl

/-- **The regular expression finds an id if and only if there is one.** The source takes any text
without one for an acceptance, too. -/
theorem matchOrderId_isSome (cs : List Char) : (matchOrderId cs).isSome ↔ HasOrderId cs := by
  induction cs with
  | nil =>
      constructor
      · intro h
        cases h
      · rintro ⟨before, rest, hxml, -⟩
        simp at hxml
  | cons c cs ih =>
      rw [hasOrderId_cons, matchOrderId, ← ih]
      split
      · rename_i hopen
        obtain ⟨rest, hrest⟩ := List.isPrefixOf_iff_prefix.mp hopen
        have hdrop : (c :: cs).drop 10 = rest := by
          rw [← hrest]
          rfl
        rw [hdrop, Option.isSome_or, Bool.or_eq_true, readOrderId_isSome]
        refine or_congr ⟨fun h => ⟨rest, hrest.symm, h⟩, ?_⟩ Iff.rfl
        rintro ⟨rest', hrest', hid⟩
        rw [← hrest] at hrest'
        rwa [List.append_cancel_left hrest']
      · rename_i hopen
        rw [or_iff_right]
        rintro ⟨rest, hrest, -⟩
        exact hopen (List.isPrefixOf_iff_prefix.mpr ⟨rest, hrest.symm⟩)

end LegacyV1PosAdapter

/-- The value of a field is there, and not empty as text. -/
def JsValue.IsPresent (v : JsValue) : Prop := v.isNullish = false ∧ v.toText ≠ ""

/-- An answer in which a point of sale of this type names its order id: a legacy one in an element,
a modern one in the field `id`. -/
def NamesOrderId (posType : String) (data : JsValue) : Prop :=
  if posType = "LEGACY_V1" then ∃ xml, data = .string xml ∧ HasOrderId xml.toList
  else (data.get "id").IsPresent

/-! ## What the adapters accept -/

/-- The `status` of a `PosOrderResult`. -/
inductive PosResultStatus
  | accepted
  | rejected

/-- Both adapters put `ACCEPTED` into every result. -/
def PosOrderResult.status (_ : PosOrderResult) : PosResultStatus := .accepted

/-- An answer to a request to `path` that names an order id or is not accepted: a
legacy answer that is text holds an `<ORDER_ID>`, a modern one that is an object holds
an `id`. -/
def ClearAnswer (path : String) (data : JsValue) : Prop :=
  if path = "/order/receive" then ∀ xml, data = .string xml → HasOrderId xml.toList
  else data.isNullish = false → (data.get "id").IsPresent

/-- The legacy adapter accepts any text. -/
theorem LegacyV1PosAdapter.text_of_parseOrderId {reply : PosReply} {posOrderId : String}
    (h : parseOrderId reply = .ok posOrderId) : ∃ xml, reply.data = .string xml := by
  unfold parseOrderId at h
  split at h
  · exact ⟨_, ‹_›⟩
  · cases h

/-- The modern adapter accepts anything that has properties. -/
theorem ModernV2PosAdapter.not_nullish_of_orderIdOf {data posOrderId : JsValue}
    (h : orderIdOf data = .ok posOrderId) : data.isNullish = false := by
  unfold orderIdOf at h
  split at h
  · cases h
  · exact Bool.eq_false_iff.mpr ‹_›

/-- **The adapters accept more than they should**, except for clear answers: of those they accept
only what names an order id. -/
theorem namesOrderId_of_clearAnswer {store : StoreRow} {adapter : PosAdapter} {reply : PosReply}
    {result : PosOrderResult}
    (hadapter : PosAdapterFactory.create store.posType store.posEndpoint store.posApiKeyEnc =
      .ok adapter)
    (hclear : ClearAnswer adapter.path reply.data) (hresult : adapter.readReply reply = .ok result) :
    NamesOrderId store.posType reply.data := by
  unfold NamesOrderId
  unfold PosAdapterFactory.create at hadapter
  split at hadapter
  · rename_i hlegacy
    cases hadapter
    rw [if_pos hlegacy]
    cases hparse : LegacyV1PosAdapter.parseOrderId reply with
    | error e => simp [PosAdapter.readReply, hparse, Except.map] at hresult
    | ok posOrderId =>
        obtain ⟨xml, hdata⟩ := LegacyV1PosAdapter.text_of_parseOrderId hparse
        exact ⟨xml, hdata, hclear xml hdata⟩
  · rename_i hlegacy
    rw [if_neg hlegacy]
    split at hadapter
    · cases hadapter
      cases hparse : ModernV2PosAdapter.orderIdOf reply.data with
      | error e => simp [PosAdapter.readReply, hparse, Except.map] at hresult
      | ok posOrderId => exact hclear (ModernV2PosAdapter.not_nullish_of_orderIdOf hparse)
    · cases hadapter

/-! ## What an execution has seen -/

/-- The call records that the order was dispatched.  Both of the last two transitions of an
execution do. -/
def Op.RecordsDispatch : Op → Prop
  | .repo (.transitionStatus p) => p.nextStatus = .sentToPos ∨ p.nextStatus = .completed
  | _ => False

/-- If the call moves an order, then the order `id`. -/
def Op.KeepsTo (id : Uuid) : Op → Prop
  | .repo (.transitionStatus p) => p.orderId = id
  | _ => True

/-- The point of sale of the payload's store has answered the order with an order id,
and the adapter's result was `ACCEPTED`. -/
def Confirmed (payload : OrderJobPayload) (h : List OrderEvent) : Prop :=
  ∃ store adapter request reply result,
    (⟨.findStore payload.storeId, .ok (some store)⟩ : OrderEvent) ∈ h ∧
    PosAdapterFactory.create store.posType store.posEndpoint store.posApiKeyEnc = .ok adapter ∧
    (⟨.postToPos request, .ok reply⟩ : OrderEvent) ∈ h ∧
    request.order = ProcessOrderService.domainOrder payload ∧
    adapter.readReply reply = .ok result ∧ result.status = .accepted ∧
    NamesOrderId store.posType reply.data

theorem Confirmed.cons {payload : OrderJobPayload} {h : List OrderEvent}
    (hconfirmed : Confirmed payload h) (e : OrderEvent) : Confirmed payload (e :: h) := by
  obtain ⟨store, adapter, request, reply, result, hstore, hadapter, hpost, hrest⟩ := hconfirmed
  exact ⟨store, adapter, request, reply, result, List.mem_cons_of_mem _ hstore, hadapter,
    List.mem_cons_of_mem _ hpost, hrest⟩

/-- The protocol of dispatches: against clear answers, an execution records the
dispatch of its own order only, and only once it is confirmed. -/
def dispatches : Protocol Op.Reply OrderError Outcome Request where
  admits := fun _ => True
  allows := fun _ _ e => ∀ request reply, e = ⟨.postToPos request, .ok reply⟩ →
    ClearAnswer request.path reply.data
  issues := fun q h o => ∀ payload jobMeta, q = .process payload jobMeta → ∀ p,
    o = .repo (.transitionStatus p) → p.nextStatus = .sentToPos ∨ p.nextStatus = .completed →
    p.orderId = payload.orderId ∧ Confirmed payload h
  returns := fun _ _ _ => True
  throws := fun _ _ _ => True

namespace ProcessOrderService

section Follows

variable {payload : OrderJobPayload} {jobMeta : JobMeta}

/-- `wp` against the protocol of dispatches. -/
abbrev dispatchWp (payload : OrderJobPayload) (jobMeta : JobMeta) {α : Type} (p : Service α)
    (Q : α → List OrderEvent → Prop) (E : List OrderEvent → Prop) (h : List OrderEvent) : Prop :=
  p.wp (dispatches.record (.process payload jobMeta))
    (fun o h => dispatches.issues (.process payload jobMeta) h o) Q (fun _ => E) h

/-- A call that does not record the dispatch can be made at any time. -/
theorem issues_unrecorded {h : List OrderEvent} {o : Op} (ho : ¬ o.RecordsDispatch) :
    dispatches.issues (.process payload jobMeta) h o :=
  fun _ _ _ _ hp hnext => absurd (hp ▸ hnext) ho

/-- Before the dispatch is recorded nothing has to be known. -/
theorem dispatchWp_unrecorded {α : Type} {p : Service α} (h : List OrderEvent)
    (hp : p.OnlyCalls fun o => ¬ o.RecordsDispatch) :
    dispatchWp payload jobMeta p (fun _ _ => True) (fun _ => True) h :=
  wp_invariant _ _ (fun _ => True)
    (fun o h ho _ => issues_unrecorded (h := h) (o := o) ho) (fun _ _ _ _ _ _ _ => trivial) hp
    trivial

/-- The point of sale has answered a request for `order`, and the adapter has made
`result` of it. -/
def Answered (adapter : PosAdapter) (order : DomainOrder) (result : PosOrderResult)
    (h : List OrderEvent) : Prop :=
  ∃ request reply, (⟨.postToPos request, .ok reply⟩ : OrderEvent) ∈ h ∧ request.order = order ∧
    ClearAnswer adapter.path reply.data ∧ adapter.readReply reply = .ok result

/-- An adapter that returns has had its request answered; what was known stays so. -/
theorem dispatchWp_sendOrder (adapter : PosAdapter) (order : DomainOrder) {known : OrderEvent}
    {h : List OrderEvent} (hknown : known ∈ h) :
    dispatchWp payload jobMeta (adapter.sendOrder order)
      (fun result h' => known ∈ h' ∧ Answered adapter order result h') (fun h' => known ∈ h') h := by
  unfold dispatchWp
  rw [adapter.sendOrder_eq order]
  simp only [wp_tryCatch, wp_bind, wp_perform, wp_throw]
  refine ⟨issues_unrecorded id, ?_, ?_⟩
  · rintro reply h' ⟨hclear, rfl⟩
    split
    · rename_i result hresult
      exact ⟨List.mem_cons_of_mem _ hknown, adapter.request order, reply, List.mem_cons_self,
        adapter.request_order order, adapter.request_path order ▸ hclear _ reply rfl, hresult⟩
    · exact List.mem_cons_of_mem _ hknown
  · rintro e h' ⟨-, rfl⟩
    exact List.mem_cons_of_mem _ hknown

/-- The retries change nothing about this. -/
theorem dispatchWp_execute (adapter : PosAdapter) (order : DomainOrder) (storeId : String)
    {known : OrderEvent} {h : List OrderEvent} (hknown : known ∈ h) :
    dispatchWp payload jobMeta (PosCircuitBreakerService.execute storeId (adapter.sendOrder order))
      (fun result h' => known ∈ h' ∧ Answered adapter order result h') (fun _ => True) h := by
  have hbreaker : ∀ h : List OrderEvent, known ∈ h → dispatchWp payload jobMeta
      (PosCircuitBreakerService.breaker storeId (adapter.sendOrder order))
      (fun result h' => known ∈ h' ∧ Answered adapter order result h') (fun h' => known ∈ h') h := by
    intro h hknown
    unfold dispatchWp PosCircuitBreakerService.breaker
    simp only [wp_bind, wp_perform]
    refine ⟨issues_unrecorded id, ?_, ?_⟩
    · rintro isOpen h' ⟨-, rfl⟩
      have hknown' := List.mem_cons_of_mem
        (⟨.consultBreaker storeId, .ok isOpen⟩ : OrderEvent) hknown
      cases isOpen with
      | true => exact hknown'
      | false => exact dispatchWp_sendOrder adapter order hknown'
    · rintro e h' ⟨-, rfl⟩
      exact List.mem_cons_of_mem _ hknown
  unfold dispatchWp PosCircuitBreakerService.execute
  rw [wp_tryCatch]
  refine wp_mono _ _ (fun _ _ hQ => hQ) (fun err _ _ => ?_)
    (PosCircuitBreakerService.wp_retry hbreaker 3 hknown)
  split
  · trivial
  · trivial

/-- Once the point of sale has confirmed, the dispatch may be recorded. -/
theorem dispatchWp_recordDispatch (posResult : PosOrderResult) {h : List OrderEvent}
    (hconfirmed : Confirmed payload h) :
    dispatchWp payload jobMeta (recordDispatch payload jobMeta posResult) (fun _ _ => True)
      (fun _ => True) h := by
  have hcalls : (recordDispatch payload jobMeta posResult).OnlyCalls (Op.KeepsTo payload.orderId) :=
    recordDispatch_onlyCalls payload jobMeta trivial (fun p hid _ => hid) posResult
  have hissues : ∀ (o : Op) (h : List OrderEvent), o.KeepsTo payload.orderId →
      Confirmed payload h → dispatches.issues (.process payload jobMeta) h o := by
    rintro o h ho hconfirmed payload' jobMeta' hq p rfl -
    cases hq
    exact ⟨ho, hconfirmed⟩
  have hkeep : ∀ (o : Op) (h : List OrderEvent) (r : Except OrderError (Op.Reply o)) h',
      Confirmed payload h → dispatches.record (.process payload jobMeta) o h r h' →
      Confirmed payload h' := by
    rintro o h r h' hconfirmed ⟨-, rfl⟩
    exact hconfirmed.cons _
  exact wp_mono _ _ (fun _ _ _ => trivial) (fun _ _ _ => trivial)
    (wp_invariant _ _ (Confirmed payload) hissues (fun o h r h' _ => hkeep o h r h') hcalls hconfirmed)

/-- Step 4 records the dispatch after the adapter has returned. -/
theorem dispatchWp_sendToPos (h : List OrderEvent) :
    dispatchWp payload jobMeta (sendToPos payload jobMeta) (fun _ _ => True) (fun _ => True) h := by
  unfold dispatchWp sendToPos
  simp only [wp_bind, wp_perform]
  refine ⟨issues_unrecorded id, ?_, fun _ _ _ => trivial⟩
  rintro storeRow h₁ ⟨-, rfl⟩
  cases storeRow with
  | none => trivial
  | some store =>
      dsimp only
      split
      · trivial
      · rename_i adapter hadapter
        rw [wp_bind]
        refine wp_mono _ _ (fun result h₂ hanswered => ?_) (fun _ _ _ => trivial)
          (dispatchWp_execute adapter (domainOrder payload) payload.storeId List.mem_cons_self)
        obtain ⟨hstore, request, reply, hpost, horder, hclear, hresult⟩ := hanswered
        exact dispatchWp_recordDispatch result ⟨store, adapter, request, reply, result, hstore,
          hadapter, hpost, horder, hresult, rfl, namesOrderId_of_clearAnswer hadapter hclear hresult⟩

theorem dispatchWp_processWithLock (h : List OrderEvent) :
    dispatchWp payload jobMeta (processWithLock payload jobMeta) (fun _ _ => True) (fun _ => True)
      h := by
  unfold dispatchWp processWithLock
  rw [wp_bind]
  refine wp_mono _ _ (fun order h₁ _ => ?_) (fun _ _ _ => trivial)
    (dispatchWp_unrecorded h (OrderRepository.create_onlyCalls id id))
  cases order with
  | none => trivial
  | some order =>
      have hsave : (transitionToSaved order jobMeta).OnlyCalls fun o => ¬ o.RecordsDispatch :=
        OrderRepository.transition_onlyCalls (by rintro (h | h) <;> cases h)
      rw [wp_bind]
      exact wp_mono _ _ (fun _ h₂ _ => dispatchWp_sendToPos h₂) (fun _ _ _ => trivial)
        (dispatchWp_unrecorded h₁ hsave)

theorem dispatchWp_process (h : List OrderEvent) :
    dispatchWp payload jobMeta (process payload jobMeta) (fun _ _ => True) (fun _ => True) h := by
  have hacquire : (DistributedLockService.acquireOrThrow payload.orderId
      ⟨jobMeta.workerId, jobMeta.jobId⟩).OnlyCalls fun o => ¬ o.RecordsDispatch := by
    refine .bind (.perform id) fun acquired => ?_
    split <;> trivial
  have hrelease : ∀ h : List OrderEvent, dispatchWp payload jobMeta
      (DistributedLockService.release payload.orderId ⟨jobMeta.workerId, jobMeta.jobId⟩)
      (fun _ _ => True) (fun _ => True) h :=
    fun h => dispatchWp_unrecorded h (.perform id)
  unfold dispatchWp process
  rw [wp_bind]
  refine wp_mono _ _ (fun _ h₁ _ => ?_) (fun _ _ _ => trivial) (dispatchWp_unrecorded h hacquire)
  rw [wp_tryFinally]
  exact wp_mono _ _ (fun _ h₂ _ => hrelease h₂) (fun _ h₂ _ => hrelease h₂)
    (dispatchWp_processWithLock h₁)

end Follows

/-- **Every program follows the protocol of dispatches.** -/
theorem follows_dispatches (config : AppConfig) (q : Request) :
    dispatches.Follows q (q.program config) [] := by
  by_cases hq : ∃ payload jobMeta, q = .process payload jobMeta
  · obtain ⟨payload, jobMeta, rfl⟩ := hq
    show dispatchWp payload jobMeta (process payload jobMeta >>= fun _ => return Outcome.done)
      (fun _ _ => True) (fun _ => True) []
    unfold dispatchWp
    rw [wp_bind]
    exact wp_mono _ _ (fun _ _ _ => trivial) (fun _ _ _ => trivial) (dispatchWp_process [])
  · have hfree : ∀ payload jobMeta, q ≠ .process payload jobMeta :=
      fun payload jobMeta h => hq ⟨payload, jobMeta, h⟩
    exact wp_mono _ _ (fun _ _ _ => trivial) (fun _ _ _ => trivial)
      (wp_always _ _ (I := fun _ => True) (fun _ _ _ payload jobMeta h => absurd h (hfree payload jobMeta))
        (fun _ _ _ _ _ _ => trivial) _ trivial)

end ProcessOrderService

/-! ## Runs -/

/-- The path of the request a call makes to a point of sale, and the body of the answer
it gets. -/
def Op.posAnswer? (o : Op) (c : Choice) : Option (String × JsValue) :=
  match o, c.fault, c.posAnswer with
  | .postToPos request, .none, .ok data =>
      if request.invalidHeader? = none then some (request.path, data) else none
  | _, _, _ => none

/-- If the step is an answer of a point of sale, the answer is clear.  Answers that are lost or are
errors are not restricted. -/
def ClearAnswers (ℓ : OrderLabel) (P : OrderPool) : Prop :=
  match ℓ with
  | .act _ c => ∀ o ∈ ℓ.call? P, ∀ answer ∈ o.posAnswer? c, ClearAnswer answer.1 answer.2
  | _ => True

instance (xml : List Char) : Decidable (HasOrderId xml) :=
  decidable_of_iff _ (LegacyV1PosAdapter.matchOrderId_isSome xml)

instance (v : JsValue) : Decidable v.IsPresent := inferInstanceAs (Decidable (_ ∧ _))

instance (data : JsValue) : Decidable (∀ xml, data = .string xml → HasOrderId xml.toList) :=
  match data with
  | .string xml => decidable_of_iff (HasOrderId xml.toList)
      ⟨fun h _ hxml => by cases hxml; exact h, fun h => h xml rfl⟩
  | .undefined | .null | .bool _ | .number _ | .array _ | .object _ => .isTrue nofun

instance (path : String) (data : JsValue) : Decidable (ClearAnswer path data) :=
  inferInstanceAs (Decidable (if path = "/order/receive" then _ else _))

instance (ℓ : OrderLabel) (P : OrderPool) : Decidable (ClearAnswers ℓ P) :=
  match ℓ with
  | .act i c => inferInstanceAs (Decidable (∀ o ∈ (Label.act i c : OrderLabel).call? P, _))
  | .spawn _ _ | .env _ => .isTrue trivial

/-- If the step gives an order the status `SENT_TO_POS` or `COMPLETED`, then by a
`PATCH`, or by an execution for the order that the point of sale has confirmed. -/
def RecordsConfirmed (ℓ : OrderLabel) (P P' : OrderPool) : Prop :=
  ∀ id s, s = .sentToPos ∨ s = .completed → P.world.db.statusOf id ≠ some (.worker s) →
    P'.world.db.statusOf id = some (.worker s) →
    (∃ o, ℓ.call? P = some o ∧ o.WritesStatus id (.worker s)) ∨
    ∃ i c t payload jobMeta, ℓ = .act i c ∧ P.threads i = some t ∧
      t.request = .process payload jobMeta ∧ payload.orderId = id ∧ Confirmed payload t.hist

section Runs

variable {config : AppConfig} {w : World} {P P' : OrderPool} {ℓ : OrderLabel}

theorem respects_dispatches :
    dispatches.Respects (orderSystem config) ClearAnswers (Pool.init w) where
  admits := fun _ _ _ _ => trivial
  allows := by
    intro P i c t o k _ hclear ht hrest request reply he
    obtain ⟨rfl, hanswer⟩ := Event.mk.inj he
    have hok : (Op.exec (.postToPos request) c P.world).1 = .ok reply := eq_of_heq hanswer
    obtain ⟨hfault, hvalid, hpos⟩ := Op.exec_postToPos_eq_ok hok
    refine hclear _ (Label.call?_act ht hrest c) (request.path, reply.data) ?_
    simp [Op.posAnswer?, hfault, hvalid, hpos]

/-- Only executions record a dispatch. -/
theorem Request.process_of_recordsDispatch {q : Request} {p : TransitionParams}
    (h : q.allows (.repo (.transitionStatus p)))
    (hnext : p.nextStatus = .sentToPos ∨ p.nextStatus = .completed) :
    ∃ payload jobMeta, q = .process payload jobMeta := by
  cases q with
  | process payload jobMeta => exact ⟨payload, jobMeta, rfl⟩
  | handleFailure payload error jobMeta =>
      obtain ⟨-, hfailed⟩ : p.orderId = payload.orderId ∧ p.nextStatus = .failed := h
      simp [hfailed] at hnext
  | redriveOrder orderId ctx =>
      obtain ⟨-, hqueued⟩ : p.expectedStatus = .worker .failed ∧ p.nextStatus = .queued := h
      simp [hqueued] at hnext
  | createOrder cmd ctx => cases h
  | updateStatus orderId status => cases h
  | updateOrderStatus id body => cases h

/-- **`COMPLETED` means the point of sale took the order, if it answers clearly.**  In
every run, from any world and with any requests, whose answers of points of sale are
clear, every step records a dispatch only after it is confirmed. -/
theorem recordsConfirmed_of_clearAnswers
    (h : (orderSystem config).Reaches ClearAnswers (Pool.init w) P)
    (hstep : (orderSystem config).step ℓ P = some P') : RecordsConfirmed ℓ P P' := by
  intro id s hs hold hnew
  obtain ⟨i, q, rfl, -, rfl⟩ | ⟨i, c, t, o, k, rfl, ht, hrest, rfl⟩ | ⟨e, w', rfl, hw, rfl⟩ :=
    (orderSystem config).step_cases hstep
  · exact absurd hnew hold
  · obtain ⟨p, -, -, hqueued⟩ | ⟨p, v, rfl, hid, hmoved, -, -⟩ | hwrites :=
      Op.exec_statusOf hold hnew
    · cases hqueued
      simp at hs
    · cases hmoved
      obtain ⟨payload, jobMeta, hreq⟩ :=
        Request.process_of_recordsDispatch (allows_of_reaches (fun _ => rfl) h ht hrest) hs
      obtain ⟨-, hfollows⟩ := Protocol.follows_of_reaches respects_dispatches
        (fun q _ => ProcessOrderService.follows_dispatches config q) (fun _ => rfl) h i t ht
      rw [hrest] at hfollows
      obtain ⟨horder, hconfirmed⟩ := hfollows.1 payload jobMeta hreq p rfl hs
      exact .inr ⟨i, c, t, payload, jobMeta, rfl, ht, hreq, horder.symm.trans hid, hconfirmed⟩
    · exact .inl ⟨o, Label.call?_act ht hrest c, hwrites⟩
  · cases hw
    have hsame : (e.apply P.world).db.statusOf id = some (.worker s) := hnew
    rw [Expiry.apply_db] at hsame
    exact absurd hsame hold

end Runs

/-! ### An answer with an order id, and one without -/

/-- An execution of the seeded order up to its first transition after the point of sale
has answered with `data`. -/
def dispatchRun (data : JsValue) : List OrderLabel :=
  .spawn 0 (.process seedPayload (seedJob 0)) ::
    (List.range 8).map fun n => .act 0 ⟨.none, n, false, .ok data⟩

/-- The point of sale has taken the order. -/
def takenAnswer : JsValue := .object [("id", .string "pos-1")]

/-- The point of sale has not, and says so with a success status. -/
def closedAnswer : JsValue := .object [("error", .string "closed")]

theorem dispatchRuns_replay :
    ((orderSystem seedConfig).replay (dispatchRun takenAnswer)
        (Pool.init (World.init .seed))).isSome = true ∧
      ((orderSystem seedConfig).replay (dispatchRun closedAnswer)
        (Pool.init (World.init .seed))).isSome = true := by
  decide +kernel

/-- The pool after an answer that names the order. -/
def takenPool : OrderPool :=
  (orderSystem seedConfig).after (dispatchRun takenAnswer) (Pool.init (World.init .seed))
    dispatchRuns_replay.1

/-- The pool after an answer that refuses it. -/
def closedPool : OrderPool :=
  (orderSystem seedConfig).after (dispatchRun closedAnswer) (Pool.init (World.init .seed))
    dispatchRuns_replay.2

theorem dispatchPools_step :
    ((orderSystem seedConfig).replay [.act 0 (.undisturbed 8)] takenPool).isSome = true ∧
      ((orderSystem seedConfig).replay [.act 0 (.undisturbed 8)] closedPool).isSome = true := by
  decide +kernel

theorem takenRun_admitted :
    (orderSystem seedConfig).admitted? ClearAnswers (dispatchRun takenAnswer)
      (Pool.init (World.init .seed)) = true := by
  decide +kernel

/-- The answer has fields, but no id. -/
def JsValue.namesNothing : JsValue → Bool
  | .object fields => ((JsValue.object fields).get "id").isNullish
  | _ => false

theorem not_namesOrderId {posType : String} {data : JsValue} (h : data.namesNothing = true) :
    ¬ NamesOrderId posType data := by
  unfold JsValue.namesNothing at h
  split at h
  · unfold NamesOrderId JsValue.IsPresent
    split
    · simp
    · simp [h]
  · cases h

/-- If the event is an answer of a point of sale, it names nothing. -/
def emptyHanded (e : OrderEvent) : Bool :=
  match e with
  | ⟨.postToPos _, .ok reply⟩ => reply.data.namesNothing
  | _ => true

/-- Where all answers are such, nothing was confirmed. -/
theorem not_confirmed {payload : OrderJobPayload} {h : List OrderEvent}
    (hempty : h.all emptyHanded = true) : ¬ Confirmed payload h := by
  rintro ⟨store, adapter, request, reply, result, -, -, hpost, -, -, -, hnames⟩
  exact not_namesOrderId (List.all_eq_true.mp hempty _ hpost) hnames

/-- The next step of the second execution records the dispatch. -/
theorem closedPool_eq : closedPool.world.db.statusOf ⟨7⟩ = some (.worker .saved) ∧
    ((orderSystem seedConfig).after [.act 0 (.undisturbed 8)] closedPool
      dispatchPools_step.2).world.db.statusOf ⟨7⟩ = some (.worker .sentToPos) ∧
    ((closedPool.threads 0).all fun t => t.hist.all emptyHanded) = true ∧
    (match (Label.act 0 (.undisturbed 8) : OrderLabel).call? closedPool with
      | some (.repo _) => true
      | _ => false) = true := by
  decide +kernel

/-- The dispatch is recorded after the confirmation. -/
theorem recordsConfirmed_taken : RecordsConfirmed (.act 0 (.undisturbed 8)) takenPool
    ((orderSystem seedConfig).after [.act 0 (.undisturbed 8)] takenPool dispatchPools_step.1) :=
  recordsConfirmed_of_clearAnswers (.after (.of_check takenRun_admitted) dispatchRuns_replay.1)
    (System.step_after dispatchPools_step.1)

/-- **An error body under a success status completes the order**: the adapter reads a missing id as
one, and nothing else of the answer is looked at. -/
theorem not_recordsConfirmed_of_closedAnswer :
    ¬ ∀ (config : AppConfig) (w : World) (P P' : OrderPool) (ℓ : OrderLabel),
      (orderSystem config).Reaches (fun _ _ => True) (Pool.init w) P →
      (orderSystem config).step ℓ P = some P' → RecordsConfirmed ℓ P P' := by
  intro h
  obtain ⟨hbefore, hafter, hempty, hcall⟩ := closedPool_eq
  have hold : closedPool.world.db.statusOf ⟨7⟩ ≠ some (.worker .sentToPos) := by
    rw [hbefore]
    exact nofun
  have hreach : (orderSystem seedConfig).Reaches (fun _ _ => True) (Pool.init (World.init .seed))
      closedPool := .after (.of_forall (fun _ _ => trivial) _ _) dispatchRuns_replay.2
  obtain ⟨o, ho, text, orderId, rfl, -⟩ | ⟨i, c, t, payload, jobMeta, hℓ, ht, -, -, hconfirmed⟩ :=
    h seedConfig _ closedPool _ _ hreach (System.step_after dispatchPools_step.2) ⟨7⟩ .sentToPos
      (.inl rfl) hold hafter
  · rw [ho] at hcall
    cases hcall
  · cases hℓ
    rw [ht] at hempty
    exact not_confirmed hempty hconfirmed

end ChickenOrder
