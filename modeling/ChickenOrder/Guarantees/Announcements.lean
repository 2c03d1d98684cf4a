import ChickenOrder.Guarantees.MenuCoherence
import ChickenOrder.Services.Gateway

/-!
# New orders at the points of sale

A call of `execute` announces its order to the room of its store, between the job and the answer.
The points of sale join and leave the rooms while calls run.

`new_order_received_once`: a client that is in the room of a store before a call comes in, and
stays, has been sent the order once when the call returns.  `received_of_joined`: whatever a client
has been sent is of a store it has joined as, earlier in the run, and a new order moreover of a
published job.

The proof has three layers.  A protocol of one call says when it announces (`announcements`);
`socket_cases` says from it what a step of the services does to the socket; and the gateway,
which only watches the socket, delivers what comes onto it (`inbox_of_stays`).  The services
never read what the gateway does, so that the runs with clients are runs of the services.
-/

namespace ChickenOrder

open Interaction Interaction.Program
open CreateOrderService

/-! ## What a call announces -/

/-- The call by which `execute` announces its order, with the amount and the items that its
validation has found. -/
def CreateOrderService.announcement (cmd : CreateOrderCommand) (ctx : ApiContext)
    (calculatedAmount : String) (enrichedItems : List OrderItem) : Op :=
  .emitNewOrder cmd.storeId ctx.orderId enrichedItems calculatedAmount
    (payload cmd ctx calculatedAmount enrichedItems).traceId

/-- What the clients are sent. -/
def CreateOrderService.newOrder (cmd : CreateOrderCommand) (ctx : ApiContext)
    (calculatedAmount : String) (enrichedItems : List OrderItem) (createdAt : Time) : SocketEvent :=
  .newOrder cmd.storeId ctx.orderId enrichedItems calculatedAmount
    (payload cmd ctx calculatedAmount enrichedItems).traceId createdAt

/-- The call emits no order, and a status to no store at most.  The `PATCH` handlers emit such a
status: they have no store id of the row they have changed. -/
def Op.EmitsNoOrder : Op → Prop
  | .emitNewOrder _ _ _ _ _ => False
  | .emitOrderUpdated storeId _ _ => storeId = .undefined
  | _ => True

/-- No order has been announced by the calls so far.  Every call starts like this, and one that
fails early stays so. -/
def Silent (h : List OrderEvent) : Prop := ∀ e ∈ h, e.op.EmitsNoOrder

theorem Silent.cons {e : OrderEvent} {h : List OrderEvent} (he : e.op.EmitsNoOrder)
    (hsilent : Silent h) : Silent (e :: h) :=
  List.forall_mem_cons.mpr ⟨he, hsilent⟩

/-- An order is announced once, by the call that has published its job.  What a creation may emit
depends on its own history, and other requests emit no order. -/
def announcements : Protocol Op.Reply OrderError Outcome Request where
  admits := fun _ => True
  allows := fun _ _ _ => True
  issues := fun q h o => o.EmitsNoOrder ∨
    ∃ cmd ctx amount items, q = .createOrder cmd ctx ∧ o = announcement cmd ctx amount items ∧
      (⟨.mainQueueAdd (payload cmd ctx amount items), .ok ()⟩ : OrderEvent) ∈ h ∧ Silent h
  returns := fun q h a => ∀ cmd ctx r, q = .createOrder cmd ctx → a = .created r →
    r.replayed = false → ∃ amount items,
      (⟨announcement cmd ctx amount items, .ok ()⟩ : OrderEvent) ∈ h
  throws := fun _ _ _ => True

section Follows

variable {cmd : CreateOrderCommand} {ctx : ApiContext} {h : List OrderEvent}

/-- `wp` against the announcements of a call: `Q` and `E` are about the events of the call that the
protocol has let through. -/
abbrev announceWp (cmd : CreateOrderCommand) (ctx : ApiContext) {α : Type} (p : Service α)
    (Q : α → List OrderEvent → Prop) (E : OrderError → List OrderEvent → Prop)
    (h : List OrderEvent) : Prop :=
  p.wp (announcements.record (.createOrder cmd ctx))
    (fun o h => announcements.issues (.createOrder cmd ctx) h o) Q E h

theorem CreateOrderService.ValidationCalls.emitsNoOrder {o : Op} (ho : ValidationCalls cmd o) :
    o.EmitsNoOrder := by
  cases o with
  | menuCacheGet key => trivial
  | menuCacheSet key menus => trivial
  | findMenusByIds menuIds storeId => trivial
  | _ => cases ho

theorem validate_silent (hsilent : Silent h) :
    announceWp cmd ctx (validateAndEnrichItems cmd) (fun _ => Silent) (fun _ => Silent) h := by
  refine wp_invariant _ _ Silent (fun o h ho _ => .inl ho.emitsNoOrder) ?_
    (validateAndEnrichItems_onlyCalls cmd) hsilent
  rintro o h r h' ho hsilent ⟨-, rfl⟩
  exact hsilent.cons ho.emitsNoOrder

/-- Once its calls are answered, `publish` has announced the order. -/
theorem publish_announces (hsilent : Silent h) (amount : String) (items : List OrderItem) :
    announceWp cmd ctx (publish cmd ctx amount items)
      (fun _ h' => (⟨announcement cmd ctx amount items, .ok ()⟩ : OrderEvent) ∈ h')
      (fun _ _ => True) h := by
  unfold announceWp publish OrderQueueService.publishOrder IdempotencyService.setCompleted
  simp only [wp_bind, wp_perform, wp_return]
  refine ⟨.inl trivial, ?_, fun _ _ _ => trivial⟩
  rintro - h₁ ⟨-, rfl⟩
  refine ⟨.inr ⟨cmd, ctx, amount, items, rfl, rfl, List.mem_cons_self, hsilent.cons trivial⟩, ?_,
    fun _ _ _ => trivial⟩
  rintro - h₂ ⟨-, rfl⟩
  refine ⟨.inl trivial, ?_, fun _ _ _ => trivial⟩
  rintro - h₃ ⟨-, rfl⟩
  exact List.mem_cons_of_mem _ List.mem_cons_self

/-- A call that returns an order of its own has announced it.  One that returns the response of an
earlier call, marked `replayed`, need not have. -/
theorem execute_announces :
    announceWp cmd ctx (execute cmd ctx) (fun r h' => r.replayed = false → ∃ amount items,
      (⟨announcement cmd ctx amount items, .ok ()⟩ : OrderEvent) ∈ h') (fun _ _ => True) [] := by
  -- the `catch` block returns nothing, so it has nothing to answer for
  have habandon : ∀ err h, announceWp cmd ctx (abandon cmd err) (fun r h' => r.replayed = false →
      ∃ amount items, (⟨announcement cmd ctx amount items, .ok ()⟩ : OrderEvent) ∈ h')
      (fun _ _ => True) h := by
    intro err h
    unfold announceWp abandon IdempotencyService.release
    rw [wp_bind, wp_perform]
    refine ⟨.inl trivial, fun _ h₁ _ => ?_, fun _ _ _ => trivial⟩
    rw [wp_ite]
    exact ⟨fun _ => trivial, fun _ => trivial⟩
  unfold announceWp execute IdempotencyService.tryAcquire
  rw [wp_bind, wp_perform]
  refine ⟨.inl trivial, ?_, fun _ _ _ => trivial⟩
  rintro isNew h₁ ⟨-, rfl⟩
  rw [wp_ite]
  refine ⟨fun _ => ?_, fun _ => ?_⟩
  · rw [wp_tryCatch]
    unfold validateAndPublish
    rw [wp_bind]
    have hacquired : Silent [⟨.idempotencySetNx (IdempotencyService.pendingKey cmd.idempotencyKey)
        ctx.orderId, .ok isNew⟩] := Silent.cons trivial fun _ he => by cases he
    refine wp_mono _ _ (fun validated h₂ hsilent => ?_) (fun err h₂ _ => habandon err h₂)
      (validate_silent hacquired)
    exact wp_mono _ _ (fun _ _ hannounced _ => ⟨_, _, hannounced⟩) (fun err h₃ _ => habandon err h₃)
      (publish_announces hsilent _ _)
  · -- an order of somebody else: the result is marked `replayed`
    unfold replay IdempotencyService.getCachedResponse
    rw [wp_bind, wp_bind, wp_perform]
    refine ⟨.inl trivial, fun found h₂ _ => ?_, fun _ _ _ => trivial⟩
    cases found with
    | none => trivial
    | some value =>
        cases value with
        | response cached => exact fun hfirst => by cases hfirst
        | orderId id => trivial

end Follows

theorem announceStatus_emitsNoOrder (id : String) (result : UpdateResult) :
    (announceStatus id result).OnlyCalls Op.EmitsNoOrder :=
  -- the first component of the pair is a list of rows, which has no `store_id`
  .bind (.perform rfl) fun _ => trivial

/-- Only creations emit an order. -/
theorem Request.emitsNoOrder (config : AppConfig) {q : Request}
    (hother : ∀ cmd ctx, q ≠ .createOrder cmd ctx) :
    (q.program config).OnlyCalls Op.EmitsNoOrder := by
  have hall := q.onlyCalls config
  cases q with
  | createOrder cmd ctx => exact absurd rfl (hother cmd ctx)
  | process payload jobMeta =>
      refine hall.mono fun o ho => ?_
      cases o with
      | emitNewOrder storeId orderId items amount traceId => cases ho
      | emitOrderUpdated storeId orderId status => cases ho
      | _ => trivial
  | handleFailure payload error jobMeta =>
      refine hall.mono fun o ho => ?_
      cases o with
      | emitNewOrder storeId orderId items amount traceId => cases ho
      | emitOrderUpdated storeId orderId status => cases ho
      | _ => trivial
  | redriveOrder orderId ctx =>
      refine hall.mono fun o ho => ?_
      cases o with
      | emitNewOrder storeId orderId items amount traceId => cases ho
      | emitOrderUpdated storeId orderId status => cases ho
      | _ => trivial
  | updateStatus orderId status =>
      exact .bind (.bind (.perform trivial) fun result =>
        announceStatus_emitsNoOrder orderId result) fun _ => trivial
  | updateOrderStatus id body =>
      refine .bind ?_ fun _ => trivial
      unfold PublicController.updateOrderStatus
      split
      · trivial
      split
      · trivial
      · exact .bind (.perform trivial) fun result => announceStatus_emitsNoOrder id result

/-- Every request of the system keeps to this. -/
theorem follows_announcements (config : AppConfig) (q : Request) :
    announcements.Follows q (q.program config) [] := by
  have hother : (∀ cmd ctx, q ≠ .createOrder cmd ctx) →
      announcements.Follows q (q.program config) [] := by
    intro hq
    have hcalls : wp (announcements.record q) (fun o h => announcements.issues q h o)
        (q.program config) (fun _ _ => True) (fun _ _ => True) [] :=
      wp_invariant _ _ (fun _ => True) (fun _ _ ho _ => .inl ho) (fun _ _ _ _ _ _ _ => trivial)
        (Request.emitsNoOrder config hq) trivial
    exact wp_mono _ _ (fun _ _ _ cmd ctx _ hcreate => absurd hcreate (hq cmd ctx))
      (fun _ _ _ => trivial) hcalls
  cases q with
  | createOrder cmd ctx =>
      show announceWp cmd ctx (execute cmd ctx >>= fun r => return Outcome.created r) _
        (fun _ _ => True) []
      unfold announceWp
      rw [wp_bind]
      refine wp_mono _ _ (fun r h hannounced => ?_) (fun _ _ _ => trivial) execute_announces
      rintro cmd' ctx' r' hrequest hreturned hfirst
      cases hrequest
      cases hreturned
      exact hannounced hfirst
  | process payload jobMeta => exact hother fun _ _ h => by cases h
  | handleFailure payload error jobMeta => exact hother fun _ _ h => by cases h
  | redriveOrder orderId ctx => exact hother fun _ _ h => by cases h
  | updateStatus orderId status => exact hother fun _ _ h => by cases h
  | updateOrderStatus id body => exact hother fun _ _ h => by cases h

/-! ## The socket over a run -/

/-- `uuidv4()` draws an id that no call has drawn.  It is the one thing these results ask of the
runtime. -/
def DrawsFreshId : CatalogLabel → OrderPool → Prop
  | .spawn _ q, P => ∀ cmd ctx, q = .createOrder cmd ctx →
      ∀ j t cmd' ctx', P.threads j = some t → t.request = .createOrder cmd' ctx' →
        ctx'.orderId ≠ ctx.orderId
  | .act _ _, _ => True
  | .env _, _ => True

/-- The order that an event announces. -/
def SocketEvent.announced? : SocketEvent → Option Uuid
  | .newOrder _ orderId _ _ _ _ => some orderId
  | .orderUpdated _ _ _ _ => none

/-- The event announces the order of thread `i`, which has published its job: the items, the amount
and the trace id are those of the job. -/
def AnnouncedBy (P : OrderPool) (i : ℕ) (e : SocketEvent) : Prop :=
  ∃ t cmd ctx amount items createdAt, P.threads i = some t ∧ t.request = .createOrder cmd ctx ∧
    e = newOrder cmd ctx amount items createdAt ∧
    (⟨.mainQueueAdd (payload cmd ctx amount items), .ok ()⟩ : OrderEvent) ∈ t.hist ∧ ¬ Silent t.hist

/-- The event goes to no store.  Its room is that of the text `undefined`, which a client can only
be in if it has joined as such. -/
def SocketEvent.IsMisaddressed (e : SocketEvent) : Prop :=
  ∃ orderId status updatedAt, e = .orderUpdated .undefined orderId status updatedAt

section Runs

variable {config : AppConfig} {ok : CatalogLabel → OrderPool → Prop} {P₀ P P' : OrderPool}
variable {ℓ : CatalogLabel}

theorem socket_prefix_of_step (hstep : (catalogSystem config).step ℓ P = some P') :
    P.world.socket <+: P'.world.socket := by
  obtain ⟨i, q, rfl, -, rfl⟩ | ⟨i, c, t, o, k, rfl, ht, hrest, rfl⟩ | ⟨e, w, rfl, hw, rfl⟩ :=
    (catalogSystem config).step_cases hstep
  · exact List.prefix_rfl
  · show P.world.socket <+: (o.exec c P.world).2.socket
    obtain hsame | ⟨e, -, hadded⟩ := o.exec_socket c P.world
    · rw [hsame]
    · rw [hadded]
      exact List.prefix_append _ _
  · cases hw
    rw [e.apply_socket P.world]

/-- The protocol is kept in every run, as it relies on no answer: what a call may announce is fixed
by its own request. -/
theorem respects_announcements : announcements.Respects (catalogSystem config) ok P₀ where
  admits := fun _ _ _ _ => trivial
  allows := fun _ _ _ _ _ _ _ _ _ _ => trivial

/-- Whose order an event announces does not change. -/
theorem AnnouncedBy.step (hstep : (catalogSystem config).step ℓ P = some P') {i : ℕ}
    {e : SocketEvent} (h : AnnouncedBy P i e) : AnnouncedBy P' i e := by
  obtain ⟨t, cmd, ctx, amount, items, createdAt, ht, hrequest, he, hpublished, hannounced⟩ := h
  obtain ⟨t', ht', hrequest', hsuffix⟩ := (catalogSystem config).step_persists hstep ht
  exact ⟨t', cmd, ctx, amount, items, createdAt, ht', hrequest'.trans hrequest, he,
    hsuffix.subset hpublished, fun hsilent => hannounced fun e he => hsilent e (hsuffix.subset he)⟩

/-- **Everything a step does to the socket**: an order of a published job is announced, which its
call has not done before, or a status goes to no store. -/
theorem socket_cases (hinit : ∀ i, P₀.threads i = none)
    (hreach : (catalogSystem config).Reaches ok P₀ P)
    (hstep : (catalogSystem config).step ℓ P = some P') :
    P'.world.socket = P.world.socket ∨
    (∃ e, e.IsMisaddressed ∧ P'.world.socket = P.world.socket ++ [e]) ∨
    (∃ i t cmd ctx amount items createdAt, P.threads i = some t ∧
      t.request = .createOrder cmd ctx ∧ Silent t.hist ∧
      P'.world.socket = P.world.socket ++ [newOrder cmd ctx amount items createdAt] ∧
      AnnouncedBy P' i (newOrder cmd ctx amount items createdAt)) := by
  obtain ⟨i, q, rfl, -, rfl⟩ | ⟨i, c, t, o, k, rfl, ht, hrest, rfl⟩ | ⟨e, w, rfl, hw, rfl⟩ :=
    (catalogSystem config).step_cases hstep
  · exact .inl rfl
  · obtain hsame | ⟨e, hemitted, hadded⟩ := o.exec_socket c P.world
    · exact .inl hsame
    · obtain ⟨-, hfollows⟩ := Protocol.follows_of_reaches respects_announcements
        (fun q _ => follows_announcements config q) hinit hreach i t ht
      rw [hrest] at hfollows
      obtain hno | ⟨cmd, ctx, amount, items, hrequest, rfl, hpublished, hsilent⟩ := hfollows.1
      · refine .inr (.inl ⟨e, ?_, hadded⟩)
        cases o with
        | emitNewOrder storeId orderId items amount traceId => exact hno.elim
        | emitOrderUpdated storeId orderId status =>
            cases hemitted
            cases hno
            exact ⟨_, _, _, rfl⟩
        | _ => cases hemitted
      · cases hemitted
        refine .inr (.inr ⟨i, t, cmd, ctx, amount, items, c.now, ht, hrequest, hsilent, hadded, ?_⟩)
        exact ⟨_, cmd, ctx, amount, items, c.now,
          (catalogSystem config).advance_threads_self P i c t _ k, hrequest, rfl,
          List.mem_cons_of_mem _ hpublished, fun hall => hall _ List.mem_cons_self⟩
  · cases hw
    exact .inl (e.apply_socket P.world)

/-- **The socket is sound.** Each event on it announces the order of a published job, or it goes to
no store. -/
theorem announced_of_mem_socket (hinit : ∀ i, P₀.threads i = none) (hsocket : P₀.world.socket = [])
    (h : (catalogSystem config).Reaches ok P₀ P) :
    ∀ e ∈ P.world.socket, (∃ i, AnnouncedBy P i e) ∨ e.IsMisaddressed := by
  refine System.Reaches.invariant
    (I := fun P => ∀ e ∈ P.world.socket, (∃ i, AnnouncedBy P i e) ∨ e.IsMisaddressed) ?_ ?_ h
  · rw [hsocket]
    exact fun _ he => by cases he
  · intro P ℓ P' hreach hI _ hstep
    have hold : ∀ e ∈ P.world.socket, (∃ i, AnnouncedBy P' i e) ∨ e.IsMisaddressed :=
      fun e he => (hI e he).imp_left fun ⟨i, hby⟩ => ⟨i, hby.step hstep⟩
    obtain hsame | ⟨e, hmisaddressed, hadded⟩ |
        ⟨i, t, cmd, ctx, amount, items, createdAt, -, -, -, hadded, hby⟩ :=
      socket_cases hinit hreach hstep
    · rwa [hsame]
    · rw [hadded]
      exact List.forall_mem_append.mpr ⟨hold, List.forall_mem_singleton.mpr (.inr hmisaddressed)⟩
    · rw [hadded]
      exact List.forall_mem_append.mpr ⟨hold, List.forall_mem_singleton.mpr (.inl ⟨i, hby⟩)⟩

/-- Calls have drawn different ids. -/
theorem orderIds_distinct (hinit : ∀ i, P₀.threads i = none) (hok : ∀ ℓ P, ok ℓ P → DrawsFreshId ℓ P)
    (h : (catalogSystem config).Reaches ok P₀ P) {i j : ℕ} {t u : OrderThread}
    {cmd cmd' : CreateOrderCommand} {ctx ctx' : ApiContext} (ht : P.threads i = some t)
    (hu : P.threads j = some u) (hrequest : t.request = .createOrder cmd ctx)
    (hrequest' : u.request = .createOrder cmd' ctx') (hsame : ctx.orderId = ctx'.orderId) : i = j := by
  refine System.Reaches.invariant
    (I := fun P => ∀ i j t u cmd ctx cmd' ctx', P.threads i = some t → P.threads j = some u →
      t.request = .createOrder cmd ctx → u.request = .createOrder cmd' ctx' →
      ctx.orderId = ctx'.orderId → i = j)
    (fun i _ t _ _ _ _ _ ht => by simp [hinit i] at ht) ?_ h i j t u cmd ctx cmd' ctx' ht hu hrequest
    hrequest' hsame
  intro P ℓ P' _ hI hℓ hstep i j t u cmd ctx cmd' ctx' ht hu hrequest hrequest' hsame
  -- a thread is as old as its request, or it has just been started
  have hrequests : ∀ {i t}, P'.threads i = some t →
      (∃ t₀, P.threads i = some t₀ ∧ t₀.request = t.request) ∨ ℓ = .spawn i t.request := by
    intro i t ht
    obtain hold | ⟨q, rfl, rfl⟩ | ⟨c, t₀, o, k, -, ht₀, -, -, rfl⟩ :=
      (catalogSystem config).step_threads hstep ht
    · exact .inl ⟨t, hold, rfl⟩
    · exact .inr rfl
    · exact .inl ⟨t₀, ht₀, rfl⟩
  have hfresh := hok _ _ hℓ
  obtain ⟨t₀, ht₀, hsame₀⟩ | rfl := hrequests ht
  · obtain ⟨u₀, hu₀, hsame₁⟩ | rfl := hrequests hu
    · exact hI i j t₀ u₀ cmd ctx cmd' ctx' ht₀ hu₀ (hsame₀.trans hrequest) (hsame₁.trans hrequest')
        hsame
    · exact absurd hsame (hfresh cmd' ctx' hrequest' i t₀ cmd ctx ht₀ (hsame₀.trans hrequest))
  · obtain ⟨u₀, hu₀, hsame₁⟩ | hspawn := hrequests hu
    · exact absurd hsame.symm (hfresh cmd ctx hrequest j u₀ cmd' ctx' hu₀ (hsame₁.trans hrequest'))
    · exact (Label.spawn.inj hspawn).1

/-- The call behind an event that announces the order of thread `i`: it is that thread, as no other
has drawn the id. -/
theorem AnnouncedBy.eq_of_orderId (hinit : ∀ i, P₀.threads i = none)
    (hok : ∀ ℓ P, ok ℓ P → DrawsFreshId ℓ P) (h : (catalogSystem config).Reaches ok P₀ P) {i j : ℕ}
    {t : OrderThread} {cmd : CreateOrderCommand} {ctx : ApiContext} {e : SocketEvent}
    (ht : P.threads i = some t) (hrequest : t.request = .createOrder cmd ctx)
    (hby : AnnouncedBy P j e) (he : e.announced? = some ctx.orderId) : j = i := by
  obtain ⟨u, cmd', ctx', amount, items, createdAt, hu, hrequest', rfl, -, -⟩ := hby
  exact orderIds_distinct hinit hok h hu ht hrequest' hrequest (Option.some.inj he)

/-- **No order is announced twice.** A call announces once, and its order is nobody else's. -/
theorem nodup_announced (hinit : ∀ i, P₀.threads i = none) (hsocket : P₀.world.socket = [])
    (hok : ∀ ℓ P, ok ℓ P → DrawsFreshId ℓ P) (h : (catalogSystem config).Reaches ok P₀ P) :
    (P.world.socket.filterMap SocketEvent.announced?).Nodup := by
  refine System.Reaches.invariant
    (I := fun P => (P.world.socket.filterMap SocketEvent.announced?).Nodup) ?_ ?_ h
  · rw [hsocket]
    exact List.nodup_nil
  · intro P ℓ P' hreach hI _ hstep
    obtain hsame | ⟨e, ⟨orderId, status, updatedAt, rfl⟩, hadded⟩ |
        ⟨i, t, cmd, ctx, amount, items, createdAt, ht, hrequest, hsilent, hadded, -⟩ :=
      socket_cases hinit hreach hstep
    · rwa [hsame]
    · rw [hadded, List.filterMap_append]
      exact (List.append_nil _).symm ▸ hI
    · rw [hadded, List.filterMap_append]
      refine List.nodup_append.mpr ⟨hI, List.nodup_singleton _, ?_⟩
      rintro id hid _ hnew rfl
      obtain rfl := List.mem_singleton.mp hnew
      -- the earlier announcement is of the same call, which has made none
      obtain ⟨e, he, hannounced⟩ := List.mem_filterMap.mp hid
      obtain ⟨j, hby⟩ | ⟨orderId, status, updatedAt, rfl⟩ :=
        announced_of_mem_socket hinit hsocket hreach e he
      · obtain rfl := hby.eq_of_orderId hinit hok hreach ht hrequest hannounced
        obtain ⟨u, -, -, -, -, -, hu, -, -, -, hloud⟩ := hby
        obtain rfl : t = u := Option.some.inj (ht.symm.trans hu)
        exact hloud hsilent
      · cases hannounced

/-- **An answered announcement is on the socket.** -/
theorem mem_socket_of_announced (hinit : ∀ i, P₀.threads i = none)
    (h : (catalogSystem config).Reaches ok P₀ P) {i : ℕ} {t : OrderThread} (ht : P.threads i = some t)
    {cmd : CreateOrderCommand} {ctx : ApiContext} {amount : String} {items : List OrderItem}
    (hannounced : (⟨announcement cmd ctx amount items, .ok ()⟩ : OrderEvent) ∈ t.hist) :
    ∃ createdAt, newOrder cmd ctx amount items createdAt ∈ P.world.socket := by
  refine System.facts_of_reaches (fun e w => ∀ cmd ctx amount items,
    e = ⟨announcement cmd ctx amount items, .ok ()⟩ →
      ∃ createdAt, newOrder cmd ctx amount items createdAt ∈ w.socket) hinit ?_ ?_ h i t ht _
    hannounced cmd ctx amount items rfl
  · rintro P i c t o k - - - - cmd ctx amount items hevent
    obtain ⟨rfl, hanswer⟩ := Event.mk.inj hevent
    refine ⟨c.now, ?_⟩
    have heffect := Op.exec_eq_effect_of_ok (eq_of_heq hanswer)
    show _ ∈ (Op.exec (announcement cmd ctx amount items) c P.world).2.socket
    rw [heffect]
    exact List.mem_append_right _ List.mem_cons_self
  · intro P ℓ P' e _ _ hstep hI cmd ctx amount items hevent
    obtain ⟨createdAt, hmem⟩ := hI cmd ctx amount items hevent
    exact ⟨createdAt, (socket_prefix_of_step hstep).subset hmem⟩

end Runs

/-! ## The clients over a run -/

/-- A step of the system with the gateway. -/
abbrev GatewayLabel := Label Choice Request (CatalogStep ⊕ GatewayStep)

/-- The pool with the gateway of one API process beside its world.  The rooms and inboxes are the
gateway's, and no program reads them. -/
abbrev GatewayPool := Pool Op.Reply OrderError Outcome (World × Gateway) Request

/-- The client neither joins a room nor leaves.  What the other clients do is not restricted. -/
def Stays (client : ℕ) (ℓ : GatewayLabel) : Prop := ∀ a, ℓ = .env (.inr a) → a.client ≠ client

/-- The client joins as the store with this id.  Nobody joins as a store without an id, and an id
that is no text is printed as one first. -/
def GatewayStep.JoinsAs (a : GatewayStep) (client : ℕ) (storeId : String) : Prop :=
  a.client = client ∧ ∃ v, a.storeId? = some v ∧ (v.isTruthy ∧ v.hasText) ∧ v.toText = storeId

/-- Store ids share a room only if they are the same text.  The room is named by the text of what
the client has sent, of whatever type that is. -/
theorem OrderGateway.room_inj {v v' : JsValue} : room v = room v' ↔ v.toText = v'.toText :=
  String.append_right_inj _

section Clients

variable {config : AppConfig} {ok : GatewayLabel → GatewayPool → Prop} {P₀ P : GatewayPool}
variable {client : ℕ}

/-- **While a client stays, it is sent the events of its rooms, in their order.** Nothing is left
out, and nothing else is sent to it. -/
theorem inbox_of_stays (hok : ∀ ℓ P, ok ℓ P → Stays client ℓ)
    (h : (gatewaySystem config).Reaches ok P₀ P) :
    ∃ events, P.world.1.socket = P₀.world.1.socket ++ events ∧
      P.world.2.rooms client = P₀.world.2.rooms client ∧
      P.world.2.inbox client = P₀.world.2.inbox client ++
        (events.filter fun e => e.room ∈ P₀.world.2.rooms client).map .event := by
  refine System.Reaches.monitor_invariant
    (I := fun (P : OrderPool) g => ∃ events, P.world.socket = P₀.world.1.socket ++ events ∧
      g.rooms client = P₀.world.2.rooms client ∧ g.inbox client = P₀.world.2.inbox client ++
        (events.filter fun e => e.room ∈ P₀.world.2.rooms client).map .event) ?_ ?_ ?_ h
  · exact ⟨[], (List.append_nil _).symm, rfl, (List.append_nil _).symm⟩
  · rintro P a - hℓ ⟨events, hsocket, hrooms, hinbox⟩
    have hother : client ≠ a.client := (hok _ _ hℓ a rfl).symm
    exact ⟨events, hsocket, (GatewayStep.apply_rooms_of_ne hother _).trans hrooms,
      (GatewayStep.apply_inbox_of_ne hother _).trans hinbox⟩
  · rintro P ℓ P' - - hstep ⟨events, hsocket, hrooms, hinbox⟩
    obtain ⟨news, hnews⟩ := socket_prefix_of_step hstep
    replace hnews : P.world.1.socket ++ news = P'.world.socket := hnews
    replace hsocket : P.world.1.socket = P₀.world.1.socket ++ events := hsocket
    have hdrop : P'.world.socket.drop P.world.1.socket.length = news := by
      rw [← hnews, List.drop_left]
    refine ⟨events ++ news, by rw [← hnews, hsocket, List.append_assoc], ?_, ?_⟩
    · show (Gateway.deliver _ P.world.2).rooms client = _
      rw [Gateway.rooms_deliver, hrooms]
    · show (Gateway.deliver _ P.world.2).inbox client = _
      rw [hdrop, Gateway.inbox_deliver, hrooms, hinbox, List.filter_append, List.map_append,
        List.append_assoc]

variable (config ok P₀ P client) in
/-- Earlier in the run, the client has joined as this store.  The run is cut in two at the step, so
that what happened before and after is a run as well. -/
def HasJoinedAs (storeId : String) : Prop :=
  ∃ a P₁, a.JoinsAs client storeId ∧ (gatewaySystem config).Reaches ok P₀ P₁ ∧ ok (.env (.inr a)) P₁ ∧
    (gatewaySystem config).Reaches ok { P₁ with world := (P₁.world.1, a.apply P₁.world.2) } P

theorem HasJoinedAs.step {P' : GatewayPool} {ℓ : GatewayLabel} (hℓ : ok ℓ P)
    (hstep : (gatewaySystem config).step ℓ P = some P') {storeId : String}
    (h : HasJoinedAs config ok P₀ P client storeId) : HasJoinedAs config ok P₀ P' client storeId := by
  obtain ⟨a, P₁, hjoins, hearlier, hok, hlater⟩ := h
  exact ⟨a, P₁, hjoins, hearlier, hok, hlater.tail ⟨ℓ, hℓ, hstep⟩⟩

/-- **A client is only in rooms it has joined**, earlier in the run. -/
theorem hasJoinedAs_of_mem_rooms (hrooms : ∀ client, P₀.world.2.rooms client = [])
    (h : (gatewaySystem config).Reaches ok P₀ P) :
    ∀ v, OrderGateway.room v ∈ P.world.2.rooms client →
      HasJoinedAs config ok P₀ P client v.toText := by
  -- by induction on the run: a room is joined at some step, and left on disconnection only
  refine System.Reaches.invariant (I := fun P => ∀ v, OrderGateway.room v ∈ P.world.2.rooms client →
    HasJoinedAs config ok P₀ P client v.toText) ?_ ?_ h
  · rw [hrooms]
    exact fun _ hroom => by cases hroom
  · intro P ℓ P' hreach hI hℓ hstep
    have hold : ∀ v, OrderGateway.room v ∈ P.world.2.rooms client →
        HasJoinedAs config ok P₀ P' client v.toText := fun v hroom => (hI v hroom).step hℓ hstep
    obtain ⟨a, rfl, rfl⟩ | ⟨ℓ₀, rfl, -, hwatch⟩ := System.step_monitored hstep
    · show ∀ v, OrderGateway.room v ∈ (a.apply P.world.2).rooms client → _
      -- another client's step leaves this one's rooms
      by_cases hclient : client = a.client
      · obtain ⟨w, hw, hjoins, happly⟩ | happly | happly := a.apply_cases P.world.2
        · have hjoined : (a.apply P.world.2).rooms client =
              OrderGateway.room w :: P.world.2.rooms client := by
            rw [happly, hclient]
            exact Function.update_self ..
          rw [hjoined]
          intro v hroom
          obtain hnew | hroom := List.mem_cons.mp hroom
          · exact ⟨a, P, ⟨hclient.symm, w, hw, hjoins, (OrderGateway.room_inj.mp hnew).symm⟩,
              hreach, hℓ, .refl⟩
          · exact hold v hroom
        · have hleft : (a.apply P.world.2).rooms client = [] := by
            rw [happly, hclient]
            exact Function.update_self ..
          rw [hleft]
          exact fun _ hroom => by cases hroom
        · rwa [happly]
      · rwa [GatewayStep.apply_rooms_of_ne hclient]
    · rw [hwatch]
      show ∀ v, OrderGateway.room v ∈ (Gateway.deliver _ P.world.2).rooms client → _
      rwa [Gateway.rooms_deliver]

/-- **What a client has been sent has been emitted**, to a store as which it has joined. -/
theorem mem_socket_of_mem_inbox (hrooms : ∀ client, P₀.world.2.rooms client = [])
    (hinbox : ∀ client, P₀.world.2.inbox client = []) (h : (gatewaySystem config).Reaches ok P₀ P) :
    ∀ e, .event e ∈ P.world.2.inbox client →
      e ∈ P.world.1.socket ∧ HasJoinedAs config ok P₀ P client e.storeId.toText := by
  refine System.Reaches.invariant (I := fun P => ∀ e, .event e ∈ P.world.2.inbox client →
    e ∈ P.world.1.socket ∧ HasJoinedAs config ok P₀ P client e.storeId.toText) ?_ ?_ h
  · rw [hinbox]
    exact fun _ he => by cases he
  · intro P ℓ P' hreach hI hℓ hstep e he
    have hkept : ∀ {storeId}, HasJoinedAs config ok P₀ P client storeId →
        HasJoinedAs config ok P₀ P' client storeId := fun hjoined => hjoined.step hℓ hstep
    obtain ⟨a, rfl, rfl⟩ | ⟨ℓ₀, rfl, hstep₀, hwatch⟩ := System.step_monitored hstep
    · exact (hI e (GatewayStep.mem_apply_inbox he)).imp_right hkept
    · have hsocket : P.world.1.socket <+: P'.world.1.socket := socket_prefix_of_step hstep₀
      rw [hwatch] at he
      replace he : .event e ∈ (Gateway.deliver (P'.world.1.socket.drop P.world.1.socket.length)
        P.world.2).inbox client := he
      rw [Gateway.inbox_deliver] at he
      obtain hold | hnew := List.mem_append.mp he
      · exact (hI e hold).imp (fun hmem => hsocket.subset hmem) hkept
      · obtain ⟨e', he', heq⟩ := List.mem_map.mp hnew
        cases heq
        obtain ⟨hdropped, hroom⟩ := List.mem_filter.mp he'
        exact ⟨List.mem_of_mem_drop hdropped,
          hkept (hasJoinedAs_of_mem_rooms hrooms hreach _ (of_decide_eq_true hroom))⟩

end Clients

/-! ## What a point of sale can rely on -/

/-- The message announces this order. -/
def SocketMessage.announces (orderId : Uuid) : SocketMessage → Bool
  | .event e => e.announced? = some orderId
  | .posOk _ => false

/-- Where a value occurs once, the elements with that value are the one that is known to have it. -/
theorem filter_eq_singleton {α β : Type} [DecidableEq β] {f : α → Option β} {l : List α} {a : α}
    {b : β} (hnodup : (l.filterMap f).Nodup) (hmem : a ∈ l) (ha : f a = some b) :
    l.filter (fun x => f x = some b) = [a] := by
  obtain ⟨before, after, rfl⟩ := List.append_of_mem hmem
  rw [List.filterMap_append, List.filterMap_cons_some ha, List.nodup_middle, List.nodup_cons,
    List.mem_append, not_or] at hnodup
  obtain ⟨⟨hbefore, hafter⟩, -⟩ := hnodup
  have hnone : ∀ {xs : List α}, b ∉ xs.filterMap f → xs.filter (fun x => f x = some b) = [] := by
    intro xs hb
    rw [List.filter_eq_nil_iff]
    intro x hx hfx
    exact hb (List.mem_filterMap.mpr ⟨x, hx, of_decide_eq_true hfx⟩)
  rw [List.filter_append, List.filter_cons, if_pos (decide_eq_true ha), hnone hbefore, hnone hafter]
  rfl

section Pos

variable {config : AppConfig} {w : World} {P₁ P : GatewayPool} {client : ℕ}

theorem AnnouncedBy.reaches {ok : CatalogLabel → OrderPool → Prop} {P P' : OrderPool} {i : ℕ}
    {e : SocketEvent} (h : (catalogSystem config).Reaches ok P P') (hby : AnnouncedBy P i e) :
    AnnouncedBy P' i e :=
  System.Reaches.invariant (I := fun P => AnnouncedBy P i e) hby
    (fun _ _ _ _ hI _ hstep => hI.step hstep) h

variable (config P client) in
/-- The event announces the order of a published job, with its items and its amount, to a client
that has joined as the store of the order, earlier in the run. -/
def IsOwnOrder (ok : GatewayLabel → GatewayPool → Prop) (P₀ : GatewayPool) (e : SocketEvent) : Prop :=
  ∃ i t cmd ctx amount items createdAt, P.threads i = some t ∧ t.request = .createOrder cmd ctx ∧
    e = newOrder cmd ctx amount items createdAt ∧
    (⟨.mainQueueAdd (payload cmd ctx amount items), .ok ()⟩ : OrderEvent) ∈ t.hist ∧
    HasJoinedAs config ok P₀ P client cmd.storeId

/-- **A point of sale only hears of its own orders.**  A new order that a client has been sent is
of a store it has joined as; a new status it is only sent if it has joined as `undefined`. -/
theorem received_of_joined {ok : GatewayLabel → GatewayPool → Prop} (hsocket : w.socket = [])
    (h : (gatewaySystem config).Reaches ok (Pool.init (w, Gateway.init)) P) {e : SocketEvent}
    (he : .event e ∈ P.world.2.inbox client) :
    IsOwnOrder config P client ok (Pool.init (w, Gateway.init)) e ∨
      e.IsMisaddressed ∧ HasJoinedAs config ok (Pool.init (w, Gateway.init)) P client "undefined" := by
  obtain ⟨hmem, hjoined⟩ := mem_socket_of_mem_inbox (fun _ => rfl) (fun _ => rfl) h e he
  have hbase : (catalogSystem config).Reaches (fun _ _ => True) (Pool.init w) P.watched :=
    System.Reaches.watched (fun _ _ _ _ _ => trivial) h
  obtain ⟨i, t, cmd, ctx, amount, items, createdAt, ht, hrequest, rfl, hpublished, -⟩ |
      ⟨orderId, status, updatedAt, rfl⟩ :=
    announced_of_mem_socket (fun _ => rfl) hsocket hbase e hmem
  · exact .inl ⟨i, t, cmd, ctx, amount, items, createdAt, ht, hrequest, rfl, hpublished, hjoined⟩
  · exact .inr ⟨⟨orderId, status, updatedAt, rfl⟩, hjoined⟩

/-- **A point of sale hears of an order once.**  A client that is in the room of a store before a
call comes in, and stays, has been sent exactly one new order with the id of that call once it
returns an order of its own, and it has the items and the amount of the job that was published. -/
theorem new_order_received_once (hsocket : w.socket = [])
    (hearlier : (gatewaySystem config).Reaches (Besides DrawsFreshId)
      (Pool.init (w, Gateway.init)) P₁)
    {cmd : CreateOrderCommand} {ctx : ApiContext}
    (hroom : OrderGateway.room (.string cmd.storeId) ∈ P₁.world.2.rooms client) {i : ℕ}
    (hnew : P₁.threads i = none)
    (hlater : (gatewaySystem config).Reaches (fun ℓ P => Besides DrawsFreshId ℓ P ∧ Stays client ℓ)
      P₁ P)
    {t : OrderThread} (ht : P.threads i = some t) (hrequest : t.request = .createOrder cmd ctx)
    {r : CreateOrderResult} (hreturned : t.Returned (.created r)) (hfirst : r.replayed = false) :
    ∃ amount items createdAt,
      (⟨.mainQueueAdd (payload cmd ctx amount items), .ok ()⟩ : OrderEvent) ∈ t.hist ∧
      (P.world.2.inbox client).filter (SocketMessage.announces ctx.orderId) =
        [.event (newOrder cmd ctx amount items createdAt)] := by
  have hbase₁ : (catalogSystem config).Reaches DrawsFreshId (Pool.init w) P₁.watched :=
    System.Reaches.watched (fun _ _ h => h) hearlier
  have hbase₂ : (catalogSystem config).Reaches DrawsFreshId P₁.watched P.watched :=
    System.Reaches.watched (fun _ _ h => h.1) hlater
  have hbase := hbase₁.trans hbase₂
  obtain ⟨amount, items, hannounced⟩ := Protocol.returns_of_reaches respects_announcements
    (fun q _ => follows_announcements config q) (fun _ => rfl) hbase ht hreturned cmd ctx r hrequest
    rfl hfirst
  obtain ⟨createdAt, hmem⟩ := mem_socket_of_announced (fun _ => rfl) hbase ht hannounced
  have hpublished : (⟨.mainQueueAdd (payload cmd ctx amount items), .ok ()⟩ : OrderEvent) ∈
      t.hist := by
    obtain ⟨past, hpast, hno | ⟨cmd', ctx', amount', items', hrequest', hop, hpublished, -⟩⟩ :=
      Protocol.issues_of_reaches respects_announcements (fun q _ => follows_announcements config q)
        (fun _ => rfl) hbase ht (.inr ⟨_, hannounced, rfl⟩)
    · exact hno.elim
    · cases hrequest.symm.trans hrequest'
      cases hop
      exact hpast.subset hpublished
  -- before the call came in, its order had not been announced
  have hunheard : ∀ e ∈ P₁.world.1.socket, e.announced? ≠ some ctx.orderId := by
    intro e he hannounces
    obtain ⟨j, hby⟩ | ⟨orderId, status, updatedAt, rfl⟩ :=
      announced_of_mem_socket (fun _ => rfl) hsocket hbase₁ e he
    · obtain rfl := (hby.reaches hbase₂).eq_of_orderId (fun _ => rfl) (fun _ _ h => h) hbase ht
        hrequest hannounces
      obtain ⟨u, -, -, -, -, -, hu, -⟩ := hby
      cases hnew.symm.trans hu
    · cases hannounces
  have hnone : (P₁.world.2.inbox client).filter (SocketMessage.announces ctx.orderId) = [] := by
    rw [List.filter_eq_nil_iff]
    intro message hmessage hannounces
    cases message with
    | posOk storeId => cases hannounces
    | event e =>
        exact hunheard e (mem_socket_of_mem_inbox (fun _ => rfl) (fun _ => rfl) hearlier e hmessage).1
          (of_decide_eq_true hannounces)
  obtain ⟨events, hsplit, -, hinbox⟩ := inbox_of_stays (fun _ _ h => h.2) hlater
  have honce : events.filter (fun e => e.announced? = some ctx.orderId) =
      [newOrder cmd ctx amount items createdAt] := by
    refine filter_eq_singleton ?_ ?_ rfl
    · have hnodup := nodup_announced (fun _ => rfl) hsocket (fun _ _ h => h) hbase
      replace hnodup : (P.world.1.socket.filterMap SocketEvent.announced?).Nodup := hnodup
      rw [hsplit, List.filterMap_append] at hnodup
      exact (List.nodup_append.mp hnodup).2.1
    · replace hmem : newOrder cmd ctx amount items createdAt ∈ P.world.1.socket := hmem
      rw [hsplit] at hmem
      exact (List.mem_append.mp hmem).resolve_left fun hold => hunheard _ hold rfl
  have hcomm : (events.filter fun e => e.room ∈ P₁.world.2.rooms client).filter
      (fun e => e.announced? = some ctx.orderId) =
        (events.filter fun e => e.announced? = some ctx.orderId).filter
          fun e => e.room ∈ P₁.world.2.rooms client := by
    rw [List.filter_filter, List.filter_filter]
    exact List.filter_congr fun e _ => Bool.and_comm _ _
  refine ⟨amount, items, createdAt, hpublished, ?_⟩
  rw [hinbox, List.filter_append, hnone, List.nil_append, List.filter_map]
  show ((events.filter _).filter fun e => e.announced? = some ctx.orderId).map SocketMessage.event = _
  rw [hcomm, honce]
  exact congrArg (List.map SocketMessage.event)
    (List.filter_eq_self.mpr (List.forall_mem_singleton.mpr (decide_eq_true hroom)))

end Pos

/-! ### A point of sale at the first seeded store -/

/-- A point of sale connects and says hello with the id of its store. -/
def posRun : List GatewayLabel :=
  [.env (.inr (.posHello 1 (.object [("storeId", .string seedCommand.storeId)])))]

theorem posRun_replays : ((gatewaySystem seedConfig).replay posRun
    (Pool.init (World.init .seed, Gateway.init))).isSome = true := by
  decide +kernel

/-- The point of sale has joined its room, and nothing else has happened. -/
def posPool : GatewayPool :=
  (gatewaySystem seedConfig).after posRun (Pool.init (World.init .seed, Gateway.init)) posRun_replays

/-- An order comes in. -/
def newOrderRun : List GatewayLabel :=
  .spawn 0 (.createOrder seedCommand seedContext) :: List.replicate 7 (.act 0 (.undisturbed 0))

theorem newOrderRun_replays : ((gatewaySystem seedConfig).replay newOrderRun posPool).isSome =
    true := by
  decide +kernel

/-- The pool once an order for its store is accepted. -/
def newOrderPool : GatewayPool :=
  (gatewaySystem seedConfig).after newOrderRun posPool newOrderRun_replays

/-- The steps that start no call are not restricted. -/
theorem besides_drawsFreshId {ℓ : GatewayLabel} (h : ∀ i q, ℓ ≠ .spawn i q) (P : GatewayPool) :
    Besides DrawsFreshId ℓ P := by
  rintro ℓ₀ rfl
  cases ℓ₀ with
  | spawn i q => exact absurd rfl (h i q)
  | act i c => trivial
  | env e => trivial

theorem posPool_reaches : (gatewaySystem seedConfig).Reaches (Besides DrawsFreshId)
    (Pool.init (World.init .seed, Gateway.init)) posPool := by
  have hadmitted : (gatewaySystem seedConfig).Admitted (Besides DrawsFreshId) posRun
      (Pool.init (World.init .seed, Gateway.init)) :=
    ⟨besides_drawsFreshId (fun _ _ h => by cases h) _, fun _ _ => trivial⟩
  exact .after hadmitted posRun_replays

/-- The call is the first to draw an id, and the point of sale stays. -/
theorem newOrderPool_reaches : (gatewaySystem seedConfig).Reaches
    (fun ℓ P => Besides DrawsFreshId ℓ P ∧ Stays 1 ℓ) posPool newOrderPool := by
  have hfirst : Besides DrawsFreshId
      (.spawn 0 (.createOrder seedCommand seedContext) : GatewayLabel) posPool := by
    rintro ℓ₀ hℓ₀
    cases ℓ₀ with
    | spawn i q =>
        -- there is no other call
        intro cmd ctx _ j t cmd' ctx' ht
        cases ht
    | act i c => cases hℓ₀
    | env e => cases hℓ₀
  have hadmitted : (gatewaySystem seedConfig).Admitted
      (fun ℓ P => Besides DrawsFreshId ℓ P ∧ Stays 1 ℓ) newOrderRun posPool := by
    refine ⟨⟨hfirst, fun a ha => by cases ha⟩, fun P' _ => .of_mem (fun ℓ hℓ P => ?_) P'⟩
    obtain rfl := List.eq_of_mem_replicate hℓ
    exact ⟨besides_drawsFreshId (fun _ _ h => by cases h) P, fun a ha => by cases ha⟩
  exact .after hadmitted newOrderRun_replays

/-- What a call has returned. -/
def created? (t : OrderThread) : Option (CreateOrderCommand × ApiContext × CreateOrderResult) :=
  match t.request, t.rest with
  | .createOrder cmd ctx, .pure (.created r) => some (cmd, ctx, r)
  | _, _ => none

theorem created?_eq_some {t : OrderThread} {cmd : CreateOrderCommand} {ctx : ApiContext}
    {r : CreateOrderResult} (h : created? t = some (cmd, ctx, r)) :
    t.request = .createOrder cmd ctx ∧ t.Returned (.created r) := by
  unfold created? at h
  split at h
  · rename_i hrequest hrest
    cases h
    exact ⟨hrequest, hrest⟩
  · cases h

theorem new_order_received_once_seed : ∃ t amount items createdAt,
    newOrderPool.threads 0 = some t ∧
    (⟨.mainQueueAdd (payload seedCommand seedContext amount items), .ok ()⟩ : OrderEvent) ∈ t.hist ∧
    (newOrderPool.world.2.inbox 1).filter (SocketMessage.announces ⟨7⟩) =
      [.event (newOrder seedCommand seedContext amount items createdAt)] := by
  have hthread : (newOrderPool.threads 0).bind created? =
      some (seedCommand, seedContext, result seedContext) := by
    decide +kernel
  obtain ⟨t, ht, hcreated⟩ := Option.bind_eq_some_iff.mp hthread
  obtain ⟨hrequest, hreturned⟩ := created?_eq_some hcreated
  have hroom : OrderGateway.room (.string seedCommand.storeId) ∈ posPool.world.2.rooms 1 := by
    decide +kernel
  have hnew : posPool.threads 0 = none := rfl
  obtain ⟨amount, items, createdAt, hpublished, honce⟩ := new_order_received_once rfl posPool_reaches
    hroom hnew newOrderPool_reaches ht hrequest hreturned rfl
  exact ⟨t, amount, items, createdAt, ht, hpublished, honce⟩

/-- The guarantee at this run: the new order is in the inbox of the point of sale, and by the
theorem it is an order of the store it has said hello for. -/
theorem received_of_joined_seed : ∃ e, .event e ∈ newOrderPool.world.2.inbox 1 ∧
    e.announced? = some ⟨7⟩ ∧
    (IsOwnOrder seedConfig newOrderPool 1 (fun _ _ => True)
        (Pool.init (World.init .seed, Gateway.init)) e ∨
      e.IsMisaddressed ∧ HasJoinedAs seedConfig (fun _ _ => True)
        (Pool.init (World.init .seed, Gateway.init)) newOrderPool 1 "undefined") := by
  have hinbox : (newOrderPool.world.2.inbox 1).any (SocketMessage.announces ⟨7⟩) = true := by
    decide +kernel
  obtain ⟨message, hmessage, hannounces⟩ := List.any_eq_true.mp hinbox
  have hreaches : (gatewaySystem seedConfig).Reaches (fun _ _ => True)
      (Pool.init (World.init .seed, Gateway.init)) newOrderPool :=
    (posPool_reaches.mono fun _ _ _ => trivial).trans
      (newOrderPool_reaches.mono fun _ _ _ => trivial)
  cases message with
  | posOk storeId => cases hannounces
  | event e =>
      exact ⟨e, hmessage, of_decide_eq_true hannounces, received_of_joined rfl hreaches hmessage⟩

end ChickenOrder
