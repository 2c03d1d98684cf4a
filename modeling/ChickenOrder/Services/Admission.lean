import ChickenOrder.Services.ItemValidation

/-!
# A request that nothing disturbs

What one call of `execute` does if none of its own calls fails, step by step: the key is
acquired or it was held; the items are completed with their menus or the request is rejected;
the job is published and announced.  `run_execute_of_ok`, `run_execute_of_error` and
`run_execute_of_held` say what is left of it: the answer, the queue and the socket.

Here the calls of the request are undisturbed, but its world is arbitrary: any entry may be in
the cache, any key may be held, any job may be on the queue.  What other threads do in between
is left to the modules about runs; the results of this one are about requests that are compared
with each other, one at a time.
-/

namespace ChickenOrder

open Interaction Interaction.Program

namespace CreateOrderService

/-! ## What is admitted -/

/-- The items of a command, each completed with its menu among those the command is validated with.
No item is missing or sold out. -/
def Completes (w : World) (cmd : CreateOrderCommand) (enrichedItems : List OrderItem) : Prop :=
  ∃ menus found, menusFor w cmd = .ok menus ∧ List.Forall₂ (Orderable menus) cmd.items found ∧
    enrichedItems = List.zipWith enrich cmd.items found

/-- Moreover the requested amount is their total, to twenty digits. -/
structure Admits (w : World) (cmd : CreateOrderCommand) (enrichedItems : List OrderItem) : Prop where
  completes : Completes w cmd enrichedItems
  amount : Decimal.ofText? cmd.requestedAmount = some (roundedTotal enrichedItems)

section Admits

variable {w : World} {cmd : CreateOrderCommand} {enrichedItems : List OrderItem}

/-- **A command of finite quantities is validated if it is admitted**, and only then; the calculated
amount is the total, printed. -/
theorem validated_iff_admits (hfinite : ∀ item ∈ cmd.items, ∃ q, item.quantity = .finite q)
    {calculatedAmount : String} :
    menusFor w cmd >>= validateItems cmd = .ok (calculatedAmount, enrichedItems) ↔
      Admits w cmd enrichedItems ∧
        calculatedAmount = Decimal.toFixed2 (roundedTotal enrichedItems) := by
  constructor
  · intro h
    cases hmenus : menusFor w cmd with
    | error e =>
        rw [hmenus] at h
        cases h
    | ok menus =>
        rw [hmenus] at h
        obtain ⟨found, hfound, hitems, hread, hamount⟩ := (validateItems_finite_iff hfinite).mp h
        exact ⟨⟨⟨menus, found, hmenus, hfound, hitems⟩, hread⟩, hamount⟩
  · rintro ⟨⟨⟨menus, found, hmenus, hfound, hitems⟩, hread⟩, hamount⟩
    rw [hmenus]
    exact (validateItems_finite_iff hfinite).mpr ⟨found, hfound, hitems, hread, hamount⟩

end Admits

/-! ## Its calls -/

section Calls

variable {α : Type} {w : World}

/-- `wp` where no call fails on its way.  A call can still be refused by its target. -/
abbrev quietWp (p : Service α) (Q : α → World → Prop) (E : OrderError → World → Prop) (w : World) :
    Prop :=
  wp (Executes Op.exec fun _ c => c.fault = Fault.none) (fun _ _ => True) p Q E w

/-- A call has its effect. -/
theorem quietWp_call {o : Op} {Q : Op.Reply o → World → Prop} {E : OrderError → World → Prop}
    (h : ∀ c, match o.effect c w with
      | (.ok a, w') => Q a w'
      | (.error e, w') => E e w') : quietWp (Op.call o) Q E w := by
  refine (wp_perform_executes Op.exec).mpr ⟨trivial, fun c hc => ?_⟩
  have hcall := h c
  rw [Op.exec_undisturbed hc]
  rcases heffect : o.effect c w with ⟨e | a, w'⟩
  · rwa [heffect] at hcall
  · rwa [heffect] at hcall

/-- The main queue and the socket are as they were.  Clients see nothing else of a request but its
answer. -/
def Unsent (w w' : World) : Prop := w'.mainQueue = w.mainQueue ∧ w'.socket = w.socket

/-- Before anything is done, nothing has been sent. -/
theorem unsent_refl (w : World) : Unsent w w := ⟨rfl, rfl⟩

end Calls

section Validation

variable {cmd : CreateOrderCommand} {w : World}

/-- The last step of a validation makes no call. -/
theorem quietWp_validateItems {menus : List MenuInfo} {w' : World}
    (hmenus : menusFor w cmd = .ok menus) (hunsent : Unsent w w') :
    quietWp (match validateItems cmd menus with
      | .error e => Program.throw e
      | .ok validated => return validated)
      (fun validated w' => menusFor w cmd >>= validateItems cmd = .ok validated ∧ Unsent w w')
      (fun e w' => menusFor w cmd >>= validateItems cmd = .error e ∧ Unsent w w') w' := by
  rw [hmenus]
  cases hvalidated : validateItems cmd menus with
  | error e => exact ⟨hvalidated, hunsent⟩
  | ok validated => exact ⟨hvalidated, hunsent⟩

/-- **A validation gives what the menus give**, and sends nothing. -/
theorem quietWp_validateAndEnrichItems (cmd : CreateOrderCommand) : quietWp (validateAndEnrichItems cmd)
    (fun validated w' => menusFor w cmd >>= validateItems cmd = .ok validated ∧ Unsent w w')
    (fun e w' => menusFor w cmd >>= validateItems cmd = .error e ∧ Unsent w w') w := by
  unfold quietWp validateAndEnrichItems getMenusCached
  rw [wp_bind, wp_bind]
  refine quietWp_call fun c => ?_
  simp only [Op.effect]
  cases hcached : w.menuCache (menuCacheKey (cmd.items.map CommandItem.menuId) cmd.storeId) with
  | some menus => exact quietWp_validateItems (menusFor_of_some hcached) (unsent_refl w)
  | none =>
      have hmenus := menusFor_of_none hcached
      simp only [wp_bind]
      refine quietWp_call fun c => ?_
      simp only [Op.effect]
      cases hfind : w.db.findMenusByIds (cmd.items.map CommandItem.menuId) cmd.storeId with
      | error e =>
          refine ⟨?_, unsent_refl w⟩
          rw [hmenus, hfind]
          rfl
      | ok menus =>
          refine quietWp_call fun c => ?_
          exact quietWp_validateItems (hmenus.trans hfind) ⟨rfl, rfl⟩

end Validation

/-! ## Its end -/

section Execute

variable {cmd : CreateOrderCommand} {ctx : ApiContext} {choices : ℕ → Choice} {w : World}
variable {calculatedAmount : String} {enrichedItems : List OrderItem}

/-- What the `catch` block throws: the validation's message with 422, or 503 for everything else. -/
def rejection (err : OrderError) : OrderError :=
  if err.isValidationError then .http 422 err.message else unavailable

/-- The job is added and the order announced, at some time.  That of the event is when the call is
made. -/
def Sent (cmd : CreateOrderCommand) (ctx : ApiContext) (calculatedAmount : String)
    (enrichedItems : List OrderItem) (w w' : World) : Prop :=
  w'.mainQueue = (w.mainQueueAdd (payload cmd ctx calculatedAmount enrichedItems)).mainQueue ∧
    ∃ now, w'.socket = w.socket ++ [.newOrder cmd.storeId ctx.orderId enrichedItems calculatedAmount
      (payload cmd ctx calculatedAmount enrichedItems).traceId now]

/-- Undisturbed, steps 3 to 5 send the job and the event and return the result. -/
theorem quietWp_publish {w₀ w : World} (hunsent : Unsent w₀ w) :
    quietWp (publish cmd ctx calculatedAmount enrichedItems)
      (fun r w' => r = result ctx ∧ Sent cmd ctx calculatedAmount enrichedItems w₀ w')
      (fun _ _ => False) w := by
  have hqueue : (w.mainQueueAdd (payload cmd ctx calculatedAmount enrichedItems)).mainQueue =
      (w₀.mainQueueAdd (payload cmd ctx calculatedAmount enrichedItems)).mainQueue := by
    unfold World.mainQueueAdd
    rw [hunsent.1]
    split <;> simp [hunsent.1]
  have hsocket : (w.mainQueueAdd (payload cmd ctx calculatedAmount enrichedItems)).socket =
      w₀.socket := by
    obtain ⟨queue, hframe⟩ := w.mainQueueAdd_frame (payload cmd ctx calculatedAmount enrichedItems)
    rw [hframe]
    exact hunsent.2
  unfold quietWp publish OrderQueueService.publishOrder IdempotencyService.setCompleted
  simp only [wp_bind, wp_return]
  refine quietWp_call fun _ => quietWp_call fun c => quietWp_call fun _ => ?_
  exact ⟨trivial, hqueue, c.now, congrArg (· ++ _) hsocket⟩

/-- Undisturbed, the `catch` block sends nothing and throws what the client is answered. -/
theorem quietWp_abandon {w₀ w : World} (hunsent : Unsent w₀ w) (err : OrderError) :
    quietWp (abandon cmd err) (fun _ _ => False)
      (fun e w' => e = rejection err ∧ Unsent w₀ w') w := by
  unfold quietWp abandon IdempotencyService.release rejection
  rw [wp_bind]
  refine quietWp_call fun _ => ?_
  simp only [Op.effect, wp_ite]
  exact ⟨fun h => ⟨by rw [if_pos h], hunsent⟩, fun h => ⟨by rw [if_neg h], hunsent⟩⟩

/-- A request that acquires its key ends as its validation does.  If that fails, the key is free
again. -/
theorem quietWp_execute (ctx : ApiContext)
    (hfree : w.idempotency (IdempotencyService.pendingKey cmd.idempotencyKey) = none) :
    quietWp (execute cmd ctx)
      (fun r w' => ∃ amount items, menusFor w cmd >>= validateItems cmd = .ok (amount, items) ∧
        r = result ctx ∧ Sent cmd ctx amount items w w')
      (fun e w' => ∃ err, menusFor w cmd >>= validateItems cmd = .error err ∧
        e = rejection err ∧ Unsent w w') w := by
  unfold quietWp execute IdempotencyService.tryAcquire
  rw [wp_bind]
  refine quietWp_call fun _ => ?_
  simp only [Op.effect, World.idempotencySetNx_of_none hfree, if_true]
  rw [wp_tryCatch]
  unfold validateAndPublish
  rw [wp_bind]
  -- the key that is now held is no part of what the menus are read from
  refine wp_mono _ _ ?_ ?_ (quietWp_validateAndEnrichItems cmd)
  · rintro ⟨amount, items⟩ w₁ ⟨hvalidated, hunsent⟩
    exact wp_mono _ _ (fun r w' h => ⟨amount, items, hvalidated, h⟩) (fun _ _ h => h.elim)
      (quietWp_publish (show Unsent w w₁ from hunsent))
  · rintro err w₁ ⟨hvalidated, hunsent⟩
    exact wp_mono _ _ (fun _ _ h => h.elim) (fun e w' h => ⟨err, hvalidated, h⟩)
      (quietWp_abandon (show Unsent w w₁ from hunsent) err)

/-- **A validated request is accepted**, published and announced. -/
theorem run_execute_of_ok (ctx : ApiContext) (hquiet : Quiet choices)
    (hfree : w.idempotency (IdempotencyService.pendingKey cmd.idempotencyKey) = none)
    (hvalidated : menusFor w cmd >>= validateItems cmd = .ok (calculatedAmount, enrichedItems)) :
    (run Op.exec choices (execute cmd ctx) 0 w).1 = .ok (result ctx) ∧
      Sent cmd ctx calculatedAmount enrichedItems w (run Op.exec choices (execute cmd ctx) 0 w).2 := by
  have hrun := wp_run Op.exec choices (fun n _ => hquiet n) (n := 0) (quietWp_execute ctx hfree)
  rcases hend : run Op.exec choices (execute cmd ctx) 0 w with ⟨r | r, w'⟩
  · rw [hend] at hrun
    obtain ⟨err, herror, -⟩ := hrun
    rw [hvalidated] at herror
    cases herror
  · rw [hend] at hrun
    obtain ⟨amount, items, hok, rfl, hsent⟩ := hrun
    rw [hvalidated] at hok
    cases hok
    exact ⟨rfl, hsent⟩

/-- **One that is not is rejected**, and sends nothing. -/
theorem run_execute_of_error (ctx : ApiContext) (hquiet : Quiet choices)
    (hfree : w.idempotency (IdempotencyService.pendingKey cmd.idempotencyKey) = none)
    {err : OrderError} (hinvalid : menusFor w cmd >>= validateItems cmd = .error err) :
    (run Op.exec choices (execute cmd ctx) 0 w).1 = .error (rejection err) ∧
      Unsent w (run Op.exec choices (execute cmd ctx) 0 w).2 := by
  have hrun := wp_run Op.exec choices (fun n _ => hquiet n) (n := 0) (quietWp_execute ctx hfree)
  rcases hend : run Op.exec choices (execute cmd ctx) 0 w with ⟨r | r, w'⟩
  · rw [hend] at hrun
    obtain ⟨err', herror, rfl, hunsent⟩ := hrun
    rw [hinvalid] at herror
    cases herror
    exact ⟨rfl, hunsent⟩
  · rw [hend] at hrun
    obtain ⟨amount, items, hok, -⟩ := hrun
    rw [hinvalid] at hok
    cases hok

/-- What a request is answered whose key is held: the stored response, that it is in progress, or
that the value cannot be read. -/
def heldReply (cmd : CreateOrderCommand) (w : World) : Except OrderError CreateOrderResult :=
  match w.idempotency (IdempotencyService.responseKey cmd.idempotencyKey) with
  | some (.response result) => .ok { result with replayed := true }
  | some (.orderId _) => .error (.other "Unexpected token in JSON")
  | none => .error inProgress

/-- **A request whose key is held changes nothing**: it reads one key and answers. -/
theorem run_execute_of_held (ctx : ApiContext) (hquiet : Quiet choices)
    (hheld : w.idempotency (IdempotencyService.pendingKey cmd.idempotencyKey) ≠ none) :
    run Op.exec choices (execute cmd ctx) 0 w = (heldReply cmd w, w) := by
  have hget : Op.exec (.idempotencyGet (IdempotencyService.responseKey cmd.idempotencyKey))
      (choices 1) w =
        (.ok (w.idempotency (IdempotencyService.responseKey cmd.idempotencyKey)), w) := by
    rw [Op.exec_undisturbed (hquiet 1)]
    rfl
  unfold execute IdempotencyService.tryAcquire
  rw [run_bind_of_ok Op.exec false _ (Op.exec_setNx_of_ne_none (hquiet 0) hheld ctx.orderId),
    if_neg (by decide)]
  unfold replay IdempotencyService.getCachedResponse heldReply
  rw [bind_assoc, run_bind_of_ok Op.exec _ _ hget]
  cases w.idempotency (IdempotencyService.responseKey cmd.idempotencyKey) with
  | none => rfl
  | some value =>
      cases value with
      | orderId id => rfl
      | response result => rfl

end Execute

end CreateOrderService

end ChickenOrder
