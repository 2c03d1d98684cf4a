import ChickenOrder.Interaction.Noninterference
import ChickenOrder.Services.Infrastructure
import ChickenOrder.Services.OrderApi

/-!
# Idempotency keys that interfere

`IdempotencyService` keeps two Redis keys for an idempotency key: `idempotency:${key}` and
`idempotency:${key}:response`.  Each of its methods is one command on one of them, that is an
operation on one cell (`run_program`).  `keysIndependent_iff` says for which two idempotency
keys the calls on the one leave the results of the calls on the other alone: for those whose
four Redis keys are different.

The two directions are quite different.  Keys that are apart unwind, and noninterference follows
for every sequence of calls; for keys that meet two calls are enough, one on each key.
-/

namespace ChickenOrder

open Interaction Interaction.Program IdempotencyService

/-- A call of the service for some idempotency key.  Each of the four methods sends one command. -/
inductive KeyCall
  | tryAcquire (orderId : Uuid)
  | release
  | setCompleted (response : CreateOrderResult)
  | getCachedResponse

/-- What such a call answers. -/
inductive KeyAnswer
  | acquired (isNew : Bool)
  | done
  | cached (response : Option CreateOrderResult)
  deriving DecidableEq

namespace KeyCall

/-- The method on a key, with its answer.  Each is a single Redis command and what the service makes
of its reply. -/
def program (key : String) : KeyCall → Service KeyAnswer
  | .tryAcquire orderId => do
      let isNew ← IdempotencyService.tryAcquire key orderId
      return .acquired isNew
  | .release => do
      IdempotencyService.release key
      return .done
  | .setCompleted response => do
      IdempotencyService.setCompleted key response
      return .done
  | .getCachedResponse => do
      let response ← IdempotencyService.getCachedResponse key
      return .cached response

/-- The Redis key of its command. -/
def redisKey (key : String) : KeyCall → String
  | .tryAcquire _ => pendingKey key
  | .release => pendingKey key
  | .setCompleted _ => responseKey key
  | .getCachedResponse => responseKey key

/-- The command, on the cell of that Redis key.  An order id that is read as a response is no JSON,
and `JSON.parse` throws. -/
def onCell : KeyCall → Option IdempotencyValue → Except OrderError KeyAnswer × Option IdempotencyValue
  | .tryAcquire orderId, none => (.ok (.acquired true), some (.orderId orderId))
  | .tryAcquire _, some value => (.ok (.acquired false), some value)
  | .release, _ => (.ok .done, none)
  | .setCompleted response, _ => (.ok .done, some (.response response))
  | .getCachedResponse, none => (.ok (.cached none), none)
  | .getCachedResponse, some (.response result) =>
      (.ok (.cached (some result)), some (.response result))
  | .getCachedResponse, some (.orderId id) =>
      (.error (.other "Unexpected token in JSON"), some (.orderId id))

/-- The world with another value in one cell. -/
def setCell (w : World) (redisKey : String) (cell : Option IdempotencyValue) : World :=
  { w with idempotency := Function.update w.idempotency redisKey cell }

@[simp] theorem setCell_self (w : World) (redisKey : String) :
    setCell w redisKey (w.idempotency redisKey) = w := by
  simp [setCell]

/-- One command, and what is made of its reply. -/
theorem run_command {o : Op} {f : Op.Reply o → Service KeyAnswer}
    (answer : Op.Reply o → Except OrderError KeyAnswer) (hlocal : o.isLocal = false)
    (hf : ∀ reply choices n w, run Op.exec choices (f reply) n w = (answer reply, w))
    (c : Choice) (w : World) :
    run Op.exec (fun _ => c) (Op.call o >>= f) 0 w =
      c.fault.apply OrderError.other w ((o.effect c w).1 >>= answer, (o.effect c w).2) := by
  have hexec : o.exec c w = c.fault.apply OrderError.other w (o.effect c w) := by
    unfold Op.exec
    rw [hlocal]
    rfl
  cases hfault : c.fault with
  | none =>
      rw [hfault] at hexec
      rcases heffect : o.effect c w with ⟨reply | reply, w'⟩
      · exact run_bind_of_error Op.exec (hexec.trans heffect)
      · exact (run_bind_of_ok Op.exec reply w' (hexec.trans heffect)).trans (hf reply _ _ w')
  | rejected reason =>
      rw [hfault] at hexec
      exact run_bind_of_error Op.exec hexec
  | unacknowledged reason =>
      rw [hfault] at hexec
      exact run_bind_of_error Op.exec hexec

/-- **A call is an operation on one cell**: what it answers depends on the value under its Redis
key, and that value is all it may change. -/
theorem run_program (call : KeyCall) (key : String) (c : Choice) (w : World) :
    run Op.exec (fun _ => c) (call.program key) 0 w =
      c.fault.apply OrderError.other w
        ((call.onCell (w.idempotency (call.redisKey key))).1,
          setCell w (call.redisKey key) (call.onCell (w.idempotency (call.redisKey key))).2) := by
  cases call with
  -- a held key keeps its value, a free one gets the order id
  | tryAcquire orderId =>
      refine (run_command (fun isNew => .ok (.acquired isNew)) rfl (fun _ _ _ _ => rfl) c w).trans ?_
      congr 1
      show (Except.ok (KeyAnswer.acquired (w.idempotencySetNx (pendingKey key) orderId).1),
        (w.idempotencySetNx (pendingKey key) orderId).2) = _
      cases hcell : w.idempotency (pendingKey key) with
      | none =>
          rw [World.idempotencySetNx_of_none hcell, redisKey, hcell]
          rfl
      | some value =>
          rw [World.idempotencySetNx_of_ne_none (by simp [hcell]), redisKey, hcell, onCell, ← hcell,
            setCell_self]
  | release => exact run_command (fun _ => .ok .done) rfl (fun _ _ _ _ => rfl) c w
  | setCompleted response => exact run_command (fun _ => .ok .done) rfl (fun _ _ _ _ => rfl) c w
  -- a value that is no response reads as none, and the cell stays
  | getCachedResponse =>
      unfold program IdempotencyService.getCachedResponse
      rw [bind_assoc]
      refine (run_command (o := .idempotencyGet (responseKey key))
        (fun raw => (onCell .getCachedResponse raw).1) rfl ?_ c w).trans ?_
      · intro raw choices n w
        rcases raw with - | value
        · rfl
        · cases value <;> rfl
      · congr 1
        have hsame : ∀ cell, (onCell .getCachedResponse cell).2 = cell := by
          intro cell
          rcases cell with - | value
          · rfl
          · cases value <;> rfl
        rw [hsame, setCell_self]
        rfl

end KeyCall

/-! ## Sequences of calls for two keys -/

/-- A call for one of the keys `k₁` and `k₂`, and what the environment decides for its command;
or some Redis key expires. -/
inductive KeyStep (k₁ k₂ : String)
  | onFirst (method : KeyCall) (c : Choice)
  | onSecond (method : KeyCall) (c : Choice)
  | expire (redisKey : String)

namespace KeyStep

variable {k₁ k₂ : String}

/-- One step: a method runs to its end on one of the two keys, or a Redis key expires. -/
def exec : KeyStep k₁ k₂ → World → Except OrderError KeyAnswer × World
  | .onFirst method c, w => run Op.exec (fun _ => c) (method.program k₁) 0 w
  | .onSecond method c, w => run Op.exec (fun _ => c) (method.program k₂) 0 w
  | .expire redisKey, w => (.ok .done, (Expiry.idempotency redisKey).apply w)

/-- Everything but the calls for the first key. -/
def notOnFirst : KeyStep k₁ k₂ → Bool
  | .onFirst _ _ => false
  | _ => true

end KeyStep

/-- In every interleaving of calls for the two keys, the answers to the calls for `k₂` are those
they have without the calls for `k₁`. -/
def KeysIndependent (k₁ k₂ : String) : Prop :=
  ∀ (steps : List (KeyStep k₁ k₂)) (w : World),
    observe KeyStep.exec (fun step _ => step.notOnFirst) steps w =
      observe KeyStep.exec (fun step _ => step.notOnFirst)
        (steps.filter KeyStep.notOnFirst) w

section Independence

variable {k₁ k₂ : String}

/-- The four Redis keys of two idempotency keys are different.  The pending keys are the idempotency
keys themselves behind a prefix, so this is a matter of how the response keys are spelled. -/
structure KeysApart (k₁ k₂ : String) : Prop where
  pending : pendingKey k₁ ≠ pendingKey k₂
  response : responseKey k₁ ≠ responseKey k₂
  pendingResponse : pendingKey k₁ ≠ responseKey k₂
  responsePending : responseKey k₁ ≠ pendingKey k₂

/-- No command on the one meets a command on the other. -/
theorem KeysApart.redisKey_ne (h : KeysApart k₁ k₂) (call call' : KeyCall) :
    call.redisKey k₁ ≠ call'.redisKey k₂ := by
  have hpending := h.pending
  have hresponse := h.response
  have hpendingResponse := h.pendingResponse
  have hresponsePending := h.responsePending
  cases call <;> cases call' <;> assumption

/-- Two worlds have the same values under the Redis keys of `key`.  This is the relation that
unwinds. -/
def SameCells (key : String) (w w' : World) : Prop :=
  ∀ call : KeyCall, w.idempotency (call.redisKey key) = w'.idempotency (call.redisKey key)

/-- A call for another key leaves the cells of this one.  Its single command is on a Redis key of
its own. -/
theorem sameCells_of_first (h : KeysApart k₁ k₂) (call : KeyCall) (c : Choice) {w w' : World}
    (hw : SameCells k₂ w w') :
    SameCells k₂ (KeyStep.exec (.onFirst call c : KeyStep k₁ k₂) w).2 w' := by
  rw [KeyStep.exec, KeyCall.run_program]
  refine Fault.apply_invariant (I := fun v => SameCells k₂ v w') hw fun call' => ?_
  show Function.update w.idempotency _ _ _ = _
  rw [Function.update_of_ne (h.redisKey_ne call call').symm]
  exact hw call'

/-- A call sees only the cells of its key. -/
theorem exec_second_of_sameCells (call : KeyCall) (c : Choice) {w w' : World}
    (hw : SameCells k₂ w w') :
    (KeyStep.exec (.onSecond call c : KeyStep k₁ k₂) w).1 =
        (KeyStep.exec (.onSecond call c : KeyStep k₁ k₂) w').1 ∧
      SameCells k₂ (KeyStep.exec (.onSecond call c : KeyStep k₁ k₂) w).2
        (KeyStep.exec (.onSecond call c : KeyStep k₁ k₂) w').2 := by
  have hcell := hw call
  have hset : ∀ cell, SameCells k₂ (KeyCall.setCell w (call.redisKey k₂) cell)
      (KeyCall.setCell w' (call.redisKey k₂) cell) := by
    intro cell call'
    simp only [KeyCall.setCell, Function.update_apply, hw call']
  rw [KeyStep.exec, KeyStep.exec, KeyCall.run_program, KeyCall.run_program, hcell]
  cases c.fault with
  | none => exact ⟨rfl, hset _⟩
  | rejected reason => exact ⟨rfl, hw⟩
  | unacknowledged reason => exact ⟨rfl, hset _⟩

/-- Keys that are apart unwind: what is done on the first leaves the cells of the second, and what
is done on the second depends on those only. -/
theorem unwinding_of_keysApart (h : KeysApart k₁ k₂) :
    Unwinding (@KeyStep.exec k₁ k₂) (fun step _ => step.notOnFirst)
      (SameCells k₂) where
  seen _ := rfl
  hidden {step w w'} hhidden hw := by
    cases step with
    | onFirst call c => exact sameCells_of_first h call c hw
    | onSecond call c => cases hhidden
    | expire redisKey => cases hhidden
  output {step w w'} hvisible hw := by
    cases step with
    | onFirst call c => cases hvisible
    | onSecond call c => exact (exec_second_of_sameCells call c hw).1
    | expire redisKey => rfl
  kept {step w w'} hvisible hw := by
    cases step with
    | onFirst call c => cases hvisible
    | onSecond call c => exact (exec_second_of_sameCells call c hw).2
    | expire redisKey =>
        intro call
        show Function.update w.idempotency _ _ _ = Function.update w'.idempotency _ _ _
        simp only [Function.update_apply, hw call]

/-- Keys that are apart are independent, by the general theorem: each call touches cells of its own
key only, and reads no others. -/
theorem keysIndependent_of_keysApart (h : KeysApart k₁ k₂) : KeysIndependent k₁ k₂ := by
  intro steps w
  rw [(unwinding_of_keysApart h).observe_purge steps (fun _ => rfl : SameCells k₂ w w),
    purge_eq_filter]

/-! ### Keys that meet -/

/-- A response under the first key takes the second: to acquire that one finds a value in place. -/
theorem not_keysIndependent_of_response (h : responseKey k₁ = pendingKey k₂) :
    ¬ KeysIndependent k₁ k₂ := by
  intro hindependent
  have hanswers : observe KeyStep.exec _ _ _ =
      observe KeyStep.exec _ [.onSecond (.tryAcquire ⟨0⟩) (.undisturbed 0)] _ :=
    hindependent [.onFirst (.setCompleted ⟨⟨0⟩, "", false⟩) (.undisturbed 0),
      .onSecond (.tryAcquire ⟨0⟩) (.undisturbed 0)] (World.init .seed)
  simp [observe, KeyStep.notOnFirst, KeyStep.exec, KeyCall.run_program, KeyCall.redisKey,
    KeyCall.setCell, KeyCall.onCell, Choice.undisturbed, World.init, h] at hanswers

/-- An order id under the first key is no response of the second: to read it as one throws. -/
theorem not_keysIndependent_of_pending (h : pendingKey k₁ = responseKey k₂) :
    ¬ KeysIndependent k₁ k₂ := by
  intro hindependent
  have hanswers : observe KeyStep.exec _ _ _ =
      observe KeyStep.exec _ [.onSecond .getCachedResponse (.undisturbed 0)] _ :=
    hindependent [.onFirst (.tryAcquire ⟨0⟩) (.undisturbed 0),
      .onSecond .getCachedResponse (.undisturbed 0)] (World.init .seed)
  simp [observe, KeyStep.notOnFirst, KeyStep.exec, KeyCall.run_program, KeyCall.redisKey,
    KeyCall.setCell, KeyCall.onCell, Choice.undisturbed, World.init, h] at hanswers

end Independence

/-- The suffix that `responseKey` appends, read as part of a key. -/
theorem responseKey_eq_pendingKey_iff {key key' : String} :
    responseKey key = pendingKey key' ↔ key' = key ++ ":response" := by
  unfold responseKey pendingKey
  rw [String.append_assoc]
  constructor
  · intro h
    simpa using h.symm
  · rintro rfl
    rfl

/-- **Which keys interfere**: two different keys, exactly if one is the other with `:response`
behind it. -/
theorem keysIndependent_iff {k₁ k₂ : String} (hne : k₁ ≠ k₂) :
    KeysIndependent k₁ k₂ ↔ k₁ ≠ k₂ ++ ":response" ∧ k₂ ≠ k₁ ++ ":response" := by
  constructor
  · intro h
    constructor
    · intro hsuffix
      exact not_keysIndependent_of_pending (responseKey_eq_pendingKey_iff.mpr hsuffix).symm h
    · intro hsuffix
      exact not_keysIndependent_of_response (responseKey_eq_pendingKey_iff.mpr hsuffix) h
  · rintro ⟨hfirst, hsecond⟩
    refine keysIndependent_of_keysApart ⟨?_, ?_, ?_, ?_⟩
    · intro heq
      exact hne (by simpa [pendingKey] using heq)
    · intro heq
      exact hne (responseKey_injective heq)
    · intro heq
      exact hfirst (responseKey_eq_pendingKey_iff.mp heq.symm)
    · intro heq
      exact hsecond (responseKey_eq_pendingKey_iff.mp heq)

theorem keysIndependent_iff_distinct :
    KeysIndependent "key-1" "key-2" ↔
      "key-1" ≠ "key-2" ++ ":response" ∧ "key-2" ≠ "key-1" ++ ":response" :=
  keysIndependent_iff (by decide)

/-- The answer to `order-7` is cached where `order-7:response` is to be acquired, and so a first
order with that key is taken for a duplicate. -/
theorem not_keysIndependent_of_suffix :
    ¬ ∀ k₁ k₂ : String, k₁ ≠ k₂ →
      (1 ≤ validatorLength k₁ ∧ validatorLength k₁ ≤ 255) →
      (1 ≤ validatorLength k₂ ∧ validatorLength k₂ ≤ 255) → KeysIndependent k₁ k₂ := by
  intro h
  have hmeet : responseKey "order-7" = pendingKey "order-7:response" := by decide
  exact not_keysIndependent_of_response hmeet (h _ _ (by decide) (by decide) (by decide))

end ChickenOrder
