import ChickenOrder.Interaction.CircuitBreaker
import ChickenOrder.Interaction.Noninterference
import ChickenOrder.Services.Infrastructure

/-!
# The registry of circuit breakers

`PosCircuitBreakerService` keeps one policy for each store, created when the store is first
called, and any number of calls of `execute` run at a time.  The registry holds references: a
call goes on with the policy object it was given at its start, whose listeners close over the
store it was created for.  `tick` is what one call does next.

`StoreCircuit` is one store with a breaker of its own and no registry at all.
`view_tick_self` says that each store, seen alone, is such a machine.  A call of the machine
and a run of the service method `execute` whose attempts end alike have the same result
(`run_execute_of_follows`).
-/

namespace ChickenOrder

open Interaction

namespace PosCircuitBreakerService

/-- An attempt of a store's call: the number of the call and the retries left. -/
abbrev AttemptId := ℕ × ℕ

/-- `maxAttempts`: the number of retries after the first attempt. -/
def maxAttempts : ℕ := 3

/-- The policy object `combined`, for the store its listeners close over.  It holds the breaker. -/
structure CombinedPolicy where
  storeId : String
  breaker : CircuitBreaker AttemptId
  deriving DecidableEq

/-- What the listeners write to the field `state`. -/
inductive RecordedState
  | OPEN
  | CLOSED
  deriving DecidableEq

/-- What the listener of the event writes to Redis.  There is none for a breaker that is half open.
-/
def BreakerEvent.recorded : BreakerEvent → RecordedState
  | .broke => .OPEN
  | .reset => .CLOSED

/-- The Redis key of a store's last recorded state.  Only the administrator's pages read it. -/
def statusKey (storeId : String) : String := "cb:store:" ++ storeId

/-- A call of `execute`: the store it is for, and which of the store's calls it is. -/
structure CallId where
  storeId : String
  number : ℕ
  deriving DecidableEq

variable {α : Type}

/-- A call in progress holds a reference to its policy, which it got when it started. -/
structure ExecuteCall (α : Type) where
  policy : ℕ
  progress : RetriedCall AttemptId OrderError α

/-- The service: its registry of references, the policy objects they refer to, the hashes in
Redis and the calls that have been made. -/
structure Registry (α : Type) where
  registry : String → Option ℕ
  policies : List CombinedPolicy
  redis : String → Option RecordedState
  calls : CallId → Option (ExecuteCall α)

/-- The current attempt is an invocation that tests the breaker, with these retries left. -/
def isTesting (left : ℕ) (progress : RetriedCall AttemptId OrderError α) : Bool :=
  match progress.phase with
  | .invoking current true => current == left
  | _ => false

namespace Registry

/-- The service as it is constructed, with what Redis has from before. -/
def start (redis : String → Option RecordedState) : Registry α :=
  ⟨fun _ => none, [], redis, fun _ => none⟩

/-- What Redis has for a store.  The breaker itself is not asked. -/
def getStatus (storeId : String) (s : Registry α) : Option RecordedState :=
  s.redis (statusKey storeId)

/-- A policy object is only created for a store that has none.  It is put at the end of the heap. -/
def getOrCreate (storeId : String) (s : Registry α) : ℕ × Registry α :=
  match s.registry storeId with
  | some policy => (policy, s)
  | none =>
      (s.policies.length, { s with
        registry := Function.update s.registry storeId (some s.policies.length)
        policies := s.policies ++ [⟨storeId, .initial⟩] })

/-- The store's test has not ended: a half open breaker waits for it. -/
def inFlight (storeId : String) (s : Registry α) (test : AttemptId) : Bool :=
  ((s.calls ⟨storeId, test.1⟩).map ExecuteCall.progress).any (isTesting test.2)

/-- A step of a call against its policy object. -/
def stepWith (id : CallId) (policy : ℕ)
    (f : CircuitBreaker AttemptId →
      RetriedCall AttemptId OrderError α × CircuitBreaker AttemptId × Option BreakerEvent)
    (s : Registry α) : Registry α :=
  match s.policies[policy]? with
  | none => s
  | some ⟨storeId, breaker⟩ =>
      { s with
        policies := s.policies.set policy ⟨storeId, (f breaker).2.1⟩
        redis := match (f breaker).2.2 with
          | none => s.redis
          | some event =>
              Function.update s.redis (statusKey storeId) (some (BreakerEvent.recorded event))
        calls := Function.update s.calls id (some ⟨policy, (f breaker).1⟩) }

end Registry

/-- What one call does: it starts, which takes it to its first attempt, or it goes on, with the
outcome of its invocation if it is one that ends. -/
inductive Action (α : Type)
  | execute (id : CallId) (now : ℕ)
  | proceed (id : CallId) (now : ℕ) (outcome : Except OrderError α)

/-- The call that the action is of. -/
def Action.id : Action α → CallId
  | .execute id _ => id
  | .proceed id _ _ => id

section Tick

variable (options : BreakerOptions)

/-- The first attempt, and no event. -/
def begin (number now : ℕ) (breaker : CircuitBreaker AttemptId) :
    RetriedCall AttemptId OrderError α × CircuitBreaker AttemptId × Option BreakerEvent :=
  let first := RetriedCall.attempt options .brokenCircuit (number, maxAttempts) now maxAttempts []
    breaker
  (first.1, first.2, none)

/-- One action, and what is then known of its call.  Actions of calls that do not exist, or that
exist already, do nothing. -/
def tick : Action α → Registry α → Option (RetriedCall AttemptId OrderError α) × Registry α
  | .execute id now, s =>
      let s' := match s.calls id with
        | some _ => s
        | none =>
            let (policy, s') := s.getOrCreate id.storeId
            s'.stepWith id policy (begin options id.number now)
      ((s'.calls id).map ExecuteCall.progress, s')
  | .proceed id now outcome, s =>
      let s' := match s.calls id with
        | none => s
        | some call => s.stepWith id call.policy
            (call.progress.resume options .brokenCircuit (fun left => (id.number, left))
              (s.inFlight id.storeId) now outcome)
      ((s'.calls id).map ExecuteCall.progress, s')

end Tick

/-- What `execute` makes of the end of its policy: a broken circuit gets an error of its own. -/
def answer (storeId : String) : Except OrderError α → Except OrderError α
  | .ok a => .ok a
  | .error err => .error (if err.isBrokenCircuitError then .circuitBreakerOpen storeId else err)

/-- What a call of `execute` comes to: how often `fn` has been invoked, and what is returned or
thrown once it is over. -/
structure CallReport (α : Type) where
  invocations : ℕ
  result : Option (Except OrderError α)

/-- How often the adapter has been called so far and, once the call is over, its result. -/
def report (storeId : String) (progress : RetriedCall AttemptId OrderError α) : CallReport α :=
  ⟨progress.invocations, progress.phase.result.map (answer storeId)⟩

/-! ## One store alone -/

/-- A store with a breaker of its own.  There is no registry, no heap and no other store in it. -/
@[ext]
structure StoreCircuit (α : Type) where
  breaker : Option (CircuitBreaker AttemptId)
  status : Option RecordedState
  calls : ℕ → Option (RetriedCall AttemptId OrderError α)

namespace StoreCircuit

/-- The attempt is one that a half open breaker is testing with. -/
def inFlight (c : StoreCircuit α) (test : AttemptId) : Bool :=
  (c.calls test.1).any (isTesting test.2)

/-- One move of a call: the breaker moves with it, what the breaker emits is recorded, and the call
stands where it now is. -/
def stepWith (number : ℕ) (breaker : CircuitBreaker AttemptId)
    (f : CircuitBreaker AttemptId →
      RetriedCall AttemptId OrderError α × CircuitBreaker AttemptId × Option BreakerEvent)
    (c : StoreCircuit α) : StoreCircuit α where
  breaker := some (f breaker).2.1
  status := ((f breaker).2.2.map BreakerEvent.recorded).or c.status
  calls := Function.update c.calls number (some (f breaker).1)

/-- A store's circuit on its own.  A call of a number that is in use does nothing, nor does an
outcome for a call that is not there. -/
def step (options : BreakerOptions) : Action α → StoreCircuit α → StoreCircuit α
  | .execute id now, c =>
      match c.calls id.number with
      | some _ => c
      | none => c.stepWith id.number (c.breaker.getD .initial) (begin options id.number now)
  | .proceed id now outcome, c =>
      match c.calls id.number, c.breaker with
      | some call, some breaker => c.stepWith id.number breaker
          (call.resume options .brokenCircuit (fun left => (id.number, left)) c.inFlight now outcome)
      | _, _ => c

end StoreCircuit

namespace Registry

/-- What there is of a store in the service: its breaker, its status and its calls. -/
def view (storeId : String) (s : Registry α) : StoreCircuit α where
  breaker := ((s.registry storeId).bind fun policy => s.policies[policy]?).map CombinedPolicy.breaker
  status := s.redis (statusKey storeId)
  calls number := (s.calls ⟨storeId, number⟩).map ExecuteCall.progress

/-- References are to policy objects of the store they are registered for, and calls hold the
reference of their store. -/
structure WellFormed (s : Registry α) : Prop where
  registered : ∀ {storeId policy}, s.registry storeId = some policy →
    ∃ breaker, s.policies[policy]? = some ⟨storeId, breaker⟩
  called : ∀ {id call}, s.calls id = some call → s.registry id.storeId = some call.policy

/-- The registry of a new process is well formed. -/
theorem wellFormed_start (redis : String → Option RecordedState) :
    (start redis : Registry α).WellFormed := ⟨nofun, nofun⟩

section Create

variable (storeId : String) {s : Registry α}

/-- The reference is the registered one from now on, to a policy object of the store, which is
closed if it is new. -/
theorem getOrCreate_spec (h : s.WellFormed) :
    (s.getOrCreate storeId).2.registry storeId = some (s.getOrCreate storeId).1 ∧
      (s.getOrCreate storeId).2.policies[(s.getOrCreate storeId).1]? =
        some ⟨storeId, (s.view storeId).breaker.getD .initial⟩ := by
  unfold getOrCreate view
  cases hregistry : s.registry storeId with
  | some policy =>
      obtain ⟨breaker, hpolicy⟩ := h.registered hregistry
      simp [hregistry, hpolicy]
  | none => simp

/-- It is created for one store, at the end of the heap. -/
theorem wellFormed_getOrCreate (h : s.WellFormed) : (s.getOrCreate storeId).2.WellFormed := by
  unfold getOrCreate
  cases hregistry : s.registry storeId with
  | some policy => exact h
  | none =>
      constructor
      · intro storeId' policy hpolicy
        change Function.update s.registry storeId _ storeId' = some policy at hpolicy
        by_cases hstore : storeId' = storeId
        · subst hstore
          rw [Function.update_self] at hpolicy
          cases hpolicy
          exact ⟨.initial, List.getElem?_concat_length⟩
        · rw [Function.update_of_ne hstore] at hpolicy
          obtain ⟨breaker, hbreaker⟩ := h.registered hpolicy
          obtain ⟨hlt, -⟩ := List.getElem?_eq_some_iff.mp hbreaker
          exact ⟨breaker, (List.getElem?_append_left hlt).trans hbreaker⟩
      · intro id call hcall
        have hne : id.storeId ≠ storeId := by
          intro hstore
          have hregistered := h.called hcall
          rw [hstore, hregistry] at hregistered
          cases hregistered
        exact (Function.update_of_ne hne _ _).trans (h.called hcall)

end Create

variable {s : Registry α}

/-- Another store sees nothing of a creation. -/
theorem view_getOrCreate_of_ne (h : s.WellFormed) {storeId storeId' : String}
    (hne : storeId' ≠ storeId) : (s.getOrCreate storeId).2.view storeId' = s.view storeId' := by
  unfold getOrCreate
  cases hregistry : s.registry storeId with
  | some policy => rfl
  | none =>
      refine StoreCircuit.ext ?_ rfl rfl
      show ((Function.update s.registry storeId _ storeId').bind fun policy =>
        (s.policies ++ [_])[policy]?).map _ = ((s.registry storeId').bind _).map _
      rw [Function.update_of_ne hne]
      cases hother : s.registry storeId' with
      | none => rfl
      | some policy =>
          obtain ⟨breaker, hbreaker⟩ := h.registered hother
          obtain ⟨hlt, -⟩ := List.getElem?_eq_some_iff.mp hbreaker
          exact congrArg (Option.map _) (List.getElem?_append_left hlt)

theorem calls_view_getOrCreate (storeId storeId' : String) :
    ((s.getOrCreate storeId).2.view storeId').calls = (s.view storeId').calls := by
  unfold getOrCreate
  split <;> rfl

theorem status_view_getOrCreate (storeId storeId' : String) :
    ((s.getOrCreate storeId).2.view storeId').status = (s.view storeId').status := by
  unfold getOrCreate
  split <;> rfl

section Step

variable {id : CallId} {policy : ℕ} {breaker : CircuitBreaker AttemptId}
  {f : CircuitBreaker AttemptId →
    RetriedCall AttemptId OrderError α × CircuitBreaker AttemptId × Option BreakerEvent}

/-- A move of a call keeps the registry well formed. -/
theorem wellFormed_stepWith (h : s.WellFormed) (hregistry : s.registry id.storeId = some policy)
    (hpolicy : s.policies[policy]? = some ⟨id.storeId, breaker⟩) :
    (s.stepWith id policy f).WellFormed := by
  simp only [stepWith, hpolicy]
  constructor
  · intro storeId' policy' hpolicy'
    obtain ⟨breaker', hbreaker'⟩ := h.registered hpolicy'
    by_cases heq : policy = policy'
    · subst heq
      rw [hpolicy] at hbreaker'
      cases hbreaker'
      obtain ⟨hlt, -⟩ := List.getElem?_eq_some_iff.mp hpolicy
      exact ⟨_, List.getElem?_set_self hlt⟩
    · exact ⟨breaker', (List.getElem?_set_ne heq).trans hbreaker'⟩
  · intro id' call hcall
    change Function.update s.calls id _ id' = some call at hcall
    by_cases hid : id' = id
    · subst hid
      rw [Function.update_self] at hcall
      cases hcall
      exact hregistry
    · rw [Function.update_of_ne hid] at hcall
      exact h.called hcall

/-- A step on a policy object is a step of its store.  The listener writes to the key of the same
store. -/
theorem view_stepWith_self (hregistry : s.registry id.storeId = some policy)
    (hpolicy : s.policies[policy]? = some ⟨id.storeId, breaker⟩) :
    (s.stepWith id policy f).view id.storeId =
      (s.view id.storeId).stepWith id.number breaker f := by
  obtain ⟨hlt, -⟩ := List.getElem?_eq_some_iff.mp hpolicy
  simp only [stepWith, hpolicy]
  refine StoreCircuit.ext ?_ ?_ ?_
  · show ((s.registry id.storeId).bind fun policy' => (s.policies.set policy _)[policy']?).map _ = _
    rw [hregistry, Option.bind_some, List.getElem?_set_self hlt]
    rfl
  · unfold view StoreCircuit.stepWith
    cases (f breaker).2.2 with
    | none => rfl
    | some event => exact Function.update_self ..
  · funext number
    show Option.map _ (Function.update s.calls id _ ⟨id.storeId, number⟩) =
      Function.update (fun number => Option.map _ (s.calls ⟨id.storeId, number⟩)) id.number _ number
    by_cases hnumber : number = id.number
    · subst hnumber
      rw [Function.update_self, Function.update_self]
      rfl
    · rw [Function.update_of_ne hnumber, Function.update_of_ne]
      exact fun hid => hnumber (congrArg CallId.number hid)

/-- **Separately created policies share no state.** It is not one of another store, whose reference
leads elsewhere. -/
theorem view_stepWith_of_ne (h : s.WellFormed)
    (hpolicy : s.policies[policy]? = some ⟨id.storeId, breaker⟩) {storeId' : String}
    (hne : storeId' ≠ id.storeId) : (s.stepWith id policy f).view storeId' = s.view storeId' := by
  simp only [stepWith, hpolicy]
  refine StoreCircuit.ext ?_ ?_ ?_
  · show ((s.registry storeId').bind fun policy' => (s.policies.set policy _)[policy']?).map _ =
      ((s.registry storeId').bind _).map _
    cases hother : s.registry storeId' with
    | none => rfl
    | some policy' =>
        obtain ⟨breaker', hbreaker'⟩ := h.registered hother
        -- The listeners of an object know its store, so one object is never two stores'.
        have hdistinct : policy ≠ policy' := by
          rintro rfl
          rw [hpolicy] at hbreaker'
          cases hbreaker'
          exact hne rfl
        exact congrArg (Option.map _) (List.getElem?_set_ne hdistinct)
  · unfold view
    cases (f breaker).2.2 with
    | none => rfl
    | some event =>
        refine Function.update_of_ne (fun hkey => hne ?_) _ _
        simpa [statusKey] using hkey
  · funext number
    exact congrArg (Option.map _) (Function.update_of_ne (fun hid =>
      hne (congrArg CallId.storeId hid)) _ _)

end Step

/-! ## The service is its stores -/

variable (options : BreakerOptions)

theorem wellFormed_tick (h : s.WellFormed) (a : Action α) : (tick options a s).2.WellFormed := by
  cases a with
  | execute id now =>
      cases hcall : s.calls id with
      | some call =>
          simp only [tick, hcall]
          exact h
      | none =>
          simp only [tick, hcall]
          obtain ⟨hregistry, hpolicy⟩ := getOrCreate_spec id.storeId h
          exact wellFormed_stepWith (wellFormed_getOrCreate id.storeId h) hregistry hpolicy
  | proceed id now outcome =>
      cases hcall : s.calls id with
      | none =>
          simp only [tick, hcall]
          exact h
      | some call =>
          simp only [tick, hcall]
          obtain ⟨breaker, hpolicy⟩ := h.registered (h.called hcall)
          exact wellFormed_stepWith h (h.called hcall) hpolicy

/-- Other stores are left alone: their policies are other objects, and their keys other keys. -/
theorem view_tick_of_ne (h : s.WellFormed) {a : Action α} {storeId : String}
    (hne : storeId ≠ a.id.storeId) : (tick options a s).2.view storeId = s.view storeId := by
  cases a with
  | execute id now =>
      cases hcall : s.calls id with
      | some call => simp only [tick, hcall]
      | none =>
          simp only [tick, hcall]
          obtain ⟨-, hpolicy⟩ := getOrCreate_spec id.storeId h
          exact (view_stepWith_of_ne (wellFormed_getOrCreate id.storeId h) hpolicy hne).trans
            (view_getOrCreate_of_ne h hne)
  | proceed id now outcome =>
      cases hcall : s.calls id with
      | none => simp only [tick, hcall]
      | some call =>
          simp only [tick, hcall]
          obtain ⟨breaker, hpolicy⟩ := h.registered (h.called hcall)
          exact view_stepWith_of_ne h hpolicy hne

/-- The store of the call takes a step of its own.  With `view_tick_of_ne` the service is the
product of its stores. -/
theorem view_tick_self (h : s.WellFormed) (a : Action α) :
    (tick options a s).2.view a.id.storeId = (s.view a.id.storeId).step options a := by
  cases a with
  | execute id now =>
      cases hcall : s.calls id with
      | some call => simp [tick, hcall, Action.id, StoreCircuit.step, view]
      | none =>
          obtain ⟨hregistry, hpolicy⟩ := getOrCreate_spec id.storeId h
          have hview : (s.view id.storeId).calls id.number = none := by simp [view, hcall]
          simp only [tick, hcall, StoreCircuit.step, Action.id, hview]
          rw [view_stepWith_self hregistry hpolicy]
          -- The creation is not seen, as the step writes the breaker.
          simp only [StoreCircuit.stepWith, status_view_getOrCreate, calls_view_getOrCreate]
  | proceed id now outcome =>
      cases hcall : s.calls id with
      | none => simp [tick, hcall, Action.id, StoreCircuit.step, view]
      | some call =>
          obtain ⟨breaker, hpolicy⟩ := h.registered (h.called hcall)
          have hview : (s.view id.storeId).calls id.number = some call.progress := by
            simp [view, hcall]
          have hbreaker : (s.view id.storeId).breaker = some breaker := by
            simp [view, h.called hcall, hpolicy]
          simp only [tick, hcall, StoreCircuit.step, Action.id, hview, hbreaker]
          exact view_stepWith_self (h.called hcall) hpolicy

/-- What is known of the call after an action. -/
theorem tick_output {options : BreakerOptions} (a : Action α) (s : Registry α) :
    (tick options a s).1 = ((tick options a s).2.view a.id.storeId).calls a.id.number := by
  cases a <;> rfl

end Registry

/-! ## Calls and runs of the method -/

section Method

variable {fn : Service α} {choices : ℕ → Choice} {storeId : String}

/-- From its `n`-th call on and from `w`, the environment lets the attempts of the method end
like this: the breaker is open, or `fn` has the outcome. -/
inductive Follows (fn : Service α) (choices : ℕ → Choice) :
    ℕ → World → List (Option (Except OrderError α)) → Prop
  | nil (n : ℕ) (w : World) : Follows fn choices n w []
  | rejected {n : ℕ} {w : World} {attempts : List (Option (Except OrderError α))}
      (hopen : (choices n).circuitOpen = true) (hrest : Follows fn choices (n + 1) w attempts) :
      Follows fn choices n w (none :: attempts)
  | invoked {n m : ℕ} {w w' : World} {outcome : Except OrderError α}
      {attempts : List (Option (Except OrderError α))}
      (hclosed : (choices n).circuitOpen = false)
      (hran : Program.ran Op.exec choices fn (n + 1) w = (outcome, m, w'))
      (hrest : Follows fn choices m w' attempts) :
      Follows fn choices n w (some outcome :: attempts)

/-- An open breaker ends the call before the wrapped one. -/
theorem ran_breaker_of_open {n : ℕ} (w : World) (hopen : (choices n).circuitOpen = true) :
    Program.ran Op.exec choices (breaker storeId fn) n w = (.error .brokenCircuit, n + 1, w) := by
  unfold breaker
  have hconsult : Program.ran Op.exec choices (Op.call (.consultBreaker storeId)) n w =
      (.ok true, n + 1, w) := by
    rw [Op.call, Program.ran_perform]
    exact congrArg (fun isOpen => (Except.ok isOpen, n + 1, w)) hopen
  exact (Program.ran_bind_of_ok hconsult).trans rfl

theorem ran_breaker_of_closed {n : ℕ} (w : World) (hclosed : (choices n).circuitOpen = false) :
    Program.ran Op.exec choices (breaker storeId fn) n w =
      Program.ran Op.exec choices fn (n + 1) w := by
  unfold breaker
  have hconsult : Program.ran Op.exec choices (Op.call (.consultBreaker storeId)) n w =
      (.ok false, n + 1, w) := by
    rw [Op.call, Program.ran_perform]
    exact congrArg (fun isOpen => (Except.ok isOpen, n + 1, w)) hclosed
  exact (Program.ran_bind_of_ok hconsult).trans rfl

/-- The retries of the method have the result of its attempts.  The proof is by induction on the
retries left. -/
theorem ran_retry_of_follows {n : ℕ} {w : World} {attempts : List (Option (Except OrderError α))}
    (h : Follows fn choices n w attempts) {left : ℕ} {result : Except OrderError α}
    (hresult : retried left (attempts.map (RetriedCall.outcomeOf .brokenCircuit)) = some result) :
    ∃ m w', Program.ran Op.exec choices (retry left (breaker storeId fn)) n w = (result, m, w') := by
  -- on the attempts, each of which is the breaker's answer to one consultation
  induction h generalizing left with
  | nil n w => simp [retried] at hresult
  | rejected hopen hrest ih =>
      rename_i n w attempts
      have hran : Program.ran Op.exec choices (breaker storeId fn) n w = _ :=
        ran_breaker_of_open w hopen
      cases left with
      -- the last attempt, whose error is the result
      | zero =>
          cases hresult
          exact ⟨_, _, hran⟩
      | succ left =>
          obtain ⟨m, w', hrest⟩ := ih hresult
          exact ⟨m, w', (Program.ran_tryCatch_of_error hran).trans hrest⟩
  | invoked hclosed hran hrest ih =>
      rename_i n m w w' outcome attempts
      have hran' : Program.ran Op.exec choices (breaker storeId fn) n w = _ :=
        (ran_breaker_of_closed w hclosed).trans hran
      cases outcome with
      | ok a =>
          simp only [List.map_cons, RetriedCall.outcomeOf, Option.getD_some, retried] at hresult
          cases hresult
          cases left with
          | zero => exact ⟨_, _, hran'⟩
          | succ left => exact ⟨_, _, Program.ran_tryCatch_of_ok hran'⟩
      | error e =>
          cases left with
          | zero =>
              cases hresult
              exact ⟨_, _, hran'⟩
          | succ left =>
              obtain ⟨m, w', hrest⟩ := ih hresult
              exact ⟨m, w', (Program.ran_tryCatch_of_error hran').trans hrest⟩

end Method

/-! ## The progress of a call -/

section Progress

variable {options : BreakerOptions}

/-- What an action can do to a call: nothing, or it starts, or it goes on. -/
inductive Advances (options : BreakerOptions) (number : ℕ) :
    Option (RetriedCall AttemptId OrderError α) → Option (RetriedCall AttemptId OrderError α) → Prop
  | same (progress : Option (RetriedCall AttemptId OrderError α)) :
      Advances options number progress progress
  | begun (now : ℕ) (breaker : CircuitBreaker AttemptId) :
      Advances options number none (some (begin options number now breaker).1)
  | resumed (progress : RetriedCall AttemptId OrderError α) (inFlight : AttemptId → Bool) (now : ℕ)
      (outcome : Except OrderError α) (breaker : CircuitBreaker AttemptId) :
      Advances options number (some progress) (some (progress.resume options .brokenCircuit
        (fun left => (number, left)) inFlight now outcome breaker).1)

/-- A move of one call leaves the others where they are. -/
theorem StoreCircuit.advances_stepWith {c : StoreCircuit α} {number : ℕ}
    {breaker : CircuitBreaker AttemptId}
    {f : CircuitBreaker AttemptId →
      RetriedCall AttemptId OrderError α × CircuitBreaker AttemptId × Option BreakerEvent}
    (h : Advances options number (c.calls number) (some (f breaker).1)) (number' : ℕ) :
    Advances options number' (c.calls number') ((c.stepWith number breaker f).calls number') := by
  show Advances options number' _ (Function.update c.calls number _ number')
  by_cases hnumber : number' = number
  · subst hnumber
    rwa [Function.update_self]
  · rw [Function.update_of_ne hnumber]
    exact .same _

/-- Every action advances each call of the store, or leaves it. -/
theorem StoreCircuit.advances_step (c : StoreCircuit α) (a : Action α) (number : ℕ) :
    Advances options number (c.calls number) ((c.step options a).calls number) := by
  cases a with
  | execute id now =>
      cases hcall : c.calls id.number with
      | some call =>
          simp only [step, hcall]
          exact .same _
      | none =>
          simp only [step, hcall]
          refine advances_stepWith ?_ number
          rw [hcall]
          exact .begun _ _
  | proceed id now outcome =>
      cases hcall : c.calls id.number with
      | none =>
          simp only [step, hcall]
          exact .same _
      | some call =>
          cases hbreaker : c.breaker with
          | none =>
              simp only [step, hcall, hbreaker]
              exact .same _
          | some breaker =>
              simp only [step, hcall, hbreaker]
              refine advances_stepWith ?_ number
              rw [hcall]
              exact .resumed _ _ _ _ _

/-- The same of the registry, seen store by store. -/
theorem Registry.advances_tick {s : Registry α} (h : s.WellFormed) (a : Action α)
    (storeId : String) (number : ℕ) :
    Advances options number ((s.view storeId).calls number)
      (((tick options a s).2.view storeId).calls number) := by
  by_cases hstore : storeId = a.id.storeId
  · subst hstore
    rw [view_tick_self options h]
    exact (s.view _).advances_step a number
  · rw [view_tick_of_ne options h hstore]
    exact .same _

/-- What one action keeps of a call, a run keeps.  This is the induction over runs, done once. -/
theorem Registry.call_final (options : BreakerOptions) (number : ℕ)
    {I : Option (RetriedCall AttemptId OrderError α) → Prop}
    (hI : ∀ {progress progress'}, Advances options number progress progress' → I progress →
      I progress') {s : Registry α} (hs : s.WellFormed) {storeId : String}
    (hinit : I ((s.view storeId).calls number)) (as : List (Action α)) :
    I (((final (tick options) as s).view storeId).calls number) :=
  (final_invariant (tick options)
    (I := fun s => s.WellFormed ∧ I ((s.view storeId).calls number))
    (fun a _ ⟨hs, hcall⟩ => ⟨wellFormed_tick options hs a, hI (advances_tick hs a storeId number) hcall⟩)
    as ⟨hs, hinit⟩).2

/-- Every call of the service is where its attempts have led it, so that its phase tells how they
ended. -/
theorem tracks_of_final {redis : String → Option RecordedState} (as : List (Action α))
    {storeId : String} {number : ℕ} {progress : RetriedCall AttemptId OrderError α}
    (hprogress : ((final (tick options) as (Registry.start redis)).view storeId).calls number =
      some progress) :
    progress.Tracks .brokenCircuit maxAttempts := by
  refine Registry.call_final options number (I := fun call =>
    ∀ progress ∈ call, progress.Tracks .brokenCircuit maxAttempts) ?_
    (Registry.wellFormed_start redis) nofun as progress hprogress
  rintro _ _ (_ | _ | _) htracks
  · exact htracks
  · rintro _ ⟨⟩
    exact RetriedCall.tracks_attempt RetriedCall.underway_nil
  · rintro _ ⟨⟩
    exact (htracks _ rfl).resume

/-- **A call and a run of the method.**  If the attempts of the method end like those of a call
that is over, the method has the answer of the call. -/
theorem run_execute_of_follows {redis : String → Option RecordedState} (as : List (Action α))
    {id : CallId} {progress : RetriedCall AttemptId OrderError α}
    (hprogress : ((final (tick options) as (Registry.start redis)).view id.storeId).calls id.number =
      some progress)
    {result : Except OrderError α} (hresult : progress.phase.result = some result)
    {fn : Service α} {choices : ℕ → Choice} {n : ℕ} {w : World}
    (hfollows : Follows fn choices n w (RetriedCall.attempts progress.log)) :
    (Program.run Op.exec choices (execute id.storeId fn) n w).1 =
      answer id.storeId result := by
  obtain ⟨m, w', hran⟩ : ∃ m w',
      Program.ran Op.exec choices (retry 3 (breaker id.storeId fn)) n w = (result, m, w') :=
    ran_retry_of_follows hfollows ((tracks_of_final as hprogress).retried_eq hresult)
  rw [Program.run_eq_ran, execute]
  cases result with
  | ok a => rw [Program.ran_tryCatch_of_ok hran]; rfl
  | error e =>
      rw [Program.ran_tryCatch_of_error hran, answer]
      split
      · rfl
      · rfl

end Progress

end PosCircuitBreakerService

end ChickenOrder
