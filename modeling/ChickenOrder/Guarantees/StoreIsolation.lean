import ChickenOrder.Services.PosCircuitBreaker

/-!
# Failures of one store's point of sale

The calls of `execute` for different stores share the registry, the heap of policy objects and
Redis.  `view_tick_of_ne` says that a call of one store changes nothing another can see, and
`view_tick_self` that what it does depends on nothing but its own store.  So the two unwind:
whatever the calls for other stores do, and whenever their breakers are created, trip or reset,
the calls for a store come to what they come to without them.

The argument is the usual one for noninterference.  `SameStore` relates the states that look
alike to a store, `Unwinding` asks that hidden actions keep a state related to the other and
that visible ones do the same on both sides, and the general theorem about observations does the
rest.
-/

namespace ChickenOrder

open Interaction

namespace PosCircuitBreakerService

variable {α : Type}

/-- The actions of the calls for one store.  A call is one store's for all of its life, so its later
actions are too. -/
def Action.isFor (storeId : String) (a : Action α) : Bool := a.id.storeId = storeId

/-- Two services that the calls for `storeId` cannot tell apart: both are well formed, and what they
have for the store is the same.  Where its policy stands on the heap may differ, as that depends on
who came first. -/
structure SameStore (storeId : String) (s s' : Registry α) : Prop where
  left : s.WellFormed
  right : s'.WellFormed
  view : s.view storeId = s'.view storeId

theorem unwinding_isFor (options : BreakerOptions) (storeId : String) :
    Unwinding (tick options) (fun (a : Action α) _ => a.isFor storeId) (SameStore storeId) where
  seen _ := rfl
  hidden {a s s'} hhidden hsame := by
    have hne : storeId ≠ a.id.storeId := fun hstore => of_decide_eq_false hhidden hstore.symm
    exact ⟨Registry.wellFormed_tick options hsame.left a, hsame.right,
      (Registry.view_tick_of_ne options hsame.left hne).trans hsame.view⟩
  output {a s s'} hvisible hsame := by
    obtain rfl := of_decide_eq_true hvisible
    rw [Registry.tick_output, Registry.tick_output, Registry.view_tick_self options hsame.left,
      Registry.view_tick_self options hsame.right, hsame.view]
  kept {a s s'} hvisible hsame := by
    obtain rfl := of_decide_eq_true hvisible
    refine ⟨Registry.wellFormed_tick options hsame.left a,
      Registry.wellFormed_tick options hsame.right a, ?_⟩
    rw [Registry.view_tick_self options hsame.left, Registry.view_tick_self options hsame.right,
      hsame.view]

/-- **A store's failures are its own.** In every interleaving of calls, those for a store come to
what they come to in the run without the others: what is known of them after each of their actions,
their reports in the end, and the status of the store.  Policies are created at the first call, in
either run. -/
theorem storeIsolation (options : BreakerOptions) (redis : String → Option RecordedState)
    (storeId : String) (as : List (Action α)) :
    observe (tick options) (fun a _ => a.isFor storeId) as (Registry.start redis) =
        observe (tick options) (fun a _ => a.isFor storeId) (as.filter (Action.isFor storeId))
          (Registry.start redis) ∧
      (∀ number, ((final (tick options) as (Registry.start redis)).calls ⟨storeId, number⟩).map
          (fun call => report storeId call.progress) =
        ((final (tick options) (as.filter (Action.isFor storeId)) (Registry.start redis)).calls
          ⟨storeId, number⟩).map fun call => report storeId call.progress) ∧
      (final (tick options) as (Registry.start redis)).getStatus storeId =
        (final (tick options) (as.filter (Action.isFor storeId)) (Registry.start redis)).getStatus
          storeId := by
  have hunwinding : Unwinding (tick options) (fun (a : Action α) _ => a.isFor storeId) _ :=
    unwinding_isFor options storeId
  have hstart : SameStore storeId (Registry.start redis : Registry α) (Registry.start redis) :=
    ⟨Registry.wellFormed_start redis, Registry.wellFormed_start redis, rfl⟩
  have hobserve := hunwinding.observe_purge as hstart
  have hfinal := (hunwinding.final_purge as hstart).view
  rw [purge_eq_filter (tick options) (Action.isFor storeId)] at hobserve hfinal
  refine ⟨hobserve, fun number => ?_, congrArg StoreCircuit.status hfinal⟩
  have hcall := congrFun (congrArg StoreCircuit.calls hfinal) number
  have hreport := congrArg (Option.map (report storeId)) hcall
  simp only [Registry.view, Option.map_map] at hreport
  exact hreport

end PosCircuitBreakerService

end ChickenOrder
