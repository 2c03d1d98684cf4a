import ChickenOrder.Values.Text

/-!
# Order statuses, the state machine and the order errors

`OrderStatus` is the TypeScript type of the worker-owned statuses;
`RowStatus` is what the `status` column can hold once migration 005 has added
the statuses the point of sale sets.  A value typed `OrderStatus` in the source
is read from that column, so at run time it is a `RowStatus`.

`OrderStateMachine.validate` is the source's map-driven check, including its
behaviour on statuses the maps do not know.

The errors are one type, as the services pass them on and look at their class only where they
branch: whether to retry, whether to answer with 422, whether a lost race can be ignored.  Their
messages are the source's, since they are stored as the reason of a failure and are shown to
clients.
-/

namespace ChickenOrder

/-! ## Statuses -/

/-- The statuses the worker owns, which the state machine is about. -/
inductive OrderStatus
  | queued
  | saved
  | sentToPos
  | completed
  | failed
  deriving DecidableEq, Repr

/-- The statuses the point of sale sets.  The state machine does not know them. -/
inductive PosStatus
  | accepted
  | cooking
  | done
  | cancelled
  deriving DecidableEq, Repr

/-- A value of the column `orders.status`: the nine texts `chk_order_status` admits, of the worker
or of the point of sale. -/
inductive RowStatus
  | worker (s : OrderStatus)
  | pos (s : PosStatus)
  deriving DecidableEq, Repr

namespace OrderStatus

instance : Coe OrderStatus RowStatus := ⟨.worker⟩

/-- The text of a status, as the column `status` and the messages have it. -/
def text : OrderStatus → String
  | queued => "QUEUED"
  | saved => "SAVED"
  | sentToPos => "SENT_TO_POS"
  | completed => "COMPLETED"
  | failed => "FAILED"

end OrderStatus

/-- The text that the point of sale sends for its status, and that the column then has. -/
def PosStatus.text : PosStatus → String
  | accepted => "ACCEPTED"
  | cooking => "COOKING"
  | done => "DONE"
  | cancelled => "CANCELLED"

namespace RowStatus

/-- The text of the column `status`, whichever of the two sides has written it. -/
def text : RowStatus → String
  | worker s => s.text
  | pos s => s.text

/-- The nine statuses of `chk_order_status`. -/
def all : List RowStatus :=
  [.worker .queued, .worker .saved, .worker .sentToPos, .worker .completed, .worker .failed,
    .pos .accepted, .pos .cooking, .pos .done, .pos .cancelled]

/-- The column value a text denotes; `none` where `chk_order_status` rejects it. -/
def ofText? (s : String) : Option RowStatus := all.find? fun status => status.text = s

theorem mem_all (s : RowStatus) : s ∈ all := by
  cases s with
  | worker s => cases s <;> decide
  | pos s => cases s <;> decide

theorem ofText?_text (s : RowStatus) : ofText? s.text = some s := by
  cases s with
  | worker s => cases s <;> decide
  | pos s => cases s <;> decide

/-- `COMPLETED` or `FAILED`: the worker is done with the order.  The failure handler leaves such
orders alone. -/
def Settled (s : RowStatus) : Prop := s = .worker .completed ∨ s = .worker .failed

instance (s : RowStatus) : Decidable s.Settled := inferInstanceAs (Decidable (_ ∨ _))

/-- `DONE` or `CANCELLED`: the point of sale is done with the order. -/
def Closed (s : RowStatus) : Prop := s = .pos .done ∨ s = .pos .cancelled

instance (s : RowStatus) : Decidable s.Closed := inferInstanceAs (Decidable (_ ∨ _))

/-- A status of the point of sale. -/
def IsPos : RowStatus → Prop
  | worker _ => False
  | pos _ => True

instance (s : RowStatus) : Decidable s.IsPos :=
  match s with
  | worker _ => .isFalse id
  | pos _ => .isTrue trivial

end RowStatus

/-! ## Errors -/

/-- What a service method throws: the classes of `order.errors.ts`, Nest's HTTP
exceptions, cockatiel's `BrokenCircuitError`, and the errors of the runtime and
the drivers. -/
inductive OrderError
  | businessLogic (message : String)
  | amountMismatch (requested calculated : String)
  | menuNotFound (menuId : String)
  | menuUnavailable (menuName : String)
  | invalidStateTransition (source target : String) (allowed : List String)
  | staleOrderVersion (orderId : String) (expectedVersion : ℤ)
  | lockAcquisition (orderId : String)
  | posUnavailable (storeId reason : String)
  | circuitBreakerOpen (storeId : String)
  | brokenCircuit
  | http (status : ℕ) (message : String)
  | typeError (message : String)
  | other (message : String)
  deriving DecidableEq, Repr

namespace OrderError

/-- What `String(v)` and `Number(v)` throw where `v` has no primitive value. -/
def noPrimitive : OrderError := .typeError "Cannot convert object to primitive value"

/-- `error.message`. -/
def message : OrderError → String
  | businessLogic m => m
  | amountMismatch requested calculated =>
      "금액 불일치: 요청=" ++ requested ++ ", 서버계산=" ++ calculated
  | menuNotFound menuId => "메뉴 없음: " ++ menuId
  | menuUnavailable menuName => "품절 메뉴: " ++ menuName
  | invalidStateTransition source target allowed =>
      "상태 전이 불가: " ++ source ++ " → " ++ target ++ ". 허용: [" ++
        (if allowed.isEmpty then "없음 (종단 상태)" else ", ".intercalate allowed) ++ "]"
  | staleOrderVersion orderId expectedVersion =>
      "주문 " ++ orderId ++ " 버전 충돌 (expected v" ++ toString expectedVersion ++
        "). 다른 Worker가 먼저 처리함."
  | lockAcquisition orderId => "분산 락 획득 실패: " ++ orderId ++ ". 다른 Worker 처리 중."
  | posUnavailable storeId reason => "POS 연동 실패 (매장: " ++ storeId ++ "): " ++ reason
  | circuitBreakerOpen storeId =>
      "서킷 브레이커 OPEN: 매장 " ++ storeId ++ " POS 연동 일시 차단 중"
  | brokenCircuit => "Execution prevented because the circuit breaker is open"
  | http _ m => m
  | typeError m => m
  | other m => m

/-- `error instanceof BusinessLogicError`.  Such errors are not retried. -/
def isBusinessLogicError : OrderError → Bool
  | businessLogic _ => true
  | amountMismatch _ _ => true
  | menuNotFound _ => true
  | menuUnavailable _ => true
  | invalidStateTransition _ _ _ => true
  | _ => false

/-- `error instanceof StaleOrderVersionError`. -/
def isStaleOrderVersionError : OrderError → Bool
  | staleOrderVersion _ _ => true
  | _ => false

/-- `error instanceof BrokenCircuitError`. -/
def isBrokenCircuitError : OrderError → Bool
  | brokenCircuit => true
  | _ => false

/-- The three errors of request validation that the API answers with 422.  All others it takes for
failures of a dependency. -/
def isValidationError : OrderError → Bool
  | amountMismatch _ _ => true
  | menuNotFound _ => true
  | menuUnavailable _ => true
  | _ => false

end OrderError

/-! ## The state machine -/

/-- `ALLOWED_TRANSITIONS`.  `FAILED` and `COMPLETED` have none. -/
def allowedTransitions : OrderStatus → List OrderStatus
  | .queued => [.saved, .failed]
  | .saved => [.sentToPos, .failed]
  | .sentToPos => [.completed]
  | .completed => []
  | .failed => []

/-- `ADMIN_REDRIVE_TRANSITIONS`, which count only if the caller says that it is the administrator.
-/
def adminRedriveTransitions : OrderStatus → List OrderStatus
  | .failed => [.queued]
  | _ => []

namespace OrderStateMachine

/-- `OrderStateMachine.validate`.  The maps have no entry for the statuses the
point of sale sets, so there `allowed` is `undefined` and `allowed.includes`
throws. -/
def validate (current : RowStatus) (next : OrderStatus) (isAdminRedrive : Bool) :
    Except OrderError Unit :=
  match current with
  | .worker s =>
      let allowed := if isAdminRedrive then adminRedriveTransitions s else allowedTransitions s
      if next ∈ allowed then .ok ()
      else .error (.invalidStateTransition s.text next.text (allowed.map OrderStatus.text))
  | .pos _ => .error (.typeError "Cannot read properties of undefined (reading 'includes')")

/-- `OrderStateMachine.isTerminal`.  `FAILED` is terminal although the administrator may lead out of
it. -/
def isTerminal (s : OrderStatus) : Bool := s = .completed ∨ s = .failed

/-- What a successful check means. -/
theorem validate_eq_ok {current : RowStatus} {next : OrderStatus}
    (h : validate current next false = .ok ()) :
    ∃ s, current = .worker s ∧ next ∈ allowedTransitions s := by
  cases current with
  | worker s =>
      refine ⟨s, rfl, ?_⟩
      by_contra hmem
      simp [validate, hmem] at h
  | pos s => cases h

/-- A failed check is never a lost race on the row. -/
theorem not_stale_of_validate_eq_error {current : RowStatus} {next : OrderStatus} {b : Bool}
    {e : OrderError} (h : validate current next b = .error e) :
    e.isStaleOrderVersionError = false := by
  cases current with
  | worker s =>
      by_cases hnext :
          next ∈ (if b then adminRedriveTransitions s else allowedTransitions s)
      · simp [validate, hnext] at h
      · simp only [validate, hnext, if_false, Except.error.injEq] at h
        rw [← h]
        rfl
  | pos s =>
      cases h
      rfl

end OrderStateMachine

end ChickenOrder
