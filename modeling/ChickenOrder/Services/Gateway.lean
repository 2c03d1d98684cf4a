import ChickenOrder.Interaction.Monitor
import ChickenOrder.Services.Calls
import ChickenOrder.Services.MenuAdmin
import ChickenOrder.Values.JsNumber

/-!
# The socket gateway

`OrderGateway`: the rooms that the clients of the gateway have joined, and what they were sent.
`World.socket` is what the services hand to the gateway; an event goes to the clients that are in
its room at that moment, and to nobody afterwards.

The gateway and its rooms are those of one API process: the source configures no adapter that would
carry an event to the rooms of another.  With several processes the results are about the clients
connected to the process that handles the request.  A client number stands for one connection at a
time.

Events are delivered in the process that emits them and at once, so that the gateway is a
monitor of the world: it changes nothing that a service reads.
-/

namespace ChickenOrder

open Interaction

/-- What a client of the gateway is sent: the answer to a join, or an event of its room. -/
inductive SocketMessage
  | posOk (storeId : JsValue)
  | event (e : SocketEvent)

/-- The rooms of each client and the messages it has been sent, the latest last. -/
structure Gateway where
  rooms : ℕ → List String
  inbox : ℕ → List SocketMessage

/-- A gateway without clients. -/
def Gateway.init : Gateway := ⟨fun _ => [], fun _ => []⟩

namespace OrderGateway

/-- `store:${storeId}`.  Nobody checks that there is such a store. -/
def room (storeId : JsValue) : String := "store:" ++ storeId.toText

/-- Nobody joins without a store id, nor with one that has no text.  A client may be in several
rooms. -/
def joinStoreRoom (client : ℕ) (storeId : JsValue) (g : Gateway) : Gateway :=
  if storeId.isTruthy ∧ storeId.hasText then
    { rooms := Function.update g.rooms client (room storeId :: g.rooms client)
      inbox := Function.update g.inbox client (g.inbox client ++ [.posOk storeId]) }
  else g

/-- `join_store`. -/
def handleJoinStore (client : ℕ) (data : JsValue) (g : Gateway) : Gateway :=
  joinStoreRoom client (data.get "storeId") g

/-- `pos_hello`. -/
def handlePosHello (client : ℕ) (data : JsValue) (g : Gateway) : Gateway :=
  joinStoreRoom client (data.get "storeId") g

/-- A client that disconnects leaves its rooms. -/
def disconnect (client : ℕ) (g : Gateway) : Gateway :=
  { g with rooms := Function.update g.rooms client [] }

end OrderGateway

/-- The store id an event is emitted with. -/
def SocketEvent.storeId : SocketEvent → JsValue
  | .newOrder storeId _ _ _ _ _ => .string storeId
  | .orderUpdated storeId _ _ _ => storeId

/-- The room it is emitted to. -/
def SocketEvent.room (e : SocketEvent) : String := OrderGateway.room e.storeId

/-- `server.to(room).emit(…)`.  The clients of the room are those of this moment; nobody gets it
later. -/
def Gateway.emit (g : Gateway) (e : SocketEvent) : Gateway where
  rooms := g.rooms
  inbox := fun client =>
    if e.room ∈ g.rooms client then g.inbox client ++ [.event e] else g.inbox client

/-! ## What clients do -/

/-- What a client does: it asks for a room in one of two ways, or its connection is over. -/
inductive GatewayStep
  | joinStore (client : ℕ) (data : JsValue)
  | posHello (client : ℕ) (data : JsValue)
  | disconnect (client : ℕ)

namespace GatewayStep

/-- The client that does it. -/
def client : GatewayStep → ℕ
  | .joinStore client _ => client
  | .posHello client _ => client
  | .disconnect client => client

/-- The handler of the step.  Nothing of it can fail but the conversion of a store id, and then
nobody joins. -/
def apply : GatewayStep → Gateway → Gateway
  | .joinStore client data => OrderGateway.handleJoinStore client data
  | .posHello client data => OrderGateway.handlePosHello client data
  | .disconnect client => OrderGateway.disconnect client

/-- The store id that a client joins with. -/
def storeId? : GatewayStep → Option JsValue
  | .joinStore _ data => some (data.get "storeId")
  | .posHello _ data => some (data.get "storeId")
  | .disconnect _ => none

/-- **Everything a step can do**: a client joins the room of a store id, or leaves its rooms, or
nothing happens.  Joining answers the client with `pos_ok`. -/
theorem apply_cases (a : GatewayStep) (g : Gateway) :
    (∃ storeId, a.storeId? = some storeId ∧ (storeId.isTruthy ∧ storeId.hasText) ∧ a.apply g =
      { rooms := Function.update g.rooms a.client (OrderGateway.room storeId :: g.rooms a.client)
        inbox := Function.update g.inbox a.client (g.inbox a.client ++ [.posOk storeId]) }) ∨
      a.apply g = { g with rooms := Function.update g.rooms a.client [] } ∨ a.apply g = g := by
  have hjoin : ∀ client storeId,
      (storeId.isTruthy ∧ storeId.hasText) ∧ OrderGateway.joinStoreRoom client storeId g =
        { rooms := Function.update g.rooms client (OrderGateway.room storeId :: g.rooms client)
          inbox := Function.update g.inbox client (g.inbox client ++ [.posOk storeId]) } ∨
      OrderGateway.joinStoreRoom client storeId g = g := by
    intro client storeId
    unfold OrderGateway.joinStoreRoom
    split
    · rename_i hjoins
      exact .inl ⟨hjoins, rfl⟩
    · exact .inr rfl
  cases a with
  | joinStore client data =>
      obtain ⟨hjoins, happly⟩ | happly := hjoin client (data.get "storeId")
      · exact .inl ⟨_, rfl, hjoins, happly⟩
      · exact .inr (.inr happly)
  | posHello client data =>
      obtain ⟨hjoins, happly⟩ | happly := hjoin client (data.get "storeId")
      · exact .inl ⟨_, rfl, hjoins, happly⟩
      · exact .inr (.inr happly)
  | disconnect client => exact .inr (.inl rfl)

/-- A step changes the rooms of its own client only. -/
theorem apply_rooms_of_ne {a : GatewayStep} {client : ℕ} (h : client ≠ a.client) (g : Gateway) :
    (a.apply g).rooms client = g.rooms client := by
  obtain ⟨storeId, -, -, happly⟩ | happly | happly := a.apply_cases g
  · rw [happly]
    exact Function.update_of_ne h ..
  · rw [happly]
    exact Function.update_of_ne h ..
  · rw [happly]

theorem apply_inbox_of_ne {a : GatewayStep} {client : ℕ} (h : client ≠ a.client) (g : Gateway) :
    (a.apply g).inbox client = g.inbox client := by
  obtain ⟨storeId, -, -, happly⟩ | happly | happly := a.apply_cases g
  · rw [happly]
    exact Function.update_of_ne h ..
  · rw [happly]
  · rw [happly]

/-- A client is never sent an event for what it does. -/
theorem mem_apply_inbox {a : GatewayStep} {g : Gateway} {client : ℕ} {e : SocketEvent}
    (h : .event e ∈ (a.apply g).inbox client) : .event e ∈ g.inbox client := by
  obtain ⟨storeId, -, -, happly⟩ | happly | happly := a.apply_cases g
  · rw [happly] at h
    replace h : .event e ∈ Function.update g.inbox a.client
      (g.inbox a.client ++ [.posOk storeId]) client := h
    by_cases hclient : client = a.client
    · subst hclient
      rw [Function.update_self] at h
      obtain hold | hnew := List.mem_append.mp h
      · exact hold
      · cases List.mem_singleton.mp hnew
    · rwa [Function.update_of_ne hclient] at h
  · rwa [happly] at h
  · rwa [happly] at h

end GatewayStep

/-! ## What clients are sent -/

namespace Gateway

/-- The gateway after the given events. -/
def deliver (events : List SocketEvent) (g : Gateway) : Gateway := events.foldl emit g

variable (g : Gateway) (events : List SocketEvent)

@[simp] theorem deliver_nil : g.deliver [] = g := rfl

@[simp] theorem rooms_deliver : (g.deliver events).rooms = g.rooms := by
  induction events generalizing g with
  | nil => rfl
  | cons e events ih => exact ih (g.emit e)

/-- A client is sent the events of its rooms, in their order, behind what it has been sent already.
-/
theorem inbox_deliver (client : ℕ) :
    (g.deliver events).inbox client = g.inbox client ++
      (events.filter fun e => e.room ∈ g.rooms client).map .event := by
  induction events generalizing g with
  | nil => simp
  | cons e events ih =>
      have hrest : (g.deliver (e :: events)).inbox client = (g.emit e).inbox client ++
          (events.filter fun e => e.room ∈ g.rooms client).map .event := ih (g.emit e)
      rw [hrest]
      by_cases hroom : e.room ∈ g.rooms client
      · have hsent : (g.emit e).inbox client = g.inbox client ++ [.event e] := if_pos hroom
        rw [hsent, List.filter_cons, if_pos (decide_eq_true hroom), List.map_cons, List.append_assoc]
        rfl
      · have hsent : (g.emit e).inbox client = g.inbox client := if_neg hroom
        rw [hsent, List.filter_cons, if_neg fun hin => hroom (of_decide_eq_true hin)]

end Gateway

/-! ## The system with its gateway -/

/-- The gateway delivers whatever is emitted, at once and in the same process. -/
def gatewayMonitor : Monitor World Gateway GatewayStep where
  watch := fun w w' g => g.deliver (w'.socket.drop w.socket.length)
  watch_self := fun w g => by rw [List.drop_length, Gateway.deliver_nil]
  act := GatewayStep.apply

/-- The system with uploads and the gateway beside it: the gateway watches each step of the services
and delivers what it emits, and the clients take steps of their own. -/
def gatewaySystem (config : AppConfig) :
    System Op.Reply OrderError Outcome (World × Gateway) Choice Request (CatalogStep ⊕ GatewayStep) :=
  (catalogSystem config).monitored gatewayMonitor

/-- The event of a call that emits one. -/
def Op.emitted? : Op → Time → Option SocketEvent
  | .emitNewOrder storeId orderId items totalAmount traceId, now =>
      some (.newOrder storeId orderId items totalAmount traceId now)
  | .emitOrderUpdated storeId orderId status, now => some (.orderUpdated storeId orderId status now)
  | _, _ => none

/-- **Everything a call does to the socket**: one of the two emits appends its event, and the others
append none. -/
theorem Op.exec_socket (o : Op) (c : Choice) (w : World) :
    (o.exec c w).2.socket = w.socket ∨
      ∃ e, o.emitted? c.now = some e ∧ (o.exec c w).2.socket = w.socket ++ [e] := by
  refine Op.exec_invariant (I := fun w' => w'.socket = w.socket ∨
    ∃ e, o.emitted? c.now = some e ∧ w'.socket = w.socket ++ [e]) (.inl rfl) ?_
  cases o with
  | emitNewOrder storeId orderId items totalAmount traceId => exact .inr ⟨_, rfl, rfl⟩
  | emitOrderUpdated storeId orderId status => exact .inr ⟨_, rfl, rfl⟩
  | patchStatus text orderId =>
      obtain ⟨db, hframe⟩ := w.patchStatus_frame text orderId c.now
      exact .inl (congrArg World.socket hframe :)
  | idempotencySetNx key orderId =>
      obtain ⟨keys, hframe⟩ := w.idempotencySetNx_frame key orderId
      exact .inl (congrArg World.socket hframe :)
  | lockSetNx orderId token =>
      obtain ⟨locks, hframe⟩ := w.lockSetNx_frame orderId token
      exact .inl (congrArg World.socket hframe :)
  | lockRelease orderId token =>
      obtain ⟨locks, hframe⟩ := w.lockRelease_frame orderId token
      exact .inl (congrArg World.socket hframe :)
  | mainQueueAdd data =>
      obtain ⟨queue, hframe⟩ := w.mainQueueAdd_frame data
      exact .inl (congrArg World.socket hframe :)
  | dlqQueueAdd data reason attempts =>
      obtain ⟨queue, hframe⟩ := w.dlqQueueAdd_frame data reason attempts c.now
      exact .inl (congrArg World.socket hframe :)
  | postToPos request =>
      obtain ⟨inbox, hframe⟩ := effect_postToPos_frame request c w
      exact .inl (congrArg World.socket hframe :)
  | _ => exact .inl rfl

/-- Expiries and uploads emit nothing. -/
theorem CatalogStep.apply_socket (e : CatalogStep) (w : World) : (e.apply w).socket = w.socket := by
  cases e with
  | expire e => cases e <;> rfl
  | saveMenus upload fault => rfl

end ChickenOrder
