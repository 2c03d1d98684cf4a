import ChickenOrder.Services.OrderReads
import ChickenOrder.Services.StatusPatches

/-!
# The status an app sees

The worker and the point of sale write one status column, and `mapStatus` takes both
vocabularies to that of the apps.  What an app sees ought never to go back: not from `DONE`
or `CANCELLED` to `PLACED` or `ACCEPTED`, nor from `ACCEPTED` to `PLACED`.

Either writer alone goes forward.  Together they go forward exactly if no `ACCEPTED` or
`COOKING` of the point of sale comes after the worker has completed or failed the order:
`appStatus_forward_iff`.

The two vocabularies are compared through `stage`, which is 0, 1 or 2.  Every transition of the
worker goes forward in it (`stage_le_of_allowed`), and so does whatever the point of sale sends
in turn, as long as it meets an order that is not over (`stageForward_step`).  A run is the list
of its steps, and both directions of the equivalence are inductions on it.
-/

namespace ChickenOrder

open Interaction

/-! ## Stages -/

/-- From `a` to `b` the status goes back: a finished order is open again, or an accepted one is only
placed. -/
def Backwards (a b : String) : Prop :=
  (a = "DONE" ∨ a = "CANCELLED") ∧ (b = "PLACED" ∨ b = "ACCEPTED") ∨ a = "ACCEPTED" ∧ b = "PLACED"

instance (a b : String) : Decidable (Backwards a b) := inferInstanceAs (Decidable (_ ∨ _))

namespace RowStatus

/-- How far the order is for an app: placed, accepted, or over.  The two vocabularies of the column
meet here, as they do in `mapStatus`. -/
def stage : RowStatus → ℕ
  | worker .queued => 0
  | worker .saved => 0
  | worker .sentToPos => 1
  | worker .completed => 2
  | worker .failed => 2
  | pos .accepted => 1
  | pos .cooking => 1
  | pos .done => 2
  | pos .cancelled => 2

theorem stage_le (s : RowStatus) : s.stage ≤ 2 := by
  have hall : ∀ s ∈ all, s.stage ≤ 2 := by decide
  exact hall s (mem_all s)

/-- What an app sees goes back exactly where the stage does.  The texts of the app are ordered by
the stages they stand for. -/
theorem backwards_iff (s s' : RowStatus) :
    Backwards (PublicController.mapStatus s.text) (PublicController.mapStatus s'.text) ↔
      s'.stage < s.stage := by
  have hall : ∀ s ∈ all, ∀ s' ∈ all,
      (Backwards (PublicController.mapStatus s.text) (PublicController.mapStatus s'.text) ↔
        s'.stage < s.stage) := by decide +kernel
  exact hall s (mem_all s) s' (mem_all s')

/-- An order at the last stage is settled by the worker or closed by the point of sale. -/
theorem settled_or_closed {s : RowStatus} (h : s.stage = 2) : s.Settled ∨ s.Closed := by
  have hall : ∀ s ∈ all, s.stage = 2 → s.Settled ∨ s.Closed := by decide
  exact hall s (mem_all s) h

/-- An order that the worker has settled is at the last one. -/
theorem Settled.stage {s : RowStatus} (h : s.Settled) : s.stage = 2 := by
  rcases h with rfl | rfl
  · rfl
  · rfl

end RowStatus

/-- The transition map goes forward: no move that the state machine allows lowers the stage that an
app is shown. -/
theorem stage_le_of_allowed {s next : OrderStatus} (h : next ∈ allowedTransitions s) :
    (RowStatus.worker s).stage ≤ (RowStatus.worker next).stage := by
  have hall : ∀ s : OrderStatus, ∀ next ∈ allowedTransitions s,
      (RowStatus.worker s).stage ≤ (RowStatus.worker next).stage := by
    rintro (_ | _ | _ | _ | _) <;> decide
  exact hall s next h

/-- `ACCEPTED` or `COOKING`: the statuses of the point of sale that come before the end. -/
def PosStatus.Early (s : PosStatus) : Prop := s = .accepted ∨ s = .cooking

/-- A status of the point of sale is early, or it ends the order. -/
theorem PosStatus.early_or_last (s : PosStatus) : s.Early ∨ (RowStatus.pos s).stage = 2 := by
  cases s with
  | accepted => exact .inl (.inl rfl)
  | cooking => exact .inl (.inr rfl)
  | done => exact .inr rfl
  | cancelled => exact .inr rfl

theorem PosStatus.Early.stage {s : PosStatus} (h : s.Early) : (RowStatus.pos s).stage = 1 := by
  rcases h with rfl | rfl
  · rfl
  · rfl

/-! ## What the point of sale sends -/

/-- The place of a status in what a point of sale sends: `ACCEPTED`, `COOKING`, then `DONE` or
`CANCELLED`. -/
def PosStatus.turn : PosStatus → ℕ
  | accepted => 0
  | cooking => 1
  | done => 2
  | cancelled => 2

/-- The status of the point of sale with this text. -/
def PosStatus.ofText? (text : String) : Option PosStatus :=
  match RowStatus.ofText? text with
  | some (.pos s) => some s
  | _ => none

/-- The text a `PATCH` statement carries for the order. -/
def Op.patchText? (o : Op) (id : Uuid) : Option String :=
  match o with
  | .patchStatus text orderId => if Uuid.ofText? orderId = some id then some text else none
  | _ => none

/-- `PATCH` statements for the order carry statuses of the point of sale.  The compatibility handler
would pass on any text. -/
def SendsPosStatuses (id : Uuid) (ℓ : OrderLabel) (P : OrderPool) : Prop :=
  ∀ o ∈ ℓ.call? P, ∀ text ∈ o.patchText? id, (PosStatus.ofText? text).isSome

instance (id : Uuid) (ℓ : OrderLabel) (P : OrderPool) : Decidable (SendsPosStatuses id ℓ P) :=
  inferInstanceAs (Decidable (∀ o ∈ ℓ.call? P, ∀ text ∈ o.patchText? id, _))

/-- The status of the point of sale that the step sends for the order. -/
def sent? (id : Uuid) (m : OrderMove) : Option PosStatus :=
  ((m.label.call? m.before).bind fun o => o.patchText? id).bind PosStatus.ofText?

/-- The point of sale sends its statuses for the order in their order.  The last step comes first in
the list of a run's past. -/
def InTurn (id : Uuid) (past : List OrderMove) : Prop :=
  (past.filterMap (sent? id)).Pairwise fun s earlier => earlier.turn ≤ s.turn

instance (id : Uuid) (past : List OrderMove) : Decidable (InTurn id past) :=
  inferInstanceAs (Decidable (List.Pairwise _ _))

/-- A call that writes a status past the state machine carries its text. -/
theorem Op.WritesStatus.patchText? {o : Op} {id : Uuid} {new : RowStatus}
    (h : o.WritesStatus id new) :
    ∃ text, o.patchText? id = some text ∧ RowStatus.ofText? text = some new := by
  obtain ⟨text, orderId, rfl, hid, hnew⟩ := h
  refine ⟨text, if_pos ?_, hnew⟩
  unfold uuidColumn at hid
  split at hid
  · rename_i hread
    cases hid
    exact hread
  · cases hid

/-- What such a call writes has been sent at this step. -/
theorem sent?_of_writesStatus {id : Uuid} {m : OrderMove} {o : Op} {s : PosStatus}
    (hcall : m.label.call? m.before = some o) (h : o.WritesStatus id (.pos s)) :
    sent? id m = some s := by
  obtain ⟨text, htext, hnew⟩ := h.patchText?
  simp [sent?, hcall, htext, PosStatus.ofText?, hnew]

/-- What such a statement writes is a status of the point of sale. -/
theorem SendsPosStatuses.pos {id : Uuid} {ℓ : OrderLabel} {P : OrderPool} {o : Op}
    {new : RowStatus} (h : SendsPosStatuses id ℓ P) (hcall : ℓ.call? P = some o)
    (hwrites : o.WritesStatus id new) : ∃ s, new = .pos s := by
  obtain ⟨text, htext, hnew⟩ := hwrites.patchText?
  have hsome := h o hcall text htext
  rw [PosStatus.ofText?, hnew] at hsome
  cases new with
  | worker s => cases hsome
  | pos s => exact ⟨s, rfl⟩

/-! ## Going forward -/

/-- The status apps see of the order has not gone back from `P` to `P'`.  Of an order without a row
an app sees nothing. -/
def SeenForward (id : Uuid) (P' P : OrderPool) : Prop :=
  ∀ a ∈ P.world.db.reportedStatus id, ∀ b ∈ P'.world.db.reportedStatus id, ¬ Backwards a b

instance (id : Uuid) (P' P : OrderPool) : Decidable (SeenForward id P' P) :=
  inferInstanceAs (Decidable (∀ a ∈ P.world.db.reportedStatus id, _))

/-- At the step an `ACCEPTED` or `COOKING` of the point of sale takes effect on an order whose
status `finds` describes.  The row is there and the table's `CHECK` admits the text. -/
def Overtaken (id : Uuid) (finds : RowStatus → Prop) (m : OrderMove) : Prop :=
  ∃ row new now, Patches m id row (.pos new) now ∧ new.Early ∧ finds row.status

/-- The stage of the order has not gone down.  This is transitive, which `SeenForward` is not by
itself. -/
def StageForward (id : Uuid) (P' P : OrderPool) : Prop :=
  ∀ s, P.world.db.statusOf id = some s → ∃ s', P'.world.db.statusOf id = some s' ∧ s.stage ≤ s'.stage

/-- Stages that do not go down in two parts of a run do not go down in the whole. -/
theorem StageForward.trans {id : Uuid} {P P' P'' : OrderPool} (h' : StageForward id P'' P')
    (h : StageForward id P' P) : StageForward id P'' P := by
  intro s hs
  obtain ⟨s', hs', hle⟩ := h s hs
  obtain ⟨s'', hs'', hle'⟩ := h' s' hs'
  exact ⟨s'', hs'', hle.trans hle'⟩

/-- If the stage does not go down, an app sees nothing go back. -/
theorem StageForward.seen {id : Uuid} {P P' : OrderPool} (h : StageForward id P' P) :
    SeenForward id P' P := by
  intro a ha b hb
  obtain ⟨s, hs, rfl⟩ := Option.map_eq_some_iff.mp ha
  obtain ⟨s₁, hs₁, rfl⟩ := Option.map_eq_some_iff.mp hb
  obtain ⟨s', hs', hle⟩ := h s hs
  rw [hs₁, Option.some.injEq] at hs'
  subst hs'
  rw [RowStatus.backwards_iff]
  omega

section Steps

variable {config : AppConfig} {id : Uuid} {ℓ : OrderLabel} {P P' : OrderPool}

/-- **One step goes forward**, unless it overtakes an order at its last stage. -/
theorem stageForward_step (hstep : (orderSystem config).step ℓ P = some P')
    (hsends : SendsPosStatuses id ℓ P)
    (hnot : ¬ Overtaken id (fun s => s.stage = 2) ⟨P, ℓ, P'⟩) : StageForward id P' P := by
  intro s hs
  obtain ⟨row, hrow, rfl⟩ := Option.map_eq_some_iff.mp hs
  obtain hsame | ⟨i, c, r, rfl, heffect⟩ | ⟨row', new, now, hpatches⟩ :=
    orderSystem_step_row hstep id
  · -- the step has left the row alone
    refine ⟨row.status, ?_, le_rfl⟩
    rw [Database.statusOf, hsame, hrow]
    rfl
  · -- the repository keeps the status or moves it along the map
    obtain ⟨row', hrow', hle⟩ : ∃ row', P'.world.db.orders.find? id = some row' ∧
        row.status.stage ≤ row'.status.stage := by
      generalize P'.world.db.orders.find? id = found at heffect
      cases heffect with
      | same => exact ⟨row, hrow, le_rfl⟩
      | inserted hid hnone hnew =>
          rw [hrow] at hnone
          cases hnone
      | moved hid hold hexpected hstatus hversion hnext =>
          rw [hrow, Option.some.injEq] at hold
          subst hold
          refine ⟨_, rfl, ?_⟩
          rw [OrderRow.transition_status, hstatus]
          exact stage_le_of_allowed hnext
      | marked hold =>
          rw [hrow, Option.some.injEq] at hold
          subst hold
          exact ⟨_, rfl, le_rfl⟩
      | retried hold =>
          rw [hrow, Option.some.injEq] at hold
          subst hold
          exact ⟨_, rfl, le_rfl⟩
    refine ⟨row'.status, ?_, hle⟩
    rw [Database.statusOf, hrow']
    rfl
  · -- a `PATCH` writes any status, but these runs only send those of the point of sale
    have hafter := hpatches.after hstep
    have hfound := hpatches.finds
    rw [show P.world.db.orders.find? id = some row from hrow, Option.some.injEq] at hfound
    subst hfound
    obtain ⟨i, c, o, -, -, -, hcall, hwrites⟩ := hpatches.statement
    obtain ⟨sent, rfl⟩ := hsends.pos hcall hwrites
    refine ⟨.pos sent, ?_, ?_⟩
    · rw [Database.statusOf, hafter]
      rfl
    · -- an early status goes back from the last stage only, which is what `Overtaken` is
      rcases sent.early_or_last with hearly | hlast
      · have hbefore : row.status.stage ≠ 2 := fun hlast =>
          hnot ⟨row, sent, now, hpatches, hearly, hlast⟩
        have hle := row.status.stage_le
        rw [hearly.stage]
        omega
      · rw [hlast]
        exact row.status.stage_le

/-- A step that overtakes goes back. -/
theorem not_seenForward_of_overtaken (hstep : (orderSystem config).step ℓ P = some P')
    {finds : RowStatus → Prop} (hfinds : ∀ s, finds s → s.stage = 2)
    (h : Overtaken id finds ⟨P, ℓ, P'⟩) : ¬ SeenForward id P' P := by
  obtain ⟨row, new, now, hpatches, hearly, hfound⟩ := h
  have hbefore : P.world.db.reportedStatus id =
      some (PublicController.mapStatus row.status.text) := by
    rw [Database.reportedStatus, Database.statusOf,
      show P.world.db.orders.find? id = some row from hpatches.finds]
    rfl
  have hafter : P'.world.db.reportedStatus id =
      some (PublicController.mapStatus (RowStatus.pos new).text) := by
    rw [Database.reportedStatus, Database.statusOf, hpatches.after hstep]
    rfl
  intro hforward
  refine hforward _ hbefore _ hafter ((RowStatus.backwards_iff _ _).mpr ?_)
  rw [hearly.stage, hfinds _ hfound]
  omega

end Steps

/-! ## Runs -/

/-- The pools a run has come through, the last one first.  Whether something goes back is asked of
any two of them, not only of neighbours. -/
def poolsOf (P : OrderPool) (past : List OrderMove) : List OrderPool := P :: past.map Move.before

section Runs

variable {config : AppConfig} {id : Uuid} {ok : OrderLabel → OrderPool → Prop}
variable {P₀ P : OrderPool} {past : List OrderMove}

/-- What the run goes through never goes down if nothing overtakes. -/
theorem stageForward_of_not_overtaken
    (h : (orderSystem config).ReachesBy (SendsPosStatuses id) P₀ P past)
    (hnot : ∀ m ∈ past, ¬ Overtaken id (fun s => s.stage = 2) m) :
    (poolsOf P past).Pairwise (StageForward id) := by
  refine System.ReachesBy.invariant
    (I := fun P past => (∀ m ∈ past, ¬ Overtaken id (fun s => s.stage = 2) m) →
      (poolsOf P past).Pairwise (StageForward id)) (fun _ => List.pairwise_singleton _ _) ?_ h hnot
  intro P past ℓ P' _ ih hsends hstep hnot
  have hpast := ih fun m hm => hnot m (List.mem_cons_of_mem _ hm)
  have hlast := stageForward_step hstep hsends (hnot _ List.mem_cons_self)
  refine List.pairwise_cons.mpr ⟨fun Q hQ => ?_, hpast⟩
  rcases List.mem_cons.mp hQ with rfl | hQ
  · exact hlast
  · exact hlast.trans ((List.pairwise_cons.mp hpast).1 Q hQ)

/-- A run that never goes back overtakes nothing. -/
theorem not_overtaken_of_seenForward {finds : RowStatus → Prop}
    (hfinds : ∀ s, finds s → s.stage = 2) (h : (orderSystem config).ReachesBy ok P₀ P past)
    (hseen : (poolsOf P past).Pairwise (SeenForward id)) : ∀ m ∈ past, ¬ Overtaken id finds m := by
  refine System.ReachesBy.invariant
    (I := fun P past => (poolsOf P past).Pairwise (SeenForward id) →
      ∀ m ∈ past, ¬ Overtaken id finds m) (fun _ _ hm => by cases hm) ?_ h hseen
  intro P past ℓ P' _ ih _ hstep hseen m hm hovertaken
  obtain ⟨hlast, hpast⟩ := List.pairwise_cons.mp hseen
  rcases List.mem_cons.mp hm with rfl | hm
  · exact not_seenForward_of_overtaken hstep hfinds hovertaken (hlast P List.mem_cons_self)
  · exact ih hpast m hm hovertaken

/-- **Whatever order the point of sale keeps to**, what an app sees goes back exactly if an early
status overtakes an order at its last stage.  Here that stage may also be one that the point of sale
has set. -/
theorem seenForward_iff_of_posStatuses
    (h : (orderSystem config).ReachesBy (SendsPosStatuses id) P₀ P past) :
    (poolsOf P past).Pairwise (SeenForward id) ↔
      ∀ m ∈ past, ¬ Overtaken id (fun s => s.stage = 2) m :=
  ⟨not_overtaken_of_seenForward (fun _ hs => hs) h, fun hnot =>
    (stageForward_of_not_overtaken h hnot).imp fun hforward => hforward.seen⟩

/-- A status of the point of sale has been sent. -/
theorem exists_sent_of_statusOf (hfresh : P₀.world.db.statusOf id = none)
    (h : (orderSystem config).ReachesBy ok P₀ P past) {s : PosStatus}
    (hs : P.world.db.statusOf id = some (.pos s)) : ∃ m ∈ past, sent? id m = some s := by
  refine System.ReachesBy.invariant
    (I := fun P past => ∀ s, P.world.db.statusOf id = some (.pos s) → ∃ m ∈ past, sent? id m = some s)
    (fun s hs => ?_) ?_ h s hs
  · rw [hfresh] at hs
    cases hs
  · intro P past ℓ P' _ ih _ hstep s hs
    by_cases hold : P.world.db.statusOf id = some (.pos s)
    · obtain ⟨m, hm, hsent⟩ := ih s hold
      exact ⟨m, List.mem_cons_of_mem _ hm, hsent⟩
    · -- nothing else writes a status of the point of sale
      obtain ⟨i, q, rfl, -, rfl⟩ | ⟨i, c, t, o, k, rfl, ht, hrest, rfl⟩ | ⟨e, w, rfl, hw, rfl⟩ :=
        (orderSystem config).step_cases hstep
      · exact absurd hs hold
      · obtain ⟨p, -, -, hqueued⟩ | ⟨p, v, -, -, hnext, -⟩ | hwrites := Op.exec_statusOf hold hs
        · cases hqueued
        · cases hnext
        · exact ⟨_, List.mem_cons_self, sent?_of_writesStatus (Label.call?_act ht hrest c) hwrites⟩
      · cases hw
        rw [show ({ P with world := e.apply P.world } : OrderPool).world.db = P.world.db from
          Expiry.apply_db e P.world] at hs
        exact absurd hs hold

/-- In turn, an early status comes after the last stage only if the worker has settled the order:
the point of sale itself does not go from `DONE` to `ACCEPTED`. -/
theorem settled_of_overtaken (hfresh : P₀.world.db.statusOf id = none)
    (h : (orderSystem config).ReachesBy ok P₀ P past) (hturn : InTurn id past) {m : OrderMove}
    (hm : m ∈ past) (hovertaken : Overtaken id (fun s => s.stage = 2) m) :
    Overtaken id RowStatus.Settled m := by
  -- by induction on the run, whose past says what the point of sale has sent
  refine System.ReachesBy.invariant
    (I := fun _ past => InTurn id past → ∀ m ∈ past, Overtaken id (fun s => s.stage = 2) m →
      Overtaken id RowStatus.Settled m) (fun _ _ hm => by cases hm) ?_ h hturn m hm hovertaken
  intro P past ℓ P' hreach ih _ hstep hturn m hm hovertaken
  have hpast : InTurn id past := hturn.sublist ((List.sublist_cons_self _ past).filterMap _)
  rcases List.mem_cons.mp hm with rfl | hm
  · obtain ⟨row, new, now, hpatches, hearly, hstage⟩ := hovertaken
    rcases RowStatus.settled_or_closed hstage with hsettled | hclosed
    · exact ⟨row, new, now, hpatches, hearly, hsettled⟩
    · -- then the point of sale has sent its last status before
      obtain ⟨last, hlaststage, hlastturn⟩ :
          ∃ s : PosStatus, row.status = .pos s ∧ s.turn = 2 := by
        rcases hclosed with hdone | hcancelled
        · exact ⟨.done, hdone, rfl⟩
        · exact ⟨.cancelled, hcancelled, rfl⟩
      have hstatus : P.world.db.statusOf id = some (.pos last) := by
        rw [Database.statusOf, show P.world.db.orders.find? id = some row from hpatches.finds,
          Option.map_some, hlaststage]
      obtain ⟨earlier, hearlier, hsent⟩ := exists_sent_of_statusOf hfresh hreach hstatus
      obtain ⟨i, c, o, -, -, -, hcall, hwrites⟩ := hpatches.statement
      rw [InTurn, List.filterMap_cons_some (sent?_of_writesStatus hcall hwrites)] at hturn
      have hle := (List.pairwise_cons.mp hturn).1 last
        (List.mem_filterMap.mpr ⟨earlier, hearlier, hsent⟩)
      rw [hlastturn] at hle
      rcases hearly with rfl | rfl
      · simp [PosStatus.turn] at hle
      · simp [PosStatus.turn] at hle
  · exact ih hpast m hm hovertaken

/-- **Forward together.**  In a run in which the order is stored, moved by workers and sent
the statuses of the point of sale in turn, whatever else happens, what an app sees of it
never goes back if and only if no `ACCEPTED` or `COOKING` takes effect on the order when a
worker has set it to `COMPLETED` or `FAILED`. -/
theorem appStatus_forward_iff (hfresh : P₀.world.db.statusOf id = none)
    (h : (orderSystem config).ReachesBy (SendsPosStatuses id) P₀ P past)
    (hturn : InTurn id past) :
    (poolsOf P past).Pairwise (SeenForward id) ↔
      ∀ m ∈ past, ¬ Overtaken id RowStatus.Settled m := by
  rw [seenForward_iff_of_posStatuses h]
  constructor
  · rintro hnot m hm ⟨row, new, now, hpatches, hearly, hsettled⟩
    exact hnot m hm ⟨row, new, now, hpatches, hearly, hsettled.stage⟩
  · intro hnot m hm hovertaken
    exact hnot m hm (settled_of_overtaken hfresh h hturn hm hovertaken)

end Runs

/-! ### An order that is accepted in time, and one that is not -/

/-- A worker makes `n` calls for the order, then the point of sale sends `ACCEPTED`. -/
def acceptAfter (n : ℕ) : List OrderLabel :=
  .spawn 0 (.process seedPayload (seedJob 0)) :: (List.range n).map (fun k =>
    .act 0 (.undisturbed k)) ++ [.spawn 1 (.updateStatus seedOrderId .accepted),
      .act 1 (.undisturbed n)]

theorem acceptAfter_replays :
    ((orderSystem seedConfig).replay (acceptAfter 9) (Pool.init (World.init .seed))).isSome = true ∧
    ((orderSystem seedConfig).replay (acceptAfter 12) (Pool.init (World.init .seed))).isSome =
      true := by
  decide +kernel

/-- The order has been sent when it is accepted. -/
def acceptedInTime : OrderPool :=
  (orderSystem seedConfig).after (acceptAfter 9) (Pool.init (World.init .seed))
    acceptAfter_replays.1

/-- The worker has completed the order when it is accepted. -/
def acceptedLate : OrderPool :=
  (orderSystem seedConfig).after (acceptAfter 12) (Pool.init (World.init .seed))
    acceptAfter_replays.2

/-- The steps of these runs. -/
def acceptMoves (n : ℕ) : List OrderMove :=
  (orderSystem seedConfig).moves (acceptAfter n) (Pool.init (World.init .seed))

/-- In both only statuses of the point of sale are sent. -/
theorem acceptAfter_admitted :
    (orderSystem seedConfig).admitted? (SendsPosStatuses ⟨7⟩) (acceptAfter 9)
      (Pool.init (World.init .seed)) = true ∧
    (orderSystem seedConfig).admitted? (SendsPosStatuses ⟨7⟩) (acceptAfter 12)
      (Pool.init (World.init .seed)) = true := by
  decide +kernel

/-- There is one of them, so that they are sent in turn. -/
theorem acceptMoves_inTurn : InTurn ⟨7⟩ (acceptMoves 9) ∧ InTurn ⟨7⟩ (acceptMoves 12) := by
  decide +kernel

/-- The equivalence at the first run, in which the order is accepted in time. -/
theorem appStatus_forward_iff_inTime :
    (poolsOf acceptedInTime (acceptMoves 9)).Pairwise (SeenForward ⟨7⟩) ↔
      ∀ m ∈ acceptMoves 9, ¬ Overtaken ⟨7⟩ RowStatus.Settled m :=
  appStatus_forward_iff rfl
    (.after (.of_check acceptAfter_admitted.1) acceptAfter_replays.1) acceptMoves_inTurn.1

example : (poolsOf acceptedInTime (acceptMoves 9)).Pairwise (SeenForward ⟨7⟩) := by
  decide +kernel

/-- In the second an app sees `DONE`, and then `ACCEPTED`. -/
theorem not_seenForward_late :
    ¬ (poolsOf acceptedLate (acceptMoves 12)).Pairwise (SeenForward ⟨7⟩) := by
  decide +kernel

/-- **`DONE` goes back to `ACCEPTED`** when the point of sale accepts an order the worker has
completed. -/
theorem not_appStatus_forward_of_late :
    ¬ ∀ (config : AppConfig) (id : Uuid) (P₀ P : OrderPool) (past : List OrderMove),
      P₀.world.db.statusOf id = none →
      (orderSystem config).ReachesBy (SendsPosStatuses id) P₀ P past → InTurn id past →
      (poolsOf P past).Pairwise (SeenForward id) := by
  intro h
  exact not_seenForward_late (h seedConfig ⟨7⟩ (Pool.init (World.init .seed)) acceptedLate
    (acceptMoves 12) rfl (.after (.of_check acceptAfter_admitted.2) acceptAfter_replays.2)
    acceptMoves_inTurn.2)

end ChickenOrder
