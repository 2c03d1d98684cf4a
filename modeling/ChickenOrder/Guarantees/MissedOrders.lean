import ChickenOrder.Services.OrderReads
import ChickenOrder.Services.StatusPatches

/-!
# Missed orders

A point of sale that reconnects asks `orders/missed` for what happened since it was last
there.  The query trusts `updated_at`, a column migration 006 added to `orders` and filled
once.  Of the writers only the `PATCH` handlers keep it: `createOrder` leaves it empty and
`transitionStatus` does not touch it.

`updatedAfter_iff_patched` says what the column knows; so the list is complete only if every
order that was created or moved was also patched, `missedOrders_complete_iff`.

A run is the list of its steps here, latest first, and each step has the pool before and after
it.  `Stamped` is the invariant: the column is the time of some `PATCH`, and of none that came
later.  Rows, times and steps are then compared in `missedOrders_complete_iff`, whatever order
the query returns its rows in.
-/

namespace ChickenOrder

open Interaction

/-- The time of the step's call.  Starting a request and the expiry of a key take no time of their
own. -/
def clockOf (m : OrderMove) : Option Time :=
  match m.label with
  | .act _ c => some c.now
  | _ => none

/-- The clock of the run increases strictly.  The last step comes first.  With equal times the list
could not tell what came after `since`. -/
def ClockIncreasing (past : List OrderMove) : Prop :=
  (past.filterMap clockOf).Pairwise fun now earlier => earlier < now

instance (past : List OrderMove) : Decidable (ClockIncreasing past) :=
  inferInstanceAs (Decidable (List.Pairwise _ _))

/-- The order was created after `since`, or its status changed after it: what a point of sale has
missed that was last there at `since`. -/
def ChangedAfter (since : Time) (id : Uuid) (past : List OrderMove) : Prop :=
  ∃ m ∈ past, ∃ now ∈ clockOf m, since < now ∧
    m.after.world.db.statusOf id ≠ m.before.world.db.statusOf id

instance (since : Time) (id : Uuid) (past : List OrderMove) :
    Decidable (ChangedAfter since id past) :=
  inferInstanceAs (Decidable (∃ m ∈ past, _))

/-- A `PATCH` took effect on the order after `since`. -/
def PatchedAfter (since : Time) (id : Uuid) (past : List OrderMove) : Prop :=
  ∃ m ∈ past, ∃ row new now, Patches m id row new now ∧ since < now

/-- The list of the store, as it is at `db`, shows every order of the store that was created or
changed after `since`, in whatever order the database returns its rows. -/
def ShowsMissed (db : Database) (past : List OrderMove) (storeId : String) (since now : Time) :
    Prop :=
  ∀ answer, PublicController.GetsMissedOrders db (some storeId) (some since) now answer →
    ∃ body, answer = .ok body ∧ ∀ row ∈ db.orders.rows, uuidColumn storeId = .ok row.storeId →
      ChangedAfter since row.id past → ∃ order ∈ body.orders, order.id = row.id

/-! ## What the column knows -/

@[simp] theorem OrderRow.transition_updatedAt (row : OrderRow) (p : TransitionParams) (now : Time) :
    (row.transition p now).updatedAt = row.updatedAt := by
  cases h : p.nextStatus <;> simp [transition, stamp, setExtras, h]

/-- `updated_at` of an order; none if it has no row. -/
def Database.updatedAtOf (db : Database) (id : Uuid) : Option Time :=
  (db.orders.find? id).bind OrderRow.updatedAt

/-- The repository leaves the column as it is; a new row has none. -/
theorem RepoOp.RowEffect.updatedAt {db : Database} {now : Time} {id : Uuid} {o : RepoOp}
    {r : Option OrderRow} (h : RepoOp.RowEffect db now id o r) :
    r.bind OrderRow.updatedAt = db.updatedAtOf id := by
  unfold Database.updatedAtOf
  cases h with
  | same => rfl
  | inserted hid hfree hnew => simp [hfree, (Database.storedAs_of_toRow hnew).updatedAt]
  | moved hid hold => simp [hold]
  | marked hold => simp [hold, OrderRow.sentToDlq]
  | retried hold => simp [hold, OrderRow.retried]

theorem Patches.clockOf {m : OrderMove} {id : Uuid} {row : OrderRow} {new : RowStatus} {now : Time}
    (h : Patches m id row new now) : clockOf m = some now := by
  obtain ⟨i, c, o, hlabel, hnow, -⟩ := h.statement
  unfold ChickenOrder.clockOf
  rw [hlabel, ← hnow]

/-- The column of a row is the time of a `PATCH`, and no `PATCH` of the order came later. -/
structure Stamped (past : List OrderMove) (id : Uuid) (updatedAt : Option Time) : Prop where
  patched : ∀ t, updatedAt = some t → ∃ m ∈ past, ∃ row new, Patches m id row new t
  latest : ∀ m ∈ past, ∀ row new now, Patches m id row new now → ∃ t, updatedAt = some t ∧ now ≤ t

section Runs

variable {config : AppConfig} {ok : OrderLabel → OrderPool → Prop}
variable {P₀ P : OrderPool} {past : List OrderMove}

/-- A step that is no `PATCH` of the order. -/
theorem Stamped.cons {id : Uuid} {updatedAt : Option Time} (h : Stamped past id updatedAt)
    {m : OrderMove} (hm : ∀ row new now, ¬ Patches m id row new now) :
    Stamped (m :: past) id updatedAt := by
  refine ⟨fun t ht => ?_, fun m' hm' row new now hpatches => ?_⟩
  · obtain ⟨m', hm', hpatches⟩ := h.patched t ht
    exact ⟨m', List.mem_cons_of_mem _ hm', hpatches⟩
  · rcases List.mem_cons.mp hm' with rfl | hm'
    · exact absurd hpatches (hm row new now)
    · exact h.latest m' hm' row new now hpatches

/-- A `PATCH` of the order, later than the steps before it. -/
theorem Stamped.patched_cons {id : Uuid} {m : OrderMove} {old : OrderRow} {new : RowStatus}
    {now : Time} (hpatches : Patches m id old new now) (hclock : ClockIncreasing (m :: past)) :
    Stamped (m :: past) id (some now) := by
  refine ⟨fun t ht => ?_, fun m' hm' row' new' now' hpatches' => ⟨now, rfl, ?_⟩⟩
  · cases ht
    exact ⟨m, List.mem_cons_self, old, new, hpatches⟩
  · rcases List.mem_cons.mp hm' with rfl | hm'
    · have hsame := hpatches'.clockOf.symm.trans hpatches.clockOf
      exact (Option.some.inj hsame).le
    · rw [ClockIncreasing, List.filterMap_cons_some hpatches.clockOf] at hclock
      exact ((List.pairwise_cons.mp hclock).1 now'
        (List.mem_filterMap.mpr ⟨m', hm', hpatches'.clockOf⟩)).le

/-- **In every run the column is the time of the last `PATCH`.** By induction on the run, since only
a `PATCH` writes it and the clock only goes forward. -/
theorem stamped_of_reaches (hempty : ∀ id, P₀.world.db.orders.find? id = none)
    (h : (orderSystem config).ReachesBy ok P₀ P past) (hclock : ClockIncreasing past) (id : Uuid) :
    Stamped past id (P.world.db.updatedAtOf id) := by
  refine System.ReachesBy.invariant
    (I := fun P past => ClockIncreasing past → Stamped past id (P.world.db.updatedAtOf id))
    (fun _ => ?_) ?_ h hclock
  · rw [Database.updatedAtOf, hempty]
    exact ⟨fun t ht => (by cases ht), fun m hm => (by cases hm)⟩
  · intro P past ℓ P' _ ih _ hstep hclock
    have hstamped := ih (hclock.sublist ((List.sublist_cons_self _ past).filterMap _))
    by_cases hpatch : ∃ row new now, Patches ⟨P, ℓ, P'⟩ id row new now
    · obtain ⟨old, new, now, hpatches⟩ := hpatch
      rw [Database.updatedAtOf, hpatches.after hstep]
      exact .patched_cons hpatches hclock
    · have hkept : P'.world.db.updatedAtOf id = P.world.db.updatedAtOf id := by
        obtain hsame | ⟨i, c, r, -, heffect⟩ | hpatches := orderSystem_step_row hstep id
        · rw [Database.updatedAtOf, hsame]
          rfl
        · exact heffect.updatedAt
        · exact absurd hpatches hpatch
      rw [hkept]
      exact hstamped.cons fun row new now hpatches => hpatch ⟨row, new, now, hpatches⟩

/-- **What the column knows**: whether the order was patched after a time.  It does not know of
creations nor of a worker's transitions. -/
theorem updatedAfter_iff_patched (hempty : ∀ id, P₀.world.db.orders.find? id = none)
    (h : (orderSystem config).ReachesBy ok P₀ P past) (hclock : ClockIncreasing past)
    {row : OrderRow} (hrow : row ∈ P.world.db.orders.rows) (since : Time) :
    PublicController.updatedAfter since row = true ↔ PatchedAfter since row.id past := by
  have hstamped := stamped_of_reaches hempty h hclock row.id
  have hfind := Relational.Table.find?_eq_some_iff.mpr ⟨hrow, rfl⟩
  rw [Database.updatedAtOf, hfind, Option.bind_some] at hstamped
  unfold PublicController.updatedAfter
  rw [Option.any_eq_true]
  constructor
  · rintro ⟨t, ht, hlater⟩
    obtain ⟨m, hm, old, new, hpatches⟩ := hstamped.patched t ht
    exact ⟨m, hm, old, new, t, hpatches, of_decide_eq_true hlater⟩
  · rintro ⟨m, hm, old, new, now, hpatches, hlater⟩
    obtain ⟨t, ht, hle⟩ := hstamped.latest m hm old new now hpatches
    exact ⟨t, ht, decide_eq_true (hlater.trans_le hle)⟩

/-- **Missed orders.**  Whatever the order of the operations, while at most 500 orders match
the list shows every order of the store that was created or changed after `since` if and only
if every such order was also patched after `since`. -/
theorem missedOrders_complete_iff {storeId : String} {store : Uuid} {since now : Time}
    (hempty : ∀ id, P₀.world.db.orders.find? id = none)
    (h : (orderSystem config).ReachesBy ok P₀ P past) (hclock : ClockIncreasing past)
    (hstore : uuidColumn storeId = .ok store)
    (hlimit : (P.world.db.orders.rows.filter fun o =>
      o.storeId = store && PublicController.updatedAfter since o).length ≤ 500) :
    ShowsMissed P.world.db past storeId since now ↔
      ∀ row ∈ P.world.db.orders.rows, row.storeId = store → ChangedAfter since row.id past →
        PatchedAfter since row.id past := by
  have hanswers : ∀ {answer}, PublicController.GetsMissedOrders P.world.db (some storeId)
      (some since) now answer ↔ _ := PublicController.listsOrders_iff hstore
  constructor
  · intro hshown row hrow hrowStore hchanged
    have hselects := PublicController.selectsOrders_selectOrders P.world.db store
      (PublicController.updatedAfter since) (fun o => o.updatedAt.getD 0) 500
    obtain ⟨body, hbody, hshows⟩ := hshown _ (hanswers.mpr ⟨_, hselects, rfl⟩)
    obtain ⟨order, horder, hid⟩ := hshows row hrow (by rw [hrowStore, hstore]) hchanged
    cases hbody
    obtain ⟨o, ho, rfl⟩ := List.mem_map.mp horder
    obtain ⟨hmem, -, hafter⟩ := hselects.mem ho
    replace hid : o.id = row.id := hid
    -- the order that is shown is this one
    have hsame : o = row := by
      have hfind := Relational.Table.find?_eq_some_iff.mpr ⟨hrow, rfl⟩
      rw [← hid, Relational.Table.find?_eq_some_iff.mpr ⟨hmem, rfl⟩, Option.some.injEq] at hfind
      exact hfind
    subst hsame
    exact (updatedAfter_iff_patched hempty h hclock hrow since).mp hafter
  · intro hpatched answer hanswer
    obtain ⟨rows, hselects, rfl⟩ := hanswers.mp hanswer
    refine ⟨_, rfl, fun row hrow hrowStore hchanged => ?_⟩
    rw [hstore, Except.ok.injEq] at hrowStore
    have hafter := (updatedAfter_iff_patched hempty h hclock hrow since).mpr
      (hpatched row hrow hrowStore.symm hchanged)
    exact ⟨_, List.mem_map_of_mem ((hselects.mem_iff hlimit).mpr
      ⟨hrow, hrowStore.symm, hafter⟩), rfl⟩

end Runs

/-! ### An order that is stored while the point of sale is away -/

/-- A worker stores the order. -/
def storeRun : List OrderLabel :=
  [.spawn 0 (.process seedPayload (seedJob 0)), .act 0 (.undisturbed 1), .act 0 (.undisturbed 2)]

/-- The same run, after which the point of sale accepts the order. -/
def storeAcceptRun : List OrderLabel :=
  storeRun ++ [.spawn 1 (.updateStatus seedOrderId .accepted), .act 1 (.undisturbed 3)]

theorem storeRuns_replay :
    ((orderSystem seedConfig).replay storeRun (Pool.init (World.init .seed))).isSome = true ∧
    ((orderSystem seedConfig).replay storeAcceptRun (Pool.init (World.init .seed))).isSome =
      true := by
  decide +kernel

/-- The pool once the order is stored. -/
def storedPool : OrderPool :=
  (orderSystem seedConfig).after storeRun (Pool.init (World.init .seed)) storeRuns_replay.1

/-- The pool once the point of sale has accepted it as well. -/
def storedAcceptedPool : OrderPool :=
  (orderSystem seedConfig).after storeAcceptRun (Pool.init (World.init .seed)) storeRuns_replay.2

/-- The steps of a run from the seed. -/
def storeMoves (ℓs : List OrderLabel) : List OrderMove :=
  (orderSystem seedConfig).moves ℓs (Pool.init (World.init .seed))

theorem storeMoves_clock :
    ClockIncreasing (storeMoves storeRun) ∧ ClockIncreasing (storeMoves storeAcceptRun) := by
  decide +kernel

/-- The equivalence once the order was accepted as well. -/
theorem missedOrders_complete_iff_accepted :
    ShowsMissed storedAcceptedPool.world.db (storeMoves storeAcceptRun) seedCommand.storeId 0 9 ↔
      ∀ row ∈ storedAcceptedPool.world.db.orders.rows,
        row.storeId = ⟨0x11111111111111111111111111111111⟩ →
        ChangedAfter 0 row.id (storeMoves storeAcceptRun) →
        PatchedAfter 0 row.id (storeMoves storeAcceptRun) :=
  missedOrders_complete_iff (fun _ => rfl)
    (.after (.of_forall (fun _ _ => trivial) _ _) storeRuns_replay.2) storeMoves_clock.2
    (by decide +kernel) (by decide +kernel)

/-- The order is in the table, it was created after 0, and nobody has patched it. -/
theorem storedPool_eq :
    (storedPool.world.db.orders.rows.map OrderRow.id) = [⟨7⟩] ∧
    (∀ row ∈ storedPool.world.db.orders.rows, uuidColumn seedCommand.storeId = .ok row.storeId) ∧
    ChangedAfter 0 ⟨7⟩ (storeMoves storeRun) ∧
    (storedPool.world.db.orders.rows.filter fun o => o.storeId =
      ⟨0x11111111111111111111111111111111⟩ && PublicController.updatedAfter 0 o) = [] := by
  decide +kernel

/-- **A new order is missed**: nobody stamps `updated_at` when it is stored. -/
theorem not_missedOrders_complete_of_stored :
    ¬ ∀ (config : AppConfig) (P₀ P : OrderPool) (past : List OrderMove) (storeId : String)
        (store : Uuid) (since now : Time),
      (∀ id, P₀.world.db.orders.find? id = none) →
      (orderSystem config).ReachesBy (fun _ _ => True) P₀ P past → ClockIncreasing past →
      uuidColumn storeId = .ok store →
      (P.world.db.orders.rows.filter fun o =>
        o.storeId = store && PublicController.updatedAfter since o).length ≤ 500 →
      ShowsMissed P.world.db past storeId since now := by
  intro h
  obtain ⟨hids, hstores, hchanged, hnone⟩ := storedPool_eq
  have hstore : uuidColumn seedCommand.storeId = .ok ⟨0x11111111111111111111111111111111⟩ := by
    decide +kernel
  -- the query answers with nothing, since the row's `updated_at` is empty
  have hselects := PublicController.selectsOrders_selectOrders storedPool.world.db
    ⟨0x11111111111111111111111111111111⟩ (PublicController.updatedAfter 0)
    (fun o => o.updatedAt.getD 0) 500
  obtain ⟨body, hbody, hshows⟩ := h seedConfig (Pool.init (World.init .seed)) storedPool
    (storeMoves storeRun) seedCommand.storeId ⟨0x11111111111111111111111111111111⟩ 0 9
    (fun _ => rfl) (.after (.of_forall (fun _ _ => trivial) _ _) storeRuns_replay.1)
    storeMoves_clock.1 hstore (by rw [hnone]; exact Nat.zero_le _)
    _ ((PublicController.listsOrders_iff hstore).mpr ⟨_, hselects, rfl⟩)
  obtain ⟨row, hrow, hid⟩ := List.mem_map.mp (hids ▸ List.mem_singleton_self (⟨7⟩ : Uuid))
  rw [← hid] at hchanged
  -- yet the order was stored after `since`, and so should be listed
  obtain ⟨order, horder, -⟩ := hshows row hrow (hstores row hrow) hchanged
  cases hbody
  obtain ⟨o, ho, -⟩ := List.mem_map.mp horder
  have hselected := hselects.mem ho
  have hmem : o ∈ storedPool.world.db.orders.rows.filter fun o => o.storeId =
      ⟨0x11111111111111111111111111111111⟩ && PublicController.updatedAfter 0 o :=
    List.mem_filter.mpr ⟨hselected.1, by simpa using hselected.2⟩
  rw [hnone] at hmem
  cases hmem

end ChickenOrder
