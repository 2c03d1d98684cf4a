import ChickenOrder.Database.Transactions

/-!
# What one write can do to one order

`OrderChange` lists everything a single write can do to the row and the audit
rows of one order id.  Each writer is shown once to be one of these cases;
invariants about orders are then proved by cases on the change and never look
at a statement again.

Writes of the status column that bypass the transition (the `PATCH` handlers)
are a case of their own, restricted by a relation `writes` between the old and
the new status.  The repository's own calls never need it.

`RowEffect` is the finer list, of what becomes of one row by which call.  It is used where the
arguments of the call matter: who has inserted a row, or with which version it was moved.
-/

namespace ChickenOrder

open Interaction

/-- The statuses an audit row connects. -/
abbrev AuditEntry := Option RowStatus × RowStatus

/-- The audit rows of an order, in commit order, as pairs of statuses. -/
def Database.trail (db : Database) (id : Uuid) : List AuditEntry :=
  (db.transitions.filter fun t => t.orderId = id).map fun t => (t.fromStatus, t.toStatus)

namespace OrderRow

/-- Two versions of a row that agree on its keys, its version and its stamps.  They may differ in
everything that no status depends on. -/
structure SameRecord (row row' : OrderRow) : Prop where
  id : row'.id = row.id
  key : row'.idempotencyKey = row.idempotencyKey
  version : row'.version = row.version
  stamps : ∀ s, row'.stampOf s = row.stampOf s

end OrderRow

/-- What a write does to the order `id`.  `writes` are the statuses that may be written past the
state machine, which no method of the repository does. -/
inductive OrderChange (writes : RowStatus → RowStatus → Prop) (db db' : Database) (id : Uuid) : Prop
  /-- Neither the row nor its audit rows change. -/
  | untouched (hrow : db'.orders.find? id = db.orders.find? id) (htrail : db'.trail id = db.trail id)
  /-- A first row, `QUEUED` at version 0. -/
  | created (row : OrderRow) (hold : db.orders.find? id = none)
      (hnew : db'.orders.find? id = some row) (hstatus : row.status = .worker .queued)
      (hversion : row.version = 0) (hstamps : ∀ s, (row.stampOf s).isSome ↔ s = .queued)
      (htrail : db'.trail id = db.trail id ++ [(none, .worker .queued)])
  /-- A transition of the state machine, with its audit row. -/
  | moved (row row' : OrderRow) (s next : OrderStatus) (now : Time)
      (hold : db.orders.find? id = some row) (hnew : db'.orders.find? id = some row')
      (hstatus : row.status = .worker s) (hnext : next ∈ allowedTransitions s)
      (hstatus' : row'.status = .worker next) (hkey : row'.idempotencyKey = row.idempotencyKey)
      (hversion : row'.version = row.version + 1)
      (hstamps : ∀ v, row'.stampOf v = if next = v then some now else row.stampOf v)
      (htrail : db'.trail id = db.trail id ++ [(some (.worker s), .worker next)])
  /-- Other columns change. -/
  | annotated (row row' : OrderRow) (hold : db.orders.find? id = some row)
      (hnew : db'.orders.find? id = some row') (hsame : row.SameRecord row')
      (hstatus : row'.status = row.status) (htrail : db'.trail id = db.trail id)
  /-- The status is written without a transition. -/
  | patched (row row' : OrderRow) (hold : db.orders.find? id = some row)
      (hnew : db'.orders.find? id = some row') (hsame : row.SameRecord row')
      (hwrites : writes row.status row'.status) (htrail : db'.trail id = db.trail id)

namespace OrderChange

variable {writes : RowStatus → RowStatus → Prop} {db db' : Database} {id : Uuid}

theorem refl (db : Database) (id : Uuid) : OrderChange writes db db id := .untouched rfl rfl

/-- A change that is allowed is one that more is allowed of. -/
theorem mono {writes' : RowStatus → RowStatus → Prop} (hsub : ∀ a b, writes a b → writes' a b)
    (h : OrderChange writes db db' id) : OrderChange writes' db db' id := by
  cases h with
  | untouched hrow htrail => exact .untouched hrow htrail
  | created row hold hnew hstatus hversion hstamps htrail =>
      exact .created row hold hnew hstatus hversion hstamps htrail
  | moved row row' s next now hold hnew hstatus hnext hstatus' hkey hversion hstamps htrail =>
      exact .moved row row' s next now hold hnew hstatus hnext hstatus' hkey hversion hstamps htrail
  | annotated row row' hold hnew hsame hstatus htrail =>
      exact .annotated row row' hold hnew hsame hstatus htrail
  | patched row row' hold hnew hsame hwrites htrail =>
      exact .patched row row' hold hnew hsame (hsub _ _ hwrites) htrail

/-- **Rows persist**, with their key, and their version never goes back. -/
theorem persists (h : OrderChange writes db db' id) {row : OrderRow}
    (hfind : db.orders.find? id = some row) :
    ∃ row', db'.orders.find? id = some row' ∧ row'.idempotencyKey = row.idempotencyKey ∧
      row.version ≤ row'.version := by
  cases h with
  | untouched hrow htrail => exact ⟨row, hrow.trans hfind, rfl, Int.le_refl _⟩
  | created fresh hold => rw [hold] at hfind; cases hfind
  | moved old row' s next now hold hnew hstatus hnext hstatus' hkey hversion =>
      rw [hold] at hfind
      cases hfind
      exact ⟨row', hnew, hkey, by omega⟩
  | annotated old row' hold hnew hsame =>
      rw [hold] at hfind
      cases hfind
      exact ⟨row', hnew, hsame.key, Int.le_of_eq hsame.version.symm⟩
  | patched old row' hold hnew hsame =>
      rw [hold] at hfind
      cases hfind
      exact ⟨row', hnew, hsame.key, Int.le_of_eq hsame.version.symm⟩

/-- A key that is in use stays in use, by the same order.  This is why a second order with the key
is never inserted. -/
theorem findByKey?_persists (h : ∀ id, OrderChange writes db db' id) {key : String}
    {row : OrderRow} (hfind : db.findByKey? key = some row) :
    ∃ row', db'.findByKey? key = some row' ∧ row'.id = row.id := by
  obtain ⟨hkey, hrow⟩ := Database.findByKey?_eq_some_iff.mp hfind
  obtain ⟨row', hrow', hkey', -⟩ := (h row.id).persists hrow
  have hid := (Relational.Table.find?_eq_some_iff.mp hrow').2
  refine ⟨row', Database.findByKey?_eq_some_iff.mpr ⟨hkey.trans (congrArg _ hkey'.symm), ?_⟩, hid⟩
  rw [hid]
  exact hrow'

/-- **How a status can change.**  It stays, moves along the transition map, or is
written directly. -/
theorem status_cases (h : OrderChange writes db db' id) {row row' : OrderRow}
    (hfind : db.orders.find? id = some row) (hfind' : db'.orders.find? id = some row') :
    row'.status = row.status ∨
    (∃ s next, row.status = .worker s ∧ next ∈ allowedTransitions s ∧
      row'.status = .worker next) ∨
    writes row.status row'.status := by
  cases h with
  | untouched hrow htrail =>
      rw [hrow, hfind] at hfind'
      cases hfind'
      exact .inl rfl
  | created fresh hold => rw [hold] at hfind; cases hfind
  | moved old new s next now hold hnew hstatus hnext hstatus' =>
      rw [hold] at hfind
      rw [hnew] at hfind'
      cases hfind
      cases hfind'
      exact .inr (.inl ⟨s, next, hstatus, hnext, hstatus'⟩)
  | annotated old new hold hnew hsame hstatus =>
      rw [hold] at hfind
      rw [hnew] at hfind'
      cases hfind
      cases hfind'
      exact .inl hstatus
  | patched old new hold hnew hsame hwrites =>
      rw [hold] at hfind
      rw [hnew] at hfind'
      cases hfind
      cases hfind'
      exact .inr (.inr hwrites)

end OrderChange

/-! ## The writers -/

section Writers

variable {db db' : Database} {id : Uuid} {writes : RowStatus → RowStatus → Prop}

/-- An audit entry makes one order's trail longer. -/
theorem Database.trail_append {t : TransitionRow}
    (htransitions : db'.transitions = db.transitions ++ [t]) (id : Uuid) :
    db'.trail id =
      db.trail id ++ (if t.orderId = id then [(t.fromStatus, t.toStatus)] else []) := by
  unfold Database.trail
  rw [htransitions, List.filter_append, List.map_append]
  split
  · rename_i hid
    simp [hid]
  · rename_i hid
    simp [hid]

/-- `createOrder` inserts its order, or leaves every one as it is. -/
theorem orderChange_of_createOrder {p : CreateOrderParams} {now : Time} {inserted : Bool}
    (h : db.createOrder p now = .ok (inserted, db')) (id : Uuid) :
    OrderChange writes db db' id := by
  obtain ⟨-, rfl, -⟩ | ⟨-, row, hpk, huk, hrow, horders, htransitions, -⟩ :=
    Database.createOrder_eq_ok h
  · exact .refl db' id
  · have hproposes := Database.proposes_of_toRow hrow
    have hfind := Relational.Table.find?_insert db.orders row hpk huk id
    have htrail := Database.trail_append htransitions id
    by_cases hid : row.id = id
    · have hnone : db.orders.find? id = none :=
        Relational.Table.find?_eq_none_iff.mpr (hid ▸ hpk)
      rw [if_pos hid] at hfind
      have hpid : p.id = id := hproposes.id.symm.trans hid
      refine .created row hnone (horders ▸ hfind) hproposes.status hproposes.version
        hproposes.stamps ?_
      rw [htrail]
      simp [AuditParams.toRow, Database.CreateOrderParams.audit, hpid]
    · rw [if_neg hid] at hfind
      have hpid : p.id ≠ id := fun hp => hid (hproposes.id.trans hp)
      refine .untouched (horders ▸ hfind) ?_
      rw [htrail]
      simp [AuditParams.toRow, Database.CreateOrderParams.audit, hpid]

/-- `transitionStatus` moves its order along the state machine, or leaves every one as it is. -/
theorem orderChange_of_transitionStatus {p : TransitionParams} {now : Time}
    (h : db.transitionStatus p now = .ok db') (id : Uuid) : OrderChange writes db db' id := by
  obtain ⟨s, row, hexpected, hnext, hfind, hstatus, hversion, rfl⟩ :=
    Database.transitionStatus_eq_ok h
  have hkeeps := Database.transition_keepsKeys p now
  have htrail : ∀ db' : Database,
      db'.transitions = db.transitions ++ [(Database.TransitionParams.audit p).toRow now] →
      db'.trail id = db.trail id ++
        (if p.orderId = id then [(some p.expectedStatus, .worker p.nextStatus)] else []) :=
    fun db' h => Database.trail_append h id
  by_cases hid : p.orderId = id
  · subst hid
    refine .moved row (row.transition p now) s p.nextStatus now hfind ?_ hstatus hnext
      (row.transition_status p now) (row.transition_idempotencyKey p now)
      (row.transition_version p now) (row.transition_stampOf p now) ?_
    · show (db.orders.modify _ _ hkeeps).find? p.orderId = _
      rw [Relational.Table.find?_modify_self, hfind]
      rfl
    · rw [htrail _ rfl, if_pos rfl, hexpected]
  · refine .untouched ?_ ?_
    · exact Relational.Table.find?_modify_of_ne _ (Ne.symm hid) _ hkeeps
    · rw [htrail _ rfl, if_neg hid, List.append_nil]

/-- An update of other columns of one row. -/
theorem orderChange_of_modify {k : Uuid} {f : OrderRow → OrderRow}
    (hf : Relational.Table.KeepsKeys OrderRow.id OrderRow.idempotencyKey f)
    (hsame : ∀ row : OrderRow, row.SameRecord (f row)) (hstatus : ∀ row, (f row).status = row.status)
    (id : Uuid) :
    OrderChange writes db { db with orders := db.orders.modify k f hf } id := by
  by_cases hid : id = k
  · subst hid
    have hfind := Relational.Table.find?_modify_self db.orders id f hf
    cases hrow : db.orders.find? id with
    | none => exact .untouched (by rw [hrow] at hfind ⊢; exact hfind) rfl
    | some row =>
        rw [hrow] at hfind
        exact .annotated row (f row) hrow hfind (hsame row) (hstatus row) rfl
  · exact .untouched (Relational.Table.find?_modify_of_ne _ hid _ hf) rfl

/-- **Every repository call is one of the changes**, and none of them writes a status directly.
There is one case for each method. -/
theorem RepoOp.effect_change (o : RepoOp) (now : Time) (db : Database) (id : Uuid) :
    OrderChange writes db (o.effect now db).2 id := by
  cases o with
  | createOrder p =>
      show OrderChange writes db (settle db (db.createOrder p now)).2 id
      cases hresult : db.createOrder p now with
      | error e => exact .refl db id
      | ok result => exact orderChange_of_createOrder hresult id
  | transitionStatus p =>
      show OrderChange writes db (settle db (quietly (db.transitionStatus p now))).2 id
      cases hresult : db.transitionStatus p now with
      | error e => exact .refl db id
      | ok db' => exact orderChange_of_transitionStatus hresult id
  | findById orderId => exact .refl db id
  | markDlq orderId reason =>
      show OrderChange writes db (settle db (quietly (db.markDlq orderId reason now))).2 id
      cases hresult : db.markDlq orderId reason now with
      | error e => exact .refl db id
      | ok db' =>
          obtain ⟨-, rfl⟩ := Database.markDlq_eq_ok_iff.mp hresult
          exact orderChange_of_modify (f := fun row => row.sentToDlq reason now) _
            (fun row => ⟨rfl, rfl, rfl, fun s => by cases s <;> rfl⟩) (fun _ => rfl) id
  | incrementRetryCount orderId =>
      show OrderChange writes db (settle db (quietly (db.incrementRetryCount orderId))).2 id
      unfold Database.incrementRetryCount
      split
      · exact .refl db id
      · split
        · exact .refl db id
        · exact orderChange_of_modify (f := OrderRow.retried) _
            (fun row => ⟨rfl, rfl, rfl, fun s => by cases s <;> rfl⟩) (fun _ => rfl) id

/-- The same under faults. -/
theorem RepoOp.exec_change (o : RepoOp) (c : RepoChoice) (db : Database) (id : Uuid) :
    OrderChange writes db (o.exec c db).2 id :=
  Fault.apply_invariant (I := fun db' => OrderChange writes db db' id) (.refl db id)
    (o.effect_change c.now db id)

end Writers

/-! ## The row of an order -/

/-- `RowEffect db now id o r`: the call `o` at `now` can leave `r` as the row of `id`.
Finer than `OrderChange`: it names the call and the row it writes. -/
inductive RepoOp.RowEffect (db : Database) (now : Time) (id : Uuid) :
    RepoOp → Option OrderRow → Prop
  | same (o : RepoOp) : RowEffect db now id o (db.orders.find? id)
  | inserted {p : CreateOrderParams} {row : OrderRow} (hid : p.id = id)
      (hfree : db.orders.find? id = none) (hrow : p.toRow now = .ok row) :
      RowEffect db now id (.createOrder p) (some row)
  | moved {p : TransitionParams} {row : OrderRow} {s : OrderStatus} (hid : p.orderId = id)
      (hrow : db.orders.find? id = some row) (hexpected : p.expectedStatus = .worker s)
      (hstatus : row.status = .worker s) (hversion : row.version = p.currentVersion)
      (hnext : p.nextStatus ∈ allowedTransitions s) :
      RowEffect db now id (.transitionStatus p) (some (row.transition p now))
  | marked {reason : String} {row : OrderRow} (hrow : db.orders.find? id = some row) :
      RowEffect db now id (.markDlq id reason) (some (row.sentToDlq reason now))
  | retried {row : OrderRow} (hrow : db.orders.find? id = some row) :
      RowEffect db now id (.incrementRetryCount id) (some row.retried)

/-- The row of `id` after an update of the row of `k`. -/
theorem Database.find?_modify_cases (db : Database) {k : Uuid} {f : OrderRow → OrderRow}
    (hf : Relational.Table.KeepsKeys OrderRow.id OrderRow.idempotencyKey f) (id : Uuid) :
    (db.orders.modify k f hf).find? id = db.orders.find? id ∨
      k = id ∧ ∃ row, db.orders.find? id = some row ∧
        (db.orders.modify k f hf).find? id = some (f row) := by
  by_cases hid : id = k
  · subst hid
    have hfind := Relational.Table.find?_modify_self db.orders id f hf
    cases hrow : db.orders.find? id with
    | none =>
        rw [hrow] at hfind
        exact .inl hfind
    | some row =>
        rw [hrow] at hfind
        exact .inr ⟨rfl, row, rfl, hfind⟩
  · exact .inl (Relational.Table.find?_modify_of_ne _ hid _ hf)

/-- **Everything a repository call does to one row.** Invariants of rows are proved from this list
and not from the statements. -/
theorem RepoOp.effect_row (o : RepoOp) (now : Time) (db : Database) (id : Uuid) :
    RepoOp.RowEffect db now id o ((o.effect now db).2.orders.find? id) := by
  cases o with
  | createOrder p =>
      show RowEffect db now id _ ((settle db (db.createOrder p now)).2.orders.find? id)
      cases hresult : db.createOrder p now with
      | error e => exact .same _
      | ok result =>
          -- the key is used already, or the row is new under both unique columns
          obtain ⟨-, hdb, -⟩ | ⟨-, row, hpk, huk, hrow, horders, -, -⟩ :=
            Database.createOrder_eq_ok hresult
          · rw [settle_ok, hdb]
            exact .same _
          · have hproposes := Database.proposes_of_toRow hrow
            rw [settle_ok, horders, Relational.Table.find?_insert]
            by_cases hid : row.id = id
            · rw [if_pos hid]
              exact .inserted (hproposes.id.symm.trans hid)
                (Relational.Table.find?_eq_none_iff.mpr (hid ▸ hpk)) hrow
            · rw [if_neg hid]
              exact .same _
  | transitionStatus p =>
      show RowEffect db now id _
        ((settle db (quietly (db.transitionStatus p now))).2.orders.find? id)
      cases hresult : db.transitionStatus p now with
      | error e => exact .same _
      | ok db' =>
          -- the state machine has allowed the move and the version is the one that was read
          obtain ⟨s, row, hexpected, hnext, hrow, hstatus, hversion, rfl⟩ :=
            Database.transitionStatus_eq_ok hresult
          have hkeeps := Database.transition_keepsKeys p now
          show RowEffect db now id _ ((db.orders.modify p.orderId _ hkeeps).find? id)
          -- the row of `id` is the one that is updated, or another
          obtain hsame | ⟨rfl, row', hrow', hmoved⟩ := db.find?_modify_cases (k := p.orderId) hkeeps id
          · rw [hsame]
            exact .same _
          · rw [hrow, Option.some.injEq] at hrow'
            subst hrow'
            rw [hmoved]
            exact .moved rfl hrow hexpected hstatus hversion hnext
  | findById orderId => exact .same _
  | markDlq orderId reason =>
      show RowEffect db now id _
        ((settle db (quietly (db.markDlq orderId reason now))).2.orders.find? id)
      cases hresult : db.markDlq orderId reason now with
      | error e => exact .same _
      | ok db' =>
          obtain ⟨-, rfl⟩ := Database.markDlq_eq_ok_iff.mp hresult
          show RowEffect db now id _ ((db.orders.modify orderId (fun row => row.sentToDlq reason now)
            ⟨fun _ => rfl, fun _ => rfl⟩).find? id)
          obtain hsame | ⟨rfl, row, hrow, hmarked⟩ := db.find?_modify_cases (k := orderId)
            (f := fun row => row.sentToDlq reason now) ⟨fun _ => rfl, fun _ => rfl⟩ id
          · rw [hsame]
            exact .same _
          · rw [hmarked]
            exact .marked hrow
  | incrementRetryCount orderId =>
      show RowEffect db now id _
        ((settle db (quietly (db.incrementRetryCount orderId))).2.orders.find? id)
      unfold Database.incrementRetryCount
      split
      · exact .same _
      · split
        · exact .same _
        · show RowEffect db now id _ ((db.orders.modify orderId OrderRow.retried
            ⟨fun _ => rfl, fun _ => rfl⟩).find? id)
          obtain hsame | ⟨rfl, row, hrow, hretried⟩ := db.find?_modify_cases (k := orderId)
            (f := OrderRow.retried) ⟨fun _ => rfl, fun _ => rfl⟩ id
          · rw [hsame]
            exact .same _
          · rw [hretried]
            exact .retried hrow

end ChickenOrder
