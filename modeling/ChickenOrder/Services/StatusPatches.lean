import ChickenOrder.Services.Calls

/-!
# Steps that write a status

`orderSystem_step_row` says what one step of the system does to the row of one order: a
repository call does one of its effects, or a `PATCH` statement overwrites the status and
stamps `updated_at`.  `Patches` names the latter, and where it is given the row is known.

This is the inversion lemma for statuses.  A claim about how a status can change is proved by
its cases: along the transition map with a new version, or past it with the old one.
-/

namespace ChickenOrder

open Interaction

/-- A step of the order system with the pools before and after it. -/
abbrev OrderMove := Move Op.Reply OrderError Outcome World Choice Request Expiry

/-- The step is a `PATCH` statement that takes effect: at `now` it finds the order as `row`
and writes `new`. -/
structure Patches (m : OrderMove) (id : Uuid) (row : OrderRow) (new : RowStatus) (now : Time) :
    Prop where
  statement : ∃ i c o, m.label = .act i c ∧ c.now = now ∧ c.fault.Within False True ∧
    m.label.call? m.before = some o ∧ o.WritesStatus id new
  finds : m.before.world.db.orders.find? id = some row

/-- A statement that finds its row overwrites it. -/
theorem Database.patchStatus_find? {db : Database} {text orderId : String} {id : Uuid}
    {row : OrderRow} {new : RowStatus} (hid : uuidColumn orderId = .ok id)
    (hrow : db.orders.find? id = some row) (hnew : RowStatus.ofText? text = some new) (now : Time) :
    ∃ rows db', db.patchStatus text orderId now = .ok (rows, db') ∧
      db'.orders.find? id = some (row.patched new now) := by
  unfold Database.patchStatus
  simp only [hid, textColumn_of_fits (fitsText_of_ofText? hnew), hrow, hnew]
  refine ⟨_, _, rfl, ?_⟩
  have hfind := Relational.Table.find?_modify_self db.orders id
    (fun row => row.patched new now) ⟨fun _ => rfl, fun _ => rfl⟩
  rw [hrow] at hfind
  exact hfind

section Steps

variable {config : AppConfig} {ℓ : OrderLabel} {P P' : OrderPool} {id : Uuid}

/-- After a `PATCH` the row is the patched one. -/
theorem Patches.after {row : OrderRow} {new : RowStatus} {now : Time}
    (h : Patches ⟨P, ℓ, P'⟩ id row new now) (hstep : (orderSystem config).step ℓ P = some P') :
    P'.world.db.orders.find? id = some (row.patched new now) := by
  obtain ⟨⟨i, c, o, rfl, rfl, hreached, hcall, text, orderId, rfl, hid, hnew⟩, hrow⟩ := h
  obtain ⟨t, k, ht, hrest⟩ := Label.thread_of_call? hcall
  obtain ⟨j, q, hℓ, -⟩ | ⟨j, c', t', o', k', hℓ, ht', hrest', rfl⟩ | ⟨e, w, hℓ, -⟩ :=
    (orderSystem config).step_cases hstep
  · cases hℓ
  · cases hℓ
    rw [ht, Option.some.injEq] at ht'
    subst ht'
    rw [hrest] at hrest'
    cases hrest'
    obtain ⟨rows, db', hpatch, hfind⟩ := Database.patchStatus_find? hid hrow hnew c.now
    show ((Op.exec (.patchStatus text orderId) c P.world).2).db.orders.find? id = _
    rw [Op.exec_world_of_within hreached]
    show (P.world.patchStatus text orderId c.now).2.db.orders.find? id = _
    unfold World.patchStatus
    rw [hpatch]
    exact hfind
  · cases hℓ

/-- **What one step of the system does to the row of one order**: a `PATCH` writes its status, any
other step keeps to the state machine. -/
theorem orderSystem_step_row (hstep : (orderSystem config).step ℓ P = some P') (id : Uuid) :
    P'.world.db.orders.find? id = P.world.db.orders.find? id ∨
    (∃ i c r, ℓ = .act i c ∧ RepoOp.RowEffect P.world.db c.now id r
      (P'.world.db.orders.find? id)) ∨
    ∃ row new now, Patches ⟨P, ℓ, P'⟩ id row new now := by
  obtain ⟨i, q, rfl, -, rfl⟩ | ⟨i, c, t, o, k, rfl, ht, hrest, rfl⟩ | ⟨e, w, rfl, hw, rfl⟩ :=
    (orderSystem config).step_cases hstep
  · exact .inl rfl
  · have hcall : (Label.act i c : OrderLabel).call? P = some o := Label.call?_act ht hrest c
    by_cases hreached : c.fault.Within False True
    · have heffect := o.exec_row c P.world id
      rw [show ((orderSystem config).advance P i c t o k).world = (o.exec c P.world).2 from rfl]
      generalize (Op.exec o c P.world).2.db.orders.find? id = r at heffect
      cases heffect with
      | same => exact .inl rfl
      | repo h => exact .inr (.inl ⟨i, c, _, rfl, h⟩)
      | patched hwrites hrow =>
          exact .inr (.inr ⟨_, _, _, ⟨i, c, o, rfl, rfl, hreached, hcall, hwrites⟩, hrow⟩)
    · refine .inl ?_
      show (Op.exec o c P.world).2.db.orders.find? id = _
      rw [Op.exec_world_of_not_within hreached]
  · cases hw
    refine .inl ?_
    show (e.apply P.world).db.orders.find? id = _
    rw [Expiry.apply_db]

end Steps

end ChickenOrder
