import ChickenOrder.Guarantees.OrderLists
import ChickenOrder.Services.CustomerList

/-!
# The customers of a store

`getCustomers` adds up, for each user, amounts that were written when the orders were stored.  Over
a whole run these sums are what the items of the user's orders cost, and who is missing from a full
list has not ordered since anyone on it.

The query sums up `calculated_amount`, a column; that the column is what the items cost is an
invariant of the tables in the run, which `ChickenOrder.Guarantees.Ledger` keeps.

The list is cut off at a hundred users.  Who is missing from a full list has last ordered no
later than anyone on it, but the sums say nothing about how much the missing ones have spent.
-/

namespace ChickenOrder

open Interaction Relational
open PublicController

/-- The orders of a store that count for a user: all that have neither failed nor been cancelled. -/
def PublicController.purchases (db : Database) (storeId : Uuid) (userId : Option Uuid) :
    List OrderRow :=
  db.orders.rows.filter fun o => isPurchase storeId o && decide (o.userId = userId)

/-- The entries are the latest customers of the store, each with the count, the cost and the time
of the last of their orders. -/
structure ShowsCustomers (db : Database) (storeId : Uuid) (entries : List CustomerEntry) : Prop where
  nodup : (entries.map CustomerEntry.userId).Nodup
  count : ∀ entry ∈ entries, 0 < entry.orderCount ∧
    entry.orderCount = (purchases db storeId entry.userId).length
  spent : ∀ entry ∈ entries, entry.totalSpent =
    ((purchases db storeId entry.userId).map fun o => itemsCost db o.id).sum
  last : ∀ entry ∈ entries, (∃ o ∈ purchases db storeId entry.userId, o.createdAt = entry.lastOrderAt) ∧
    ∀ o ∈ purchases db storeId entry.userId, o.createdAt ≤ entry.lastOrderAt
  sorted : entries.Pairwise fun entry entry' => entry'.lastOrderAt ≤ entry.lastOrderAt
  length : entries.length ≤ 100
  /-- Who is not shown has not ordered since anyone who is. -/
  rest : ∀ o ∈ db.orders.rows, isPurchase storeId o = true →
    o.userId ∉ entries.map CustomerEntry.userId →
      entries.length = 100 ∧ ∀ entry ∈ entries, o.createdAt ≤ entry.lastOrderAt
  /-- With fewer customers than fit, the list accounts for all orders. -/
  total : entries.length < 100 → (entries.map CustomerEntry.totalSpent).sum =
    ((db.orders.rows.filter (isPurchase storeId)).map fun o => itemsCost db o.id).sum

section Customers

variable {db : Database} {storeId : Uuid} {entries : List CustomerEntry}
variable {groups : List (Option Uuid × List OrderRow)} {g : Option Uuid × List OrderRow}

/-- The last order of a group. -/
theorem lastOrderAt_customerEntry (hg : g.2 ≠ []) :
    (∃ o ∈ g.2, o.createdAt = (customerEntry g).lastOrderAt) ∧
      ∀ o ∈ g.2, o.createdAt ≤ (customerEntry g).lastOrderAt := by
  have htimes : g.2.map OrderRow.createdAt ≠ [] := fun h => hg (List.map_eq_nil_iff.mp h)
  obtain ⟨last, hlast⟩ := Option.ne_none_iff_exists'.mp fun h => htimes (List.max?_eq_none_iff.mp h)
  have hentry : (customerEntry g).lastOrderAt = last := by
    show ((g.2.map OrderRow.createdAt).max?).getD 0 = last
    rw [hlast, Option.getD_some]
  obtain ⟨hmem, hle⟩ := List.max?_eq_some_iff.mp hlast
  rw [hentry]
  exact ⟨List.mem_map.mp hmem, fun o ho => hle _ (List.mem_map_of_mem ho)⟩

/-- **What the query shows**, of books that balance.  The sum of a group is taken over the amounts
of its orders, and the amount of an order is what its items cost. -/
theorem showsCustomers_of_selects (hbalanced : ∀ id, (db.recordOf id).Balanced)
    (h : SelectsCustomers db storeId entries) : ShowsCustomers db storeId entries := by
  obtain ⟨groups, hgroups, hwindow⟩ := h
  have hgroup : ∀ entry ∈ entries, ∃ g ∈ groups, entry = customerEntry g ∧
      g.2 = purchases db storeId entry.userId := by
    intro entry hentry
    obtain ⟨g, hg, rfl⟩ := List.mem_map.mp (hwindow.mem hentry).1
    exact ⟨g, hg, rfl, hgroups.rows_eq g hg⟩
  have hcost : ∀ os : List OrderRow, (∀ o ∈ os, o ∈ db.orders.rows) →
      (os.map OrderRow.calculatedAmount).sum = (os.map fun o => itemsCost db o.id).sum :=
    fun os hos => congrArg List.sum
      (List.map_congr_left fun o ho => calculatedAmount_eq_itemsCost (hos o ho) (hbalanced o.id))
  have husers : ((groups.map customerEntry).map CustomerEntry.userId).Nodup := by
    rw [List.map_map]
    exact hgroups.keys_nodup
  refine ⟨hwindow.nodup_map husers, ?_, ?_, ?_, ?_, ?_, ?_, ?_⟩
  · intro entry hentry
    obtain ⟨g, hg, rfl, hrows⟩ := hgroup entry hentry
    exact ⟨List.length_pos_iff.mpr (hgroups.nonempty g hg), congrArg List.length hrows⟩
  · intro entry hentry
    obtain ⟨g, hg, rfl, hrows⟩ := hgroup entry hentry
    rw [← hrows]
    refine hcost g.2 fun o ho => ?_
    rw [hrows] at ho
    exact List.mem_of_mem_filter ho
  · intro entry hentry
    obtain ⟨g, hg, rfl, hrows⟩ := hgroup entry hentry
    rw [← hrows]
    exact lastOrderAt_customerEntry (hgroups.nonempty g hg)
  · exact hwindow.sorted.imp fun hle => of_decide_eq_true hle
  · rw [hwindow.length_eq]
    exact min_le_left _ _
  · intro o ho hpurchase hout
    obtain ⟨g, ⟨hg, hmem⟩, -⟩ := hgroups.existsUnique ho hpurchase
    have hkey : o.userId = g.1 := hgroups.key_eq hg hmem
    have hhidden : customerEntry g ∉ entries := fun hin =>
      hout (List.mem_map.mpr ⟨customerEntry g, hin, hkey.symm⟩)
    obtain ⟨hfull, hlater⟩ := hwindow.le_of_not_mem (List.mem_map_of_mem hg) rfl hhidden
    refine ⟨hfull, fun entry hentry => ?_⟩
    exact ((lastOrderAt_customerEntry (hgroups.nonempty g hg)).2 o hmem).trans
      (of_decide_eq_true (hlater entry hentry))
  · intro hlt
    have hperm := (hwindow.isSelection hlt).perm
    rw [List.filter_eq_self.mpr fun _ _ => rfl] at hperm
    rw [(hperm.map CustomerEntry.totalSpent).sum_eq, List.map_map]
    exact (hgroups.sum_eq OrderRow.calculatedAmount).trans
      (hcost _ fun o ho => List.mem_of_mem_filter ho)

end Customers

/-- **The customers of a run.**  In every run that starts without orders and with conforming menus,
and in which workers work on jobs of the queue, the list of a store's customers shows the latest of
them, each with what the items of all their orders cost. -/
theorem customers_of_reaches {config : AppConfig} {P₀ P : OrderPool}
    (hinit : ∀ i, P₀.threads i = none) (hfresh : P₀.world.Fresh)
    (hmenus : ∀ menu ∈ P₀.world.db.menus, menu.Conforms)
    (h : (catalogSystem config).Reaches WorksOnQueue P₀ P) {text : String} (htext : text ≠ "")
    {entries : List CustomerEntry}
    (hreply : GetsCustomers P.world.db (some text) (.customers entries)) :
    ∃ storeId, uuidColumn text = .ok storeId ∧ ShowsCustomers P.world.db storeId entries := by
  have hpriced : ∀ data, HasPublished P data → data.Priced :=
    fun data hdata => (hdata.validated hinit hfresh hmenus h).priced
  have hstems := (hasPublished_of_reaches hinit hfresh.stemsFrom h).1
  have hgiven : truthyText? (some text) = some text := if_neg htext
  unfold GetsCustomers at hreply
  rw [hgiven] at hreply
  dsimp only at hreply
  cases hstore : uuidColumn text with
  | error e =>
      rw [hstore] at hreply
      cases hreply
  | ok storeId =>
      rw [hstore] at hreply
      obtain ⟨entries', hselects, heq⟩ := hreply
      cases heq
      exact ⟨storeId, rfl,
        showsCustomers_of_selects (fun id => (hstems.records id).balanced hpriced) hselects⟩

/-! ### A customer of the first seeded store -/

/-- A user. -/
def customerId : Uuid := ⟨0x22222222222222222222222222222222⟩

/-- The order of someone who has signed in. -/
def customerCommand : CreateOrderCommand :=
  { seedCommand with userId := some customerId.toText }

/-- The seeded order as that user's. -/
def customerPayload : OrderJobPayload := { seedPayload with userId := some customerId.toText }

/-- The API takes the order, and a worker completes it. -/
def customerRun : List CatalogLabel :=
  .spawn 0 (.createOrder customerCommand seedContext) ::
    List.replicate 7 (.act 0 (.undisturbed 0)) ++
    .spawn 1 (.process customerPayload (seedJob 0)) :: List.replicate 12 (.act 1 (.undisturbed 1))

theorem customerRun_replays : ((catalogSystem seedConfig).replay customerRun
    (Pool.init (World.init .seed))).isSome = true := by
  decide +kernel

theorem customerRun_admitted : (catalogSystem seedConfig).Admitted WorksOnQueue customerRun
    (Pool.init (World.init .seed)) :=
  .of_check (by decide +kernel)

/-- The pool once the order is stored. -/
def customerPool : OrderPool :=
  (catalogSystem seedConfig).after customerRun (Pool.init (World.init .seed)) customerRun_replays

theorem customers_of_reaches_customer : ∃ entries storeId,
    GetsCustomers customerPool.world.db (some seedCommand.storeId) (.customers entries) ∧
    (purchases customerPool.world.db storeId (some customerId)).map OrderRow.id = [⟨7⟩] ∧
    ShowsCustomers customerPool.world.db storeId entries := by
  have hstore : uuidColumn seedCommand.storeId = .ok ⟨0x11111111111111111111111111111111⟩ := by
    decide +kernel
  have hgiven : truthyText? (some seedCommand.storeId) = some seedCommand.storeId := by
    decide +kernel
  obtain ⟨groups, hgroups⟩ := exists_isGrouping customerPool.world.db.orders.rows
    (isPurchase ⟨0x11111111111111111111111111111111⟩) OrderRow.userId (.ofLinearOrder fun _ => ())
  obtain ⟨entries, hentries⟩ := exists_isWindow (groups.map customerEntry) (fun _ => true)
    latestCustomer 0 100
  have hreply : GetsCustomers customerPool.world.db (some seedCommand.storeId)
      (.customers entries) := by
    unfold GetsCustomers
    rw [hgiven]
    dsimp only
    rw [hstore]
    exact ⟨entries, ⟨groups, hgroups, hentries⟩, rfl⟩
  obtain ⟨storeId, hstoreId, hshows⟩ := customers_of_reaches (fun _ => rfl) World.fresh_seed
    Database.seed_conforms (.after customerRun_admitted customerRun_replays) (by decide) hreply
  cases hstore.symm.trans hstoreId
  exact ⟨entries, _, hreply, by decide +kernel, hshows⟩

end ChickenOrder
