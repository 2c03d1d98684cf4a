import ChickenOrder.Services.Areas

/-!
# Where an address is routed to

Takeout asks for an active store, but the query for a delivery's areas does not look at
`stores.is_active`.  An address is routed to an open store exactly if each active area of a
closed store that it names comes after one of an open store that it names as well.

What a delivery is routed to is the first row of a sorted join whose name is in the address.
The order is by `sort_order` and name only, so that the database chooses among equals: the
condition has to hold of whatever it chooses, and `shadowed_of_routesToOpen` finds the choice
that breaks it.
-/

namespace ChickenOrder

open Relational

namespace PublicController

/-- The address names the area: it contains the area's name, once the blanks around it are gone. -/
def Names (address : Option String) (area : AreaRow) : Prop :=
  includes (trim (address.getD "")) area.name = true

/-- The reply names an open store, and for a delivery an active area of it that the address names,
with none such before it.  Replies that route to no store are not restricted. -/
def RoutesToOpen (collation : Collation) (tables : AreaTables) (address type : Option String)
    (reply : AreaReply) : Prop :=
  ∀ storeId storeName areaName, reply = .ok storeId storeName areaName →
    ∃ store ∈ tables.stores, store.id = storeId ∧ store.isActive = true ∧
      (¬ IsTakeout address type →
        ∃ area ∈ tables.areas, area.name = areaName ∧ area.isActive = true ∧
          area.storeId = storeId ∧ Names address area ∧
          ∀ area' ∈ tables.areas, ∀ store' ∈ tables.stores, store'.id = area'.storeId →
            area'.isActive = true → store'.isActive = true →
            (bySortOrder collation).Precedes area' area → ¬ Names address area')

/-- Each active area of a closed store that the address names comes after one of an open store
that the address names. -/
def ClosedAreasShadowed (collation : Collation) (tables : AreaTables) (address : Option String) : Prop :=
  ∀ area ∈ tables.areas, ∀ store ∈ tables.stores, store.id = area.storeId →
    area.isActive = true → store.isActive = false → Names address area →
    ∃ area' ∈ tables.areas, ∃ store' ∈ tables.stores, store'.id = area'.storeId ∧
      area'.isActive = true ∧ store'.isActive = true ∧ Names address area' ∧
      (bySortOrder collation).Precedes area' area

section Resolution

variable {collation : Collation} {tables : AreaTables} {address type : Option String}
variable {reply : AreaReply}

/-- For takeout the query asks for an active store itself, which is the filter that the branch for
deliveries lacks. -/
theorem routesToOpen_of_takeout (htakeout : IsTakeout address type)
    (h : ResolvesArea collation tables address type reply) :
    RoutesToOpen collation tables address type reply := by
  obtain ⟨stores, rows, hstores, -, rfl⟩ := h
  intro storeId storeName areaName hok
  rw [resolveArea, if_pos htakeout] at hok
  cases hstore : stores with
  | nil =>
      rw [hstore] at hok
      cases hok
  | cons store rest =>
      rw [hstore] at hok
      cases hok
      obtain ⟨hmem, hactive⟩ := hstores.mem_iff.mp (hstore ▸ List.mem_cons_self)
      exact ⟨store, hmem, rfl, hactive, fun hdelivery => absurd htakeout hdelivery⟩

/-- What a delivery is routed to: a least one of the active areas that the address names.  What
`find` meets first in a sorted result is least in the order of the query. -/
theorem exists_first_of_ok {rows : List (AreaRow × AreaStoreRow)}
    (hrows : IsSelection tables.joined (fun row => row.1.isActive)
      (.comap Prod.fst (bySortOrder collation)) rows)
    {area : AreaRow} {store : AreaStoreRow}
    (hfind : rows.find? (fun row => includes (trim (address.getD "")) row.1.name) = some (area, store)) :
    area ∈ tables.areas ∧ store ∈ tables.stores ∧ store.id = area.storeId ∧ area.isActive = true ∧
      Names address area ∧
      ∀ area' ∈ tables.areas, ∀ store' ∈ tables.stores, store'.id = area'.storeId →
        area'.isActive = true → (bySortOrder collation).Precedes area' area → ¬ Names address area' := by
  obtain ⟨hmem, hactive, hnames, hleast⟩ := hrows.find?_eq_some hfind
  obtain ⟨harea, hstore, hid⟩ := AreaTables.mem_joined.mp hmem
  refine ⟨harea, hstore, hid, hactive, hnames, ?_⟩
  intro area' harea' store' hstore' hid' hactive' hprecedes hnames'
  have hle : (bySortOrder collation).le area area' = true :=
    hleast (area', store') (AreaTables.mem_joined.mpr ⟨harea', hstore', hid'⟩) hactive' hnames'
  rw [hprecedes] at hle
  cases hle

/-- If every closed area is shadowed, the first area in order is one of an open store. -/
theorem routesToOpen_of_shadowed (hdelivery : ¬ IsTakeout address type)
    (hshadowed : ClosedAreasShadowed collation tables address)
    (h : ResolvesArea collation tables address type reply) :
    RoutesToOpen collation tables address type reply := by
  obtain ⟨stores, rows, -, hrows, rfl⟩ := h
  intro storeId storeName areaName hok
  rw [resolveArea, if_neg hdelivery] at hok
  split at hok
  · cases hok
  · rename_i area store hfind
    cases hok
    obtain ⟨harea, hstore, hid, hactive, hnames, hfirst⟩ := exists_first_of_ok hrows hfind
    have hopen : store.isActive = true := by
      by_contra hclosed
      obtain ⟨area', harea', store', hstore', hid', hactive', -, hnames', hprecedes⟩ :=
        hshadowed area harea store hstore hid hactive ((Bool.not_eq_true _).mp hclosed) hnames
      exact hfirst area' harea' store' hstore' hid' hactive' hprecedes hnames'
    refine ⟨store, hstore, hid, hopen, fun _ => ⟨area, harea, rfl, hactive, rfl, hnames, ?_⟩⟩
    intro area' harea' store' hstore' hid' hactive' _ hprecedes
    exact hfirst area' harea' store' hstore' hid' hactive' hprecedes

/-- Conversely, an area that nothing shadows can come first, and some result of the query puts it
there. -/
theorem shadowed_of_routesToOpen (hdelivery : ¬ IsTakeout address type)
    (h : ∀ reply, ResolvesArea collation tables address type reply →
      RoutesToOpen collation tables address type reply) :
    ClosedAreasShadowed collation tables address := by
  intro area harea store hstore hid hactive hclosed hnames
  -- the query may return the area of the closed store before its equals
  obtain ⟨rows, ⟨first, firstStore⟩, hrows, hfind, horder⟩ :=
    exists_isSelection_find? (p := fun row => row.1.isActive)
      (q := fun row : AreaRow × AreaStoreRow => includes (trim (address.getD "")) row.1.name)
      (.comap Prod.fst (bySortOrder collation)) (AreaTables.mem_joined.mpr ⟨harea, hstore, hid⟩)
      hactive hnames
  obtain ⟨hfirst, hfirstStore, hfirstId, hfirstActive, hfirstNames, -⟩ := exists_first_of_ok hrows hfind
  have hreply : resolveArea address type
      (((tables.stores.filter AreaStoreRow.isActive).mergeSort
        (SortKey.ofLinearOrder AreaStoreRow.createdAt).le).take 1) rows =
      .ok first.storeId firstStore.name first.name := by
    rw [resolveArea, if_neg hdelivery, hfind]
  obtain ⟨openStore, hopenStore, hopenId, hopen, -⟩ :=
    h _ ⟨_, rows, isSelection_mergeSort _ _ _, hrows, hreply.symm⟩ _ _ _ rfl
  obtain rfl : openStore = firstStore :=
    AreaTables.store_unique hopenStore hfirstStore (hopenId.trans hfirstId.symm)
  rcases horder with heq | hprecedes
  · cases heq
    rw [hclosed] at hopen
    cases hopen
  · exact ⟨first, hfirst, openStore, hopenStore, hfirstId, hfirstActive, hopen, hfirstNames, hprecedes⟩

end Resolution

/-- **When an address is routed to an open store**, whatever the queries return: for takeout always,
and for a delivery exactly if the areas of closed stores are shadowed. -/
theorem routesToOpen_iff (collation : Collation) (tables : AreaTables) (address type : Option String) :
    (∀ reply, ResolvesArea collation tables address type reply →
      RoutesToOpen collation tables address type reply) ↔
    (¬ IsTakeout address type → ClosedAreasShadowed collation tables address) := by
  constructor
  · intro h hdelivery
    exact shadowed_of_routesToOpen hdelivery h
  · intro h reply hreply
    by_cases htakeout : IsTakeout address type
    · exact routesToOpen_of_takeout htakeout hreply
    · exact routesToOpen_of_shadowed htakeout (h htakeout) hreply

/-- A store that has closed, with its delivery area still active.  The two flags are columns of two
tables, and nothing ties them together. -/
def closedStore : AreaTables where
  stores := [⟨⟨1⟩, "홍대점", false, 0⟩]
  areas := [⟨⟨2⟩, "합정동", ⟨1⟩, true, 2⟩]
  stores_pkey := by simp
  areas_pkey := by simp
  areas_store_id_fkey := by simp

/-- **An address can be routed to a closed store.** The look-up of a delivery address asks for an
active area and never for an active store, so an address of the area above gets the store that has
closed. -/
theorem routed_to_closedStore :
    ¬ ∀ (collation : Collation) (tables : AreaTables) (address type : Option String) reply,
      ResolvesArea collation tables address type reply →
        RoutesToOpen collation tables address type reply := by
  intro h
  have hdelivery : ¬ IsTakeout (some "마포구 합정동 1-1") (some "delivery") := by decide +kernel
  have hnames : includes (trim "마포구 합정동 1-1") "합정동" = true := by decide +kernel
  obtain ⟨area', harea', store', hstore', -, -, hopen, -⟩ :=
    shadowed_of_routesToOpen hdelivery
      (h .codePoints closedStore (some "마포구 합정동 1-1") (some "delivery"))
      _ List.mem_cons_self _ List.mem_cons_self rfl rfl rfl hnames
  cases List.mem_singleton.mp hstore'
  cases hopen

end PublicController

end ChickenOrder
