import ChickenOrder.Services.MenuReads

/-!
# Admitted orders and the current menu

`saveMenus` replaces the menus of a store and leaves the cache alone.  What a request is
validated with may be older than the menus: an entry of the cache, or an answer of the table
that the request has not cached yet.

`admittedMatch_of_keepsHeldMenus` is about runs in which no upload takes away, disables or
reprices an available menu that is held in one of these places: every order admitted in them
matches the menus of that moment.  `not_admittedMatch_of_soldOut` is a run with an upload
that does.

The invariant is `backedUnder_of_reaches`: whatever is held under a key has, for each of its
available menus, a row that can be ordered at the same price.  A request is validated with a
held answer or with one that it has just had, so that an admitted order inherits the property.
-/

namespace ChickenOrder

open Interaction Interaction.Program
open CreateOrderService MenuAdminController

/-- A step of the system with uploads. -/
abbrev CatalogLabel := Label Choice Request CatalogStep

/-- Such a step with the pools before and after it. -/
abbrev CatalogMove := Move Op.Reply OrderError Outcome World Choice Request CatalogStep

/-! ## Menus and what is held of them -/

/-- The store has an available menu of that id at that price. -/
def Lists (menus : List MenuRow) (storeId menuId : String) (unitPrice : ℚ) : Prop :=
  ∃ menu ∈ menus, menu.id.toText = menuId ∧ Uuid.ofText? storeId = some menu.storeId ∧
    menu.isAvailable = true ∧ menu.unitPrice = some unitPrice

instance (menus : List MenuRow) (storeId menuId : String) (unitPrice : ℚ) :
    Decidable (Lists menus storeId menuId unitPrice) := List.decidableBEx _ menus

/-- Whatever is available in an answer, at an amount, is listed in the table at that amount.  An
answer may leave menus out, and prices that are no amount are nobody's. -/
def Backs (menus : List MenuRow) (storeId : String) (answer : List MenuInfo) : Prop :=
  ∀ info ∈ answer, info.isAvailable = true → ∀ unitPrice, info.unitPrice = .amount unitPrice →
    Lists menus storeId info.id unitPrice

/-- An answer under the key of a request it is an answer to: its menus are backed, and only a
request whose ids the database can read has any. -/
def BackedUnder (menus : List MenuRow) (key : String) (answer : List MenuInfo) : Prop :=
  ∃ ids storeId, key = menuCacheKey ids storeId ∧ Backs menus storeId answer ∧
    (answer ≠ [] → (∀ id ∈ ids, ∃ u, uuidColumn id = .ok u) ∧ ∃ u, uuidColumn storeId = .ok u)

section Held

variable {menus : List MenuRow} {storeId : String} {answer : List MenuInfo}

theorem BackedUnder.backs {ids : List String}
    (h : BackedUnder menus (menuCacheKey ids storeId) answer) : Backs menus storeId answer := by
  obtain ⟨ids', storeId', hkey, hbacks, hread⟩ := h
  by_cases hnil : answer = []
  · rw [hnil]
    intro info hinfo
    cases hinfo
  · obtain ⟨hids, hstore⟩ := hread hnil
    rwa [storeId_of_menuCacheKey_eq hids hstore hkey.symm] at hbacks

/-- The table backs its own answers. -/
theorem backedUnder_of_findMenusByIds {db : Database} {ids : List String}
    (h : db.findMenusByIds ids storeId = .ok answer) :
    BackedUnder db.menus (menuCacheKey ids storeId) answer := by
  by_cases hids : ids = []
  · rw [hids] at h
    cases h
    exact ⟨ids, storeId, rfl, nofun, fun hne => absurd rfl hne⟩
  · obtain ⟨us, s, hus, hs, rfl⟩ := Database.findMenusByIds_eq_ok hids h
    refine ⟨ids, storeId, rfl, ?_, fun _ => ⟨?_, s, hs⟩⟩
    · intro info hinfo havailable unitPrice hprice
      obtain ⟨menu, hmenu, rfl⟩ := List.mem_map.mp hinfo
      obtain ⟨hmem, hselected⟩ := List.mem_filter.mp hmenu
      have hstore : menu.storeId = s := (of_decide_eq_true hselected).2
      exact ⟨menu, hmem, rfl, hstore ▸ uuidColumn_eq_ok_iff.mp hs, havailable,
        MenuPrice.ofColumn_eq_amount_iff.mp hprice⟩
    · intro id hid
      obtain ⟨i, hi, rfl⟩ := List.getElem_of_mem hid
      exact ⟨_, hus.get hi (hus.length_eq ▸ hi)⟩

/-- JSON keeps the amounts and adds none. -/
theorem backs_throughJson_iff :
    Backs menus storeId (answer.map MenuInfo.throughJson) ↔ Backs menus storeId answer := by
  unfold Backs
  rw [List.forall_mem_map]
  exact forall₂_congr fun info _ => forall_congr' fun _ => forall_congr' fun _ =>
    imp_congr_left MenuPrice.throughJson_eq_amount_iff

/-- What is backed is backed after it went through JSON. -/
theorem BackedUnder.throughJson {key : String} (h : BackedUnder menus key answer) :
    BackedUnder menus key (answer.map MenuInfo.throughJson) := by
  obtain ⟨ids, storeId, hkey, hbacks, hread⟩ := h
  exact ⟨ids, storeId, hkey, backs_throughJson_iff.mpr hbacks,
    fun hne => hread fun hnil => hne (by rw [hnil]; rfl)⟩

/-- Items validated with a backed answer are listed. -/
theorem lists_of_validateItems {cmd : CreateOrderCommand} {amount : String}
    {items : List OrderItem} (hbacks : Backs menus cmd.storeId answer)
    (h : validateItems cmd answer = .ok (amount, items)) :
    ∀ item ∈ items, Lists menus cmd.storeId item.menuId item.unitPrice := by
  obtain ⟨found, hfound, rfl, -⟩ := validateItems_eq_ok_iff.mp h
  clear h
  generalize cmd.items = ordered at hfound
  induction hfound with
  | nil => simp
  | cons hitem _ ih =>
      intro item hmem
      rw [List.zipWith_cons_cons, List.mem_cons] at hmem
      obtain rfl | hmem := hmem
      · obtain ⟨hlookup, havailable, unitPrice, hprice⟩ := hitem
        obtain ⟨hmenu, hid⟩ := mem_of_lookupMenu hlookup
        have hlists := hbacks _ hmenu havailable unitPrice hprice
        rw [hid] at hlists
        rw [enrich, hprice]
        exact hlists
      · exact ih item hmem

end Held

/-- The answer is cached under the key, or a request is about to cache it there.  In the second case
it is still read from the table, but may be older than it by the time it is cached. -/
def Holds (P : OrderPool) (key : String) (answer : List MenuInfo) : Prop :=
  P.world.menuCache key = some answer ∨
    ∃ i t menus, P.threads i = some t ∧ t.rest.next = some (.menuCacheSet key menus) ∧
      answer = menus.map MenuInfo.throughJson

/-! ## The condition on uploads -/

/-- An upload that commits has, for every available menu that is held of its store, a row
that can be ordered at the same price. -/
def KeepsHeldMenus (ℓ : CatalogLabel) (P : OrderPool) : Prop :=
  ∀ upload fault, ℓ = .env (.saveMenus upload fault) → Commits upload fault P.world.db →
    ∀ store rows, uploaded upload = .ok (store, rows) →
      ∀ ids storeId answer, Holds P (menuCacheKey ids storeId) answer →
        Uuid.ofText? storeId = some store → ∀ info ∈ answer, info.isAvailable = true →
          ∀ unitPrice, info.unitPrice = .amount unitPrice →
            ∃ row ∈ rows, row.id.toText = info.id ∧ row.isAvailable = true ∧
              row.unitPrice = some unitPrice

/-! ## Admission -/

/-- The order that the step admits: the thread it moves has validated its items with that
step, and publishes next. -/
def CatalogMove.admitted? (m : CatalogMove) : Option (CreateOrderCommand × List OrderItem) :=
  match m.label with
  | .act i _ =>
      (m.after.threads i).bind fun t =>
        match t.request, t.rest.next with
        | .createOrder cmd _, some (.mainQueueAdd data) => some (cmd, data.items)
        | _, _ => none
  | _ => none

/-- The step commits an upload for the store.  Whether its answer arrives does not matter. -/
def CatalogMove.Uploads (m : CatalogMove) (storeId : String) : Prop :=
  match m.label with
  | .env (.saveMenus upload fault) => Commits upload fault m.before.world.db ∧
      ∃ store ∈ Uuid.ofText? upload.storeId, Uuid.ofText? storeId = some store
  | _ => False

/-- **Every order admitted after an upload for its store matches the menus.**  The steps are
given last first. -/
def AdmittedMatch : List CatalogMove → Prop
  | [] => True
  | m :: earlier => AdmittedMatch earlier ∧
      ∀ admitted ∈ CatalogMove.admitted? m, (∃ u ∈ earlier, CatalogMove.Uploads u admitted.1.storeId) →
        ∀ item ∈ admitted.2,
          Lists m.after.world.db.menus admitted.1.storeId item.menuId item.unitPrice

instance (m : CatalogMove) (storeId : String) : Decidable (CatalogMove.Uploads m storeId) :=
  match m with
  | ⟨before, .env (.saveMenus upload fault), _⟩ =>
      inferInstanceAs (Decidable (Commits upload fault before.world.db ∧
        ∃ store ∈ Uuid.ofText? upload.storeId, Uuid.ofText? storeId = some store))
  | ⟨_, .env (.expire _), _⟩ => inferInstanceAs (Decidable False)
  | ⟨_, .spawn _ _, _⟩ => inferInstanceAs (Decidable False)
  | ⟨_, .act _ _, _⟩ => inferInstanceAs (Decidable False)

instance AdmittedMatch.decidable : (past : List CatalogMove) → Decidable (AdmittedMatch past)
  | [] => inferInstanceAs (Decidable True)
  | m :: earlier =>
      have := AdmittedMatch.decidable earlier
      inferInstanceAs (Decidable (AdmittedMatch earlier ∧
        ∀ admitted ∈ CatalogMove.admitted? m,
          (∃ u ∈ earlier, CatalogMove.Uploads u admitted.1.storeId) → ∀ item ∈ admitted.2,
            Lists m.after.world.db.menus admitted.1.storeId item.menuId item.unitPrice))

section Runs

variable {config : AppConfig} {ok : CatalogLabel → OrderPool → Prop} {P₀ P P' : OrderPool}
variable {ℓ : CatalogLabel}

/-- The step is one of a call that has just been validated. -/
theorem CatalogMove.admitted?_eq_some {m : CatalogMove}
    {admitted : CreateOrderCommand × List OrderItem} (h : m.admitted? = some admitted) :
    ∃ i c t ctx data, m.label = .act i c ∧ m.after.threads i = some t ∧
      t.request = .createOrder admitted.1 ctx ∧ t.rest.next = some (.mainQueueAdd data) ∧
      admitted.2 = data.items := by
  unfold admitted? at h
  split at h
  · rename_i i c hlabel
    obtain ⟨t, ht, hadmitted⟩ := Option.bind_eq_some_iff.mp h
    split at hadmitted
    · rename_i cmd ctx data hrequest hnext
      cases hadmitted
      exact ⟨i, c, t, ctx, data, hlabel, ht, hrequest, hnext, rfl⟩
    · cases hadmitted
  · cases h

/-- A call leaves the menus alone.  Only uploads write the table, and they are steps of their own.
-/
theorem menus_of_act {i : ℕ} {c : Choice} (h : (catalogSystem config).step (.act i c) P = some P') :
    P'.world.db.menus = P.world.db.menus := by
  obtain ⟨j, q, hℓ, -⟩ | ⟨j, c', t, o, k, hℓ, -, -, rfl⟩ | ⟨e, w, hℓ, -⟩ :=
    (catalogSystem config).step_cases h
  · cases hℓ
  · exact Op.exec_menus o c' P.world
  · cases hℓ

/-- Where a thread of a reachable pool is, the protocol of menus says what it knows. -/
theorem menuReads_of_reaches (hinit : ∀ i, P₀.threads i = none)
    (h : (catalogSystem config).Reaches ok P₀ P) {i : ℕ} {t : OrderThread}
    (ht : P.threads i = some t) {o : Op} (hnext : t.rest.next = some o) :
    menuReads.issues t.request t.hist o := by
  obtain ⟨-, hfollows⟩ := Protocol.follows_of_reaches respects_menuReads
    (fun q _ => follows_menuReads config q) hinit h i t ht
  cases hrest : t.rest with
  | pure a =>
      rw [hrest] at hnext
      cases hnext
  | throw e =>
      rw [hrest] at hnext
      cases hnext
  | call o' k =>
      rw [hrest] at hnext hfollows
      cases hnext
      exact hfollows.1

/-- A request that is about to cache an answer has just had it from the table. -/
theorem caching_of_reaches (hinit : ∀ i, P₀.threads i = none)
    (h : (catalogSystem config).Reaches ok P₀ P) {i : ℕ} {t : OrderThread}
    (ht : P.threads i = some t) {key : String} {answer : List MenuInfo}
    (hnext : t.rest.next = some (.menuCacheSet key answer)) :
    ∃ cmd h', key = menusKey cmd ∧ t.hist =
      (⟨.findMenusByIds (cmd.items.map CommandItem.menuId) cmd.storeId, .ok answer⟩ : OrderEvent) ::
        h' := by
  have hknows := menuReads_of_reaches hinit h ht hnext
  cases hrequest : t.request with
  | createOrder cmd ctx =>
      rw [hrequest] at hknows
      obtain ⟨hkey, h', hhist⟩ := hknows
      exact ⟨cmd, h', hkey, hhist⟩
  | _ =>
      rw [hrequest] at hknows
      exact absurd rfl (hknows key answer)

/-- **What is held after a step** was held before it, or the step has had it from the table.
Nothing else fills the cache. -/
theorem holds_of_step (hinit : ∀ i, P₀.threads i = none)
    (h : (catalogSystem config).Reaches ok P₀ P') (hstep : (catalogSystem config).step ℓ P = some P')
    {key : String} {answer : List MenuInfo} (hholds : Holds P' key answer) :
    Holds P key answer ∨ ∃ i c ids storeId menus, ℓ = .act i c ∧ key = menuCacheKey ids storeId ∧
      P.world.db.findMenusByIds ids storeId = .ok menus ∧
      answer = menus.map MenuInfo.throughJson := by
  -- the answer is in the cache, or a thread is about to put it there
  obtain hcached | ⟨j, u, menus, hu, hnext, rfl⟩ := hholds
  · left
    obtain ⟨i, q, rfl, -, rfl⟩ | ⟨i, c, t, o, k, rfl, ht, hrest, rfl⟩ | ⟨e, w, rfl, hw, rfl⟩ :=
      (catalogSystem config).step_cases hstep
    · exact .inl hcached
    · obtain hold | ⟨menus, rfl, rfl⟩ := Op.exec_menuCache hcached
      · exact .inl hold
      · exact .inr ⟨i, t, menus, ht, by rw [hrest]; rfl, rfl⟩
    · cases hw
      left
      cases e with
      | saveMenus upload fault => exact hcached
      | expire e =>
          cases e with
          | menuCache k =>
              by_cases hkey : key = k
              · subst hkey
                rw [show ((CatalogStep.expire (.menuCache key)).apply P.world).menuCache key = none
                  from Function.update_self ..] at hcached
                cases hcached
              · exact (Function.update_of_ne hkey ..).symm.trans hcached
          | _ => exact hcached
  · -- a thread that caches an answer has just had it from the table
    obtain ⟨cmd, h', rfl, hhist⟩ := caching_of_reaches hinit h hu hnext
    obtain hold | ⟨q, rfl, rfl⟩ | ⟨c, t, o, k, rfl, ht, hrest, -, rfl⟩ :=
      (catalogSystem config).step_threads hstep hu
    · exact .inl (.inr ⟨j, u, menus, hold, hnext, rfl⟩)
    · cases hhist
    · right
      obtain ⟨hevent, -⟩ := List.cons.inj hhist
      obtain ⟨rfl, hanswer⟩ := Event.mk.inj hevent
      refine ⟨j, c, _, _, menus, rfl, rfl, ?_, rfl⟩
      have hexec : (Op.exec (.findMenusByIds (cmd.items.map CommandItem.menuId) cmd.storeId) c
          P.world).1 = .ok menus := eq_of_heq hanswer
      have heffect := Op.exec_eq_effect_of_ok hexec
      rw [heffect] at hexec
      exact hexec

/-- What the menus back, they back after a step that keeps the held menus. -/
theorem backedUnder_of_step (hstep : (catalogSystem config).step ℓ P = some P')
    (hkeeps : KeepsHeldMenus ℓ P) {key : String} {answer : List MenuInfo}
    (hholds : Holds P key answer) (hbacked : BackedUnder P.world.db.menus key answer) :
    BackedUnder P'.world.db.menus key answer := by
  -- only an upload writes the menus, and the condition is about what it replaces
  obtain ⟨i, q, rfl, -, rfl⟩ | ⟨i, c, t, o, k, rfl, ht, hrest, rfl⟩ | ⟨e, w, rfl, hw, rfl⟩ :=
    (catalogSystem config).step_cases hstep
  · exact hbacked
  · rwa [menus_of_act hstep]
  · cases hw
    cases e with
    | expire e =>
        show BackedUnder (e.apply P.world).db.menus key answer
        rwa [Expiry.apply_db]
    | saveMenus upload fault =>
        obtain ⟨hcommits, store, rows, huploaded, hmenus⟩ | hsame :=
          apply_saveMenus_menus upload fault P.world
        · obtain ⟨ids, storeId, rfl, hbacks, hread⟩ := hbacked
          refine ⟨ids, storeId, rfl, ?_, hread⟩
          intro info hinfo havailable unitPrice hamount
          obtain ⟨menu, hmenu, hid, hstore, hmenuAvailable, hprice⟩ :=
            hbacks info hinfo havailable unitPrice hamount
          show Lists ((CatalogStep.saveMenus upload fault).apply P.world).db.menus _ _ _
          rw [hmenus]
          by_cases hsame : menu.storeId = store
          · -- the menu is replaced, by a row the condition provides
            subst hsame
            obtain ⟨row, hrow, hrowId, hrowAvailable, hrowPrice⟩ :=
              hkeeps upload fault rfl hcommits _ rows huploaded ids storeId answer hholds hstore info
                hinfo havailable unitPrice hamount
            have hrowStore : row.storeId = menu.storeId := (uploaded_storeId huploaded).2 row hrow
            exact ⟨row, List.mem_append_right _ hrow, hrowId, hrowStore ▸ hstore, hrowAvailable,
              hrowPrice⟩
          · exact ⟨menu, List.mem_append_left _ (List.mem_filter.mpr ⟨hmenu, by simpa using hsame⟩),
              hid, hstore, hmenuAvailable, hprice⟩
        · show BackedUnder ((CatalogStep.saveMenus upload fault).apply P.world).db.menus _ _
          rwa [hsame]

/-- **Held menus are backed** in every pool of such a run.  An upload is the only step that changes
menus, and it keeps those that are held. -/
theorem backedUnder_of_reaches (hinit : ∀ i, P₀.threads i = none)
    (hempty : ∀ key, P₀.world.menuCache key = none)
    (h : (catalogSystem config).Reaches KeepsHeldMenus P₀ P) :
    ∀ key answer, Holds P key answer → BackedUnder P.world.db.menus key answer := by
  refine System.Reaches.invariant
    (I := fun P => ∀ key answer, Holds P key answer → BackedUnder P.world.db.menus key answer)
    ?_ ?_ h
  · rintro key answer (hcached | ⟨i, t, -, ht, -⟩)
    · rw [hempty] at hcached
      cases hcached
    · rw [hinit] at ht
      cases ht
  · intro P ℓ P' hreach hbacked hkeeps hstep key answer hholds
    obtain hheld | ⟨i, c, ids, storeId, menus, rfl, rfl, hfind, rfl⟩ :=
      holds_of_step hinit (hreach.tail ⟨ℓ, hkeeps, hstep⟩) hstep hholds
    · exact backedUnder_of_step hstep hkeeps hheld (hbacked key answer hheld)
    · rw [menus_of_act hstep]
      exact (backedUnder_of_findMenusByIds hfind).throughJson

/-- **An admitted order matches the menus of that moment.** It was validated with what was held, or
with what the table has just answered. -/
theorem lists_of_admitted (hinit : ∀ i, P₀.threads i = none)
    (hempty : ∀ key, P₀.world.menuCache key = none)
    (h : (catalogSystem config).Reaches KeepsHeldMenus P₀ P)
    (hkeeps : KeepsHeldMenus ℓ P) (hstep : (catalogSystem config).step ℓ P = some P')
    {admitted : CreateOrderCommand × List OrderItem}
    (hadmitted : CatalogMove.admitted? ⟨P, ℓ, P'⟩ = some admitted) :
    ∀ item ∈ admitted.2,
      Lists P'.world.db.menus admitted.1.storeId item.menuId item.unitPrice := by
  obtain ⟨i, c, u, ctx, data, rfl, hu, hrequest, hnext, hitems⟩ :=
    CatalogMove.admitted?_eq_some hadmitted
  have hknows := menuReads_of_reaches hinit (h.tail ⟨_, hkeeps, hstep⟩) hu hnext
  rw [hrequest] at hknows
  obtain ⟨answer, amount, items, hsupplied, hvalid, rfl⟩ := hknows
  rw [menus_of_act hstep]
  obtain ⟨j, q, hℓ, -⟩ | ⟨j, c', t, o, k, hℓ, ht, hrest, rfl⟩ | ⟨e, w, hℓ, -⟩ :=
    (catalogSystem config).step_cases hstep
  · cases hℓ
  · cases hℓ
    rw [(catalogSystem config).advance_threads_self, Option.some.injEq] at hu
    subst hu
    have hheld := backedUnder_of_reaches hinit hempty h (menusKey admitted.1)
    -- the last call has found the answer in the cache, or was about to put it there
    have hbacks : Backs P.world.db.menus admitted.1.storeId answer := by
      obtain ⟨h', hhist⟩ | ⟨h', hhist⟩ := hsupplied
      · obtain ⟨rfl, hanswer⟩ := Event.mk.inj (List.cons.inj hhist).1
        have hexec : (Op.exec (.menuCacheGet (menusKey admitted.1)) c P.world).1 =
            .ok (some answer) := eq_of_heq hanswer
        have heffect := Op.exec_eq_effect_of_ok hexec
        rw [heffect] at hexec
        exact (hheld answer (.inl (Except.ok.inj hexec))).backs
      · obtain ⟨rfl, -⟩ := Event.mk.inj (List.cons.inj hhist).1
        exact backs_throughJson_iff.mp
          (hheld _ (.inr ⟨i, t, answer, ht, by rw [hrest]; rfl, rfl⟩)).backs
    rw [hitems]
    exact lists_of_validateItems hbacks hvalid
  · cases hℓ

/-- **Admitted orders match the current menu**, whatever requests and uploads interleave, in
every run in which no upload takes away, disables or reprices an available menu of its store
that is cached or about to be cached. -/
theorem admittedMatch_of_keepsHeldMenus {db : Database} {past : List CatalogMove}
    (h : (catalogSystem config).ReachesBy KeepsHeldMenus (Pool.init (World.init db)) P past) :
    AdmittedMatch past := by
  refine System.ReachesBy.invariant (I := fun _ past => AdmittedMatch past) trivial ?_ h
  intro P past ℓ P' hreach hpast hkeeps hstep
  refine ⟨hpast, fun admitted hadmitted _ => ?_⟩
  exact lists_of_admitted (fun _ => rfl) (fun _ => rfl) hreach.reaches hkeeps hstep hadmitted

end Runs

/-! ### A menu that is sold out, and one that gets a new price -/

/-- The first store's menus are replaced by one of them, at `price` or sold out. -/
def chickenUpload (price : String) (soldOut : Bool) : MenuUpload where
  storeId := "11111111-1111-1111-1111-111111111111"
  body := .object [("items", .array [.object [
    ("id", .string "aaaaaaaa-aaaa-aaaa-aaaa-aaaaaaaaaaaa"), ("name", .string "후라이드치킨"),
    ("price", .number price), ("soldOut", .bool soldOut)]])]
  uuids := fun n => ⟨n⟩

/-- A request for one chicken at `price`, and its first `calls` calls. -/
def chickenOrder (i : ℕ) (price : String) (calls : ℕ) : List CatalogLabel :=
  .spawn i (.createOrder
    { seedCommand with idempotencyKey := "key-" ++ toString i, requestedAmount := price }
    { seedContext with orderId := ⟨i⟩ }) ::
      List.replicate calls (.act i (.undisturbed 0))

/-- The price changes before anybody orders. -/
def repricedRun : List CatalogLabel :=
  .env (.saveMenus (chickenUpload "17000" false) .none) :: chickenOrder 0 "17000" 4

/-- One order is validated, the menu is sold out, and another order comes. -/
def soldOutRun : List CatalogLabel :=
  chickenOrder 0 "18000" 4 ++ .env (.saveMenus (chickenUpload "18000" true) .none) ::
    chickenOrder 1 "18000" 2

theorem repricedRun_replays :
    ((catalogSystem seedConfig).replay repricedRun (Pool.init (World.init .seed))).isSome = true ∧
    ((catalogSystem seedConfig).replay soldOutRun (Pool.init (World.init .seed))).isSome =
      true := by
  decide +kernel

/-- Before the first request nothing is held. -/
theorem repricedRun_admitted :
    (catalogSystem seedConfig).Admitted KeepsHeldMenus repricedRun
      (Pool.init (World.init .seed)) := by
  refine ⟨?_, fun P _ => .of_mem ?_ P⟩
  · rintro upload fault - - store rows - ids storeId answer (hcached | ⟨i, t, -, ht, -⟩)
    · cases hcached
    · cases ht
  · rintro ℓ hℓ P upload fault rfl
    obtain hspawn | hact := List.mem_cons.mp hℓ
    · cases hspawn
    · cases List.eq_of_mem_replicate hact

/-- The order of the first is admitted at the new price. -/
theorem admittedMatch_of_keepsHeldMenus_repriced :
    AdmittedMatch ((catalogSystem seedConfig).moves repricedRun (Pool.init (World.init .seed))) :=
  admittedMatch_of_keepsHeldMenus (.after repricedRun_admitted repricedRun_replays.1)

example : (((catalogSystem seedConfig).moves repricedRun (Pool.init (World.init .seed))).head?.bind
    CatalogMove.admitted?).map (fun admitted => admitted.2.map OrderItem.unitPrice) =
      some [17000] := by
  decide +kernel

/-- That of the second is admitted out of the cache. -/
theorem soldOutRun_not_admittedMatch :
    ¬ AdmittedMatch ((catalogSystem seedConfig).moves soldOutRun (Pool.init (World.init .seed))) := by
  decide +kernel

/-- **A sold-out menu is ordered**, out of the cache an earlier request has filled. -/
theorem not_admittedMatch_of_soldOut :
    ¬ ∀ (config : AppConfig) (db : Database) (P : OrderPool) (past : List CatalogMove),
      (catalogSystem config).ReachesBy (fun _ _ => True) (Pool.init (World.init db)) P past →
        AdmittedMatch past := by
  intro h
  exact soldOutRun_not_admittedMatch (h seedConfig .seed _ _
    (.after (.of_forall (fun _ _ => trivial) _ _) repricedRun_replays.2))

end ChickenOrder
