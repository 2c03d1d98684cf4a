import ChickenOrder.Services.MenuReads
import ChickenOrder.Services.OrderApi

/-!
# The menu cache and the table

Validations of commands run side by side, entries of the cache expire at any time, and the table
keeps its rows but not their order.  An entry is always the JSON of an answer of the table to a
valid command with the entry's key (`Cacheable`), and such a command asks for the same store and
the same menus, each as often.  So a validation that finds its menus in the cache has the result
it has without one, unless its items get to a menu whose price is `NaN`: JSON has made `null` of
it, and `new Decimal(null)` throws (`warm_eq_cold_iff`).

The proof has the shape of an assume-guarantee argument.  `warmReads` is the protocol of one
validation: if the cache and the table answer it so, it caches only entries and ends with the
right result.  `Warm` is the invariant of all of them; that the world answers so is
`Warm.allows`, and that a step keeps it is `Warm.step`.
-/

namespace ChickenOrder

open Interaction Interaction.Program CreateOrderService OrderController

/-- What happens between the calls: an entry of the cache expires, or a row moves to the end of its
table, as an `UPDATE` that changes nothing makes it. -/
inductive CacheStep
  | expire (key : String)
  | moveRow (n : ℕ)

/-- The key is gone, or the row stands behind the others. -/
def CacheStep.apply : CacheStep → World → Option World
  | .expire key, w => some ((Expiry.menuCache key).apply w)
  | .moveRow n, w => w.db.menus[n]?.map fun row =>
      { w with db := { w.db with menus := w.db.menus.eraseIdx n ++ [row] } }

/-- Validations of the bodies of `POST /api/v1/orders`, any number of them at once.  Everything
before and behind the validation is left out, as it touches neither menus nor the cache. -/
def validationSystem :
    System Op.Reply OrderError (String × List OrderItem) World Choice CreateOrderDto CacheStep where
  exec := Op.exec
  program := fun dto => validateAndEnrichItems (command dto)
  env := CacheStep.apply

/-- Validations of orders over one world. -/
abbrev ValidationPool := Pool Op.Reply OrderError (String × List OrderItem) World CreateOrderDto

/-- Bodies that break a decorator do not get to the service: the validation pipe answers them with
an error of its own. -/
def OnlyValid (ℓ : Label Choice CreateOrderDto CacheStep) (_ : ValidationPool) : Prop :=
  match ℓ with
  | .spawn _ dto => dto.Valid
  | _ => True

/-- The validation alone, with an empty cache: what the claim of a cache is measured against. -/
def coldResult (db : Database) (cmd : CreateOrderCommand) :
    Except OrderError (String × List OrderItem) :=
  (run Op.exec (fun _ => .undisturbed 0) (validateAndEnrichItems cmd) 0 (World.init db)).1

theorem coldResult_eq (db : Database) (cmd : CreateOrderCommand) :
    coldResult db cmd =
      db.findMenusByIds (cmd.items.map CommandItem.menuId) cmd.storeId >>= validateItems cmd := by
  obtain h | ⟨hlost, -⟩ :=
    @run_validateAndEnrichItems cmd (fun _ => .undisturbed 0) (World.init db)
  · exact h
  · exact absurd (fun _ => rfl) hlost

/-! ## Answers of the table -/

/-- The menus of the command, in some order.  The query has no `ORDER BY`. -/
def IsAnswer (db : Database) (cmd : CreateOrderCommand) (menus : List MenuInfo) : Prop :=
  ∃ rows, db.findMenusByIds (cmd.items.map CommandItem.menuId) cmd.storeId = .ok rows ∧
    menus.Perm rows

/-- **What an entry of the cache is**: the JSON of the answer to a valid command with its key. -/
def Cacheable (db : Database) (key : String) (menus : List MenuInfo) : Prop :=
  ∃ (dto : CreateOrderDto) (answer : List MenuInfo), dto.Valid ∧ key = menusKey (command dto) ∧
    IsAnswer db (command dto) answer ∧ menus = answer.map MenuInfo.throughJson

/-- The item loop, on the menus of the table, gets to one whose price is `NaN`.  An item before it
that is missing or not available ends the loop earlier, with the same error in both cases. -/
def MeetsNan (db : Database) (cmd : CreateOrderCommand) : Prop :=
  ∃ rows, db.findMenusByIds (cmd.items.map CommandItem.menuId) cmd.storeId = .ok rows ∧
    MeetsPrice .nan rows cmd.items

section Entries

variable {db : Database} {dto dto' : CreateOrderDto} {menus : List MenuInfo}

/-- The database reads the ids of a valid body. -/
theorem CreateOrderDto.Valid.reads (h : dto.Valid) :
    (∀ id ∈ (command dto).items.map CommandItem.menuId, ∃ u, uuidColumn id = .ok u) ∧
      ∃ u, uuidColumn (command dto).storeId = .ok u := by
  have hreads : ∀ {id}, matchesUuid id = true → ∃ u, uuidColumn id = .ok u := by
    intro id hid
    obtain ⟨u, hu⟩ := ofText?_of_matchesUuid hid
    exact ⟨u, uuidColumn_eq_ok_iff.mpr hu⟩
  refine ⟨fun id hid => ?_, hreads h.storeId⟩
  simp only [command, List.map_map, List.mem_map] at hid
  obtain ⟨item, hitem, rfl⟩ := hid
  exact hreads (h.items item hitem).menuId

/-- An entry has an answer to every valid command with its key.  The key is the store and the sorted
ids, and a UUID has no comma or colon in it that could blur them. -/
theorem Cacheable.answers (hvalid : dto.Valid) (h : Cacheable db (menusKey (command dto)) menus) :
    ∃ answer, IsAnswer db (command dto) answer ∧ menus = answer.map MenuInfo.throughJson := by
  obtain ⟨dto', answer, hvalid', hkey, ⟨rows', hfind', hperm'⟩, rfl⟩ := h
  have hids := perm_of_menuCacheKey_eq hvalid.reads.1 hvalid'.reads.1 hvalid.reads.2 hkey
  have hstore := storeId_of_menuCacheKey_eq hvalid.reads.1 hvalid.reads.2 hkey
  obtain ⟨rows, hfind, hperm⟩ := Database.findMenusByIds_perm (.refl _) hids.symm hfind'
  rw [← hstore] at hfind
  exact ⟨answer, ⟨rows, hfind, hperm'.trans hperm⟩, rfl⟩

/-- The map of an answer does not depend on the order of the rows. -/
theorem IsAnswer.lookupMenu_eq (hpk : (db.menus.map MenuRow.id).Nodup) {cmd : CreateOrderCommand}
    (h : IsAnswer db cmd menus) :
    ∃ rows, db.findMenusByIds (cmd.items.map CommandItem.menuId) cmd.storeId = .ok rows ∧
      lookupMenu menus = lookupMenu rows := by
  obtain ⟨rows, hfind, hperm⟩ := h
  exact ⟨rows, hfind, lookupMenu_perm (Database.nodup_findMenusByIds hpk hfind) hperm⟩

/-- **The result does not depend on the order of the rows.** The items are looked up in a map, and
ids are a primary key. -/
theorem IsAnswer.coldResult_eq (hpk : (db.menus.map MenuRow.id).Nodup) {cmd : CreateOrderCommand}
    (h : IsAnswer db cmd menus) : coldResult db cmd = validateItems cmd menus := by
  obtain ⟨rows, hfind, hlookup⟩ := h.lookupMenu_eq hpk
  rw [ChickenOrder.coldResult_eq, hfind, validateItems_congr hlookup]
  rfl

theorem IsAnswer.meetsNan_iff (hpk : (db.menus.map MenuRow.id).Nodup) {cmd : CreateOrderCommand}
    (h : IsAnswer db cmd menus) : MeetsNan db cmd ↔ MeetsPrice .nan menus cmd.items := by
  obtain ⟨rows, hfind, hlookup⟩ := h.lookupMenu_eq hpk
  unfold MeetsNan
  rw [hfind, meetsPrice_congr hlookup]
  simp only [Except.ok.injEq, exists_eq_left']

/-- No price of the table is `null`.  It may be `NaN`, and only the cache turns that into a `null`.
-/
theorem IsAnswer.not_meetsNull (hpk : (db.menus.map MenuRow.id).Nodup) {cmd : CreateOrderCommand}
    (h : IsAnswer db cmd menus) : ¬ MeetsPrice .null menus cmd.items := by
  obtain ⟨rows, hfind, hlookup⟩ := h.lookupMenu_eq hpk
  rw [meetsPrice_congr hlookup]
  have hprices : ∀ menu ∈ rows, menu.unitPrice ≠ .null := by
    by_cases hids : cmd.items.map CommandItem.menuId = []
    · rw [hids] at hfind
      cases hfind
      exact nofun
    · obtain ⟨us, s, -, -, rfl⟩ := Database.findMenusByIds_eq_ok hids hfind
      rw [List.forall_mem_map]
      intro menu _ hnull
      rw [MenuRow.info] at hnull
      cases hprice : menu.unitPrice with
      | none => simp [hprice, MenuPrice.ofColumn] at hnull
      | some q => simp [hprice, MenuPrice.ofColumn] at hnull
  clear hfind hlookup
  generalize cmd.items = items
  induction items with
  | nil => exact not_false
  | cons item rest ih =>
      rintro ⟨menu, hmenu, -, hnull | hrest⟩
      · exact hprices menu (mem_of_lookupMenu hmenu).1 hnull
      · exact ih hrest

/-- **What the cache makes of an answer is validated as the answer is**, exactly if no item gets to
`NaN`.  With it the total is `NaN`, which equals no amount: 422.  With `null` the constructor
throws: 503. -/
theorem IsAnswer.throughJson_iff (hpk : (db.menus.map MenuRow.id).Nodup) (hvalid : dto.Valid)
    (h : IsAnswer db (command dto) menus) :
    validateItems (command dto) menus =
        validateItems (command dto) (menus.map MenuInfo.throughJson) ↔
      ¬ MeetsNan db (command dto) := by
  rw [h.meetsNan_iff hpk]
  constructor
  · intro hsame hmeets
    rw [validateItems_of_meetsNull hmeets.throughJson] at hsame
    obtain ⟨q, hq⟩ := ofText?_of_isNumberString hvalid.totalAmount
    obtain hvalidation | ⟨hnull, -⟩ := validateItems_eq_error hq hsame
    · cases hvalidation
    · exact h.not_meetsNull hpk hnull
  · intro hmeets
    unfold validateItems
    rw [enrichItems_throughJson hmeets]

end Entries

/-! ## One validation among others -/

/-- A call of the thread has failed.  Such threads are left out, as the failure says nothing about
the cache. -/
def Disturbed (h : List OrderEvent) : Prop := ∃ e ∈ h, e.answer.isOk = false

/-- The thread has found its menus in the cache. -/
def FoundCached (h : List OrderEvent) : Prop :=
  ∃ key menus, (⟨.menuCacheGet key, .ok (some menus)⟩ : OrderEvent) ∈ h

/-- The result is that of the table's answer, or of what the cache has made of it. -/
def ResultOf (db : Database) (dto : CreateOrderDto) (h : List OrderEvent)
    (result : Except OrderError (String × List OrderItem)) : Prop :=
  ∃ answer, IsAnswer db (command dto) answer ∧
    ((FoundCached h ∧ result = validateItems (command dto) (answer.map MenuInfo.throughJson)) ∨
      ¬ FoundCached h ∧ result = validateItems (command dto) answer)

/-- The cache answers with an entry, the table with its rows in some order, and the result is that
of these menus.  `follows_warmReads` is about the program, `Warm.allows` about the world. -/
def warmReads (db : Database) :
    Protocol Op.Reply OrderError (String × List OrderItem) CreateOrderDto where
  admits := fun dto => dto.Valid
  allows := fun _ _ e =>
    match e with
    | ⟨.menuCacheGet key, .ok (some menus)⟩ => Cacheable db key menus
    | ⟨.findMenusByIds ids store, .ok menus⟩ =>
        ∃ rows, db.findMenusByIds ids store = .ok rows ∧ menus.Perm rows
    | _ => True
  issues := fun _ _ o =>
    match o with
    | .menuCacheSet key menus => Cacheable db key (menus.map MenuInfo.throughJson)
    | _ => True
  returns := fun dto h validated => ResultOf db dto h (.ok validated)
  throws := fun dto h e => ResultOf db dto h (.error e) ∨ Disturbed h

section Follows

variable {db : Database} {dto : CreateOrderDto}

/-- The last step, once the menus are there. -/
theorem follows_validateItems {menus answer : List MenuInfo} {h : List OrderEvent}
    (hanswers : IsAnswer db (command dto) answer)
    (hmenus : (FoundCached h ∧ menus = answer.map MenuInfo.throughJson) ∨
      ¬ FoundCached h ∧ menus = answer) : (warmReads db).Follows dto
      (match validateItems (command dto) menus with
        | .error e => Program.throw e
        | .ok validated => return validated) h := by
  have hresult : ResultOf db dto h (validateItems (command dto) menus) :=
    ⟨answer, hanswers, hmenus.imp (fun hcached => ⟨hcached.1, by rw [hcached.2]⟩)
      fun hread => ⟨hread.1, by rw [hread.2]⟩⟩
  cases hvalidated : validateItems (command dto) menus with
  | error e => exact .inl (hvalidated ▸ hresult)
  | ok validated => exact (hvalidated ▸ hresult :)

theorem follows_warmReads (hvalid : dto.Valid) :
    (warmReads db).Follows dto (validateAndEnrichItems (command dto)) [] := by
  have hfail : ∀ (o : Op) (e : OrderError) (h : List OrderEvent),
      Disturbed ((⟨o, .error e⟩ : OrderEvent) :: h) := fun o e h => ⟨_, List.mem_cons_self, rfl⟩
  unfold Protocol.Follows validateAndEnrichItems getMenusCached
  rw [wp_bind, wp_bind, wp_perform]
  refine ⟨trivial, ?_, ?_⟩
  swap
  · rintro e h ⟨-, rfl⟩
    exact .inr (hfail _ e _)
  -- a hit is the answer of the table after JSON; a miss asks the table and caches
  rintro cached h₁ ⟨hcached, rfl⟩
  cases cached with
  | some menus =>
      obtain ⟨answer, hanswers, hjson⟩ := Cacheable.answers hvalid hcached
      exact follows_validateItems hanswers (.inl ⟨⟨_, _, List.mem_cons_self⟩, hjson⟩)
  | none =>
      show Program.wp _ _ (Op.call (.findMenusByIds _ _) >>= fun menus => _) _ _ _
      rw [wp_bind, wp_perform]
      refine ⟨trivial, ?_, ?_⟩
      swap
      · rintro e h ⟨-, rfl⟩
        exact .inr (hfail _ e _)
      rintro menus h₂ ⟨hanswers, rfl⟩
      rw [wp_bind, wp_perform]
      refine ⟨⟨dto, menus, hvalid, rfl, hanswers, rfl⟩, ?_, ?_⟩
      · rintro - h₃ ⟨-, rfl⟩
        refine follows_validateItems hanswers (.inr ⟨?_, rfl⟩)
        rintro ⟨key, found, hmem⟩
        simp at hmem
      · rintro e h ⟨-, rfl⟩
        exact .inr (hfail _ e _)

end Follows

/-! ## All of them -/

/-- What every step keeps: entries of the cache are answers, the table has its rows, and every
thread has seen only such and goes on as it should. -/
structure Warm (db : Database) (P : ValidationPool) : Prop where
  cached : ∀ key menus, P.world.menuCache key = some menus → Cacheable db key menus
  rows : P.world.db.menus.Perm db.menus
  threads : ∀ i t, P.threads i = some t →
    t.request.Valid ∧ (warmReads db).Follows t.request t.rest t.hist

section Runs

variable {db : Database} {P P' : ValidationPool} {ℓ : Label Choice CreateOrderDto CacheStep}

/-- The cache and the table answer as the protocol has it. -/
theorem Warm.allows (h : Warm db P) (dto : CreateOrderDto) (hist : List OrderEvent) (o : Op)
    (c : Choice) : (warmReads db).allows dto hist ⟨o, (Op.exec o c P.world).1⟩ := by
  cases o with
  | menuCacheGet key =>
      cases hanswer : (Op.exec (.menuCacheGet key) c P.world).1 with
      | error e => trivial
      | ok cached =>
          cases cached with
          | none => trivial
          | some menus =>
              have heffect := Op.exec_eq_effect_of_ok hanswer
              rw [heffect] at hanswer
              exact h.cached key menus (Except.ok.inj hanswer)
  | findMenusByIds ids store =>
      cases hanswer : (Op.exec (.findMenusByIds ids store) c P.world).1 with
      | error e => trivial
      | ok menus =>
          have heffect := Op.exec_eq_effect_of_ok hanswer
          rw [heffect] at hanswer
          exact Database.findMenusByIds_perm h.rows (.refl _) hanswer
  | _ => trivial

theorem CacheStep.apply_spec {e : CacheStep} {w w' : World} (h : e.apply w = some w') :
    w'.db.menus.Perm w.db.menus ∧
      ∀ key menus, w'.menuCache key = some menus → w.menuCache key = some menus := by
  cases e with
  | expire key =>
      cases h
      refine ⟨.refl _, fun key' menus hcached => ?_⟩
      by_cases hkey : key' = key
      · subst hkey
        rw [show ((Expiry.menuCache key').apply w).menuCache key' = none
          from Function.update_self ..] at hcached
        cases hcached
      · exact (Function.update_of_ne hkey ..).symm.trans hcached
  | moveRow n =>
      obtain ⟨row, hrow, rfl⟩ := Option.map_eq_some_iff.mp h
      obtain ⟨hlt, rfl⟩ := List.getElem?_eq_some_iff.mp hrow
      refine ⟨?_, fun key menus hcached => hcached⟩
      exact List.perm_append_comm.trans (List.getElem_cons_eraseIdx_perm hlt)

/-- **One step.** A thread that caches an answer makes an entry of it; one that reads gets an entry
or the rows. -/
theorem Warm.step (h : Warm db P) (hok : OnlyValid ℓ P)
    (hstep : validationSystem.step ℓ P = some P') : Warm db P' := by
  refine ⟨fun key menus hcached => ?_, ?_, fun j u hu => ?_⟩
  · obtain ⟨i, dto, rfl, -, rfl⟩ | ⟨i, c, t, o, k, rfl, ht, hrest, rfl⟩ | ⟨e, w, rfl, hw, rfl⟩ :=
      validationSystem.step_cases hstep
    · exact h.cached key menus hcached
    · obtain hold | ⟨answer, rfl, rfl⟩ := Op.exec_menuCache hcached
      · exact h.cached key menus hold
      · -- what a validation caches is an answer, as it follows the protocol
        have hfollows := (h.threads i t ht).2
        rw [hrest] at hfollows
        exact hfollows.1
    · exact h.cached key menus ((CacheStep.apply_spec hw).2 key menus hcached)
  · obtain ⟨i, dto, rfl, -, rfl⟩ | ⟨i, c, t, o, k, rfl, ht, hrest, rfl⟩ | ⟨e, w, rfl, hw, rfl⟩ :=
      validationSystem.step_cases hstep
    · exact h.rows
    · have hmenus : (validationSystem.advance P i c t o k).world.db.menus = P.world.db.menus :=
        Op.exec_menus o c P.world
      rw [hmenus]
      exact h.rows
    · exact (CacheStep.apply_spec hw).1.trans h.rows
  · obtain hold | ⟨dto, rfl, rfl⟩ | ⟨c, t, o, k, rfl, ht, hrest, -, rfl⟩ :=
      validationSystem.step_threads hstep hu
    · exact h.threads j u hold
    · exact ⟨hok, follows_warmReads hok⟩
    · obtain ⟨hvalid, hfollows⟩ := h.threads j t ht
      rw [hrest] at hfollows
      exact ⟨hvalid, hfollows.answered (h.allows _ _ _ _)⟩

theorem warm_of_reaches
    (h : validationSystem.Reaches OnlyValid (Pool.init (World.init db)) P) : Warm db P := by
  refine System.Reaches.invariant (I := Warm db) ⟨?_, .refl _, ?_⟩ ?_ h
  · intro key menus hcached
    cases hcached
  · intro i t ht
    cases ht
  · exact fun P ℓ P' _ hwarm hok hstep => hwarm.step hok hstep

end Runs

/-- The thread has ended with this result. -/
def EndedWith (t : Thread Op.Reply OrderError (String × List OrderItem) CreateOrderDto) :
    Except OrderError (String × List OrderItem) → Prop
  | .ok validated => t.Returned validated
  | .error e => t.Threw e

/-- **When a warm cache gives the result of an empty one.** In every interleaving of validations of
valid bodies, with entries expiring at any time and an unchanged table, a validation none of whose
calls has failed ends as it does alone with an empty cache, exactly unless it has found its menus in
the cache and gets to one whose price is `NaN`; and bodies share an entry only if they have the same
store and the same menus, each as often. -/
theorem warm_eq_cold_iff (db : Database) (hpk : (db.menus.map MenuRow.id).Nodup) :
    (∀ P, validationSystem.Reaches OnlyValid (Pool.init (World.init db)) P →
      ∀ i t, P.threads i = some t → ¬ Disturbed t.hist → ∀ result, EndedWith t result →
        (coldResult db (command t.request) = result ↔
          ¬ (FoundCached t.hist ∧ MeetsNan db (command t.request)))) ∧
      ∀ dto dto' : CreateOrderDto, dto.Valid → dto'.Valid →
        menusKey (command dto) = menusKey (command dto') →
          dto.storeId = dto'.storeId ∧
            (dto.items.map OrderItemDto.menuId).Perm (dto'.items.map OrderItemDto.menuId) := by
  constructor
  · intro P h i t ht hkept result hended
    obtain ⟨hvalid, hfollows⟩ := (warm_of_reaches h).threads i t ht
    have hresult : ResultOf db t.request t.hist result := by
      cases result with
      | ok validated =>
          rw [show t.rest = .pure validated from hended] at hfollows
          exact hfollows
      | error e =>
          rw [show t.rest = .throw e from hended] at hfollows
          exact hfollows.resolve_right hkept
    obtain ⟨answer, hanswers, ⟨hcached, rfl⟩ | ⟨hread, rfl⟩⟩ := hresult
    · rw [hanswers.coldResult_eq hpk, hanswers.throughJson_iff hpk hvalid, not_and]
      exact ⟨fun hnan _ => hnan, fun hnan => hnan hcached⟩
    · exact iff_of_true (hanswers.coldResult_eq hpk) fun hmeets => hread hmeets.1
  · intro dto dto' hvalid hvalid' hkey
    have hids := perm_of_menuCacheKey_eq hvalid.reads.1 hvalid'.reads.1 hvalid.reads.2 hkey
    rw [command, command, List.map_map, List.map_map] at hids
    exact ⟨storeId_of_menuCacheKey_eq hvalid.reads.1 hvalid.reads.2 hkey, hids⟩

theorem warm_eq_cold_iff_seed :
    (∀ P, validationSystem.Reaches OnlyValid (Pool.init (World.init .seed)) P →
      ∀ i t, P.threads i = some t → ¬ Disturbed t.hist → ∀ result, EndedWith t result →
        (coldResult .seed (command t.request) = result ↔
          ¬ (FoundCached t.hist ∧ MeetsNan .seed (command t.request)))) ∧
      ∀ dto dto' : CreateOrderDto, dto.Valid → dto'.Valid →
        menusKey (command dto) = menusKey (command dto') →
          dto.storeId = dto'.storeId ∧
            (dto.items.map OrderItemDto.menuId).Perm (dto'.items.map OrderItemDto.menuId) :=
  warm_eq_cold_iff .seed (by decide)

/-! ### A price with a comma -/

/-- A price with a comma: `Number('18,000')` is `NaN`, and the column `NUMERIC` takes it. -/
def commaUpload : MenuUpload where
  storeId := "11111111-1111-1111-1111-111111111111"
  body := .object [("items", .array [.object [
    ("id", .string "aaaaaaaa-aaaa-aaaa-aaaa-aaaaaaaaaaaa"), ("name", .string "후라이드치킨"),
    ("price", .string "18,000")]])]
  uuids _ := ⟨0⟩

/-- The seed data after the upload. -/
def commaSeed : Database :=
  match MenuAdminController.saveMenus commaUpload .seed with
  | .ok db => db
  | .error _ => .seed

/-- An order of that menu. -/
def commaDto : CreateOrderDto where
  idempotencyKey := "key-1"
  storeId := "11111111-1111-1111-1111-111111111111"
  userId := none
  totalAmount := "18000"
  items := [⟨"aaaaaaaa-aaaa-aaaa-aaaa-aaaaaaaaaaaa", 1⟩]

/-- One order of it is validated, which caches the menu, and then another.  The first meets `NaN`
and the second `null`. -/
def commaRun : List (Label Choice CreateOrderDto CacheStep) :=
  .spawn 0 commaDto :: (List.replicate 3 (.act 0 (.undisturbed 0)) ++
    [.spawn 1 commaDto, .act 1 (.undisturbed 0)])

/-- The error a thread has ended with. -/
def failure? (t : Thread Op.Reply OrderError (String × List OrderItem) CreateOrderDto) :
    Option OrderError :=
  match t.rest with
  | .throw e => some e
  | _ => none

theorem endedWith_of_failure? {t : Thread Op.Reply OrderError (String × List OrderItem) CreateOrderDto}
    {e : OrderError} (h : failure? t = some e) : EndedWith t (.error e) := by
  unfold failure? at h
  split at h
  · rename_i hrest
    cases h
    exact hrest
  · cases h

theorem valid_commaDto : commaDto.Valid := by
  refine ⟨by decide, by decide, nofun, by decide, ?_⟩
  intro item hitem
  rw [List.mem_singleton.mp hitem]
  exact ⟨by decide, rfl, le_refl 1⟩

/-- **The second order fails otherwise than the first**, in the table that an upload has left: 422
for the one, 503 for the other. -/
theorem not_warm_eq_cold_of_nan :
    ¬ ∀ (upload : MenuUpload) (db : Database), MenuAdminController.saveMenus upload .seed = .ok db →
      ∀ P, validationSystem.Reaches OnlyValid (Pool.init (World.init db)) P →
        ∀ i t, P.threads i = some t → ¬ Disturbed t.hist → ∀ result, EndedWith t result →
          coldResult db (command t.request) = result := by
  intro h
  have hupload : MenuAdminController.saveMenus commaUpload .seed = .ok commaSeed := by
    have hok : (MenuAdminController.saveMenus commaUpload .seed).isOk = true := by decide +kernel
    unfold commaSeed
    cases hsave : MenuAdminController.saveMenus commaUpload .seed with
    | ok db => rfl
    | error e =>
        rw [hsave] at hok
        cases hok
  -- the second order finds the price as `null`, and its `Decimal` throws
  have hrun : ((validationSystem.replay commaRun (Pool.init (World.init commaSeed))).bind fun P =>
      P.threads 1).map (fun t => (failure? t, t.hist.all fun e => e.answer.isOk, t.request)) =
        some (some nullPrice, true, commaDto) := by
    decide +kernel
  obtain ⟨t, hbind, hended⟩ := Option.map_eq_some_iff.mp hrun
  obtain ⟨P, hP, ht⟩ := Option.bind_eq_some_iff.mp hbind
  simp only [Prod.mk.injEq, List.all_eq_true] at hended
  obtain ⟨hfailed, hanswered, hrequest⟩ := hended
  have hkept : ¬ Disturbed t.hist := by
    rintro ⟨e, he, hlost⟩
    rw [hanswered e he] at hlost
    cases hlost
  have hreaches : validationSystem.Reaches OnlyValid (Pool.init (World.init commaSeed)) P := by
    refine .of_replay (.of_mem (fun ℓ hℓ P => ?_) _) hP
    simp only [commaRun, List.replicate, List.cons_append, List.nil_append, List.mem_cons,
      List.not_mem_nil, or_false] at hℓ
    obtain rfl | rfl | rfl | rfl | rfl | rfl := hℓ
    all_goals first
      | exact valid_commaDto
      | exact trivial
  have hcold := h commaUpload commaSeed hupload P hreaches 1 t ht hkept _
    (endedWith_of_failure? hfailed)
  -- on the table's own answer the same order fails its validation
  have hmismatch : (coldResult commaSeed (command commaDto)).mapError OrderError.isValidationError =
      .error true := by
    decide +kernel
  rw [← hrequest, hcold] at hmismatch
  cases hmismatch

end ChickenOrder
