import ChickenOrder.Guarantees.Storability
import ChickenOrder.Guarantees.WarmCache
import ChickenOrder.Services.Admission
import ChickenOrder.Values.LetterCase

/-!
# The letter case of UUIDs

The DTO takes UUIDs in either case and the database reads them alike, but menus are looked up,
cached and announced by text.  `sameOutcome_iff` compares the runs of a body and of one that is
spelled in other letters: they end alike exactly if nothing has been respelled, or both are
rejected for the same reason, or another request holds their key.

There are three places where a text is compared.  The map of menus is keyed by the ids that
Postgres prints, so an item in capitals is not found; the cache is keyed by the texts of the
body, so the two spellings have different entries; and the room of a store is named by the text,
so a respelled store id is announced to another room.  The first settles which
bodies are admitted, the third what is seen of those that are; the second can only matter
through a price of `NaN`, which the cache makes `null`.
-/

namespace ChickenOrder

open Interaction Interaction.Program
open CreateOrderService OrderController

/-! ## Bodies in other letters -/

section Letters

open Uuid

theorem matchesGroup_map_toLower (n : ℕ) (cs : List Char) :
    matchesGroup n (cs.map Char.toLower) = matchesGroup n cs := by
  unfold matchesGroup
  rw [← List.map_take, List.length_map, List.all_map]
  simp only [Function.comp_def, hexDigit?_toLower]

theorem matchesGroups_map_toLower (groups : List ℕ) (cs : List Char) :
    matchesGroups groups (cs.map Char.toLower) = matchesGroups groups cs := by
  induction groups generalizing cs with
  | nil => simp [matchesGroups]
  | cons n groups ih =>
      cases groups with
      | nil => simp [matchesGroups, matchesGroup_map_toLower, ← List.map_drop]
      | cons m groups =>
          rw [matchesGroups, matchesGroups, matchesGroup_map_toLower, ← List.map_drop]
          · congr 1
            cases cs.drop n with
            | nil => rfl
            | cons c rest =>
                have hhyphen := toLower_eq_iff (d := '-') (by simp) c
                by_cases hc : c = '-'
                · subst hc
                  exact ih rest
                · simp [hc, hhyphen]
          · simp
          · simp

theorem matchesUuid_of_sameLetters {s s' : String} (h : SameLetters s s') :
    matchesUuid s = matchesUuid s' := by
  unfold matchesUuid
  rw [← matchesGroups_map_toLower, h, matchesGroups_map_toLower]

end Letters

/-- The letters of a store id and of menu ids have changed case.  The other fields are compared as
texts everywhere, and stay. -/
structure CreateOrderDto.Recased (dto dto' : CreateOrderDto) : Prop where
  idempotencyKey : dto'.idempotencyKey = dto.idempotencyKey
  storeId : SameLetters dto.storeId dto'.storeId
  userId : dto'.userId = dto.userId
  totalAmount : dto'.totalAmount = dto.totalAmount
  items : List.Forall₂ (fun item item' => SameLetters item.menuId item'.menuId ∧
    item'.quantity = item.quantity) dto.items dto'.items

section Recased

variable {dto dto' : CreateOrderDto}

/-- The decorators take a body in either case: the regular expression for UUIDs ignores it. -/
theorem CreateOrderDto.Valid.recased (h : dto.Valid) (hrecased : dto.Recased dto') : dto'.Valid where
  length := by
    rw [hrecased.idempotencyKey]
    exact h.length
  storeId := (matchesUuid_of_sameLetters hrecased.storeId).symm.trans h.storeId
  userId := by
    rw [hrecased.userId]
    exact h.userId
  totalAmount := by
    rw [hrecased.totalAmount]
    exact h.totalAmount
  items := by
    intro item' hitem'
    obtain ⟨i, hi, rfl⟩ := List.getElem_of_mem hitem'
    have hi₀ : i < dto.items.length := hrecased.items.length_eq ▸ hi
    obtain ⟨hletters, hquantity⟩ := hrecased.items.get hi₀ hi
    have hvalid := h.items _ (List.getElem_mem hi₀)
    rw [List.get_eq_getElem, List.get_eq_getElem] at hletters hquantity
    exact ⟨(matchesUuid_of_sameLetters hletters).symm.trans hvalid.menuId, hquantity ▸ hvalid.isInt,
      hquantity ▸ hvalid.min⟩

/-- Ids as Postgres prints them are in one case, so two of them that differ in case only are the
same. -/
theorem IsCanonical.eq_of_sameLetters {id id' : String} (h : IsCanonical id) (h' : IsCanonical id')
    (hletters : SameLetters id id') : id' = id := by
  obtain ⟨u, rfl⟩ := h
  obtain ⟨v, rfl⟩ := h'
  have hsame := Uuid.ofText?_of_sameLetters hletters
  rw [Uuid.ofText?_toText, Uuid.ofText?_toText, Option.some.injEq] at hsame
  rw [hsame]

/-- A respelled body with the same store id and only ids as Postgres prints them is the same body.
-/
theorem CreateOrderDto.Recased.eq_of_canonical (h : dto.Recased dto') (hstore : dto'.storeId = dto.storeId)
    (hcanonical : ∀ item ∈ dto.items, IsCanonical item.menuId)
    (hcanonical' : ∀ item ∈ dto'.items, IsCanonical item.menuId) : dto' = dto := by
  have hitems : dto'.items = dto.items := by
    have hforall := h.items
    generalize dto.items = items at hforall hcanonical
    generalize dto'.items = items' at hforall hcanonical'
    induction hforall with
    | nil => rfl
    | @cons item item' rest rest' hitem _ ih =>
        have hid := (hcanonical item List.mem_cons_self).eq_of_sameLetters
          (hcanonical' item' List.mem_cons_self) hitem.1
        have hhead : item' = item := by
          obtain ⟨menuId, quantity⟩ := item
          obtain ⟨menuId', quantity'⟩ := item'
          exact congrArg₂ OrderItemDto.mk hid hitem.2
        rw [hhead, ih (fun i hi => hcanonical i (List.mem_cons_of_mem _ hi))
          fun i hi => hcanonical' i (List.mem_cons_of_mem _ hi)]
  obtain ⟨key, store, user, amount, items⟩ := dto
  obtain ⟨key', store', user', amount', items'⟩ := dto'
  obtain ⟨rfl, -, rfl, rfl, -⟩ := h
  exact congrArg₂ (fun store items => CreateOrderDto.mk _ store _ _ items) hstore hitems

end Recased

/-! ## What is seen of a request -/

/-- The status code of a failure.  Errors that are no HTTP exception are answered with 500. -/
def OrderError.status : OrderError → ℕ
  | .http status _ => status
  | _ => 500

/-- The room that a new order is announced to.  Its name is made of the store id as the body spells
it. -/
def SocketEvent.newOrderRoom? : SocketEvent → Option String
  | .newOrder storeId _ _ _ _ _ => some ("store:" ++ storeId)
  | .orderUpdated _ _ _ _ => none

/-- The reply or its status code, the calculated amounts and the menu ids that are stored of the
jobs it has added, and the rooms it has announced an order to.  Menu ids are compared as the UUIDs
that Postgres reads. -/
structure RequestOutcome where
  reply : Except ℕ CreateOrderResult
  calculatedAmounts : List String
  menuIds : List (List (Option Uuid))
  rooms : List String
  deriving DecidableEq

/-- What can be told of an execution: its answer, and what it has put on the queue and announced. -/
def requestOutcome (w : World) (ended : Except OrderError CreateOrderResult × World) :
    RequestOutcome where
  reply := ended.1.mapError OrderError.status
  calculatedAmounts :=
    (ended.2.mainQueue.drop w.mainQueue.length).map fun job => job.data.calculatedAmount
  menuIds := (ended.2.mainQueue.drop w.mainQueue.length).map fun job =>
    job.data.items.map fun item => Uuid.ofText? item.menuId
  rooms := (ended.2.socket.drop w.socket.length).filterMap SocketEvent.newOrderRoom?

/-- What is seen of `POST /api/v1/orders`. -/
def createOutcome (choices : ℕ → Choice) (dto : CreateOrderDto) (ctx : ApiContext) (w : World) :
    RequestOutcome :=
  requestOutcome w (run Op.exec choices (OrderController.create dto ctx) 0 w)

/-- The menus that a body is validated with have its items, and its amount is their total.  They are
those of the cache if it has the key. -/
def Admissible (w : World) (dto : CreateOrderDto) : Prop :=
  ∃ enrichedItems, Admits w (command dto) enrichedItems

/-- The item loop, on the menus that a body is validated with, ends at a price that the cache has
made `null` of `NaN`: this is no validation error. -/
def MeetsNullPrice (w : World) (dto : CreateOrderDto) : Prop :=
  ∃ menus, menusFor w (command dto) = .ok menus ∧ MeetsPrice .null menus (command dto).items

section Outcome

variable {w : World} {dto : CreateOrderDto} {ctx : ApiContext} {choices : ℕ → Choice}

theorem CreateOrderDto.finite_command (dto : CreateOrderDto) :
    ∀ item ∈ (command dto).items, ∃ q, item.quantity = .finite q := by
  intro item hitem
  obtain ⟨itemDto, -, rfl⟩ := List.mem_map.mp hitem
  exact ⟨_, rfl⟩

/-- A valid body has menus to be validated with. -/
theorem menusFor_of_valid (h : dto.Valid) (w : World) : ∃ menus, menusFor w (command dto) = .ok menus := by
  unfold menusFor
  split
  · exact ⟨_, rfl⟩
  · obtain ⟨us, hus⟩ := exists_forall₂ h.reads.1
    obtain ⟨s, hs⟩ := h.reads.2
    exact Database.findMenusByIds_of_ok us hus hs

/-- The job of a body that is admitted with these items, if its id is new. -/
def newJobs (w : World) (dto : CreateOrderDto) (ctx : ApiContext) (enrichedItems : List OrderItem) :
    List Job :=
  (w.mainQueueAdd (payload (command dto) ctx (Decimal.toFixed2 (roundedTotal enrichedItems))
    enrichedItems)).mainQueue.drop w.mainQueue.length

/-- **What is seen of an admissible body**: it is answered with its order, one job is added, and the
store's room is told. -/
theorem createOutcome_of_admits (hquiet : Quiet choices)
    (hfree : w.idempotency (IdempotencyService.pendingKey dto.idempotencyKey) = none)
    {enrichedItems : List OrderItem} (h : Admits w (command dto) enrichedItems) :
    createOutcome choices dto ctx w = {
      reply := .ok (result ctx)
      calculatedAmounts := (newJobs w dto ctx enrichedItems).map fun job => job.data.calculatedAmount
      menuIds := (newJobs w dto ctx enrichedItems).map fun job =>
        job.data.items.map fun item => Uuid.ofText? item.menuId
      rooms := ["store:" ++ dto.storeId] } := by
  obtain ⟨hok, hqueue, now, hsocket⟩ := run_execute_of_ok ctx hquiet hfree
    ((validated_iff_admits dto.finite_command).mpr ⟨h, rfl⟩)
  unfold createOutcome requestOutcome OrderController.create newJobs
  rw [hok, hqueue, hsocket, List.drop_left]
  rfl

/-- What is seen of a body whose validation fails. -/
theorem createOutcome_of_invalid (hquiet : Quiet choices)
    (hfree : w.idempotency (IdempotencyService.pendingKey dto.idempotencyKey) = none)
    {err : OrderError}
    (h : menusFor w (command dto) >>= validateItems (command dto) = .error err) :
    createOutcome choices dto ctx w =
      ⟨.error (if err.isValidationError then 422 else 503), [], [], []⟩ := by
  obtain ⟨herror, hqueue, hsocket⟩ := run_execute_of_error ctx hquiet hfree h
  unfold createOutcome requestOutcome OrderController.create
  rw [herror, hqueue, hsocket, List.drop_length, List.drop_length, rejection]
  split <;> rfl

/-- **What is seen of a valid body that is not admissible**: 422 and nothing else.  Which of the
validation errors it is does not show in the status. -/
theorem createOutcome_of_not_admissible (hquiet : Quiet choices)
    (hfree : w.idempotency (IdempotencyService.pendingKey dto.idempotencyKey) = none)
    (hvalid : dto.Valid) (h : ¬ Admissible w dto) (hnull : ¬ MeetsNullPrice w dto) :
    createOutcome choices dto ctx w = ⟨.error 422, [], [], []⟩ := by
  cases hvalidated : menusFor w (command dto) >>= validateItems (command dto) with
  | ok validated =>
      exact absurd ⟨validated.2, ((validated_iff_admits dto.finite_command).mp hvalidated).1⟩ h
  | error err =>
      obtain ⟨menus, hmenus⟩ := menusFor_of_valid hvalid w
      obtain ⟨q, hq⟩ := ofText?_of_isNumberString hvalid.totalAmount
      have hitems : validateItems (command dto) menus = .error err := by
        rw [hmenus] at hvalidated
        exact hvalidated
      obtain herr | ⟨hmeets, -⟩ := validateItems_eq_error hq hitems
      · rw [createOutcome_of_invalid hquiet hfree hvalidated, if_pos herr]
      · exact absurd ⟨menus, hmenus, hmeets⟩ hnull

theorem validated_of_meetsNull (h : MeetsNullPrice w dto) :
    menusFor w (command dto) >>= validateItems (command dto) = .error nullPrice := by
  obtain ⟨menus, hmenus, hmeets⟩ := h
  rw [hmenus]
  exact validateItems_of_meetsNull hmeets

/-- What is seen of one that gets to such a price: `new Decimal(null)` throws inside the validation,
which is answered with 503. -/
theorem createOutcome_of_meetsNull (hquiet : Quiet choices)
    (hfree : w.idempotency (IdempotencyService.pendingKey dto.idempotencyKey) = none)
    (h : MeetsNullPrice w dto) : createOutcome choices dto ctx w = ⟨.error 503, [], [], []⟩ :=
  createOutcome_of_invalid hquiet hfree (validated_of_meetsNull h)

/-- A body that meets a `null` is not admissible: the item loop ends at the `null` and never gets to
a total. -/
theorem MeetsNullPrice.not_admissible (h : MeetsNullPrice w dto) : ¬ Admissible w dto := by
  rintro ⟨enrichedItems, hadmits⟩
  have hvalidated := (validated_iff_admits dto.finite_command).mpr ⟨hadmits, rfl⟩
  rw [validated_of_meetsNull h] at hvalidated
  cases hvalidated

/-- What is seen of a body whose key is held. -/
theorem createOutcome_of_held (hquiet : Quiet choices)
    (hheld : w.idempotency (IdempotencyService.pendingKey dto.idempotencyKey) ≠ none) :
    createOutcome choices dto ctx w =
      ⟨(heldReply (command dto) w).mapError OrderError.status, [], [], []⟩ := by
  unfold createOutcome requestOutcome OrderController.create
  rw [run_execute_of_held ctx hquiet hheld, List.drop_length, List.drop_length]
  rfl

/-- What is seen of a valid body is settled by the world.  The choices only decide times and lost
calls, and there are none of the latter. -/
theorem createOutcome_congr {choices' : ℕ → Choice} (hquiet : Quiet choices)
    (hquiet' : Quiet choices') (hvalid : dto.Valid) :
    createOutcome choices dto ctx w = createOutcome choices' dto ctx w := by
  by_cases hfree : w.idempotency (IdempotencyService.pendingKey dto.idempotencyKey) = none
  · by_cases hadmissible : Admissible w dto
    · obtain ⟨enrichedItems, hadmits⟩ := hadmissible
      rw [createOutcome_of_admits hquiet hfree hadmits, createOutcome_of_admits hquiet' hfree hadmits]
    · by_cases hnull : MeetsNullPrice w dto
      · rw [createOutcome_of_meetsNull hquiet hfree hnull,
          createOutcome_of_meetsNull hquiet' hfree hnull]
      · rw [createOutcome_of_not_admissible hquiet hfree hvalid hadmissible hnull,
          createOutcome_of_not_admissible hquiet' hfree hvalid hadmissible hnull]
  · rw [createOutcome_of_held hquiet hfree, createOutcome_of_held hquiet' hfree]

end Outcome

/-! ## Two runs -/

/-- The ids of cached menus are as Postgres prints them.  They got there from the database, under
whatever spelling they were asked for. -/
def CanonicalCache (w : World) : Prop :=
  ∀ key menus, w.menuCache key = some menus → ∀ info ∈ menus, IsCanonical info.id

section TwoRuns

variable {w : World} {dto dto' : CreateOrderDto} {ctx : ApiContext} {choices choices' : ℕ → Choice}

/-- What is cached has come from the table, in every run, and so with ids as Postgres prints them.
-/
theorem canonicalCache_of_reaches {config : AppConfig} {ok : CatalogLabel → OrderPool → Prop}
    {db₀ : Database} {P : OrderPool} (hmenus : ∀ menu ∈ db₀.menus, menu.Conforms)
    (h : (catalogSystem config).Reaches ok (Pool.init (World.init db₀)) P) : CanonicalCache P.world :=
  fun key menus hcached info hinfo =>
    ((conforms_of_reaches (fun _ => rfl) (fun _ => rfl) hmenus h).held key menus (.inl hcached)
      info hinfo).id

theorem CanonicalCache.menusFor (hcache : CanonicalCache w) {cmd : CreateOrderCommand}
    {menus : List MenuInfo} (hmenus : menusFor w cmd = .ok menus) :
    ∀ info ∈ menus, IsCanonical info.id := by
  unfold CreateOrderService.menusFor at hmenus
  split at hmenus
  · rename_i cached hcached
    cases hmenus
    exact hcache _ _ hcached
  · exact isCanonical_of_findMenusByIds hmenus

/-- **A menu is found under its id as Postgres prints it only.** The map is keyed by text, and an id
in capitals is not in it although the query has found its row. -/
theorem canonical_of_admissible
    (hcanonical : ∀ menus, menusFor w (command dto) = .ok menus → ∀ info ∈ menus, IsCanonical info.id)
    (h : Admissible w dto) : ∀ item ∈ dto.items, IsCanonical item.menuId := by
  obtain ⟨enrichedItems, ⟨menus, found, hmenus, hfound, -⟩, -⟩ := h
  intro item hitem
  have hmem : (⟨item.menuId, .finite item.quantity⟩ : CommandItem) ∈ (command dto).items :=
    List.mem_map_of_mem hitem
  obtain ⟨i, hi, hget⟩ := List.getElem_of_mem hmem
  have hlookup := (hfound.get hi (hfound.length_eq ▸ hi)).1
  rw [List.get_eq_getElem, hget] at hlookup
  obtain ⟨hinfo, hid⟩ := mem_of_lookupMenu hlookup
  have hprinted := hcanonical menus hmenus _ hinfo
  rw [hid] at hprinted
  exact hprinted

/-- **What is admissible with menus as they are in the table**: every id as it is printed, every
menu offered, and the amount their total. -/
theorem admissible_iff_of_fresh (htable : w.db.MenusTable) (hfresh : w.MenusFresh (command dto)) :
    Admissible w dto ↔ (∀ item ∈ dto.items, IsCanonical item.menuId) ∧
      ∃ menus, List.Forall₂ (w.db.Offers dto.storeId) (command dto).items menus ∧
        Decimal.ofText? dto.totalAmount =
          some (roundedTotal (List.zipWith enrichWith (command dto).items menus)) := by
  have hids : (∀ item ∈ dto.items, IsCanonical item.menuId) →
      ∀ item ∈ (command dto).items, IsCanonical item.menuId := by
    intro hcanonical item hitem
    obtain ⟨itemDto, hdto, rfl⟩ := List.mem_map.mp hitem
    exact hcanonical itemDto hdto
  constructor
  · intro h
    have hcanonical : ∀ item ∈ dto.items, IsCanonical item.menuId := by
      refine canonical_of_admissible (fun menus hmenus => ?_) h
      obtain hsame | ⟨answer, hfind, hcached⟩ := menusFor_of_fresh hfresh
      · rw [hsame] at hmenus
        exact isCanonical_of_findMenusByIds hmenus
      · rw [hcached, Except.ok.injEq] at hmenus
        rw [← hmenus, List.forall_mem_map]
        exact isCanonical_of_findMenusByIds hfind
    obtain ⟨enrichedItems, hadmits⟩ := h
    obtain ⟨menus, hoffers, hamount, -⟩ := (validateItems_iff_offers htable dto.finite_command
      (hids hcanonical) hfresh).mp ((validated_iff_admits dto.finite_command).mpr ⟨hadmits, rfl⟩)
    exact ⟨hcanonical, menus, hoffers, hamount⟩
  · rintro ⟨hcanonical, menus, hoffers, hamount⟩
    have hvalidated := (validateItems_iff_offers htable dto.finite_command (hids hcanonical)
      hfresh).mpr ⟨menus, hoffers, hamount, rfl⟩
    exact ⟨_, ((validated_iff_admits dto.finite_command).mp hvalidated).1⟩

/-- An admissible body is answered with success, and nothing else is. -/
theorem createOutcome_ne (hquiet : Quiet choices) (hquiet' : Quiet choices')
    (hfree : w.idempotency (IdempotencyService.pendingKey dto.idempotencyKey) = none)
    (hfree' : w.idempotency (IdempotencyService.pendingKey dto'.idempotencyKey) = none)
    (hvalid' : dto'.Valid) (h : Admissible w dto) (h' : ¬ Admissible w dto') :
    createOutcome choices dto ctx w ≠ createOutcome choices' dto' ctx w := by
  obtain ⟨enrichedItems, hadmits⟩ := h
  intro hsame
  rw [createOutcome_of_admits hquiet hfree hadmits] at hsame
  by_cases hnull : MeetsNullPrice w dto'
  · rw [createOutcome_of_meetsNull hquiet' hfree' hnull] at hsame
    cases congrArg RequestOutcome.reply hsame
  · rw [createOutcome_of_not_admissible hquiet' hfree' hvalid' h' hnull] at hsame
    cases congrArg RequestOutcome.reply hsame

/-- **When the two runs end alike**, in a world with its cache as it comes.  If only one of the
spellings is admissible, the other is rejected; if both are, the ids are the same, and the rooms
differ unless the store id is the same too. -/
theorem createOutcome_eq_iff (hcache : CanonicalCache w) (hvalid : dto.Valid)
    (hrecased : dto.Recased dto') (hquiet : Quiet choices) (hquiet' : Quiet choices') :
    createOutcome choices dto ctx w = createOutcome choices' dto' ctx w ↔
      w.idempotency (IdempotencyService.pendingKey dto.idempotencyKey) ≠ none ∨ dto' = dto ∨
        ¬ Admissible w dto ∧ ¬ Admissible w dto' ∧ (MeetsNullPrice w dto ↔ MeetsNullPrice w dto') := by
  have hvalid' := hvalid.recased hrecased
  by_cases hfree : w.idempotency (IdempotencyService.pendingKey dto.idempotencyKey) = none
  · have hfree' : w.idempotency (IdempotencyService.pendingKey dto'.idempotencyKey) = none := by
      rw [hrecased.idempotencyKey]
      exact hfree
    rw [or_iff_right (not_not_intro hfree)]
    constructor
    · intro hsame
      by_cases hadmissible : Admissible w dto
      · by_cases hadmissible' : Admissible w dto'
        · refine .inl (hrecased.eq_of_canonical ?_
            (canonical_of_admissible (fun _ => hcache.menusFor) hadmissible)
            (canonical_of_admissible (fun _ => hcache.menusFor) hadmissible'))
          -- both are announced, to one room
          obtain ⟨enrichedItems, hadmits⟩ := hadmissible
          obtain ⟨enrichedItems', hadmits'⟩ := hadmissible'
          rw [createOutcome_of_admits hquiet hfree hadmits,
            createOutcome_of_admits hquiet' hfree' hadmits'] at hsame
          have hrooms := List.singleton_inj.mp (congrArg RequestOutcome.rooms hsame)
          exact (String.append_right_inj "store:").mp hrooms.symm
        · exact absurd hsame
            (createOutcome_ne hquiet hquiet' hfree hfree' hvalid' hadmissible hadmissible')
      · have hadmissible' : ¬ Admissible w dto' := fun hadmissible' =>
          createOutcome_ne hquiet' hquiet hfree' hfree hvalid hadmissible' hadmissible hsame.symm
        refine .inr ⟨hadmissible, hadmissible', ?_⟩
        by_cases hnull : MeetsNullPrice w dto
        · by_cases hnull' : MeetsNullPrice w dto'
          · exact iff_of_true hnull hnull'
          · rw [createOutcome_of_meetsNull hquiet hfree hnull,
              createOutcome_of_not_admissible hquiet' hfree' hvalid' hadmissible' hnull'] at hsame
            cases congrArg RequestOutcome.reply hsame
        · by_cases hnull' : MeetsNullPrice w dto'
          · rw [createOutcome_of_not_admissible hquiet hfree hvalid hadmissible hnull,
              createOutcome_of_meetsNull hquiet' hfree' hnull'] at hsame
            cases congrArg RequestOutcome.reply hsame
          · exact iff_of_false hnull hnull'
    · rintro (rfl | ⟨hno, hno', hnull⟩)
      · exact createOutcome_congr hquiet hquiet' hvalid
      · by_cases hmeets : MeetsNullPrice w dto
        · rw [createOutcome_of_meetsNull hquiet hfree hmeets,
            createOutcome_of_meetsNull hquiet' hfree' (hnull.mp hmeets)]
        · rw [createOutcome_of_not_admissible hquiet hfree hvalid hno hmeets,
            createOutcome_of_not_admissible hquiet' hfree' hvalid' hno' fun h => hmeets (hnull.mpr h)]
  · have hheld' : w.idempotency (IdempotencyService.pendingKey dto'.idempotencyKey) ≠ none := by
      rw [hrecased.idempotencyKey]
      exact hfree
    have hreply : heldReply (command dto) w = heldReply (command dto') w := by
      unfold heldReply command
      rw [hrecased.idempotencyKey]
    rw [createOutcome_of_held hquiet hfree, createOutcome_of_held hquiet' hheld', hreply]
    exact iff_of_true rfl (.inl hfree)

/-- **When letter case does not matter.** In every run of the system, at any moment: exactly if the
key is held, or no letter has changed, or neither spelling is admissible and both are rejected
alike, that is, both or neither at a price that the cache has made `null`. -/
theorem sameOutcome_iff {config : AppConfig} {ok : CatalogLabel → OrderPool → Prop} {db₀ : Database}
    {P : OrderPool} (hmenus : ∀ menu ∈ db₀.menus, menu.Conforms)
    (h : (catalogSystem config).Reaches ok (Pool.init (World.init db₀)) P) (hvalid : dto.Valid)
    (hrecased : dto.Recased dto') (hquiet : Quiet choices) (hquiet' : Quiet choices') :
    createOutcome choices dto ctx P.world = createOutcome choices' dto' ctx P.world ↔
      P.world.idempotency (IdempotencyService.pendingKey dto.idempotencyKey) ≠ none ∨ dto' = dto ∨
        ¬ Admissible P.world dto ∧ ¬ Admissible P.world dto' ∧
          (MeetsNullPrice P.world dto ↔ MeetsNullPrice P.world dto') :=
  createOutcome_eq_iff (canonicalCache_of_reaches hmenus h) hvalid hrecased hquiet hquiet'

end TwoRuns

/-! ## One chicken in capitals -/

/-- One chicken of the seed data, with its id as given and some amount. -/
def chickenDto (menuId totalAmount : String) : CreateOrderDto where
  idempotencyKey := "key-1"
  storeId := "11111111-1111-1111-1111-111111111111"
  userId := none
  totalAmount := totalAmount
  items := [⟨menuId, 1⟩]

theorem valid_chickenDto {menuId totalAmount : String} (hid : matchesUuid menuId = true)
    (hamount : isNumberString totalAmount = true) : (chickenDto menuId totalAmount).Valid := by
  have hlength : 1 ≤ validatorLength "key-1" ∧ validatorLength "key-1" ≤ 255 := by decide
  have hstore : matchesUuid "11111111-1111-1111-1111-111111111111" = true := by decide
  refine ⟨hlength, hstore, nofun, hamount, ?_⟩
  intro item hitem
  rw [List.mem_singleton.mp hitem]
  exact ⟨hid, rfl, le_refl 1⟩

theorem recased_chickenDto {menuId menuId' : String} (h : SameLetters menuId menuId')
    (totalAmount : String) :
    (chickenDto menuId totalAmount).Recased (chickenDto menuId' totalAmount) :=
  ⟨rfl, rfl, rfl, rfl, .cons ⟨h, rfl⟩ .nil⟩

theorem fresh_chickenDto (menuId totalAmount : String) :
    (World.init .seed).MenusFresh (command (chickenDto menuId totalAmount)) := nofun

theorem canonicalCache_init (db : Database) : CanonicalCache (World.init db) := nofun

/-- The total of one chicken is its price. -/
theorem roundedTotal_chicken (menuId : String) {menu : MenuRow} (hprice : menu.unitPrice = some 18000) :
    roundedTotal [enrichWith ⟨menuId, .finite 1⟩ menu] = 18000 := by
  have hline : Decimal.plusAll 0 [18000 * 1] = 18000 := by decide +kernel
  have hlines : lineTotals [enrichWith ⟨menuId, .finite 1⟩ menu] = [18000 * 1] :=
    congrArg (fun price => [price * 1]) (MenuRow.price_of_some hprice)
  rw [roundedTotal, hlines, hline]

/-- With an empty cache no price is `null`.  A `null` comes from the cache only, where JSON has no
`NaN`. -/
theorem not_meetsNullPrice_init {db : Database} (hpk : (db.menus.map MenuRow.id).Nodup)
    (dto : CreateOrderDto) : ¬ MeetsNullPrice (World.init db) dto := by
  rintro ⟨menus, hmenus, hmeets⟩
  exact IsAnswer.not_meetsNull hpk ⟨menus, hmenus, .refl _⟩ hmeets

/-- With another amount than the price of a chicken, no spelling is admissible. -/
theorem not_admissible_chickenDto {menuId totalAmount : String}
    (hid : uuidColumn menuId = .ok ⟨0xaaaaaaaaaaaaaaaaaaaaaaaaaaaaaaaa⟩)
    (hamount : Decimal.ofText? totalAmount ≠ some 18000) :
    ¬ Admissible (World.init .seed) (chickenDto menuId totalAmount) := by
  rw [admissible_iff_of_fresh Database.seed_menusTable (fresh_chickenDto menuId totalAmount)]
  rintro ⟨-, menus, hoffers, hread⟩
  cases hoffers with
  | @cons _ menu _ _ hmenu hrest =>
      cases hrest
      have hmenuId := hmenu.menuId
      rw [hid, Except.ok.injEq] at hmenuId
      have hprice : menu.unitPrice = some 18000 := by
        have hmem := hmenu.mem
        simp only [World.init, Database.seed, List.mem_cons, List.not_mem_nil, or_false] at hmem
        obtain rfl | rfl | rfl := hmem
        · rfl
        · exact absurd hmenuId (by decide)
        · exact absurd hmenuId (by decide)
      exact hamount (hread.trans (congrArg some (roundedTotal_chicken menuId hprice)))

/-- For its price, one in lower case is. -/
theorem admissible_chickenDto :
    Admissible (World.init .seed) (chickenDto "aaaaaaaa-aaaa-aaaa-aaaa-aaaaaaaaaaaa" "18000") := by
  have hmenu : uuidColumn "aaaaaaaa-aaaa-aaaa-aaaa-aaaaaaaaaaaa" =
      .ok ⟨0xaaaaaaaaaaaaaaaaaaaaaaaaaaaaaaaa⟩ := by decide +kernel
  have hstore : uuidColumn "11111111-1111-1111-1111-111111111111" =
      .ok ⟨0x11111111111111111111111111111111⟩ := by decide +kernel
  have hprice : Decimal.ofText? "18000" = some 18000 := by decide +kernel
  refine (admissible_iff_of_fresh Database.seed_menusTable (fresh_chickenDto _ _)).mpr ⟨?_, ?_⟩
  · intro item hitem
    rw [List.mem_singleton.mp hitem]
    exact ⟨⟨0xaaaaaaaaaaaaaaaaaaaaaaaaaaaaaaaa⟩, by decide +kernel⟩
  · exact ⟨_, .cons ⟨List.mem_cons_self, hmenu, hstore, rfl, _, rfl⟩ .nil,
      hprice.trans (congrArg some (roundedTotal_chicken _ rfl).symm)⟩

theorem sameOutcome_iff_underpaid :
    createOutcome (fun n => .undisturbed n)
        (chickenDto "aaaaaaaa-aaaa-aaaa-aaaa-aaaaaaaaaaaa" "1") seedContext (World.init .seed) =
      createOutcome (fun n => .undisturbed n)
        (chickenDto "AAAAAAAA-AAAA-AAAA-AAAA-AAAAAAAAAAAA" "1") seedContext (World.init .seed) := by
  have hlower : uuidColumn "aaaaaaaa-aaaa-aaaa-aaaa-aaaaaaaaaaaa" =
      .ok ⟨0xaaaaaaaaaaaaaaaaaaaaaaaaaaaaaaaa⟩ := by decide +kernel
  have hupper : uuidColumn "AAAAAAAA-AAAA-AAAA-AAAA-AAAAAAAAAAAA" =
      .ok ⟨0xaaaaaaaaaaaaaaaaaaaaaaaaaaaaaaaa⟩ := by decide +kernel
  have hunderpaid : Decimal.ofText? "1" ≠ some 18000 := by decide +kernel
  have hiff := @sameOutcome_iff (chickenDto "aaaaaaaa-aaaa-aaaa-aaaa-aaaaaaaaaaaa" "1")
    (chickenDto "AAAAAAAA-AAAA-AAAA-AAAA-AAAAAAAAAAAA" "1") seedContext (fun n => .undisturbed n)
    (fun n => .undisturbed n) seedConfig (fun _ _ => True) .seed (Pool.init (World.init .seed))
    Database.seed_conforms .refl (valid_chickenDto (by decide) (by decide))
    (recased_chickenDto (by decide +kernel) "1") (fun _ => rfl) (fun _ => rfl)
  exact hiff.mpr (.inr (.inr ⟨not_admissible_chickenDto hlower hunderpaid,
    not_admissible_chickenDto hupper hunderpaid,
    iff_of_false (not_meetsNullPrice_init (by decide) _) (not_meetsNullPrice_init (by decide) _)⟩))

/-- The same menu id in capitals: the query finds the row, the map does not, and the order is
rejected with 422. -/
theorem not_sameOutcome_of_capitals :
    ¬ ∀ (w : World) (dto dto' : CreateOrderDto) (ctx : ApiContext) (choices : ℕ → Choice),
      dto.Valid → dto.Recased dto' → Quiet choices →
        createOutcome choices dto ctx w = createOutcome choices dto' ctx w := by
  intro h
  have hvalid : (chickenDto "aaaaaaaa-aaaa-aaaa-aaaa-aaaaaaaaaaaa" "18000").Valid :=
    valid_chickenDto (by decide) (by decide)
  have hrecased : (chickenDto "aaaaaaaa-aaaa-aaaa-aaaa-aaaaaaaaaaaa" "18000").Recased
      (chickenDto "AAAAAAAA-AAAA-AAAA-AAAA-AAAAAAAAAAAA" "18000") :=
    recased_chickenDto (by decide +kernel) "18000"
  have hquiet : Quiet fun n => .undisturbed n := fun _ => rfl
  obtain hheld | hsame | ⟨hno, -⟩ := (createOutcome_eq_iff (canonicalCache_init .seed) hvalid hrecased
    hquiet hquiet).mp (h _ _ _ seedContext _ hvalid hrecased hquiet)
  · exact hheld rfl
  · revert hsame
    decide
  · exact hno admissible_chickenDto

end ChickenOrder
