import ChickenOrder.Database.OrderRecord
import ChickenOrder.Services.Calls
import ChickenOrder.Services.ItemValidation
import ChickenOrder.Services.MenuAdmin

/-!
# Who reads and caches menus

No call of a service changes `menus`, and only `menuCacheSet` fills the cache.  `menuReads`
is what a request knows when it fills the cache or publishes: the menus it caches are the
answer it has just had from the table, and the items it publishes are validated with the
menus that its last call has read or cached.

A key of the cache is a text that is put together from the store and the sorted ids.  That
different lists have different keys is not obvious, and false of arbitrary texts; it holds of
those that the query has read as UUIDs.
-/

namespace ChickenOrder

open Interaction Interaction.Program

/-! ## What the calls do to menus and to the cache -/

theorem RepoOp.effect_menus (o : RepoOp) (now : Time) (db : Database) :
    (o.effect now db).2.menus = db.menus := by
  cases o with
  | createOrder p =>
      show (settle db (db.createOrder p now)).2.menus = db.menus
      rcases hresult : db.createOrder p now with e | ⟨inserted, db'⟩
      · rfl
      · cases inserted with
        | true =>
            obtain ⟨row, rows, hpk, huk, -, -, rfl⟩ := Database.createOrder_eq_ok_true hresult
            rfl
        | false =>
            obtain ⟨-, rfl, -⟩ | ⟨hinserted, -⟩ := Database.createOrder_eq_ok hresult
            · rfl
            · cases hinserted
  | transitionStatus p =>
      show (settle db (quietly (db.transitionStatus p now))).2.menus = db.menus
      rcases hresult : db.transitionStatus p now with e | db'
      · rfl
      · obtain ⟨s, row, -, -, -, -, -, rfl⟩ := Database.transitionStatus_eq_ok hresult
        rfl
  | findById orderId => rfl
  | markDlq orderId reason =>
      show (settle db (quietly (db.markDlq orderId reason now))).2.menus = db.menus
      rcases hresult : db.markDlq orderId reason now with e | db'
      · rfl
      · obtain ⟨-, rfl⟩ := Database.markDlq_eq_ok_iff.mp hresult
        rfl
  | incrementRetryCount orderId =>
      show (settle db (quietly (db.incrementRetryCount orderId))).2.menus = db.menus
      unfold Database.incrementRetryCount
      split
      · rfl
      · split
        · rfl
        · rfl

theorem Op.exec_menus (o : Op) (c : Choice) (w : World) :
    (o.exec c w).2.db.menus = w.db.menus := by
  refine Op.exec_invariant (I := fun w' => w'.db.menus = w.db.menus) rfl ?_
  obtain ⟨r, -, hdb⟩ | ⟨id, new, -, -, hdb⟩ | hdb := o.effect_db c w
  · rw [hdb]
    exact r.effect_menus c.now w.db
  · rw [hdb]
  · rw [hdb]

/-- **Everything a call does to the menu cache.** -/
theorem Op.effect_menuCache (o : Op) (c : Choice) (w : World) :
    (∃ key menus, o = .menuCacheSet key menus ∧
      (o.effect c w).2.menuCache =
        Function.update w.menuCache key (some (menus.map MenuInfo.throughJson))) ∨
    (o.effect c w).2.menuCache = w.menuCache := by
  cases o with
  | menuCacheSet key menus => exact .inl ⟨key, menus, rfl, rfl⟩
  | patchStatus text orderId =>
      obtain ⟨db, hframe⟩ := w.patchStatus_frame text orderId c.now
      exact .inr (congrArg World.menuCache hframe :)
  | idempotencySetNx key orderId =>
      obtain ⟨keys, hframe⟩ := w.idempotencySetNx_frame key orderId
      exact .inr (congrArg World.menuCache hframe :)
  | lockSetNx orderId token =>
      obtain ⟨locks, hframe⟩ := w.lockSetNx_frame orderId token
      exact .inr (congrArg World.menuCache hframe :)
  | lockRelease orderId token =>
      obtain ⟨locks, hframe⟩ := w.lockRelease_frame orderId token
      exact .inr (congrArg World.menuCache hframe :)
  | mainQueueAdd data =>
      obtain ⟨queue, hframe⟩ := w.mainQueueAdd_frame data
      exact .inr (congrArg World.menuCache hframe :)
  | dlqQueueAdd data reason attempts =>
      obtain ⟨queue, hframe⟩ := w.dlqQueueAdd_frame data reason attempts c.now
      exact .inr (congrArg World.menuCache hframe :)
  | postToPos request =>
      obtain ⟨inbox, hframe⟩ := effect_postToPos_frame request c w
      exact .inr (congrArg World.menuCache hframe :)
  | _ => exact .inr rfl

/-- What is cached after a call was cached before, or is the JSON of what the call caches. -/
theorem Op.exec_menuCache {o : Op} {c : Choice} {w : World} {key : String} {menus : List MenuInfo}
    (h : (o.exec c w).2.menuCache key = some menus) :
    w.menuCache key = some menus ∨
      ∃ answer, o = .menuCacheSet key answer ∧ menus = answer.map MenuInfo.throughJson := by
  refine Op.exec_invariant (I := fun w' => w'.menuCache key = some menus →
    w.menuCache key = some menus ∨
      ∃ answer, o = .menuCacheSet key answer ∧ menus = answer.map MenuInfo.throughJson) .inl ?_ h
  intro hcached
  obtain ⟨k, answer, rfl, heffect⟩ | heffect := o.effect_menuCache c w
  · rw [heffect] at hcached
    by_cases hkey : key = k
    · subst hkey
      rw [Function.update_self, Option.some.injEq] at hcached
      exact .inr ⟨answer, rfl, hcached.symm⟩
    · rw [Function.update_of_ne hkey] at hcached
      exact .inl hcached
  · rw [heffect] at hcached
    exact .inl hcached

/-! ## Cache keys -/

namespace CreateOrderService

/-- A joined list has a character only from its parts, or the comma. -/
theorem not_mem_intercalate {c : Char} (hc : c ≠ ',') {ids : List String}
    (hids : ∀ id ∈ ids, c ∉ id.toList) : c ∉ (",".intercalate ids).toList := by
  rw [String.toList_intercalate]
  induction ids with
  | nil => simp
  | cons id rest ih =>
      have hrest := ih fun id' hid' => hids id' (List.mem_cons_of_mem _ hid')
      have hid := hids id List.mem_cons_self
      by_cases hnil : rest.map String.toList = []
      · rw [List.map_cons, hnil, List.intercalate_singleton]
        exact hid
      · rw [List.map_cons, List.intercalate_cons_of_ne_nil hnil]
        rw [List.mem_append, List.mem_append, not_or, not_or]
        exact ⟨⟨hid, by simpa using hc⟩, hrest⟩

/-- No id is lost between the commas. -/
theorem intercalate_injOn {ids ids' : List String} (hids : ∀ id ∈ ids, id ≠ "" ∧ ',' ∉ id.toList)
    (hids' : ∀ id ∈ ids', id ≠ "" ∧ ',' ∉ id.toList)
    (h : ",".intercalate ids = ",".intercalate ids') : ids = ids' := by
  have hchars := congrArg String.toList h
  rw [String.toList_intercalate, String.toList_intercalate] at hchars
  -- what the commas separate, without the one empty text that nothing is split into
  have hparts : ∀ ids : List String, (∀ id ∈ ids, id ≠ "" ∧ ',' ∉ id.toList) →
      ((",".toList.intercalate (ids.map String.toList)).splitOn ',').filter (fun cs => !cs.isEmpty) =
        ids.map String.toList := by
    intro ids hids
    by_cases hnil : ids = []
    · subst hnil
      rfl
    · have hsplit : (",".toList.intercalate (ids.map String.toList)).splitOn ',' =
          ids.map String.toList := List.splitOn_intercalate ','
        (by simpa using fun id hid => (hids id hid).2) (by simpa using hnil)
      rw [hsplit, List.filter_eq_self]
      intro cs hcs
      obtain ⟨id, hid, rfl⟩ := List.mem_map.mp hcs
      simpa using (hids id hid).1
  have hlists := hparts ids hids
  rw [hchars, hparts ids' hids'] at hlists
  exact List.map_injective_iff.mpr (fun _ _ => String.toList_inj.mp) hlists.symm

section Keys

variable {ids ids' : List String} {store store' : String}

/-- **A key names its store.** The texts that Postgres reads as UUIDs have no colon, so that it ends
at the second one. -/
theorem storeId_of_menuCacheKey_eq (hids : ∀ id ∈ ids, ∃ u, uuidColumn id = .ok u)
    (hstore : ∃ u, uuidColumn store = .ok u)
    (h : menuCacheKey ids store = menuCacheKey ids' store') : store = store' := by
  have hcolon : ∀ s, (∃ u, uuidColumn s = .ok u) → ':' ∉ s.toList := by
    rintro s ⟨u, hu⟩
    exact Uuid.not_mem_of_ofText? (by decide) (by decide) (by decide) (by decide)
      (uuidColumn_eq_ok_iff.mp hu)
  have hsorted : ':' ∉ (",".intercalate (ids.insertionSort fun a b => a ≤ b)).toList :=
    not_mem_intercalate (by decide) fun id hid =>
      hcolon id (hids id ((List.mem_insertionSort _).mp hid))
  have hchars := congrArg String.toList h
  simp only [menuCacheKey, String.toList_append, List.append_assoc,
    List.append_cancel_left_eq] at hchars
  exact String.toList_inj.mp
    ((List.append_cons_inj_of_notMem (hcolon store hstore) hsorted).mp hchars).1

/-- **A key names its menus**, each as often as it is asked for.  Only their order is lost, by
sorting. -/
theorem perm_of_menuCacheKey_eq (hids : ∀ id ∈ ids, ∃ u, uuidColumn id = .ok u)
    (hids' : ∀ id ∈ ids', ∃ u, uuidColumn id = .ok u) (hstore : ∃ u, uuidColumn store = .ok u)
    (h : menuCacheKey ids store = menuCacheKey ids' store') : ids.Perm ids' := by
  obtain rfl := storeId_of_menuCacheKey_eq hids hstore h
  have hplain : ∀ {ids : List String}, (∀ id ∈ ids, ∃ u, uuidColumn id = .ok u) →
      ∀ id ∈ ids.insertionSort fun a b => a ≤ b, id ≠ "" ∧ ',' ∉ id.toList := by
    intro ids hids id hid
    obtain ⟨u, hu⟩ := hids id ((List.mem_insertionSort _).mp hid)
    refine ⟨?_, Uuid.not_mem_of_ofText? (by decide) (by decide) (by decide) (by decide)
      (uuidColumn_eq_ok_iff.mp hu)⟩
    rintro rfl
    cases hu
  have hsorted := intercalate_injOn (hplain hids) (hplain hids')
    (by simpa [menuCacheKey] using h)
  exact (List.perm_insertionSort _ ids).symm.trans (hsorted ▸ List.perm_insertionSort _ ids')

end Keys

end CreateOrderService

/-! ## What a request knows -/

namespace CreateOrderService

/-- The key under which a command's menus are cached. -/
def menusKey (cmd : CreateOrderCommand) : String :=
  menuCacheKey (cmd.items.map CommandItem.menuId) cmd.storeId

/-- The last call has found these menus in the cache, or has put them there.  What has been found
came from an earlier request. -/
def Supplied (cmd : CreateOrderCommand) (menus : List MenuInfo) (h : List OrderEvent) : Prop :=
  (∃ h', h = (⟨.menuCacheGet (menusKey cmd), .ok (some menus)⟩ : OrderEvent) :: h') ∨
    ∃ h', h = (⟨.menuCacheSet (menusKey cmd) menus, .ok ()⟩ : OrderEvent) :: h'

/-- What `execute` knows when it caches menus or publishes: where the menus are from, and that they
passed the validation. -/
def MenuCall (cmd : CreateOrderCommand) (ctx : ApiContext) (h : List OrderEvent) : Op → Prop
  | .menuCacheSet key menus => key = menusKey cmd ∧
      ∃ h', h = (⟨.findMenusByIds (cmd.items.map CommandItem.menuId) cmd.storeId,
        .ok menus⟩ : OrderEvent) :: h'
  | .mainQueueAdd data => ∃ menus amount items, Supplied cmd menus h ∧
      validateItems cmd menus = .ok (amount, items) ∧ data = payload cmd ctx amount items
  | _ => True

/-- The call neither caches nor publishes. -/
def NoMenuCall : Op → Prop
  | .menuCacheSet _ _ => False
  | .mainQueueAdd _ => False
  | _ => True

/-- Only `execute` caches menus, and only what it has just been answered by the database. -/
def menuReads : Protocol Op.Reply OrderError Outcome Request where
  admits := fun _ => True
  allows := fun _ _ _ => True
  issues := fun q h o =>
    match q with
    | .createOrder cmd ctx => MenuCall cmd ctx h o
    | _ => ∀ key menus, o ≠ .menuCacheSet key menus
  returns := fun _ _ _ => True
  throws := fun _ _ _ => True

section Follows

variable {cmd : CreateOrderCommand} {ctx : ApiContext} {h : List OrderEvent}

/-- `wp` against the calls of `execute`. -/
abbrev menuWp (cmd : CreateOrderCommand) (ctx : ApiContext) {α : Type} (p : Service α)
    (Q : α → List OrderEvent → Prop) (h : List OrderEvent) : Prop :=
  p.wp (menuReads.record (.createOrder cmd ctx)) (fun o h => MenuCall cmd ctx h o) Q
    (fun _ _ => True) h

/-- Programs that neither cache nor publish. -/
theorem menuWp_free {α : Type} {p : Service α} (hp : p.OnlyCalls NoMenuCall) :
    menuWp cmd ctx p (fun _ _ => True) h := by
  refine wp_invariant _ _ (fun _ => True) ?_ (fun _ _ _ _ _ _ _ => trivial) hp trivial
  intro o h ho _
  cases o with
  | menuCacheSet key menus => cases ho
  | mainQueueAdd data => cases ho
  | _ => trivial

/-- The last step of a validation, once the menus are there. -/
theorem menuWp_validateItems {menus : List MenuInfo} (hsupplied : Supplied cmd menus h) :
    menuWp cmd ctx
      (match validateItems cmd menus with
        | .error e => Program.throw e
        | .ok validated => return validated)
      (fun validated h' => ∃ menus, Supplied cmd menus h' ∧ validateItems cmd menus = .ok validated)
      h := by
  cases hvalid : validateItems cmd menus with
  | error e => exact trivial
  | ok validated => exact ⟨menus, hsupplied, hvalid⟩

/-- Validation uses the menus it was supplied with, from the cache or the database. -/
theorem menuWp_validate :
    menuWp cmd ctx (validateAndEnrichItems cmd)
      (fun validated h' => ∃ menus, Supplied cmd menus h' ∧ validateItems cmd menus = .ok validated)
      h := by
  unfold menuWp validateAndEnrichItems getMenusCached
  rw [wp_bind, wp_bind, wp_perform]
  refine ⟨trivial, ?_, fun _ _ _ => trivial⟩
  rintro cached h₁ ⟨-, rfl⟩
  cases cached with
  | some menus => exact menuWp_validateItems (.inl ⟨h, rfl⟩)
  | none =>
      show Program.wp _ _ (Op.call (.findMenusByIds _ _) >>= fun menus => _) _ _ _
      rw [wp_bind, wp_perform]
      refine ⟨trivial, ?_, fun _ _ _ => trivial⟩
      rintro menus h₂ ⟨-, rfl⟩
      rw [wp_bind, wp_perform]
      refine ⟨⟨rfl, _, rfl⟩, ?_, fun _ _ _ => trivial⟩
      rintro - h₃ ⟨-, rfl⟩
      exact menuWp_validateItems (.inr ⟨_, rfl⟩)

/-- What is published was validated with them. -/
theorem menuWp_publish {menus : List MenuInfo} {amount : String} {items : List OrderItem}
    (hsupplied : Supplied cmd menus h) (hvalid : validateItems cmd menus = .ok (amount, items)) :
    menuWp cmd ctx (publish cmd ctx amount items) (fun _ _ => True) h := by
  unfold menuWp publish OrderQueueService.publishOrder IdempotencyService.setCompleted
  rw [wp_bind, wp_perform]
  refine ⟨⟨menus, amount, items, hsupplied, hvalid, rfl⟩, ?_, fun _ _ _ => trivial⟩
  rintro - h₁ -
  exact menuWp_free (.bind (.perform trivial) fun _ => .bind (.perform trivial) fun _ => trivial)

theorem menuWp_execute : menuWp cmd ctx (execute cmd ctx) (fun _ _ => True) h := by
  have habandon : ∀ err h', menuWp cmd ctx (abandon cmd err) (fun _ _ => True) h' := by
    intro err h'
    unfold abandon IdempotencyService.release
    refine menuWp_free (.bind (.perform trivial) fun _ => ?_)
    split
    · trivial
    · trivial
  have hreplay : ∀ h', menuWp cmd ctx (replay cmd) (fun _ _ => True) h' := by
    intro h'
    unfold replay IdempotencyService.getCachedResponse
    refine menuWp_free (.bind (.bind (.perform trivial) fun raw => ?_) fun cached => ?_)
    · cases raw with
      | none => trivial
      | some value => cases value <;> trivial
    · cases cached <;> trivial
  unfold menuWp execute IdempotencyService.tryAcquire
  rw [wp_bind, wp_perform]
  refine ⟨trivial, ?_, fun _ _ _ => trivial⟩
  rintro isNew h₁ -
  rw [wp_ite]
  refine ⟨fun _ => ?_, fun _ => hreplay h₁⟩
  rw [wp_tryCatch]
  unfold validateAndPublish
  rw [wp_bind]
  refine wp_mono _ _ (fun validated h₂ hvalidated => ?_) (fun err h₂ _ => habandon err h₂)
    menuWp_validate
  obtain ⟨menus, hsupplied, hvalid⟩ := hvalidated
  exact wp_mono _ _ (fun _ _ _ => trivial) (fun err h₃ _ => habandon err h₃)
    (menuWp_publish hsupplied hvalid)

end Follows

/-- No other request caches menus. -/
theorem ne_menuCacheSet_of_allows {q : Request} (hq : ∀ cmd ctx, q ≠ .createOrder cmd ctx) {o : Op}
    (ho : q.allows o) (key : String) (menus : List MenuInfo) : o ≠ .menuCacheSet key menus := by
  rintro rfl
  cases q with
  | createOrder cmd ctx => exact hq cmd ctx rfl
  | process payload jobMeta => cases ho
  | handleFailure payload error jobMeta => cases ho
  | redriveOrder orderId ctx => cases ho
  | updateStatus orderId status => cases ho
  | updateOrderStatus id body => cases ho

/-- **Every program follows the protocol of menus.** -/
theorem follows_menuReads (config : AppConfig) (q : Request) :
    menuReads.Follows q (q.program config) [] := by
  have hother : (∀ cmd ctx, q ≠ .createOrder cmd ctx) →
      wp (menuReads.record q) (fun o _ => ∀ key menus, o ≠ .menuCacheSet key menus)
        (q.program config) (fun _ _ => True) (fun _ _ => True) [] := by
    intro hq
    refine wp_invariant _ _ (fun _ => True) ?_ (fun _ _ _ _ _ _ _ => trivial)
      (Request.onlyCalls config q) trivial
    exact fun o _ ho _ => ne_menuCacheSet_of_allows hq ho
  cases q with
  | createOrder cmd ctx =>
      show menuWp cmd ctx (execute cmd ctx >>= fun r => return Outcome.created r) _ []
      unfold menuWp
      rw [wp_bind]
      exact wp_mono _ _ (fun _ _ _ => trivial) (fun _ _ _ => trivial) menuWp_execute
  | _ => exact hother nofun

/-- No run is excluded, and no answer. -/
theorem respects_menuReads {config : AppConfig}
    {ok : Label Choice Request CatalogStep → OrderPool → Prop} {P₀ : OrderPool} :
    menuReads.Respects (catalogSystem config) ok P₀ where
  admits := fun _ _ _ _ => trivial
  allows := fun _ _ _ _ _ _ _ _ _ _ => trivial

end CreateOrderService

end ChickenOrder
