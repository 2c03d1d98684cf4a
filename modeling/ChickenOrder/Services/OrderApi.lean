import Mathlib.Algebra.Order.Ring.Rat
import Mathlib.Data.Rat.Lemmas
import ChickenOrder.Services.CreateOrder
import ChickenOrder.Values.JsNumber
import ChickenOrder.Values.NumberText

/-!
# The API's entrances to `CreateOrderService`

`POST /api/v1/orders` takes a `CreateOrderDto`.  A body that breaks one of its decorators
is answered with 400 before the controller runs; `Valid` is what the decorators ask for,
with the patterns of `class-validator` and of the DTO written out as list functions.
`POST /order` takes any object and coerces its fields, `POST /internal/orders` takes its body as
it is.

What the service is handed differs accordingly.  Of the first route every field has its type and
its pattern; of the second the types are right, but a quantity may be any number, `NaN`
included; of the third not even the types are.  `Submitted` and `Handed` collect what can be
handed over.
-/

namespace ChickenOrder

open Interaction

/-! ## What the decorators check -/

/-- `^[0-9a-f]{n}`, in either case. -/
def matchesGroup (n : ℕ) (cs : List Char) : Bool :=
  (cs.take n).length = n && (cs.take n).all fun c => (Uuid.hexDigit? c).isSome

/-- Groups of hexadecimal digits of the given lengths, with hyphens between them. -/
def matchesGroups : List ℕ → List Char → Bool
  | [], cs => cs.isEmpty
  | [n], cs => matchesGroup n cs && (cs.drop n).isEmpty
  | n :: groups, cs =>
      matchesGroup n cs &&
        match cs.drop n with
        | '-' :: rest => matchesGroups groups rest
        | _ => false

/-- `UUID_RE`, whose flag `i` takes letters of either case. -/
def matchesUuid (s : String) : Bool := matchesGroups [8, 4, 4, 4, 12] s.toList

section MatchesUuid

open Uuid

/-- Two digits of a group. -/
theorem matchesGroup_add_two {n : ℕ} {cs : List Char} (h : matchesGroup (n + 2) cs = true) :
    ∃ hi lo x y rest, cs = hi :: lo :: rest ∧ hexDigit? hi = some x ∧ hexDigit? lo = some y ∧
      matchesGroup n rest = true := by
  match cs with
  | [] => simp [matchesGroup] at h
  | [c] => simp [matchesGroup] at h
  | hi :: lo :: rest =>
      simp only [matchesGroup, List.take_succ_cons, List.length_cons, List.all_cons,
        Bool.and_eq_true] at h
      obtain ⟨hlength, hhi, hlo, hrest⟩ := h
      obtain ⟨x, hx⟩ := Option.isSome_iff_exists.mp hhi
      obtain ⟨y, hy⟩ := Option.isSome_iff_exists.mp hlo
      refine ⟨hi, lo, x, y, rest, rfl, hx, hy, ?_⟩
      have htake : (rest.take n).length = n := by
        have hboth := of_decide_eq_true hlength
        omega
      rw [matchesGroup, htake, hrest]
      simp

/-- No hyphen is skipped before a digit. -/
theorem afterByte_of_matchesGroup {k n : ℕ} {cs : List Char}
    (h : matchesGroup (2 * (k + 1)) cs = true) : afterByte n cs = cs := by
  obtain ⟨hi, lo, x, y, rest, rfl, hx, -, -⟩ := matchesGroup_add_two h
  have hne : hi ≠ '-' := by
    rintro rfl
    cases hx
  simp [afterByte, hne]

/-- A group of digits is read as bytes. -/
theorem readBytes_of_matchesGroup {k : ℕ} (n acc : ℕ) {cs : List Char}
    (h : matchesGroup (2 * (k + 1)) cs = true) :
    ∃ acc', readBytes (n + (k + 1)) acc cs =
      readBytes n acc' (afterByte n (cs.drop (2 * (k + 1)))) := by
  induction k generalizing acc cs with
  | zero =>
      obtain ⟨hi, lo, x, y, rest, rfl, hx, hy, -⟩ := matchesGroup_add_two h
      exact ⟨_, readBytes_succ hx hy n acc rest⟩
  | succ k ih =>
      obtain ⟨hi, lo, x, y, rest, rfl, hx, hy, hrest⟩ := matchesGroup_add_two h
      obtain ⟨acc', hread⟩ := ih (acc * 256 + x * 16 + y) hrest
      refine ⟨acc', ?_⟩
      rw [← Nat.add_assoc, readBytes_succ hx hy, afterByte_of_matchesGroup hrest, hread]
      rfl

/-- A group and the hyphen behind it. -/
theorem readBytes_of_matchesGroups {k n : ℕ} (hn : n % 2 = 0 ∧ 0 < n) (acc : ℕ) {groups : List ℕ}
    {cs : List Char} (hgroups : groups ≠ [])
    (h : matchesGroups (2 * (k + 1) :: groups) cs = true) :
    ∃ acc' rest, readBytes (n + (k + 1)) acc cs = readBytes n acc' rest ∧
      matchesGroups groups rest = true := by
  obtain ⟨g, groups, rfl⟩ := List.exists_cons_of_ne_nil hgroups
  rw [matchesGroups, Bool.and_eq_true] at h
  · obtain ⟨hgroup, hrest⟩ := h
    obtain ⟨acc', hread⟩ := readBytes_of_matchesGroup n acc hgroup
    split at hrest
    · rename_i rest hdrop
      rw [hdrop, afterByte_hyphen hn] at hread
      exact ⟨acc', rest, hread, hrest⟩
    · cases hrest
  · simp

/-- **What the DTO's pattern takes is a UUID to the database.** Postgres takes more, such as braces
around it. -/
theorem ofText?_of_matchesUuid {s : String} (h : matchesUuid s = true) : ∃ u, ofText? s = some u := by
  unfold matchesUuid at h
  obtain ⟨a₁, r₁, h₁, hr₁⟩ := readBytes_of_matchesGroups (k := 3) (n := 12) (by omega) 0 (by simp) h
  obtain ⟨a₂, r₂, h₂, hr₂⟩ := readBytes_of_matchesGroups (k := 1) (n := 10) (by omega) a₁ (by simp) hr₁
  obtain ⟨a₃, r₃, h₃, hr₃⟩ := readBytes_of_matchesGroups (k := 1) (n := 8) (by omega) a₂ (by simp) hr₂
  obtain ⟨a₄, r₄, h₄, hr₄⟩ := readBytes_of_matchesGroups (k := 1) (n := 6) (by omega) a₃ (by simp) hr₃
  rw [matchesGroups, Bool.and_eq_true, List.isEmpty_iff] at hr₄
  obtain ⟨a₅, h₅⟩ := readBytes_of_matchesGroup (k := 5) 0 a₄ hr₄.1
  have hread : readBytes 16 0 s.toList = some (a₅, []) := by
    rw [h₁, h₂, h₃, h₄, h₅, hr₄.2]
    rfl
  -- a UUID in braces starts with one
  have hopen : ∀ cs, s.toList ≠ '{' :: cs := by
    intro cs hcs
    rw [hcs] at hread
    cases cs <;> cases hread
  exact ⟨⟨BitVec.ofNat 128 a₅⟩, by
    unfold ofText?
    split
    · rename_i cs hcs
      exact absurd hcs (hopen cs)
    · rw [hread]⟩

end MatchesUuid
/-- `[0-9]+$`. -/
def isDigits (cs : List Char) : Bool := !cs.isEmpty && cs.all Char.isDigit

/-- `([0-9]*[.])?[0-9]+$`. -/
def isUnsignedNumeric (cs : List Char) : Bool :=
  isDigits cs ||
    match cs.dropWhile Char.isDigit with
    | '.' :: fraction => isDigits fraction
    | _ => false

/-- `IsNumberString` without options: `/^[+-]?([0-9]*[.])?[0-9]+$/`.  There are no exponents, and
any number of digits. -/
def isNumberString (s : String) : Bool :=
  match s.toList with
  | '+' :: cs => isUnsignedNumeric cs
  | '-' :: cs => isUnsignedNumeric cs
  | cs => isUnsignedNumeric cs

/-- Digits, with a point among or before them, are a numeral. -/
theorem readUnsigned_of_isUnsignedNumeric {cs : List Char} (h : isUnsignedNumeric cs = true) :
    ∃ q, Decimal.readUnsigned cs = some q := by
  have hdigits : ∀ {ds : List Char}, isDigits ds = true → ds ≠ [] ∧ ∀ c ∈ ds, c.isDigit := by
    intro ds hds
    simpa [isDigits] using hds
  unfold isUnsignedNumeric at h
  rw [Bool.or_eq_true] at h
  obtain hwhole | hpoint := h
  · obtain ⟨hne, hall⟩ := hdigits hwhole
    have hread := @Decimal.readUnsigned_parts cs [] [] 0 (by simpa using hne) hall nofun
      Decimal.stopsNumber_nil rfl
    exact ⟨_, by simpa using hread⟩
  · split at hpoint
    · rename_i fraction hdrop
      obtain ⟨hne, hall⟩ := hdigits hpoint
      have hread := @Decimal.readUnsigned_parts (cs.takeWhile Char.isDigit) fraction [] 0
        (by simp [hne]) (fun c hc => List.mem_takeWhile_imp hc) hall Decimal.stopsNumber_nil rfl
      rw [if_neg hne, List.append_nil, ← hdrop, List.takeWhile_append_dropWhile] at hread
      exact ⟨_, hread⟩
    · cases hpoint

/-- **What the DTO takes as an amount is a decimal.** So `new Decimal` does not throw for it. -/
theorem ofText?_of_isNumberString {s : String} (h : isNumberString s = true) :
    ∃ q, Decimal.ofText? s = some q := by
  unfold isNumberString at h
  unfold Decimal.ofText?
  split at h
  · rename_i cs hcs
    rw [hcs]
    exact readUnsigned_of_isUnsignedNumeric h
  · rename_i cs hcs
    rw [hcs]
    obtain ⟨q, hq⟩ := readUnsigned_of_isUnsignedNumeric h
    exact ⟨-q, congrArg (Option.map Neg.neg) hq⟩
  · rename_i hplus hminus
    split
    · rename_i cs hcs
      exact absurd hcs (hminus cs)
    · rename_i cs hcs
      exact absurd hcs (hplus cs)
    · exact readUnsigned_of_isUnsignedNumeric h

/-- The characters that select how the one before them is shown. -/
def isPresentationSelector (c : Char) : Bool := c.toNat = 0xFE0E || c.toNat = 0xFE0F

/-- The matches of `/[^\uFE0F\uFE0E][\uFE0F\uFE0E]/g`. -/
def presentationSequences : List Char → ℕ
  | c :: d :: cs =>
      (if !isPresentationSelector c && isPresentationSelector d then 1 else 0) +
        presentationSequences (d :: cs)
  | _ => 0

/-- The length `Length` compares: code points, but one less for every character that is
shown with a selector. -/
def validatorLength (s : String) : ℕ := s.length - presentationSequences s.toList

/-! ## `POST /api/v1/orders` -/

/-- An item of the request, after class-validator has checked its types.  `@IsInt` is a check of the
value, so that the type has fractions. -/
structure OrderItemDto where
  menuId : String
  quantity : ℚ
  deriving DecidableEq

/-- The body of `POST /api/v1/orders`, after class-validator has checked its types. -/
structure CreateOrderDto where
  idempotencyKey : String
  storeId : String
  userId : Option String
  totalAmount : String
  items : List OrderItemDto
  deriving DecidableEq

/-- `@Matches(UUID_RE)`, `@IsInt()` and `@Min(1)`.  There is no largest quantity. -/
structure OrderItemDto.Valid (dto : OrderItemDto) : Prop where
  menuId : matchesUuid dto.menuId
  isInt : dto.quantity.den = 1
  min : 1 ≤ dto.quantity

/-- What class-validator checks of the values.  The store id and the user id are UUIDs of any letter
case, and the amount is a numeral of any size. -/
structure CreateOrderDto.Valid (dto : CreateOrderDto) : Prop where
  length : 1 ≤ validatorLength dto.idempotencyKey ∧ validatorLength dto.idempotencyKey ≤ 255
  storeId : matchesUuid dto.storeId
  userId : ∀ userId ∈ dto.userId, matchesUuid userId
  totalAmount : isNumberString dto.totalAmount
  items : ∀ item ∈ dto.items, item.Valid

namespace OrderController

/-- What `create` hands to the service.  The prices are the service's own business. -/
def command (dto : CreateOrderDto) : CreateOrderCommand where
  idempotencyKey := dto.idempotencyKey
  storeId := dto.storeId
  userId := dto.userId
  requestedAmount := dto.totalAmount
  items := dto.items.map fun item => ⟨item.menuId, .finite item.quantity⟩

/-- The handler hands its command to the service; the answer is the service's result.  The guards
before it do not look at the body. -/
def create (dto : CreateOrderDto) (ctx : ApiContext) : Service CreateOrderResult :=
  CreateOrderService.execute (command dto) ctx

end OrderController

/-! ## `POST /order` -/

/-- `String(n)`. -/
def JsNumber.toText : JsNumber → String
  | .finite q => Decimal.toJsText q
  | .infinite negative => if negative then "-Infinity" else "Infinity"
  | .nan => "NaN"

/-- `n <= 0`. -/
def JsNumber.isNonpos : JsNumber → Bool
  | .finite q => q ≤ 0
  | .infinite negative => negative
  | .nan => false

/-- What the compatibility route answers.  A refusal is an answer, too, and has the status of a
success. -/
inductive CompatReply
  | refused (message : String)
  | accepted (result : CreateOrderResult)

namespace PublicController

/-! The values that the handler converts, and what they are converted to. -/

/-- `body['storeId'] ?? ''`, any value that JSON has. -/
def storeIdValue (body : JsValue) : JsValue := (body.get "storeId").coalesce (.string "")

/-- `String(body['storeId'] ?? '')`. -/
def storeId (body : JsValue) : String := (storeIdValue body).toText

/-- `body['total'] ?? body['amount'] ?? 0`: two names for the amount, the first of which counts. -/
def totalValue (body : JsValue) : JsValue :=
  (body.get "total").coalesce ((body.get "amount").coalesce (.number "0"))

/-- `total`. -/
def total (body : JsValue) : JsNumber := (totalValue body).toNumber

/-- `body['idempotencyKey'] ?? uuidv4()`. -/
def keyValue (body : JsValue) (key : Uuid) : JsValue :=
  (body.get "idempotencyKey").coalesce (.string key.toText)

/-- `item['id'] ?? item['menuId'] ?? ''`. -/
def menuIdValue (item : JsValue) : JsValue :=
  (item.get "id").coalesce ((item.get "menuId").coalesce (.string ""))

/-- `item['quantity'] ?? 1`. -/
def quantityValue (item : JsValue) : JsValue := (item.get "quantity").coalesce (.number "1")

/-- `rawItems.map(...)` on an item: its id and its quantity, made a text and a number. -/
def commandItem (item : JsValue) : Except OrderError CommandItem :=
  if item.isNullish then .error (.typeError "Cannot read properties of null (reading 'id')")
  else if ¬ (menuIdValue item).hasText ∨ ¬ (quantityValue item).hasText then .error .noPrimitive
  else .ok ⟨(menuIdValue item).toText, (quantityValue item).toNumber⟩

/-- `rawItems`, mapped.  What is no array has no such method. -/
def commandItems (body : JsValue) : Except OrderError (List CommandItem) :=
  match (body.get "items").coalesce (.array []) with
  | .array elements => elements.mapM commandItem
  | _ => .error (.typeError "rawItems.map is not a function")

/-- What `createOrderCompat` hands to the service, or the message of its refusal; `key` is what
`uuidv4()` gives for a missing idempotency key. -/
def command (body : JsValue) (key : Uuid) : Except OrderError (Except String CreateOrderCommand) :=
  if ¬ (storeIdValue body).hasText ∨ ¬ (totalValue body).hasText then .error .noPrimitive
  else if storeId body = "" then .ok (.error "storeId가 필요합니다.")
  else if (total body).isNonpos then .ok (.error "유효한 주문 금액이 필요합니다.")
  else if ¬ (keyValue body key).hasText then .error .noPrimitive
  else
    (commandItems body).map fun items => .ok
      { idempotencyKey := (keyValue body key).toText
        storeId := storeId body
        userId := none
        requestedAmount := (total body).toText
        items := items }

/-- The handler.  What is missing is answered with a message under the status of a success; a value
without a text makes it throw. -/
def createOrderCompat (body : JsValue) (key : Uuid) (ctx : ApiContext) : Service CompatReply :=
  match command body key with
  | .error err => Program.throw err
  | .ok (.error message) => return .refused message
  | .ok (.ok cmd) => do
      let result ← CreateOrderService.execute cmd ctx
      return .accepted result

end PublicController

/-! ## `POST /internal/orders` -/

/-- The fields of an item that the service reads, with the types of the interface. -/
structure BridgeItemDto where
  menuId : String
  quantity : JsNumber

/-- The body of `POST /internal/orders` as its interface declares it.  Nothing checks it at run
time: `ChickenOrder.Services.UntypedOrders` has the same handler for any JSON. -/
structure BridgeOrderDto where
  orderId : String
  storeId : String
  items : List BridgeItemDto
  totalAmount : JsNumber

/-- The answer: the caller's own id, and the order's.  The first is the idempotency key, so that a
caller can match the two. -/
structure BridgeReply where
  orderId : String
  nestOrderId : Uuid
  replayed : Bool

namespace InternalBridgeController

/-- What `bridgeOrder` hands to the service.  The caller's order id is the idempotency key, and the
amount the text of a number. -/
def command (dto : BridgeOrderDto) : CreateOrderCommand where
  idempotencyKey := dto.orderId
  storeId := dto.storeId
  userId := none
  requestedAmount := dto.totalAmount.toText
  items := dto.items.map fun item => ⟨item.menuId, item.quantity⟩

/-- The key is compared if one is configured.  Without one everybody is let in. -/
def bridgeOrder (bridgeApiKey : String) (apiKey : Option String) (dto : BridgeOrderDto)
    (ctx : ApiContext) : Service BridgeReply :=
  if bridgeApiKey ≠ "" ∧ apiKey ≠ some bridgeApiKey then
    Program.throw (.http 401 "Invalid bridge API key")
  else do
    let result ← CreateOrderService.execute (command dto) ctx
    return ⟨dto.orderId, result.orderId, result.replayed⟩

end InternalBridgeController

/-! The body with everything that has a price, in numbers as JSON writes them. -/

/-- A finite number with finitely many places. -/
structure JsonNumber where
  value : ℚ
  isDecimal : Decimal.IsDecimal value

/-- An item of the interface with the prices it declares, as numbers in JSON are.  What an option
costs is declared beside the item's own price. -/
structure PricedItemDto where
  menuId : String
  menuName : String
  quantity : JsonNumber
  unitPrice : JsonNumber
  optionPrice : Option JsonNumber

/-- The body of the interface with the prices of its items. -/
structure PricedOrderDto where
  orderId : String
  storeId : String
  items : List PricedItemDto
  totalAmount : JsonNumber

namespace InternalBridgeController

/-- An item as `bridgeOrder` maps it.  The command's type has no name and no price, but the object
has them. -/
structure MappedItem where
  menuId : String
  menuName : String
  quantity : JsNumber
  unitPrice : ℚ

/-- `item.unitPrice + (item.optionPrice ?? 0)` is its price. -/
def mapItem (item : PricedItemDto) : MappedItem where
  menuId := item.menuId
  menuName := item.menuName
  quantity := .finite item.quantity.value
  unitPrice := item.unitPrice.value + (item.optionPrice.map JsonNumber.value).getD 0

/-- What the service reads of a mapped item: it has a menu id and a quantity. -/
def MappedItem.read (item : MappedItem) : CommandItem := ⟨item.menuId, item.quantity⟩

end InternalBridgeController

/-- What the controller and the service read of the body. -/
def PricedOrderDto.read (dto : PricedOrderDto) : BridgeOrderDto where
  orderId := dto.orderId
  storeId := dto.storeId
  items := dto.items.map fun item => ⟨item.menuId, .finite item.quantity.value⟩
  totalAmount := .finite dto.totalAmount.value

/-- The mapped items are the command's, as far as they are read. -/
theorem PricedOrderDto.command_items (dto : PricedOrderDto) :
    (InternalBridgeController.command dto.read).items =
      dto.items.map fun item => (InternalBridgeController.mapItem item).read := by
  unfold InternalBridgeController.command PricedOrderDto.read
  rw [List.map_map]
  rfl

/-! ## What the callers hand over -/

/-- A command that one of the three callers can make, if the bridge's bodies are of the interface's
types.  `Handed` is the same without that condition. -/
inductive Submitted : CreateOrderCommand → Prop
  | create (dto : CreateOrderDto) (h : dto.Valid) : Submitted (OrderController.command dto)
  | createOrderCompat (body : JsValue) (key : Uuid) (cmd : CreateOrderCommand)
      (h : PublicController.command body key = .ok (.ok cmd)) : Submitted cmd
  | bridgeOrder (dto : BridgeOrderDto) : Submitted (InternalBridgeController.command dto)

/-- Every caller passes on a UUID for the user, or none. -/
theorem Submitted.userId {cmd : CreateOrderCommand} (h : Submitted cmd) :
    ∀ userId ∈ cmd.userId, ∃ u, Uuid.ofText? userId = some u := by
  cases h with
  | create dto h => exact fun userId huser => ofText?_of_matchesUuid (h.userId userId huser)
  | createOrderCompat body key cmd h =>
      unfold PublicController.command at h
      split_ifs at h
      · cases h
      · cases h
      · cases hitems : PublicController.commandItems body with
        | error e =>
            rw [hitems] at h
            cases h
        | ok items =>
            rw [hitems] at h
            cases h
            exact nofun
  | bridgeOrder dto => exact nofun

/-- A quantity of a valid item is a positive whole number. -/
theorem OrderItemDto.Valid.quantity {dto : OrderItemDto} (h : dto.Valid) :
    ∃ n : ℕ, dto.quantity = n ∧ 0 < n := by
  have hwhole : (dto.quantity.num : ℚ) = dto.quantity := (Rat.den_eq_one_iff _).mp h.isInt
  have hmin : (1 : ℤ) ≤ dto.quantity.num := by
    have hmin := h.min
    rw [← hwhole] at hmin
    exact_mod_cast hmin
  obtain ⟨n, hn⟩ := Int.eq_ofNat_of_zero_le (by omega : 0 ≤ dto.quantity.num)
  rw [hn] at hwhole
  refine ⟨n, ?_, by omega⟩
  rw [← hwhole]
  rfl

end ChickenOrder
