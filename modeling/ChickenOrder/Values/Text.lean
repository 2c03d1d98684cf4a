import Mathlib.Algebra.Group.Nat.Defs
import Mathlib.Data.List.Basic
import Mathlib.Data.Rat.Floor
import Mathlib.Tactic.Common
import ChickenOrder.Numeric.SignificantDigits
import ChickenOrder.Values.CaseMapping

/-!
# The scalar values of the two runtimes

What crosses the boundary between the TypeScript services, JSON bodies and
Postgres columns: parsed JSON (`JsValue`) with `String(v)` and `toUpperCase()`,
UUIDs as the `uuid` type reads and prints them, and decimals as `decimal.js` and
`NUMERIC(10,2)` read, round and print them.

`decimal.js` and `NUMERIC` are decimal, and a JavaScript number stands here for the
decimal that `String(n)` prints.  `decimal.js` reads and compares a decimal with all
its digits, and keeps twenty of a sum or a product.
-/

namespace ChickenOrder

/-- Milliseconds since the epoch, as `Date.now()` gives them. -/
abbrev Time := ℕ

/-! ## JSON values -/

/-- A parsed JSON value, or `undefined` where a property is missing.  A number
is kept by the text `String(n)` prints for it. -/
inductive JsValue
  | undefined
  | null
  | bool (b : Bool)
  | number (text : String)
  | string (s : String)
  | array (elements : List JsValue)
  | object (fields : List (String × JsValue))

namespace JsValue

/-- `v[name]`.  Of what a value inherits, one member has a name that the services read: the method
`sort` of an array.  It stands here for its text, which every use makes of it. -/
def get (v : JsValue) (name : String) : JsValue :=
  match v with
  | .object fields => (fields.lookup name).getD .undefined
  | .array _ => if name = "sort" then .string "function sort() { [native code] }" else .undefined
  | _ => .undefined

/-- `v === undefined || v === null`. -/
def isNullish : JsValue → Bool
  | .undefined => true
  | .null => true
  | _ => false

/-- `v ?? fallback`.  Unlike `||` it keeps an empty text and a zero. -/
def coalesce (v fallback : JsValue) : JsValue := if v.isNullish then fallback else v

mutual

/-- `String(v)`, where it returns.  An object prints as `[object Object]`, an array as its elements
with commas. -/
def toText : JsValue → String
  | .undefined => "undefined"
  | .null => "null"
  | .bool true => "true"
  | .bool false => "false"
  | .number text => text
  | .string s => s
  | .array elements => joinText elements
  | .object _ => "[object Object]"

/-- `elements.join(',')`: missing elements print as nothing. -/
def joinText : List JsValue → String
  | [] => ""
  | [v] => if v.isNullish then "" else toText v
  | v :: w :: rest => (if v.isNullish then "" else toText v) ++ "," ++ joinText (w :: rest)

end

mutual

/-- Whether `String(v)` and `Number(v)` return.  A property `toString` hides the method of that
name, and as nothing in JSON is a function, such an object has no primitive value. -/
def hasText : JsValue → Bool
  | .array elements => allHaveText elements
  | .object fields => (fields.lookup "toString").isNone
  | _ => true

/-- Every element has a text, which is what `join` needs of an array. -/
def allHaveText : List JsValue → Bool
  | [] => true
  | v :: rest => hasText v && allHaveText rest

end

end JsValue

/-- `s.toUpperCase()`. -/
def toUpperCase (s : String) : String := String.ofList (s.toList.flatMap upperChar)

example : toUpperCase "Cancelled" = "CANCELLED" := by decide +kernel

/-! ## UUIDs -/

/-- A value of Postgres' `uuid` type: 128 bits, of which the text is only a spelling. -/
structure Uuid where
  bits : BitVec 128
  deriving DecidableEq

namespace Uuid

/-- The value of a hexadecimal digit of either letter case. -/
def hexDigit? (c : Char) : Option ℕ :=
  if '0' ≤ c ∧ c ≤ '9' then some (c.toNat - 48)
  else if 'a' ≤ c ∧ c ≤ 'f' then some (c.toNat - 87)
  else if 'A' ≤ c ∧ c ≤ 'F' then some (c.toNat - 55)
  else none

/-- Read the remaining bytes of a `uuid`; a hyphen may follow every second
byte except the last. -/
def readBytes : ℕ → ℕ → List Char → Option (ℕ × List Char)
  | 0, acc, cs => some (acc, cs)
  | n + 1, acc, hi :: lo :: cs =>
      match hexDigit? hi, hexDigit? lo with
      | some x, some y =>
          let acc' := acc * 256 + x * 16 + y
          match cs with
          | '-' :: cs' => if n % 2 = 0 ∧ 0 < n then readBytes n acc' cs' else readBytes n acc' cs
          | cs => readBytes n acc' cs
      | _, _ => none
  | _ + 1, _, _ => none

/-- Postgres' input function of type `uuid`: any letter case, braces and hyphens optional. -/
def ofText? (s : String) : Option Uuid :=
  match s.toList with
  | '{' :: cs =>
      match readBytes 16 0 cs with
      | some (n, ['}']) => some ⟨BitVec.ofNat 128 n⟩
      | _ => none
  | cs =>
      match readBytes 16 0 cs with
      | some (n, []) => some ⟨BitVec.ofNat 128 n⟩
      | _ => none

/-- The lower-case hexadecimal digits of `n`, exactly `width` of them. -/
def hexDigits : ℕ → ℕ → List Char
  | 0, _ => []
  | width + 1, n => hexDigits width (n / 16) ++ [Nat.digitChar (n % 16)]

/-- Postgres' output function of type `uuid`, which is also the form `uuidv4()`
generates. -/
def toText (u : Uuid) : String :=
  let ds := hexDigits 32 u.bits.toNat
  String.ofList (ds.take 8 ++ ['-'] ++ (ds.drop 8).take 4 ++ ['-'] ++ (ds.drop 12).take 4 ++
    ['-'] ++ (ds.drop 16).take 4 ++ ['-'] ++ ds.drop 20)

end Uuid

/-! ## Decimals -/

namespace Decimal

/-- The leading digits of a text: their value, their number and the rest. -/
def readDigits : List Char → ℕ → ℕ → ℕ × ℕ × List Char
  | c :: cs, acc, n =>
      if '0' ≤ c ∧ c ≤ '9' then readDigits cs (acc * 10 + (c.toNat - 48)) (n + 1)
      else (acc, n, c :: cs)
  | [], acc, n => (acc, n, [])

/-- The optional exponent part of a decimal text; `none` if malformed. -/
def readExponent : List Char → Option ℤ
  | [] => some 0
  | c :: cs =>
      if c = 'e' ∨ c = 'E' then
        let (neg, ds) := match cs with
          | '-' :: ds => (true, ds)
          | '+' :: ds => (false, ds)
          | ds => (false, ds)
        match readDigits ds 0 0 with
        | (v, _ + 1, []) => some (if neg then -(v : ℤ) else v)
        | _ => none
      else none

/-- An unsigned decimal text: digits, an optional fraction, an optional
exponent, with at least one digit before the exponent. -/
def readUnsigned (cs : List Char) : Option ℚ :=
  let (whole, n, rest) := readDigits cs 0 0
  let (frac, m, rest) := match rest with
    | '.' :: rest => readDigits rest 0 0
    | rest => (0, 0, rest)
  if n + m = 0 then none
  else (readExponent rest).map fun e =>
    ((whole : ℚ) + (frac : ℚ) / 10 ^ m) * (10 : ℚ) ^ e

/-- `new Decimal(s)` on decimal notation; `none` where it throws.  `NUMERIC` reads the same
notation, with a bound on exponents. -/
def ofText? (s : String) : Option ℚ :=
  match s.toList with
  | '-' :: cs => (readUnsigned cs).map Neg.neg
  | '+' :: cs => readUnsigned cs
  | cs => readUnsigned cs

/-- The number of hundredths nearest to `q`, halves away from zero. -/
def hundredths (q : ℚ) : ℤ :=
  let n := (q.num.natAbs * 200 + q.den) / (2 * q.den)
  if q.num < 0 then -(n : ℤ) else n

/-- Rounding to scale two, as `NUMERIC(10,2)` stores it: to the nearest hundredth, halves away from
zero. -/
def round2 (q : ℚ) : ℚ := (hundredths q : ℚ) / 100

/-- `toFixed(2)`, of the number rounded to hundredths.  It has a sign if the number is negative,
even where only zeros follow. -/
def toFixed2 (q : ℚ) : String :=
  let n := (hundredths q).natAbs
  let cents := n % 100
  (if q.num < 0 then "-" else "") ++ toString (n / 100) ++ "." ++
    (if cents < 10 then "0" else "") ++ toString cents

/-- The twenty digits that `decimal.js` keeps of a result, halves away from zero: its
default `precision` and `rounding`. -/
def round20 (q : ℚ) : ℚ := Numeric.roundDigits Numeric.halfAway 10 20 q

/-- `total.plus(line)` over all the lines, of which each is a product: every one of these results
keeps twenty digits. -/
def plusAll (total : ℚ) (lines : List ℚ) : ℚ :=
  lines.foldl (fun total line => round20 (total + round20 line)) total

/-- The range of `NUMERIC(10,2)`. -/
def FitsNumeric (q : ℚ) : Prop := (hundredths q).natAbs < 10 ^ 10

instance (q : ℚ) : Decidable (FitsNumeric q) := inferInstanceAs (Decidable (_ < _))

end Decimal

/-! ## Numbers -/

/-- A JavaScript number, or a `Decimal`.  Both have infinities and `NaN`, and which digits they keep
is said where they are computed. -/
inductive JsNumber
  | finite (q : ℚ)
  | infinite (negative : Bool)
  | nan
  deriving DecidableEq

namespace JsNumber

instance (n : ℕ) : OfNat JsNumber n := ⟨.finite n⟩

/-- The number, where it is finite. -/
def value : JsNumber → ℚ
  | .finite q => q
  | _ => 0

@[simp] theorem value_finite (q : ℚ) : (JsNumber.finite q).value = q := rfl

/-- `-x`: the other sign, and `NaN` for `NaN`. -/
def neg : JsNumber → JsNumber
  | .finite q => .finite (-q)
  | .infinite negative => .infinite !negative
  | .nan => .nan

/-- `x.plus(y)`.  The result has twenty digits; infinities of both signs make `NaN`. -/
def add : JsNumber → JsNumber → JsNumber
  | .finite q, .finite r => .finite (Decimal.round20 (q + r))
  | .finite _, .infinite negative => .infinite negative
  | .infinite negative, .finite _ => .infinite negative
  | .infinite negative, .infinite negative' => if negative = negative' then .infinite negative else .nan
  | .nan, _ => .nan
  | _, .nan => .nan

/-- `new Decimal(q).times(n)` of a finite `q`, to twenty digits. -/
def scale (q : ℚ) : JsNumber → JsNumber
  | .finite r => .finite (Decimal.round20 (q * r))
  | .infinite negative => if q = 0 then .nan else .infinite (if q < 0 then !negative else negative)
  | .nan => .nan

/-- `x.equals(y)`: not even `NaN` equals `NaN`.  Values are compared, not spellings. -/
def equals : JsNumber → JsNumber → Bool
  | .finite q, .finite r => q = r
  | .infinite negative, .infinite negative' => negative = negative'
  | _, _ => false

/-- `x.toFixed(2)`. -/
def toFixed2 : JsNumber → String
  | .finite q => Decimal.toFixed2 q
  | .infinite negative => if negative then "-Infinity" else "Infinity"
  | .nan => "NaN"

/-- `new Decimal(s)`; `none` where it throws. -/
def ofDecimalText? (s : String) : Option JsNumber :=
  if s = "NaN" then some .nan
  else if s = "Infinity" then some (.infinite false)
  else if s = "-Infinity" then some (.infinite true)
  else (Decimal.ofText? s).map .finite

end JsNumber

end ChickenOrder
