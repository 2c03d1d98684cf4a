import ChickenOrder.Values.Numerals

/-!
# `Number(v)`

The coercions of a JSON value to a number and to a truth value.  A text is read as the
double nearest to it, and a double stands here for the decimal that `String(n)` prints: the
shortest one that is read as that double again.

Three notations are read: decimals with an optional exponent, `Infinity`, and digits to the
bases 2, 8 and 16 behind a prefix.  White space around them is ignored, and the empty text is
zero.  A number that is too large for a double is infinite.
-/

namespace ChickenOrder

/-! ## Doubles -/

namespace Double

/-- The double nearest to `q`, halves to the one with an even significand; `none` where that
is infinite. -/
def nearest? (q : ℚ) : Option ℚ :=
  let x := Numeric.roundTo Numeric.halfEven ((2 : ℚ) ^ max (Int.log 2 |q| - 52) (-1074)) q
  if |x| < 2 ^ 1024 then some x else none

/-- The decimal that is printed for a double that is not negative: of the decimals that are
read as it, one with the fewest digits, and the nearest of those.  Seventeen digits are always
enough. -/
def shortest (x : ℚ) : ℚ :=
  let printed := (List.range 17).findSome? fun n =>
    let place := (10 : ℚ) ^ (Int.log 10 x - n)
    [Numeric.roundTo Numeric.halfEven place x, ⌊x / place⌋ * place, (⌊x / place⌋ + 1) * place].find?
      fun d => nearest? d = some x
  printed.getD x

/-- The number that the decimal `q` is read as. -/
def read (q : ℚ) : JsNumber :=
  match nearest? |q| with
  | none => .infinite (q < 0)
  | some x => .finite (if q < 0 then -shortest x else shortest x)

end Double

/-! ## Texts -/

namespace JsNumber

/-- The digits of a numeral to a base. -/
def readRadix (base : ℕ) : List Char → ℕ → JsNumber
  | [], acc => .finite acc
  | c :: cs, acc =>
      match Uuid.hexDigit? c with
      | some d => if d < base then readRadix base cs (acc * base + d) else .nan
      | none => .nan

/-- An unsigned decimal numeral, or `Infinity`. -/
def readUnsigned (cs : List Char) : JsNumber :=
  if cs = "Infinity".toList then .infinite false
  else
    match Decimal.readUnsigned cs with
    | some q => .finite q
    | none => .nan

/-- A numeral with a base prefix has at least one digit and no sign. -/
def readPrefixed (base : ℕ) (ds : List Char) : JsNumber :=
  if ds.isEmpty then .nan else readRadix base ds 0

/-- `s.trim()`. -/
def trim (cs : List Char) : List Char :=
  ((cs.dropWhile Decimal.isJsSpace).reverse.dropWhile Decimal.isJsSpace).reverse

/-- The value of a numeric string. -/
def valueOfText (s : String) : JsNumber :=
  match trim s.toList with
  | [] => .finite 0
  | '0' :: 'x' :: ds => readPrefixed 16 ds
  | '0' :: 'X' :: ds => readPrefixed 16 ds
  | '0' :: 'o' :: ds => readPrefixed 8 ds
  | '0' :: 'O' :: ds => readPrefixed 8 ds
  | '0' :: 'b' :: ds => readPrefixed 2 ds
  | '0' :: 'B' :: ds => readPrefixed 2 ds
  | '-' :: cs => (readUnsigned cs).neg
  | '+' :: cs => readUnsigned cs
  | cs => readUnsigned cs

/-- `Number(s)` of a string. -/
def ofText (s : String) : JsNumber :=
  match valueOfText s with
  | .finite q => Double.read q
  | n => n

example : (ofText " 18000 ", ofText "1.5e3", ofText "0x10", ofText "", ofText "12px") =
    (.finite 18000, .finite 1500, .finite 16, .finite 0, .nan) := by decide +kernel

/-- A double has some sixteen digits and an end. -/
example : (ofText "0.1", ofText "36000.0000000000000000001", ofText "-1e400") =
    (.finite (1 / 10), .finite 36000, .infinite true) := by decide +kernel

end JsNumber

namespace JsValue

/-- `Number(v)`. -/
def toNumber : JsValue → JsNumber
  | .undefined => .nan
  | .null => .finite 0
  | .bool b => .finite (if b then 1 else 0)
  | .number text => .ofText text
  | .string s => .ofText s
  | .array elements => .ofText (joinText elements)
  | .object _ => .nan

/-- Whether a condition takes `v` as true. -/
def isTruthy : JsValue → Bool
  | .undefined => false
  | .null => false
  | .bool b => b
  | .number text => text ≠ "0" ∧ text ≠ "NaN"
  | .string s => s ≠ ""
  | .array _ => true
  | .object _ => true

end JsValue

end ChickenOrder
