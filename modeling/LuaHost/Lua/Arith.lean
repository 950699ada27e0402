import LuaHost.Lua.Value
import LuaHost.Lua.Tree
import LuaHost.Number.Format

set_option autoImplicit false

/-!
# Arithmetic

What operators do to numbers and to strings that denote numbers, in each generation. A result
`none` means that the operands are of other types, so metamethods decide.
-/

namespace LuaHost.Lua.Arith

/-- The text of a number: integers in decimal, doubles with 14 digits and, where integers exist, a
mark that tells them apart. -/
def numberText (g : Generation) : Value → Option String
  | .int n => some (toString n.toInt)
  | .float x =>
    let s := if x.isNaN then "-nan" else Number.general 14 x
    if g.hasIntegers && s.toList.all (fun c => c.isDigit || c == '-') then some (s ++ ".0")
    else some s
  | _ => none

/-- The bytes of a string or of a number's text. -/
def text? (g : Generation) : Value → Option ByteArray
  | .str s => some s
  | v => (numberText g v).map String.toUTF8

def numeralValue : Numeral → Value
  | .int n => .int n
  | .float x => .float x

/-- A number, or the number that a string denotes. -/
def toNumber? (g : Generation) : Value → Option Value
  | .int n => some (.int n)
  | .float x => some (.float x)
  | .str s => (Numeral.read? g s.data.toList).map numeralValue
  | _ => none

/-- A number as a double. -/
def toFloat? (g : Generation) (v : Value) : Option Float :=
  match toNumber? g v with
  | some (.int n) => some (Double.ofInt n.toInt)
  | some (.float x) => some x
  | _ => none

/-- A number as an integer, if it has that value exactly. -/
def toInt? (g : Generation) (v : Value) : Option Int64 :=
  match toNumber? g v with
  | some (.int n) => some n
  | some (.float x) => Value.int64OfFloat? x
  | _ => none

/-- The remainder of exact division, with the sign of the dividend. -/
def fmod (x y : Float) : Float :=
  match Double.view x, Double.view y with
  | .finite neg m e, .finite _ n f =>
    if n == 0 then 0.0 / 0.0
    else
      let low := min e f
      let r := (m * Nat.pow 2 (e - low).toNat) % (n * Nat.pow 2 (f - low).toNat)
      let (num, den) := Double.ratio r low
      Double.ofRatio neg num den
  | .finite .., .infinite _ => x
  | _, _ => 0.0 / 0.0

def floatMod (g : Generation) (x y : Float) : Float :=
  if g.hasIntegers then
    let r := fmod x y
    if r * y < 0.0 then r + y else r
  else x - Float.floor (x / y) * y

def floatOp (g : Generation) : BinaryOp → Float → Float → Option Float
  | .add, x, y => some (x + y)
  | .sub, x, y => some (x - y)
  | .mul, x, y => some (x * y)
  | .div, x, y => some (x / y)
  | .mod, x, y => some (floatMod g x y)
  | .pow, x, y => some (if y == 2.0 then x * x else Float.pow x y)
  | .idiv, x, y => some (Float.floor (x / y))
  | _, _, _ => none

def intFloorDiv (a b : Int64) : Int64 := Int64.ofInt (Int.fdiv a.toInt b.toInt)
def intFloorMod (a b : Int64) : Int64 := Int64.ofInt (Int.fmod a.toInt b.toInt)

/-- A logical shift to the left, to the right for negative amounts. -/
def shiftLeft (a b : Int64) : Int64 :=
  let n := b.toInt
  if 64 ≤ n ∨ n ≤ -64 then 0
  else if 0 ≤ n then (a.toUInt64 <<< n.toNat.toUInt64).toInt64
  else (a.toUInt64 >>> (-n).toNat.toUInt64).toInt64

/-- What an operator on numbers comes to. -/
inductive Result where
  | value (v : Value)
  /-- an error of arithmetic itself -/
  | bad (message : String)
  /-- a number that is no integer where one is needed -/
  | noInteger
  /-- not both operands are numbers -/
  | other

def isBitwise : BinaryOp → Bool
  | .band | .bor | .bxor | .shl | .shr => true
  | _ => false

def bitOp : BinaryOp → Int64 → Int64 → Option Int64
  | .band, a, b => some (a &&& b)
  | .bor, a, b => some (a ||| b)
  | .bxor, a, b => some (a ^^^ b)
  | .shl, a, b => some (shiftLeft a b)
  | .shr, a, b => some (shiftLeft a (-b))
  | _, _, _ => none

def intOp : BinaryOp → Int64 → Int64 → Result
  | .add, a, b => .value (.int (a + b))
  | .sub, a, b => .value (.int (a - b))
  | .mul, a, b => .value (.int (a * b))
  | .idiv, a, b => if b == 0 then .bad "attempt to perform 'n//0'" else .value (.int (intFloorDiv a b))
  | .mod, a, b => if b == 0 then .bad "attempt to perform 'n%0'" else .value (.int (intFloorMod a b))
  | _, _, _ => .other

def isNumber : Value → Bool
  | .int _ => true
  | .float _ => true
  | _ => false

/-- An operator between two numbers, or strings that denote them. -/
def binary (g : Generation) (op : BinaryOp) (a b : Value) : Result :=
  if isBitwise op then
    match toNumber? g a, toNumber? g b with
    | some _, some _ =>
      match toInt? g a, toInt? g b with
      | some x, some y =>
        match bitOp op x y with
        | some r => .value (.int r)
        | none => .other
      | _, _ =>
        if isNumber a && isNumber b then .noInteger else .other
    | _, _ => .other
  else
    let bothInts : Option (Int64 × Int64) :=
      match a, b with
      | .int x, .int y => some (x, y)
      | _, _ =>
        if g == .v54 then
          match toNumber? g a, toNumber? g b with
          | some (.int x), some (.int y) => some (x, y)
          | _, _ => none
        else none
    let asInts := match bothInts with
      | some (x, y) => intOp op x y
      | none => .other
    match asInts with
    | .other =>
      match toFloat? g a, toFloat? g b with
      | some x, some y =>
        match floatOp g op x y with
        | some r => .value (.float r)
        | none => .other
      | _, _ => .other
    | r => r

def negate (g : Generation) (a : Value) : Option Value :=
  match a with
  | .int n => some (.int (-n))
  | .float x => some (.float (-x))
  | _ =>
    match toNumber? g a with
    | some (.int n) => some (if g == .v54 then .int (-n) else .float (-(Double.ofInt n.toInt)))
    | some (.float x) => some (.float (-x))
    | _ => none

/-- Exact comparison of an integer with a double: whether it is below, equal or above; NaN is none
of these. -/
def compareIntFloat (n : Int) (x : Float) : Option Ordering :=
  match Double.view x with
  | .nan => none
  | .infinite neg => some (if neg then .gt else .lt)
  | .finite neg m e =>
    let (num, den) := Double.ratio m e
    let value : Int := if neg then -(num : Int) else num
    some (compare (n * den) value)

/-- The order of two numbers; `none` if one is NaN. -/
def compareNumbers (a b : Value) : Option Ordering :=
  match a, b with
  | .int x, .int y => some (compare x.toInt y.toInt)
  | .float x, .float y =>
    if x < y then some .lt else if x == y then some .eq else if y < x then some .gt else none
  | .int x, .float y => compareIntFloat x.toInt y
  | .float x, .int y => (compareIntFloat y.toInt x).map Ordering.swap
  | _, _ => none

/-- The order of two byte strings, byte by byte. -/
def compareBytes : List UInt8 → List UInt8 → Ordering
  | [], [] => .eq
  | [], _ :: _ => .lt
  | _ :: _, [] => .gt
  | a :: as, b :: bs => if a < b then .lt else if b < a then .gt else compareBytes as bs

/-- Whether one value is below another, or not above it; `none` if metamethods decide. -/
def less? (orEqual : Bool) (a b : Value) : Option Bool :=
  let holds (o : Ordering) : Bool := o == .lt || (orEqual && o == .eq)
  if isNumber a && isNumber b then some ((compareNumbers a b).elim false holds)
  else match a, b with
    | .str s, .str t => some (holds (compareBytes s.data.toList t.data.toList))
    | _, _ => none

end LuaHost.Lua.Arith
