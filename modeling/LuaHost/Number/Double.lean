set_option autoImplicit false

/-!
# Doubles as exact numbers

A finite double is a signed integer times a power of two. Both directions are exact: a double is
taken apart without loss, and a quotient of naturals goes to the nearest double, ties to even.
-/

namespace LuaHost.Double

/-- What a double stands for: `finite neg m e` is m · 2^e with the sign of `neg`. -/
inductive View where
  | nan
  | infinite (neg : Bool)
  | finite (neg : Bool) (mantissa : Nat) (exponent : Int)
deriving DecidableEq, Repr

def viewBits (bits : UInt64) : View :=
  let neg := bits >>> 63 == 1
  let biased := ((bits >>> 52) &&& 0x7FF).toNat
  let fraction := (bits &&& 0xFFFFFFFFFFFFF).toNat
  if biased == 0x7FF then if fraction == 0 then .infinite neg else .nan
  else if biased == 0 then .finite neg fraction (-1074)
  else .finite neg (fraction + 0x10000000000000) (biased - 1075)

def view (x : Float) : View := viewBits x.toBits

def isNegative (x : Float) : Bool := x.toBits >>> 63 == 1

/-- `num / den` rounded to a natural, a half to the even neighbour. -/
def roundEven (num den : Nat) : Nat :=
  let q := num / den
  let r := num % den
  if 2 * r < den then q else if den < 2 * r then q + 1 else if q % 2 == 0 then q else q + 1

/-- `m · 2^e` as a quotient of naturals. -/
def ratio (m : Nat) (e : Int) : Nat × Nat :=
  if 0 ≤ e then (m * Nat.pow 2 e.toNat, 1) else (m, Nat.pow 2 (-e).toNat)

/-- The exponent `k` with 2^k ≤ num/den < 2^(k+1), for positive `num` and `den`. -/
def log2Ratio (num den : Nat) : Int :=
  let guess : Int := (num.log2 : Int) - den.log2
  let (a, b) := if 0 ≤ guess then (num, den * Nat.pow 2 guess.toNat) else (num * Nat.pow 2 (-guess).toNat, den)
  if a < b then guess - 1 else guess

def signBits (neg : Bool) : UInt64 := if neg then 0x8000000000000000 else 0

/-- The double nearest to the quotient `num / den`, ties to even; `none` when it is too large. -/
def ofRatio? (neg : Bool) (num den : Nat) : Option Float :=
  if num == 0 then some (Float.ofBits (signBits neg))
  else
    let q : Int := max (log2Ratio num den - 52) (-1074)
    let m := if 0 ≤ q then roundEven num (den * Nat.pow 2 q.toNat) else roundEven (num * Nat.pow 2 (-q).toNat) den
    let (m, q) := if m == 0x20000000000000 then (0x10000000000000, q + 1) else (m, q)
    if m < 0x10000000000000 then some (Float.ofBits (signBits neg ||| m.toUInt64))
    else if 972 ≤ q then none
    else some (Float.ofBits (signBits neg ||| ((q + 1075).toNat.toUInt64 <<< 52)
      ||| (m - 0x10000000000000).toUInt64))

def infinity (neg : Bool) : Float := Float.ofBits (signBits neg ||| 0x7FF0000000000000)

/-- The double nearest to `num / den`, an infinity when it is too large. -/
def ofRatio (neg : Bool) (num den : Nat) : Float := (ofRatio? neg num den).getD (infinity neg)

/-- The double nearest to an integer; `none` when it is too large. -/
def ofInt? (n : Int) : Option Float := ofRatio? (n < 0) n.natAbs 1

def ofInt (n : Int) : Float := ofRatio (n < 0) n.natAbs 1

/-- The integer part, rounded toward zero; `none` for NaN and the infinities. -/
def truncate? (x : Float) : Option Int :=
  match view x with
  | .finite neg m e =>
    let (num, den) := ratio m e
    some (if neg then -((num / den : Nat) : Int) else ((num / den : Nat) : Int))
  | _ => none

/-- The value as an integer, if it is one. -/
def toInt? (x : Float) : Option Int :=
  match view x with
  | .finite neg m e =>
    let (num, den) := ratio m e
    if num % den == 0 then some (if neg then -((num / den : Nat) : Int) else ((num / den : Nat) : Int))
    else none
  | _ => none

end LuaHost.Double
