import LuaHost.Number.Double

set_option autoImplicit false

/-!
# Decimal digits of doubles

Digits are chosen by exact arithmetic on the value as a quotient: a given number of significant
digits or of decimal places, rounded half to even, or the fewest digits that read back.
-/

namespace LuaHost.Decimal

/-- The digits of a decimal d₁.d₂…dₖ · 10^exponent with d₁ ≠ 0, or all zero. -/
structure Digits where
  digits : List Nat
  exponent : Int
deriving DecidableEq, Repr

def digitsOf (n : Nat) : List Nat := (Nat.toDigits 10 n).map fun c => c.toNat - 48

/-- `num / den` scaled by 10^k, as a quotient. -/
def scaled (num den : Nat) (k : Int) : Nat × Nat :=
  if 0 ≤ k then (num * Nat.pow 10 k.toNat, den) else (num, den * Nat.pow 10 (-k).toNat)

/-- The exponent `k` with 10^k ≤ num/den < 10^(k+1), for positive `num` and `den`. -/
def log10Ratio (num den : Nat) : Int :=
  let guess : Int := Int.fdiv (Double.log2Ratio num den * 30103) 100000
  let above (k : Int) : Bool := let (a, b) := scaled num den (-k); b ≤ a
  if above (guess + 1) then guess + 1 else if above guess then guess else guess - 1

/-- `count` significant digits of `num / den`, rounded half to even. -/
def significant (num den count : Nat) : Digits :=
  if num == 0 then ⟨List.replicate count 0, 0⟩
  else
    let k := log10Ratio num den
    let (a, b) := scaled num den (count - 1 - k)
    let n := Double.roundEven a b
    if n == Nat.pow 10 count then ⟨digitsOf (Nat.pow 10 (count - 1)), k + 1⟩ else ⟨digitsOf n, k⟩

/-- `num / den` with `places` decimal places, as an integer count of the last place. -/
def fixed (num den places : Nat) : Nat := Double.roundEven (num * Nat.pow 10 places) den

/-- The reals that round to the double m · 2^e lie between these two quotients; the ends belong to
them when `m` is even. -/
structure Interval where
  lowNum : Nat
  highNum : Nat
  den : Nat
  closed : Bool

def roundingInterval (m : Nat) (e : Int) : Interval :=
  let (num, den) := Double.ratio (4 * m) (e - 2)
  let (unit, _) := Double.ratio 4 (e - 2)
  let lowGap := if m == 0x10000000000000 && e != -1074 then unit / 4 else unit / 2
  let (num, den, lowGap, unit) :=
    if 0 ≤ e - 2 then (num, den, lowGap, unit)
    else (4 * m, Nat.pow 2 (2 - e).toNat, (if m == 0x10000000000000 && e != -1074 then 1 else 2), 4)
  ⟨num - lowGap, num + unit / 2, den, m % 2 == 0⟩

def Interval.contains (i : Interval) (num den : Nat) : Bool :=
  let low := i.lowNum * den
  let here := num * i.den
  let high := i.highNum * den
  if i.closed then low ≤ here && here ≤ high else low < here && here < high

/-- The neighbour of `num / den` among decimals with `count` digits that lies in the interval, the
nearer of two; a tie goes to the even one. -/
def candidate (i : Interval) (num den : Nat) (k : Int) (count : Nat) : Option Nat :=
  let (a, b) := scaled num den (count - 1 - k)
  let inside (n : Nat) : Bool := let (x, y) := scaled n 1 (k - (count - 1)); i.contains x y
  let low := a / b
  let nearest := Double.roundEven a b
  let other := if nearest == low then low + 1 else low
  if inside nearest then some nearest else if a % b != 0 && inside other then some other else none

def shortestFrom (i : Interval) (num den : Nat) (k : Int) : Nat → Nat → Digits
  | 0, count => significant num den count
  | fuel + 1, count =>
    match candidate i num den k count with
    | some n => if n == Nat.pow 10 count then ⟨[1], k + 1⟩ else ⟨digitsOf n, k⟩
    | none => shortestFrom i num den k fuel (count + 1)

/-- Trailing zeros dropped, one digit kept. -/
def trim (d : Digits) : Digits :=
  let kept := (d.digits.reverse.dropWhile (· == 0)).reverse
  ⟨if kept.isEmpty then [0] else kept, d.exponent⟩

/-- The fewest digits that read back to m · 2^e, nearest to it among those. -/
def shortest (m : Nat) (e : Int) : Digits :=
  if m == 0 then ⟨[0], 0⟩
  else
    let (num, den) := Double.ratio m e
    trim (shortestFrom (roundingInterval m e) num den (log10Ratio num den) 16 1)

end LuaHost.Decimal
