import LuaHost.Lua.Generation
import LuaHost.Number.Double

set_option autoImplicit false

/-!
# Numerals

Reading a number from its text: decimal and hexadecimal, with fraction and exponent, surrounded by
blanks. Generations with integers give one where the text has neither fraction nor exponent.
-/

namespace LuaHost.Lua

/-- A number: an integer modulo 2^64 or a double. -/
inductive Numeral where
  | int (n : Int64)
  | float (x : Float)

namespace Numeral

def isSpace (b : UInt8) : Bool := b == 32 || (9 ≤ b && b ≤ 13)
def isDigit (b : UInt8) : Bool := 48 ≤ b && b ≤ 57
def isAlpha (b : UInt8) : Bool := (65 ≤ b && b ≤ 90) || (97 ≤ b && b ≤ 122)
def isAlnum (b : UInt8) : Bool := isDigit b || isAlpha b

/-- The value of a digit in bases up to 36. -/
def digit? (b : UInt8) : Option Nat :=
  if isDigit b then some (b.toNat - 48)
  else if 97 ≤ b && b ≤ 122 then some (b.toNat - 87)
  else if 65 ≤ b && b ≤ 90 then some (b.toNat - 55)
  else none

def isHexDigit (b : UInt8) : Bool := match digit? b with
  | some d => d < 16
  | none => false

/-- The longest run of digits below `base`: its value, its length and the rest. -/
def digits (base : Nat) (value count : Nat) : List UInt8 → Nat × Nat × List UInt8
  | [] => (value, count, [])
  | b :: rest =>
    match digit? b with
    | some d => if d < base then digits base (value * base + d) (count + 1) rest
      else (value, count, b :: rest)
    | none => (value, count, b :: rest)

def sign : List UInt8 → Bool × List UInt8
  | 45 :: rest => (true, rest)
  | 43 :: rest => (false, rest)
  | rest => (false, rest)

/-- An exponent introduced by the letter with the given lower and upper case. -/
def exponent (lower upper : UInt8) (bs : List UInt8) : Option Int × List UInt8 :=
  match bs with
  | [] => (none, [])
  | b :: rest =>
    if b == lower || b == upper then
      let (neg, rest) := sign rest
      let (n, count, rest') := digits 10 0 0 rest
      if count == 0 then (none, bs) else (some (if neg then -(n : Int) else n), rest')
    else (none, bs)

/-- `m · 10^e` with `count` digits in `m`, far exponents cut short. -/
def scaleTen (neg : Bool) (m count : Nat) (e : Int) : Float :=
  if m == 0 then Double.ofRatio neg 0 1
  else if 400 < e + count then Double.infinity neg
  else if e + count < -400 then Double.ofRatio neg 0 1
  else if 0 ≤ e then Double.ofRatio neg (m * Nat.pow 10 e.toNat) 1
  else Double.ofRatio neg m (Nat.pow 10 (-e).toNat)

/-- `m · 2^e` with `bits` binary digits in `m`, far exponents cut short. -/
def scaleTwo (neg : Bool) (m bits : Nat) (e : Int) : Float :=
  if m == 0 then Double.ofRatio neg 0 1
  else if 1200 < e + bits then Double.infinity neg
  else if e + bits < -1200 then Double.ofRatio neg 0 1
  else if 0 ≤ e then Double.ofRatio neg (m * Nat.pow 2 e.toNat) 1
  else Double.ofRatio neg m (Nat.pow 2 (-e).toNat)

/-- An unsigned decimal with optional fraction and exponent at the start of the bytes. -/
def decimalFloat (neg : Bool) (bs : List UInt8) : Option (Float × List UInt8) :=
  let (whole, n₁, rest) := digits 10 0 0 bs
  let (m, n₂, rest) := match rest with
    | 46 :: rest' => let (m, n, rest'') := digits 10 whole 0 rest'; (m, n, rest'')
    | _ => (whole, 0, rest)
  if n₁ + n₂ == 0 then none
  else
    let (e, rest) := exponent 101 69 rest
    some (scaleTen neg m (n₁ + n₂) (e.getD 0 - n₂), rest)

/-- The same in base sixteen, after the mark 0x, with a binary exponent. -/
def hexFloat (neg : Bool) (bs : List UInt8) : Option (Float × List UInt8) :=
  let (whole, n₁, rest) := digits 16 0 0 bs
  let (m, n₂, rest) := match rest with
    | 46 :: rest' => let (m, n, rest'') := digits 16 whole 0 rest'; (m, n, rest'')
    | _ => (whole, 0, rest)
  if n₁ + n₂ == 0 then none
  else
    let (e, rest) := exponent 112 80 rest
    some (scaleTwo neg m (4 * (n₁ + n₂)) (e.getD 0 - 4 * n₂), rest)

def isHexMark : List UInt8 → Option (List UInt8)
  | 48 :: 120 :: rest => some rest
  | 48 :: 88 :: rest => some rest
  | _ => none

/-- An integer filling the whole text: decimal if it fits 64 bits, hexadecimal modulo 2^64. -/
def integer? (bs : List UInt8) : Option Int64 :=
  let (neg, bs) := sign bs
  match isHexMark bs with
  | some rest =>
    let (n, count, rest) := digits 16 0 0 rest
    if count != 0 && rest.isEmpty then some (Int64.ofInt (if neg then -(n : Int) else n)) else none
  | none =>
    let (n, count, rest) := digits 10 0 0 bs
    if count == 0 || !rest.isEmpty then none
    else if n < 0x8000000000000000 || (neg && n == 0x8000000000000000) then some (Int64.ofInt (if neg then -(n : Int) else n))
    else none

/-- A word such as `inf` at the start of the bytes, in any case. -/
def word? (word : String) (bs : List UInt8) : Option (List UInt8) :=
  let w := word.toUTF8.data.toList
  let lower (b : UInt8) : UInt8 := if 65 ≤ b && b ≤ 90 then b + 32 else b
  if (bs.take w.length).map lower == w then some (bs.drop w.length) else none

/-- A double filling the whole text. The oldest generation also reads the names of the infinities
and of NaN. -/
def float? (g : Generation) (bs : List UInt8) : Option Float :=
  let (neg, bs) := sign bs
  let named : Option (Float × List UInt8) :=
    if g == .v51 then
      match word? "infinity" bs, word? "inf" bs, word? "nan" bs with
      | some rest, _, _ => some (Double.infinity neg, rest)
      | none, some rest, _ => some (Double.infinity neg, rest)
      | none, none, some rest => some (0.0 / 0.0, rest)
      | none, none, none => none
    else none
  let read := match named with
    | some r => some r
    | none => match isHexMark bs with
      | some rest => hexFloat neg rest
      | none => decimalFloat neg bs
  match read with
  | some (x, []) => some x
  | _ => none

def trim (bs : List UInt8) : List UInt8 :=
  ((bs.dropWhile isSpace).reverse.dropWhile isSpace).reverse

/-- The number that a text denotes in the given generation. -/
def read? (g : Generation) (bs : List UInt8) : Option Numeral :=
  let bs := trim bs
  if g.hasIntegers then
    match integer? bs with
    | some n => some (.int n)
    | none => (float? g bs).map .float
  else (float? g bs).map .float

end Numeral
end LuaHost.Lua
