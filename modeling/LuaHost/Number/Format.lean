import LuaHost.Number.Decimal

set_option autoImplicit false

/-!
# Texts of numbers

The layouts of decimal digits: positional, scientific, and the general one that picks between them
and drops trailing zeros; and the shortest text that reads back.
-/

namespace LuaHost.Number

def digitString (ds : List Nat) : String := String.ofList (ds.map fun d => Char.ofNat (48 + d))

def zeros (n : Nat) : String := String.ofList (List.replicate n '0')

/-- A sign, then at least two digits. -/
def exponentText (e : Int) : String :=
  let n := toString e.natAbs
  (if e < 0 then "-" else "+") ++ (if n.length < 2 then "0" ++ n else n)

/-- Positional notation of d₁d₂…dₖ · 10^exponent with all digits kept. -/
def positional (d : Decimal.Digits) : String × String :=
  if d.exponent < 0 then ("0", zeros (d.exponent.natAbs - 1) ++ digitString d.digits)
  else
    let whole := d.exponent.toNat + 1
    if d.digits.length ≤ whole then
      (digitString d.digits ++ zeros (whole - d.digits.length), "")
    else (digitString (d.digits.take whole), digitString (d.digits.drop whole))

/-- One digit, a point and the rest, if any, then the exponent. -/
def scientific (d : Decimal.Digits) : String :=
  match d.digits with
  | [] => "0e+00"
  | first :: rest =>
    digitString [first] ++ (if rest.isEmpty then "" else "." ++ digitString rest)
      ++ "e" ++ exponentText d.exponent

def signed (neg : Bool) (s : String) : String := if neg then "-" ++ s else s

/-- General notation with `precision` significant digits and trailing zeros dropped. -/
def general (precision : Nat) (x : Float) : String :=
  match Double.view x with
  | .nan => "nan"
  | .infinite neg => signed neg "inf"
  | .finite neg m e =>
    let precision := max precision 1
    let (num, den) := Double.ratio m e
    let d := Decimal.significant num den precision
    signed neg <|
      if -4 ≤ d.exponent ∧ d.exponent < precision then
        let (whole, part) := positional (Decimal.trim d)
        if part.isEmpty then whole else whole ++ "." ++ part
      else scientific (Decimal.trim d)

/-- The fewest digits that read back; positional from 10^-4 to below 10^16, and then with at least
one decimal place. -/
def shortest (x : Float) : String :=
  match Double.view x with
  | .nan => "nan"
  | .infinite neg => signed neg "inf"
  | .finite neg m e =>
    let d := Decimal.shortest m e
    signed neg <|
      if -4 ≤ d.exponent ∧ d.exponent < 16 then
        let (whole, part) := positional d
        whole ++ "." ++ (if part.isEmpty then "0" else part)
      else scientific d

/-- Positional notation with a fixed number of places. -/
def fixedPlaces (places : Nat) (x : Float) : String :=
  match Double.view x with
  | .nan => "nan"
  | .infinite neg => signed neg "inf"
  | .finite neg m e =>
    let (num, den) := Double.ratio m e
    let ds := toString (Decimal.fixed num den places)
    let ds := if ds.length ≤ places then zeros (places + 1 - ds.length) ++ ds else ds
    let cs := ds.toList
    let whole := String.ofList (cs.take (cs.length - places))
    signed neg (if places == 0 then whole else whole ++ "." ++ String.ofList (cs.drop (cs.length - places)))

/-- Scientific notation with a fixed number of places. -/
def scientificPlaces (places : Nat) (x : Float) : String :=
  match Double.view x with
  | .nan => "nan"
  | .infinite neg => signed neg "inf"
  | .finite neg m e =>
    let (num, den) := Double.ratio m e
    signed neg (scientific (Decimal.significant num den (places + 1)))

end LuaHost.Number
