import LuaHost.Yaml.Moment
import LuaHost.Yaml.Node

set_option autoImplicit false

/-!
# Forms of plain scalars

What a scalar without quotes means: nothing, a switch, a number in one of several bases, a moment, or
a text.
-/

namespace LuaHost.Yaml

namespace Form

def isOneOf (words : List String) (ps : List UInt32) : Bool :=
  words.any fun w => w.toList.map Char.val == ps

def isNull (ps : List UInt32) : Bool := isOneOf ["~", "null", "Null", "NULL", ""] ps

def onWords : List String := ["yes", "Yes", "YES", "true", "True", "TRUE", "on", "On", "ON"]

def offWords : List String := ["no", "No", "NO", "false", "False", "FALSE", "off", "Off", "OFF"]

def isBool (ps : List UInt32) : Bool := isOneOf (onWords ++ offWords) ps

/-- A number without its sign. -/
def unsigned (ps : List UInt32) : List UInt32 :=
  match ps with
  | 43 :: rest => rest
  | 45 :: rest => rest
  | ps => ps

def isDigitOrGap (p : UInt32) : Bool := isDigit p || p == 95

/-- Parts of sixty after the first: one digit or two below sixty, each after a colon. -/
def isSixties : Nat → List UInt32 → Bool
  | fuel + 1, 58 :: rest =>
    match rest.takeWhile isDigit, rest.dropWhile isDigit with
    | [_], rest => rest.isEmpty || isSixties fuel rest
    | [a, _], rest => a ≤ 53 && (rest.isEmpty || isSixties fuel rest)
    | _, _ => false
  | _, _ => false

/-- Digits of a base, at least one, with gaps. -/
def areDigits (p : UInt32 → Bool) (ps : List UInt32) : Bool :=
  !ps.isEmpty && ps.all fun c => p c || c == 95

def isInt (ps : List UInt32) : Bool :=
  match unsigned ps with
  | [48] => true
  | 48 :: 98 :: rest => areDigits (fun p => p == 48 || p == 49) rest
  | 48 :: 120 :: rest => areDigits isHexDigit rest
  | 48 :: rest => areDigits (fun p => 48 ≤ p && p ≤ 55) rest
  | first :: rest =>
    isDigit first &&
      (rest.all isDigitOrGap || isSixties ps.length (rest.dropWhile isDigitOrGap))
  | [] => false

/-- An exponent, which must have a sign, or nothing. -/
def isExponent (ps : List UInt32) : Bool :=
  match ps with
  | [] => true
  | e :: s :: rest => oneOf "eE" e && oneOf "+-" s && !rest.isEmpty && rest.all isDigit
  | _ => false

/-- A point, digits with gaps, and an exponent. -/
def isFraction (ps : List UInt32) : Bool :=
  match ps with
  | 46 :: rest => isExponent (rest.dropWhile isDigitOrGap)
  | _ => false

def isFloat (ps : List UInt32) : Bool :=
  isOneOf [".nan", ".NaN", ".NAN"] ps || isOneOf [".inf", ".Inf", ".INF"] (unsigned ps) ||
    match ps with
    | 46 :: first :: _ => isDigit first && isFraction ps
    | ps =>
      match unsigned ps with
      | first :: rest =>
        let tail := rest.dropWhile isDigitOrGap
        isDigit first && (isFraction tail || isSixtiesFraction tail)
      | [] => false
where
  isSixtiesFraction (ps : List UInt32) : Bool :=
    let parts := ps.takeWhile (· != 46)
    let tail := ps.drop parts.length
    isSixties ps.length parts && tail.head? == some 46 && tail.tail.all isDigitOrGap

/-- A text without the line break at its end. -/
def withoutBreak (ps : List UInt32) : List UInt32 :=
  if ps.getLast? == some 10 then ps.dropLast else ps

/-- The tag that the form of a plain scalar gives. -/
def tag (t : Text) : Tag :=
  if t.isEmpty then .null
  else
    let ps := withoutBreak t.points
    if ps.isEmpty then .str
    else if isNull ps then .null
    else if isBool ps then .bool
    else if isFloat ps then .float
    else if isInt ps then .int
    else if Moment.isPlain ps then .timestamp
    else if ps == [60, 60] then .merge
    else if ps == [61] then .value
    else .str

end Form
end LuaHost.Yaml
