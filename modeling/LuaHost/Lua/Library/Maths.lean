import LuaHost.Lua.Library.Arguments

set_option autoImplicit false

/-!
# The mathematical library

Random numbers come from a generator of this library, so only their range is determined, not their
sequence.
-/

namespace LuaHost.Lua.Maths

variable {σ : Type}

def float (f : Float → Float) (c : Call σ) : M σ (List Value) := do
  return [.float (f (← c.checkFloat 1))]

/-- A double as an integer where integers exist and hold it. -/
def whole (g : Generation) (x : Float) : Value :=
  if g.hasIntegers then
    match Value.int64OfFloat? x with
    | some n => .int n
    | none => .float x
  else .float x

def rounded (f : Float → Float) (c : Call σ) : M σ (List Value) := do
  let g ← M.generation
  match ← c.checkNumber 1 with
  | .int n => return [.int n]
  | _ => return [whole g (f (← c.checkFloat 1))]

def absFn (c : Call σ) : M σ (List Value) := do
  match ← c.checkNumber 1 with
  | .int n => return [.int (if n < 0 then -n else n)]
  | _ => return [.float (← c.checkFloat 1).abs]

def fmodFn (c : Call σ) : M σ (List Value) := do
  match ← c.checkNumber 1, ← c.checkNumber 2 with
  | .int a, .int b =>
    if b == 0 then c.error 2 "zero"
    else return [.int (Int64.ofInt (Int.tmod a.toInt b.toInt))]
  | _, _ => return [.float (Arith.fmod (← c.checkFloat 1) (← c.checkFloat 2))]

def modfFn (c : Call σ) : M σ (List Value) := do
  match c.arg 1 with
  | .int n => return [.int n, .float 0.0]
  | _ =>
    let x ← c.checkFloat 1
    let n := if x < 0.0 then Float.ceil x else Float.floor x
    return [.float n, .float (if x.isInf then 0.0 else x - n)]

/-- The extreme of all arguments, the earlier one among equals. -/
def extreme (isMax : Bool) (c : Call σ) : M σ (List Value) := do
  let firstOne ← c.checkNumber 1
  let rec go : List Nat → Value → M σ Value
    | [], best => return best
    | n :: rest, best => do
      let v ← c.checkNumber n
      let better := match Arith.compareNumbers best v with
        | some .lt => isMax
        | some .gt => !isMax
        | _ => false
      go rest (if better then v else best)
  return [← go ((List.range (c.count - 1)).map (· + 2)) firstOne]

def logFn (c : Call σ) : M σ (List Value) := do
  let x ← c.checkFloat 1
  if c.isAbsent 2 || (← M.generation) == .v51 then return [.float (Float.log x)]
  let base ← c.checkFloat 2
  if base == 2.0 && (← M.generation).since .v53 then return [.float (Float.log2 x)]
  if base == 10.0 then return [.float (Float.log10 x)]
  return [.float (Float.log x / Float.log base)]

def toIntegerFn (c : Call σ) : M σ (List Value) := do
  let g ← M.generation
  match c.arg 1 with
  | .int n => return [.int n]
  | .float x => return [(Value.int64OfFloat? x).elim .nil .int]
  | .str s =>
    if g == .v54 then return [(Arith.toInt? g (.str s)).elim .nil .int] else return [.nil]
  | _ =>
    let _ ← c.checkAny 1
    return [.nil]

def typeFn (c : Call σ) : M σ (List Value) := do
  match ← c.checkAny 1 with
  | .int _ => return [Value.ofString "integer"]
  | .float _ => return [Value.ofString "float"]
  | _ => return [.nil]

/-- The next state of a multiplicative generator. -/
def nextSeed (s : UInt64) : UInt64 :=
  let s := s ^^^ (s <<< 13)
  let s := s ^^^ (s >>> 7)
  s ^^^ (s <<< 17)

def randomFn (c : Call σ) : M σ (List Value) := do
  let g ← M.generation
  let seed := nextSeed (← M.vm).seed
  M.modifyVm fun vm => { vm with seed }
  let unit : Float := Double.ofRatio false (seed >>> 11).toNat 0x20000000000000
  let between (low high : Int) (n : Nat) : M σ (List Value) := do
    if high < low then c.error n "interval is empty"
    else return [Value.ofInt g (low + (seed.toNat : Int) % (high - low + 1))]
  match c.count with
  | 0 => return [.float unit]
  | 1 =>
    let high ← c.checkInt 1
    if g == .v54 && high == 0 then return [.int seed.toInt64] else between 1 high 1
  | 2 => between (← c.checkInt 1) (← c.checkInt 2) 2
  | _ => M.fail "wrong number of arguments"

def apply (name : String) (c : Call σ) : M σ (List Value) :=
  match name with
  | "abs" => absFn c
  | "acos" => float Float.acos c
  | "asin" => float Float.asin c
  | "atan" => do
    let y ← c.checkFloat 1
    if (← M.generation).since .v53 && !c.isAbsent 2 then
      return [.float (Float.atan2 y (← c.checkFloat 2))]
    return [.float (Float.atan y)]
  | "atan2" => do return [.float (Float.atan2 (← c.checkFloat 1) (← c.checkFloat 2))]
  | "ceil" => rounded Float.ceil c
  | "cos" => float Float.cos c
  | "cosh" => float Float.cosh c
  | "deg" => float (fun x => x * (180.0 / 3.141592653589793)) c
  | "exp" => float Float.exp c
  | "floor" => rounded Float.floor c
  | "fmod" => fmodFn c
  | "mod" => fmodFn c
  | "frexp" => do
    let (m, e) := Float.frExp (← c.checkFloat 1)
    return [.float m, Value.ofInt (← M.generation) e]
  | "ldexp" => do return [.float (Float.scaleB (← c.checkFloat 1) (← c.checkInt 2))]
  | "log" => logFn c
  | "log10" => float Float.log10 c
  | "max" => extreme true c
  | "min" => extreme false c
  | "modf" => modfFn c
  | "pow" => do return [.float (Float.pow (← c.checkFloat 1) (← c.checkFloat 2))]
  | "rad" => float (fun x => x * (3.141592653589793 / 180.0)) c
  | "random" => randomFn c
  | "randomseed" => do
    M.modifyVm fun vm => { vm with seed := 88172645463325252 }
    return []
  | "sin" => float Float.sin c
  | "sinh" => float Float.sinh c
  | "sqrt" => float Float.sqrt c
  | "tan" => float Float.tan c
  | "tanh" => float Float.tanh c
  | "tointeger" => toIntegerFn c
  | "type" => typeFn c
  | "ult" => do
    return [.bool ((Int64.ofInt (← c.checkInt 1)).toUInt64 < (Int64.ofInt (← c.checkInt 2)).toUInt64)]
  | _ => return []

end LuaHost.Lua.Maths
