import LuaHost.Lua.Library.Arguments

set_option autoImplicit false

/-!
# Operations on 32-bit words

Numbers are taken modulo 2^32 before the operations of this library see them.
-/

namespace LuaHost.Lua.Bits

variable {σ : Type}

def checkWord (c : Call σ) (n : Nat) : M σ UInt32 := do
  match Double.toInt? (Float.floor ((← c.checkFloat n) + 0.5)) with
  | some i => return UInt32.ofNat (i % 0x100000000).toNat
  | none => return 0

def result (w : UInt32) : M σ (List Value) := do
  return [Value.ofNat (← M.generation) w.toNat]

def fold (op : UInt32 → UInt32 → UInt32) (c : Call σ) (start : UInt32) : M σ UInt32 :=
  (List.range c.count).foldlM (fun acc i => do return op acc (← checkWord c (i + 1))) start

/-- A shift to the left, or to the right for a negative count; bits leave and zeros enter. -/
def shift (w : UInt32) (n : Int) : UInt32 :=
  if n ≤ -32 ∨ 32 ≤ n then 0
  else if 0 ≤ n then w <<< UInt32.ofNat n.toNat
  else w >>> UInt32.ofNat (-n).toNat

def rotate (w : UInt32) (n : Int) : UInt32 :=
  let k := (n % 32).toNat
  if k == 0 then w else (w <<< UInt32.ofNat k) ||| (w >>> UInt32.ofNat (32 - k))

def shiftArithmetic (w : UInt32) (n : Int) : UInt32 :=
  if n < 0 ∨ w < 0x80000000 then shift w (-n)
  else if 32 ≤ n then 0xFFFFFFFF
  else (w >>> UInt32.ofNat n.toNat) ||| ~~~(0xFFFFFFFF >>> UInt32.ofNat n.toNat)

/-- The position and the mask of a field given by two arguments. -/
def field (c : Call σ) (n : Nat) : M σ (UInt32 × UInt32) := do
  let f ← c.checkInt n
  let w ← c.optInt (n + 1) 1
  if f < 0 then c.error n "field cannot be negative"
  if w < 1 then c.error (n + 1) "width must be positive"
  if 32 < f + w then M.fail "trying to access non-existent bits"
  return (UInt32.ofNat f.toNat, UInt32.ofNat (Nat.pow 2 w.toNat - 1))

def apply (name : String) (c : Call σ) : M σ (List Value) := do
  match name with
  | "arshift" => result (shiftArithmetic (← checkWord c 1) (← c.checkInt 2))
  | "band" => result (← fold (· &&& ·) c 0xFFFFFFFF)
  | "bnot" => result (~~~(← checkWord c 1))
  | "bor" => result (← fold (· ||| ·) c 0)
  | "btest" => return [.bool ((← fold (· &&& ·) c 0xFFFFFFFF) != 0)]
  | "bxor" => result (← fold (· ^^^ ·) c 0)
  | "extract" =>
    let w ← checkWord c 1
    let (f, mask) ← field c 2
    result ((w >>> f) &&& mask)
  | "lrotate" => result (rotate (← checkWord c 1) (← c.checkInt 2))
  | "lshift" => result (shift (← checkWord c 1) (← c.checkInt 2))
  | "replace" =>
    let w ← checkWord c 1
    let v ← checkWord c 2
    let (f, mask) ← field c 3
    result ((w &&& ~~~(mask <<< f)) ||| ((v &&& mask) <<< f))
  | "rrotate" => result (rotate (← checkWord c 1) (-(← c.checkInt 2)))
  | "rshift" => result (shift (← checkWord c 1) (-(← c.checkInt 2)))
  | _ => return []

end LuaHost.Lua.Bits
