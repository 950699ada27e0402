import LuaHost.Lua.Library.Arguments

set_option autoImplicit false

/-!
# The library of UTF-8

Sequences of up to six bytes are read, so that numbers beyond the code points of Unicode can be
refused by the functions and not by the decoding.
-/

namespace LuaHost.Lua.Codepoints

variable {σ : Type}

def isContinuation (b : UInt8) : Bool := b &&& 0xC0 == 0x80

/-- How many continuation bytes follow a first byte; nothing if it is no first byte. -/
def tailLength? (b : UInt8) : Option Nat :=
  if b < 0x80 then some 0
  else if b < 0xC0 then none
  else if b < 0xE0 then some 1
  else if b < 0xF0 then some 2
  else if b < 0xF8 then some 3
  else if b < 0xFC then some 4
  else if b < 0xFE then some 5
  else none

/-- The least number that needs so many continuation bytes. -/
def least : Nat → Nat
  | 0 => 0
  | 1 => 0x80
  | 2 => 0x800
  | 3 => 0x10000
  | 4 => 0x200000
  | _ => 0x4000000

/-- The code at the start of a byte string and the bytes after it. -/
def decode? (g : Generation) (strict : Bool) : List UInt8 → Option (Nat × List UInt8)
  | [] => none
  | b :: rest =>
    match tailLength? b with
    | none => none
    | some n =>
      let tail := rest.take n
      if tail.length < n || !tail.all isContinuation then none
      else
        let start := if n == 0 then b.toNat else b.toNat % Nat.pow 2 (6 - n)
        let code := tail.foldl (fun acc c => acc * 64 + (c.toNat &&& 0x3F)) start
        let limit := if g == .v54 && !strict then 0x7FFFFFFF else 0x10FFFF
        let surrogate := decide (0xD800 ≤ code ∧ code ≤ 0xDFFF)
        if code < least n || limit < code || (g == .v54 && strict && surrogate) then none
        else some (code, rest.drop n)

def relative (pos : Int) (n : Nat) : Int :=
  if 0 ≤ pos then pos else if (n : Int) < -pos then 0 else n + pos + 1

def charFn (c : Call σ) : M σ (List Value) := do
  let pieces ← (List.range c.count).mapM fun i => do
    let n ← c.checkInt (i + 1)
    let limit := if (← M.generation) == .v54 then 0x7FFFFFFF else 0x10FFFF
    if n < 0 ∨ limit < n then c.error (i + 1) "value out of range"
    return Token.wideUtf8 n.toNat
  return [.str ⟨pieces.flatten.toArray⟩]

def codesFrom (g : Generation) (strict : Bool) (bs : List UInt8) : Nat → Int → Int → Option (List Nat)
  | 0, _, _ => some []
  | fuel + 1, i, last =>
    if last < i then some []
    else match decode? g strict (bs.drop (i - 1).toNat) with
      | none => none
      | some (code, rest) =>
        (codesFrom g strict bs fuel (bs.length - rest.length + 1) last).map (code :: ·)

def listCodes (g : Generation) : Option (List Nat) → M σ (List Value)
  | some codes => return codes.map (Value.ofNat g)
  | none => M.fail "invalid UTF-8 code"

def isLax (c : Call σ) (n : Nat) : Bool := (c.arg n).truthy

def codepointFn (c : Call σ) : M σ (List Value) := do
  let g ← M.generation
  let s ← c.checkString 1
  let i := relative (← c.optInt 2 1) s.size
  let j := relative (← c.optInt 3 i) s.size
  let range := if g == .v54 then "out of bounds" else "out of range"
  if i < 1 then c.error 2 range
  if (s.size : Int) < j then c.error 3 range
  if j < i then return []
  listCodes g (codesFrom g (!isLax c 4) s.data.toList (s.size + 1) i j)

def lenFrom (g : Generation) (strict : Bool) (bs : List UInt8) : Nat → Int → Int → Nat → List Value
  | 0, _, _, n => [Value.ofNat g n]
  | fuel + 1, i, last, n =>
    if last < i then [Value.ofNat g n]
    else match decode? g strict (bs.drop i.toNat) with
      | none => [.nil, Value.ofInt g (i + 1)]
      | some (_, rest) => lenFrom g strict bs fuel (bs.length - rest.length) last (n + 1)

def lenFn (c : Call σ) : M σ (List Value) := do
  let g ← M.generation
  let s ← c.checkString 1
  let i := relative (← c.optInt 2 1) s.size
  let j := relative (← c.optInt 3 (-1)) s.size
  let range := if g == .v54 then " position out of bounds" else " position out of string"
  if i < 1 ∨ (s.size : Int) < i - 1 then c.error 2 ("initial" ++ range)
  if (s.size : Int) < j then c.error 3 ("final" ++ range)
  return lenFrom g (!isLax c 4) s.data.toList (s.size + 1) (i - 1) (j - 1) 0

/-- Back to the first byte of the sequence around a position. -/
def backTo (s : ByteArray) : Nat → Nat
  | 0 => 0
  | n + 1 => if (s.data[n + 1]?.map isContinuation).getD false then backTo s n else n + 1

/-- On to the next first byte after a position. -/
def onFrom (s : ByteArray) : Nat → Nat → Nat
  | 0, i => i
  | fuel + 1, i =>
    if (s.data[i + 1]?.map isContinuation).getD false then onFrom s fuel (i + 1) else i + 1

def moveBack (s : ByteArray) : Nat → Nat → Option Nat
  | 0, i => some i
  | _ + 1, 0 => none
  | n + 1, i + 1 => moveBack s n (backTo s i)

def moveOn (s : ByteArray) : Nat → Nat → Option Nat
  | 0, i => some i
  | n + 1, i => if s.size ≤ i then none else moveOn s n (onFrom s s.size i)

/-- A place as scripts count it. -/
def placeValue (g : Generation) : Option Nat → Value
  | some p => Value.ofNat g (p + 1)
  | none => .nil

def offsetFn (c : Call σ) : M σ (List Value) := do
  let g ← M.generation
  let s ← c.checkString 1
  let n ← c.checkInt 2
  let i := relative (← c.optInt 3 (if 0 < n then 1 else s.size + 1)) s.size
  if i < 1 ∨ (s.size : Int) + 1 < i then c.error 3 (if g == .v54 then "position out of bounds" else "position out of range")
  let at0 := (i - 1).toNat
  let inside := (s.data[at0]?.map isContinuation).getD false
  if n == 0 then return [Value.ofNat g (backTo s at0 + 1)]
  if inside then M.fail "initial position is a continuation byte"
  return [placeValue g (if 0 < n then moveOn s (n.toNat - 1) at0 else moveBack s (-n).toNat at0)]

def codesStep (c : Call σ) : M σ (List Value) := do
  let g ← M.generation
  let s ← c.checkString 1
  let i := (← c.checkInt 2).toNat
  let next := if i == 0 then 0 else onFrom s s.size (i - 1)
  if s.size ≤ next then return []
  match decode? g true (s.data.toList.drop next) with
  | some (code, rest) =>
    if (rest.head?.map isContinuation).getD false then M.fail "invalid UTF-8 code"
    return [Value.ofNat g (next + 1), Value.ofNat g code]
  | none => M.fail "invalid UTF-8 code"

def apply (name : String) (c : Call σ) : M σ (List Value) := do
  match name with
  | "char" => charFn c
  | "codepoint" => codepointFn c
  | "codes" => do
    let s ← c.checkString 1
    return [← M.native (.library .utf8 "codes_step"), .str s, Value.ofNat (← M.generation) 0]
  | "codes_step" => codesStep c
  | "len" => lenFn c
  | "offset" => offsetFn c
  | _ => return []

/-- The pattern that matches one sequence. -/
def charPattern (g : Generation) : ByteArray :=
  ⟨(#[91, 0, 45, 0x7F, 0xC2, 45] : Array UInt8) ++ #[if g == .v54 then 0xFD else 0xF4, 93, 91, 0x80, 45, 0xBF, 93, 42]⟩

end LuaHost.Lua.Codepoints
