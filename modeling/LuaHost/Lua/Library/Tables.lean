import LuaHost.Lua.Library.Base

set_option autoImplicit false

/-!
# The table library

Generations with integers read and write through metamethods here; the older ones do not.
-/

namespace LuaHost.Lua.Tables

variable {σ : Type}

/-- The first argument, if it serves as a table. -/
def checkTab (c : Call σ) (n : Nat) : M σ Value := do
  let g ← M.generation
  match c.arg n with
  | .table a => return .table a
  | v =>
    if !g.since .v53 then c.typeError n "table"
    let mm ← M.metamethod v "__index"
    if mm.isNil then c.typeError n "table" else return v

def get (c : Call σ) (t : Value) (i : Int) : M σ Value := do
  let g ← M.generation
  let key := Value.ofInt g i
  if g.since .v53 then M.getEntry c.services t key
  else match t with
    | .table a => return (← M.table a).getValue key
    | _ => return .nil

def set (c : Call σ) (t : Value) (i : Int) (v : Value) : M σ Unit := do
  let g ← M.generation
  let key := Value.ofInt g i
  if g.since .v53 then M.setEntry c.services t key v
  else match t with
    | .table a => M.rawSet a key v
    | _ => return ()

def concatFrom (c : Call σ) (t : Value) (separator : ByteArray) : Nat → Int → ByteArray → M σ ByteArray
  | 0, _, acc => return acc
  | n + 1, i, acc => do
    let g ← M.generation
    let v ← get c t i
    match Arith.text? g v with
    | none =>
      let name ← if g == .v54 then M.typeNameOf v else pure (bytesOf v.typeName)
      M.failBytes (bytesOf "invalid value (" ++ name
        ++ bytesOf (") at index " ++ toString i ++ " in table for 'concat'"))
    | some s => concatFrom c t separator n (i + 1) (acc ++ s ++ (if n == 0 then .empty else separator))

def concatFn (c : Call σ) : M σ (List Value) := do
  let t ← checkTab c 1
  let separator ← c.optString 2 .empty
  let i ← c.optInt 3 1
  let j ← if c.isAbsent 4 then Base.lengthOf c t else c.checkInt 4
  return [.str (← concatFrom c t separator (j - i + 1).toNat i .empty)]

/-- Moves the entries from `pos` up to `last` by one place, the highest first. -/
def shiftUp (c : Call σ) (t : Value) : Nat → Int → M σ Unit
  | 0, _ => return ()
  | n + 1, i => do
    set c t i (← get c t (i - 1))
    shiftUp c t n (i - 1)

def insertFn (c : Call σ) : M σ (List Value) := do
  let t ← checkTab c 1
  let e := (← Base.lengthOf c t) + 1
  match c.count with
  | 2 =>
    set c t e (c.arg 2)
    return []
  | 3 =>
    let pos ← c.checkInt 2
    let g ← M.generation
    if g != .v51 && (pos < 1 ∨ e < pos) then c.error 2 "position out of bounds"
    let last := max e pos
    shiftUp c t (last - pos).toNat last
    set c t pos (c.arg 3)
    return []
  | _ => M.fail "wrong number of arguments to 'insert'"

/-- Moves the entries after `i` down by one place. -/
def shiftDown (c : Call σ) (t : Value) : Nat → Int → M σ Unit
  | 0, _ => return ()
  | n + 1, i => do
    set c t i (← get c t (i + 1))
    shiftDown c t n (i + 1)

def removeFn (c : Call σ) : M σ (List Value) := do
  let g ← M.generation
  let t ← checkTab c 1
  let size ← Base.lengthOf c t
  let pos ← c.optInt 2 size
  if g == .v51 then
    if pos < 1 ∨ size < pos then return []
  else if pos != size && (pos < 1 || size + 1 < pos) then
    c.error (if g == .v54 then 2 else 1) "position out of bounds"
  let v ← get c t pos
  shiftDown c t (size - pos).toNat pos
  set c t (max pos size) .nil
  return [v]

/-- On from position `i` while the entries are below the pivot; the position and the entry there. -/
def scanUp (c : Call σ) (t pivot : Value) (less : Value → Value → M σ Bool) (isBeyond : Int → Bool) :
    Nat → Int → M σ (Int × Value)
  | 0, i => return (i, .nil)
  | fuel + 1, i => do
    let v ← get c t i
    if ← less v pivot then
      if isBeyond i then M.fail "invalid order function for sorting"
      scanUp c t pivot less isBeyond fuel (i + 1)
    else return (i, v)

/-- Back from position `j` while the entries are above the pivot. -/
def scanDown (c : Call σ) (t pivot : Value) (less : Value → Value → M σ Bool) (isBeyond : Int → Bool) :
    Nat → Int → M σ (Int × Value)
  | 0, j => return (j, .nil)
  | fuel + 1, j => do
    let v ← get c t j
    if ← less pivot v then
      if isBeyond j then M.fail "invalid order function for sorting"
      scanDown c t pivot less isBeyond fuel (j - 1)
    else return (j, v)

/-- Exchanges entries around the pivot, which stands at `up - 1`; its place in the end. -/
def partition (c : Call σ) (t pivot : Value) (less : Value → Value → M σ Bool) (lo up : Int) :
    Nat → Int → Int → M σ Int
  | 0, i, _ => return i
  | fuel + 1, i, j => do
    let g ← M.generation
    let n := (up - lo).toNat + 3
    let (i, v) ← scanUp c t pivot less
      (fun i => if g == .v51 then up < i else if g == .v52 then up ≤ i else i == up - 1) n (i + 1)
    let (j, w) ← scanDown c t pivot less
      (fun j => if g == .v51 then j < lo else if g == .v52 then j ≤ lo else j < i) n (j - 1)
    if j < i then
      let last ← get c t (up - 1)
      set c t (up - 1) v
      set c t i last
      return i
    else
      set c t i w
      set c t j v
      partition c t pivot less lo up fuel i j

/-- Puts two entries in order. -/
def order (c : Call σ) (t : Value) (less : Value → Value → M σ Bool) (low high : Int)
    (a b : Value) : M σ Bool := do
  if ← less b a then
    set c t low b
    set c t high a
    return true
  else return false

/-- Sorts the entries from `lo` to `up`: the median of the first, the middle and the last one is the
pivot, and the shorter side is sorted first. -/
def sortRange (c : Call σ) (t : Value) (less : Value → Value → M σ Bool) : Nat → Int → Int → M σ Unit
  | 0, _, _ => return ()
  | fuel + 1, lo, up => do
    if up ≤ lo then return ()
    let _ ← order c t less lo up (← get c t lo) (← get c t up)
    if up - lo == 1 then return ()
    let p := (lo + up) / 2
    let x ← get c t p
    unless ← order c t less lo p (← get c t lo) x do
      let _ ← order c t less p up x (← get c t up)
    if up - lo == 2 then return ()
    let pivot ← get c t p
    set c t p (← get c t (up - 1))
    set c t (up - 1) pivot
    let p ← partition c t pivot less lo up ((up - lo).toNat + 1) lo (up - 1)
    if p - lo < up - p then
      sortRange c t less fuel lo (p - 1)
      sortRange c t less fuel (p + 1) up
    else
      sortRange c t less fuel (p + 1) up
      sortRange c t less fuel lo (p - 1)

def sortFn (c : Call σ) : M σ (List Value) := do
  let t ← checkTab c 1
  let n ← Base.lengthOf c t
  if !c.isAbsent 2 && (n > 1 || !(← M.generation).since .v53) then
    let _ ← c.checkFunction 2
  let less (a b : Value) : M σ Bool :=
    if c.isAbsent 2 then M.lessThan c.services a b
    else do return (first (← c.services.call (c.arg 2) [a, b])).truthy
  sortRange c t less (n.toNat + 1) 1 n
  return []

def packFn (c : Call σ) : M σ (List Value) := do
  let g ← M.generation
  let a ← M.newTable ⟨Machine.storePositional g 1 c.args, none, c.count⟩
  M.modifyTable a fun t => t.setString "n" (Value.ofNat g c.count)
  return [.table a]

def moveFrom (c : Call σ) (source target : Value) (step : Int) : Nat → Int → Int → M σ Unit
  | 0, _, _ => return ()
  | n + 1, i, j => do
    set c target j (← get c source i)
    moveFrom c source target step n (i + step) (j + step)

def moveFn (c : Call σ) : M σ (List Value) := do
  let source ← checkTab c 1
  let f ← c.checkInt 2
  let e ← c.checkInt 3
  let t ← c.checkInt 4
  let target ← if c.isAbsent 5 then pure source else checkTab c 5
  if f ≤ e then
    let n := (e - f + 1).toNat
    if e < t || t ≤ f || !(target.rawEquals source) then moveFrom c source target 1 n f t
    else moveFrom c source target (-1) n e (t + n - 1)
  return [target]

def maxnFn (c : Call σ) : M σ (List Value) := do
  let a ← c.checkTable 1
  let keys := (← M.table a).present.filterMap fun e => match e.shown with
    | .float x => some x
    | .int n => some (Double.ofInt n.toInt)
    | _ => none
  return [.float (keys.foldl (fun m x => if m < x then x else m) 0.0)]

def foreachFrom (c : Call σ) (a : Nat) : Nat → Value → M σ (List Value)
  | 0, _ => return []
  | fuel + 1, key => do
    match ← Base.nextEntry a key with
    | [k, v] =>
      match ← c.services.call (c.arg 2) [k, v] with
      | [] => foreachFrom c a fuel k
      | .nil :: _ => foreachFrom c a fuel k
      | r :: _ => return [r]
    | _ => return []

def foreachiFrom (c : Call σ) (t : Value) : Nat → Int → M σ (List Value)
  | 0, _ => return []
  | n + 1, i => do
    let g ← M.generation
    match ← c.services.call (c.arg 2) [Value.ofInt g i, ← get c t i] with
    | [] => foreachiFrom c t n (i + 1)
    | .nil :: _ => foreachiFrom c t n (i + 1)
    | r :: _ => return [r]

def apply (name : String) (c : Call σ) : M σ (List Value) :=
  match name with
  | "concat" => concatFn c
  | "foreach" => do
    let a ← c.checkTable 1
    let _ ← c.checkFunction 2
    foreachFrom c a ((← M.table a).entries.length + 1) .nil
  | "foreachi" => do
    let a ← c.checkTable 1
    let _ ← c.checkFunction 2
    foreachiFrom c (.table a) (← M.table a).length 1
  | "getn" => do return [Value.ofNat (← M.generation) (← M.table (← c.checkTable 1)).length]
  | "insert" => insertFn c
  | "maxn" => maxnFn c
  | "move" => moveFn c
  | "pack" => packFn c
  | "remove" => removeFn c
  | "setn" => M.fail "'setn' is obsolete"
  | "sort" => sortFn c
  | "unpack" => Base.unpackFn c
  | _ => return []

end LuaHost.Lua.Tables
