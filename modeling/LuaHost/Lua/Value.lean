import LuaHost.Lua.Numeral

set_option autoImplicit false

/-!
# Values of Lua

Tables, closures, userdata and threads are addresses into a heap, so equality of values is Lua's raw
equality except for numbers, where `2` and `2.0` are different values of equal weight.
-/

namespace LuaHost.Lua

/-- The standard libraries. -/
inductive Lib where
  | base | coroutine | package | string | table | math | io | os | debug | utf8 | bit32
deriving DecidableEq, Repr

/-- A function that is not written in Lua. -/
inductive Native where
  | library (lib : Lib) (name : String)
  /-- a function of the host, by its number -/
  | foreign (id : Nat)
deriving DecidableEq

inductive Value where
  | nil
  | bool (b : Bool)
  | int (n : Int64)
  | float (x : Float)
  | str (s : ByteArray)
  | table (address : Nat)
  | closure (address : Nat)
  /-- a native function without upvalues; `identity` tells apart two pushes of one function in the
  generation that gives each its own object -/
  | native (f : Native) (identity : Nat)
  | userdata (address : Nat)
  | thread (address : Nat)
deriving Inhabited

/-- The types as the interface numbers them. -/
inductive TypeTag where
  | nil | boolean | lightUserdata | number | string | table | function | userdata | thread
deriving DecidableEq, Repr

namespace TypeTag

def code : TypeTag → Int
  | nil => 0
  | boolean => 1
  | lightUserdata => 2
  | number => 3
  | string => 4
  | table => 5
  | function => 6
  | userdata => 7
  | thread => 8

def name : TypeTag → String
  | nil => "nil"
  | boolean => "boolean"
  | lightUserdata => "userdata"
  | number => "number"
  | string => "string"
  | table => "table"
  | function => "function"
  | userdata => "userdata"
  | thread => "thread"

end TypeTag

namespace Value

def tag : Value → TypeTag
  | nil => .nil
  | bool _ => .boolean
  | int _ => .number
  | float _ => .number
  | str _ => .string
  | table _ => .table
  | closure _ => .function
  | native .. => .function
  | userdata _ => .userdata
  | thread _ => .thread

def typeName (v : Value) : String := v.tag.name

/-- Everything but nil and false counts as true. -/
def truthy : Value → Bool
  | nil => false
  | bool b => b
  | _ => true

def isNil : Value → Bool
  | nil => true
  | _ => false

def ofString (s : String) : Value := .str s.toUTF8

/-- A natural as a number of the generation. -/
def ofNat (g : Generation) (n : Nat) : Value :=
  if g.hasIntegers then .int (Int64.ofNat n) else .float (Double.ofInt n)

def ofInt (g : Generation) (n : Int) : Value :=
  if g.hasIntegers then .int (Int64.ofInt n) else .float (Double.ofInt n)

/-- The integer that a double equals, if it fits 64 bits. -/
def int64OfFloat? (x : Float) : Option Int64 :=
  match Double.toInt? x with
  | some n => if -0x8000000000000000 ≤ n ∧ n < 0x8000000000000000 then some (Int64.ofInt n) else none
  | none => none

end Value

instance bytesDecidableEq : DecidableEq ByteArray := ByteArray.instDecidableEq

/-- A table key up to Lua's equality: a double with an integral value is that integer. -/
inductive Key where
  | bool (b : Bool)
  | int (n : Int64)
  | float (bits : UInt64)
  | str (s : ByteArray)
  | native (f : Native) (identity : Nat)
  /-- an object of the heap, by type and address -/
  | object (tag : TypeTag) (address : Nat)
deriving DecidableEq

def Key.isInt : Key → Bool
  | .int _ => true
  | _ => false

/-- The key of a value; nil and NaN have none. -/
def Value.key? : Value → Option Key
  | .nil => none
  | .bool b => some (.bool b)
  | .int n => some (.int n)
  | .float x =>
    if x.isNaN then none
    else match Value.int64OfFloat? x with
      | some n => some (.int n)
      | none => some (.float x.toBits)
  | .str s => some (.str s)
  | .native f i => some (.native f i)
  | .table a => some (.object .table a)
  | .closure a => some (.object .function a)
  | .userdata a => some (.object .userdata a)
  | .thread a => some (.object .thread a)

/-- A key as tables show it: where there are integers, a double that equals one is shown as the integer. -/
def Value.asShown (g : Generation) (v : Value) : Value :=
  if g.hasIntegers then
    match v.key? with
    | some (.int n) => .int n
    | _ => v
  else v

theorem Value.key?_asShown (g : Generation) (v : Value) : (v.asShown g).key? = v.key? := by
  unfold Value.asShown
  split
  · split
    · next h => exact h.symm
    · rfl
  · rfl

/-- Equality without metamethods. -/
def Value.rawEquals (v w : Value) : Bool :=
  match v, w with
  | .nil, .nil => true
  | .float x, .float y => x == y
  | _, _ =>
    match v.key?, w.key? with
    | some a, some b => decide (a = b)
    | _, _ => false

end LuaHost.Lua
