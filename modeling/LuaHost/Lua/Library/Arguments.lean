import LuaHost.Lua.Machine
import LuaHost.Lua.Tree.Parser

set_option autoImplicit false

/-!
# Arguments of native functions

How native functions read their arguments: which values count as strings, numbers and integers, and
what is raised for the others.
-/

namespace LuaHost.Lua

/-- A call of a native function: who is called, with what, and what it may ask for. -/
structure Call (σ : Type) where
  fn : Native
  args : List Value
  services : Services σ

namespace Call

variable {σ : Type}

def count (c : Call σ) : Nat := c.args.length

def arg? (c : Call σ) (n : Nat) : Option Value := c.args[n - 1]?

/-- The n-th argument, nil if there is none. -/
def arg (c : Call σ) (n : Nat) : Value := c.args.getD (n - 1) .nil

def isAbsent (c : Call σ) (n : Nat) : Bool := (c.arg n).isNil

def error {α : Type} (c : Call σ) (n : Nat) (message : String) : M σ α :=
  M.argError c.fn n (bytesOf message)

def typeError {α : Type} (c : Call σ) (n : Nat) (expected : String) : M σ α :=
  M.argTypeError c.fn n expected (c.arg? n)

def checkAny (c : Call σ) (n : Nat) : M σ Value :=
  match c.arg? n with
  | some v => return v
  | none => c.error n "value expected"

def checkTable (c : Call σ) (n : Nat) : M σ Nat :=
  match c.arg n with
  | .table a => return a
  | _ => c.typeError n "table"

def checkString (c : Call σ) (n : Nat) : M σ ByteArray := do
  match Arith.text? (← M.generation) (c.arg n) with
  | some s => return s
  | none => c.typeError n "string"

def optString (c : Call σ) (n : Nat) (default : ByteArray) : M σ ByteArray :=
  if c.isAbsent n then return default else c.checkString n

/-- An integer argument; generations without integers cut off a fraction. -/
def checkInt (c : Call σ) (n : Nat) : M σ Int := do
  let g ← M.generation
  if g.hasIntegers then
    match Arith.toInt? g (c.arg n) with
    | some i => return i.toInt
    | none =>
      if (Arith.toNumber? g (c.arg n)).isSome then
        c.error n "number has no integer representation"
      else c.typeError n "number"
  else
    match Arith.toFloat? g (c.arg n) with
    | some x => return (Double.truncate? x).getD (-0x8000000000000000)
    | none => c.typeError n "number"

def optInt (c : Call σ) (n : Nat) (default : Int) : M σ Int :=
  if c.isAbsent n then return default else c.checkInt n

def checkNumber (c : Call σ) (n : Nat) : M σ Value := do
  match Arith.toNumber? (← M.generation) (c.arg n) with
  | some v => return v
  | none => c.typeError n "number"

def checkFloat (c : Call σ) (n : Nat) : M σ Float := do
  match Arith.toFloat? (← M.generation) (c.arg n) with
  | some x => return x
  | none => c.typeError n "number"

def checkFunction (c : Call σ) (n : Nat) : M σ Value :=
  if isFunction (c.arg n) then return c.arg n else c.typeError n "function"

end Call

namespace M

variable {σ : Type}

/-- A value's address as messages show it. Addresses tell apart objects and mean nothing else. -/
def addressText (v : Value) : String :=
  let shown (kind n : Nat) : String :=
    let digits := (Nat.toDigits 16 (0x550000000000 + kind * 0x1000000 + 32 * n))
    "0x" ++ String.ofList digits
  match v with
  | .table a => "table: " ++ shown 1 a
  | .closure a => "function: " ++ shown 2 a
  | .native (.library ..) n => "function: " ++ shown 3 n
  | .native (.foreign id) n => "function: " ++ shown 4 (id + n)
  | .userdata a => "userdata: " ++ shown 5 a
  | .thread a => "thread: " ++ shown 6 a
  | _ => ""

/-- The text of any value, by its metatable if that says how. -/
def display (services : Services σ) (v : Value) : M σ ByteArray := do
  let g ← generation
  match ← metamethod v "__tostring" with
  | .nil =>
    match v with
    | .nil => return bytesOf "nil"
    | .bool b => return bytesOf (if b then "true" else "false")
    | .str s => return s
    | .int _ | .float _ => return (Arith.text? g v).getD .empty
    | _ =>
      let name ← typeNameOf v
      let plain := bytesOf v.typeName
      let text := addressText v
      if name == plain then return bytesOf text
      else return name ++ bytesOf (String.ofList (text.toList.drop v.typeName.length))
  | mm =>
    match first (← services.call mm [v]) with
    | .str s => return s
    | r =>
      match g, Arith.text? g r with
      | .v51, some s | .v52, some s => return s
      | .v51, none | .v52, none => fail "'tostring' must return a string to 'print'"
      | _, some s => return s
      | _, none => fail "'__tostring' must return a string"

/-- Reads an entry, calling metamethods. The machine's own complaints about the operands of a native
function carry no place. -/
def getEntry (services : Services σ) (obj key : Value) : M σ Value := do
  let g ← generation
  match ← access (chainLimit g) obj key with
  | .value v => return v
  | .call f args => return first (← services.call f args)
  | .noIndex v => raise (.str (← typeError "index" v none))
  | .loops => raise (Value.ofString (chainMessage g "__index"))

/-- Writes an entry, calling metamethods. -/
def setEntry (services : Services σ) (obj key value : Value) : M σ Unit := do
  let g ← generation
  match ← store (chainLimit g) obj key value with
  | .done => return ()
  | .call f args =>
    let _ ← services.call f args
    return ()
  | .noIndex v => raise (.str (← typeError "index" v none))
  | .badKey message => raise (Value.ofString message)
  | .loops => raise (Value.ofString (chainMessage g "__newindex"))

/-- The truth of an order between two values, calling metamethods. -/
def lessThan (services : Services σ) (a b : Value) : M σ Bool := do
  match Arith.less? false a b with
  | some r => return r
  | none =>
    match ← orderHandler "__lt" a b with
    | .nil => raise (.str (← orderError a b))
    | mm => return (first (← services.call mm [a, b])).truthy

/-- Compiles a chunk to a function over the given globals, or to the words of its fault. -/
def load (name source : ByteArray) (globals : Value) : M σ (Except (Status × ByteArray) Value) := do
  let g ← generation
  if source.data[0]? == some 27 then
    let shown : ByteArray := ⟨(ChunkName.display g name.data.toList).toArray⟩
    let words := match g with
      | .v51 => ": bad header in precompiled chunk"
      | .v54 => ": bad binary format (truncated chunk)"
      | _ => ": truncated precompiled chunk"
    return .error (.errSyntax, shown ++ bytesOf words)
  match Tree.ofSource g source with
  | .error f => return .error (if f.overflow then .errRun else .errSyntax, f.text g name)
  | .ok f =>
    let c ← newCell globals
    return .ok (← newClosure (.lua f #[c] name))

end M
end LuaHost.Lua
