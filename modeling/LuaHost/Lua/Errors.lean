import LuaHost.Lua.Vm
import LuaHost.Lua.Arith

set_option autoImplicit false

/-!
# Errors of the machine

The wording of run-time errors and of complaints about arguments, and the places they name.
-/

namespace LuaHost.Lua

def bytesOf (s : String) : ByteArray := s.toUTF8

namespace M

variable {σ : Type}

/-- The type of a value as errors show it: its metatable may name it. -/
def typeNameOf (v : Value) : M σ ByteArray := do
  let g ← generation
  if g.since .v53 then
    match v with
    | .table _ | .userdata _ =>
      match ← metamethod v "__name" with
      | .str s => return s
      | _ => return bytesOf v.typeName
    | _ => return bytesOf v.typeName
  else return bytesOf v.typeName

/-- The sentence for an operation on a value of the wrong type. -/
def typeError (action : String) (v : Value) (origin : Option Origin) : M σ ByteArray := do
  let g ← generation
  let name ← typeNameOf v
  match origin with
  | none => return bytesOf ("attempt to " ++ action ++ " a ") ++ name ++ bytesOf " value"
  | some o =>
    if g.since .v53 then
      return bytesOf ("attempt to " ++ action ++ " a ") ++ name ++ bytesOf (" value (" ++ o.kind ++ " '")
        ++ o.name ++ bytesOf "')"
    else
      return bytesOf ("attempt to " ++ action ++ " " ++ o.kind ++ " '") ++ o.name ++ bytesOf "' (a "
        ++ name ++ bytesOf " value)"

/-- The sentence for two values without an order. The oldest generation tells types apart by the third
letter of their names. -/
def orderError (a b : Value) : M σ ByteArray := do
  let g ← generation
  let s ← typeNameOf a
  let t ← typeNameOf b
  if if g == .v51 then s.data[2]? == t.data[2]? else s == t then
    return bytesOf "attempt to compare two " ++ s ++ bytesOf " values"
  else return bytesOf "attempt to compare " ++ s ++ bytesOf " with " ++ t

/-- The places of the callers, the nearest first. In the oldest generation every tail call leaves a
level without a place. -/
def places (g : Generation) : List Caller → List ByteArray
  | [] => []
  | c :: rest =>
    let lost := match c with
      | .lua _ _ _ tails => if g == .v51 then tails else 0
      | .native _ => 0
    List.replicate lost .empty ++ c.place g :: places g rest

/-- The place of the caller at a level, 1 for the function that runs the current native one. -/
def placeAt (level : Nat) : M σ ByteArray := do
  let g ← generation
  let cs ← callers (← vm).running
  return (places g cs).getD (level - 1) .empty

/-- Raises an error of a native function, with the place of its caller in front. -/
def failBytes {α : Type} (message : ByteArray) : M σ α := do
  raise (.str ((← placeAt 1) ++ message))

def fail {α : Type} (message : String) : M σ α := failBytes (bytesOf message)

/-- The name of a native function found among the loaded modules, for callers that give none. -/
def loadedName? (f : Native) : M σ (Option ByteArray) := do
  let g ← generation
  if g == .v51 then return none
  match f with
  | .foreign _ => return none
  | .library lib name =>
    if lib == .base then
      return some (bytesOf (if g.since .v53 then name else "_G." ++ name))
    else
      let libName := match lib with
        | .base => "_G" | .coroutine => "coroutine" | .package => "package" | .string => "string"
        | .table => "table" | .math => "math" | .io => "io" | .os => "os" | .debug => "debug"
        | .utf8 => "utf8" | .bit32 => "bit32"
      return some (bytesOf (libName ++ "." ++ name))

/-- Raises the complaint about an argument of the native function `f`. -/
def argError {α : Type} (f : Native) (n : Nat) (message : ByteArray) : M σ α := do
  let cs ← callers (← vm).running
  let bad (n : Nat) (name : ByteArray) : ByteArray :=
    bytesOf ("bad argument #" ++ toString n ++ " to '") ++ name ++ bytesOf "' (" ++ message
      ++ bytesOf ")"
  match cs with
  | .lua _ _ (some o) _ :: _ =>
    if o.kind == "method" then
      if n ≤ 1 then
        let g ← generation
        let detail := if g == .v52 then .empty else bytesOf " (" ++ message ++ bytesOf ")"
        failBytes (bytesOf "calling '" ++ o.name ++ bytesOf "' on bad self" ++ detail)
      else failBytes (bad (n - 1) o.name)
    else failBytes (bad n o.name)
  | _ => failBytes (bad n ((← loadedName? f).getD (bytesOf "?")))

/-- Raises the complaint that an argument has the wrong type. -/
def argTypeError {α : Type} (f : Native) (n : Nat) (expected : String) (got : Option Value) : M σ α := do
  let name ← match got with
    | none => pure (bytesOf "no value")
    | some v => typeNameOf v
  argError f n (bytesOf (expected ++ " expected, got ") ++ name)

end M
end LuaHost.Lua
