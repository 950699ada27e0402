import LuaHost.Lua.Library.Base

set_option autoImplicit false

/-!
# The library of streams

The standard streams are userdata. What is written to them goes nowhere, and no file can be opened
through this library.
-/

namespace LuaHost.Lua.Streams

variable {σ : Type}

/-- The name under which the registry holds the metatable of streams. -/
def metaName : ByteArray := bytesOf "FILE*"

def metatable? : M σ (Option Nat) := do
  match (← M.table (← M.vm).registry).get (.str metaName) with
  | .table a => return some a
  | _ => return none

def isStream (v : Value) : M σ Bool := do
  match v with
  | .userdata a => do
    let mt := ((← M.vm).userdata.get a).metatable
    return mt.isSome && mt == (← metatable?)
  | _ => return false

def checkStream (c : Call σ) (n : Nat) : M σ Value := do
  if ← isStream (c.arg n) then return c.arg n else c.typeError n "FILE*"

/-- The result of a successful operation on a stream: the stream, in the oldest generation true. -/
def success (stream : Value) : M σ (List Value) := do
  return [if (← M.generation) == .v51 then .bool true else stream]

def checkTexts (c : Call σ) : Nat → Nat → M σ Unit
  | 0, _ => return ()
  | fuel + 1, n =>
    if c.count < n then return ()
    else do
      let _ ← c.checkString n
      checkTexts c fuel (n + 1)

def noFile (path : ByteArray) : M σ (List Value) := do
  return [.nil, .str (path ++ bytesOf ": No such file or directory"), Value.ofNat (← M.generation) 2]

def apply (name : String) (upvalues : List Value) (c : Call σ) : M σ (List Value) := do
  let standard := first upvalues
  match name with
  | "close" => success (c.arg 1)
  | "flush" => success standard
  | "input" => return [standard]
  | "lines" => M.failBytes ((← c.optString 1 .empty) ++ bytesOf ": No such file or directory")
  | "open" => noFile (← c.checkString 1)
  | "output" => return [standard]
  | "popen" => M.fail "'popen' not supported"
  | "read" => return [.nil]
  | "tmpfile" => return [.nil]
  | "type" =>
    if ← isStream (← c.checkAny 1) then return [Value.ofString "file"] else return [.nil]
  | "write" => do
    checkTexts c c.count 1
    success standard
  | "file_close" => success (← checkStream c 1)
  | "file_flush" => success (← checkStream c 1)
  | "file_gc" => return []
  | "file_lines" => do
    let _ ← checkStream c 1
    return [← M.native (.library .io "file_end")]
  | "file_end" => return [.nil]
  | "file_read" => do
    let _ ← checkStream c 1
    return [.nil]
  | "file_seek" => do
    let _ ← checkStream c 1
    return [.nil, Value.ofString "Illegal seek", Value.ofNat (← M.generation) 29]
  | "file_setvbuf" => do
    let _ ← checkStream c 1
    return [.bool true]
  | "file_tostring" => do
    let v ← checkStream c 1
    return [Value.ofString ("file (" ++ (String.ofList ((M.addressText v).toList.drop 10)) ++ ")")]
  | "file_write" => do
    let v ← checkStream c 1
    checkTexts c c.count 2
    success v
  | _ => return []

end LuaHost.Lua.Streams
