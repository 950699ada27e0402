import LuaHost.Lua.Library.Arguments

set_option autoImplicit false

/-!
# The library of the operating system

There is no clock and no environment behind it: times are zero, variables unset and files absent.
-/

namespace LuaHost.Lua.Os

variable {σ : Type}

def noFile (path : ByteArray) : M σ (List Value) := do
  return [.nil, .str (path ++ bytesOf ": No such file or directory"), Value.ofNat (← M.generation) 2]

def apply (name : String) (c : Call σ) : M σ (List Value) := do
  let g ← M.generation
  match name with
  | "clock" => return [.float 0.0]
  | "date" => return [Value.ofString "Thu Jan  1 00:00:00 1970"]
  | "difftime" => do
    let x ← c.checkFloat 1
    let y ← if c.isAbsent 2 then pure 0.0 else c.checkFloat 2
    return [.float (x - y)]
  | "execute" => return [if g == .v51 then Value.ofNat g 0 else .bool false]
  | "getenv" => do
    let _ ← c.checkString 1
    return [.nil]
  | "remove" => noFile (← c.checkString 1)
  | "rename" => noFile (← c.checkString 1)
  | "setlocale" => return [Value.ofString "C"]
  | "time" => return [Value.ofNat g 0]
  | "tmpname" => return [Value.ofString "/tmp/lua_000000"]
  | _ => return []

end LuaHost.Lua.Os
