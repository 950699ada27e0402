import LuaHost.Lua.Library.Base

set_option autoImplicit false

/-!
# The debug library

The interactive prompt reads lines from the standard input of the machine and runs each as a chunk,
until the input ends or a line says `cont`. Errors of a line are shown and forgotten.
-/

namespace LuaHost.Lua.Debugging

variable {σ : Type}

/-- The most bytes that one reading of a line takes. -/
def lineLimit : Nat := 249

/-- The next line with its end, and the input after it. -/
def nextLine : Nat → List UInt8 → List UInt8 × List UInt8
  | 0, bs => ([], bs)
  | _ + 1, [] => ([], [])
  | fuel + 1, b :: rest =>
    if b == 10 then ([b], rest)
    else
      let (line, rest) := nextLine fuel rest
      (b :: line, rest)

/-- Runs an action whose errors are dropped. -/
def quietly (act : M σ Unit) : M σ Unit := fun s =>
  match act s with
  | .ok _ s => .ok () s
  | .error (.fault f) s => .error (.fault f) s
  | .error _ s => .ok () s

def runLine (c : Call σ) (line : List UInt8) : M σ Unit := do
  let source : ByteArray := ⟨(line.takeWhile (· != 0)).toArray⟩
  match ← M.load (bytesOf "=(debug command)") source (← Base.globalsValue) with
  | .error _ => return ()
  | .ok f => quietly do
    let _ ← c.services.callPlain f []
    return ()

def prompt (c : Call σ) : Nat → M σ (List Value)
  | 0 => return []
  | fuel + 1 => do
    match nextLine lineLimit (← M.vm).input with
    | ([], _) => return []
    | (line, rest) =>
      M.modifyVm fun vm => { vm with input := rest }
      if line == (bytesOf "cont\n").data.toList then return []
      runLine c line
      prompt c fuel

def tracebackFn (c : Call σ) : M σ (List Value) := do
  let args := match c.args with
    | .thread _ :: rest => rest
    | args => args
  match first args with
  | .nil => return [Value.ofString "stack traceback:\n\t[C]: in ?"]
  | v =>
    match Arith.text? (← M.generation) v with
    | some s => return [.str (s ++ bytesOf "\nstack traceback:\n\t[C]: in ?")]
    | none => return [v]

def setMetatableFn (c : Call σ) : M σ (List Value) := do
  let mt := match c.arg 2 with
    | .table a => some a
    | _ => none
  match c.arg 1 with
  | .table a => Base.setMetatable a mt
  | .userdata a => M.modifyVm fun vm => { vm with userdata := vm.userdata.modify a fun u => { u with metatable := mt } }
  | .str _ => M.modifyVm fun vm => { vm with stringMeta := mt }
  | _ => pure ()
  return [if (← M.generation) == .v51 then .bool true else c.arg 1]

/-- What is known about the function at a level, or about a function itself. -/
def putField (a : Nat) (key : String) (v : Value) : M σ Unit := M.modifyTable a fun t => t.setString key v

/-- Writes what is known of a caller into a table. -/
def describeCaller (g : Generation) (a : Nat) : Option Caller → M σ (List Value)
  | some (.lua act line _ _) => do
    putField a "currentline" (Value.ofNat g line)
    putField a "short_src" (.str ⟨(ChunkName.display g act.chunk.data.toList).toArray⟩)
    putField a "source" (.str act.chunk)
    putField a "what" (Value.ofString "Lua")
    return [.table a]
  | some (.native _) => do
    putField a "currentline" (Value.ofInt g (-1))
    putField a "short_src" (Value.ofString "[C]")
    putField a "what" (Value.ofString "C")
    return [.table a]
  | none => return [.nil]

def getInfoFn (c : Call σ) : M σ (List Value) := do
  let g ← M.generation
  let a ← M.newTable
  match c.arg 1 with
  | .int _ | .float _ => do
    let level ← c.checkInt 1
    let cs ← M.callers (← M.vm).running
    describeCaller g a cs[(level - 1).toNat]?
  | f => do
    putField a "func" f
    putField a "what" (Value.ofString (match f with
      | .closure _ => "Lua"
      | _ => "C"))
    return [.table a]

def apply (name : String) (c : Call σ) : M σ (List Value) := do
  match name with
  | "debug" => prompt c ((← M.vm).input.length + 1)
  | "getinfo" => getInfoFn c
  | "getmetatable" =>
    match ← M.metatable? (← c.checkAny 1) with
    | some mt => return [.table mt]
    | none => return [.nil]
  | "getregistry" => return [.table (← M.vm).registry]
  | "setmetatable" => setMetatableFn c
  | "traceback" => tracebackFn c
  | _ => return [.nil]

end LuaHost.Lua.Debugging
