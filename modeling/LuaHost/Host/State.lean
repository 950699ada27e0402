import LuaHost.Host.Selector
import LuaHost.Number.Format

set_option autoImplicit false

/-!
# States

A state owns or borrows one machine. Scripts that fail are reported and do not raise. Closing collects
the garbage, closes the registry and, for an owner, the machine.
-/

namespace LuaHost.Host.State

open Binding (Runtime)

def handle (s : State) : Option Handle := s.machine.map Handle.main

def get (id : Nat) : H State := do return (← MonadState.get).states.get id

def put (id : Nat) (s : State) : H Unit :=
  modify fun w => { w with states := w.states.put id s }

def createReporter : H Nat :=
  modifyGet fun w => (w.reporters.size, { w with reporters := w.reporters.add .print })

/-- Where a machine lies, as texts show it: the numbers tell machines apart and are no addresses. -/
def address (m : Nat) : Nat := 0x7f0000000000 + 4096 * (m + 1)

def shown (s : State) : Text :=
  let n := match s.machine with
    | some m => address m
    | none => 0
  "lunar.State - 0x" ++ String.ofList (Nat.toDigits 16 n)

/-- Where a state gets its machine from. -/
inductive Origin where
  | create (openLibs : Option Bool)
  | attach (machine : Option Nat)

def Origin.isOwner : Origin → Bool
  | create _ => true
  | attach _ => false

/-- Makes a state; a runtime that gives no machine raises. -/
def create (origin : Origin) (config : Config) (runtime : Nat) : H Nat := do
  modify fun w => { w with debug := w.debug.enable (some config) }
  let rt ← H.runtime runtime
  let reporter ← createReporter
  let machine ← match origin with
    | .attach m => pure m
    | .create openLibs =>
      match ← runProgram rt none (Binding.Api.newState rt) with
      | .int m => do
        if openLibs.getD config.openLibs then
          runProgram rt (some (.main m.toNat)) Binding.Api.openLibs
        pure (some m.toNat)
      | _ => H.fail (.raised "LuaAllocationError" "luaL_newstate could not allocate a Lua state")
  let registry ← Registry.create runtime machine reporter
  let s : State := ⟨machine, origin.isOwner, config, runtime, reporter, registry⟩
  let id ← modifyGet fun w => (w.states.size, { w with states := w.states.add s })
  H.debug ["State created", s.shown, if origin.isOwner then "owner" else "borrowed"]
  return id

def collect (s : State) : H Unit := do
  if s.machine.isSome then discard <| runWith s.runtime s.handle fun _ => Binding.Api.collect

/-- Drops the functions kept for a machine. -/
def releaseMachine (m : Nat) : H Unit :=
  modify fun w => { w with trampolines := w.trampolines.filter fun (n, _) => n != m }

/-- Lets the machine go; an owner collects first and closes it. -/
def close (id : Nat) : H Unit := do
  let s ← get id
  match s.machine with
  | none => return ()
  | some m => do
    if s.isOwner then
      H.debug ["State closing", s.shown]
      s.collect
      Registry.close s.registry
      runWith s.runtime s.handle fun _ => Binding.Api.close
      releaseMachine m
    else Registry.close s.registry
    modify fun w => { w with states := w.states.modify id fun s => { s with machine := none } }

/-- Takes the machine of another state, which gets a reporter and a registry of its own. -/
def takeFrom (id other : Nat) : H Unit := do
  let o ← get other
  modify fun w =>
    { w with states := w.states.modify id fun s => { s with machine := o.machine, isOwner := o.isOwner } }
  let reporter ← createReporter
  let registry ← Registry.create o.runtime none reporter
  put other { o with machine := none, isOwner := false, reporter, registry }

/-- A new state with all that a state has, which is left without a machine. -/
def move (id : Nat) : H Nat := do
  let s ← get id
  let new ← modifyGet fun w =>
    (w.states.size, { w with states := w.states.add { s with machine := none, isOwner := false } })
  takeFrom new id
  return new

/-- Closes a state and moves another one into it. -/
def take (id other : Nat) : H Unit := do
  if id == other then return ()
  close id
  let s ← get id
  let o ← get other
  put id { s with config := o.config, runtime := o.runtime, reporter := o.reporter, registry := o.registry }
  takeFrom id other

/-- How many values are on the stack. -/
def size (s : State) : H Int := do
  if s.machine.isNone then return 0
  return Binding.Api.intOf (← runWith s.runtime s.handle fun _ => Binding.Api.getTop)

/-- Runs a file; `shown` is its path as messages show it. -/
def loadFile (s : State) (path : Value) (shown : Text) : H Bool := do
  if s.machine.isNone then return false
  let l := s.handle
  let rt ← H.runtime s.runtime
  let words (status : Int) (fallback : Text) : H Bool := do
    let message ← runWith s.runtime l fun r => Binding.Api.toText r (-1)
    H.report s.reporter status (message.getD (shown ++ fallback)) none
    return false
  guarded s.runtime l do
    let status := Binding.Api.intOf (← runWith s.runtime l fun r => Binding.Api.loadFile r path)
    if status != codeOf rt .ok then
      if status == codeOf rt .errSyntax then words status ": syntax error"
      else if status == codeOf rt .errFile then words status ": file error"
      else if s.config.reportAllLoadErrors then words status ": load failed"
      else
        H.debug ["load_file", shown, "unreported", Runtime.statusName rt.generation status]
        return false
    else
      let status := Binding.Api.intOf (← runWith s.runtime l fun _ => Binding.Api.pcall 0 Binding.allResults 0)
      if status == codeOf rt .ok then return true
      else words status ": dofile failed"

/-- Runs a source. -/
def execute (s : State) (source : Value) : H Bool := do
  if s.machine.isNone then return false
  let l := s.handle
  let rt ← H.runtime s.runtime
  guarded s.runtime l do
    let status := Binding.Api.intOf (← runWith s.runtime l fun r => Binding.Api.doString r source)
    if status != codeOf rt .ok then
      reportTop s.reporter status s.runtime l
      return false
    return true

/-- What opens a module. -/
inductive Loader where
  | routine (r : Routine)
  /-- a function of the interface, which needs no wrapping -/
  | native (f : Lua.Native)

/-- The function of a loader, kept for the machine. -/
def Loader.function (registry : Nat) : Loader → H Lua.Native
  | .routine r => Registry.wrap registry r
  | .native f => do
    Registry.keep registry f
    return f

/-- Has a function open a module under a name. -/
def register (s : State) (rt : Runtime) (name : Value) (f : Lua.Native) : H Unit := do
  let l := s.handle
  guarded s.runtime l do
    if rt.registers then runWith s.runtime l fun r => Binding.Api.requireF r name (.pointer f) true
    else
      runWith s.runtime l fun _ => Binding.Api.pushCFunction (.pointer f)
      runWith s.runtime l fun _ => Binding.Api.pushString name
      let status := Binding.Api.intOf (← runWith s.runtime l fun _ => Binding.Api.pcall 1 0 0)
      if status != codeOf rt .ok then
        let message ← runWith s.runtime l fun r => Binding.Api.toText r (-1)
        H.debug ["open_lib", name.plain, Runtime.statusName rt.generation status, message.getD "None"]

/-- Registers a module under a name. -/
def openLib (s : State) (name : Value) (loader : Loader) : H Unit := do
  if s.machine.isNone then return ()
  let rt ← H.runtime s.runtime
  s.register rt name (← loader.function s.registry)

/-- Runs the prompt of the debug library. -/
def interact (s : State) : H Unit := do
  if s.machine.isNone then return ()
  guarded s.runtime s.handle do
    discard <| runWith s.runtime s.handle fun r => Binding.Api.doString r (.text "debug.debug()")

/-- The selector of a global. -/
def select (s : State) (name : Value) (path : List Value) : Selector :=
  ⟨s.runtime, s.machine, s.registry, s.reporter, name, path⟩

def numberName : Value → Text
  | .float x => Number.general 6 x
  | .int n => Number.general 6 (Double.ofInt n)
  | _ => Text.empty

/-- The names of the entries below the key on top of the stack. -/
def namesFrom (s : State) : Nat → H (List Text)
  | 0 => return []
  | fuel + 1 => do
    let run {α : Type} (p : Runtime → Binding.Program α) : H α := runWith s.runtime s.handle p
    if Binding.Api.intOf (← run fun _ => Binding.Api.next (-2)) == 0 then return []
    let tag := Binding.Api.intOf (← run fun _ => Binding.Api.type (-2))
    let name ←
      if tag == 4 then pure [(← run fun r => Binding.Api.toText r (-2)).getD Text.empty]
      else if tag == 3 then pure [numberName (← run fun _ => Binding.Api.toNumber (-2))]
      else pure []
    run fun _ => Binding.Api.pop 1
    return name ++ (← s.namesFrom fuel)

/-- How many entries the table at an index has room for. -/
def entryCount (l : Handle) (i : Int) : H Nat :=
  H.onMachine l.machine do return (← Lua.M.table (← Lua.Stack.tableAt l.thread i)).entries.length

/-- The names of the globals whose key is a string or number. -/
def globalNames (s : State) : H (List Text) := do
  match s.handle with
  | none => return []
  | some l =>
    let run {α : Type} (p : Runtime → Binding.Program α) : H α := runWith s.runtime (some l) p
    guarded s.runtime (some l) do
      run Binding.Api.pushGlobals
      let count ← entryCount l (-1)
      run fun _ => Binding.Api.pushNil
      let names ← s.namesFrom (count + 1)
      run fun _ => Binding.Api.pop 1
      return names

end LuaHost.Host.State
