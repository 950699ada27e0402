import LuaHost.Binding.Method
import LuaHost.Binding.Search
import LuaHost.Host.Reporter
import LuaHost.Lua.Stack

set_option autoImplicit false

/-!
# The world of a host

All machines of a host with what it keeps beside them: registries that pin values, reporters, states,
references, functions given to machines, files and the record of what happened. A host operation may
end early by an error of the host or by one that a machine throws across it.
-/

namespace LuaHost.Host

open Lua (Vm)
open Binding (Method Runtime Debug)

/-- A machine by its number. -/
inductive Slot where
  | open (vm : Vm)
  /-- its state is with the machine, which runs -/
  | busy
  | closed

instance : Inhabited Slot := ⟨.closed⟩

/-- A thread of a machine, as functions given to the machine see it. -/
structure Handle where
  machine : Nat
  thread : Nat
deriving DecidableEq

/-- The main thread of a machine. -/
def Handle.main (machine : Nat) : Handle := ⟨machine, 0⟩

/-- A registry: the machine whose values it pins, while it has one, and the chunks it has compiled. -/
structure Registry where
  runtime : Nat
  machine : Option Nat
  reporter : Nat
  chunks : List (Text × Int)
deriving Inhabited

/-- A reference: the registry that pins a value, and the slot. -/
structure Reference where
  registry : Nat
  slot : Int

namespace Reference

/-- A reference that was never made reads as a released one. -/
instance : Inhabited Reference := ⟨⟨0, Binding.noReference⟩⟩

/-- Whether it holds a slot. -/
def holds (r : Reference) : Bool := r.slot != Binding.noReference && r.slot != Binding.nilReference

end Reference

mutual

/-- An operation in the body of a routine. -/
inductive RoutineCall where
  | plain (name : String) (method : Method)
  /-- makes a function out of a routine through the registry of a state, and pushes it -/
  | pushFunction (state : Text) (routine : Routine)

/-- What a function given to a machine does. -/
inductive Routine where
  /-- makes calls on the thread that calls it; then gives the number of its results, or raises -/
  | raw (calls : List RoutineCall) (result : Value) (raises : Option (String × Text))
  /-- converts its arguments and results -/
  | callback (f : Callback)

end

/-- A function given to a machine, with what it captured. A direct one reports no errors. -/
structure Foreign where
  routine : Routine
  isDirect : Bool
  runtime : Nat
  registry : Nat
  reporter : Nat
  /-- the machine that the registry had when the function was made -/
  home : Option Nat
  /-- the machines that it was given to -/
  machines : List Nat

/-- A function that was never made does nothing. -/
instance : Inhabited Foreign := ⟨⟨.raw [] .none none, true, 0, 0, 0, none, []⟩⟩

/-- What the host did to a machine as a whole or to the slots of its registry, and the calls of its
functions that the machine made. -/
inductive Event where
  | created (machine : Nat)
  | collected (machine : Nat)
  | closed (machine : Nat)
  | pinned (machine : Nat) (v : Lua.Value) (slot : Int)
  | unpinned (machine : Nat) (slot : Int)
  /-- a call of a function by its number, and whether the function was kept for the machine then -/
  | entered (machine : Nat) (function : Nat) (isKept : Bool)

/-- A state: the machine it holds, if any, and whether it owns it. -/
structure State where
  machine : Option Nat
  isOwner : Bool
  config : Config
  runtime : Nat
  reporter : Nat
  registry : Nat

instance : Inhabited State := ⟨⟨none, false, .default, 0, 0, 0⟩⟩

/-- A value of a machine by its way from the globals. -/
structure Selector where
  runtime : Nat
  machine : Option Nat
  registry : Nat
  reporter : Nat
  name : Value
  path : List Value

/-- What a session keeps under a name. -/
inductive Stored where
  | value (v : Value)
  | selector (s : Selector)

/-- Something as it was when it was shown. -/
inductive Answer where
  | none
  | bool (b : Bool)
  | int (n : Int)
  | float (x : Float)
  | text (t : Text)
  | bytes (b : ByteArray)
  | tuple (vs : List Answer)
  | list (vs : List Answer)
  /-- a reference, by the type of the value it pins -/
  | reference (type : Option Text)
  | record (fields : List (String × Answer))
deriving Inhabited

structure World where
  machines : Pool Slot
  runtimes : Pool Runtime
  registries : Pool Registry
  reporters : Pool Handler
  references : Pool Reference
  foreigns : Pool Foreign
  /-- the functions that machines may still call, by machine -/
  trampolines : List (Nat × List Lua.Native)
  states : Pool State
  names : List (Text × Nat)
  stored : List (Text × Stored)
  kept : List Value
  /-- the references that operations in progress hold -/
  inFlight : List (List Nat)
  files : Files
  debug : Debug
  reports : List Handler.Event
  calls : List (List Answer)
  written : Text
  /-- all that was done to machines, the latest first -/
  journal : List Event

/-- Notes that a function was given to a machine. -/
def World.give (w : World) (m : Nat) (f : Lua.Native) : World :=
  match f with
  | .foreign id =>
    if (w.foreigns.get id).machines.contains m then w
    else { w with foreigns := w.foreigns.modify id fun f => { f with machines := m :: f.machines } }
  | _ => w

/-- Keeps a function alive for a machine. -/
def World.keep (w : World) (m : Nat) (f : Lua.Native) : World :=
  let kept := match w.trampolines.find? fun (n, _) => n == m with
    | some _ => w.trampolines.map fun (n, fs) => if n == m then (n, fs ++ [f]) else (n, fs)
    | none => w.trampolines ++ [(m, [f])]
  { w with trampolines := kept }

/-- Whether a function is kept for a machine. -/
def World.isKept (w : World) (m : Nat) (f : Lua.Native) : Bool :=
  w.trampolines.any fun (n, fs) => n == m && fs.contains f

/-- Why an operation of the host ended early. -/
inductive Stop where
  | failure (f : Failure)
  /-- an error that a machine throws across the host, or a fault -/
  | signal (s : Lua.Signal)

/-- How functions that are not written in Lua run, for each machine. -/
structure Env where
  natives : Nat → Lua.Natives World

abbrev H := ReaderT Env (EStateM Stop World)

namespace H

variable {α : Type}

def fail (f : Failure) : H α := throw (.failure f)

def fault (f : Lua.Fault) : H α := throw (.signal (.fault f))

def ofExcept (r : Except Failure α) : H α :=
  match r with
  | .ok a => pure a
  | .error f => fail f

def runtime (n : Nat) : H Runtime := do return (← get).runtimes.get n

/-- Runs `act` and then, unless a machine threw across it, `after`. -/
def finally_ (act : H α) (after : H Unit) : H α := fun env w =>
  match act env w with
  | .ok a w =>
    match after env w with
    | .ok _ w => .ok a w
    | .error e w => .error e w
  | .error (.failure f) w =>
    match after env w with
    | .ok _ w => .error (.failure f) w
    | .error e w => .error e w
  | .error (.signal s) w => .error (.signal s) w

/-- Runs `act`; an error of the host goes to `handler`. -/
def catch_ (act : H α) (handler : Failure → H α) : H α := fun env w =>
  match act env w with
  | .error (.failure f) w => handler f env w
  | r => r

/-- Raises what a handler has raised. -/
def raise : Option Text → H Unit
  | some t => fail (.raised "RuntimeError" t)
  | none => pure ()

/-- Tells a reporter of a failure. -/
def report (reporter : Nat) (code : Int) (message : Text) (cause : Option String) : H Unit := do
  let w ← get
  let r := (w.reporters.get reporter).handle ⟨code, message, cause⟩
  set { w with
    reporters := w.reporters.put reporter r.handler
    reports := w.reports ++ r.events }
  raise r.raised

/-- Writes a line to the debug channel, if it is on. -/
def debug (parts : List Text) : H Unit :=
  modify fun w => { w with written := w.written ++ w.debug.line parts }

/-- The slot that a reference holds. -/
def slotOf (w : World) (id : Nat) : Int := (w.references.get id).slot

/-- Carries out an action on a machine. -/
def onMachine (m : Nat) (act : Lua.M World α) : H α := fun _ w =>
  match w.machines.get m with
  | .open vm =>
    let w := { w with machines := w.machines.put m .busy }
    match act ⟨vm, w⟩ with
    | .ok a s => .ok a { s.host with machines := s.host.machines.put m (.open s.vm) }
    | .error e s => .error (.signal e) { s.host with machines := s.host.machines.put m (.open s.vm) }
  | _ => .error (.signal (.fault .closedHandle)) w

/-- Carries out an operation of the host from inside a machine. An error of the host that reaches the
machine is dropped. -/
def inMachine (env : Env) (m : Nat) (act : H α) (dropped : α) : Lua.M World α := fun s =>
  let w := { s.host with machines := s.host.machines.put m (.open s.vm) }
  let leave (w : World) : Option (Lua.Sys World) :=
    match w.machines.get m with
    | .open vm => some ⟨vm, { w with machines := w.machines.put m .busy }⟩
    | _ => none
  let gone (w : World) : Lua.Sys World := ⟨Lua.Stack.newMachine .v51, w⟩
  match act env w with
  | .ok a w =>
    match leave w with
    | some s => .ok a s
    | none => .error (.fault .closedHandle) (gone w)
  | .error (.failure _) w =>
    match leave w with
    | some s => .ok dropped s
    | none => .error (.fault .closedHandle) (gone w)
  | .error (.signal e) w =>
    match leave w with
    | some s => .error e s
    | none => .error (.fault .closedHandle) (gone w)

end H
end LuaHost.Host
