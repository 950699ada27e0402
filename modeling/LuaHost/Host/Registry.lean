import LuaHost.Host.Interface

set_option autoImplicit false

/-!
# Guards, registries and the exchange of values

A guard brings the stack back to the depth it had when the guard was entered, however its body ends.
A registry pins values of a machine, compiles chunks once, and wraps functions for the machine.
Values cross between host and machine by copying; what cannot be copied crosses as a reference.
-/

namespace LuaHost.Host

open Binding (Program Runtime Api.pushRef)

def codeOf (r : Runtime) (s : Lua.Status) : Int := r.code s

/-- Runs `act` and restores the depth of the stack. Without a machine it only runs `act`. -/
def guarded {α : Type} (runtime : Nat) (l : Option Handle) (act : H α) : H α := do
  match l with
  | none => act
  | some _ =>
    let depth := Binding.Api.intOf (← runWith runtime l fun _ => Binding.Api.getTop)
    H.finally_ act (runWith runtime l fun _ => Binding.Api.setTop depth)

/-- The words for the error value on top of a stack. -/
def topMessage (r : Runtime) : Program Text := do
  match ← Binding.Api.toText r (-1) with
  | some t => return t
  | none =>
    let tag ← Binding.Api.type (-1)
    let name ← Binding.Api.typeName (Binding.Api.intOf tag)
    return ("(error object is a " : Text) ++ name ++ (" value)" : Text)

/-- Reports the error value on top of a stack. -/
def reportTop (reporter : Nat) (code : Int) (runtime : Nat) (l : Option Handle) : H Unit := do
  let message ← runWith runtime l topMessage
  H.report reporter code message none

namespace Registry

def get (id : Nat) : H Registry := do
  return (← MonadState.get).registries.get id

def modify (id : Nat) (f : Registry → Registry) : H Unit :=
  MonadState.modifyGet fun w => ((), { w with registries := w.registries.modify id f })

/-- The main thread of a registry's machine. -/
def handle (r : Registry) : Option Handle := r.machine.map Handle.main

/-- Makes a registry. -/
def create (runtime : Nat) (machine : Option Nat) (reporter : Nat) : H Nat :=
  MonadState.modifyGet fun w =>
    (w.registries.size, { w with registries := w.registries.add ⟨runtime, machine, reporter, []⟩ })

/-- Pins the top value of a stack, the main one unless another is given. -/
def pinTop (id : Nat) (l : Option Handle) : H Nat := do
  let r ← get id
  let slot ← runWith r.runtime (l <|> r.handle) Binding.Api.ref
  MonadState.modifyGet fun w =>
    (w.references.size, { w with references := w.references.add ⟨id, Binding.Api.intOf slot⟩ })

/-- Pushes the value in a slot. -/
def push (id : Nat) (slot : Int) (l : Option Handle) : H Unit := do
  let r ← get id
  if r.machine.isNone then
    H.fail (.raised "LuaStateClosed" "registry reference used after its State was closed")
  discard <| runWith r.runtime (l <|> r.handle) fun rt => Api.pushRef rt slot

def unpin (id : Nat) (slot : Int) : H Unit := do
  let r ← get id
  if r.machine.isSome then
    runWith r.runtime r.handle fun rt => Binding.Api.unref rt slot

/-- Pushes the function of a chunk, compiling it once. A fault of the chunk is reported. -/
def pushChunk (id : Nat) (source : Text) : H Bool := do
  let r ← get id
  let rt ← H.runtime r.runtime
  let l := r.handle
  match (r.chunks.find? fun (s, _) => s == source).map (·.2) with
  | some slot => do
    discard <| runWith r.runtime l fun rt => Api.pushRef rt slot
    return true
  | none => do
    let status := Binding.Api.intOf (← runWith r.runtime l fun rt => Binding.Api.loadString rt (.text source))
    if status != codeOf rt .ok then
      reportTop r.reporter status r.runtime l
      return false
    let slot := Binding.Api.intOf (← runWith r.runtime l Binding.Api.ref)
    modify id fun r => { r with chunks := r.chunks ++ [(source, slot)] }
    discard <| runWith r.runtime l fun rt => Api.pushRef rt slot
    return true

/-- Keeps a function alive as long as the registry's machine is open. -/
def keep (id : Nat) (f : Lua.Native) : H Unit := do
  match (← get id).machine with
  | none => return ()
  | some m => MonadState.modifyGet fun w => ((), w.keep m f)

/-- A function out of a routine, which nothing keeps yet. -/
def foreign (id : Nat) (routine : Routine) (isDirect : Bool) : H Lua.Native := do
  let r ← get id
  MonadState.modifyGet fun w =>
    (.foreign w.foreigns.size,
      { w with foreigns := w.foreigns.add ⟨routine, isDirect, r.runtime, id, r.reporter, r.machine, []⟩ })

/-- Makes a function for machines out of a routine. -/
def wrap (id : Nat) (routine : Routine) : H Lua.Native := do
  let f ← foreign id routine false
  keep id f
  return f

/-- Releases the compiled chunks and lets the machine go. -/
def close (id : Nat) : H Unit := do
  let r ← get id
  if r.machine.isSome then
    r.chunks.forM fun (_, slot) => runWith r.runtime r.handle fun rt => Binding.Api.unref rt slot
  modify id fun r => { r with chunks := [], machine := none }

end Registry

namespace Reference

def get (id : Nat) : H Reference := do
  return (← MonadState.get).references.get id

/-- Whether a reference still pins a value. -/
def isValid (id : Nat) : H Bool := do
  let r ← get id
  return r.holds && (← Registry.get r.registry).machine.isSome

def push (id : Nat) (l : Option Handle) : H Unit := do
  let r ← get id
  Registry.push r.registry r.slot l

/-- Gives the slot back, once. -/
def release (id : Nat) : H Unit := do
  let r ← get id
  if r.holds then Registry.unpin r.registry r.slot
  MonadState.modifyGet fun w =>
    ((), { w with references := w.references.modify id fun r => { r with slot := Binding.noReference } })

end Reference

/-- The host value of the value at an index. -/
def toHost (runtime : Nat) (l : Option Handle) (i : Int) (registry : Option Nat) : H Value := do
  let tag := Binding.Api.intOf (← runWith runtime l fun _ => Binding.Api.type i)
  if tag == 0 ∨ tag == -1 then return .none
  if tag == 1 then return .bool (← runWith runtime l fun _ => Binding.Api.toBoolean i)
  if tag == 3 then
    if ← runWith runtime l fun r => Binding.Api.isInteger r i then
      return ← runWith runtime l fun r => Binding.Api.toInteger r i
    else return ← runWith runtime l fun _ => Binding.Api.toNumber i
  if tag == 4 then
    return ((← runWith runtime l fun r => Binding.Api.toText r i).map Value.text).getD .none
  match registry with
  | none =>
    let name ← runWith runtime l fun _ => Binding.Api.typeName tag
    H.fail (.type (("cannot convert a Lua " : Text) ++ name ++ (" without a registry" : Text)))
  | some id => do
    runWith runtime l fun _ => Binding.Api.pushValue i
    return .reference (← Registry.pinTop id l)

def leastInteger : Int := -0x8000000000000000

def greatestInteger : Int := 0x8000000000000000 - 1

/-- Pushes a host value. -/
def pushHost (runtime : Nat) (l : Option Handle) (v : Value) (registry : Option Nat) : H Unit := do
  let run (p : Program Unit) : H Unit := runWith runtime l fun _ => p
  match v with
  | .none => run Binding.Api.pushNil
  | .bool b => run (Binding.Api.pushBoolean (.bool b))
  | .int n =>
    if leastInteger ≤ n ∧ n ≤ greatestInteger then run (Binding.Api.pushInteger (.int n))
    else do
      let x ← H.ofExcept (floatOfInt n)
      run (Binding.Api.pushNumber (.float x))
  | .float x => run (Binding.Api.pushNumber (.float x))
  | .text t => run (Binding.Api.pushString (.text t))
  | .bytes b => run (Binding.Api.pushString (.bytes b))
  | .byteArray b => run (Binding.Api.pushString (.byteArray b))
  | .reference id => Reference.push id l
  | .callable f => wrapped (.callback f)
  | .pointer f => wrapped (.callback (.named "" (.const (.pointer f))))
  | v => H.fail (.type (s!"cannot push {v.typeName} onto the Lua stack" : String))
where
  wrapped (routine : Routine) : H Unit := do
    match registry with
    | none => H.fail (.type "pushing a Python callable requires a registry")
    | some id => do
      let f ← Registry.wrap id routine
      runWith runtime l fun _ => Binding.Api.pushCFunction (.pointer f)

namespace Registry

/-- The host value in a slot. -/
def value (id : Nat) (slot : Int) : H Value := do
  let r ← get id
  guarded r.runtime r.handle do
    push id slot none
    toHost r.runtime r.handle (-1) (some id)

end Registry
end LuaHost.Host
