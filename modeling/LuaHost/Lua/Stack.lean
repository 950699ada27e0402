import LuaHost.Lua.Library

set_option autoImplicit false

/-!
# The stack of a thread

How a host sees a machine: values are reached through indices into the stack of a thread, counted
from its bottom or, when negative, from its top; two indices beyond all positions denote the registry
and, in the oldest generation, the table of globals. Calls take their function and arguments from the
top and leave their results, or one error value, there.
-/

namespace LuaHost.Lua.Stack

variable {σ : Type}

/-- What an index denotes. -/
inductive Place where
  | slot (n : Nat)
  | registry
  | globals
  | absent
deriving DecidableEq

def registryIndex (g : Generation) : Int := if g == .v51 then -10000 else -1001000

def globalsIndex : Int := -10002

def place (g : Generation) (size : Nat) (i : Int) : Place :=
  if 0 < i then if i ≤ size then .slot (i.toNat - 1) else .absent
  else if i == registryIndex g then .registry
  else if g == .v51 && (i == globalsIndex || i == -10001) then .globals
  else if i < 0 ∧ -(size : Int) ≤ i then .slot (size + i).toNat
  else .absent

def contents (t : Nat) : M σ (Array Value) := do return (← M.thread t).stack

def setContents (t : Nat) (vs : Array Value) : M σ Unit :=
  M.modifyThread t fun th => { th with stack := vs }

/-- The value at an index, if there is one. -/
def value? (t : Nat) (i : Int) : M σ (Option Value) := do
  let vs ← contents t
  match place (← M.generation) vs.size i with
  | .slot n => return vs[n]?
  | .registry => return some (.table (← M.vm).registry)
  | .globals => return some (.table (← M.vm).globals)
  | .absent => return none

def value (t : Nat) (i : Int) : M σ Value := do return (← value? t i).getD .nil

def push (t : Nat) (v : Value) : M σ Unit :=
  M.modifyThread t fun th =>
    { th with stack := th.stack.push v, overdrawn := th.overdrawn || !th.room.allows th.stack.size }

def pushAll (t : Nat) (vs : List Value) : M σ Unit := vs.forM (push t)

/-- Takes the top value. -/
def pop (t : Nat) : M σ Value := do
  let vs ← contents t
  setContents t vs.pop
  return vs.back?.getD .nil

/-- The top `n` values in order, taken from the stack. -/
def popAll (t : Nat) (n : Nat) : M σ (List Value) := do
  let vs ← contents t
  setContents t (vs.shrink (vs.size - n))
  return (vs.extract (vs.size - n) vs.size).toList

def size (t : Nat) : M σ Nat := do return (← contents t).size

/-- The first `n` values, filled up with nil. -/
def resize (vs : Array Value) (n : Nat) : Array Value :=
  if n ≤ vs.size then vs.shrink n else vs ++ Array.replicate (n - vs.size) Value.nil

/-- Sets the number of values to `asked`, which is read as `i`; a negative one counts from the present top. -/
def setTop (t : Nat) (asked i : Int) : M σ Unit := do
  let vs ← contents t
  let n := if 0 ≤ i then i else vs.size + i + 1
  if n < 0 then M.fault .badIndex
  M.modifyThread t fun th =>
    { th with stack := resize vs n.toNat, room := if i = asked then th.room else th.room.lose 0 }

/-- The most values on the stack of one native function, or of a whole thread. -/
def limit (g : Generation) : Nat := if g == .v51 then 8000 else 999994

/-- Asks for room for `asked` more values; the request is read as one for `n`. -/
def checkRoom (t : Nat) (asked n : Int) : M σ Bool := do
  let g ← M.generation
  let size ← size t
  let isGranted := size + n ≤ (limit g : Int)
  M.modifyThread t fun th =>
    { th with room := if isGranted ∧ n = asked then th.room.grant size (size + n).toNat else th.room.lose size }
  return isGranted

def typeCode (t : Nat) (i : Int) : M σ Int := do
  match ← value? t i with
  | some v => return v.tag.code
  | none => return -1

/-- The text of a string or number. A number becomes its text in place. -/
def text? (t : Nat) (i : Int) : M σ (Option ByteArray) := do
  let g ← M.generation
  let vs ← contents t
  let v ← value t i
  match Arith.text? g v with
  | none => return none
  | some s =>
    match v, place g vs.size i with
    | .str _, _ => return some s
    | _, .slot n => do
      setContents t (vs.setIfInBounds n (.str s))
      return some s
    | _, _ => return some s

/-- The value as a double, zero if it is none. -/
def number (t : Nat) (i : Int) : M σ Float := do
  return (Arith.toFloat? (← M.generation) (← value t i)).getD 0.0

/-- Cuts off the fraction; what does not fit 64 bits becomes the least integer. -/
def truncated (x : Float) : Int :=
  match Double.truncate? x with
  | some n => if -0x8000000000000000 ≤ n ∧ n < 0x8000000000000000 then n else -0x8000000000000000
  | none => -0x8000000000000000

/-- The value as an integer, zero if it is none. -/
def integer (t : Nat) (i : Int) : M σ Int := do
  let g ← M.generation
  let v ← value t i
  if g.hasIntegers then return ((Arith.toInt? g v).map Int64.toInt).getD 0
  else match Arith.toFloat? g v with
    | some x => return truncated x
    | none => return 0

def isInteger (t : Nat) (i : Int) : M σ Bool := do
  match ← value t i with
  | .int _ => return true
  | _ => return false

def tableAt (t : Nat) (i : Int) : M σ Nat := do
  match ← value t i with
  | .table a => return a
  | _ => M.fault .badIndex

/-- Replaces the key on top by the next key of a table and its value; at the end only takes it. -/
def next (t : Nat) (i : Int) : M σ Bool := do
  let a ← tableAt t i
  let key ← pop t
  match ← Base.nextEntry a key with
  | [k, v] => do
    push t k
    push t v
    return true
  | _ => return false

/-- Carries out an action on another thread than the running one. -/
def onThread {α : Type} (t : Nat) (act : M σ α) : M σ α := do
  let outer := (← M.vm).running
  if outer == t then act
  else
    M.modifyVm fun vm => { vm with running := t }
    let back : M σ Unit := M.modifyVm fun vm => { vm with running := outer }
    fun s =>
      match act s with
      | .ok a s =>
        match back s with
        | .ok _ s => .ok a s
        | .error e s => .error e s
      | .error e s =>
        match back s with
        | .ok _ s => .error e s
        | .error e s => .error e s

/-- Pushes the entry of the value at an index under a key. -/
def getEntry (services : Services σ) (t : Nat) (i : Int) (key : Value) : M σ Unit := do
  let obj ← value t i
  push t (← onThread t (M.getEntry services obj key))

/-- Assigns the top value to the entry of the value at an index under a key. -/
def setEntry (services : Services σ) (t : Nat) (i : Int) (key : Value) : M σ Unit := do
  let obj ← value t i
  let v ← value t (-1)
  onThread t (M.setEntry services obj key v)
  let _ ← pop t

/-- How the attempt to run something ended. -/
inductive Attempt (α : Type) where
  | done (a : α)
  | failed (status : Status) (v : Value)

/-- Runs an action so that an error ends only the action. -/
def attempt {α : Type} (act : M σ α) : M σ (Attempt α) := fun s =>
  match act s with
  | .ok a s => .ok (.done a) s
  | .error (.error status v) s => .ok (.failed status v) s
  | .error (.unwinding status v) s => .ok (.failed status v) s
  | .error (.fault f) s => .error (.fault f) s

/-- Leaves the results of a call: as many as were asked for, or all, for which the call itself makes room. -/
def leaveResults (t : Nat) (nresults : Option Nat) (vs : List Value) : M σ Unit :=
  match nresults with
  | some n => pushAll t (adjust n vs)
  | none => do
    M.modifyThread t fun th => { th with room := th.room.fill (th.stack.size + vs.length) }
    pushAll t vs

/-- A protected call with the top `nargs` values as arguments, of the function below them; `none` for
`nresults` keeps all results. A failure leaves one error value. -/
def protectedCall (run : Machine → M σ Outcome) (t : Nat) (nargs : Nat) (nresults : Option Nat)
    (handler : Option Value) : M σ Status := do
  let args ← popAll t nargs
  let f ← pop t
  match ← onThread t (attempt (Machine.nested run (some handler) f args)) with
  | .done vs => do
    leaveResults t nresults vs
    return .ok
  | .failed status v => do
    push t v
    return status

/-- Compiles a chunk and pushes its function, or the words of its fault. -/
def load (t : Nat) (chunk : M σ (Except (Status × ByteArray) Value)) : M σ Status := do
  match ← chunk with
  | .ok f => do
    push t f
    return .ok
  | .error (status, message) => do
    push t (.str message)
    return status

def globals : M σ Value := return .table (← M.vm).globals

/-- Compiles a text that names itself. -/
def loadText (t : Nat) (source : ByteArray) : M σ Status := do
  load t (M.load source source (← globals))

/-- Where the numbers of free registry slots begin. -/
def freeListSlot (g : Generation) : Int64 := if g == .v54 then 3 else 0

def registryEntry (n : Int64) : M σ Value := do
  return (← M.table (← M.vm).registry).get (.int n)

def setRegistryEntry (n : Int64) (v : Value) : M σ Unit := do
  M.modifyTable (← M.vm).registry fun t => t.setInt n v

/-- The greatest number of a slot. -/
def greatestSlot : Nat := 0x80000000 - 1

/-- The slot released last, or zero. -/
def freeSlot : M σ Int64 := do
  let g ← M.generation
  match ← registryEntry (freeListSlot g) with
  | .nil => do
    if g == .v54 then setRegistryEntry (freeListSlot g) (Value.ofNat g 0)
    return 0
  | v => return (Arith.toInt? g v).getD 0

/-- Stores a value in a free slot, or in a new one if that is zero. -/
def occupy (v : Value) (free : Int64) : M σ Int := do
  if free == 0 then
    let slot := (← M.table (← M.vm).registry).length + 1
    if greatestSlot < slot then M.fault .registryFull
    setRegistryEntry (Int64.ofNat slot) v
    return slot
  else
    let g ← M.generation
    setRegistryEntry (freeListSlot g) (← registryEntry free)
    setRegistryEntry free v
    return free.toInt

/-- Pins the top value in the registry and takes it from the stack. The slot released last is used
first; nil gets no slot. -/
def pin (t : Nat) : M σ Int := do
  let v ← pop t
  if v.isNil then return -1
  occupy v (← freeSlot)

/-- Releases a slot of the registry. -/
def unpin (slot : Int) : M σ Unit := do
  if slot < 0 then return ()
  let g ← M.generation
  let head := freeListSlot g
  setRegistryEntry (Int64.ofInt slot) (← registryEntry head)
  setRegistryEntry head (Value.ofInt g slot)

/-- Registers a module under a name, opening it by a call with the name if that is needed, and pushes
it. The name ends at its first NUL. -/
def require (services : Services σ) (t : Nat) (name : ByteArray) (opening : Value)
    (isGlobal : Bool) : M σ Unit := onThread t do
  let g ← M.generation
  let key : Value := .str name
  let loaded := Value.table (← Packages.loaded)
  let known ← if g.since .v53 then M.getEntry services loaded key else pure .nil
  let v ← if known.truthy then pure known
    else do
      let v := first (← services.call opening [key])
      M.setEntry services (.table (← Packages.loaded)) key v
      pure v
  push t v
  if isGlobal then M.setEntry services (← globals) key v

/-- A new machine: its registry holds the main thread and the globals where the generation wants
them. -/
def newMachine (g : Generation) : Vm :=
  let empty : Vm :=
    { generation := g, tables := .ofList [.empty, .empty], closures := .empty, cells := .empty, userdata := .empty
      threads := .ofList [{ Thread.fresh with status := .running }], registry := 0, globals := 1
      stringMeta := none, finalizable := [], due := [], running := 0, natives := 0
      nextIdentity := 0, input := [], seed := 88172645463325252, breached := false }
  if g == .v51 then empty
  else
    { empty with
      tables := empty.tables.modify 0 fun t =>
        (t.setInt 1 (.thread 0)).setInt 2 (.table 1) }

end LuaHost.Lua.Stack
