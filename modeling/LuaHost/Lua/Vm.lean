import LuaHost.Lua.Heap
import LuaHost.Lua.ChunkName
import LuaHost.Pool

set_option autoImplicit false

/-!
# The state of a Lua machine

One machine owns a heap, a registry and a set of threads. What a thread has still to do is a list of
continuations, the most urgent first. Continuations hold no Lean functions, so everything that a
collection must keep alive can be read off them.
-/

namespace LuaHost.Lua

/-- A call of a Lua function in progress. -/
structure Activation where
  cells : Array Nat
  locals : Array Nat
  varargs : List Value
  chunk : ByteArray
  /-- how many calls are below this one -/
  depth : Nat
  /-- how many native calls are below this one -/
  natives : Nat
deriving Inhabited

def Activation.outside (natives : Nat) : Activation := ⟨#[], #[], [], .empty, 0, natives⟩

/-- Where a function was called from. -/
inductive Caller where
  | lua (activation : Activation) (line : Nat) (origin : Option Origin) (tailCalls : Nat)
  | native (activation : Activation)

/-- Where an assignment puts its value. -/
inductive Target where
  | slot (n : Nat)
  | upvalue (n : Nat)
  | entry (base key : Value) (origin : Option Origin)

inductive Kont where
  | statements (rest : List Stat)
  /-- leaves a block with this body, whose function had `locals` locals before it -/
  | blockEnd (locals : Nat) (body : List Stat)
  | discard
  | bindLocals (count : Nat)
  | evalRest (done : List Value) (rest : List Expr)
  | evalLast (done : List Value) (isMulti : Bool)
  | binaryRight (op : BinaryOp) (l r : Expr) (line : Nat)
  | binaryApply (op : BinaryOp) (left : Value) (l r : Expr) (line : Nat)
  | unaryApply (op : UnaryOp) (e : Expr) (line : Nat)
  | andRight (r : Expr)
  | orRight (r : Expr)
  | indexKey (base key : Expr) (line : Nat)
  | indexApply (value : Value) (base key : Expr) (line : Nat)
  | callee (fn : Expr) (args : List Expr) (line : Nat) (isTail : Bool)
  | receiver (object : Expr) (name : ByteArray) (args : List Expr) (line : Nat) (isTail : Bool)
  | methodFound (self : Value) (name : ByteArray) (args : List Expr) (line : Nat) (isTail : Bool)
  | arguments (fn : Value) (first : List Value) (line : Nat) (origin : Option Origin) (isTail : Bool)
  | tableBuild (items : List Item) (line : Nat)
  | assignBuild (targets : List Expr) (values : Nat) (line : Nat)
  | stores (pending : List (Target × Value)) (line : Nat)
  | branch (yes no : List Stat)
  | whileTest (condition : Expr) (body : List Stat)
  | whileAgain (condition : Expr) (body : List Stat)
  | repeatTest (body : List Stat) (condition : Expr) (locals : Nat)
  | repeatEnd (body : List Stat) (condition : Expr) (locals : Nat)
  | numericStart (body : List Stat) (line : Nat)
  /-- the next value of the control variable, and how many steps are left -/
  | numericInt (value : Int) (step : Int) (left : Nat) (body : List Stat)
  | numericFloat (value limit step : Float) (body : List Stat)
  | genericStart (count : Nat) (body : List Stat) (line : Nat)
  | genericStep (step state : Value) (count : Nat) (body : List Stat) (line : Nat)
  | genericAgain (step state control : Value) (count : Nat) (body : List Stat) (line : Nat)
  /-- where `break` ends -/
  | loopEnd (locals : Nat)
  | returnAll
  | truth (negate : Bool)
  /-- back to the caller -/
  | callReturn (caller : Caller)
  /-- a protected call; `native` is what called it and `saved` the message handler outside it -/
  | protectedCall (saved : Option Value)
  /-- the message handler is running -/
  | handling
  /-- the start of a nested run: the stack of the native function that started it -/
  | nativeStart (stack : Array Value) (saved : Option Value)

inductive ThreadStatus where
  | fresh | suspended | running | normal | dead
deriving DecidableEq, Repr, Inhabited

/-- The room that a native function has on a stack. -/
structure Room where
  /-- how many values fit without a request for more -/
  count : Nat
  /-- the depth from which on nothing is promised: a request was refused there, or results filled the room -/
  lapse : Option Nat
deriving DecidableEq, Inhabited

namespace Room

/-- The least depth that the interface has no number for. -/
def beyond : Nat := 0x80000000

/-- Whether nothing is promised to a stack of this depth. -/
def lapsed (r : Room) (depth : Nat) : Bool := beyond ≤ depth || r.lapse.any (· ≤ depth)

/-- Whether a stack of this depth may get one more value. -/
def allows (r : Room) (depth : Nat) : Bool := depth < r.count || r.lapsed depth

/-- From this depth on nothing is promised. -/
def lose (r : Room) (depth : Nat) : Room := { r with lapse := some (min (r.lapse.getD depth) depth) }

/-- A request that is granted at a depth makes room for `n` values, and what was lost beyond is not lost
any more. -/
def grant (r : Room) (depth n : Nat) : Room := ⟨max r.count n, r.lapse.filter (· ≤ depth)⟩

/-- The results of a call make room for themselves, and for nothing else. -/
def fill (r : Room) (depth : Nat) : Room :=
  if depth < r.count then r else { r with count := depth }.lose depth

end Room

structure Thread where
  status : ThreadStatus
  /-- the stack of the native function that runs in it, if one does; its bottom first -/
  stack : Array Value
  room : Room
  /-- whether a value was pushed that had no room, although room had been promised -/
  overdrawn : Bool
  konts : List Kont
  handler : Option Value

/-- The values that fit on a fresh stack beyond its arguments. -/
def minimumRoom : Nat := 20

/-- The room of a function that was called with `n` arguments. -/
def Room.ofArguments (n : Nat) : Room := ⟨n + minimumRoom, none⟩

def Thread.fresh : Thread := ⟨.fresh, #[], .ofArguments 0, false, [], none⟩

instance : Inhabited Thread := ⟨.fresh⟩

/-- A heap object that may have a finalizer. -/
inductive Object where
  | table (address : Nat)
  | userdata (address : Nat)
deriving DecidableEq

structure Vm where
  generation : Generation
  tables : Pool Table
  closures : Pool Closure
  cells : Pool Value
  userdata : Pool Userdata
  threads : Pool Thread
  registry : Nat
  globals : Nat
  stringMeta : Option Nat
  /-- objects with a finalizer, the latest first -/
  finalizable : List Object
  /-- objects whose finalizer is due -/
  due : List Object
  /-- the thread that runs -/
  running : Nat
  /-- how many native calls are in progress -/
  natives : Nat
  /-- the next identity for a native function that needs one -/
  nextIdentity : Nat
  /-- the lines not yet read from the standard input -/
  input : List UInt8
  /-- the state of the generator of random numbers -/
  seed : UInt64
  /-- whether a program has written a numbered entry of the registry or given it a metatable -/
  breached : Bool

/-- Why a machine cannot go on. None of these is an error that a program could catch. -/
inductive Fault where
  | outOfFuel
  | nullHandle
  | closedHandle
  | unprotectedError
  | badIndex
  /-- no slot of the registry has a number left -/
  | registryFull
  /-- a call of a function that the machine was not given -/
  | strayFunction
deriving DecidableEq, Repr

/-- What ends an operation early: an error of the program, or a fault. -/
inductive Signal where
  /-- an error that no message handler has seen -/
  | error (status : Status) (value : Value)
  /-- an error on its way to the nearest protected call -/
  | unwinding (status : Status) (value : Value)
  | fault (f : Fault)

/-- A machine and what surrounds it. -/
structure Sys (σ : Type) where
  vm : Vm
  host : σ

abbrev M (σ : Type) := EStateM Signal (Sys σ)

namespace M

variable {σ : Type}

def vm : M σ Vm := fun s => .ok s.vm s

def modifyVm (f : Vm → Vm) : M σ Unit := fun s => .ok () { s with vm := f s.vm }

def fault {α : Type} (f : Fault) : M σ α := throw (.fault f)

def raise {α : Type} (v : Value) : M σ α := throw (.error .errRun v)

def generation : M σ Generation := fun s => .ok s.vm.generation s

def table (a : Nat) : M σ Table := fun s => .ok (s.vm.tables.get a) s

def modifyTable (a : Nat) (f : Table → Table) : M σ Unit :=
  modifyVm fun vm => { vm with tables := vm.tables.modify a f }

def newTable (t : Table := .empty) : M σ Nat := fun s =>
  let a := s.vm.tables.size
  .ok a { s with vm := { s.vm with tables := s.vm.tables.add t } }

def newClosure (c : Closure) : M σ Value := fun s =>
  let a := s.vm.closures.size
  .ok (.closure a) { s with vm := { s.vm with closures := s.vm.closures.add c } }

def newCell (v : Value) : M σ Nat := fun s =>
  let a := s.vm.cells.size
  .ok a { s with vm := { s.vm with cells := s.vm.cells.add v } }

def newUserdata (u : Userdata) : M σ Nat := fun s =>
  let a := s.vm.userdata.size
  .ok a { s with vm := { s.vm with userdata := s.vm.userdata.add u } }

def newThread (t : Thread) : M σ Nat := fun s =>
  let a := s.vm.threads.size
  .ok a { s with vm := { s.vm with threads := s.vm.threads.add t } }

def cell (a : Nat) : M σ Value := fun s => .ok (s.vm.cells.get a) s

def setCell (a : Nat) (v : Value) : M σ Unit :=
  modifyVm fun vm => { vm with cells := vm.cells.put a v }

def closure (a : Nat) : M σ Closure := fun s => .ok (s.vm.closures.get a) s

def thread (t : Nat) : M σ Thread := fun s => .ok (s.vm.threads.get t) s

def modifyThread (t : Nat) (f : Thread → Thread) : M σ Unit :=
  modifyVm fun vm => { vm with threads := vm.threads.modify t f }

/-- A value for a native function without upvalues. -/
def native (f : Native) : M σ Value := fun s =>
  if s.vm.generation == .v51 then
    let n := s.vm.nextIdentity
    .ok (.native f n) { s with vm := { s.vm with nextIdentity := n + 1 } }
  else .ok (.native f 0) s

/-- The address of a value's metatable. -/
def metatable? (v : Value) : M σ (Option Nat) := do
  match v with
  | .table a => return (← table a).metatable
  | .userdata a => return ((← vm).userdata.get a).metatable
  | .str _ => return (← vm).stringMeta
  | _ => return none

/-- The handler of an event in a value's metatable; nil if there is none. -/
def metamethod (v : Value) (event : String) : M σ Value := do
  match ← metatable? v with
  | some a => return (← table a).getString event
  | none => return .nil

/-- The call sites around this place in a thread, the nearest first. -/
def callers (t : Nat) : M σ (List Caller) := do
  return (← thread t).konts.filterMap fun k => match k with
    | .callReturn c => some c
    | _ => none

end M

/-- The chunk and line of a call, as messages show them; nothing for a native caller. -/
def Caller.place (g : Generation) : Caller → ByteArray
  | .lua a line _ _ => ChunkName.place g a.chunk line
  | .native _ => .empty

end LuaHost.Lua
