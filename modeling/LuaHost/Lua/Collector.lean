import LuaHost.Lua.Machine

set_option autoImplicit false

/-!
# Collection

A full collection marks what can be reached from the registry, the metatable of strings, the threads
in progress and the objects whose finalizer is due. It clears dead entries of weak tables, finds the
unreachable objects with a finalizer and calls their finalizers, the latest marked object first.
-/

namespace LuaHost.Lua

/-- A collectable part of the heap. -/
inductive Node where
  | table (a : Nat)
  | closure (a : Nat)
  | userdata (a : Nat)
  | thread (a : Nat)
  | cell (a : Nat)

/-- Which nodes have been reached. -/
structure Marks where
  tables : Array Bool
  closures : Array Bool
  userdata : Array Bool
  threads : Array Bool
  cells : Array Bool

namespace Marks

def none (vm : Vm) : Marks :=
  ⟨.replicate vm.tables.size false, .replicate vm.closures.size false,
    .replicate vm.userdata.size false, .replicate vm.threads.size false,
    .replicate vm.cells.size false⟩

def has (m : Marks) : Node → Bool
  | .table a => m.tables.getD a true
  | .closure a => m.closures.getD a true
  | .userdata a => m.userdata.getD a true
  | .thread a => m.threads.getD a true
  | .cell a => m.cells.getD a true

def add (m : Marks) : Node → Marks
  | .table a => { m with tables := m.tables.setIfInBounds a true }
  | .closure a => { m with closures := m.closures.setIfInBounds a true }
  | .userdata a => { m with userdata := m.userdata.setIfInBounds a true }
  | .thread a => { m with threads := m.threads.setIfInBounds a true }
  | .cell a => { m with cells := m.cells.setIfInBounds a true }

end Marks

namespace Node

def ofValue : Value → List Node
  | .table a => [.table a]
  | .closure a => [.closure a]
  | .userdata a => [.userdata a]
  | .thread a => [.thread a]
  | _ => []

def ofValues (vs : List Value) : List Node := vs.flatMap ofValue

def ofActivation (a : Activation) : List Node :=
  (a.cells.toList.map .cell) ++ (a.locals.toList.map .cell) ++ ofValues a.varargs

def ofCaller : Caller → List Node
  | .lua a _ _ _ => ofActivation a
  | .native a => ofActivation a

def ofTarget : Target → List Node
  | .entry base key _ => ofValue base ++ ofValue key
  | _ => []

def ofKont : Kont → List Node
  | .evalRest done _ => ofValues done
  | .evalLast done _ => ofValues done
  | .binaryApply _ left _ _ _ => ofValue left
  | .indexApply v _ _ _ => ofValue v
  | .methodFound self _ _ _ _ => ofValue self
  | .arguments fn self _ _ _ => ofValue fn ++ ofValues self
  | .stores pending _ => pending.flatMap fun (t, v) => ofTarget t ++ ofValue v
  | .genericStep f s _ _ _ => ofValue f ++ ofValue s
  | .genericAgain f s c _ _ _ => ofValue f ++ ofValue s ++ ofValue c
  | .callReturn caller => ofCaller caller
  | .protectedCall saved => (saved.map ofValue).getD []
  | .nativeStart stack saved => ofValues stack.toList ++ (saved.map ofValue).getD []
  | _ => []

def ofThread (t : Thread) : List Node :=
  ofValues t.stack.toList ++ t.konts.flatMap ofKont ++ (t.handler.map ofValue).getD []

end Node

/-- Which sides of a table's entries do not keep their objects alive. -/
structure Weakness where
  keys : Bool
  values : Bool

def weakness (vm : Vm) (t : Table) : Weakness :=
  match t.metatable with
  | none => ⟨false, false⟩
  | some mt =>
    match (vm.tables.get mt).getString "__mode" with
    | .str s => ⟨s.data.contains 107, s.data.contains 118⟩
    | _ => ⟨false, false⟩

/-- What a node keeps alive at once. The values of a table with weak keys wait for their keys, except
in the oldest generation. -/
def children (vm : Vm) : Node → List Node
  | .table a =>
    let t := vm.tables.get a
    let w := weakness vm t
    let mt := (t.metatable.map fun m => [Node.table m]).getD []
    let keys := if w.keys then [] else t.present.flatMap fun e => Node.ofValue e.shown
    let values :=
      if w.values || (w.keys && vm.generation != .v51) then []
      else t.present.flatMap fun e => Node.ofValue e.value
    mt ++ keys ++ values
  | .closure a =>
    match vm.closures.get a with
    | .lua _ cells _ => cells.toList.map .cell
    | .native _ upvalues => Node.ofValues upvalues
  | .userdata a => ((vm.userdata.get a).metatable.map fun m => [Node.table m]).getD []
  | .thread a => Node.ofThread (vm.threads.get a)
  | .cell a => Node.ofValue (vm.cells.get a)

/-- Marks everything reachable from the nodes; `fuel` bounds how many nodes can become marked. -/
def markFrom (vm : Vm) : Nat → List Node → Marks → Marks
  | 0, _, m => m
  | fuel + 1, nodes, m =>
    match nodes.dropWhile m.has with
    | [] => m
    | n :: rest => markFrom vm fuel (children vm n ++ rest) (m.add n)

def nodeCount (vm : Vm) : Nat :=
  vm.tables.size + vm.closures.size + vm.userdata.size + vm.threads.size + vm.cells.size

def alive (m : Marks) (v : Value) : Bool := (Node.ofValue v).all m.has

/-- The values of weak-keyed entries whose key is alive. -/
def ephemeronValues (vm : Vm) (m : Marks) : List Node :=
  (List.range vm.tables.size).flatMap fun a =>
    if !m.has (.table a) then []
    else
      let t := vm.tables.get a
      let w := weakness vm t
      if w.keys && !w.values then
        t.present.flatMap fun e => if alive m e.shown then Node.ofValue e.value else []
      else []

/-- Marks on until no entry with a living weak key adds anything. -/
def markEphemerons (vm : Vm) : Nat → Marks → Marks
  | 0, m => m
  | fuel + 1, m =>
    let fresh := (ephemeronValues vm m).filter fun n => !m.has n
    if fresh.isEmpty then m else markEphemerons vm fuel (markFrom vm (nodeCount vm) fresh m)

def markAll (vm : Vm) (nodes : List Node) (m : Marks) : Marks :=
  markEphemerons vm (nodeCount vm) (markFrom vm (nodeCount vm) nodes m)

def Object.node : Object → Node
  | .table a => .table a
  | .userdata a => .userdata a

def Object.value : Object → Value
  | .table a => .table a
  | .userdata a => .userdata a

/-- The threads whose work is in progress: they are running, or wait for one that is. -/
def activeThreads (vm : Vm) : List Node :=
  (List.range vm.threads.size).filterMap fun t =>
    match (vm.threads.get t).status with
    | .running | .normal => some (.thread t)
    | _ => if t == 0 then some (.thread t) else none

def roots (vm : Vm) : List Node :=
  [.table vm.registry, .table vm.globals] ++ activeThreads vm
    ++ (vm.stringMeta.map fun m => [Node.table m]).getD [] ++ vm.due.map Object.node

/-- Drops entries of weak tables whose weak side is dead. -/
def clearWeak (vm : Vm) (m : Marks) (values keys : Bool) : Vm :=
  let clear (t : Table) : Table :=
    let w := weakness vm t
    if (w.values && values) || (w.keys && keys) then
      { t with
        entries := t.entries.map fun e =>
          if (w.values && values && !alive m e.value) || (w.keys && keys && !alive m e.shown) then
            { e with value := .nil }
          else e }
    else t
  { vm with tables := vm.tables.map clear }

/-- Marks, clears weak tables and moves unreachable objects with a finalizer to those due. -/
def Vm.sweep (vm : Vm) : Vm :=
  let m := markAll vm (roots vm) (.none vm)
  let vm := clearWeak vm m true false
  let (kept, dead) := vm.finalizable.partition fun o => m.has o.node
  let vm := { vm with finalizable := kept, due := vm.due ++ dead }
  let m := markAll vm (dead.map Object.node) m
  clearWeak vm m true true

namespace M

variable {σ : Type}

/-- The text of an error in a finalizer. -/
def finalizerMessage : Value → ByteArray
  | .str s => bytesOf "error in __gc metamethod (" ++ s ++ bytesOf ")"
  | _ => bytesOf "error in __gc metamethod (no message)"

/-- Calls the finalizer of one object. A failing one raises an error of its own kind, in the newest
generation none; when the machine closes, errors are ignored. -/
def finalize (call : Value → List Value → M σ (List Value)) (closing : Bool) (o : Object) :
    M σ Unit := do
  let g ← generation
  let mm ← metamethod o.value "__gc"
  if !isFunction mm then return ()
  fun s =>
    match call mm [o.value] s with
    | .ok _ s => .ok () s
    | .error (.fault f) s => .error (.fault f) s
    | .error (.error status v) s => failed g status v s
    | .error (.unwinding status v) s => failed g status v s
where
  failed (g : Generation) (status : Status) (v : Value) : M σ Unit := do
    if closing then return ()
    match g with
    | .v54 => return ()
    | .v51 => throw (.unwinding status v)
    | _ =>
      if status == .errRun then throw (.unwinding .errGc (.str (finalizerMessage v)))
      else throw (.unwinding status v)

/-- Calls the finalizers that are due, at most as many as the count says. -/
def finalizeDue (call : Value → List Value → M σ (List Value)) (closing : Bool) : Nat → M σ Unit
  | 0 => return ()
  | n + 1 => do
    match (← vm).due with
    | [] => return ()
    | o :: rest =>
      modifyVm fun vm => { vm with due := rest }
      finalize call closing o
      finalizeDue call closing n

/-- A full collection. -/
def collect (call : Value → List Value → M σ (List Value)) : M σ Unit := do
  modifyVm Vm.sweep
  finalizeDue call false (← vm).due.length

/-- Calls every finalizer there is, as the machine closes. -/
def finalizeAll (call : Value → List Value → M σ (List Value)) : M σ Unit := do
  modifyVm fun vm => { vm with due := vm.due ++ vm.finalizable, finalizable := [] }
  finalizeDue call true (← vm).due.length

end M
end LuaHost.Lua
