import LuaHost.Host.World

set_option autoImplicit false

/-!
# Calls of the interface, carried out

Each call is carried out on the stack of a thread. Numbers are cut to the width that the interface
has for them, and names and sources end at their first NUL.
-/

namespace LuaHost.Host

open Lua (M Stack.push Stack.value?)
open Binding (Call Program Runtime)

/-- How many steps a machine may make in one go. -/
def stepLimit : Nat := 400000000

def int32 (n : Int) : Int := Int.bmod n 0x100000000

def int64 (n : Int) : Int := Int.bmod n 0x10000000000000000

/-- The double that a number is passed as. -/
def doubleArgument : Value → Except Failure Float
  | .float x => .ok x
  | .int n => floatOfInt n
  | .bool b => .ok (if b then 1.0 else 0.0)
  | _ => .error (.raised "ArgumentError" "argument 2: TypeError: wrong type")

/-- The integer that a number is passed as. -/
def integerArgument : Value → Except Failure Int
  | .int n => .ok (int64 n)
  | .bool b => .ok (if b then 1 else 0)
  | _ => .error (.raised "ArgumentError" "argument 2: TypeError: wrong type")

def functionArgument : Value → Except Failure Lua.Native
  | .pointer f => .ok f
  | _ => .error (.raised "ArgumentError" "argument 2: TypeError: expected CFunctionType instance instead of other type")

/-- How functions run for a machine. -/
def runner (env : Env) (m : Nat) : Lua.Machine → M World Lua.Outcome :=
  Lua.Machine.run (env.natives m) stepLimit

def services (env : Env) (m : Nat) : Lua.Services World := Lua.Machine.services (runner env m)

def answerInt (act : M World Int) : M World Value := do return .int (← act)

def answerBool (act : M World Bool) : M World Value := do return .int (if ← act then 1 else 0)

def quiet (act : M World Unit) : M World Value := do
  act
  return .none

/-- Writes down what is done to a machine. -/
def note (e : Event) : M World Unit := fun s => .ok () { s with host := { s.host with journal := e :: s.host.journal } }

/-- The value of a function, which the machine has been given from then on. -/
def given (m : Nat) (f : Lua.Native) : M World Lua.Value := do
  modify fun s => { s with host := s.host.give m f }
  M.native f

/-- A call on a thread, with arguments that have been converted. -/
def perform (env : Env) (h : Handle) (c : Call) : M World Value := do
  let t := h.thread
  let svc := services env h.machine
  let g ← M.generation
  let code (s : M World Lua.Status) : M World Value := do return .int ((← s).code g)
  match c with
  | .newState => return .none
  | .close => do
    note (.closed h.machine)
    Lua.Stack.onThread 0 (M.finalizeAll svc.callPlain)
    return .none
  | .openLibs => quiet Lua.Library.openAll
  | .getTop => answerInt (do return (← Lua.Stack.size t))
  | .setTop i => quiet (Lua.Stack.setTop t i (int32 i))
  | .checkStack n => answerBool (Lua.Stack.checkRoom t n (int32 n))
  | .pushValue i => quiet (do Lua.Stack.push t (← Lua.Stack.value t (int32 i)))
  | .type i => answerInt (Lua.Stack.typeCode t (int32 i))
  | .typeName tag =>
    let known : List Lua.TypeTag := [.nil, .boolean, .lightUserdata, .number, .string, .table, .function,
      .userdata, .thread]
    match known.find? fun k => k.code == tag with
    | some k => return .bytes k.name.toUTF8
    | none => return .bytes "no value".toUTF8
  | .toLString i =>
    match ← Lua.Stack.text? t (int32 i) with
    | some s => return .bytes s
    | none => return .none
  | .toBoolean i => answerBool (do return (← Lua.Stack.value t (int32 i)).truthy)
  | .next i => answerBool (Lua.Stack.next t (int32 i))
  | .pushNil => quiet (Lua.Stack.push t .nil)
  | .pushNumber x =>
    match doubleArgument x with
    | .ok x => quiet (Lua.Stack.push t (.float x))
    | .error _ => return .none
  | .pushInteger n =>
    match integerArgument n with
    | .ok n => quiet (Lua.Stack.push t (Lua.Value.ofInt g n))
    | .error _ => return .none
  | .pushLString s => quiet (Lua.Stack.push t (.str s))
  | .pushBoolean b => quiet (Lua.Stack.push t (.bool b))
  | .pushCClosure f =>
    match functionArgument f with
    | .ok f => quiet (do Lua.Stack.push t (← given h.machine f))
    | .error _ => return .none
  | .createTable _ _ => quiet (do Lua.Stack.push t (.table (← M.newTable)))
  | .setField i k => quiet (Lua.Stack.setEntry svc t (int32 i) (.str (upToNul k)))
  | .setTable i => quiet (do
      let v ← Lua.Stack.value t (-1)
      let k ← Lua.Stack.value t (-2)
      let obj ← Lua.Stack.value t (int32 i)
      Lua.Stack.onThread t (M.setEntry svc obj k v)
      discard <| Lua.Stack.popAll t 2)
  | .loadString s => code (Lua.Stack.loadText t (upToNul s))
  | .ref _ => answerInt (do
      let v ← Lua.Stack.value t (-1)
      let slot ← Lua.Stack.pin t
      note (.pinned h.machine v slot)
      return slot)
  | .unref _ slot => quiet (do
      Lua.Stack.unpin (int32 slot)
      note (.unpinned h.machine (int32 slot)))
  | .getField i k => quiet (Lua.Stack.getEntry svc t (int32 i) (.str (upToNul k)))
  | .getTable i => quiet (do
      let obj ← Lua.Stack.value t (int32 i)
      let k ← Lua.Stack.pop t
      Lua.Stack.push t (← Lua.Stack.onThread t (M.getEntry svc obj k)))
  | .rawGetI i n => quiet (do
      let a ← Lua.Stack.tableAt t (int32 i)
      let n := if g.since .v53 then int64 n else int32 n
      Lua.Stack.push t ((← M.table a).get (.int (Int64.ofInt n))))
  | .toNumber i => do return .float (← Lua.Stack.number t (int32 i))
  | .pcall n k e => do
    let handler ← if e == 0 then pure none else Lua.Stack.value? t (int32 e)
    let results := if k < 0 then none else some k.toNat
    code (Lua.Stack.protectedCall (runner env h.machine) t n.toNat results handler)
  | .loadFile p =>
    code (Lua.Stack.load t (Lua.Base.loadPath (fun w : World => w.files) (upToNul p)))
  | .gc => do
    Lua.Stack.onThread t (M.collect svc.callPlain)
    note (.collected h.machine)
    return .int 0
  | .getGlobal n => quiet (do
      let globals ← Lua.Stack.globals
      Lua.Stack.push t (← Lua.Stack.onThread t (M.getEntry svc globals (.str (upToNul n)))))
  | .setGlobal n => quiet (do
      let globals ← Lua.Stack.globals
      let v ← Lua.Stack.value t (-1)
      Lua.Stack.onThread t (M.setEntry svc globals (.str (upToNul n)) v)
      discard <| Lua.Stack.pop t)
  | .requireF n f isGlobal =>
    match functionArgument f with
    | .ok f => quiet (do Lua.Stack.require svc t (upToNul n) (← given h.machine f) isGlobal)
    | .error _ => return .none
  | .isInteger i => answerBool (Lua.Stack.isInteger t (int32 i))
  | .toInteger i => answerInt (Lua.Stack.integer t (int32 i))

/-- The arguments that may fail to be converted. -/
def checkArguments : Call → Except Failure Unit
  | .pushNumber x => (doubleArgument x).map fun _ => ()
  | .pushInteger n => (integerArgument n).map fun _ => ()
  | .pushCClosure f => (functionArgument f).map fun _ => ()
  | .requireF _ f _ => (functionArgument f).map fun _ => ()
  | _ => .ok ()

/-- Makes a new machine of a generation. -/
def createMachine (g : Lua.Generation) : H Value := fun _ w =>
  let m := w.machines.size
  .ok (.int m)
    { w with machines := w.machines.add (.open (Lua.Stack.newMachine g)), journal := .created m :: w.journal }

/-- An error that no protected call awaits ends everything. -/
def unprotected (act : M World Value) : M World Value := fun s =>
  let inside := s.vm.natives != 0
  match act s with
  | .ok v s => .ok v s
  | .error (.fault f) s => .error (.fault f) s
  | .error e s => if inside then .error e s else .error (.fault .unprotectedError) s

/-- Carries out one call. -/
def execute (r : Runtime) (l : Option Handle) (c : Call) : H Value := do
  match c, l with
  | .newState, _ => createMachine r.generation
  | _, none => H.fault .nullHandle
  | c, some h => do
    H.ofExcept (checkArguments c)
    let env ← read
    let v ← H.onMachine h.machine (unprotected (perform env h c))
    match c with
    | .close => modify fun w => { w with machines := w.machines.put h.machine .closed }
    | _ => pure ()
    return v

/-- Runs a program on a thread. -/
def runProgram {α : Type} (r : Runtime) (l : Option Handle) : Program α → H α
  | .done a => return a
  | .fail f => H.fail f
  | .ask c next => do runProgram r l (next (← execute r l c))

theorem runProgram_bind {α β : Type} (r : Runtime) (l : Option Handle) (p : Program α) (next : α → Program β) :
    runProgram r l (p >>= next) = runProgram r l p >>= fun a => runProgram r l (next a) := by
  induction p with
  | done a => exact (pure_bind (m := H) a fun a => runProgram r l (next a)).symm
  | fail f => rfl
  | ask c rest ih =>
    change (execute r l c >>= fun v => runProgram r l (rest v >>= next)) = _
    simp only [ih, runProgram, bind_assoc]

/-- Runs a program with the runtime of that number. -/
def runWith {α : Type} (runtime : Nat) (l : Option Handle) (p : Runtime → Program α) : H α := do
  let r ← H.runtime runtime
  runProgram r l (p r)

end LuaHost.Host
