import LuaHost.Host.State

set_option autoImplicit false

/-!
# Functions of the host inside machines

What happens when a machine calls a function of the host: arguments become host values, the function
runs, its results are pushed. Errors are reported and give no results. References that nobody holds
any more give their slots back, in a fixed order.
-/

namespace LuaHost.Host

open Lua (Natives Services)

/-! ## What holds a reference -/

mutual

/-- The references in a value. -/
def Value.references : Value → List Nat
  | .reference id => [id]
  | .tuple vs => referencesOfAll vs
  | .list vs => referencesOfAll vs
  | .set vs => referencesOfAll vs
  | .dict es => referencesOfEntries es
  | .callable f => f.references
  | _ => []

def referencesOfAll : List Value → List Nat
  | [] => []
  | v :: vs => v.references ++ referencesOfAll vs

def referencesOfEntries : List (Value × Value) → List Nat
  | [] => []
  | e :: rest => referencesOfEntry e ++ referencesOfEntries rest

def referencesOfEntry : Value × Value → List Nat
  | (k, v) => k.references ++ v.references

def Callback.references : Callback → List Nat
  | .named _ a => a.references
  | .construct _ => []

def Action.references : Action → List Nat
  | .const v => v.references
  | .get path => referencesOfAll path
  | .call path => referencesOfAll path
  | .set path => referencesOfAll path
  | .execute _ source => source.references
  | _ => []

end

def Routine.references : Routine → List Nat
  | .raw _ result _ => result.references
  | .callback f => f.references

def Stored.references : Stored → List Nat
  | .value v => v.references
  | .selector s => referencesOfAll (s.name :: s.path)

namespace World

/-- The references of the functions that are kept for machines. -/
def trampolineReferences (w : World) : List Nat :=
  w.trampolines.flatMap fun (_, fs) => fs.flatMap fun f => match f with
    | .foreign id => (w.foreigns.get id).routine.references
    | _ => []

/-- Whether something holds a reference. -/
def holds (w : World) (id : Nat) : Bool :=
  w.stored.any (fun (_, s) => s.references.contains id)
    || (referencesOfAll w.kept).contains id
    || w.inFlight.any (·.contains id)
    || w.trampolineReferences.contains id

end World

/-- Gives back the slots of references that nothing holds, in the given order. An error on the way is
dropped. -/
def dropAll : List Nat → H Unit
  | [] => return ()
  | id :: rest => do
    if !(← get).holds id then H.catch_ (Reference.release id) fun _ => return ()
    dropAll rest

/-- Holds references while `act` runs. -/
def holding {α : Type} (ids : List Nat) (act : H α) : H α := do
  modify fun w => { w with inFlight := ids :: w.inFlight }
  H.finally_ act (modify fun w => { w with inFlight := w.inFlight.drop 1 })

/-! ## Showing values -/

/-- The type of the value in a slot of a machine's registry. -/
def slotType (w : World) (machine : Nat) (slot : Int) : Option Text :=
  match w.machines.get machine with
  | .open vm =>
    let v := (vm.tables.get vm.registry).get (.int (Int64.ofInt slot))
    some v.typeName
  | _ => none

def referenceType (w : World) (id : Nat) : Option Text :=
  let r := w.references.get id
  if r.holds then (w.registries.get r.registry).machine.bind fun m => slotType w m r.slot else none

mutual

/-- A value as it is shown now. -/
def Value.answer (w : World) : Value → Answer
  | .none => .none
  | .bool b => .bool b
  | .int n => .int n
  | .float x => .float x
  | .text t => .text t
  | .bytes b => .bytes b
  | .byteArray b => .bytes b
  | .tuple vs => .tuple (answerAll w vs)
  | .list vs => .list (answerAll w vs)
  | .reference id => .reference (referenceType w id)
  | v => .text (v.quoted (H.slotOf w))

def answerAll (w : World) : List Value → List Answer
  | [] => []
  | v :: vs => v.answer w :: answerAll w vs

end

/-- Records an event by name and values. -/
def recordCall (name : Text) (vs : List Value) : H Unit :=
  modify fun w => { w with calls := w.calls ++ [.text name :: answerAll w vs] }

/-! ## Running functions -/

/-- The state of a name. -/
def stateNamed (name : Text) : H Nat := do
  match (← get).names.find? fun (n, _) => n == name with
  | some (_, id) => return id
  | none => H.fail (.raised "KeyError" (Quoted.text name))

/-- The name of the state on which callbacks look values up. -/
def mainName : Text := "s"

def mainSelector (path : List Value) : H Selector := do
  let s ← State.get (← stateNamed mainName)
  return s.select (path.headD .none) path.tail

def Class.construct (c : Class) (args : List Value) : H Value := do
  let w ← get
  match c, args with
  | .text, [] => return .text Text.empty
  | .text, [v] => return .text (v.shown (H.slotOf w))
  | .text, _ => H.fail (.type "decoding str is not supported")
  | .int, [] => return .int 0
  | .int, [v] => return .int (← H.ofExcept (toInt v))
  | .int, v :: _ => H.fail (.type (s!"'{v.typeName}' object cannot be interpreted as an integer" : String))
  | .bool, [] => return .bool false
  | .bool, [v] => return .bool v.truthy
  | .bool, vs => H.fail (.type (s!"bool expected at most 1 argument, got {vs.length}" : String))

def Callback.run (f : Callback) (args : List Value) : H Value := do
  match f with
  | .construct c => c.construct args
  | .named name action => do
    recordCall name args
    match action with
    | .echo => return .tuple args
    | .reverse => return .tuple args.reverse
    | .count => return .int args.length
    | .first => return args.headD .none
    | .const v => return v
    | .nothing => return .none
    | .keep => do
      modify fun w => { w with kept := w.kept ++ args }
      return .none
    | .raise kind message =>
      let shown := if kind == "KeyError" then Quoted.text message else message
      H.fail (.raised kind shown)
    | .execute state source => do
      let s ← State.get (← stateNamed state)
      return .bool (← s.execute source)
    | .get path => do (← mainSelector path).get
    | .call path => do (← mainSelector path).call args
    | .set path => do
      match args with
      | v :: _ => return .bool (← (← mainSelector path).set v)
      | [] => H.fail (.raised "IndexError" "tuple index out of range")

/-- Carries out one operation of a routine and records it. -/
def RoutineCall.run (runtime : Nat) (l : Handle) : RoutineCall → H Unit
  | .plain name m => do
    let v ← runWith runtime (some l) m.program
    recordCall name [v]
  | .pushFunction state routine => do
    let s ← State.get (← stateNamed state)
    let f ← Registry.wrap s.registry routine
    runWith runtime (some l) fun _ => Binding.Api.pushCFunction (.pointer f)
    recordCall "pushcfunction" [.none]

def runCalls (runtime : Nat) (l : Handle) : List RoutineCall → H Unit
  | [] => return ()
  | c :: cs => do
    c.run runtime l
    runCalls runtime l cs

def raiseFailure {α : Type} (kind : String) (message : Text) : H α :=
  H.fail (.raised kind (if kind == "KeyError" then Quoted.text message else message))

/-- The number of results that a raw function gives. -/
def rawResult (v : Value) : Except Failure Int := if v.truthy then toInt v else .ok 0

/-- The number of results that a direct function gives. -/
def directResult : Value → Except Failure Int
  | .int n => .ok n
  | .bool b => .ok (if b then 1 else 0)
  | _ => .ok 0

/-- The host values of the arguments on a stack. -/
def arguments (f : Foreign) (l : Handle) : Nat → Int → H (List Value)
  | 0, _ => return []
  | n + 1, i => do
    let v ← toHost f.runtime (some l) i (some f.registry)
    return v :: (← arguments f l n (i + 1))

/-- The order in which the parts of a result are let go when `last` of them was looked at last. -/
def releaseOrder (vs : List Value) (last : Option Nat) : List Nat :=
  match last with
  | none => (referencesOfAll vs).reverse
  | some k =>
    (referencesOfAll (vs.eraseIdx k)).reverse ++ ((vs[k]?).map Value.references).getD []

/-- Pushes results one after another; gives the place of the one that failed, with its error. -/
def pushResults (f : Foreign) (l : Handle) : Nat → List Value → H (Option (Nat × Failure))
  | _, [] => return none
  | k, v :: vs => do
    let pushed ← H.catch_ (do
      pushHost f.runtime (some l) v (some f.registry)
      return none) fun e => return some e
    match pushed with
    | some e => return some (k, e)
    | none => pushResults f l (k + 1) vs

def reportFailure (f : Foreign) (e : Failure) : H Int := do
  let rt ← H.runtime f.runtime
  H.report f.reporter (codeOf rt .errRun) e.text (some e.kind)
  return 0

/-- The results that a value stands for: none, its parts, or itself. -/
def resultList : Value → List Value
  | .none => []
  | .tuple vs => vs
  | v => [v]

/-- Tells of a failure, and then lets references go even if the reporter raises. -/
def giveUp (f : Foreign) (e : Failure) (ids : List Nat) : H Unit :=
  H.finally_ (discard <| reportFailure f e) (dropAll ids)

/-- Lets the arguments go that a result does not hold, and pushes the parts of the result. -/
def giveResults (f : Foreign) (l : Handle) (argIds : List Nat) (result : Value) : H (Option (Nat × Failure)) :=
  holding (referencesOfAll (resultList result)) do
    dropAll argIds.reverse
    if result.isNone then return none
    discard <| runWith f.runtime (some l) fun _ => Binding.Api.checkStack (resultList result).length
    pushResults f l 0 (resultList result)

/-- Gives the results of a call, or tells of its error; gives the number of results. -/
def finish (f : Foreign) (l : Handle) (argIds : List Nat) : Except Failure Value → H Int
  | .error e => do
    giveUp f e argIds.reverse
    return 0
  | .ok result => do
    let results := resultList result
    match ← giveResults f l argIds result with
    | some (k, e) => do
      giveUp f e (releaseOrder results (some k))
      return 0
    | none => do
      dropAll (releaseOrder results (if results.isEmpty then none else some (results.length - 1)))
      return results.length

/-- What an operation gives, or the error that it raised. -/
def attempt {α : Type} (act : H α) : H (Except Failure α) :=
  H.catch_ (do return .ok (← act)) fun e => return .error e

/-- Calls what a function of the host does, with the arguments that are on the stack of a thread. -/
def callHost (f : Foreign) (act : List Value → H Value) (l : Handle) : H Int := do
  let count := Binding.Api.intOf (← runWith f.runtime (some l) fun _ => Binding.Api.getTop)
  let args ← arguments f l count.toNat 1
  let argIds := referencesOfAll args
  finish f l argIds (← holding argIds (attempt (act args)))

/-- Calls a callback from a machine. -/
def callCallback (f : Foreign) (callback : Callback) (l : Handle) : H Int := callHost f callback.run l

/-- Calls a function of the host from a thread; gives the number of results on its stack. -/
def Foreign.call (f : Foreign) (l : Handle) : H Int := do
  match f.routine with
  | .callback callback => callCallback f callback l
  | .raw calls result raises => do
    let body : H Int := do
      runCalls f.runtime l calls
      match raises with
      | some (kind, message) => raiseFailure kind message
      | none => H.ofExcept (if f.isDirect then directResult result else rawResult result)
    H.catch_ body fun e => if f.isDirect then return 0 else reportFailure f e

/-- How deep functions of the host and machines may call each other. -/
def depthLimit : Nat := 5000

/-- The functions that are not written in Lua, for one machine, to a depth of calls. -/
def nativesTo : Nat → Nat → Natives World
  | 0, _ => fun _ _ _ _ => throw (.fault .outOfFuel)
  | depth + 1, m => fun services f upvalues args =>
    match f with
    | .foreign id => do
      let env : Env := ⟨nativesTo depth⟩
      let t := (← Lua.M.vm).running
      let host := (← get).host
      let f := host.foreigns.get id
      if !f.machines.contains m then Lua.M.fault .strayFunction
      note (.entered m id (host.isKept m (.foreign id)))
      let n ← H.inMachine env m (f.call ⟨m, t⟩) 0
      Lua.Stack.popAll t (int32 n).toNat
    | f => Lua.Library.apply (fun w : World => w.files) services f upvalues args

def Env.full : Env := ⟨nativesTo depthLimit⟩

end LuaHost.Host
