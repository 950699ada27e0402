import LuaHost.Session.Command
import LuaHost.Text.Path

set_option autoImplicit false

/-!
# Running a session

Carries out the commands of a session one after another and gathers what each of them showed. A
result that is not kept lets its references go at the end of its step.
-/

namespace LuaHost.Session

open Host
open Lua (Generation)

/-- What a step showed. -/
structure StepAnswer where
  result : Except Failure Answer
  reports : List (Text × Handler.Report)
  printed : Text
  calls : List (List Answer)
  written : Text
  size : Option Int

/-- The number of the runtime that a session's states share, and of the one that a configuration finds. -/
def sharedRuntime : Nat := 0

def foundRuntime : Nat := 1

def start (g : Generation) : World :=
  let runtime := Binding.Runtime.ofGeneration g "<unknown>"
  { machines := .empty, runtimes := .ofList [runtime, runtime], registries := .empty
    reporters := .empty, references := .empty, foreigns := .empty, trampolines := []
    states := .empty, names := [], stored := [], kept := [], inFlight := [], files := .empty
    debug := .off, reports := [], calls := [], written := Text.empty, journal := [] }

def stateId? (w : World) (name : Text) : Option Nat := Binding.Surroundings.lookup name w.names

def stateOf (name : Text) : H State := do State.get (← stateNamed name)

/-- Puts a value under a name in place of what was there. -/
def rebind {α : Type} (name : Text) (a : α) : List (Text × α) → List (Text × α)
  | [] => [(name, a)]
  | (n, b) :: rest => if n == name then (n, a) :: rest else (n, b) :: rebind name a rest

def unbind {α : Type} (name : Text) (xs : List (Text × α)) : List (Text × α) :=
  xs.filter fun (n, _) => n != name

/-- Closes a state that no name leads to any more. Errors on the way are dropped. -/
def forget (id : Nat) : H Unit := do
  if (← get).names.any fun (_, n) => n == id then return ()
  H.catch_ (State.close id) fun _ => return ()

/-- Gives a name to a state; the state that had it before is forgotten. -/
def bindState (name : Text) (id : Nat) : H Unit := do
  let old := stateId? (← get) name
  modify fun w => { w with names := rebind name id w.names }
  match old with
  | some o => if o != id then forget o
  | none => return ()

def setHandler (s : State) (h : Handler) : H Unit :=
  modify fun w => { w with reporters := w.reporters.put s.reporter h }

def selectorOf (s : State) : Way → H Selector
  | .path keys => return s.select (keys.headD .none) keys.tail
  | .kept name keys => do
    match Binding.Surroundings.lookup name (← get).stored with
    | some (.selector sel) => return sel.extend keys
    | _ => H.fail (.raised "KeyError" (Quoted.text name))

/-- The reference kept under a name. -/
def referenceNamed (name : Text) : H Nat := do
  match Binding.Surroundings.lookup name (← get).stored with
  | some (.value (.reference id)) => return id
  | _ => H.fail (.raised "KeyError" (Quoted.text name))

/-- Keeps something under a name and lets go of what was there. -/
def store (name : Text) (s : Stored) : H Unit := do
  let old := Binding.Surroundings.lookup name (← get).stored
  modify fun w => { w with stored := rebind name s w.stored }
  match old with
  | some o => dropAll o.references.reverse
  | none => return ()

/-- A path as it is passed on, and as messages show it. -/
def pathArgument (file : Value) (form : PathForm) : Except Failure (Value × Text) :=
  match form, file with
  | .text, v => .ok (v, v.plain)
  | .path, .text t =>
    let p := Text.tidyPath t
    .ok (.text p, p)
  | .bytes, .text t => (encodePath t).map fun b => (.bytes b, (Value.bytes b).plain)
  | _, v => .ok (v, v.plain)

def applyPatch (r : Binding.Runtime) : Patch → Binding.Runtime
  | .hideTexts => { r with hidesTexts := true }
  | .breakFiles b => { r with brokenFiles := some b }
  | .breakChunks b => { r with brokenChunks := some b }
  | .refuseStates => { r with refusesStates := true }
  | .hideRegistration => { r with registers := false }
  | .off => .ofGeneration r.generation r.origin

/-- Operations on a stack with their results, in order. -/
def apiResults (s : State) : List RoutineCall → H (List Value)
  | [] => return []
  | c :: cs => do
    let v ← match c with
      | .plain _ m => runWith s.runtime s.handle m.program
      | .pushFunction state routine => do
        let t ← stateOf state
        let f ← Registry.wrap t.registry routine
        runWith s.runtime s.handle fun _ => Binding.Api.pushCFunction (.pointer f)
        pure Value.none
    return v :: (← apiResults s cs)

/-- Operations on a stack, each recorded with its result. -/
def apiRecorded (s : State) : List RoutineCall → H Unit
  | [] => return ()
  | c :: cs => do
    match s.handle with
    | some l => c.run s.runtime l
    | none => H.fault .nullHandle
    apiRecorded s cs

/-- The machine that a state holds. -/
def machineHeld (w : World) (id : Nat) : Option Nat := (w.states.get id).machine

/-- The names of the states that hold a machine. -/
def holders (w : World) (m : Nat) : List Text :=
  (w.names.filter fun (_, id) => machineHeld w id == some m).map Prod.fst

/-- How many functions are kept for a machine. -/
def keptFor (w : World) (m : Nat) : Nat :=
  ((w.trampolines.find? fun (n, _) => n == m).map fun (_, fs) => fs.length).getD 0

/-- How a state holds its machine, and who else does. -/
def describeHandle (s : State) : H Answer := do
  let w ← get
  let same := (s.machine.map (holders w)).getD []
  let kept := (s.machine.map (keptFor w)).getD 0
  return .record
    [("null", .bool s.machine.isNone), ("owner", .bool (s.machine.isSome && s.isOwner)),
      ("same", .list ((same.mergeSort Text.le).map .text)), ("trampolines", .int kept)]

def describeReference (id : Nat) : H Answer := do
  let r ← Reference.get id
  let w ← get
  return .record [("slot", .int r.slot), ("valid", .bool (← Reference.isValid id)),
    ("repr", .text ((Value.reference id).quoted (H.slotOf w)))]

def machineOf (name : Text) : H (Option Nat) := do return (← stateOf name).machine

/-- The configuration of a new state. -/
def configOf : Option Value → Except Failure Config
  | none => .ok .default
  | some v => Config.ofValue v

def setInput (m : Nat) (input : ByteArray) : H Unit :=
  H.onMachine m (Lua.M.modifyVm fun vm => { vm with input := input.data.toList })

def makeHandler : HandlerKind → Handler
  | .print => .print
  | .unset => .print
  | .record name successor raises =>
    .record name 0 (successor.map fun n => .record n 0 none none) raises

/-- Carries out a command on the state of a name. -/
def run (name : Text) : Command → H Given
  | .new openLibs config attachment isShared => do
    let config ← H.ofExcept (configOf config)
    let origin ← match attachment with
      | .create => pure (State.Origin.create openLibs)
      | .borrow none => pure (State.Origin.attach none)
      | .borrow (some n) => do pure (State.Origin.attach (← machineOf n))
    let id ← State.create origin config (if isShared then sharedRuntime else foundRuntime)
    bindState name id
    setHandler (← State.get id) (.record name 0 none none)
    return nothing
  | .execute source => do return .value (.bool (← (← stateOf name).execute source))
  | .write file content => do
    let path ← H.ofExcept (encodePath file)
    modify fun w => { w with files := w.files.write path content }
    return nothing
  | .makeDirectory file => do
    let path ← H.ofExcept (encodePath file)
    modify fun w => { w with files := w.files.makeDirectory path }
    return nothing
  | .loadFile file form => do
    let (path, shown) ← H.ofExcept (pathArgument file form)
    return .value (.bool (← (← stateOf name).loadFile path shown))
  | .get way => do return .value (← (← selectorOf (← stateOf name) way).get)
  | .exists way => do return .value (.bool (← (← selectorOf (← stateOf name) way).exists_))
  | .ref way => do return .value (← (← selectorOf (← stateOf name) way).ref)
  | .call way args => do return .value (← (← selectorOf (← stateOf name) way).call args)
  | .set way v byItem => do
    let r ← (← selectorOf (← stateOf name) way).set v
    return .value (if byItem then .none else .bool r)
  | .select way as_ => do
    let sel ← selectorOf (← stateOf name) way
    store as_ (.selector sel)
    return .shown (.text (sel.quoted (H.slotOf (← get))))
  | .showSelector way => do
    let sel ← selectorOf (← stateOf name) way
    return .shown (.text (sel.quoted (H.slotOf (← get))))
  | .globalNames => do
    let names ← (← stateOf name).globalNames
    return .shown (.list ((names.mergeSort Text.le).map .text))
  | .size => do return .value (.int (← (← stateOf name).size))
  | .collect => do
    (← stateOf name).collect
    return nothing
  | .show => do return .shown (.text (← stateOf name).shown)
  | .interact input => do
    let s ← stateOf name
    match s.machine with
    | some m => setInput m input
    | none => pure ()
    s.interact
    return nothing
  | .handle => do return .shown (← describeHandle (← stateOf name))
  | .handler kind => do
    let s ← stateOf name
    setHandler s (makeHandler kind)
    return nothing
  | .report code message => do
    let s ← stateOf name
    H.report (← Registry.get s.registry).reporter code message none
    return nothing
  | .openLib lib loader isDirect => do
    let s ← stateOf name
    let loader ← if isDirect then do pure (State.Loader.native (← Registry.foreign s.registry loader true))
      else pure (.routine loader)
    s.openLib lib loader
    return nothing
  | .openNative lib symbol => do
    let s ← stateOf name
    match Lua.Library.ofSymbol? symbol with
    | some f => s.openLib lib (.native f)
    | none => H.fail (.raised "AttributeError" (s!"undefined symbol: {symbol}" : String))
    return nothing
  | .move target => do
    let id ← stateNamed name
    let new ← State.move id
    bindState target new
    return nothing
  | .take source => do
    State.take (← stateNamed name) (← stateNamed source)
    return .value (.bool true)
  | .close => do
    State.close (← stateNamed name)
    return nothing
  | .delete => do
    let id ← stateNamed name
    modify fun w => { w with names := unbind name w.names }
    forget id
    return nothing
  | .within source raises => do
    let id ← stateNamed name
    let r ← H.finally_ (do
      let r ← (← State.get id).execute source
      match raises with
      | some (kind, message) => raiseFailure kind message
      | none => return r) (State.close id)
    return .value (.bool r)
  | .copy => H.fail (.type "State cannot be copied; use move() to transfer ownership")
  | .referenceInfo ref => do return .shown (← describeReference (← referenceNamed ref))
  | .release ref => do
    Reference.release (← referenceNamed ref)
    return nothing
  | .drop ref => do
    let old := Binding.Surroundings.lookup ref (← get).stored
    modify fun w => { w with stored := unbind ref w.stored }
    match old with
    | some o => dropAll o.references.reverse
    | none => pure ()
    return nothing
  | .pushReference ref state => do
    let l ← match state with
      | some n => do pure ((← machineOf n).map Handle.main)
      | none => pure none
    Reference.push (← referenceNamed ref) l
    return nothing
  | .registryValue ref => do
    let r ← Reference.get (← referenceNamed ref)
    return .value (← Registry.value (← stateOf name).registry r.slot)
  | .pinTop => do return .value (.reference (← Registry.pinTop (← stateOf name).registry none))
  | .pushChunk source => do return .value (.bool (← Registry.pushChunk (← stateOf name).registry source))
  | .closeRegistry => do
    Registry.close (← stateOf name).registry
    return nothing
  | .releaseMachine => do
    match (← stateOf name).machine with
    | some m => State.releaseMachine m
    | none => pure ()
    return nothing
  | .dropKept => do
    let old := (← get).kept
    modify fun w => { w with kept := [] }
    dropAll (referencesOfAll old).reverse
    return nothing
  | .wrap r => do
    discard <| Registry.wrap (← stateOf name).registry r
    return .value (.bool true)
  | .toHost i withRegistry => do
    let s ← stateOf name
    return .value (← toHost s.runtime s.handle i (if withRegistry then some s.registry else none))
  | .pushHost v withRegistry => do
    let s ← stateOf name
    pushHost s.runtime s.handle v (if withRegistry then some s.registry else none)
    return nothing
  | .api calls => do return .value (.list (← apiResults (← stateOf name) calls))
  | .guard calls raises => do
    let s ← stateOf name
    guarded s.runtime s.handle do
      let depth ← match s.handle with
        | some _ => runWith s.runtime s.handle fun _ => Binding.Api.getTop
        | none => pure Value.none
      recordCall "depth" [depth]
      apiRecorded s calls
      match raises with
      | some (kind, message) => raiseFailure kind message
      | none => pure ()
    return nothing
  | .patch p => do
    modify fun w => { w with runtimes := w.runtimes.modify sharedRuntime fun r => applyPatch r p }
    return nothing

/-- Shows what a command gave and keeps it or lets it go. -/
def conclude (keep : Option Text) : Given → H Answer
  | .shown a => return a
  | .value v => do
    let a := v.answer (← get)
    match keep with
    | some name => store name (.value v)
    | none => dropAll v.references.reverse
    return a

def sizeOf? (w : World) (name : Text) : H (Option Int) := do
  match stateId? w name with
  | some id => return some (← (← State.get id).size)
  | none => return none

def recordedOf : List Handler.Event → List (Text × Handler.Report)
  | [] => []
  | .recorded name r :: rest => (name, r) :: recordedOf rest
  | .printed _ :: rest => recordedOf rest

def printedOf (events : List Handler.Event) : Text :=
  Text.join Text.empty (events.map fun e => match e with
    | .printed t => t ++ ("\n" : Text)
    | .recorded .. => Text.empty)

/-- The words for an error that no host operation can catch. -/
def signalFailure : Lua.Signal → Failure
  | .fault .outOfFuel => .raised "Fault" "out of steps"
  | .fault .nullHandle => .raised "Fault" "null handle"
  | .fault .closedHandle => .raised "Fault" "closed handle"
  | .fault .unprotectedError => .raised "Fault" "unprotected error"
  | .fault .badIndex => .raised "Fault" "bad index"
  | .fault .registryFull => .raised "Fault" "registry full"
  | .fault .strayFunction => .raised "Fault" "stray function"
  | .error .. => .raised "Fault" "unprotected error"
  | .unwinding .. => .raised "Fault" "unprotected error"

/-- A world with nothing shown yet. -/
def fresh (w : World) : World :=
  { w with reports := [], calls := [], written := Text.empty, inFlight := [] }

/-- Carries out the command of a step and lets its result go or keeps it. -/
def Step.act (s : Step) : H Answer := do
  let given ← run s.state s.command
  conclude s.keep given

/-- Carries out one step. -/
def step (w : World) (s : Step) : StepAnswer × World :=
  let (result, w) : Except Failure Answer × World := match s.act Env.full (fresh w) with
    | .ok a w => (.ok a, w)
    | .error (.failure f) w => (.error f, w)
    | .error (.signal e) w => (.error (signalFailure e), w)
  let (size, w) : Option Int × World := match sizeOf? w s.state Env.full w with
    | .ok n w => (n, w)
    | .error _ w => (none, w)
  (⟨result, recordedOf w.reports, printedOf w.reports, w.calls, w.written, size⟩, w)

end LuaHost.Session
