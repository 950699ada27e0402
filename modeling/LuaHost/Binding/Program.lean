import LuaHost.Binding.Call

set_option autoImplicit false

/-!
# Programs of calls

A program makes calls of the interface one after another, each of which may depend on the answers to
those before. It can be run by whatever answers calls: a machine, or a script of prepared answers.
-/

namespace LuaHost.Binding

open Lua (Generation Status)
open Host (Value Failure)

inductive Program (α : Type) where
  | done (a : α)
  | fail (f : Failure)
  | ask (c : Call) (next : Value → Program α)

namespace Program

variable {α β : Type}

def bind (p : Program α) (f : α → Program β) : Program β :=
  match p with
  | done a => f a
  | fail e => fail e
  | ask c next => ask c fun v => (next v).bind f

instance : Monad Program where
  pure := done
  bind := bind

/-- One call and its answer. -/
def call (c : Call) : Program Value := ask c done

def ofExcept (r : Except Failure α) : Program α :=
  match r with
  | .ok a => done a
  | .error e => fail e

theorem done_bind (a : α) (f : α → Program β) : (done a).bind f = f a := rfl

theorem bind_done (p : Program α) : p.bind done = p := by
  induction p with
  | done a => rfl
  | fail e => rfl
  | ask c next ih => simp [bind, ih]

theorem bind_assoc {γ : Type} (p : Program α) (f : α → Program β) (g : β → Program γ) :
    (p.bind f).bind g = p.bind fun a => (f a).bind g := by
  induction p with
  | done a => rfl
  | fail e => rfl
  | ask c next ih => simp [bind, ih]

/-- Every call that a program can make satisfies `P`. -/
def All (P : Call → Prop) : Program α → Prop
  | done _ => True
  | fail _ => True
  | ask c next => P c ∧ ∀ v, (next v).All P

theorem All.bind {P : Call → Prop} {p : Program α} {f : α → Program β} (h : p.All P) (k : ∀ a, (f a).All P) :
    (p >>= f).All P := by
  induction p with
  | done a => exact k a
  | fail e => exact trivial
  | ask c next ih => exact ⟨h.1, fun v => ih v (h.2 v)⟩

theorem All.convert {P : Call → Prop} {r : Except Failure α} {f : α → Program β} (h : ∀ a, (f a).All P) :
    (ofExcept r >>= f).All P := by
  cases r with
  | ok a => exact h a
  | error e => exact trivial

end Program

/-- A failure of loading that a runtime is made to show: the message that it leaves, and its status. -/
structure Breakage where
  status : Int
  message : Option Text

/-- A runtime: its generation, where it came from, and the failures it is made to show. -/
structure Runtime where
  generation : Generation
  origin : Text
  /-- whether modules are registered by one call of the interface -/
  registers : Bool
  hidesTexts : Bool
  refusesStates : Bool
  brokenFiles : Option Breakage
  brokenChunks : Option Breakage
deriving Inhabited

namespace Runtime

def ofGeneration (g : Generation) (origin : Text) : Runtime :=
  ⟨g, origin, g.since .v52, false, false, none, none⟩

/-- A runtime as messages show it. -/
def shown (r : Runtime) : Text :=
  (s!"LuaLibrary(generation={r.generation.number}, origin=" : Text) ++ Quoted.text r.origin ++ (")" : Text)

/-- The number by which an outcome is known. -/
def code (r : Runtime) (s : Status) : Int := s.code r.generation

/-- The name of an outcome given by its number. -/
def statusName (g : Generation) (n : Int) : Text :=
  let named : List (Status × String) :=
    [(.ok, "ok"), (.yield, "yield"), (.errRun, "runtime error"), (.errSyntax, "syntax error"),
      (.errMem, "memory error"), (.errErr, "error handler error"), (.errFile, "file error"),
      (.errGc, "gc metamethod error")]
  match named.find? fun (s, _) => s.code? g == some n with
  | some (_, name) => name
  | none => s!"status {n}"

/-- The index of the registry. -/
def registryIndex (r : Runtime) : Int := if r.generation == .v51 then -10000 else -1001000

/-- The index of the globals, in the generation that has one. -/
def globalsIndex : Int := -10002

/-- The number of the globals in the registry, in the other generations. -/
def globalsSlot : Int := 2

end Runtime

/-- A count of results that keeps all of them. -/
def allResults : Int := -1

/-- The number that a released reference carries. -/
def noReference : Int := -2

/-- The number of a reference to nil. -/
def nilReference : Int := -1

namespace Api

open Program

def intOf : Value → Int
  | .int n => n
  | .bool b => if b then 1 else 0
  | _ => 0

def newState (r : Runtime) : Program Value :=
  if r.refusesStates then done .none else call .newState

def close : Program Unit := do discard <| call .close

def openLibs : Program Unit := do discard <| call .openLibs

def collect : Program Value := call .gc

def getTop : Program Value := call .getTop

def setTop (i : Int) : Program Unit := do discard <| call (.setTop i)

def pop (n : Int) : Program Unit := setTop (-n - 1)

def checkStack (n : Int) : Program Bool := do return (← call (.checkStack n)).truthy

def pushValue (i : Int) : Program Unit := do discard <| call (.pushValue i)

def type (i : Int) : Program Value := call (.type i)

/-- The name of a type given by its number. -/
def typeName (tag : Int) : Program Text := do
  match ← call (.typeName tag) with
  | .bytes b =>
    if b.size == 0 then return "no value"
    else match b.data.toList.findIdx? (0x80 ≤ ·) with
      | none => return ⟨b.data.toList.map UInt8.toUInt32⟩
      | some _ => fail (.raised "UnicodeDecodeError" "'ascii' codec cannot decode")
  | _ => return "no value"

/-- The text of a string or number, bytes that are no text replaced. -/
def toText (r : Runtime) (i : Int) : Program (Option Text) :=
  if r.hidesTexts then done none
  else do
    match ← call (.toLString i) with
    | .bytes b => return some (Text.ofUtf8 b)
    | _ => return none

def toNumber (i : Int) : Program Value := call (.toNumber i)

def isInteger (r : Runtime) (i : Int) : Program Bool :=
  if r.generation.hasIntegers then do return (← call (.isInteger i)).truthy else done false

/-- The value as an integer; the oldest generation has only the number to cut. -/
def toInteger (r : Runtime) (i : Int) : Program Value := do
  if r.generation == .v51 then
    return .int (← ofExcept (Host.toInt (← call (.toNumber i))))
  else call (.toInteger i)

def toBoolean (i : Int) : Program Bool := do return (← call (.toBoolean i)).truthy

def next (i : Int) : Program Value := call (.next i)

def pushNil : Program Unit := do discard <| call .pushNil

def pushNumber (x : Value) : Program Unit := do discard <| call (.pushNumber x)

def pushInteger (n : Value) : Program Unit := do discard <| call (.pushInteger n)

def pushBoolean (v : Value) : Program Unit := do discard <| call (.pushBoolean v.truthy)

def pushString (v : Value) : Program Unit := do
  let data ← ofExcept (Host.sourceBytes v)
  discard <| call (.pushLString data)

def pushCFunction (f : Value) : Program Unit := do discard <| call (.pushCClosure f)

def createTable (list record : Int) : Program Unit := do discard <| call (.createTable list record)

def pushGlobals (r : Runtime) : Program Unit := do
  if r.generation == .v51 then discard <| call (.pushValue Runtime.globalsIndex)
  else discard <| call (.rawGetI r.registryIndex Runtime.globalsSlot)

/-- The bytes of a name; only texts are names. -/
def nameBytes (v : Value) : Program ByteArray :=
  match v with
  | .text t => ofExcept (Host.encode t)
  | v => fail (.raised "AttributeError" (s!"'{v.typeName}' object has no attribute 'encode'" : String))

def getGlobal (r : Runtime) (name : Value) : Program Value := do
  let n ← nameBytes name
  if r.generation == .v51 then discard <| call (.getField Runtime.globalsIndex n)
  else discard <| call (.getGlobal n)
  type (-1)

def setGlobal (r : Runtime) (name : Value) : Program Unit := do
  let n ← nameBytes name
  if r.generation == .v51 then discard <| call (.setField Runtime.globalsIndex n)
  else discard <| call (.setGlobal n)

def getField (i : Int) (key : Value) : Program Value := do
  discard <| call (.getField i (← nameBytes key))
  type (-1)

def setField (i : Int) (key : Value) : Program Unit := do
  discard <| call (.setField i (← nameBytes key))

def getTable (i : Int) : Program Value := do
  discard <| call (.getTable i)
  type (-1)

def setTable (i : Int) : Program Unit := do discard <| call (.setTable i)

def rawGet (i n : Int) : Program Value := do
  discard <| call (.rawGetI i n)
  type (-1)

/-- Leaves the message of a breakage and gives its status. -/
def break_ (b : Breakage) : Program Value := do
  match b.message with
  | some m => pushString (.text m)
  | none => pushNil
  return .int b.status

def loadFile (r : Runtime) (path : Value) : Program Value :=
  match r.brokenFiles with
  | some b => break_ b
  | none => do
    let p ← ofExcept (Host.pathBytes path)
    call (.loadFile p)

def loadString (r : Runtime) (source : Value) : Program Value :=
  match r.brokenChunks with
  | some b => break_ b
  | none => do
    let s ← ofExcept (Host.sourceBytes source)
    call (.loadString s)

def pcall (arguments results handler : Int) : Program Value :=
  call (.pcall arguments results handler)

def doString (r : Runtime) (source : Value) : Program Value := do
  let status ← loadString r source
  if intOf status != r.code .ok then return status
  pcall 0 allResults 0

/-- Opens a module and registers it; the oldest generation has no call for this. -/
def requireF (r : Runtime) (name : Value) (opening : Value) (isGlobal : Bool) : Program Unit := do
  let n ← nameBytes name
  if r.generation == .v51 then fail (.type "'NoneType' object is not callable")
  else discard <| call (.requireF n opening isGlobal)

def ref (r : Runtime) : Program Value := call (.ref r.registryIndex)

def unref (r : Runtime) (slot : Int) : Program Unit := do discard <| call (.unref r.registryIndex slot)

def pushRef (r : Runtime) (slot : Int) : Program Value := rawGet r.registryIndex slot

end Api
end LuaHost.Binding
