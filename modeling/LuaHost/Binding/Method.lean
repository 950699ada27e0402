import LuaHost.Binding.Program

set_option autoImplicit false

/-!
# The methods of a runtime

The operations of a runtime as a host names them, with their arguments and the program that each
stands for.
-/

namespace LuaHost.Binding

open Host (Value)

/-- One operation of a runtime. -/
inductive Method where
  | newState
  | close
  | openLibs
  | collect
  | getTop
  | setTop (i : Int)
  | pop (n : Int)
  | checkStack (n : Int)
  | pushValue (i : Int)
  | type (i : Int)
  | typeName (tag : Int)
  | toText (i : Int)
  | toNumber (i : Int)
  | isInteger (i : Int)
  | toInteger (i : Int)
  | toBoolean (i : Int)
  | next (i : Int)
  | pushNil
  | pushNumber (x : Value)
  | pushInteger (n : Value)
  | pushBoolean (v : Value)
  | pushString (v : Value)
  | pushCFunction (f : Value)
  | createTable (list record : Int)
  | pushGlobals
  | getGlobal (name : Value)
  | setGlobal (name : Value)
  | getField (i : Int) (key : Value)
  | setField (i : Int) (key : Value)
  | getTable (i : Int)
  | setTable (i : Int)
  | rawGet (i n : Int)
  | loadFile (path : Value)
  | loadString (source : Value)
  | pcall (arguments results handler : Int)
  | doString (source : Value)
  | requireF (name opening : Value) (isGlobal : Bool)
  | ref
  | unref (slot : Int)
  | pushRef (slot : Int)

namespace Method

def ofUnit (p : Program Unit) : Program Value := do
  p
  return .none

def ofBool (p : Program Bool) : Program Value := do return .bool (← p)

def ofText (p : Program (Option Text)) : Program Value := do
  match ← p with
  | some t => return .text t
  | none => return .none

/-- The program of an operation. -/
def program (r : Runtime) : Method → Program Value
  | newState => Api.newState r
  | close => ofUnit Api.close
  | openLibs => ofUnit Api.openLibs
  | collect => Api.collect
  | getTop => Api.getTop
  | setTop i => ofUnit (Api.setTop i)
  | pop n => ofUnit (Api.pop n)
  | checkStack n => ofBool (Api.checkStack n)
  | pushValue i => ofUnit (Api.pushValue i)
  | type i => Api.type i
  | typeName t => do return .text (← Api.typeName t)
  | toText i => ofText (Api.toText r i)
  | toNumber i => Api.toNumber i
  | isInteger i => ofBool (Api.isInteger r i)
  | toInteger i => Api.toInteger r i
  | toBoolean i => ofBool (Api.toBoolean i)
  | next i => Api.next i
  | pushNil => ofUnit Api.pushNil
  | pushNumber x => ofUnit (Api.pushNumber x)
  | pushInteger n => ofUnit (Api.pushInteger n)
  | pushBoolean v => ofUnit (Api.pushBoolean v)
  | pushString v => ofUnit (Api.pushString v)
  | pushCFunction f => ofUnit (Api.pushCFunction f)
  | createTable l n => ofUnit (Api.createTable l n)
  | pushGlobals => ofUnit (Api.pushGlobals r)
  | getGlobal n => Api.getGlobal r n
  | setGlobal n => ofUnit (Api.setGlobal r n)
  | getField i k => Api.getField i k
  | setField i k => ofUnit (Api.setField i k)
  | getTable i => Api.getTable i
  | setTable i => ofUnit (Api.setTable i)
  | rawGet i n => Api.rawGet i n
  | loadFile p => Api.loadFile r p
  | loadString s => Api.loadString r s
  | pcall n k h => Api.pcall n k h
  | doString s => Api.doString r s
  | requireF n f g => ofUnit (Api.requireF r n f g)
  | ref => Api.ref r
  | unref n => ofUnit (Api.unref r n)
  | pushRef n => Api.pushRef r n

end Method

/-- Prepared answers: for each function those to its successive calls. -/
structure Script where
  answers : List (String × List Value)

namespace Script

/-- The answer to the next call of a function; without a prepared one, zero or nothing. -/
def take (s : Script) (name : String) (result : CType) : Value × Script :=
  let rec go : List (String × List Value) → Option (Value × List (String × List Value))
    | [] => none
    | (n, vs) :: rest =>
      if n == name then
        match vs with
        | v :: vs => some (v, (n, vs) :: rest)
        | [] => none
      else (go rest).map fun (v, rest) => (v, (n, vs) :: rest)
  match go s.answers with
  | some (v, answers) => (v, ⟨answers⟩)
  | none => (if result == .void then .none else .int 0, s)

end Script

/-- A call as it is written down. -/
structure Recorded where
  name : String
  arguments : List Argument

/-- Runs a program against prepared answers and writes its calls down. -/
def Program.rehearse {α : Type} (r : Runtime) (machine : Value) : Program α → Script →
    Except Host.Failure α × List Recorded
  | .done a, _ => (.ok a, [])
  | .fail f, _ => (.error f, [])
  | .ask c next, s =>
    let symbol := c.symbol r.generation
    let handle : List Argument := match c with
      | .newState => []
      | _ => [.value machine]
    let (v, s) := s.take symbol.name (symbol.signature r.generation).result
    let (result, calls) := (next v).rehearse r machine s
    (result, ⟨symbol.name, handle ++ c.arguments r.generation⟩ :: calls)

end LuaHost.Binding
