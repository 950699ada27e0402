import LuaHost.Host.Registry
import LuaHost.Host.Display

set_option autoImplicit false

/-!
# Selectors

A selector leads from the globals through a chain of keys. Every step of the way is a protected call
of a small chunk, because indexing may run metamethods; a value that is no table ends the way with
nil. Each operation leaves the stack as it found it.
-/

namespace LuaHost.Host.Selector

open Binding (Api.intOf Api.type Api.pcall Api.checkStack Api.pushValue)

def indexChunk : Text := "local t, k = ...\nreturn t[k]"

def assignChunk : Text := "local t, k, v = ...\nt[k] = v"

def handle (s : Selector) : Option Handle := s.machine.map Handle.main

/-- The selector one key further. -/
def extend (s : Selector) (keys : List Value) : Selector := { s with path := s.path ++ keys }

def chain (s : Selector) : List Value := s.name :: s.path

/-- The selector as messages show it. -/
def quoted (slot : Nat → Int) (s : Selector) : Text :=
  let keys := s.path.map fun k => ("[" : Text) ++ k.quoted slot ++ ("]" : Text)
  ("Selector(" : Text) ++ s.name.quoted slot ++ Text.join Text.empty keys ++ (")" : Text)

/-- The complaint about a name to which no text can be appended. -/
def joinFailure (name : Value) : Failure :=
  match name with
  | .bytes _ => .type "can't concat str to bytes"
  | .byteArray _ => .type "can't concat str to bytearray"
  | .tuple _ => .type "can only concatenate tuple (not \"str\") to tuple"
  | v => .type (s!"unsupported operand type(s) for +=: '{v.typeName}' and 'str'" : String)

/-- The full way as text. -/
def describe (slot : Nat → Int) (s : Selector) : Except Failure Text :=
  let part (k : Value) : Text := match k with
    | .text t => ("." : Text) ++ t
    | k => ("[" : Text) ++ k.quoted slot ++ ("]" : Text)
  match s.name, s.path with
  | .text t, path => .ok (t ++ Text.join Text.empty (path.map part))
  | v, [] => .ok (v.shown slot)
  | v, _ => .error (joinFailure v)

/-- Looks up one key in the table on top of the stack. -/
def pushEntry (s : Selector) (key : Value) : H (Option Int) := do
  let l := s.handle
  let run {α : Type} (p : Binding.Program α) : H α := runWith s.runtime l fun _ => p
  discard <| run (Api.checkStack 4)
  if !(← Registry.pushChunk s.registry indexChunk) then return none
  run (Api.pushValue (-2))
  pushHost s.runtime l key (some s.registry)
  let status := Api.intOf (← run (Api.pcall 2 1 0))
  let rt ← H.runtime s.runtime
  if status != codeOf rt .ok then
    reportTop s.reporter status s.runtime l
    return none
  return some (Api.intOf (← run (Api.type (-1))))

/-- Follows keys from the value on top of the stack, whose type is known. -/
def pushKeys (s : Selector) (tag : Int) : List Value → H (Option Int)
  | [] => return some tag
  | key :: rest => do
    if tag != 5 then
      runWith s.runtime s.handle fun _ => Binding.Api.pushNil
      return some 0
    match ← s.pushEntry key with
    | none => return none
    | some tag => s.pushKeys tag rest

/-- Pushes the value reached through keys and gives its type; nothing if a lookup failed, which has
then been reported. -/
def push (s : Selector) (keys : List Value) : H (Option Int) := do
  runWith s.runtime s.handle Binding.Api.pushGlobals
  s.pushKeys 5 keys

def guard {α : Type} (s : Selector) (act : H α) : H α := guarded s.runtime s.handle act

/-- Whether the value is there. -/
def exists_ (s : Selector) : H Bool := do
  if s.machine.isNone then return false
  s.guard do
    match ← s.push s.chain with
    | none => return false
    | some tag => return tag != 0

def get (s : Selector) : H Value := do
  if s.machine.isNone then return .none
  s.guard do
    match ← s.push s.chain with
    | none => return .none
    | some _ => toHost s.runtime s.handle (-1) (some s.registry)

/-- Pins the value. -/
def ref (s : Selector) : H Value := do
  if s.machine.isNone then return .none
  s.guard do
    match ← s.push s.chain with
    | none => return .none
    | some _ => return .reference (← Registry.pinTop s.registry none)

/-- Assigns the value. -/
def set (s : Selector) (v : Value) : H Bool := do
  if s.machine.isNone then return false
  let l := s.handle
  let run {α : Type} (p : Binding.Program α) : H α := runWith s.runtime l fun _ => p
  let rt ← H.runtime s.runtime
  s.guard do
    match ← s.push s.chain.dropLast with
    | none => return false
    | some tag =>
      if tag != 5 then
        let w ← MonadState.get
        let way ← H.ofExcept (s.describe (H.slotOf w))
        let kind ← run (Binding.Api.typeName tag)
        H.report s.reporter (codeOf rt .errRun)
          (("cannot assign " : Text) ++ way ++ (": parent is a " : Text) ++ kind ++ (" value" : Text)) none
        return false
      discard <| run (Api.checkStack 4)
      if !(← Registry.pushChunk s.registry assignChunk) then return false
      run (Api.pushValue (-2))
      pushHost s.runtime l (s.chain.getLastD .none) (some s.registry)
      pushHost s.runtime l v (some s.registry)
      let status := Api.intOf (← run (Api.pcall 3 0 0))
      if status != codeOf rt .ok then
        reportTop s.reporter status s.runtime l
        return false
      return true

/-- Pushes values one after another. -/
def pushAll (s : Selector) : List Value → H Unit
  | [] => return ()
  | v :: vs => do
    pushHost s.runtime s.handle v (some s.registry)
    s.pushAll vs

/-- The host values from an index on. -/
def results (s : Selector) : Nat → Int → H (List Value)
  | 0, _ => return []
  | n + 1, i => do
    let v ← toHost s.runtime s.handle i (some s.registry)
    return v :: (← s.results n (i + 1))

/-- No result stands for none, one for itself and several for a tuple. -/
def gather : List Value → Value
  | [] => .none
  | [v] => v
  | vs => .tuple vs

/-- Calls the value. -/
def call (s : Selector) (args : List Value) : H Value := do
  if s.machine.isNone then return .none
  let l := s.handle
  let run {α : Type} (p : Binding.Program α) : H α := runWith s.runtime l fun _ => p
  let rt ← H.runtime s.runtime
  s.guard do
    match ← s.push s.chain with
    | none => return .none
    | some _ =>
      discard <| run (Api.checkStack (args.length + 1))
      let base := Api.intOf (← run Binding.Api.getTop) - 1
      s.pushAll args
      let status := Api.intOf (← run (Api.pcall args.length Binding.allResults 0))
      if status != codeOf rt .ok then
        reportTop s.reporter status s.runtime l
        return .none
      let top := Api.intOf (← run Binding.Api.getTop)
      return gather (← s.results (top - base).toNat (base + 1))

end LuaHost.Host.Selector
