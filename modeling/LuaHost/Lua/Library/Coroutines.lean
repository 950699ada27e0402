import LuaHost.Lua.Library.Arguments

set_option autoImplicit false

/-!
# The coroutine library

Yielding is not here: it acts on the continuations of the machine. A dead coroutine keeps the value
of the error that ended it on its stack.
-/

namespace LuaHost.Lua.Coroutines

variable {σ : Type}

def createFn (c : Call σ) : M σ Nat := do
  let g ← M.generation
  let f := c.arg 1
  if g == .v51 then
    let isLua ← match f with
      | .closure a => do
        match ← M.closure a with
        | .lua .. => pure true
        | .native .. => pure false
      | _ => pure false
    if !isLua then c.error 1 "Lua function expected"
  else
    let _ ← c.checkFunction 1
  M.newThread { Thread.fresh with stack := #[f] }

def checkThread (c : Call σ) (n : Nat) : M σ Nat := do
  match c.arg n with
  | .thread t => return t
  | _ =>
    match ← M.generation with
    | .v51 | .v52 | .v53 => c.error n "coroutine expected"
    | .v54 => c.typeError n "coroutine"

def statusName : ThreadStatus → String
  | .fresh => "suspended"
  | .suspended => "suspended"
  | .running => "running"
  | .normal => "normal"
  | .dead => "dead"

/-- Why a coroutine cannot be resumed, if it cannot. -/
def refusal? (g : Generation) : ThreadStatus → Option String
  | .fresh => none
  | .suspended => none
  | .dead => some "cannot resume dead coroutine"
  | status =>
    if g == .v51 then some ("cannot resume " ++ statusName status ++ " coroutine")
    else some "cannot resume non-suspended coroutine"

def resume (c : Call σ) (t : Nat) (args : List Value) : M σ Resumed := do
  match refusal? (← M.generation) (← M.thread t).status with
  | some message => return .failed (Value.ofString message)
  | none =>
    match ← c.services.resume t args with
    | .failed v =>
      M.modifyThread t fun th => { th with stack := #[v] }
      return .failed v
    | r => return r

def resumeFn (c : Call σ) : M σ (List Value) := do
  let t ← checkThread c 1
  match ← resume c t (c.args.drop 1) with
  | .finished vs => return .bool true :: vs
  | .yielded vs => return .bool true :: vs
  | .failed v => return [.bool false, v]

def wrapFn (c : Call σ) : M σ (List Value) := do
  let t ← createFn c
  return [← M.newClosure (.native (.library .coroutine "wrap_step") [.thread t])]

/-- Resumes a wrapped coroutine; its errors go on to the caller, texts with the caller's place. -/
def wrapStep (upvalues : List Value) (c : Call σ) : M σ (List Value) := do
  match upvalues with
  | [.thread t] =>
    match ← resume c t c.args with
    | .finished vs => return vs
    | .yielded vs => return vs
    | .failed v =>
      let g ← M.generation
      match v, Arith.text? g v with
      | .str s, _ => M.failBytes s
      | _, some s => if g == .v54 then M.raise v else M.failBytes s
      | _, none => M.raise v
  | _ => return []

def runningFn : M σ (List Value) := do
  let g ← M.generation
  let t := (← M.vm).running
  if g == .v51 then return [if t == 0 then .nil else .thread t]
  else return [.thread t, .bool (t == 0)]

def closeFn (c : Call σ) : M σ (List Value) := do
  let t ← checkThread c 1
  let th ← M.thread t
  match th.status with
  | .fresh | .suspended =>
    M.modifyThread t fun th => { th with status := .dead, stack := #[], konts := [] }
    return [.bool true]
  | .dead =>
    M.modifyThread t fun th => { th with stack := #[] }
    match th.stack[0]? with
    | some v => return [.bool false, v]
    | none => return [.bool true]
  | status => M.fail ("cannot close a " ++ statusName status ++ " coroutine")

def apply (name : String) (upvalues : List Value) (c : Call σ) : M σ (List Value) :=
  match name with
  | "close" => closeFn c
  | "create" => do return [.thread (← createFn c)]
  | "isyieldable" => do
    let t := (← M.vm).running
    return [.bool (t != 0 && !crossesNative (← M.generation) (← M.thread t).konts)]
  | "resume" => resumeFn c
  | "running" => runningFn
  | "status" => do
    return [Value.ofString (statusName (← M.thread (← checkThread c 1)).status)]
  | "wrap" => wrapFn c
  | "wrap_step" => wrapStep upvalues c
  | _ => return []

end LuaHost.Lua.Coroutines
