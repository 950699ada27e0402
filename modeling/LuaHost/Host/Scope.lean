import LuaHost.Host.Display

set_option autoImplicit false

/-!
# Scopes of a stack

A guard notes the depth of a stack when its body begins and restores it when the body ends, in
whatever way. Here a stack is a list, first pushed first, and a body is a list of actions, so the
rule can be followed without a machine.
-/

namespace LuaHost.Host

/-- A guard: the handle it was made for, and the depth it noted. A handle that counts as false makes
a guard that does nothing. -/
structure Guard where
  handle : Value
  depth : Option Nat

namespace Guard

/-- A stack of a given depth: the rest is cut off, what is missing is nil. -/
def setTop (depth : Nat) (stack : List Value) : List Value :=
  stack.take depth ++ List.replicate (depth - stack.length) .none

def enter (handle : Value) (stack : List Value) : Guard :=
  ⟨handle, if handle.truthy then some stack.length else none⟩

def leave (g : Guard) (stack : List Value) : List Value :=
  match g.depth with
  | some d => if g.handle.truthy then setTop d stack else stack
  | none => stack

/-- The guard as messages show it. -/
def quoted (g : Guard) : Text :=
  let depth : Text := match g.depth with
    | some d => toString d
    | none => "None"
  ("StackGuard(L=" : Text) ++ g.handle.plainQuoted ++ (", depth=" : Text) ++ depth ++ (")" : Text)

theorem length_setTop (depth : Nat) (stack : List Value) : (setTop depth stack).length = depth := by
  simp [setTop]
  omega

end Guard

/-- What a body may do. -/
inductive Act where
  | push (vs : List Value)
  | pop (n : Nat)
  /-- a body in a guard of its own -/
  | guard (handle : Value) (body : List Act)
  /-- a guarded body whose failure ends here -/
  | attempt (handle : Value) (body : List Act)
  | raise (f : Failure)
  /-- leaves the body -/
  | leave

/-- How a body ended. -/
inductive Ending where
  | finished
  | left
  | failed (f : Failure)

/-- What is written down while bodies run. -/
inductive Entry where
  | entered (g : Guard)
  | caught (f : Failure)
  | did (name : String) (stack : List Value)

/-- A stack, what was written down, and how the last body ended. -/
structure Scope where
  stack : List Value
  log : List Entry
  ending : Ending

namespace Scope

/-- Carries on with the next action unless the body has ended. -/
def next (s : Scope) (act : Scope → Scope) : Scope :=
  match s.ending with
  | .finished => act s
  | _ => s

def onStack (s : Scope) (stack : List Value) : Scope := { s with stack }

def did (s : Scope) (name : String) : Scope := { s with log := s.log ++ [.did name s.stack] }

/-- What a guarded body leaves behind: its guard restores the stack, and leaving the body ends only
the body. -/
def closed (g : Guard) (s : Scope) : Scope :=
  { s with
    stack := g.leave s.stack
    ending := match s.ending with
      | .failed f => .failed f
      | _ => .finished }

/-- A failure ends. -/
def handled (s : Scope) (f : Failure) : Scope :=
  { s with log := s.log ++ [.caught f], ending := .finished }

def opened (s : Scope) (g : Guard) : Scope := { s with log := s.log ++ [.entered g] }

mutual

/-- Carries out one action. -/
def act (s : Scope) : Act → Scope
  | .push vs => (s.onStack (s.stack ++ vs)).did "push"
  | .pop n => (s.onStack (s.stack.take (s.stack.length - n))).did "pop"
  | .guard h body => (s.guarded h body).next (·.did "guard")
  | .attempt h body =>
    let t := s.guarded h body
    match t.ending with
    | .failed f => (t.handled f).did "try"
    | _ => t.did "try"
  | .raise f => { s with ending := .failed f }
  | .leave => { s with ending := .left }

/-- Carries out a body. -/
def run (s : Scope) : List Act → Scope
  | [] => s
  | a :: rest =>
    let s := s.act a
    match s.ending with
    | .finished => s.run rest
    | _ => s

/-- Carries out a body in a guard. -/
def guarded (s : Scope) (handle : Value) (body : List Act) : Scope :=
  let g := Guard.enter handle s.stack
  closed g ((s.opened g).run body)

end

/-- A guarded body on a stack. -/
def ofBody (stack : List Value) (handle : Value) (body : List Act) : Scope :=
  guarded ⟨stack, [], .finished⟩ handle body

end Scope
end LuaHost.Host
