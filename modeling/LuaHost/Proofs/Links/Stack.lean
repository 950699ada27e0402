import LuaHost.Lua.Stack
import LuaHost.Proofs.Links.Library

set_option autoImplicit false
set_option linter.unusedSectionVars false

/-!
# Links of the stack interface

Whatever the interface does is tied to itself, but for what stores into the registry's table: setting an
entry of it, pinning and unpinning. That needs a link that holds across everything a machine does alone.
-/

namespace LuaHost.Lua

variable {σ τ α β : Type} {L : Link σ τ}

theorem Stack.attempt_eq_settle (act : M σ α) : Stack.attempt act =
    act.settle (fun a => pure (.done a)) (fun status v => pure (.failed status v)) fun status v => pure (.failed status v) := by
  funext s
  unfold Stack.attempt M.settle M.outcome
  cases act s with
  | ok a t => rfl
  | error e t => cases e <;> rfl

@[grind ←] theorem Stack.attempt_tied {act : M σ α} {act' : M τ α} (ha : Tied L act act') :
    Tied L (Stack.attempt act) (Stack.attempt act') := by
  rw [Stack.attempt_eq_settle, Stack.attempt_eq_settle]
  exact ha.settle (fun a => .pure _) (fun _ _ => .pure _) fun _ _ => .pure _

variable [L.Threaded]

@[grind ←] theorem Stack.contents_tied (t : Nat) : Tied L (Stack.contents t) (Stack.contents t) := by
  unfold Stack.contents
  grind

@[grind ←] theorem Stack.setContents_tied (t : Nat) (vs : Array Value) :
    Tied L (Stack.setContents t vs) (Stack.setContents t vs) := by
  unfold Stack.setContents
  grind

@[grind ←] theorem Stack.value?_tied (t : Nat) (i : Int) : Tied L (Stack.value? t i) (Stack.value? t i) := by
  unfold Stack.value?
  grind

@[grind ←] theorem Stack.value_tied (t : Nat) (i : Int) : Tied L (Stack.value t i) (Stack.value t i) := by
  unfold Stack.value
  grind

@[grind ←] theorem Stack.push_tied (t : Nat) (v : Value) : Tied L (Stack.push t v) (Stack.push t v) := by
  unfold Stack.push
  grind

@[grind ←] theorem Stack.pushAll_tied (t : Nat) (vs : List Value) :
    Tied L (Stack.pushAll t vs) (Stack.pushAll t vs) := by
  unfold Stack.pushAll
  exact .forM (fun v => Stack.push_tied _ _) _

@[grind ←] theorem Stack.pop_tied (t : Nat) : Tied L (Stack.pop t) (Stack.pop t) := by
  unfold Stack.pop
  grind

@[grind ←] theorem Stack.popAll_tied (t : Nat) (n : Nat) : Tied L (Stack.popAll t n) (Stack.popAll t n) := by
  unfold Stack.popAll
  grind

@[grind ←] theorem Stack.size_tied (t : Nat) : Tied L (Stack.size t) (Stack.size t) := by
  unfold Stack.size
  grind

@[grind ←] theorem Stack.setTop_tied (t : Nat) (asked i : Int) :
    Tied L (Stack.setTop t asked i) (Stack.setTop t asked i) := by
  unfold Stack.setTop
  grind

@[grind ←] theorem Stack.checkRoom_tied (t : Nat) (asked n : Int) :
    Tied L (Stack.checkRoom t asked n) (Stack.checkRoom t asked n) := by
  unfold Stack.checkRoom
  grind

@[grind ←] theorem Stack.typeCode_tied (t : Nat) (i : Int) : Tied L (Stack.typeCode t i) (Stack.typeCode t i) := by
  unfold Stack.typeCode
  grind

@[grind ←] theorem Stack.text?_tied (t : Nat) (i : Int) : Tied L (Stack.text? t i) (Stack.text? t i) := by
  unfold Stack.text?
  refine .bind .generation fun g => .bind (Stack.contents_tied _) fun vs => .bind (Stack.value_tied _ _) fun v => ?_
  split
  · exact .pure _
  · split
    · exact .pure _
    · grind
    · exact .pure _

@[grind ←] theorem Stack.number_tied (t : Nat) (i : Int) : Tied L (Stack.number t i) (Stack.number t i) := by
  unfold Stack.number
  grind

@[grind ←] theorem Stack.integer_tied (t : Nat) (i : Int) : Tied L (Stack.integer t i) (Stack.integer t i) := by
  unfold Stack.integer
  grind

@[grind ←] theorem Stack.isInteger_tied (t : Nat) (i : Int) : Tied L (Stack.isInteger t i) (Stack.isInteger t i) := by
  unfold Stack.isInteger
  grind

@[grind ←] theorem Stack.tableAt_tied (t : Nat) (i : Int) : Tied L (Stack.tableAt t i) (Stack.tableAt t i) := by
  unfold Stack.tableAt
  grind

@[grind ←] theorem Stack.next_tied (t : Nat) (i : Int) : Tied L (Stack.next t i) (Stack.next t i) := by
  unfold Stack.next
  grind

theorem Stack.onThread_eq_outcome (t : Nat) (act : M σ α) : Stack.onThread t act = (do
    let outer := (← M.vm).running
    if outer == t then act
    else
      M.modifyVm fun vm => { vm with running := t }
      let back : M σ Unit := M.modifyVm fun vm => { vm with running := outer }
      act.outcome (fun a => do
        back
        return a) fun e => do
        back
        throw e) := by
  funext s
  simp only [Stack.onThread, Bind.bind, EStateM.bind, M.vm]
  split
  · rfl
  · simp only [EStateM.bind, M.modifyVm, M.outcome]
    cases act { s with vm := { s.vm with running := t } } with
    | ok a u => rfl
    | error e u => rfl

@[grind ←] theorem Stack.onThread_tied {act : M σ α} {act' : M τ α} (ha : Tied L act act') (t : Nat) :
    Tied L (Stack.onThread t act) (Stack.onThread t act') := by
  have turn (n : Nat) : Tied L (M.modifyVm fun vm => { vm with running := n }) (M.modifyVm fun vm => { vm with running := n }) :=
    .modifyAny _ fun _ => .of_eq rfl rfl rfl rfl rfl
  rw [Stack.onThread_eq_outcome, Stack.onThread_eq_outcome]
  exact .bind .vm fun vm => .ite ha (.bind (turn t) fun _ => .outcome ha (fun a => .bind (turn _) fun _ => .pure a)
    fun e thrown => .bind (turn _) fun _ => thrown)

@[grind ←] theorem Stack.getEntry_tied {services : Services σ} {services' : Services τ} (hs : L.Serves services services') (t : Nat)
    (i : Int) (key : Value) :
    Tied L (Stack.getEntry services t i key) (Stack.getEntry services' t i key) := by
  unfold Stack.getEntry
  grind

@[grind ←] theorem Stack.setEntry_tied {services : Services σ} {services' : Services τ} (hs : L.Serves services services') (t : Nat)
    (i : Int) (key : Value) :
    Tied L (Stack.setEntry services t i key) (Stack.setEntry services' t i key) := by
  unfold Stack.setEntry
  grind

@[grind ←] theorem Stack.leaveResults_tied (t : Nat) (nresults : Option Nat) (vs : List Value) :
    Tied L (Stack.leaveResults t nresults vs) (Stack.leaveResults t nresults vs) := by
  unfold Stack.leaveResults
  split
  · exact Stack.pushAll_tied _ _
  · exact .bind (.drawThread _ _) fun _ => Stack.pushAll_tied _ _

@[grind ←] theorem Stack.protectedCall_tied {run : Machine → M σ Outcome} {run' : Machine → M τ Outcome} (hr : ∀ m, Tied L (run m) (run' m)) (t : Nat) (nargs : Nat) (nresults : Option Nat) (handler : Option Value) :
    Tied L (Stack.protectedCall run t nargs nresults handler) (Stack.protectedCall run' t nargs nresults handler) := by
  unfold Stack.protectedCall
  grind

@[grind ←] theorem Stack.load_tied {chunk : M σ (Except (Status × ByteArray) Value)}
    {chunk' : M τ (Except (Status × ByteArray) Value)} (ha : Tied L chunk chunk') (t : Nat) :
    Tied L (Stack.load t chunk) (Stack.load t chunk') := by
  unfold Stack.load
  grind

@[grind ←] theorem Stack.globals_tied : Tied L (Stack.globals) (Stack.globals) := by
  unfold Stack.globals
  grind

@[grind ←] theorem Stack.loadText_tied (t : Nat) (source : ByteArray) :
    Tied L (Stack.loadText t source) (Stack.loadText t source) := by
  unfold Stack.loadText
  grind

@[grind ←] theorem Stack.registryEntry_tied (n : Int64) : Tied L (Stack.registryEntry n) (Stack.registryEntry n) := by
  unfold Stack.registryEntry
  grind

@[grind ←] theorem Stack.require_tied {services : Services σ} {services' : Services τ} (hs : L.Serves services services') (t : Nat)
    (name : ByteArray) (opening : Value) (isGlobal : Bool) :
    Tied L (Stack.require services t name opening isGlobal) (Stack.require services' t name opening isGlobal) := by
  unfold Stack.require
  refine Stack.onThread_tied ?_ _
  refine .bind .generation fun g => .bind Packages.loaded_tied fun loaded => ?_
  extract_lets modules give push give' push'
  have gives (v : Value) : Tied L (give v) (give' v) := .bind (Stack.push_tied _ _) fun _ =>
    .ite (.bind Stack.globals_tied fun _ => M.setEntry_tied hs.call _ _ _) (.pure _)
  have pushes (known : Value) : Tied L (push known) (push' known) :=
    .ite (.bind (.pure _) gives) (.bind (hs.call _ _) fun vs => .bind Packages.loaded_tied fun _ =>
      .bind (M.setEntry_tied hs.call _ _ _) fun _ => .bind (.pure _) gives)
  exact .ite (.bind (M.getEntry_tied hs.call _ _) pushes) (.bind (.pure _) pushes)

/-! ## Slots of the registry -/

variable [L.Whole]

@[grind ←] theorem Stack.setRegistryEntry_tied (n : Int64) (v : Value) :
    Tied L (Stack.setRegistryEntry n v : M σ Unit) (Stack.setRegistryEntry n v) :=
  .bind .vm fun _ => .whole fun vm => ((), { vm with tables := vm.tables.modify _ fun t => t.setInt n v })

@[grind ←] theorem Stack.freeSlot_tied : Tied L (Stack.freeSlot : M σ Int64) Stack.freeSlot := by
  unfold Stack.freeSlot
  refine .bind .generation fun _ => .bind (Stack.registryEntry_tied _) fun v => ?_
  split
  · exact .ite (.bind (Stack.setRegistryEntry_tied _ _) fun _ => .pure _) (.pure _)
  · exact .pure _

@[grind ←] theorem Stack.occupy_tied (v : Value) (free : Int64) :
    Tied L (Stack.occupy v free : M σ Int) (Stack.occupy v free) := by
  unfold Stack.occupy
  refine .ite (.bind .vm fun vm => .bind (.table _) fun t => ?_) ?_
  · exact .ite (.bind (.fault _ (by decide)) fun _ => .bind (Stack.setRegistryEntry_tied _ _) fun _ => .pure _)
      (.bind (Stack.setRegistryEntry_tied _ _) fun _ => .pure _)
  · exact .bind .generation fun g => .bind (Stack.registryEntry_tied _) fun _ =>
      .bind (Stack.setRegistryEntry_tied _ _) fun _ => .bind (Stack.setRegistryEntry_tied _ _) fun _ => .pure _

@[grind ←] theorem Stack.pin_tied (t : Nat) : Tied L (Stack.pin t : M σ Int) (Stack.pin t) :=
  .bind (Stack.pop_tied t) fun _ => .ite (.pure _) (.bind Stack.freeSlot_tied fun _ => Stack.occupy_tied _ _)

@[grind ←] theorem Stack.unpin_tied (slot : Int) : Tied L (Stack.unpin slot : M σ Unit) (Stack.unpin slot) :=
  .ite (.pure _) (.bind .generation fun g => .bind (Stack.registryEntry_tied _) fun _ =>
    .bind (Stack.setRegistryEntry_tied _ _) fun _ => Stack.setRegistryEntry_tied _ _)

end LuaHost.Lua
