import LuaHost.Proofs.Entries.Machines
import LuaHost.Proofs.Slots.References

set_option autoImplicit false

/-!
# Calls that come back

A call that looks at the stack of a thread, or pushes on it, comes back on an open machine, and changes
nothing in the world but that machine.
-/

namespace LuaHost.Host

open Lua (M Vm Gives Reads)
open Binding (Call Program Runtime)

variable (env : Env) {w : World} {vm vm' : Vm} {m : Nat} {t : Handle} {α : Type}

/-! ## Worlds with a machine in another state -/

/-- A world in which a machine has another state. -/
def World.put (w : World) (m : Nat) (vm : Vm) : World := { w with machines := w.machines.put m (.open vm) }

@[simp] theorem World.put_put (w : World) (m : Nat) (vm vm' : Vm) : (w.put m vm).put m vm' = w.put m vm' := by
  simp only [World.put, Pool.put_put]

@[simp] theorem World.get_put (w : World) (m : Nat) (vm : Vm) : (w.put m vm).machines.get m = .open vm :=
  Pool.get_put_self _ _ _

theorem World.put_self (hm : w.machines.get m = .open vm) : w.put m vm = w := by
  rw [World.put, ← hm, Pool.put_get _ (World.Open.lt_size ⟨vm, hm⟩)]

theorem putBack_with (w : World) (m : Nat) (vm vm' : Vm) : putBack { taken w m vm with vm := vm' } m = w.put m vm' := by
  simp only [putBack, taken, Pool.put_put, World.put]

/-! ## Single calls -/

theorem execute_gives {r : Runtime} {c : Call} {q : Value → Vm → Prop} (hn : c ≠ .newState) (hc : c ≠ .close)
    (ha : checkArguments c = .ok ()) (hm : w.machines.get t.machine = .open vm)
    (gives : Gives (taken w t.machine vm) (perform env t c) q) :
    ∃ v vm', execute r (some t) c env w = .ok v (w.put t.machine vm') ∧ q v vm' := by
  obtain ⟨v, vm', run, held⟩ := gives
  refine ⟨v, vm', ?_, held⟩
  rw [execute_ok hn hc ha hm run, putBack_with]

/-- A program of one call. -/
theorem runWith_gives (runtime : Nat) {c : Runtime → Call} (f : Value → α) {q : Value → Vm → Prop}
    (hn : ∀ r, c r ≠ .newState) (hc : ∀ r, c r ≠ .close) (ha : ∀ r, checkArguments (c r) = .ok ())
    (hm : w.machines.get t.machine = .open vm)
    (gives : Gives (taken w t.machine vm) (perform env t (c (w.runtimes.get runtime))) q) :
    ∃ v vm', runWith runtime (some t) (fun r => .ask (c r) fun v => .done (f v)) env w = .ok (f v) (w.put t.machine vm') ∧
      q v vm' := by
  obtain ⟨v, vm', run, held⟩ := execute_gives env (hn (w.runtimes.get runtime)) (hc _) (ha _) hm gives
  refine ⟨v, vm', ?_, held⟩
  rw [runWith_call, run]

namespace Perform

variable {s : Lua.Sys World}

/-- Asking for the depth of a stack changes nothing. -/
theorem depth (t : Handle) (s : Lua.Sys World) : Gives s (perform env t .getTop) fun v vm =>
    v = .int (s.vm.threads.get t.thread).stack.size ∧ vm = s.vm := ⟨_, _, rfl, rfl, rfl⟩

/-- Making room changes neither the generation nor any value. -/
theorem room (t : Handle) (n : Int) (s : Lua.Sys World) : Gives s (perform env t (.checkStack n)) fun _ vm =>
    s.vm.Alike vm ∧ (vm.threads.get t.thread).stack = (s.vm.threads.get t.thread).stack := by
  unfold perform
  refine .bind (q := fun _ vm => vm = s.vm) ⟨_, _, rfl, rfl⟩ ?_
  rintro g _ rfl
  refine .bind (q := fun _ vm => s.vm.Alike vm ∧ (vm.threads.get t.thread).stack = (s.vm.threads.get t.thread).stack) ?_
    fun _ vm h => .pure h
  unfold Lua.Stack.checkRoom
  refine .bind (q := fun _ vm => vm = s.vm) ⟨_, _, rfl, rfl⟩ ?_
  rintro g _ rfl
  refine .bind (q := fun _ vm => vm = s.vm) ⟨_, _, rfl, rfl⟩ ?_
  rintro size _ rfl
  refine ⟨_, _, rfl, ⟨rfl, rfl, rfl, rfl, Nat.le_refl _, fun _ _ => rfl⟩, ?_⟩
  dsimp only
  rw [Pool.get_modify_self]

/-- Copying a value of a stack to its top. -/
theorem copy (t : Handle) (i : Int) (s : Lua.Sys World) : Gives s (perform env t (.pushValue i)) fun _ vm =>
    ∃ v, Lua.Stack.value t.thread (int32 i) s = .ok v s ∧ vm = s.vm.pushed t.thread v := by
  obtain ⟨v, value⟩ := (Reads.value t.thread (int32 i)).after s
  refine ⟨.none, s.vm.pushed t.thread v, ?_, v, value, rfl⟩
  unfold perform
  simp only [quiet, M.generation, Bind.bind, EStateM.bind, value, Lua.Stack.push_eq]
  rfl

end Perform

theorem runWith_getTop (runtime : Nat) (hm : w.machines.get t.machine = .open vm) :
    runWith runtime (some t) (fun _ => Binding.Api.getTop) env w = .ok (.int (vm.threads.get t.thread).stack.size) w := by
  obtain ⟨v, vm', asked, rfl, rfl⟩ := runWith_gives env runtime (c := fun _ => .getTop) id (fun _ => nofun)
    (fun _ => nofun) (fun _ => rfl) hm (Perform.depth env t (taken w t.machine vm))
  exact asked.trans (congrArg _ (World.put_self hm))

theorem runWith_checkStack (runtime : Nat) (n : Int) (hm : w.machines.get t.machine = .open vm) :
    ∃ a vm', runWith runtime (some t) (fun _ => Binding.Api.checkStack n) env w = .ok a (w.put t.machine vm') ∧
      vm.Alike vm' ∧ (vm'.threads.get t.thread).stack = (vm.threads.get t.thread).stack := by
  obtain ⟨v, vm', roomy, like⟩ := runWith_gives env runtime (c := fun _ => .checkStack n) Value.truthy (fun _ => nofun)
    (fun _ => nofun) (fun _ => rfl) hm (Perform.room env t n (taken w t.machine vm))
  exact ⟨_, vm', roomy, like⟩

/-- The call that pushes the table of the globals. -/
def globalsCall (r : Runtime) : Call :=
  if r.generation == .v51 then .pushValue Runtime.globalsIndex else .rawGetI r.registryIndex Runtime.globalsSlot

theorem pushGlobals_call : Binding.Api.pushGlobals = fun r => .ask (globalsCall r) fun _ => .done () := by
  funext r
  unfold Binding.Api.pushGlobals globalsCall
  split <;> rfl

theorem runWith_pushGlobals (runtime : Nat) (hm : w.machines.get t.machine = .open vm)
    (same : (w.runtimes.get runtime).generation = vm.generation) :
    ∃ vm', runWith runtime (some t) Binding.Api.pushGlobals env w = .ok () (w.put t.machine vm') := by
  have gives : Gives (taken w t.machine vm) (perform env t (globalsCall (w.runtimes.get runtime))) fun _ _ => True := by
    unfold globalsCall
    split
    · exact (Perform.copy env t _ _).imp fun _ _ _ => trivial
    · have index : (w.runtimes.get runtime).registryIndex = Lua.Stack.registryIndex vm.generation := by
        rw [← same]
        rfl
      rw [index]
      exact ⟨_, _, Perform.rawGetI_registry t Runtime.globalsSlot (taken w t.machine vm), trivial⟩
  rw [pushGlobals_call]
  have plain (r : Runtime) : globalsCall r ≠ .newState ∧ globalsCall r ≠ .close ∧ checkArguments (globalsCall r) = .ok () := by
    unfold globalsCall
    split <;> exact ⟨nofun, nofun, rfl⟩
  obtain ⟨v, vm', pushed, -⟩ := runWith_gives env runtime (fun _ => ()) (fun r => (plain r).1) (fun r => (plain r).2.1)
    (fun r => (plain r).2.2) hm gives
  exact ⟨vm', pushed⟩

end LuaHost.Host
