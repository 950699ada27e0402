import LuaHost.Proofs.Callbacks.Values

set_option autoImplicit false

/-!
# The main stack alone

Most calls change nothing of a machine but its main stack. What they leave is said exactly: the machine
is the same but for that stack, and for whether more was ever pushed on it than fits.
-/

namespace LuaHost.Lua

/-! ## Machines with another main stack -/

/-- A machine of which nothing has changed but the main stack, and whether that ever held more than fits. -/
def Vm.Restacks (vm : Vm) (stack : Array Value) (vm' : Vm) : Prop :=
  ∃ overdrawn, vm' = vm.withThread fun th => { th with stack, overdrawn }

namespace Vm.Restacks

variable {a b c : Vm} {xs ys : Array Value}

theorem stack (h : a.Restacks xs b) : b.stack = xs := by
  obtain ⟨overdrawn, rfl⟩ := h
  rw [Vm.stack_withThread]

theorem tables (h : a.Restacks xs b) : b.tables = a.tables := by
  obtain ⟨overdrawn, rfl⟩ := h
  rfl

theorem trans (h : a.Restacks xs b) (k : b.Restacks ys c) : a.Restacks ys c := by
  obtain ⟨_, rfl⟩ := h
  obtain ⟨overdrawn, rfl⟩ := k
  refine ⟨overdrawn, ?_⟩
  simp only [Vm.withThread, Pool.modify_modify]

theorem of_thread (vm : Vm) (f : Thread → Thread) (overdrawn : Bool)
    (h : f (vm.threads.get 0) = { vm.threads.get 0 with stack := xs, overdrawn }) : vm.Restacks xs (vm.withThread f) := by
  refine ⟨overdrawn, ?_⟩
  simp only [Vm.withThread, Pool.modify_eq_put, h]

theorem pushed (vm : Vm) (v : Value) : vm.Restacks (vm.stack.push v) (vm.pushed 0 v) := of_thread vm _ _ rfl

end Vm.Restacks

section Steps

variable {σ : Type} {s : Sys σ}

/-- What a place counted from the top denotes. -/
theorem Stack.value?_below {base : Array Value} {v : Value} {above : List Value}
    (h : s.vm.stack = base ++ (v :: above).toArray) (short : above.length < 9999) :
    Stack.value? 0 (-((above.length + 1 : Nat) : Int)) s = .ok (some v) s := by
  have size : s.vm.stack.size = base.size + (above.length + 1) := by simp [h]
  have place : Stack.place s.vm.generation s.vm.stack.size (-((above.length + 1 : Nat) : Int)) = .slot base.size := by
    rw [Runs.place_neg (Nat.succ_pos _) (size ▸ Nat.le_add_left _ _) (by omega), size, Nat.add_sub_cancel]
  have value : s.vm.stack[base.size]? = some v := by simp [h]
  rw [Vm.stack] at place value
  unfold Stack.value?
  simp only [contents, M.thread, M.generation, Bind.bind, EStateM.bind, Pure.pure, EStateM.pure, place, value]

theorem Gives.setTop_restacks {base : Array Value} {v : Value} (h : s.vm.stack = base.push v) :
    Gives s (Stack.setTop 0 (-2) (-2)) fun _ vm => s.vm.Restacks base vm := by
  have size : ((s.vm.threads.get 0).stack.size : Int) + -2 + 1 = base.size := by
    change (s.vm.stack.size : Int) + -2 + 1 = base.size
    rw [h, Array.size_push]
    omega
  have run : Stack.setTop 0 (-2) (-2) s = Stack.setContents 0 (Stack.resize s.vm.stack base.size) s := by
    unfold Stack.setTop
    simp only [Stack.contents, M.thread, Bind.bind, EStateM.bind, Pure.pure, EStateM.pure, size,
      if_neg (by decide : ¬ (0 : Int) ≤ -2), if_neg (Int.not_lt.mpr (Int.natCast_nonneg base.size)), Int.toNat_natCast]
    rfl
  have kept : Stack.resize s.vm.stack base.size = base := by
    rw [h, Stack.resize, if_pos (by rw [Array.size_push]; exact Nat.le_succ _), Array.shrink_eq_take, Array.take_eq_extract,
      Array.extract_push_of_le (Nat.le_refl _), Array.extract_size]
  refine ⟨_, _, run, .of_thread s.vm _ (s.vm.threads.get 0).overdrawn ?_⟩
  rw [kept]

theorem Gives.restore_restacks {base ext : Array Value} (h : s.vm.stack = base ++ ext) :
    Gives s (Stack.setTop 0 base.size base.size) fun _ vm => s.vm.Restacks base vm := by
  have positive : (0 : Int) ≤ base.size := Int.natCast_nonneg _
  have run : Stack.setTop 0 base.size base.size s = Stack.setContents 0 (Stack.resize s.vm.stack base.size) s := by
    unfold Stack.setTop
    simp only [Stack.contents, M.thread, Bind.bind, EStateM.bind, Pure.pure, EStateM.pure, if_pos positive,
      if_neg (Int.not_lt.mpr positive), Int.toNat_natCast]
    rfl
  have bound : base.size ≤ (base ++ ext).size := by
    rw [Array.size_append]
    exact Nat.le_add_right _ _
  have kept : Stack.resize s.vm.stack base.size = base := by
    rw [h, Stack.resize, if_pos bound, ← Nat.add_zero base.size, shrink_append, Array.extract_zero, Array.append_empty]
  refine ⟨_, _, run, .of_thread s.vm _ (s.vm.threads.get 0).overdrawn ?_⟩
  rw [kept]

end Steps

/-- What stands for the globals on a stack: the table of the machine, or in newer generations what the registry has. -/
def Vm.globalTable (vm : Vm) : Value :=
  if vm.generation == .v51 then .table vm.globals else vm.entry 2

end LuaHost.Lua

namespace LuaHost.Host

open Lua (M Vm Gives)
open Binding (Call Program Runtime)

variable {env : Env} {w : World} {vm : Vm} {m runtime : Nat} {base ext : Array Lua.Value} {v : Lua.Value}

/-- The table of the globals is pushed as the machine has it. -/
theorem runWith_globals (env : Env) {t : Handle} (hm : w.machines.get t.machine = .open vm)
    (hg : (w.runtimes.get runtime).generation = vm.generation) :
    runWith runtime (some t) Binding.Api.pushGlobals env w = .ok () (w.pushed t vm vm.globalTable) := by
  have performed : perform env t (globalsCall (w.runtimes.get runtime)) (taken w t.machine vm) =
      .ok .none { taken w t.machine vm with vm := vm.pushed t.thread vm.globalTable } := by
    unfold globalsCall Lua.Vm.globalTable
    rw [hg]
    cases old : vm.generation == .v51 with
    | true =>
      refine Perform.copy_found (v := .table vm.globals) ?_
      have place (size : Nat) : Lua.Stack.place vm.generation size (int32 Runtime.globalsIndex) = .globals := by
        rw [beq_iff_eq.mp old]
        rfl
      unfold Lua.Stack.value?
      simp only [Lua.Stack.contents, M.thread, M.generation, M.vm, Bind.bind, EStateM.bind, Pure.pure, EStateM.pure, taken, place]
    | false =>
      have index : (w.runtimes.get runtime).registryIndex = Lua.Stack.registryIndex vm.generation := by
        rw [← hg]
        rfl
      have slot : Int64.ofInt (conveyed vm.generation Runtime.globalsSlot) = 2 := by
        unfold conveyed
        split <;> rfl
      rw [index, if_neg Bool.false_ne_true, if_neg Bool.false_ne_true, ← slot]
      exact Perform.rawGetI_registry t Runtime.globalsSlot (taken w t.machine vm)
  have plain (r : Runtime) : globalsCall r ≠ .newState ∧ globalsCall r ≠ .close ∧ checkArguments (globalsCall r) = .ok () := by
    unfold globalsCall
    split <;> exact ⟨by rintro ⟨⟩, by rintro ⟨⟩, rfl⟩
  rw [pushGlobals_call]
  exact runWith_pushes runtime (fun r => (plain r).1) (fun r => (plain r).2.1) (fun r => (plain r).2.2) hm performed

section Dropping

variable (env : Env) (runtime : Nat) (hm : w.machines.get m = .open vm)

include hm

theorem runWith_drop (hs : vm.stack = base.push v) :
    ∃ vm', runWith runtime (some (.main m)) (fun _ => Binding.Api.pop 1) env w = .ok () (w.put m vm') ∧
      vm.Restacks base vm' := by
  have gives : Gives (taken w m vm) (perform env (.main m) (.setTop (-1 - 1))) fun _ vm' => vm.Restacks base vm' :=
    .bind (q := fun _ vm' => vm' = vm) ⟨_, _, rfl, rfl⟩ fun _ _ same =>
      .bind (Gives.setTop_restacks (s := ⟨_, _⟩) (same ▸ hs)) fun _ _ h => .pure (same ▸ h)
  obtain ⟨_, vm', run, restacks⟩ := runWith_gives env runtime (c := fun _ => .setTop (-1 - 1)) (fun _ => ()) (fun _ => nofun)
    (fun _ => nofun) (fun _ => rfl) hm gives
  exact ⟨vm', run, restacks⟩

theorem runWith_restore (hs : vm.stack = base ++ ext) (small : base.size < 0x80000000) :
    ∃ vm', runWith runtime (some (.main m)) (fun _ => Binding.Api.setTop base.size) env w = .ok () (w.put m vm') ∧
      vm.Restacks base vm' := by
  have gives : Gives (taken w m vm) (perform env (.main m) (.setTop base.size)) fun _ vm' => vm.Restacks base vm' := by
    refine .bind (q := fun _ vm' => vm' = vm) ⟨_, _, rfl, rfl⟩ fun _ vm' same => ?_
    have restores : Gives ⟨vm', (taken w m vm).host⟩ (Lua.Stack.setTop 0 base.size (int32 base.size)) fun _ vm'' => vm'.Restacks base vm'' := by
      rw [int32_small small]
      exact Gives.restore_restacks (same ▸ hs)
    exact .bind restores fun _ _ h => .pure (same ▸ h)
  obtain ⟨_, vm', run, restacks⟩ := runWith_gives env runtime (c := fun _ => .setTop base.size) (fun _ => ()) (fun _ => nofun)
    (fun _ => nofun) (fun _ => rfl) hm gives
  exact ⟨vm', run, restacks⟩

end Dropping

/-! ## Guarded actions -/

section Guarded

variable (runtime : Nat) {α : Type} {w' : World} {vm' : Vm} {act : H α} (hm : w.machines.get m = .open vm) (small : vm.stack.size < 0x80000000)
  (hm' : w'.machines.get m = .open vm') (hs : vm'.stack = vm.stack ++ ext)

include hm small hm' hs

/-- A guarded action takes away what is left above the stack that it found. -/
theorem guarded_ok {a : α} (run : act env w = .ok a w') : ∃ vm'', guarded runtime (some (.main m)) act env w = .ok a (w'.put m vm'') ∧
    vm'.Restacks vm.stack vm'' := by
  obtain ⟨vm'', restored, restacks⟩ := runWith_restore env runtime hm' hs small
  exact ⟨vm'', (bind_ok (runWith_getTop (t := .main m) env runtime hm)).trans (finally_ok run restored), restacks⟩

end Guarded

end LuaHost.Host
