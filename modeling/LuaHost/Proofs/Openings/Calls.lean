import LuaHost.Proofs.Walks.Echoes

set_option autoImplicit false

/-!
# Functions of the host that are called from outside

A call from outside of a function of the host runs it once, in a world in which its arguments are all that is on
the stack, and comes back with what it leaves on top.
-/

namespace LuaHost.Lua

variable {σ : Type} {s s' : Sys σ}

/-- Whatever thread runs, what is done on the main thread is done there. -/
theorem Stack.onThread_done {α : Type} {act : M σ α} {a : α} (ran : act { s with vm := { s.vm with running := 0 } } = .ok a s') :
    ∃ vm, Stack.onThread 0 act s = .ok a { s' with vm } ∧ s'.vm.Akin vm := by
  by_cases main : s.vm.running = 0
  · have same : ({ s with vm := { s.vm with running := 0 } } : Sys σ) = s := by rw [← main]
    rw [same] at ran
    exact ⟨s'.vm, (Stack.onThread_eq act main).trans ran, .refl _⟩
  · exact ⟨_, Stack.onThread_runs main ran, (Vm.Akin.refl s'.vm).course _ _ _⟩

end LuaHost.Lua

namespace LuaHost.Host

open Lua (M Vm Generation Sys Machine Caller)

variable {env : Env} {w w₁ : World} {vm vm₁ : Vm} {m k j : Nat} {f : Foreign} {n : Int} {args us : List Lua.Value}
  {below : Array Lua.Value} {s : Sys World} {handler : Option (Option Lua.Value)}

/-! ## What a call comes to -/

/-- A function that was called gave a number of results, or raised and so gave none. -/
def Gave (r : EStateM.Result Stop World Int) (n : Int) (w : World) : Prop :=
  r = .ok n w ∨ n = 0 ∧ ∃ e, r = .error (.failure e) w

/-- What a function of the host leaves on top of its stack is handed on. -/
theorem enter_leaves {t : Nat} (gave : Gave (f.call ⟨m, t⟩ env (World.entering m k s)) n w₁) (hm : w₁.machines.get m = .open vm₁)
    (left : vm₁.stackOf t = below ++ us.toArray) (count : us.length = (int32 n).toNat) :
    ∃ vm₂, enter env m t k (s.host.isKept m (.foreign k)) f s = .ok us (taken w₁ m vm₂) ∧ vm₁.Akin vm₂ := by
  have entered : H.inMachine env m (f.call ⟨m, t⟩) 0 (noting m k s) = .ok n (taken w₁ m vm₁) := by
    obtain back | ⟨rfl, e, raised⟩ := gave
    · exact inMachine_ok back hm
    · exact inMachine_raised raised hm
  obtain ⟨vs, vm₂, popped, akin, same⟩ := Lua.Stack.popAll_ok t (int32 n).toNat (taken w₁ m vm₁)
  cases same below us left count
  refine ⟨vm₂, ?_, akin⟩
  rw [enter_eq]
  simp only [Bind.bind, EStateM.bind, entered]
  exact popped

/-- The world in which a function of the host runs that is called from outside. -/
def World.called (m k j : Nat) (handler : Option (Option Lua.Value)) (args : List Lua.Value) (s : Sys World) : World :=
  World.entering m k ((Machine.begins s.vm (.native (.foreign k) j) args).within (.native (.outside (s.vm.natives + 1))) args
    { s with vm := s.vm.begins handler })

/-- The machine is there, with the arguments on the stack of the running thread. -/
theorem World.called_machine (m k j : Nat) (handler : Option (Option Lua.Value)) (args : List Lua.Value) (s : Sys World) :
    ∃ vm, (World.called m k j handler args s).machines.get m = .open vm ∧ s.vm.Akin vm ∧ vm.running = s.vm.running ∧
      vm.stackOf s.vm.running = args.toArray :=
  ⟨_, putBack_get _ m, (s.vm.akin_begins handler).trans (Vm.akin_begun _ _ _ _ _), rfl, Vm.stackOf_begun _ _ _ _ _⟩

theorem World.called_eq (m k j : Nat) (handler : Option (Option Lua.Value)) (args : List Lua.Value) (s : Sys World) :
    ∃ vm, World.called m k j handler args s =
      { s.host with
        machines := s.host.machines.put m (.open vm)
        journal := .entered m k (s.host.isKept m (.foreign k)) :: s.host.journal } := ⟨_, rfl⟩

/-- A call from outside of a function of the host that the machine was given. -/
theorem nested_foreign (depth j : Nat) (args : List Lua.Value) (handler : Option (Option Lua.Value)) (given : m ∈ (s.host.foreigns.get k).machines) (few : s.vm.natives + 1 < Lua.nativeLimit)
    (gave : Gave ((s.host.foreigns.get k).call ⟨m, s.vm.running⟩ ⟨nativesTo depth⟩ (World.called m k j handler args s)) n w₁)
    (hm : w₁.machines.get m = .open vm₁) (left : vm₁.stackOf s.vm.running = below ++ us.toArray) (count : us.length = (int32 n).toNat) :
    ∃ vm', Machine.nested (runner ⟨nativesTo (depth + 1)⟩ m) handler (.native (.foreign k) j) args s = .ok us (taken w₁ m vm') ∧
      vm₁.Akin vm' := by
  let c : Machine := .begins s.vm (.native (.foreign k) j) args
  let caller : Caller := .native (.outside (s.vm.natives + 1))
  let s₁ : Sys World := { s with vm := s.vm.begins handler }
  have shallow : s.vm.Shallow := by
    unfold Lua.Vm.Shallow
    omega
  obtain ⟨vm₂, entered, akin⟩ := enter_leaves (t := s.vm.running) gave hm left count
  have native : nativesTo (depth + 1) m (Machine.services (Machine.run (nativesTo (depth + 1) m) 399999999)) (.foreign k) [] args
      (c.within caller args s₁) = .ok us (taken w₁ m vm₂) := by
    have member : (s.host.foreigns.get k).machines.contains m = true := List.contains_iff_mem.mpr given
    refine (nativesTo_foreign depth m k _ [] args (c.within caller args s₁)).trans ?_
    change (if !(s.host.foreigns.get k).machines.contains m then _ else _ : M World (List Lua.Value)) _ = _
    rw [member]
    exact entered
  have stepped := (Machine.step_foreign (s := s₁) (rfl : c.ctl = .apply (.native (.foreign k) j) args caller)).trans (Machine.runNative_ok few native)
  have ran : runner ⟨nativesTo (depth + 1)⟩ m c s₁ = .ok (.returned us) (taken w₁ m (s₁.vm.resumed c.thread vm₂)) :=
    (Machine.run_next stepped).trans (Machine.run_returned 399999997 rfl)
  exact ⟨_, Machine.nested_done shallow ran, akin.trans ((s₁.vm.akin_resumed _ _).trans (s.vm.akin_ends _))⟩

end LuaHost.Host
