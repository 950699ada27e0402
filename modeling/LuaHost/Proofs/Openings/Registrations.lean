import LuaHost.Proofs.Openings.Modules
import LuaHost.Proofs.Neutral.Operations

set_option autoImplicit false

/-!
# Registering a module

A module that a function of the host opens: the loader is called once, with the name, in a world that differs from
the one at hand by what is needed for the call. What the registration does beyond that depends on the way it takes.
-/

namespace LuaHost.Lua

open Stack (Attempt)

variable {σ : Type} {s s' : Sys σ} {f : Value} {args vs : List Value} {base : Array Value} {run : Machine → M σ Outcome}

/-- A protected call whose results are dropped leaves the machine as the function left it. -/
theorem Stack.protectedCall_drops (hs : s.vm.stack = base ++ (f :: args).toArray) (run : Machine → M σ Outcome) :
    ∃ vm, s.vm.Stacks base vm ∧ ∀ vs s', Machine.nested run (some none) f args { s with vm := { vm with running := 0 } } = .ok vs s' →
      ∃ vm', protectedCall run 0 args.length (some 0) none s = .ok .ok { s' with vm := vm' } ∧ s'.vm.Akin vm' := by
  have below : s.vm.stack = base.push f ++ args.toArray := by simp [hs]
  obtain ⟨us, vm₁, took, same, first⟩ := Gives.popAll below
  obtain ⟨u, vm₂, popped, same', second⟩ := Gives.pop (s := { s with vm := vm₁ }) first.stack
  rw [same] at took
  rw [same'] at popped
  refine ⟨vm₂, first.trans second, fun vs s' ran => ?_⟩
  have attempted : attempt (Machine.nested run (some none) f args) { s with vm := { vm₂ with running := 0 } } = .ok (.done vs) s' := by
    unfold attempt
    rw [ran]
  obtain ⟨vm', done, akin⟩ := Stack.onThread_done (s := { s with vm := vm₂ }) attempted
  refine ⟨vm', ?_, akin⟩
  unfold protectedCall
  simp only [Bind.bind, EStateM.bind, took, popped, done]
  rfl

end LuaHost.Lua

namespace LuaHost.Host

open Lua (M Vm Generation Sys Machine)
open Binding (Program Runtime)

variable {env : Env} {w w₁ : World} {vm vm₁ vm₂ : Vm} {m registry l : Nat} {routine : Routine}

/-! ## The function of a loader -/

/-- The function that is made out of a routine through a registry, once machine `m` has been given it. -/
def World.opener (w : World) (registry m : Nat) (routine : Routine) : Foreign :=
  ⟨routine, false, (w.registries.get registry).runtime, registry, (w.registries.get registry).reporter, w.machineOf registry, [m]⟩

theorem World.made_given (w : World) (registry m : Nat) (routine : Routine) (machines : Pool Slot) :
    ∃ foreigns trampolines, ({ w.made registry routine with machines } : World).give m (.foreign w.foreigns.size) =
        { w with machines, foreigns, trampolines } ∧
      foreigns.get w.foreigns.size = w.opener registry m routine ∧
      ∀ i, i < w.foreigns.size → foreigns.get i = w.foreigns.get i := by
  have made : ∃ trampolines, w.made registry routine = { w.added registry routine with trampolines } := by
    unfold World.made
    split <;> exact ⟨_, rfl⟩
  obtain ⟨trampolines, made⟩ := made
  rw [made]
  unfold World.give World.added
  dsimp only
  rw [Pool.get_add_self]
  refine ⟨_, trampolines, rfl, ?_, fun i hi => ?_⟩
  · rw [Pool.get_modify_self, Pool.get_add_self]
    rfl
  · rw [Pool.get_modify_ne _ (Nat.ne_of_lt hi), Pool.get_add_ne _ (Nat.ne_of_lt hi)]

theorem runWith_requires (runtime : Nat) {name : Text} {bytes : ByteArray} {f : Lua.Native}
    (since : (w.runtimes.get runtime).generation ≠ .v51) (named : encode name = .ok bytes) (hm : w.machines.get m = .open vm)
    (vm₁ : Vm) (performed : perform env (.main m) (.requireF bytes (.pointer f) true) (taken w m vm) = .ok .none { taken w₁ m vm₁ with vm := vm₂ }) :
    runWith runtime (some (.main m)) (fun r => Binding.Api.requireF r (.text name) (.pointer f) true) env w = .ok () (w₁.put m vm₂) := by
  have program : Binding.Api.requireF (w.runtimes.get runtime) (.text name) (.pointer f) true =
      .ask (.requireF bytes (.pointer f) true) fun _ => .done () := by
    unfold Binding.Api.requireF Binding.Api.nameBytes
    dsimp only
    rw [named]
    change (if _ then _ else _) = _
    rw [if_neg (by simpa using since)]
    rfl
  have asked := execute_ok (r := w.runtimes.get runtime) (c := .requireF bytes (.pointer f) true) (by simp) (by simp) rfl hm performed
  change runProgram (w.runtimes.get runtime) _ (Binding.Api.requireF (w.runtimes.get runtime) (.text name) (.pointer f) true) env w = _
  rw [program]
  exact (bind_ok asked).trans (congrArg (EStateM.Result.ok ()) (putBack_with w₁ m vm₁ vm₂))

/-- In world `w` machine `m` calls the function that was made out of a loader, with these arguments, and this is the
world in which it runs. -/
structure World.Offers (w : World) (m : Nat) (vm : Vm) (f : Foreign) (args : List Lua.Value) (W : World) : Prop where
  rest : ∃ machines foreigns trampolines kept,
    W = { w with machines, foreigns, trampolines, journal := .entered m w.foreigns.size kept :: w.journal }
  others : ∀ n, n ≠ m → W.machines.get n = w.machines.get n
  older : ∀ i, i < w.foreigns.size → W.foreigns.get i = w.foreigns.get i
  function : W.foreigns.get w.foreigns.size = f
  opened : ∃ vm', W.machines.get m = .open vm' ∧ vm.Akin vm' ∧ vm'.running = 0 ∧ vm'.stack = args.toArray

section Called

variable {j : Nat} {args : List Lua.Value} {handler : Option (Option Lua.Value)} {foreigns : Pool Foreign}
  {trampolines : List (Nat × List Lua.Native)}

/-- The world of a call from outside of a function that was just made. -/
theorem World.offers_called (hf : foreigns.get w.foreigns.size = w.opener registry m routine)
    (older : ∀ i, i < w.foreigns.size → foreigns.get i = w.foreigns.get i) (akin : vm.Akin vm₁) :
    w.Offers m vm (w.opener registry m routine) args (World.called m w.foreigns.size j handler args
      ⟨{ vm₁ with running := 0 }, { w with machines := w.machines.put m .busy, foreigns, trampolines }⟩) := by
  let s : Sys World := ⟨{ vm₁ with running := 0 }, { w with machines := w.machines.put m .busy, foreigns, trampolines }⟩
  obtain ⟨vm', hm', akin', running, stack⟩ := World.called_machine m w.foreigns.size j handler args s
  obtain ⟨v, eq⟩ := World.called_eq m w.foreigns.size j handler args s
  refine ⟨⟨_, _, _, _, eq⟩, fun n hn => ?_, fun i hi => ?_, ?_, vm', hm', (akin.course _ _ _).trans akin', running, stack⟩
  · rw [eq]
    exact (Pool.get_put_ne _ hn _).trans (Pool.get_put_ne _ hn _)
  · rw [eq]
    exact older i hi
  · rw [eq]
    exact hf

end Called

theorem World.runtimes_made (w : World) (registry : Nat) (routine : Routine) : (w.made registry routine).runtimes = w.runtimes := by
  unfold World.made
  split <;> rfl

theorem taken_made (w : World) (registry m : Nat) (routine : Routine) (vm : Vm) :
    ∃ foreigns trampolines, (taken (w.made registry routine) m vm).host.give m (.foreign w.foreigns.size) =
        { w with machines := w.machines.put m .busy, foreigns, trampolines } ∧
      foreigns.get w.foreigns.size = w.opener registry m routine ∧
      ∀ i, i < w.foreigns.size → foreigns.get i = w.foreigns.get i := by
  have host : (taken (w.made registry routine) m vm).host = { w.made registry routine with machines := w.machines.put m .busy } := by
    rw [taken, World.machines_made]
  rw [host]
  exact w.made_given registry m routine _

/-- A protected call whose results are dropped. -/
theorem runWith_drops {f : Lua.Value} {args : List Lua.Value} {base : Array Lua.Value} (env : Env) (runtime : Nat)
    (hm : w.machines.get m = .open vm) (hs : vm.stack = base ++ (f :: args).toArray) :
    ∃ vm₁, vm.Stacks base vm₁ ∧ ∀ us w₁ vm₂,
      Machine.nested (runner env m) (some none) f args (taken w m { vm₁ with running := 0 }) = .ok us (taken w₁ m vm₂) →
        ∃ vm', runWith runtime (some (.main m)) (fun _ => Binding.Api.pcall args.length 0 0) env w = .ok (.int 0) (w₁.put m vm') ∧
          vm₂.Akin vm' := by
  obtain ⟨vm₁, below, runs⟩ := Lua.Stack.protectedCall_drops (s := taken w m vm) hs (runner env m)
  have asked := runWith_call (w := w) env runtime (some (.main m)) (fun _ => .pcall args.length 0 0) id
  refine ⟨vm₁, below, fun us w₁ vm₂ ran => ?_⟩
  obtain ⟨vm', called, akin⟩ := runs us _ ran
  have performed : perform env (.main m) (.pcall args.length 0 0) (taken w m vm) = .ok (.int 0) { taken w₁ m vm₂ with vm := vm' } := by
    have run : perform env (.main m) (.pcall args.length 0 0) (taken w m vm) =
        (Lua.Stack.protectedCall (runner env m) 0 args.length (some 0) none >>= fun status =>
          (Pure.pure (Value.int (status.code vm.generation)) : M World Value)) (taken w m vm) := rfl
    rw [run]
    exact Lua.M.bind_done called
  rw [execute_ok (c := .pcall args.length 0 0) (by simp) (by simp) rfl hm performed] at asked
  exact ⟨vm', asked.trans (congrArg (EStateM.Result.ok (Value.int 0)) (putBack_with w₁ m vm₂ vm')), akin⟩

theorem World.give_beside (w : World) (m : Nat) (f : Lua.Native) (machines : Pool Slot) :
    ({ w with machines } : World).give m f = { w.give m f with machines } := by
  unfold World.give
  split <;> try split
  all_goals rfl

theorem taken_put (w : World) (m : Nat) (vm vm' : Vm) : taken (w.put m vm) m vm' = taken w m vm' := by
  simp only [taken, World.put, Pool.put_put]

/-- The function of a loader is pushed, and a name above it. -/
theorem pushes_opener (env : Env) (runtime : Nat) (hm : w.machines.get m = .open vm) (registry : Nat) (routine : Routine) (name : Value)
    {bytes : ByteArray} (named : sourceBytes name = .ok bytes) :
    ∃ j w₂ w₃ vm₃ foreigns trampolines,
      runWith runtime (some (.main m)) (fun _ => Binding.Api.pushCFunction (.pointer (.foreign w.foreigns.size))) env
        (w.made registry routine) = .ok () w₂ ∧
      runWith runtime (some (.main m)) (fun _ => Binding.Api.pushString name) env w₂ = .ok () w₃ ∧
      w₃.machines.get m = .open vm₃ ∧
      vm.Stacks (vm.stack ++ [Lua.Value.native (.foreign w.foreigns.size) j, .str bytes].toArray) vm₃ ∧
      (∀ vm', taken w₃ m vm' = ⟨vm', { w with machines := w.machines.put m .busy, foreigns, trampolines }⟩) ∧
      foreigns.get w.foreigns.size = w.opener registry m routine ∧
      ∀ i, i < w.foreigns.size → foreigns.get i = w.foreigns.get i := by
  have hm₀ : (w.made registry routine).machines.get m = .open vm := by rw [World.machines_made, hm]
  obtain ⟨j, vm₂, akin, natives, stack, function⟩ := runWith_pushFunction (t := .main m) env runtime (.foreign w.foreigns.size) hm₀
  obtain ⟨foreigns, trampolines, host, hf, older⟩ := w.made_given registry m routine (w.machines.put m .busy)
  rw [World.give_beside] at host
  have pushed : runWith runtime (some (.main m)) (fun _ => Binding.Api.pushString name) env _ = _ := runWith_pushString (t := .main m) runtime
    (World.get_put ((w.made registry routine).give m (.foreign w.foreigns.size)) m vm₂) named
  refine ⟨j, _, _, _, foreigns, trampolines, function, pushed, World.get_put _ _ _, ⟨akin.course _ _ _, natives, ?_⟩, fun vm' => ?_, hf, older⟩
  · have below : vm₂.stackOf 0 = (vm.stackOf 0).push (.native (.foreign w.foreigns.size) j) := stack
    refine (Lua.Vm.stackOf_pushed vm₂ 0 (.str bytes)).trans ?_
    rw [below, Array.push_eq_append, Array.push_eq_append, Array.append_assoc]
    rfl
  · have machines : w.machines = ((w.made registry routine).give m (.foreign w.foreigns.size)).machines := by
      rw [World.machines_give, World.machines_made]
    rw [← host, machines]
    exact (taken_put _ m _ vm').trans (taken_put _ m _ vm')

/-- What is done for an operation, but for the depth of the stack that the operation restores. -/
theorem guarded_puts {α : Type} (act : H α) {a : α} (runtime : Nat) (hm : w.machines.get m = .open vm) (small : vm.stack.size < 0x80000000)
    (ran : act env w = .ok a (w₁.put m vm₁)) :
    ∃ vm', guarded runtime (some (.main m)) act env w = .ok a (w₁.put m vm') ∧ vm₁.Akin vm' := by
  obtain ⟨w', settled, stirs⟩ := guarded_settles runtime hm small ran ⟨_, World.get_put _ _ _⟩
  obtain ⟨vm', rfl, akin, -⟩ := stirs vm₁ (World.get_put _ _ _)
  exact ⟨vm', by rw [settled, World.put_put], akin⟩

namespace State

variable {s : State} {depth : Nat} {name : Text} {bytes : ByteArray}

section Opening

variable (hs : s.machine = some m) (hm : w.machines.get m = .open vm) (small : vm.stack.size < 0x80000000)
  (few : vm.natives + 1 < Lua.nativeLimit)

include hs in
theorem openLib_enters (env : Env) (name : Value) (routine : Routine) : s.openLib name (.routine routine) env w =
    s.register (w.runtimes.get s.runtime) name (.foreign w.foreigns.size) env (w.made s.registry routine) := by
  have opens : s.openLib name (.routine routine) env w =
      (Registry.wrap s.registry routine >>= fun f => s.register (w.runtimes.get s.runtime) name f) env w := by
    unfold openLib
    rw [hs]
    rfl
  rw [opens, bind_ok (wrap_made routine)]

include hs hm small few

/-- Where the interface registers modules. -/
theorem openLib_registers (depth : Nat) (routine : Routine) (registers : (w.runtimes.get s.runtime).registers = true)
    (since : (w.runtimes.get s.runtime).generation ≠ .v51) (named : encode name = .ok bytes) (whole : upToNul bytes = bytes)
    (takes : vm.Takes l) (new : vm.generation.since .v53 = true → ((vm.tables.get l).get (.str bytes)).truthy = false) :
    ∃ W, w.Offers m vm (w.opener s.registry m routine) [.str bytes] W ∧
      ∀ n w₁ vm₁ (us : List Lua.Value) below, Gave ((w.opener s.registry m routine).call (.main m) ⟨nativesTo depth⟩ W) n w₁ →
        w₁.machines.get m = .open vm₁ → vm₁.stack = below ++ us.toArray → us.length = (int32 n).toNat → vm₁.Takes l →
        ∃ vm', s.openLib (.text name) (.routine routine) ⟨nativesTo (depth + 1)⟩ w = .ok () (w₁.put m vm') ∧
          (vm₁.registers l bytes (Lua.first us)).Akin vm' := by
  let env : Env := ⟨nativesTo (depth + 1)⟩
  let k := w.foreigns.size
  have hm₀ : (w.made s.registry routine).machines.get m = .open vm := by rw [World.machines_made, hm]
  obtain ⟨j, vm₂, akin, natives, -, given⟩ := given_runs m (.foreign k) (taken (w.made s.registry routine) m vm)
  obtain ⟨foreigns, trampolines, host, hf, older⟩ := taken_made w s.registry m routine vm
  rw [host] at given
  let s₀ : Sys World := ⟨vm₂, { w with machines := w.machines.put m .busy, foreigns, trampolines }⟩
  refine ⟨World.called m k j none [.str bytes] { s₀ with vm := { vm₂ with running := 0 } }, World.offers_called hf older akin,
    fun n w₁ vm₁ us below gave hm₁ left count takes₁ => ?_⟩
  have member : m ∈ (foreigns.get k).machines := by
    rw [hf]
    exact List.mem_singleton_self m
  rw [← hf] at gave
  obtain ⟨vm₃, nested, akin₃⟩ := nested_foreign (s := { s₀ with vm := { vm₂ with running := 0 } }) depth j _ none member (natives.symm ▸ few) gave
    hm₁ left count
  obtain ⟨vm₄, required, akin₄⟩ := Lua.Stack.require_runs (s := s₀) (services env m) (.native (.foreign k) j)
    (akin.takes takes) (by rw [akin.generation, akin.tables]; exact new) nested (akin₃.takes takes₁)
  have performed : perform env (.main m) (.requireF bytes (.pointer (.foreign k)) true) (taken (w.made s.registry routine) m vm) =
      .ok .none { taken w₁ m vm₃ with vm := vm₄ } := by
    have run : perform env (.main m) (.requireF bytes (.pointer (.foreign k)) true) (taken (w.made s.registry routine) m vm) =
        quiet (Host.given m (.foreign k) >>= fun v => Lua.Stack.require (services env m) 0 (upToNul bytes) v true)
          (taken (w.made s.registry routine) m vm) := rfl
    rw [run, whole]
    exact (Lua.M.bind_done ((Lua.M.bind_done given).trans required)).trans rfl
  have ran := runWith_requires (w := w.made s.registry routine) s.runtime (by rw [w.runtimes_made]; exact since) named hm₀
    vm₃ performed
  obtain ⟨vm', settled, akin'⟩ := guarded_puts _ s.runtime hm₀ small ran
  refine ⟨vm', ?_, ((akin₃.registers _ _ _).trans akin₄).trans akin'⟩
  rw [openLib_enters hs, register, handle_eq hs, registers, if_pos rfl]
  exact settled

/-- Where it does not, the function is pushed and called. -/
theorem openLib_pushes (depth : Nat) (routine : Routine) (pushes : (w.runtimes.get s.runtime).registers = false)
    (named : encode name = .ok bytes) :
    ∃ W, w.Offers m vm (w.opener s.registry m routine) [.str bytes] W ∧
      ∀ n w₁ vm₁ (us : List Lua.Value) below, Gave ((w.opener s.registry m routine).call (.main m) ⟨nativesTo depth⟩ W) n w₁ →
        w₁.machines.get m = .open vm₁ → vm₁.stack = below ++ us.toArray → us.length = (int32 n).toNat →
        ∃ vm', s.openLib (.text name) (.routine routine) ⟨nativesTo (depth + 1)⟩ w = .ok () (w₁.put m vm') ∧ vm₁.Akin vm' := by
  let env : Env := ⟨nativesTo (depth + 1)⟩
  obtain ⟨j, w₂, w₃, vm₃, foreigns, trampolines, function, pushed, hm₃, atop, host, hf, older⟩ :=
    pushes_opener env s.runtime hm s.registry routine (.text name) named
  obtain ⟨vm₄, below₄, drops⟩ := runWith_drops env s.runtime hm₃ atop.stack
  refine ⟨World.called m w.foreigns.size j (some none) [.str bytes] (taken w₃ m { vm₄ with running := 0 }), ?_, ?_⟩
  · rw [host]
    exact World.offers_called hf older (atop.toAkin.trans below₄.toAkin)
  intro n w₁ vm₁ us below gave hm₁ left count
  have function' : (taken w₃ m { vm₄ with running := 0 }).host.foreigns.get w.foreigns.size = w.opener s.registry m routine := by
    rw [host]
    exact hf
  have natives : vm₄.natives = vm.natives := below₄.natives.trans atop.natives
  obtain ⟨vm₅, nested, akin₅⟩ := nested_foreign (s := taken w₃ m { vm₄ with running := 0 }) depth j [.str bytes] (some none)
    (function' ▸ List.mem_singleton_self m) (natives ▸ few) (function' ▸ gave) hm₁ left count
  obtain ⟨vm₆, called, akin₆⟩ := drops us w₁ vm₅ nested
  have hm₀ : (w.made s.registry routine).machines.get m = .open vm := by rw [World.machines_made, hm]
  obtain ⟨vm', settled, akin'⟩ := guarded_puts (do
    runWith s.runtime (some (.main m)) fun _ => Binding.Api.pushCFunction (.pointer (.foreign w.foreigns.size))
    runWith s.runtime (some (.main m)) fun _ => Binding.Api.pushString (.text name)
    let status := Binding.Api.intOf (← runWith s.runtime (some (.main m)) fun _ => Binding.Api.pcall 1 0 0)
    if status != codeOf (w.runtimes.get s.runtime) .ok then
      let message ← runWith s.runtime (some (.main m)) fun r => Binding.Api.toText r (-1)
      H.debug ["open_lib", (Value.text name).plain, Binding.Runtime.statusName (w.runtimes.get s.runtime).generation status,
        message.getD "None"]) s.runtime hm₀ small ((bind_ok function).trans ((bind_ok pushed).trans (bind_ok called)))
  refine ⟨vm', ?_, (akin₅.trans akin₆).trans akin'⟩
  rw [openLib_enters hs, register, handle_eq hs, pushes, if_neg Bool.false_ne_true]
  exact settled

/-- Either way. -/
theorem openLib_runs (depth : Nat) (routine : Routine) (named : encode name = .ok bytes) (whole : upToNul bytes = bytes)
    (ready : (w.runtimes.get s.runtime).registers = true → (w.runtimes.get s.runtime).generation ≠ .v51 ∧ vm.Takes l ∧
      (vm.generation.since .v53 = true → ((vm.tables.get l).get (.str bytes)).truthy = false)) :
    ∃ W, w.Offers m vm (w.opener s.registry m routine) [.str bytes] W ∧
      ∀ n w₁ vm₁ (us : List Lua.Value) below, Gave ((w.opener s.registry m routine).call (.main m) ⟨nativesTo depth⟩ W) n w₁ →
        w₁.machines.get m = .open vm₁ → vm₁.stack = below ++ us.toArray → us.length = (int32 n).toNat →
        ((w.runtimes.get s.runtime).registers = true → vm₁.Takes l) →
        ∃ vm', s.openLib (.text name) (.routine routine) ⟨nativesTo (depth + 1)⟩ w = .ok () (w₁.put m vm') ∧
          (vm₁.registered (w.runtimes.get s.runtime).registers l bytes (Lua.first us)).Akin vm' ∧ vm'.stack = vm.stack := by
  have restores {w' : World} {vm' : Vm} (run : s.openLib (.text name) (.routine routine) ⟨nativesTo (depth + 1)⟩ w = .ok () (w'.put m vm')) :
      vm'.stack = vm.stack := by
    have left : Leaves _ _ (s.openLib (.text name) (.routine routine) ⟨nativesTo (depth + 1)⟩ w) :=
      State.openLib_neutral hs (.text name) (.routine routine) (T := fun _ => True) (fun _ _ => trivial) small ⟨vm, hm, rfl⟩
    rw [run] at left
    obtain ⟨vm'', hm'', same⟩ := left
    cases (World.get_put w' m vm').symm.trans hm''
    exact same
  unfold Lua.Vm.registered
  cases registers : (w.runtimes.get s.runtime).registers with
  | true =>
    obtain ⟨since, takes, new⟩ := ready registers
    obtain ⟨W, offers, runs⟩ := openLib_registers hs hm small few depth routine registers since named whole takes new
    refine ⟨W, offers, fun n w₁ vm₁ us below gave hm₁ left count takes₁ => ?_⟩
    obtain ⟨vm', run, akin⟩ := runs n w₁ vm₁ us below gave hm₁ left count (takes₁ rfl)
    exact ⟨vm', run, akin, restores run⟩
  | false =>
    obtain ⟨W, offers, runs⟩ := openLib_pushes hs hm small few depth routine registers named
    refine ⟨W, offers, fun n w₁ vm₁ us below gave hm₁ left count _ => ?_⟩
    obtain ⟨vm', run, akin⟩ := runs n w₁ vm₁ us below gave hm₁ left count
    exact ⟨vm', run, akin, restores run⟩

end Opening
end State
end LuaHost.Host
