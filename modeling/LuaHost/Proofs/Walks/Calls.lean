import LuaHost.Proofs.Walks.Assignments

set_option autoImplicit false

/-!
# Calls through selectors

A call hands the values of the arguments to the function that was found, in order, and gives what the results
are for the host, in order.
-/

namespace LuaHost.Lua

open Stack (Attempt)

variable {σ : Type} {run : Machine → M σ Outcome} {s s' : Sys σ} {f : Value} {args vs : List Value} {handler : Option (Option Value)}

/-! ## Protected calls of any function -/

/-- A call from outside leaves the stack as it was. -/
theorem Machine.nested_stack (run : Machine → M σ Outcome) (f : Value) (args : List Value) (main : s.vm.running = 0) :
    (Host.final (Machine.nested run (some none) f args s)).vm.stack = s.vm.stack := by
  have restored (vm : Vm) (running natives : Nat) (th : Thread → Thread) (h : ∀ t, (th t).stack = s.vm.stack) :
      ({ vm with running, natives, threads := vm.threads.modify 0 th } : Vm).stack = s.vm.stack := by
    rw [Vm.stack]
    dsimp only
    rw [Pool.get_modify_self, h]
  unfold Machine.nested
  simp only [M.vm, M.thread, M.modifyVm, Bind.bind, EStateM.bind, main]
  split
  · next outcome u ran =>
    split
    · exact restored _ _ _ _ fun _ => rfl
    · exact restored _ _ _ _ fun _ => rfl
  · exact restored _ _ _ _ fun _ => rfl

theorem Stack.attempt_stack {r : Attempt (List Value)} (main : s.vm.running = 0)
    (h : attempt (Machine.nested run (some none) f args) s = .ok r s') : s'.vm.stack = s.vm.stack := by
  have kept := Machine.nested_stack run f args main
  unfold attempt at h
  split at h
  · next ran =>
    rw [ran] at kept
    cases h
    exact kept
  · next ran =>
    rw [ran] at kept
    cases h
    exact kept
  · next ran =>
    rw [ran] at kept
    cases h
    exact kept
  · cases h

/-- Calling a function from outside on the main thread, whatever thread runs. -/
def Machine.outside (run : Machine → M σ Outcome) (f : Value) (args : List Value) : M σ (Attempt (List Value)) :=
  Stack.onThread 0 (Stack.attempt (Machine.nested run (some none) f args))

/-! ## Calls from outside on the running thread -/

/-- A machine on whose running thread a call from outside has begun. -/
def Vm.begins (vm : Vm) (handler : Option (Option Value)) : Vm :=
  { vm with
    natives := vm.natives + 1
    threads := vm.threads.modify vm.running fun th =>
      { th with
        konts := .nativeStart (vm.threads.get vm.running).stack (vm.threads.get vm.running).handler :: (vm.threads.get vm.running).konts
        stack := #[], handler := handler.getD (vm.threads.get vm.running).handler } }

/-- How the call begins. -/
def Machine.begins (vm : Vm) (f : Value) (args : List Value) : Machine :=
  ⟨vm.running, .outside (vm.natives + 1), .apply f args (.native (.outside (vm.natives + 1))),
    .nativeStart (vm.threads.get vm.running).stack (vm.threads.get vm.running).handler :: (vm.threads.get vm.running).konts⟩

/-- The machine after the call, whose thread goes on as it was in `vm`. -/
def Vm.ends (vm after : Vm) : Vm :=
  { after with
    running := vm.running, natives := vm.natives
    threads := after.threads.modify vm.running fun th =>
      { th with
        konts := (vm.threads.get vm.running).konts, stack := (vm.threads.get vm.running).stack
        room := (vm.threads.get vm.running).room, handler := (vm.threads.get vm.running).handler } }

theorem Vm.akin_begins (vm : Vm) (handler : Option (Option Value)) : vm.Akin (vm.begins handler) := (Vm.Akin.refl vm).course _ _ _

theorem Vm.akin_ends (vm after : Vm) : after.Akin (vm.ends after) := (Vm.Akin.refl after).course _ _ _

/-- What is left of a call, when its run has ended. -/
def Vm.endsOf (vm : Vm) : EStateM.Result Signal (Sys σ) Outcome → EStateM.Result Signal (Sys σ) (List Value)
  | .ok (.returned vs) s => .ok vs { s with vm := vm.ends s.vm }
  | .ok (.yielded vs _) s => .ok vs { s with vm := vm.ends s.vm }
  | .error e s => .error e { s with vm := vm.ends s.vm }

/-- A call that can begin is the run that it begins, in between. -/
theorem Machine.nested_eq (shallow : s.vm.Shallow) : Machine.nested run handler f args s =
    s.vm.endsOf (run (.begins s.vm f args) { s with vm := s.vm.begins handler }) := by
  have fits : ¬ nativeLimit + 20 < s.vm.natives + 1 := Nat.not_lt.mpr shallow
  unfold Machine.nested
  simp only [M.vm, M.thread, M.modifyVm, Bind.bind, EStateM.bind, fits, if_false]
  split
  · next outcome u ran =>
    rw [show run (.begins s.vm f args) { s with vm := s.vm.begins handler } = .ok outcome u from ran]
    cases outcome <;> rfl
  · next e u ran =>
    rw [show run (.begins s.vm f args) { s with vm := s.vm.begins handler } = .error e u from ran]
    rfl

/-- A call for which too much is going on does not begin. -/
theorem Machine.nested_deep (deep : ¬ s.vm.Shallow) : Machine.nested run handler f args s =
    .error (.unwinding .errErr (Value.ofString "error in error handling")) { s with vm := s.vm.ends (s.vm.begins handler) } := by
  have full : nativeLimit + 20 < s.vm.natives + 1 := Nat.lt_succ_of_le (Nat.not_lt.mp deep)
  unfold Machine.nested
  simp only [M.vm, M.thread, M.modifyVm, Bind.bind, EStateM.bind, full, if_true]
  rfl

theorem Machine.nested_done (shallow : s.vm.Shallow)
    (ran : run (.begins s.vm f args) { s with vm := s.vm.begins handler } = .ok (.returned vs) s') :
    Machine.nested run handler f args s = .ok vs { s' with vm := s.vm.ends s'.vm } := by
  rw [nested_eq shallow, ran]
  rfl

/-- Calls are the same if what they begin runs the same. -/
theorem Machine.nested_congr {run' : Machine → M σ Outcome} {f' : Value} {args' : List Value}
    (same : run (.begins s.vm f args) { s with vm := s.vm.begins handler } = run' (.begins s.vm f' args') { s with vm := s.vm.begins handler }) :
    Machine.nested run handler f args s = Machine.nested run' handler f' args' s := by
  by_cases shallow : s.vm.Shallow
  · rw [nested_eq shallow, nested_eq shallow, same]
  · rw [nested_deep shallow, nested_deep shallow]

theorem Stack.onThread_eq {α : Type} (act : M σ α) (main : s.vm.running = 0) : Stack.onThread 0 act s = act s := by
  unfold Stack.onThread
  simp only [M.vm, Bind.bind, EStateM.bind]
  rw [if_pos (beq_iff_eq.mpr main)]

section Other

variable {α : Type} {act : M σ α} {a : α} (other : s.vm.running ≠ 0)

include other

theorem Stack.onThread_runs {u : Sys σ} (h : act { s with vm := { s.vm with running := 0 } } = .ok a u) :
    Stack.onThread 0 act s = .ok a { u with vm := { u.vm with running := s.vm.running } } := by
  unfold Stack.onThread
  simp only [M.vm, Bind.bind, EStateM.bind]
  rw [if_neg fun same => other (beq_iff_eq.mp same)]
  simp only [M.modifyVm, EStateM.bind, h]

theorem Stack.onThread_fails {x : Signal} {u : Sys σ} (h : act { s with vm := { s.vm with running := 0 } } = .error x u) :
    Stack.onThread 0 act s = .error x { u with vm := { u.vm with running := s.vm.running } } := by
  unfold Stack.onThread
  simp only [M.vm, Bind.bind, EStateM.bind]
  rw [if_neg fun same => other (beq_iff_eq.mp same)]
  simp only [M.modifyVm, EStateM.bind, h]

theorem Stack.onThread_ok (h : Stack.onThread 0 act s = .ok a s') :
    ∃ u, act { s with vm := { s.vm with running := 0 } } = .ok a u ∧ s' = { u with vm := { u.vm with running := s.vm.running } } := by
  cases ran : act { s with vm := { s.vm with running := 0 } } with
  | ok b u =>
    cases (Stack.onThread_runs other ran).symm.trans h
    exact ⟨u, rfl, rfl⟩
  | error e u => cases (Stack.onThread_fails other ran).symm.trans h

end Other

theorem Machine.outside_stack {r : Attempt (List Value)} (h : Machine.outside run f args s = .ok r s') : s'.vm.stack = s.vm.stack := by
  by_cases main : s.vm.running = 0
  · exact Stack.attempt_stack main ((Stack.onThread_eq _ main).symm.trans h)
  · obtain ⟨u, ran, rfl⟩ := Stack.onThread_ok main h
    have kept : u.vm.stack = s.vm.stack := Stack.attempt_stack (s := { s with vm := { s.vm with running := 0 } }) rfl ran
    exact kept

/-- What a protected call that keeps so many results, or all, leaves on the stack, with its status. -/
def leftAs (wanted : Option Nat) : Attempt (List Value) → Status × List Value
  | .done vs => (.ok, match wanted with
    | some n => adjust n vs
    | none => vs)
  | .failed status v => (status, [v])

theorem Gives.leaveResults (wanted : Option Nat) (vs : List Value) :
    Gives s (Stack.leaveResults 0 wanted vs) fun _ vm => s.vm.Stacks (s.vm.stack ++ (leftAs wanted (.done vs)).2.toArray) vm := by
  cases wanted with
  | some n => exact .pushAll (adjust n vs)
  | none =>
    have kept (f : Thread → Thread) (same : (f (s.vm.threads.get 0)).stack = s.vm.stack) :
        Gives s (M.modifyThread 0 f) fun _ vm => s.vm.Stacks s.vm.stack vm := .modifyThread f same
    refine .bind (kept _ rfl) fun _ vm room => ?_
    refine (Gives.pushAll vs).imp fun _ vm' all => room.trans ?_
    rw [← room.stack]
    exact all

/-- A protected call takes the function and its arguments from the stack, calls the function with exactly these
arguments, and leaves what it gives. -/
theorem Stack.protectedCall_runs {base : Array Value} (hs : s.vm.stack = base ++ (f :: args).toArray) (run : Machine → M σ Outcome)
    (wanted : Option Nat) :
    ∃ vm, s.vm.Stacks base vm ∧
      (∀ r s', Machine.outside run f args { s with vm } = .ok r s' →
        ∃ vm', protectedCall run 0 args.length wanted none s = .ok (leftAs wanted r).1 { s' with vm := vm' } ∧
          s'.vm.Stacks (base ++ (leftAs wanted r).2.toArray) vm') ∧
      ∀ x s', Machine.outside run f args { s with vm } = .error x s' → protectedCall run 0 args.length wanted none s = .error x s' := by
  have below : s.vm.stack = base.push f ++ args.toArray := by simp [hs]
  obtain ⟨us, vm₁, took, same, first⟩ := Gives.popAll below
  obtain ⟨u, vm₂, popped, same', second⟩ := Gives.pop (s := { s with vm := vm₁ }) first.stack
  rw [same] at took
  rw [same'] at popped
  refine ⟨vm₂, first.trans second, fun r s' ran => ?_, fun x s' ran => ?_⟩
  rotate_left
  · unfold Machine.outside at ran
    unfold protectedCall
    simp only [Bind.bind, EStateM.bind, took, popped, ran]
  have stack : s'.vm.stack = base := (Machine.outside_stack ran).trans second.stack
  unfold Machine.outside at ran
  cases r with
  | done vs =>
    obtain ⟨_, vm₃, left, all⟩ := Gives.leaveResults (s := s') wanted vs
    rw [stack] at all
    refine ⟨vm₃, ?_, all⟩
    unfold protectedCall
    simp only [Bind.bind, EStateM.bind, took, popped, ran, left]
    rfl
  | failed status v =>
    obtain ⟨_, vm₃, pushed, all⟩ := Gives.push (s := s') v
    refine ⟨vm₃, ?_, ?_⟩
    · unfold protectedCall
      simp only [Bind.bind, EStateM.bind, took, popped, ran, pushed]
      rfl
    · rw [stack, Array.push_eq_append] at all
      exact all

end LuaHost.Lua

namespace LuaHost.Host

open Lua (M Vm Generation)

variable {g : Generation} {env : Env} {w w' : World} {vm vm' : Vm} {m registry runtime : Nat} {base : Array Lua.Value} {f : Lua.Value}

/-! ## Calls of what is below its arguments -/

/-- How many results are kept: so many, or all. -/
def wantedOf (results : Int) : Option Nat := if results < 0 then none else some results.toNat

theorem Perform.pcall_runs {s : Lua.Sys World} {args : List Lua.Value} (hs : s.vm.stack = base ++ (f :: args).toArray) (env : Env)
    (results : Int) :
    ∃ vm, s.vm.Stacks base vm ∧
      (∀ r s', Lua.Machine.outside (runner env m) f args { s with vm } = .ok r s' →
        ∃ vm', perform env (.main m) (.pcall args.length results 0) s =
            .ok (.int ((Lua.leftAs (wantedOf results) r).1.code s.vm.generation)) { s' with vm := vm' } ∧
          s'.vm.Stacks (base ++ (Lua.leftAs (wantedOf results) r).2.toArray) vm') ∧
      ∀ x s', Lua.Machine.outside (runner env m) f args { s with vm } = .error x s' →
        perform env (.main m) (.pcall args.length results 0) s = .error x s' := by
  obtain ⟨vm, below, runs, fails⟩ := Lua.Stack.protectedCall_runs hs (runner env m) (wantedOf results)
  have run : perform env (.main m) (.pcall args.length results 0) s =
      (Lua.Stack.protectedCall (runner env m) 0 args.length (wantedOf results) none >>= fun status =>
        (Pure.pure (Value.int (status.code s.vm.generation)) : M World Value)) s := rfl
  refine ⟨vm, below, fun r s' ran => ?_, fun x s' ran => ?_⟩
  · obtain ⟨vm', called, left⟩ := runs r s' ran
    refine ⟨vm', ?_, left⟩
    rw [run]
    simp only [Bind.bind, EStateM.bind, called]
    rfl
  · rw [run]
    simp only [Bind.bind, EStateM.bind, fails x s' ran]

/-- A protected call: the function is called with exactly the arguments, and what it gives is left in their place. -/
theorem runWith_outside {args : List Lua.Value} (env : Env) (runtime : Nat) (results : Int) (hm : w.machines.get m = .open vm)
    (hs : vm.stack = base ++ (f :: args).toArray) :
    ∃ vm₁, vm.Stacks base vm₁ ∧
      (∀ r s', Lua.Machine.outside (runner env m) f args (taken w m vm₁) = .ok r s' →
        ∃ vm', runWith runtime (some (.main m)) (fun _ => Binding.Api.pcall args.length results 0) env w =
            .ok (.int ((Lua.leftAs (wantedOf results) r).1.code vm.generation)) (putBack { s' with vm := vm' } m) ∧
          s'.vm.Stacks (base ++ (Lua.leftAs (wantedOf results) r).2.toArray) vm') ∧
      ∀ x s', Lua.Machine.outside (runner env m) f args (taken w m vm₁) = .error (.fault x) s' →
        runWith runtime (some (.main m)) (fun _ => Binding.Api.pcall args.length results 0) env w =
          .error (.signal (.fault x)) (putBack s' m) := by
  obtain ⟨vm₁, below, runs, fails⟩ := Perform.pcall_runs (s := taken w m vm) (m := m) hs env results
  have asked := runWith_call (w := w) env runtime (some (.main m)) (fun _ => .pcall args.length results 0) id
  refine ⟨vm₁, below, fun r s' ran => ?_, fun x s' ran => ?_⟩
  · obtain ⟨vm', performed, left⟩ := runs r s' ran
    rw [execute_ok (c := .pcall _ _ _) nofun nofun rfl hm performed] at asked
    exact ⟨vm', asked, left⟩
  · rw [execute_fault (c := .pcall _ _ _) nofun nofun rfl hm (fails _ s' ran)] at asked
    exact asked

theorem PushedAll.length {t : Handle} {vs : List Value} {us : List Lua.Value} (h : PushedAll registry t w vs us w') :
    vs.length = us.length := by
  induction h with
  | nil => rfl
  | cons _ _ _ _ ih => rw [List.length_cons, List.length_cons, ih]

/-- Pushing changes of a machine nothing but the stack. -/
theorem Pushed.opened {t : Handle} {v : Value} {u : Lua.Value} (h : Pushed registry t vm w v u w') :
    ∃ vm', w'.machines.get t.machine = .open vm' ∧ vm.Akin vm' ∧ vm'.natives = vm.natives := by
  cases h with
  | data _ => exact ⟨_, World.get_put _ _ _, (Lua.Vm.Akin.refl vm).course _ _ _, rfl⟩
  | reference _ => exact ⟨_, World.get_put _ _ _, (Lua.Vm.Akin.refl vm).course _ _ _, rfl⟩
  | function _ akin natives _ => exact ⟨_, World.get_put _ _ _, akin, natives⟩

theorem PushedAll.opened {t : Handle} {vs : List Value} {us : List Lua.Value} (h : PushedAll registry t w vs us w')
    (hm : w.machines.get t.machine = .open vm) :
    ∃ vm', w'.machines.get t.machine = .open vm' ∧ vm.Akin vm' ∧ vm'.natives = vm.natives ∧
      vm'.stackOf t.thread = vm.stackOf t.thread ++ us.toArray := by
  suffices kept : ∃ vm', w'.machines.get t.machine = .open vm' ∧ vm.Akin vm' ∧ vm'.natives = vm.natives by
    obtain ⟨vm', hm', akin, natives⟩ := kept
    obtain ⟨vm₁, hm₁, stack⟩ := h.stack hm
    cases hm₁.symm.trans hm'
    exact ⟨vm', hm', akin, natives, stack⟩
  induction h generalizing vm with
  | nil w => exact ⟨vm, hm, .refl vm, rfl⟩
  | cons hm' pushed _ _ ih =>
    cases hm'.symm.trans hm
    obtain ⟨vm₁, hm₁, akin, natives⟩ := pushed.opened
    obtain ⟨vm', hm', akin', natives'⟩ := ih hm₁
    exact ⟨vm', hm', akin.trans akin', natives'.trans natives⟩

namespace Selector

variable {s : Selector} {t : Handle}

/-! ## The parts of a call -/

/-- Calls the function below the arguments, and takes what it gives from above a depth. -/
def conclude (s : Selector) (rt : Binding.Runtime) (count : Nat) (base : Int) : H Value := do
  let status := Binding.Api.intOf (← runWith s.runtime s.handle fun _ => Binding.Api.pcall count Binding.allResults 0)
  if status != codeOf rt .ok then
    reportTop s.reporter status s.runtime s.handle
    return .none
  let top := Binding.Api.intOf (← runWith s.runtime s.handle fun _ => Binding.Api.getTop)
  return gather (← s.results (top - base).toNat (base + 1))

/-- Calls the function on top. -/
def invoke (s : Selector) (rt : Binding.Runtime) (args : List Value) : H Value := do
  discard (runWith s.runtime s.handle fun _ => Binding.Api.checkStack (args.length + 1))
  let base := Binding.Api.intOf (← runWith s.runtime s.handle fun _ => Binding.Api.getTop) - 1
  s.pushAll args
  s.conclude rt args.length base

/-- Calls what has been found. -/
def apply (s : Selector) (rt : Binding.Runtime) (args : List Value) : Option Int → H Value
  | none => return .none
  | some _ => s.invoke rt args

theorem call_eq (machine : s.machine = some m) (args : List Value) :
    s.call args = (H.runtime s.runtime >>= fun rt => s.guard (s.push s.chain >>= s.apply rt args)) := by
  unfold call
  rw [machine]
  refine congrArg (H.runtime s.runtime >>= ·) (funext fun rt => ?_)
  refine congrArg s.guard (congrArg (s.push s.chain >>= ·) (funext fun found => ?_))
  cases found with
  | none => rfl
  | some tag => rfl

/-! ## Arguments -/

/-- The arguments are pushed, up to the first that is refused, which is raised. -/
theorem pushAll_pushed (env : Env) (handle : s.handle = some t) (vs : List Value) (hm : w.machines.get t.machine = .open vm)
    (hg : ∀ id, (w.runtimes.get (w.registries.get id).runtime).generation = vm.generation) :
    (∃ us w', PushedAll s.registry t w vs us w' ∧ s.pushAll vs env w = .ok () w') ∨
      ∃ before v after us e w', vs = before ++ v :: after ∧ PushedAll s.registry t w before us w' ∧ Refuses w' v e ∧
        s.pushAll vs env w = .error (.failure e) w' := by
  induction vs generalizing w vm with
  | nil => exact .inl ⟨[], w, .nil w, rfl⟩
  | cons v vs ih =>
    have run : s.pushAll (v :: vs) env w = (pushHost s.runtime (some t) v (some s.registry) >>= fun _ => s.pushAll vs : H Unit) env w := by
      rw [← handle]
      rfl
    rw [run]
    obtain ⟨u, w₁, pushed, done⟩ | ⟨e, refused⟩ := pushHost_pushed env s.runtime s.registry v hm hg
    · have free (e : Failure) (refused : Refuses w v e) : False := by
        cases done.symm.trans (refused.error s.runtime (some t) (some s.registry) env)
      have level := pushed.level hm
      obtain ⟨vm₁, hm₁, alike⟩ := level.opened _ vm hm
      have hg₁ : ∀ id, (w₁.runtimes.get (w₁.registries.get id).runtime).generation = vm₁.generation := by
        obtain ⟨_, _, _, rfl⟩ := level.rest
        exact fun id => (hg id).trans alike.generation.symm
      rw [bind_ok done]
      obtain ⟨us, w', rest, run⟩ | ⟨before, v', after, us, e, w', rfl, rest, refused, run⟩ := ih hm₁ hg₁
      · exact .inl ⟨u :: us, w', .cons hm pushed free rest, run⟩
      · exact .inr ⟨v :: before, v', after, u :: us, e, w', rfl, .cons hm pushed free rest, refused, run⟩
    · exact .inr ⟨[], v, vs, [], e, w, rfl, .nil w, refused,
        bind_error (refused.error s.runtime (some t) (some s.registry) env)⟩

/-! ## Results -/

/-- A function of the host whose arguments are converted as the results for a selector are. -/
def asForeign (s : Selector) : Foreign := { (default : Foreign) with runtime := s.runtime, registry := s.registry }

theorem results_eq (handle : s.handle = some t) (n : Nat) (i : Int) : s.results n i = arguments s.asForeign t n i := by
  induction n generalizing i with
  | zero => rfl
  | succ n ih =>
    unfold results arguments
    rw [handle]
    refine congrArg (toHost s.runtime (some t) i (some s.registry) >>= ·) (funext fun v => ?_)
    rw [ih]

/-- What a call gives for the values that its function gave: nothing, the only one, or all of them in order. Each is a copy,
or a new reference, which holds the value. -/
inductive Collects (m : Nat) (s : Selector) (r : Binding.Runtime) (rs : List Lua.Value) : Value → World → Prop where
  | intro {n : Nat} {vs : List Value} {pins : List Pin} {w' : World} (values : vs = received r n rs)
    (references : pins.map Pin.id = referencesOfAll vs) (pinned : pins.map Pin.value = rs.filter fun v => (copied r v).isNone)
    (held : ∀ p ∈ pins, w'.references.get p.id = ⟨s.registry, p.slot⟩ ∧ allocated m p.slot w'.journal = some p.value) :
    Collects m s r rs (gather vs) w'

theorem Collects.of_received {rs : List Lua.Value} {vs : List Value} {pins : List Pin} (h : Received s.asForeign (.main m) w rs vs pins w')
    (hr : Reliable g w'.journal) : s.Collects m (w.runtimes.get s.runtime) rs (gather vs) w' :=
  .intro h.eq_received h.references.symm h.values fun p hp => ⟨(h.newer p hp).2.2.1, h.taken hr p hp⟩

/-- What is said of references and of what they hold does not depend on machines. -/
theorem Collects.stirs {r : Binding.Runtime} {rs : List Lua.Value} {v : Value} {w'' : World} (h : s.Collects m r rs v w')
    (stirs : w'.Stirs m w'') (opened : w'.Open m) : s.Collects m r rs v w'' := by
  obtain ⟨vm, hm⟩ := opened
  obtain ⟨vm', rfl, -⟩ := stirs vm hm
  cases h with
  | intro values references pinned held => exact .intro values references pinned held

section Lawful

variable (he : env.Follows) (lawful : w.Lawful g) (handle : s.handle = some (.main m))
  (generation : (w.runtimes.get s.runtime).generation = g) (hm : w.machines.get m = .open vm)

include he lawful handle generation hm

/-- The results of the function are collected, unless no slot is left. -/
theorem conclude_gives {args : List Lua.Value} (goes : s.Goes w) (hs : vm.stack = base ++ (f :: args).toArray) (rt : Binding.Runtime) :
    ∃ vm₁, vm.Stacks base vm₁ ∧
      (∀ rs s', Lua.Machine.outside (runner env m) f args (taken w m vm₁) = .ok (.done rs) s' →
        (∃ es, (final (s.conclude rt args.length base.size env w)).journal = es ++ s'.host.journal) ∧
        (base.size + rs.length < 0x80000000 →
          Ended (fun v w' => w'.Open m ∧ ∃ vs pins vm', v = gather vs ∧ s'.host.runtimes = w.runtimes ∧
              Received s.asForeign (.main m) (putBack { s' with vm := vm' } m) rs vs pins w')
            (fun _ _ => False) (s.conclude rt args.length base.size env w))) ∧
      ∀ s', Lua.Machine.outside (runner env m) f args (taken w m vm₁) = .error (.fault .registryFull) s' →
        s.conclude rt args.length base.size env w = .error (.signal (.fault .registryFull)) (putBack s' m) := by
  obtain ⟨vm₁, below, runs, fails⟩ := runWith_outside env s.runtime Binding.allResults hm hs
  refine ⟨vm₁, below, fun rs s' ran => ?_, fun s' ran => ?_⟩
  rotate_left
  · unfold conclude
    rw [handle]
    exact bind_error (fails _ s' ran)
  obtain ⟨vm', called, left⟩ := runs _ s' ran
  have hm' : (putBack { s' with vm := vm' } m).machines.get m = .open vm' := Pool.get_put_self _ _ _
  have stack : vm'.stack = base ++ rs.toArray := left.stack
  have depth : (vm'.threads.get 0).stack.size = base.size + rs.length := by
    change vm'.stack.size = _
    rw [stack]
    simp
  -- the call has made moves, so the runtime still goes with the machine
  have moves : Moves w (putBack { s' with vm := vm' } m) := by
    have leads : Leads env w (runWith s.runtime (some (.main m)) fun _ => Binding.Api.pcall args.length Binding.allResults 0) :=
      .runWith _ _ fun _ => Ordinary.pcall _ _ _
    have led := leads.after he lawful.toSound w .refl
    rwa [called] at led
  have hg : ((putBack { s' with vm := vm' } m).runtimes.get s.asForeign.runtime).generation = vm'.generation := by
    rw [moves.continues.runtimes]
    exact generation.trans ((moves.lawful lawful).generations m vm' hm').symm
  have top : runWith s.runtime (some (.main m)) (fun _ => Binding.Api.getTop) env (putBack { s' with vm := vm' } m) =
      .ok (.int ((vm'.threads.get 0).stack.size : Int)) (putBack { s' with vm := vm' } m) := runWith_getTop (t := .main m) env s.runtime hm'
  have good : ¬ (Binding.Api.intOf (.int (Lua.Status.code vm.generation (Lua.leftAs (wantedOf Binding.allResults) (.done rs)).1)) != codeOf rt .ok) = true := by
    rw [bne_iff_ne, Decidable.not_not]
    rfl
  have count : (Binding.Api.intOf (.int ((vm'.threads.get 0).stack.size : Int)) - (base.size : Int)).toNat = rs.length := by
    change (((vm'.threads.get 0).stack.size : Int) - (base.size : Int)).toNat = rs.length
    rw [depth]
    omega
  have next : (base.size : Int) + 1 = ((base.toList.length + 1 : Nat) : Int) := by
    rw [Array.length_toList]
    exact (Int.natCast_succ _).symm
  have run : s.conclude rt args.length base.size env w =
      (s.results rs.length (base.size + 1) >>= fun vs => Pure.pure (gather vs) : H Value) env (putBack { s' with vm := vm' } m) := by
    unfold conclude
    rw [handle, bind_ok called, if_neg good]
    refine (bind_ok top).trans ?_
    rw [count]
  rw [run, results_eq handle, next]
  constructor
  · rw [← next, ← results_eq handle]
    have goes' : s.Goes (putBack { s' with vm := vm' } m) := fun n hn => moves.continues.pairs (goes n hn)
    have led := (Leads.bind (.results goes' rs.length (base.size + 1)) fun vs => .pure (gather vs)).after he (moves.sound lawful.toSound) _ .refl
    obtain ⟨es, journal, -⟩ := led.continues.journal
    exact ⟨es, journal⟩
  intro small
  let w₁ : World := putBack { s' with vm := vm' } m
  have whole : vm'.stack.toList = base.toList ++ rs := by
    rw [stack]
    simp
  have receives : (∃ vs pins w', arguments s.asForeign (.main m) rs.length ((base.toList.length + 1 : Nat) : Int) env w₁ = .ok vs w' ∧
        Received s.asForeign (.main m) w₁ rs vs pins w') ∨
      ∃ w', arguments s.asForeign (.main m) rs.length ((base.toList.length + 1 : Nat) : Int) env w₁ =
        .error (.signal (.fault .registryFull)) w' :=
    arguments_received hm' hg whole (by rw [List.length_append, Array.length_toList]; exact small)
  obtain ⟨vs, pins, w', gave, received⟩ | ⟨w', full⟩ := receives
  · obtain ⟨vm'', hm'', -⟩ := received.opened hm'
    rw [bind_ok gave]
    exact .back ⟨⟨vm'', hm''⟩, vs, pins, vm', rfl, moves.continues.runtimes, received⟩
  · rw [bind_error full]
    exact .full

omit he lawful generation in
theorem invoke_enters (env : Env) (top : vm.stack = base.push f) (rt : Binding.Runtime) (args : List Value) :
    ∃ vm₀, vm.Stacks vm.stack vm₀ ∧
      s.invoke rt args env w = (s.pushAll args >>= fun _ => s.conclude rt args.length base.size : H Value) env (w.put m vm₀) := by
  obtain ⟨_, vm₀, roomy, room⟩ := runWith_room env s.runtime (args.length + 1) hm
  refine ⟨vm₀, room, ?_⟩
  have depth : Binding.Api.intOf (.int ((vm₀.threads.get 0).stack.size : Int)) - 1 = base.size := by
    change ((vm₀.stack.size : Int)) - 1 = base.size
    rw [room.stack, top, Array.size_push]
    omega
  have asked : runWith s.runtime (some (.main m)) (fun _ => Binding.Api.getTop) env (w.put m vm₀) =
      .ok (.int ((vm₀.threads.get 0).stack.size : Int)) (w.put m vm₀) := runWith_getTop (t := .main m) env s.runtime (World.get_put w m vm₀)
  unfold invoke
  rw [handle, bind_ok (discard_ok roomy)]
  refine (bind_ok asked).trans ?_
  rw [depth]

end Lawful

/-- The arguments of a call have been pushed as what they are on the machine. The call takes the function and them from
the stack. -/
structure Handed (g : Generation) (m : Nat) (w : World) (vm : Vm) (base : Array Lua.Value) (args : List Value) (us : List Lua.Value)
    (w' : World) (vm' : Vm) : Prop where
  moves : Moves w w'
  denotes : List.Forall₂ (Denotes g m w w') args us
  opened : ∃ vm₁, w'.machines.get m = .open vm₁ ∧ vm₁.Akin vm'
  journal : w'.journal = w.journal
  akin : vm.Akin vm'
  natives : vm'.natives = vm.natives
  stack : vm'.stack = base

/-- The function on top is called with what the arguments are on the machine. -/
theorem invoke_gives {args : List Value} (he : env.Follows) (ready : w.Ready g) (handle : s.handle = some (.main m)) (goes : s.Goes w)
    (generation : (w.runtimes.get s.runtime).generation = g) (hm : w.machines.get m = .open vm) (fine : vm.breached = false)
    (top : vm.stack = base.push f) (pushable : ∀ v ∈ args, ∀ e, ¬ Refuses w v e) (rt : Binding.Runtime) :
    ∃ us w' vm', Handed g m w vm base args us w' vm' ∧
      (∀ rs s', Lua.Machine.outside (runner env m) f us (taken w' m vm') = .ok (.done rs) s' →
        (∃ es, (final (s.invoke rt args env w)).journal = es ++ s'.host.journal) ∧
        (base.size + rs.length < 0x80000000 →
          Yields g env w (s.invoke rt args) (fun v w'' => w''.Open m ∧ s.Collects m (w.runtimes.get s.runtime) rs v w'')
            fun _ _ => False)) ∧
      ∀ s', Lua.Machine.outside (runner env m) f us (taken w' m vm') = .error (.fault .registryFull) s' →
        s.invoke rt args env w = .error (.signal (.fault .registryFull)) (putBack s' m) := by
  obtain ⟨vm₀, room, run⟩ := invoke_enters handle hm env top rt args
  have hg (id : Nat) : ((w.put m vm₀).runtimes.get ((w.put m vm₀).registries.get id).runtime).generation = vm₀.generation :=
    (ready.generation hm id).trans room.generation.symm
  obtain ⟨us, w₁, pushed, done⟩ | ⟨before, v, after, us, e, w₁, rfl, pushed, refused, -⟩ :=
    pushAll_pushed (w := w.put m vm₀) env handle args (World.get_put w m vm₀) hg
  · have roomy : w.Treads g m s.registry (w.put m vm₀) := .put hm room.toAkin room.natives
    have led := (Leads.pushAll (fun n hn => roomy.moves.continues.pairs (goes n hn)) args).after he
      (roomy.moves.sound ready.lawful.toSound) (w.put m vm₀) .refl
    rw [done] at led
    have moves : Moves w w₁ := roomy.moves.trans led
    obtain ⟨vm₁, hm₁, akin, natives, stack⟩ := pushed.opened (World.get_put w m vm₀)
    have whole : vm₁.stack = base ++ (f :: us).toArray := by
      refine stack.trans ?_
      change vm₀.stack ++ us.toArray = _
      rw [room.stack, top]
      simp
    have denotes : List.Forall₂ (Denotes g m w w₁) args us :=
      pushed.denotes (World.get_put w m vm₀) (room.generation.trans (ready.lawful.generations m vm hm))
        ((ready.recalls hm fine _).level (.put hm room.toAlike) room.toAlike)
    have generation' : (w₁.runtimes.get s.runtime).generation = g := by rw [moves.continues.runtimes, generation]
    obtain ⟨vm₂, below, runs, fails⟩ := conclude_gives he (moves.lawful ready.lawful) handle generation' hm₁
      (fun n hn => moves.continues.pairs (goes n hn)) whole rt
    have journal : w₁.journal = w.journal := by
      obtain ⟨_, _, _, rest⟩ := pushed.level.rest
      rw [rest]
      rfl
    refine ⟨us, w₁, vm₂, ⟨moves, denotes, ⟨vm₁, hm₁, below.toAkin⟩, journal, (room.toAkin.trans akin).trans below.toAkin,
      below.natives.trans (natives.trans room.natives), below.stack⟩, fun rs s' ran => ?_, fun s' ran => ?_⟩
    rotate_left
    · rw [run, bind_ok done, pushed.length]
      exact fails s' ran
    obtain ⟨appended, ends⟩ := runs rs s' ran
    unfold Yields
    rw [run, bind_ok done, pushed.length]
    refine ⟨appended, fun small hr => ?_⟩
    have ended := ends small
    cases run' : s.conclude rt us.length base.size env w₁ with
    | ok v w'' =>
      rw [run'] at ended hr
      cases ended with
      | back h =>
        obtain ⟨opened, vs, pins, vm', rfl, runtimes, received⟩ := h
        have collects := Collects.of_received received hr
        change s.Collects m (s'.host.runtimes.get s.runtime) rs (gather vs) w'' at collects
        rw [runtimes, moves.continues.runtimes] at collects
        exact .back ⟨opened, collects⟩
    | error x w'' =>
      rw [run'] at ended
      cases ended with
      | full => exact .full
      | raised no => exact no.elim
  · refine absurd (refused.of_same fun id => ?_) (pushable v (by simp) e)
    obtain ⟨machines, foreigns, trampolines, rfl⟩ := pushed.level.rest
    rfl

theorem apply_leads (goes : s.Goes w) (rt : Binding.Runtime) (args : List Value) (found : Option Int) : Leads env w (s.apply rt args found) := by
  unfold apply invoke conclude
  split
  · exact .pure _
  refine .bind (.discard (.runWith _ _ fun _ => Mute.checkStack _)) fun _ => .bind (.runWith _ _ fun _ => Mute.getTop) fun top =>
    .bind (.pushAll goes args) fun _ => .bind (.runWith _ _ fun _ => Ordinary.pcall _ _ _) fun status => ?_
  dsimp only
  split
  · exact .bind (.reportTop _ _ _ _) fun _ => .pure _
  · exact .bind (.runWith _ _ fun _ => Mute.getTop) fun _ => .bind (.results goes _ _) fun _ => .pure _

/-- A selector finds a function in world `w`: its keys lead to world `w₁`, where the function is on top of the stack. Pinning has
given free slots, and no program has written the numbers of the registry. -/
structure Finds (g : Generation) (env : Env) (m : Nat) (s : Selector) (w : World) (vm : Vm) (base : Array Lua.Value) (f : Lua.Value)
    (w₁ : World) (vm₁ : Vm) : Prop where
  stages : Stages g (Session.start g) w
  machine : s.machine = some m
  goes : s.Goes w
  runtime : s.runtime < 2
  opened : w.machines.get m = .open vm
  small : vm.stack.size < 0x80000000
  found : ∃ tag, s.push s.chain env w = .ok (some tag) w₁
  reached : w₁.machines.get m = .open vm₁
  top : vm₁.stack = base.push f
  fine : vm₁.breached = false
  reliable : Reliable g w₁.journal

namespace Finds

variable {w₁ : World} {vm₁ : Vm} (h : s.Finds g env m w vm base f w₁ vm₁)

include h

theorem lawful : w.Lawful g := Stages.lawful h.stages (Session.start_lawful g)

theorem generation : (w.runtimes.get s.runtime).generation = g := h.lawful.generation _ h.runtime

theorem moves (he : env.Follows) : Moves w w₁ := by
  obtain ⟨tag, found⟩ := h.found
  have led := (Leads.selectorPush h.goes s.chain).after he h.lawful.toSound w .refl
  rwa [found] at led

theorem ready (he : env.Follows) : w₁.Ready g := by
  obtain ⟨es, journal, -⟩ := (h.moves he).continues.journal
  have hr : Reliable g w.journal := .of_append (journal ▸ h.reliable)
  have assigned := (Stages.carries h.stages (Session.start_lawful g) (start_assigned g) hr).assigned
  exact World.Ready.moved ⟨h.lawful, assigned, hr⟩ (h.moves he) h.reliable

end Finds

/-- A selector that has found a function calls it with what the arguments are on the machine, and collects what it gives. -/
theorem call_gives {args : List Value} {w₁ : World} {vm₁ : Vm} (he : env.Follows) (h : s.Finds g env m w vm base f w₁ vm₁)
    (pushable : ∀ v ∈ args, ∀ e, ¬ Refuses w₁ v e) :
    ∃ us w₂ vm₂, Handed g m w₁ vm₁ base args us w₂ vm₂ ∧
      (∀ rs s₃, Lua.Machine.outside (runner env m) f us (taken w₂ m vm₂) = .ok (.done rs) s₃ →
        (∃ es, (final (s.call args env w)).journal = es ++ s₃.host.journal) ∧
        (base.size + rs.length < 0x80000000 →
          Yields g env w (s.call args) (s.Collects m (w.runtimes.get s.runtime) rs) fun _ _ => False)) ∧
      ∀ s₃, Lua.Machine.outside (runner env m) f us (taken w₂ m vm₂) = .error (.fault .registryFull) s₃ →
        s.call args env w = .error (.signal (.fault .registryFull)) (putBack s₃ m) := by
  obtain ⟨tag, found⟩ := h.found
  have handle : s.handle = some (.main m) := by rw [Selector.handle, h.machine, Option.map_some]
  have moves := h.moves he
  have goes₁ : s.Goes w₁ := fun n hn => moves.continues.pairs (h.goes n hn)
  have generation₁ : (w₁.runtimes.get s.runtime).generation = g := by rw [moves.continues.runtimes, h.generation]
  obtain ⟨us, w₂, vm₂, handed, gives, fails⟩ := invoke_gives he (h.ready he) handle goes₁ generation₁ h.reached h.fine h.top pushable
    (w.runtimes.get s.runtime)
  have run : s.call args env w =
      guarded s.runtime (some (.main m)) (s.push s.chain >>= s.apply (w.runtimes.get s.runtime) args) env w := by
    rw [call_eq h.machine, ← handle]
    rfl
  refine ⟨us, w₂, vm₂, handed, fun rs s₃ ran => ?_, fun s₃ ran => ?_⟩
  rotate_left
  · rw [run]
    exact guarded_throws h.opened ((bind_ok found).trans (fails s₃ ran))
  have leads : Leads env w (s.push s.chain >>= s.apply (w.runtimes.get s.runtime) args) :=
    .bind (.selectorPush h.goes _) (apply_leads h.goes _ _)
  obtain ⟨appended, yields⟩ := gives rs s₃ ran
  constructor
  · rw [run, guarded_journal h.opened h.small he h.lawful.toSound leads, bind_ok found]
    exact appended
  intro short
  refine .of_eq run ?_
  refine (guarded_yields h.opened h.small he h.lawful.toSound leads (.after found (yields short))).imp ?_ ?_
  · rintro v w' ⟨w₄, ⟨opened, collects⟩, stirs⟩
    rw [moves.continues.runtimes] at collects
    exact collects.stirs stirs opened
  · rintro _ _ ⟨_, no, _⟩
    exact no

end Selector

end LuaHost.Host
