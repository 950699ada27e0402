import LuaHost.Proofs.Lives.Closing

set_option autoImplicit false

/-!
# States that are made and moved

A state that takes another one's machine closes first; a state that is made has a machine of its own or
one that is there already. All of it is a run of stages.
-/

namespace LuaHost.Host

open Lua (M Vm Within Signal Generation)
open Binding (Call Program Runtime)

variable {g : Generation} {env : Env} {w w' : World} {α β : Type}

/-! ## Machines that change hands -/

/-- A state without a machine takes that of another one, after it has got the other's runtime and registry. -/
theorem takeFrom_hands (env : Env) {source target : Nat} (apart : source ≠ target)
    (free : (w.states.get target).machine = none) (states : Pool State)
    (others : ∀ n, n ≠ target → states.get n = w.states.get n)
    (runtime : (states.get target).runtime = (w.states.get source).runtime)
    (registry : (states.get target).registry = (w.states.get source).registry) :
    ∃ w', State.takeFrom target source env { w with states } = .ok () w' ∧ w.Hands source target w' := by
  have same : states.get source = w.states.get source := others source apart
  refine ⟨_, rfl, apart, free, rfl, rfl, rfl, rfl, rfl, rfl, rfl, ⟨w.reporters.size,
    congrArg (fun s : State => w.registries.add ⟨s.runtime, none, w.reporters.size, []⟩) same⟩, ?_, ?_, ?_, ?_, ?_, ?_,
    fun n hs ht => ?_⟩
  all_goals dsimp only
  · rw [Pool.get_put_ne _ apart.symm, Pool.get_modify_self, same]
  · rw [Pool.get_put_ne _ apart.symm, Pool.get_modify_self, same]
  · rw [Pool.get_put_ne _ apart.symm, Pool.get_modify_self, runtime]
  · rw [Pool.get_put_ne _ apart.symm, Pool.get_modify_self, registry]
  · rw [Pool.get_put_self]
  · rw [Pool.get_put_self, same]
  · rw [Pool.get_put_ne _ hs, Pool.get_modify_ne _ ht, others n ht]

/-- A new state takes the machine of another one. -/
theorem move_hands (env : Env) (w : World) {id : Nat} (hid : id ≠ w.states.size) :
    ∃ w', State.move id env w = .ok w.states.size w' ∧ w.Hands id w.states.size w' := by
  have free : (w.states.get w.states.size).machine = none := by
    rw [Pool.get_of_size_le _ (Nat.le_refl _)]
    rfl
  let added := w.states.add { w.states.get id with machine := none, isOwner := false }
  have self : added.get w.states.size = { w.states.get id with machine := none, isOwner := false } := Pool.get_add_self _ _
  obtain ⟨w', taken, hands⟩ := takeFrom_hands env hid free added (fun n hn => Pool.get_add_ne _ hn _)
    (by rw [self]) (by rw [self])
  have run : State.move id env w =
      (State.takeFrom w.states.size id >>= fun _ => Pure.pure w.states.size : H Nat) env { w with states := added } := rfl
  exact ⟨w', run.trans (bind_ok taken), hands⟩

/-- A state that was never made is moved into a new one that has no machine either. -/
theorem move_unmade (env : Env) (w : World) : ∃ w', State.move w.states.size env w = .ok w.states.size w' ∧
    (w.join none false .default 0 w.reporters.size).Beside w' := by
  have unmade : w.states.get w.states.size = default := Pool.get_of_size_le _ (Nat.le_refl _)
  refine ⟨_, rfl, rfl, rfl, ?_, rfl, rfl, rfl, ?_, rfl, rfl, rfl⟩
  · dsimp only
    rw [Pool.get_add_self, unmade]
    rfl
  · dsimp only
    rw [Pool.modify_add_self, Pool.put_add_self, Pool.get_add_self, unmade]
    rfl

/-- Moving a state closes no machine. -/
theorem move_quiets (env : Env) (w : World) (id : Nat) :
    ∃ w', State.move id env w = .ok w.states.size w' ∧ Quiets g w w' := by
  by_cases hid : id = w.states.size
  · obtain ⟨w', moved, after⟩ := move_unmade env w
    rw [hid]
    exact ⟨w', moved, (Quiet.attached none _ Nat.two_pos _).quiets.tail (.moves (Move.beside after).moves)⟩
  · obtain ⟨w', moved, hands⟩ := move_hands env w hid
    exact ⟨w', moved, (Quiet.handed hands).quiets⟩

/-- A state that takes another one's machine closes first. -/
theorem take_run (env : Env) (w : World) {id other : Nat} (hid : id ≠ other) : State.take id other env w = (State.close id >>=
    fun _ => (do
      let s ← State.get id
      let o ← State.get other
      State.put id { s with config := o.config, runtime := o.runtime, reporter := o.reporter, registry := o.registry }
      State.takeFrom id other : H Unit)) env w := by
  unfold State.take
  rw [if_neg (by rw [beq_iff_eq]; exact hid)]

/-- A state that has closed takes the machine. -/
theorem take_ok (env : Env) {w₁ : World} {id other : Nat} (hid : id ≠ other) (closed : State.close id env w = .ok () w₁)
    (free : (w₁.states.get id).machine = none) :
    ∃ w', State.take id other env w = .ok () w' ∧ w₁.Hands other id w' := by
  let s := w₁.states.get id
  let o := w₁.states.get other
  let set := w₁.states.put id { s with config := o.config, runtime := o.runtime, reporter := o.reporter, registry := o.registry }
  have self : set.get id = { s with config := o.config, runtime := o.runtime, reporter := o.reporter, registry := o.registry } :=
    Pool.get_put_self _ _ _
  obtain ⟨w', taken, hands⟩ := takeFrom_hands env (Ne.symm hid) free set
    (fun n hn => Pool.get_put_ne _ hn _) (by rw [self]) (by rw [self])
  refine ⟨w', ?_, hands⟩
  rw [take_run env w hid, bind_ok closed]
  exact taken

theorem take_error (env : Env) {e : Stop} {id other : Nat} (hid : id ≠ other) (error : State.close id env w = .error e w') :
    State.take id other env w = .error e w' := by
  rw [take_run env w hid, bind_error error]

/-- A state that takes another one's machine closes, if it is not that state. -/
theorem take_hands (he : env.Follows) (hl : w.Lawful g) {id other : Nat} (hid : id ≠ other) :
    (∃ w₁ w', State.take id other env w = .ok () w' ∧ Closing w id w₁ ∧ w₁.Hands other id w') ∨
      ∃ e w', State.take id other env w = .error (.signal e) w' := by
  obtain ⟨w₁, closed, closing⟩ | ⟨e, w', error⟩ := close_closing he hl id
  · obtain ⟨w', taken, hands⟩ := take_ok env hid closed closing.gone
    exact .inl ⟨w₁, w', taken, closing, hands⟩
  · exact .inr ⟨e, w', take_error env hid error⟩

theorem take_self (env : Env) (w : World) (id : Nat) : State.take id id env w = .ok () w := by
  unfold State.take
  rw [if_pos (beq_self_eq_true id)]
  rfl

/-! ## States that are made -/

/-- The rest of making a state, when its machine is known. -/
def joinState (origin : State.Origin) (config : Config) (runtime reporter : Nat) (machine : Option Nat) : H Nat := do
  let registry ← Registry.create runtime machine reporter
  let s : State := ⟨machine, origin.isOwner, config, runtime, reporter, registry⟩
  let id ← modifyGet fun w => (w.states.size, { w with states := w.states.add s })
  H.debug ["State created", s.shown, if origin.isOwner then "owner" else "borrowed"]
  return id

theorem joinState_beside (env : Env) (w : World) (origin : State.Origin) (config : Config) (runtime reporter : Nat)
    (machine : Option Nat) :
    ∃ w', joinState origin config runtime reporter machine env w = .ok w.states.size w' ∧
      (w.join machine origin.isOwner config runtime reporter).Beside w' :=
  ⟨_, rfl, rfl, rfl, rfl, rfl, rfl, rfl, rfl, rfl, rfl, rfl⟩

/-- The rest of making a state, when its runtime has given a machine, or none. -/
def joinFresh (rt : Runtime) (wanted : Bool) (joins : Option Nat → H Nat) : Value → H Nat
  | .int m => do
    if wanted then runProgram rt (some (.main m.toNat)) Binding.Api.openLibs
    joins (some m.toNat)
  | _ => H.fail (.raised "LuaAllocationError" "luaL_newstate could not allocate a Lua state")

/-- Opening the libraries of a machine comes back by moves, or throws. -/
theorem openLibs_moves (he : env.Follows) (hs : w.Sound) (rt : Runtime) {m : Nat} {vm : Vm}
    (hv : w.machines.get m = .open vm) :
    (∃ w', runProgram rt (some (.main m)) Binding.Api.openLibs env w = .ok () w' ∧ Moves w w') ∨
      ∃ e w', runProgram rt (some (.main m)) Binding.Api.openLibs env w = .error (.signal e) w' := by
  have moves : Moves w (final (runProgram rt (some (.main m)) Binding.Api.openLibs env w)) :=
    (Leads.runProgram rt _ Mute.openLibs).after he hs w .refl
  have run : runProgram rt (some (.main m)) Binding.Api.openLibs env w =
      (execute rt (some (.main m)) .openLibs >>= fun _ => Pure.pure () : H Unit) env w := rfl
  obtain ⟨v, t, -, ok⟩ | ⟨e, w', error⟩ := execute_cases env rt (.main m) .openLibs
    nofun nofun rfl hv
  · rw [run.trans (bind_ok ok)] at moves
    exact .inl ⟨_, run.trans (bind_ok ok), moves⟩
  · exact .inr ⟨e, w', run.trans (bind_error error)⟩

/-- What is there when a state is made joins: the machine that it borrows, or one that is born for it. -/
inductive Brings (g : Generation) (w : World) : State.Origin → World → Option Nat → Prop where
  | attached {w₁ : World} (machine : Option Nat) (h : Moves w w₁) : Brings g w (.attach machine) w₁ machine
  | born {w₀ w₁ : World} (openLibs : Option Bool) (first : Moves w w₀) (h : Moves (w₀.bear g) w₁) :
    Brings g w (.create openLibs) w₁ (some w₀.machines.size)

/-- A state that is made joins with the reporter that was made for it, unless there is no machine to be had. -/
theorem create_joins (he : env.Follows) (hl : w.Lawful g) (origin : State.Origin) (config : Config) {runtime : Nat}
    (hr : runtime < 2) :
    (∃ w₁ machine id w', Brings g w origin w₁ machine ∧ State.create origin config runtime env w = .ok id w' ∧
        (w₁.join machine origin.isOwner config runtime w.reporters.size).Beside w') ∨
      (∃ f w', State.create origin config runtime env w = .error (.failure f) w' ∧ Moves w w') ∨
      ∃ e w', State.create origin config runtime env w = .error (.signal e) w' := by
  let w₀ : World := { w with debug := w.debug.enable (some config), reporters := w.reporters.add .print }
  let rt := w.runtimes.get runtime
  have beside : w.Beside w₀ := ⟨rfl, rfl, rfl, rfl, rfl, rfl, rfl, rfl, rfl, rfl⟩
  have quietly : Moves w w₀ := (Move.beside beside).moves
  have lawful : w₀.Lawful g := quietly.lawful hl
  let joins := joinState origin config runtime w.reporters.size
  cases origin with
  | attach machine =>
    have run : State.create (.attach machine) config runtime env w = joins machine env w₀ := rfl
    obtain ⟨w', joined, after⟩ := joinState_beside env w₀ (.attach machine) config runtime w.reporters.size machine
    exact .inl ⟨w₀, machine, _, w', .attached machine quietly, run.trans joined, after⟩
  | create openLibs =>
    have run : State.create (.create openLibs) config runtime env w =
        (runProgram rt none (Binding.Api.newState rt) >>= joinFresh rt (openLibs.getD config.openLibs) joins) env w₀ := by
      rfl
    rw [run]
    cases refuses : rt.refusesStates with
    | true =>
      have asked : runProgram rt none (Binding.Api.newState rt) env w₀ = .ok .none w₀ := by
        unfold Binding.Api.newState
        rw [if_pos refuses]
        rfl
      exact .inr (.inl ⟨_, w₀, bind_ok asked, quietly⟩)
    | false =>
      have asked : runProgram rt none (Binding.Api.newState rt) env w₀ = .ok (.int w.machines.size) (w₀.bear g) := by
        unfold Binding.Api.newState
        rw [if_neg (ne_true_of_eq_false refuses), ← hl.generation runtime hr]
        rfl
      have opened : (w₀.bear g).machines.get w.machines.size = .open (Lua.Stack.newMachine g) := Pool.get_add_self _ _
      rw [bind_ok asked]
      have joined (w₁ : World) := joinState_beside env w₁ (.create openLibs) config runtime w.reporters.size (some w.machines.size)
      unfold joinFresh
      cases openLibs.getD config.openLibs with
      | false =>
        obtain ⟨w', ok, after⟩ := joined (w₀.bear g)
        exact .inl ⟨_, _, _, w', .born openLibs quietly .refl, ok, after⟩
      | true =>
        obtain ⟨w₁, ok, moves⟩ | ⟨e, w₁, error⟩ := openLibs_moves he lawful.bear.toSound rt opened
        · obtain ⟨w', done, after⟩ := joined w₁
          exact .inl ⟨_, _, _, w', .born openLibs quietly moves, (bind_ok ok).trans done, after⟩
        · exact .inr (.inr ⟨e, w₁, bind_error error⟩)

/-- Making a state ends no machine. -/
theorem create_quiets (he : env.Follows) (hl : w.Lawful g) (origin : State.Origin) (config : Config) {runtime : Nat}
    (hr : runtime < 2) :
    (∃ id w', State.create origin config runtime env w = .ok id w' ∧ Quiets g w w') ∨
      (∃ f w', State.create origin config runtime env w = .error (.failure f) w' ∧ Quiets g w w') ∨
      ∃ e w', State.create origin config runtime env w = .error (.signal e) w' := by
  obtain ⟨w₁, machine, id, w', brings, done, after⟩ | ⟨f, w', failed, moves⟩ | thrown := create_joins he hl origin config hr
  · have last : Quiet g (w₁.join machine origin.isOwner config runtime w.reporters.size) w' := .moves (Move.beside after).moves
    cases brings with
    | attached machine h => exact .inl ⟨id, w', done, (h.quiets.tail (.attached machine config hr _)).tail last⟩
    | born openLibs first h => exact .inl ⟨id, w', done, (first.quiets.tail (.born h config hr _)).tail last⟩
  · exact .inr (.inl ⟨f, w', failed, moves.quiets⟩)
  · exact .inr (.inr thrown)

end LuaHost.Host
