import LuaHost.Proofs.Walks.Calls
import LuaHost.Proofs.Twins.Trampolines

set_option autoImplicit false

/-!
# What programs receive from functions of the host

A program that calls a function of the host passes its arguments on the stack of the running thread, and receives
what the function leaves there. It receives all results, or nothing and then one failure has been told of.
-/

namespace LuaHost.Lua

variable {σ : Type} {natives : Natives σ} {services : Services σ} {s s' : Sys σ} {c : Machine} {caller : Caller} {f : Native}
  {upvalues args vs : List Value}

/-! ## Calls of native functions -/

/-- A machine whose thread `t` has begun a native function. -/
def Vm.begun (vm : Vm) (t natives : Nat) (konts : List Kont) (args : List Value) : Vm :=
  { vm with
    natives
    threads := vm.threads.modify t fun th => { th with konts, stack := args.toArray, room := .ofArguments args.length } }

/-- A machine whose thread `t` goes on after a native function as it was in `vm`. -/
def Vm.resumed (vm : Vm) (t : Nat) (after : Vm) : Vm :=
  { after with
    natives := vm.natives
    threads := after.threads.modify t fun th => { th with stack := (vm.threads.get t).stack, room := (vm.threads.get t).room } }

theorem Vm.akin_begun (vm : Vm) (t natives : Nat) (konts : List Kont) (args : List Value) : vm.Akin (vm.begun t natives konts args) :=
  (Vm.Akin.refl vm).course _ _ _

theorem Vm.akin_resumed (vm : Vm) (t : Nat) (after : Vm) : after.Akin (vm.resumed t after) := (Vm.Akin.refl after).course _ _ _

theorem Vm.stackOf_begun (vm : Vm) (t natives : Nat) (konts : List Kont) (args : List Value) :
    (vm.begun t natives konts args).stackOf t = args.toArray := by
  unfold Vm.begun Vm.stackOf
  dsimp only
  rw [Pool.get_modify_self]

namespace Machine

/-- A machine that has called a native function, which is in progress. -/
def entered (c : Machine) (caller : Caller) : Machine :=
  { c with
    activation := { Activation.outside (caller.activation.natives + 1) with depth := caller.activation.depth }
    konts := .callReturn caller :: c.konts }

/-- What the machine's state is for the function. -/
def within (c : Machine) (caller : Caller) (args : List Value) (s : Sys σ) : Sys σ :=
  { s with vm := s.vm.begun c.thread (caller.activation.natives + 1) (.callReturn caller :: c.konts) args }

variable (few : caller.activation.natives < nativeLimit)

include few

/-- What a native function gives is handed to the caller. -/
theorem runNative_ok (h : natives services f upvalues args (c.within caller args s) = .ok vs s') :
    runNative natives services c f upvalues args caller s =
      .ok (.inl { c.entered caller with ctl := .values vs }) { s' with vm := s.vm.resumed c.thread s'.vm } := by
  have fits : ¬ nativeLimit < (Activation.outside (caller.activation.natives + 1)).natives := Nat.not_lt.mpr few
  unfold runNative
  unfold within Vm.begun at h
  simp only [M.vm, M.modifyVm, Bind.bind, EStateM.bind]
  rw [if_neg fits]
  simp only [Activation.outside, h]
  rfl

theorem runNative_fault {e : Fault} (h : natives services f upvalues args (c.within caller args s) = .error (.fault e) s') :
    runNative natives services c f upvalues args caller s = .error (.fault e) s' := by
  have fits : ¬ nativeLimit < (Activation.outside (caller.activation.natives + 1)).natives := Nat.not_lt.mpr few
  unfold runNative
  unfold within Vm.begun at h
  simp only [M.vm, M.modifyVm, Bind.bind, EStateM.bind]
  rw [if_neg fits]
  simp only [Activation.outside, h]

omit few in
/-- A function of the host that is called begins. -/
theorem step_foreign {k n : Nat} (ctl : c.ctl = .apply (.native (.foreign k) n) args caller) :
    step natives services c s = runNative natives services c (.foreign k) [] args caller s := by
  unfold step
  rw [ctl]
  rfl

end Machine

/-- Taking values from a stack gives as many as there are, at most. -/
theorem Stack.popAll_ok (t n : Nat) (s : Sys σ) :
    ∃ vs vm, Stack.popAll t n s = .ok vs { s with vm } ∧ s.vm.Akin vm ∧ ∀ base us, s.vm.stackOf t = base ++ us.toArray → us.length = n → vs = us := by
  refine ⟨_, _, rfl, (Vm.Akin.refl s.vm).course s.vm.running s.vm.natives _, fun base us h size => ?_⟩
  have below : (s.vm.stackOf t).size - n = base.size + 0 := by simp [h, size]
  change ((s.vm.stackOf t).extract ((s.vm.stackOf t).size - n) (s.vm.stackOf t).size).toList = us
  rw [below, h]
  simp

end LuaHost.Lua

namespace LuaHost.Host

open Lua (M Vm Generation Sys Machine Caller)
open Session (start_lawful start_equipped)

variable {g : Generation} {env : Env} {w w' : World} {vm vm' : Vm} {t : Handle} {m id : Nat} {act : List Value → H Value}
  {pins : List Pin}

/-! ## Functions that were made -/

/-- A function of the host that was made stays what it is, and no machine is taken from it. -/
structure Foreign.Lasts (f f' : Foreign) : Prop where
  routine : f'.routine = f.routine
  runtime : f'.runtime = f.runtime
  registry : f'.registry = f.registry
  reporter : f'.reporter = f.reporter
  machines : ∀ n ∈ f.machines, n ∈ f'.machines

theorem Foreign.Lasts.refl (f : Foreign) : f.Lasts f := ⟨rfl, rfl, rfl, rfl, fun _ h => h⟩

theorem Foreign.Lasts.trans {a b c : Foreign} (h : a.Lasts b) (k : b.Lasts c) : a.Lasts c :=
  ⟨k.routine.trans h.routine, k.runtime.trans h.runtime, k.registry.trans h.registry, k.reporter.trans h.reporter,
    fun n hn => k.machines n (h.machines n hn)⟩

theorem World.lasts_give (w : World) (m : Nat) (f : Lua.Native) (k : Nat) : (w.foreigns.get k).Lasts ((w.give m f).foreigns.get k) := by
  unfold World.give
  cases f with
  | foreign n =>
    dsimp only
    split
    · exact .refl _
    · by_cases h : k = n
      · rw [h]
        dsimp only
        rw [Pool.get_modify_self]
        exact ⟨rfl, rfl, rfl, rfl, fun _ => List.mem_cons_of_mem _⟩
      · dsimp only
        rw [Pool.get_modify_ne _ h]
        exact .refl _
  | _ => exact .refl _

theorem Move.lasts {k : Nat} (h : Move w w') (hk : k < w.foreigns.size) : (w.foreigns.get k).Lasts (w'.foreigns.get k) := by
  cases h with
  | made _ _ _ =>
    dsimp only
    rw [Pool.get_add_ne _ (Nat.ne_of_lt hk)]
    exact .refl _
  | gave hm h => exact World.lasts_give _ _ _ _
  | beside hb =>
    rw [hb.foreigns]
    exact .refl _
  | _ => exact .refl _

theorem Moves.lasts {k : Nat} (h : Moves w w') (hk : k < w.foreigns.size) : (w.foreigns.get k).Lasts (w'.foreigns.get k) := by
  induction h with
  | refl => exact .refl _
  | tail moves move ih => exact ih.trans (move.lasts (Nat.lt_of_lt_of_le hk (Moves.continues moves).foreigns))

/-! ## Calls from a program -/

theorem Ends.final {α : Type} {r : EStateM.Result Stop World α} (h : Ends r w) : final r = w := by
  obtain ⟨_, rfl⟩ | ⟨_, rfl⟩ := h <;> rfl

section Phases

variable {f : Foreign} {as : List Value} {w₁ w₂ : World}

variable (act) in
/-- A call of a function of the host runs it with what was received, while the machine waits, and then finishes with
what the function gives or raises. -/
theorem callHost_finishes (he : env.Follows) (ready : w.Ready g) (given : t.machine ∈ (w.foreigns.get id).machines)
    (fits : (w.runtimes.get (w.foreigns.get id).runtime).generation = g) (hm : w.machines.get t.machine = .open vm)
    (small : (vm.stackOf t.thread).size < 0x80000000) (leads : ∀ args w', w'.Sound → Leads env w' (act args)) :
    (∃ w', callHost (w.foreigns.get id) act t env w = .error (.signal (.fault .registryFull)) w') ∨
      ∃ as pins w₁, Received (w.foreigns.get id) t w (vm.stackOf t.thread).toList as pins w₁ ∧ Moves w w₁ ∧
        ∀ outcome w₂, attempt (act as) env (w₁.flying (pins.map Pin.id)) = .ok outcome w₂ → Moves w₁ w₂.landed ∧
          ((∀ n ∈ pins.map Pin.id, w₂.landed.InReach n) →
            (∀ r, outcome = .ok r → ∀ n ∈ r.references, w₂.landed.holds n = true ∨ w₂.landed.InReach n) →
            ∃ w', Moves w₂.landed w' ∧
              Finish (w.foreigns.get id) t (pins.map Pin.id) w₂.landed outcome (callHost (w.foreigns.get id) act t env w) w') := by
  have pairs := ready.lawful.given id t.machine given
  have generation : vm.generation = g := ready.lawful.generations _ _ hm
  obtain full | ⟨as, pins, w₁, run, received, goes⟩ := callHost_phases (w.foreigns.get id) act hm (fits.trans generation.symm) small
  · exact .inl full
  have arguments : Moves w w₁ := by
    have led := (Leads.arguments (w.foreigns.get id) t pairs (vm.stackOf t.thread).size 1).after he ready.lawful.toSound w .refl
    rwa [run] at led
  refine .inr ⟨as, pins, w₁, received, arguments, fun outcome w₂ ran => ?_⟩
  have aloft : w₁.Beside (w₁.flying (pins.map Pin.id)) := ⟨rfl, rfl, rfl, rfl, rfl, rfl, rfl, rfl, rfl, rfl⟩
  have flies : Moves w₁ (w₁.flying (pins.map Pin.id)) := (Move.beside aloft).moves
  have flown : Moves w (w₁.flying (pins.map Pin.id)) := arguments.trans flies
  have sound := flown.sound ready.lawful.toSound
  have acts : Moves w₁ w₂ := by
    have led := (Leads.attempt (leads as _ sound)).after he sound _ .refl
    rw [ran] at led
    exact flies.trans led
  have landing : w₂.Beside w₂.landed := ⟨rfl, rfl, rfl, rfl, rfl, rfl, rfl, rfl, rfl, rfl⟩
  have moves : Moves w₁ w₂.landed := acts.tail (.beside landing)
  refine ⟨moves, fun reach results => ?_⟩
  have all : Moves w w₂.landed := arguments.trans moves
  obtain ⟨vm₂, hm₂⟩ := all.continues.opened _ ⟨vm, hm⟩
  have lawful := all.lawful ready.lawful
  obtain ⟨w', finished⟩ := finish_runs env (w.foreigns.get id) hm₂
    (fun k => (lawful.generation _ (lawful.registryRuntime k)).trans (lawful.generations _ _ hm₂).symm) reach results
  have led := (Leads.finish (w.foreigns.get id) t (all.continues.pairs pairs) (pins.map Pin.id) outcome).after he lawful.toSound _ .refl
  rw [finished.ends.final] at led
  rw [← goes outcome w₂ ran] at finished
  exact ⟨w', led, finished⟩

end Phases

/-- What a program receives from a function of the host that gave or raised something in world `w`: all results, if
none of them is refused; or nothing, and then the first that is refused or the error that was raised has been told of. -/
inductive Receives (g : Generation) (f : Foreign) (m : Nat) (w : World) : Except Failure Value → List Lua.Value → World → Prop where
  | results {r : Value} {us : List Lua.Value} {w' : World} (free : ∀ v ∈ resultList r, ∀ e, ¬ Refuses w v e)
    (denotes : List.Forall₂ (Denotes g m w w') (resultList r) us) (quiet : w'.reports = w.reports) : Receives g f m w (.ok r) us w'
  | refused {r v : Value} {before after : List Value} {e : Failure} {w' : World} (parts : resultList r = before ++ v :: after)
    (free : ∀ u ∈ before, ∀ e, ¬ Refuses w u e) (refuses : Refuses w v e)
    (told : w'.reports = w.reports ++ (f.telling w e).events) : Receives g f m w (.ok r) [] w'
  | raised {e : Failure} {w' : World} (told : w'.reports = w.reports ++ (f.telling w e).events) : Receives g f m w (.error e) [] w'

section Entering

variable {s : Sys World} {f : Foreign} {a dropped : Int} {op : H Int}

theorem inMachine_ok (run : op env (putBack s m) = .ok a w') (hm : w'.machines.get m = .open vm') :
    H.inMachine env m op dropped s = .ok a (taken w' m vm') := by
  unfold putBack at run
  unfold H.inMachine
  simp only [run, hm]
  rfl

/-- An error of the host that reaches the machine is dropped. -/
theorem inMachine_raised {e : Failure} (run : op env (putBack s m) = .error (.failure e) w') (hm : w'.machines.get m = .open vm') :
    H.inMachine env m op dropped s = .ok dropped (taken w' m vm') := by
  unfold putBack at run
  unfold H.inMachine
  simp only [run, hm]
  rfl

theorem inMachine_signal {x : Lua.Signal} (run : op env (putBack s m) = .error (.signal x) w') (hm : w'.machines.get m = .open vm') :
    H.inMachine env m op dropped s = .error x (taken w' m vm') := by
  unfold putBack at run
  unfold H.inMachine
  simp only [run, hm]
  rfl

/-- It has been noted that the machine calls a function of the host. -/
def noting (m id : Nat) (s : Sys World) : Sys World :=
  { s with host := { s.host with journal := .entered m id (s.host.isKept m (.foreign id)) :: s.host.journal } }

/-- The world in which a machine has called a function of the host. -/
def World.entering (m id : Nat) (s : Sys World) : World := putBack (noting m id s) m

theorem enter_eq (env : Env) (m t id : Nat) (f : Foreign) (s : Sys World) : enter env m t id (s.host.isKept m (.foreign id)) f s =
    (H.inMachine env m (f.call ⟨m, t⟩) 0 >>= fun n => Lua.Stack.popAll t (int32 n).toNat) (noting m id s) := rfl

theorem enter_signal {t : Nat} {x : Lua.Signal} (run : f.call ⟨m, t⟩ env (World.entering m id s) = .error (.signal x) w')
    (hm : w'.machines.get m = .open vm') : enter env m t id (s.host.isKept m (.foreign id)) f s = .error x (taken w' m vm') := by
  rw [enter_eq]
  simp only [Bind.bind, EStateM.bind, inMachine_signal run hm]

/-- What a call left is handed to the program. -/
theorem enter_receives {t : Nat} {ids : List Nat} {outcome : Except Failure Value}
    (finish : Finish f ⟨m, t⟩ ids w outcome (f.call ⟨m, t⟩ env (World.entering m id s)) w') (hm : w.machines.get m = .open vm) :
    ∃ us vm₁ vm₂, enter env m t id (s.host.isKept m (.foreign id)) f s = .ok us (taken w' m vm₂) ∧
      w'.machines.get m = .open vm₁ ∧ vm₁.Akin vm₂ ∧
      (w.Ready g → vm.breached = false → (∀ r, outcome = .ok r → (resultList r).length < 0x80000000) → Receives g f m w outcome us w') := by
  obtain ⟨vm₁, hm₁, -⟩ := finish.onward.opened m vm hm
  -- the values that are taken are as many as the call gave, or none if it told of a failure
  obtain ⟨n, left, gave, told⟩ : ∃ n, H.inMachine env m (f.call ⟨m, t⟩) 0 (noting m id s) = .ok n (taken w' m vm₁) ∧
      (∀ k w₁, f.call ⟨m, t⟩ env (World.entering m id s) = .ok k w₁ → n = k) ∧
      ∀ e w₁, f.call ⟨m, t⟩ env (World.entering m id s) = f.ending w e 0 w₁ → n = 0 := by
    obtain ⟨a, back⟩ | ⟨e, raised⟩ := finish.ends
    · refine ⟨a, inMachine_ok back hm₁, fun k w₁ same => ?_, fun e w₁ same => ?_⟩
      · cases back.symm.trans same
        rfl
      · unfold Foreign.ending at same
        split at same
        · cases back.symm.trans same
          rfl
        · cases back.symm.trans same
    · refine ⟨0, inMachine_raised raised hm₁, fun k w₁ same => ?_, fun _ _ _ => rfl⟩
      cases raised.symm.trans same
  obtain ⟨us, vm₂, popped, akin, same⟩ := Lua.Stack.popAll_ok t (int32 n).toNat (taken w' m vm₁)
  refine ⟨us, vm₁, vm₂, ?_, hm₁, akin, fun ready fine small => ?_⟩
  · rw [enter_eq]
    simp only [Bind.bind, EStateM.bind, left]
    exact popped
  have answers := finish.answers ready.lawful ready.assigned ready.reliable hm fine
  have ends := finish.ends
  generalize f.call ⟨m, t⟩ env (World.entering m id s) = result at answers ends gave told
  cases answers with
  | @results r xs w₁ vm' free denotes quiet hm' pushed =>
    cases gave _ _ rfl
    have last : w₁ = w' := ends.final
    subst last
    cases hm₁.symm.trans hm'
    have count : xs.length = (int32 (resultList r).length).toNat := by
      rw [int32_small (small r rfl), denotes.length_eq, Int.toNat_natCast]
    cases same _ xs pushed count
    exact .results free denotes quiet
  | @refused r v before after e w₁ parts free refuses told' =>
    cases told _ _ rfl
    cases Foreign.ends_ending.final.symm.trans ends.final
    cases same _ [] Array.append_empty.symm rfl
    exact .refused parts free refuses told'
  | @raised e w₁ told' =>
    cases told _ _ rfl
    cases Foreign.ends_ending.final.symm.trans ends.final
    cases same _ [] Array.append_empty.symm rfl
    exact .raised told'

end Entering

/-! ## Steps of a program -/

section Steps

variable {depth k n : Nat} {services : Lua.Services World} {s : Sys World} {c : Machine} {caller : Caller} {args : List Lua.Value}
  {fn : Callback}

/-- A program that calls a callback of the host: its next step is the call, in a world that is ready. -/
structure Calling (g : Generation) (m k : Nat) (fn : Callback) (c : Machine) (caller : Caller) (args : List Lua.Value) (s : Sys World) :
    Prop where
  ready : (putBack s m).Ready g
  ctl : ∃ n, c.ctl = .apply (.native (.foreign k) n) args caller
  running : c.thread = s.vm.running
  few : caller.activation.natives < Lua.nativeLimit
  routine : (s.host.foreigns.get k).routine = .callback fn
  given : m ∈ (s.host.foreigns.get k).machines
  fits : (s.host.runtimes.get (s.host.foreigns.get k).runtime).generation = g
  small : args.length < 0x80000000

namespace Calling

variable (h : Calling g m k fn c caller args s)

include h

theorem moves : Moves (putBack s m) (World.entering m k (c.within caller args s)) := by
  have akin := s.vm.akin_begun c.thread (caller.activation.natives + 1) (.callReturn caller :: c.konts) args
  have begun : Moves (putBack s m) (putBack (c.within caller args s) m) := by
    have moves := (Move.akin (putBack_get s m) akin).moves
    rwa [World.put, put_putBack] at moves
  exact begun.tail (.entered ⟨_, putBack_get _ m⟩ h.given)

/-- The callback is called with what it receives for the arguments. What it then gives or raises is what the program goes on with. -/
theorem calls (depth : Nat) (services : Lua.Services World) :
    (∃ s', Machine.step (nativesTo (depth + 1) m) services c s = .error (.fault .registryFull) s') ∨
      ∃ as pins w₁, Received (s.host.foreigns.get k) ⟨m, s.vm.running⟩ (World.entering m k (c.within caller args s)) args as pins w₁ ∧
        Moves (putBack s m) w₁ ∧
        ∀ outcome w₂, attempt (fn.run as) ⟨nativesTo depth⟩ (w₁.flying (pins.map Pin.id)) = .ok outcome w₂ → Moves w₁ w₂.landed ∧
          ((∀ n ∈ pins.map Pin.id, w₂.landed.InReach n) →
            (∀ r, outcome = .ok r → ∀ n ∈ r.references, w₂.landed.holds n = true ∨ w₂.landed.InReach n) →
            ∃ us w' vm₁ vm₂, Machine.step (nativesTo (depth + 1) m) services c s =
                .ok (.inl { c.entered caller with ctl := .values us }) (taken w' m vm₂) ∧
              w'.machines.get m = .open vm₁ ∧ vm₁.Akin vm₂ ∧ vm₂.natives = s.vm.natives ∧ Moves w₂.landed w' ∧
              (w₂.landed.Ready g → (∀ vm, w₂.machines.get m = .open vm → vm.breached = false) →
                (∀ r, outcome = .ok r → (resultList r).length < 0x80000000) →
                Receives g (s.host.foreigns.get k) m w₂.landed outcome us w')) := by
  let W : World := World.entering m k (c.within caller args s)
  let t : Handle := ⟨m, s.vm.running⟩
  have he : (⟨nativesTo depth⟩ : Env).Follows := nativesTo_within depth
  obtain ⟨n, ctl⟩ := h.ctl
  have ready : W.Ready g := h.ready.moved h.moves h.ready.reliable
  have hm : W.machines.get t.machine = .open (c.within caller args s).vm := putBack_get _ _
  have stack : (c.within caller args s).vm.stackOf t.thread = args.toArray := by
    change (c.within caller args s).vm.stackOf s.vm.running = _
    rw [← h.running]
    exact s.vm.stackOf_begun _ _ _ _
  have call : (s.host.foreigns.get k).call t = callHost (s.host.foreigns.get k) fn.run t := by
    unfold Foreign.call
    rw [h.routine]
    rfl
  -- the function is let in
  have entered : nativesTo (depth + 1) m services (.foreign k) [] args (c.within caller args s) =
      enter ⟨nativesTo depth⟩ m s.vm.running k (s.host.isKept m (.foreign k)) (s.host.foreigns.get k) (c.within caller args s) := by
    have member : (s.host.foreigns.get k).machines.contains m = true := List.contains_iff_mem.mpr h.given
    refine (nativesTo_foreign depth m k services [] args (c.within caller args s)).trans ?_
    change (if !(s.host.foreigns.get k).machines.contains m then _ else _ : M World (List Lua.Value)) _ = _
    rw [member]
    rfl
  obtain ⟨w', full⟩ | ⟨as, pins, w₁, received, moves, goes⟩ := callHost_finishes (w := W) (t := t) fn.run he ready h.given
    h.fits hm (by rw [stack]; exact h.small) fun args w' sound => .callback sound fn args
  · have leads : Leads ⟨nativesTo depth⟩ W (callHost (s.host.foreigns.get k) fn.run t) :=
      .callHost _ (fun args => .callback ready.lawful.toSound fn args) t (ready.lawful.given k m h.given)
    have led := leads.after he ready.lawful.toSound W .refl
    have called : callHost (s.host.foreigns.get k) fn.run t ⟨nativesTo depth⟩ W = .error (.signal (.fault .registryFull)) w' := full
    rw [called] at led
    obtain ⟨vm', hm'⟩ := (led.continues : W.Continues w').opened m ⟨_, hm⟩
    rw [← call] at called
    have refused : enter ⟨nativesTo depth⟩ m s.vm.running k (s.host.isKept m (.foreign k)) (s.host.foreigns.get k)
        (c.within caller args s) = .error (.fault .registryFull) (taken w' m vm') := enter_signal called hm'
    rw [Machine.step_foreign ctl]
    exact .inl ⟨_, Machine.runNative_fault h.few (entered.trans refused)⟩
  · rw [stack] at received
    refine .inr ⟨as, pins, w₁, received, h.moves.trans moves, fun outcome w₂ ran => ?_⟩
    obtain ⟨acts, finishes⟩ := goes outcome w₂ ran
    refine ⟨acts, fun reach results => ?_⟩
    obtain ⟨w', led, finished⟩ := finishes reach results
    have all : Moves W w₂.landed := moves.trans acts
    obtain ⟨vm₂, hm₂⟩ := all.continues.opened m ⟨_, hm⟩
    rw [show callHost (W.foreigns.get k) fn.run t = (s.host.foreigns.get k).call t from call.symm] at finished
    obtain ⟨us, vm₁, vm₃, runs, hm₁, akin, receives⟩ := enter_receives finished hm₂
    refine ⟨us, w', vm₁, s.vm.resumed c.thread vm₃, ?_, hm₁, akin.trans (s.vm.akin_resumed _ _), rfl, led, fun ready₂ fine => ?_⟩
    · rw [Machine.step_foreign ctl, Machine.runNative_ok h.few (entered.trans runs)]
      rfl
    · exact receives ready₂ (fine vm₂ hm₂)

end Calling

end Steps

end LuaHost.Host
