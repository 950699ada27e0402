import LuaHost.Proofs.Slots.Stages

set_option autoImplicit false

/-!
# What a reference pushes

A reference is a number of a slot, and pushing it reads the slot of that number in whatever machine it is
pushed to. On the machine of its registry this is the value that was pinned, or nil when the reference
holds no slot; on another machine it is what that machine has there.
-/

namespace LuaHost.Lua

theorem Stack.tableAt_registry {σ : Type} (t : Nat) (s : Sys σ) :
    Stack.tableAt t (Stack.registryIndex s.vm.generation) s = .ok s.vm.registry s := by
  have place (size : Nat) : Stack.place s.vm.generation size (Stack.registryIndex s.vm.generation) = .registry := by
    cases s.vm.generation <;> rfl
  unfold Stack.tableAt Stack.value Stack.value?
  simp only [Stack.contents, M.thread, M.generation, M.vm, Bind.bind, EStateM.bind, Pure.pure, EStateM.pure, place,
    Option.getD_some]

end LuaHost.Lua

namespace LuaHost.Host

open Lua (M Vm Generation)
open Binding (Call Runtime)
open Session (Step StepAnswer start_lawful reached_stages)

variable {g : Generation} {env : Env} {w : World} {vm : Vm}

/-! ## Pushing what is in a slot -/

/-- A number as the interface passes it on. -/
def conveyed (g : Generation) (n : Int) : Int := if g.since .v53 then int64 n else int32 n

/-- A number that the interface passes on as it is. -/
def Exact (g : Generation) (n : Int) : Prop := conveyed g n = n

theorem ProperSlot.exact {slot : Int} (h : ProperSlot g slot) : Exact g slot := by
  have bounded := h.bounded
  have positive := h.positive
  unfold Lua.Stack.greatestSlot at bounded
  unfold Exact conveyed int64 int32
  rw [Int.bmod_def, Int.bmod_def]
  split <;> omega

/-- Reading an entry of the registry pushes what is there. -/
theorem Perform.rawGetI_registry (h : Handle) (n : Int) (s : Lua.Sys World) :
    perform env h (.rawGetI (Lua.Stack.registryIndex s.vm.generation) n) s =
      .ok .none { s with vm := s.vm.pushed h.thread (s.vm.entry (Int64.ofInt (conveyed s.vm.generation n))) } := by
  have index : int32 (Lua.Stack.registryIndex s.vm.generation) = Lua.Stack.registryIndex s.vm.generation := by
    cases s.vm.generation <;> decide
  have table := Lua.Stack.tableAt_registry h.thread s
  unfold perform
  simp only [quiet, M.generation, M.table, Bind.bind, EStateM.bind, index, table, Lua.Stack.push_eq]
  rfl

/-- Pushing a slot pushes what the machine has there, whatever registry the number came from. -/
theorem runWith_pushRef {runtime : Nat} {t : Handle} {slot : Int} (hm : w.machines.get t.machine = .open vm)
    (hg : (w.runtimes.get runtime).generation = vm.generation) :
    ∃ tag, runWith runtime (some t) (fun r => Binding.Api.pushRef r slot) env w =
      .ok (.int tag)
        { w with machines := w.machines.put t.machine (.open (vm.pushed t.thread (vm.entry (Int64.ofInt (conveyed vm.generation slot))))) } := by
  let vm' := vm.pushed t.thread (vm.entry (Int64.ofInt (conveyed vm.generation slot)))
  let w' : World := { w with machines := w.machines.put t.machine (.open vm') }
  have hm' : w'.machines.get t.machine = .open vm' := Pool.get_put_self _ _ _
  have typed := @Perform.type_top env t (taken w' t.machine vm')
  have index : (w.runtimes.get runtime).registryIndex = Lua.Stack.registryIndex vm.generation := by
    rw [← hg]
    rfl
  have pushed := execute_ok (r := w.runtimes.get runtime) (c := .rawGetI (Lua.Stack.registryIndex vm.generation) slot)
    nofun nofun rfl hm (@Perform.rawGetI_registry env t slot (taken w t.machine vm))
  have asked := execute_ok (r := w.runtimes.get runtime) (c := .type (-1)) nofun nofun rfl hm' typed
  rw [putBack_taken hm'] at asked
  have back : putBack { taken w t.machine vm with vm := vm' } t.machine = w' := by
    simp only [putBack, taken, Pool.put_put, w']
  refine ⟨tagOf (vm'.top? t.thread), ?_⟩
  have run : runWith runtime (some t) (fun r => Binding.Api.pushRef r slot) env w =
      (execute (w.runtimes.get runtime) (some t) (.rawGetI (w.runtimes.get runtime).registryIndex slot) >>= fun _ =>
        execute (w.runtimes.get runtime) (some t) (.type (-1)) >>= fun tag => Pure.pure tag : H Value) env w := rfl
  rw [run, index, bind_ok (pushed.trans (congrArg _ back)), bind_ok asked]
  rfl

/-! ## References -/

/-- A reference that holds no slot has one of two numbers that are no slots. -/
theorem Reference.slot_of_not_holds {r : Reference} (h : r.holds = false) :
    r.slot = Binding.noReference ∨ r.slot = Binding.nilReference := by
  simp only [Reference.holds, Bool.and_eq_false_iff, bne_eq_false_iff_eq] at h
  exact h

/-- A world in which a value has been pushed on the stack of a thread. -/
def World.pushed (w : World) (t : Handle) (vm : Vm) (v : Lua.Value) : World :=
  { w with machines := w.machines.put t.machine (.open (vm.pushed t.thread v)) }

section Pushing

variable {id : Nat} {slot : Int} (runtime : Nat) (registry : Option Nat)

theorem bind_registryGet {α : Type} (next : Registry → H α) :
    (Registry.get id >>= next) env w = next (w.registries.get id) env w := rfl

/-- Pushing a reference whose registry has no machine any more. -/
theorem pushHost_closed (l : Option Handle) (h : w.machineOf (w.references.get id).registry = none) :
    pushHost runtime l (.reference id) registry env w =
      .error (.failure (.raised "LuaStateClosed" "registry reference used after its State was closed")) w := by
  have run : pushHost runtime l (.reference id) registry env w =
      Registry.push (w.references.get id).registry (w.references.get id).slot l env w := rfl
  rw [World.machineOf] at h
  rw [run]
  unfold Registry.push
  rw [bind_registryGet, h, Option.isNone_none, if_pos rfl]
  rfl

/-- Pushing a reference whose registry has a machine, whichever machine it is pushed to. -/
theorem pushHost_entry {m : Nat} {t : Handle} (h : w.machineOf (w.references.get id).registry = some m)
    (hm : w.machines.get t.machine = .open vm)
    (hg : (w.runtimes.get (w.registries.get (w.references.get id).registry).runtime).generation = vm.generation) :
    pushHost runtime (some t) (.reference id) registry env w =
      .ok () (w.pushed t vm (vm.entry (Int64.ofInt (conveyed vm.generation (w.references.get id).slot)))) := by
  have run : pushHost runtime (some t) (.reference id) registry env w =
      Registry.push (w.references.get id).registry (w.references.get id).slot (some t) env w := rfl
  obtain ⟨tag, pushed⟩ := @runWith_pushRef env w vm _ t (w.references.get id).slot hm hg
  rw [World.machineOf] at h
  rw [run]
  unfold Registry.push
  rw [bind_registryGet, h, Option.isNone_some, if_neg Bool.false_ne_true]
  simp only [Functor.discard, Functor.mapConst, EStateM.map, Function.comp_apply]
  exact pushed ▸ rfl

theorem pushHost_open {m : Nat} {t : Handle} (h : w.machineOf (w.references.get id).registry = some m)
    (hm : w.machines.get t.machine = .open vm)
    (hg : (w.runtimes.get (w.registries.get (w.references.get id).registry).runtime).generation = vm.generation)
    (hs : Exact vm.generation (w.references.get id).slot) :
    pushHost runtime (some t) (.reference id) registry env w =
      .ok () (w.pushed t vm (vm.entry (Int64.ofInt (w.references.get id).slot))) := by
  rw [pushHost_entry runtime registry h hm hg, hs]

end Pushing

/-- A reference that is held is the one that was made, and its slot has what was pinned. -/
theorem World.Assigned.denotes (ha : w.Assigned g) {id m : Nat} (hh : (w.references.get id).holds = true)
    (home : w.machineOf (w.references.get id).registry = some m) (hm : w.machines.get m = .open vm)
    (fine : vm.breached = false) :
    Host.allocated m (w.references.get id).slot w.journal = some (vm.entry (Int64.ofInt (w.references.get id).slot)) := by
  obtain ⟨v, hv, backed⟩ := (ha.taken m _ none (.reference id) ⟨home, hh, rfl, rfl⟩).backed
  rw [hv, (backed vm hm).entry fine]

/-- The numbers of references are passed on as they are. -/
theorem World.Assigned.exact (ha : w.Assigned g) {id m : Nat} (home : w.machineOf (w.references.get id).registry = some m) :
    Exact g (w.references.get id).slot := by
  cases hh : (w.references.get id).holds with
  | true => exact (ha.taken m _ none (.reference id) ⟨home, hh, rfl, rfl⟩).proper.exact
  | false =>
    obtain none | none := Reference.slot_of_not_holds hh
    · rw [none]
      cases g <;> rfl
    · rw [none]
      cases g <;> rfl

section Made

variable {registry id : Nat} {l : Option Handle} {t₀ : Handle} {vm₀ : Vm} {w₀ w₁ : World}
  (from_ : (l <|> (w₀.registries.get registry).handle) = some t₀) (home₀ : w₀.machineOf registry = some t₀.machine)

include from_ home₀

/-- Making a reference is a move. -/
theorem pinTop_move (pin : Registry.pinTop registry l env w₀ = .ok id w₁) : Move w₀ w₁ := by
  obtain ⟨-, t, vm, slot, vm', same, hm, pins, rfl⟩ := pinTop_referenced pin
  cases from_.symm.trans same
  exact .referenced hm ⟨World.lt_size_of_machineOf home₀, .inr home₀⟩ pins

variable (h₀ : Stages g (Session.start g) w₀) (open₀ : w₀.machines.get t₀.machine = .open vm₀)
  (pin : Registry.pinTop registry l env w₀ = .ok id w₁) (later : Stages g w₁ w) (hr : Reliable g w.journal)

include h₀ pin later

theorem pinned_lawful : w.Lawful g :=
  Stages.lawful (h₀.trans ((pinTop_move from_ home₀ pin).moves.quiets.stages.trans later)) (start_lawful g)

include hr

theorem pinned_carries : w₁.Carries g w := by
  have made : Stages g (Session.start g) w₁ := h₀.trans (pinTop_move from_ home₀ pin).moves.quiets.stages
  obtain ⟨es, he⟩ := Stages.journal later
  have assigned := (Stages.carries made (start_lawful g) (start_assigned g) (.of_append (he ▸ hr))).assigned
  exact Stages.carries later (Stages.lawful made (start_lawful g)) assigned hr

include open₀

/-- A reference that is held pins what was on top of the stack when it was made. -/
theorem pinned_allocated {m : Nat} (hh : (w.references.get id).holds = true)
    (home : w.machineOf (w.references.get id).registry = some m) :
    Host.allocated m (w.references.get id).slot w.journal = some (vm₀.top t₀.thread) := by
  have carries := pinned_carries from_ home₀ h₀ pin later hr
  obtain ⟨rfl, t, vm, slot, vm', same, hm, pins, rfl⟩ := pinTop_referenced pin
  cases from_.symm.trans same
  cases open₀.symm.trans hm
  have new : w₀.references.size < (w₀.references.add ⟨registry, slot⟩).size := by
    rw [Pool.size_add]
    exact Nat.lt_succ_self _
  have stays := carries.stays m (w.references.get w₀.references.size).slot none _ new ⟨home, hh, rfl, rfl⟩
  obtain ⟨home₁, holds₁, slot₁, -⟩ := stays.held
  dsimp only [World.referenced] at home₁ holds₁ slot₁
  rw [Pool.get_add_self] at home₁ holds₁ slot₁
  cases home₀.symm.trans home₁
  rw [stays.allocated, ← slot₁]
  cases nil : (vm₀.top t₀.thread).isNil with
  | false => exact allocated_pinned nil
  | true =>
    rw [pins.nil (Lua.Value.eq_nil_of_isNil nil)] at holds₁
    cases holds₁

end Made

/-- A reference that was made at some moment, pushed at a later one, to any thread of any machine and also
from inside a function of the environment. When its registry has been closed the push fails and changes
nothing. Otherwise one value is pushed. On the machine of its registry, as long as no program has written
the entries of the registry's table itself, this is the value that was on top of the stack when the
reference was made, and nil if the reference holds no slot. On another machine it is what that machine has
in the slot of the same number. -/
theorem reference_denotes {registry id : Nat} {l : Option Handle} {t₀ : Handle} {vm₀ : Vm} {w₀ w₁ : World}
    (h₀ : Stages g (Session.start g) w₀) (from_ : (l <|> (w₀.registries.get registry).handle) = some t₀)
    (home₀ : w₀.machineOf registry = some t₀.machine) (open₀ : w₀.machines.get t₀.machine = .open vm₀)
    (pin : Registry.pinTop registry l env w₀ = .ok id w₁) (later : Stages g w₁ w) (hr : Reliable g w.journal)
    (runtime : Nat) (wrapping : Option Nat) (t : Handle) :
    (w.machineOf (w.references.get id).registry = none →
      pushHost runtime (some t) (.reference id) wrapping env w =
        .error (.failure (.raised "LuaStateClosed" "registry reference used after its State was closed")) w) ∧
    ∀ m vm, w.machineOf (w.references.get id).registry = some m → w.machines.get t.machine = .open vm →
      ∃ v, pushHost runtime (some t) (.reference id) wrapping env w = .ok () (w.pushed t vm v) ∧
        (t.machine = m → vm.breached = false → v = if (w.references.get id).holds then vm₀.top t₀.thread else .nil) ∧
        (t.machine ≠ m → v = vm.entry (Int64.ofInt (w.references.get id).slot)) := by
  refine ⟨pushHost_closed runtime wrapping (some t), fun m vm home hm => ?_⟩
  have lawful := pinned_lawful from_ home₀ h₀ pin later
  have assigned := (pinned_carries from_ home₀ h₀ pin later hr).assigned
  have generation : vm.generation = g := lawful.generations _ _ hm
  have runs : (w.runtimes.get (w.registries.get (w.references.get id).registry).runtime).generation = vm.generation :=
    (lawful.generation _ (lawful.registryRuntime _)).trans generation.symm
  have exact_ : Exact vm.generation (w.references.get id).slot := generation.symm ▸ assigned.exact home
  refine ⟨_, pushHost_open runtime wrapping home hm runs exact_, ?_, fun _ => rfl⟩
  rintro rfl fine
  cases hh : (w.references.get id).holds with
  | true =>
    have pinned := pinned_allocated from_ home₀ h₀ open₀ pin later hr hh home
    exact Option.some_inj.mp ((assigned.denotes hh home hm fine).symm.trans pinned)
  | false =>
    have vacant := (assigned.tame _ _ hm fine).vacant
    obtain none | none := Reference.slot_of_not_holds hh
    · rw [none]
      exact vacant _ (by decide)
    · rw [none]
      exact vacant _ (by decide)

/-- Whether a machine is open and as it should be. -/
def World.shows (w : World) (m : Nat) (p : Vm → Bool) : Bool :=
  match w.machines.get m with
  | .open vm => p vm
  | _ => false

theorem World.open_of_shows {m : Nat} {p : Vm → Bool} (h : w.shows m p = true) :
    ∃ vm, w.machines.get m = .open vm ∧ p vm = true := by
  unfold World.shows at h
  split at h
  · next vm hv => exact ⟨vm, hv, h⟩
  · cases h

def isTrue : Lua.Value → Bool
  | .bool b => b
  | _ => false

theorem eq_true_of_isTrue {v : Lua.Value} (h : isTrue v = true) : v = .bool true := by
  cases v with
  | bool b => exact congrArg _ h
  | _ => cases h

/-- A state with a value on its stack. -/
def loaded : List Step := [⟨"s", none, .new none none .create true⟩, ⟨"s", none, .pushHost (.bool true) true⟩]

def loadedWorld : World := Session.runAll (Session.start .v54) loaded

theorem loadedWorld_reached : Session.Reached .v54 loadedWorld := by
  have plain : ∀ s ∈ loaded, s.command.Plain := by
    intro s hs
    simp only [loaded, List.mem_cons, List.not_mem_nil, or_false] at hs
    obtain rfl | rfl := hs <;> trivial
  exact Session.Runs.refl.runAll plain (by decide +kernel)

/-- The value on top is pinned, and pushed again. -/
theorem reference_denotes_true : ∃ id w₁ vm, Registry.pinTop 0 none Env.full loadedWorld = .ok id w₁ ∧
    pushHost 0 (some (.main 0)) (.reference id) none Env.full w₁ = .ok () (w₁.pushed (.main 0) vm (.bool true)) := by
  obtain ⟨vm₀, open₀, shown⟩ := World.open_of_shows
    (by decide +kernel : loadedWorld.shows 0 (fun vm => isTrue (vm.top 0)) = true)
  obtain ⟨id, w₁, pin⟩ := Session.ok_of_succeeds
    (by decide +kernel : Session.succeeds (Registry.pinTop 0 none Env.full loadedWorld) = true)
  have same : w₁ = final (Registry.pinTop 0 none Env.full loadedWorld) := by
    rw [pin]
    rfl
  obtain ⟨first, -⟩ := pinTop_referenced pin
  have zero : id = 0 := first.trans (by decide +kernel)
  have reliable : Reliable .v54 w₁.journal := by
    rw [same]
    decide +kernel
  have home : w₁.machineOf (w₁.references.get id).registry = some 0 := by
    rw [same, zero]
    decide +kernel
  have holds : (w₁.references.get id).holds = true := by
    rw [same, zero]
    decide +kernel
  obtain ⟨vm, open₁, fine⟩ := World.open_of_shows (by rw [same]; decide +kernel : w₁.shows 0 (fun vm => !vm.breached) = true)
  have main : (none <|> (loadedWorld.registries.get 0).handle) = some (Handle.main 0) := by decide +kernel
  have denotes := (reference_denotes (reached_stages loadedWorld_reached) main (by decide +kernel) open₀ pin .refl
    reliable 0 none (.main 0)).2
  obtain ⟨v, pushed, own, -⟩ := denotes 0 vm home open₁
  have value : v = vm₀.top 0 := by
    rw [own rfl (Bool.not_eq_true' _ |>.mp fine), holds, if_pos rfl]
    rfl
  rw [value, eq_true_of_isTrue shown] at pushed
  exact ⟨id, w₁, vm, pin, pushed⟩

/-- References of two machines in slots of one number. -/
def apart : List Step :=
  [⟨"s", none, .new none none .create true⟩, ⟨"t", none, .new none none .create true⟩,
    ⟨"s", none, .execute (.text "x = {}")⟩, ⟨"t", none, .execute (.text "y = 'other'")⟩,
    ⟨"s", some "r", .ref (.path [.text "x"])⟩, ⟨"t", some "q", .ref (.path [.text "y"])⟩]

def assignElsewhere : Step := ⟨"t", none, .set (.path [.text "z"]) (.reference 0) false⟩

def answers (p : Answer → Bool) (a : StepAnswer) : Bool :=
  match a.result with
  | .ok x => p x
  | .error _ => false

/-- The reference to the table of one machine is held, its registry is not closed, and assigning it on the
other machine succeeds: it assigns the string that this machine has in the slot of the same number. -/
theorem reference_elsewhere :
    let w := Session.runAll (Session.start .v54) apart
    w.machineOf (w.references.get 0).registry = some 0 ∧ (w.references.get 0).holds = true ∧
      answers (fun | .bool b => b | _ => false) (Session.step w assignElsewhere).1 = true ∧
      answers (fun | .text t => t == "other" | _ => false)
        (Session.step (Session.step w assignElsewhere).2 ⟨"t", none, .get (.path [.text "z"])⟩).1 = true :=
  ⟨by decide +kernel, by decide +kernel, by decide +kernel, by decide +kernel⟩

end LuaHost.Host
