import LuaHost.Proofs.Openings.Loaders
import LuaHost.Proofs.Lives.Sessions

set_option autoImplicit false

/-!
# Modules that fail to open

A loader that raises is told of once and gives nothing, and nothing is all that the machine learns of it. Where the
interface has no call that registers modules, the machine is left as the loader left it. Where it has one, what the
loader did not give is registered: the module and the global of the name are gone, whatever they were before.
-/

namespace LuaHost.Host

open Lua (Vm)

namespace State

variable {s : State} {w : World} {vm : Vm} {m l : Nat} {name : Text} {bytes : ByteArray}

/-- A loader that raises before it has changed anything of the machine: the reporter is told of this once, the stack is
as it was, and so is every entry of every table, but for the two entries of the name where the interface registers
modules. These are nil then. -/
theorem failed_opening (calls : List RoutineCall) (result : Value) (raises : Option (String × Text)) (hs : s.machine = some m) (hm : w.machines.get m = .open vm) (small : vm.stack.size < 0x80000000)
    (few : vm.natives + 1 < Lua.nativeLimit) (depth : Nat) (named : encode name = .ok bytes) (whole : upToNul bytes = bytes)
    (ready : (w.runtimes.get s.runtime).registers = true → (w.runtimes.get s.runtime).generation ≠ .v51 ∧ vm.Takes l ∧
      (vm.generation.since .v53 = true → ((vm.tables.get l).get (.str bytes)).truthy = false))
    (fails : ∀ W, w.Offers m vm (w.opener s.registry m (.raw calls result raises)) [.str bytes] W → ∃ e w₁ vm₁,
      (w.opener s.registry m (.raw calls result raises)).raw (.main m) calls result raises ⟨nativesTo depth⟩ W = .error (.failure e) w₁ ∧
        w₁.machines.get m = .open vm₁ ∧ vm.Akin vm₁) :
    ∃ W e w₁ w' vm', w.Offers m vm (w.opener s.registry m (.raw calls result raises)) [.str bytes] W ∧
      (w.opener s.registry m (.raw calls result raises)).raw (.main m) calls result raises ⟨nativesTo depth⟩ W = .error (.failure e) w₁ ∧
      s.openLib (.text name) (.routine (.raw calls result raises)) ⟨nativesTo (depth + 1)⟩ w = .ok () w' ∧
      w' = (w₁.told (w.opener s.registry m (.raw calls result raises)) e).put m vm' ∧ vm'.stack = vm.stack ∧
      (vm.registered (w.runtimes.get s.runtime).registers l bytes .nil).Akin vm' ∧
      ∀ b j, (vm'.tables.get b).get j =
        if (w.runtimes.get s.runtime).registers = true ∧ (b = l ∨ b = vm.globals) ∧ j = .str bytes then .nil
        else (vm.tables.get b).get j := by
  let f := w.opener s.registry m (.raw calls result raises)
  obtain ⟨W, offers, runs⟩ := openLib_runs hs hm small few depth (.raw calls result raises) named whole ready
  obtain ⟨e, w₁, vm₁, raised, hm₁, akin₁⟩ := fails W offers
  have gave : Gave (f.call (.main m) ⟨nativesTo depth⟩ W) 0 (w₁.told f e) := f.call_raised rfl rfl raised
  obtain ⟨vm', run, akin, restored⟩ := runs 0 _ vm₁ [] vm₁.stack gave hm₁ (Array.append_empty).symm rfl
    fun registers => akin₁.takes (ready registers).2.1
  have akin' := (akin₁.registered (w.runtimes.get s.runtime).registers l bytes .nil).trans akin
  refine ⟨W, e, w₁, _, vm', offers, raised, run, rfl, restored, akin', fun b j => ?_⟩
  rw [akin'.tables]
  exact vm.entry_registered _ l bytes .nil b j

/-- A session in which a name has a value. -/
def holding : World :=
  Session.runAll (Session.start .v54) [⟨"s", none, .new (some true) none .create true⟩, ⟨"s", none, .execute (.text "m = 1")⟩]

/-- The value is gone after a loader of that name has failed. -/
theorem failed_opening_held : ∃ vm w' vm', holding.machines.get 0 = .open vm ∧
    ((vm.tables.get vm.globals).get (.str "m".toUTF8)).isNil = false ∧
    (holding.states.get 0).openLib (.text "m") (.routine (.raw [] (.int 0) (some ("RuntimeError", "boom")))) Env.full holding = .ok () w' ∧
    w'.machines.get 0 = .open vm' ∧ vm'.stack = vm.stack ∧ (vm'.tables.get vm.globals).get (.str "m".toUTF8) = .nil := by
  have machine : (holding.states.get 0).machine = some 0 := by decide +kernel
  have modern : (holding.runtimes.get (holding.states.get 0).runtime).registers = true ∧
      (holding.runtimes.get (holding.states.get 0).runtime).generation ≠ .v51 := by decide +kernel
  obtain ⟨vm, hm, fit⟩ := World.open_of_shows (by decide +kernel : holding.shows 0 (fun vm => vm.isReady "m".toUTF8 &&
    decide (vm.stack.size < 0x80000000 ∧ vm.natives + 1 < Lua.nativeLimit ∧
      ((vm.tables.get vm.globals).get (.str "m".toUTF8)).isNil = false)) = true)
  obtain ⟨ready, fit⟩ := Bool.and_eq_true_iff.mp fit
  obtain ⟨small, few, held⟩ := of_decide_eq_true fit
  obtain ⟨l, takes, new⟩ := Lua.Vm.takes_of_isReady ready
  obtain ⟨W, e, w₁, w', vm', -, -, run, rfl, restored, -, entries⟩ := failed_opening [] (.int 0) (some ("RuntimeError", "boom"))
    machine hm small few 4999 (rfl : encode "m" = .ok "m".toUTF8) (by decide +kernel) (fun _ => ⟨modern.2, takes, fun _ => new⟩) fun W offers => by
      obtain ⟨vm₁, hm₁, akin, -⟩ := offers.opened
      exact ⟨_, W, vm₁, rfl, hm₁, akin⟩
  refine ⟨vm, _, vm', hm, held, run, World.get_put _ _ _, restored, ?_⟩
  rw [entries, if_pos ⟨modern.1, .inr rfl, rfl⟩]

end State

end LuaHost.Host
