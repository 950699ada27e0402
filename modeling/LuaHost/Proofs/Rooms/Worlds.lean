import LuaHost.Proofs.Moves.Calls
import LuaHost.Proofs.Rooms.Stack

set_option autoImplicit false

/-!
# Room in a world

A world is settled when every thread of every machine is ready. While an operation works on one thread, its
world is settled but for that thread. Which machines are open does not change, nor which of them a registry
belongs to; no registry has outlived its machine.
-/

namespace LuaHost.Host

open Lua (M Vm Room Thread Covers Reads Within Sys)
open Binding (Call Program Runtime)

/-- A function of the host that does not convert values leaves the stack alone. -/
def Foreign.Tame (f : Foreign) : Prop :=
  ∀ calls result raises, f.routine = .raw calls result raises → calls = [] ∧ result = .none

/-- The machine that each registry belongs to, and the machines that are open. -/
structure Layout where
  home : Nat → Option Nat
  opened : Nat → Prop

/-- A registry that goes with a machine belongs to no other. -/
def Layout.Agrees (L : Layout) (registry : Nat) (machine : Option Nat) : Prop :=
  ∀ m n, machine = some m → L.home registry = some n → n = m

namespace World

/-- A world all of whose threads are ready. -/
structure Settled (L : Layout) (w : World) : Prop where
  ready : ∀ m vm, w.machines.get m = .open vm → vm.Ready
  opened : ∀ m, w.Open m ↔ L.opened m
  registry : ∀ id m, (w.registries.get id).machine = some m → L.home id = some m ∧ L.opened m
  state : ∀ id, L.Agrees (w.states.get id).registry (w.states.get id).machine
  tame : ∀ id, (w.foreigns.get id).Tame

/-- A world that is settled once machine `m`, which is elsewhere, is put back ready. -/
def Lacks (L : Layout) (m : Nat) (w : World) : Prop :=
  ∀ vm : Vm, vm.Ready → Settled L { w with machines := w.machines.put m (.open vm) }

/-- A world that is settled but for one thread of an open machine, of which `T` holds. -/
def Works (L : Layout) (h : Handle) (T : Thread → Prop) (w : World) : Prop :=
  ∃ vm, w.machines.get h.machine = .open vm ∧ Sys.Around (Lacks L h.machine) h.thread T ⟨vm, w⟩

variable {L : Layout} {h : Handle} {T T' : Thread → Prop} {m : Nat} {w w' : World}

theorem lacks_put {s : Slot} : Lacks L m { w with machines := w.machines.put m s } ↔ Lacks L m w := by
  unfold Lacks
  simp only [Pool.put_put]

theorem Settled.lacks (settled : w.Settled L) (opened : L.opened m) : Lacks L m w := by
  intro vm ready
  refine ⟨fun n vm' hn => ?_, fun n => ?_, settled.registry, settled.state, settled.tame⟩
  · by_cases same : n = m
    · subst same
      rw [Pool.get_put_self] at hn
      cases hn
      exact ready
    · rw [Pool.get_put_ne _ same] at hn
      exact settled.ready n vm' hn
  · by_cases same : n = m
    · subst same
      exact ⟨fun _ => opened, fun _ => ⟨vm, Pool.get_put_self _ _ _⟩⟩
    · unfold Open
      rw [Pool.get_put_ne _ same]
      exact settled.opened n

theorem Lacks.settled {vm : Vm} (lacks : Lacks L m w) (there : w.machines.get m = .open vm) (ready : vm.Ready) :
    w.Settled L := by
  have put := lacks vm ready
  have other {n : Nat} (differs : n ≠ m) : (w.machines.put m (.open vm)).get n = w.machines.get n := Pool.get_put_ne _ differs _
  refine ⟨fun n vm' hn => ?_, fun n => ?_, put.registry, put.state, put.tame⟩
  · by_cases same : n = m
    · subst same
      rw [there] at hn
      cases hn
      exact ready
    · exact put.ready n vm' ((other same).trans hn)
  · by_cases same : n = m
    · subst same
      exact ⟨fun _ => (put.opened n).mp ⟨vm, Pool.get_put_self _ _ _⟩, fun _ => ⟨vm, there⟩⟩
    · have iff := put.opened n
      unfold Open at iff ⊢
      rwa [other same] at iff

theorem newMachine_ready (g : Lua.Generation) : (Lua.Stack.newMachine g).Ready := by
  have threads : (Lua.Stack.newMachine g).threads = .ofList [{ Thread.fresh with status := .running }] := by
    unfold Lua.Stack.newMachine
    split
    · rfl
    · rfl
  have fresh : Thread.fresh.Ready := .of_small rfl (Nat.le_refl _) (show (#[] : Array Lua.Value).size < Lua.minimumRoom by decide)
  intro t
  rw [threads]
  cases t with
  | zero => exact fresh.of_same rfl rfl rfl
  | succ t => exact fresh

theorem Lacks.opened (lacks : Lacks L m w) : L.opened m :=
  ((lacks _ (newMachine_ready .v51)).opened m).mp ⟨_, Pool.get_put_self _ _ _⟩

theorem Works.mono (works : w.Works L h T) (hT : ∀ th, T th → T' th) : w.Works L h T' := by
  obtain ⟨vm, there, around⟩ := works
  exact ⟨vm, there, hT _ around.here, around.others, around.host⟩

theorem Works.settled (works : w.Works L h T) (hT : ∀ th, T th → th.Ready) : w.Settled L := by
  obtain ⟨vm, there, around⟩ := works
  exact around.host.settled there (around.ready hT)

theorem Settled.works (settled : w.Settled L) (opened : L.opened h.machine) : w.Works L h Thread.Ready := by
  obtain ⟨vm, there⟩ := (settled.opened h.machine).mpr opened
  exact ⟨vm, there, .of_ready (settled.ready _ vm there) (settled.lacks opened) h.thread⟩

/-- A registry that has a machine has an open one, even while a thread is not ready. -/
theorem Works.housed (works : w.Works L h T) (id m : Nat) (hm : (w.registries.get id).machine = some m) : w.Open m := by
  obtain ⟨vm, there, around⟩ := works
  have put := around.host _ (newMachine_ready .v51)
  by_cases same : m = h.machine
  · exact ⟨vm, same ▸ there⟩
  · obtain ⟨vm', hvm⟩ := (put.opened m).mpr (put.registry id m hm).2
    exact ⟨vm', (Pool.get_put_ne _ same _).symm.trans hvm⟩

/-! ## Worlds with the same threads -/

end World

/-- The threads of a machine stay as they are. -/
inductive Slot.Similar : Slot → Slot → Prop where
  | same (s : Slot) : Similar s s
  | open {vm vm' : Vm} (threads : vm'.threads = vm.threads) : Similar (.open vm) (.open vm')

/-- What does not touch any thread, or where registries belong, does to a world. -/
structure World.Similar (w w' : World) : Prop where
  machine : ∀ m, (w.machines.get m).Similar (w'.machines.get m)
  registry : ∀ id, (w'.registries.get id).machine = (w.registries.get id).machine
  state : w'.states = w.states
  tame : ∀ id, (w.foreigns.get id).Tame → (w'.foreigns.get id).Tame

namespace Slot.Similar

variable {a b c : Slot}

theorem trans (h : a.Similar b) (k : b.Similar c) : a.Similar c := by
  cases h with
  | same => exact k
  | «open» threads =>
    cases k with
    | same => exact .open threads
    | «open» threads' => exact .open (threads'.trans threads)

theorem inv_open {vm : Vm} (h : a.Similar (.open vm)) : ∃ vm', a = .open vm' ∧ vm.threads = vm'.threads := by
  cases h with
  | same => exact ⟨vm, rfl, rfl⟩
  | «open» threads => exact ⟨_, rfl, threads⟩

theorem to_open {vm : Vm} (h : Slot.Similar (.open vm) a) : ∃ vm', a = .open vm' ∧ vm'.threads = vm.threads := by
  cases h with
  | same => exact ⟨vm, rfl, rfl⟩
  | «open» threads => exact ⟨_, rfl, threads⟩

end Slot.Similar

namespace World.Similar

variable {L : Layout} {h : Handle} {T : Thread → Prop} {m : Nat} {w w' w'' : World}

theorem refl (w : World) : w.Similar w := ⟨fun _ => .same _, fun _ => rfl, rfl, fun _ h => h⟩

theorem trans (h : w.Similar w') (k : w'.Similar w'') : w.Similar w'' :=
  ⟨fun m => (h.machine m).trans (k.machine m), fun id => (k.registry id).trans (h.registry id), k.state.trans h.state,
    fun id tame => k.tame id (h.tame id tame)⟩

/-- A change of a world beside its machines. -/
theorem of_eq (machines : w'.machines = w.machines) (registries : w'.registries = w.registries)
    (states : w'.states = w.states) (foreigns : w'.foreigns = w.foreigns) : w.Similar w' :=
  ⟨fun m => machines ▸ .same _, fun _ => by rw [registries], states, fun id tame => foreigns ▸ tame⟩

theorem put (similar : w.Similar w') (s : Slot) :
    World.Similar { w with machines := w.machines.put m s } { w' with machines := w'.machines.put m s } := by
  refine ⟨fun n => ?_, similar.registry, similar.state, similar.tame⟩
  by_cases same : n = m
  · subst same
    simp only [Pool.get_put_self]
    exact .same _
  · simp only [Pool.get_put_ne _ same]
    exact similar.machine n

theorem opened (similar : w.Similar w') (m : Nat) : w'.Open m ↔ w.Open m := by
  constructor
  · rintro ⟨vm, there⟩
    obtain ⟨vm', before, -⟩ := (there ▸ similar.machine m).inv_open
    exact ⟨vm', before⟩
  · rintro ⟨vm, there⟩
    obtain ⟨vm', after, -⟩ := (there ▸ similar.machine m).to_open
    exact ⟨vm', after⟩

theorem settled (similar : w.Similar w') (settled : w.Settled L) : w'.Settled L := by
  refine ⟨fun m vm there => ?_, fun m => (similar.opened m).trans (settled.opened m), fun id m hm => ?_, fun id => ?_,
    fun id => similar.tame id (settled.tame id)⟩
  · obtain ⟨vm', before, threads⟩ := (there ▸ similar.machine m).inv_open
    unfold Vm.Ready
    rw [threads]
    exact settled.ready m vm' before
  · exact settled.registry id m (similar.registry id ▸ hm)
  · rw [similar.state]
    exact settled.state id

theorem lacks (similar : w.Similar w') (lacks : World.Lacks L m w) : World.Lacks L m w' :=
  fun vm ready => (similar.put (.open vm)).settled (lacks vm ready)

theorem works (similar : w.Similar w') (works : w.Works L h T) : w'.Works L h T := by
  obtain ⟨vm, there, around⟩ := works
  obtain ⟨vm', after, threads⟩ := (there ▸ similar.machine h.machine).to_open
  exact ⟨vm', after, around.of_still (u := ⟨vm', w'⟩) threads (similar.lacks around.host)⟩

end World.Similar
end LuaHost.Host
