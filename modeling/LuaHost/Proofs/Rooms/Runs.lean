import LuaHost.Proofs.Rooms.Trampolines
import LuaHost.Session.Run

set_option autoImplicit false

/-!
# Room along a run

What a host does through its selectors, its scripts and single conversions, one after another, pushes nothing
that has no room, and neither do the functions of the host that machines call on the way. Where a request for
room was refused, or the results of a call have filled the room, nothing is promised and nothing is said.
-/

namespace LuaHost.Host

open Lua (Thread)

variable {env : Env} {L : Layout}

/-- What a host asks of a machine. -/
inductive Errand where
  | exists_ (s : Selector)
  | get (s : Selector)
  | ref (s : Selector)
  | set (s : Selector) (v : Value)
  | call (s : Selector) (args : List Value)
  | execute (s : State) (source : Value)
  | toHost (runtime : Nat) (h : Handle) (i : Int) (registry : Option Nat)

namespace Errand

def run : Errand → H Unit
  | exists_ s => discard s.exists_
  | get s => discard s.get
  | ref s => discard s.ref
  | set s v => discard (s.set v)
  | call s args => discard (s.call args)
  | execute s source => discard (s.execute source)
  | toHost runtime h i registry => discard (Host.toHost runtime (some h) i registry)

/-- The registry of a selector goes with its machine. -/
def Agrees (L : Layout) : Errand → Prop
  | exists_ s | get s | ref s | set s _ | call s _ => L.Agrees s.registry s.machine
  | execute .. | toHost .. => True

/-- The world after errands, each run to its end, however it ends. -/
def runAll (env : Env) (w : World) (errands : List Errand) : World := errands.foldl (fun w e => final (e.run env w)) w

end Errand

theorem Spares.discard {α : Type} {act : H α} (ha : Spares env L act) : Spares env L (discard act) := by
  constructor
  intro w hw
  have settled := ha.after w hw
  simp only [Functor.discard, Functor.mapConst, EStateM.map, Function.comp_apply]
  cases e : act env w with
  | ok a w' =>
    rw [e] at settled
    exact settled
  | error x w' =>
    rw [e] at settled
    exact settled

/-- A single conversion takes room for a copy on any thread that is ready. -/
theorem Spares.toHost (runtime : Nat) (h : Handle) (i : Int) (registry : Option Nat) :
    Spares env L (Host.toHost runtime (some h) i registry) := by
  by_cases opened : L.opened h.machine
  · have ready (n : Nat) (th : Thread) (holds : th.Holds (·.Promises n 1) n) : th.Ready := holds.ready fun _ h => h
    exact of_affords opened (.at_depth fun n => (Affords.toHost (fun _ h => h) (ready n) i registry).post fun _ => ready n)
  · constructor
    intro w hw
    have closed : ¬ w.Open h.machine := fun there => opened ((hw.opened h.machine).mp there)
    have looked : runWith runtime (some h) (fun _ => Binding.Api.type i) env w = .error (.signal (.fault .closedHandle)) w :=
      runWith_closed (fun _ => .type i) id (fun _ => nofun) (fun _ => nofun) (fun _ => rfl) closed
    change (final ((runWith runtime (some h) (fun _ => Binding.Api.type i) >>= _) env w)).Settled L
    rw [bind_error looked]
    exact hw

/-- One errand leaves every thread ready. -/
theorem Errand.run_spares (sparing : env.Sparing L) {e : Errand} (agrees : e.Agrees L) : Spares env L e.run := by
  cases e with
  | exists_ s => exact .discard (.exists_ sparing agrees)
  | get s => exact .discard (.get sparing agrees)
  | ref s => exact .discard (.ref sparing agrees)
  | set s v => exact .discard (.set sparing agrees v)
  | call s args => exact .discard (.call sparing agrees args)
  | execute s source => exact .discard (.execute sparing s source)
  | toHost runtime h i registry => exact .discard (.toHost runtime h i registry)

/-- From a settled world, however many values a path, a call or a callback has, and of whatever types, no push
is made without room: before it, a request for more was refused or results filled the room, or there was room. -/
theorem pushes_have_room (L : Layout) (w : World) (settled : w.Settled L) (errands : List Errand)
    (agree : ∀ e ∈ errands, e.Agrees L) :
    (Errand.runAll Env.full w errands).Settled L ∧
      ∀ m vm, (Errand.runAll Env.full w errands).machines.get m = .open vm → ∀ t, (vm.threads.get t).overdrawn = false := by
  have run : (Errand.runAll Env.full w errands).Settled L := by
    unfold Errand.runAll
    induction errands generalizing w with
    | nil => exact settled
    | cons e rest ih =>
      have step : Spares Env.full L e.run := e.run_spares (nativesTo_sparing depthLimit) (agree e (.head _))
      exact ih _ (step.after w settled) fun e he => agree e (.tail _ he)
  exact ⟨run, fun m vm there t => (run.ready m vm there t).covered⟩

/-- A world with one new machine and a registry for it. -/
def singleWorld : World :=
  { Session.start .v54 with
    machines := Pool.empty.put 0 (.open (Lua.Stack.newMachine .v54))
    registries := .ofList [⟨0, some 0, 0, []⟩] }

def singleLayout : Layout := ⟨fun id => if id = 0 then some 0 else none, fun m => m = 0⟩

theorem singleWorld_settled : singleWorld.Settled singleLayout := by
  have only (m : Nat) (vm : Lua.Vm) (there : singleWorld.machines.get m = .open vm) : m = 0 ∧ vm = Lua.Stack.newMachine .v54 := by
    by_cases hm : m = 0
    · subst hm
      have first : singleWorld.machines.get 0 = .open (Lua.Stack.newMachine .v54) := Pool.get_put_self _ _ _
      rw [first] at there
      cases there
      exact ⟨rfl, rfl⟩
    · have other : singleWorld.machines.get m = .closed := Pool.get_put_ne _ hm _
      rw [other] at there
      cases there
  refine ⟨fun m vm there => ?_, fun m => ⟨fun ⟨vm, there⟩ => (only m vm there).1, ?_⟩, fun id m hm => ?_, (fun id m n hm => nomatch hm),
    fun id calls result raises hr => ?_⟩
  · rw [(only m vm there).2]
    exact World.newMachine_ready .v54
  · rintro rfl
    exact ⟨_, Pool.get_put_self _ _ _⟩
  · cases id with
    | zero =>
      cases hm
      exact ⟨rfl, rfl⟩
    | succ id => cases hm
  · cases hr
    exact ⟨rfl, rfl⟩

/-- A callback is stored and called through a path. -/
theorem pushes_have_room_called :
    let place : Selector := ⟨0, some 0, 0, 0, .text "f", []⟩
    let errands := [Errand.set place (.callable (.named "f" .echo)), .call place [.int 1, .text "x"]]
    (singleWorld.Settled singleLayout ∧ ∀ e ∈ errands, e.Agrees singleLayout) ∧
      (Errand.runAll Env.full singleWorld errands).Settled singleLayout := by
  intro place errands
  have agree : ∀ e ∈ errands, e.Agrees singleLayout := by
    have agrees : singleLayout.Agrees 0 (some 0) := fun m n hm hn => by
      cases hm
      cases hn
      rfl
    intro e he
    simp only [errands, List.mem_cons, List.not_mem_nil, or_false] at he
    obtain rfl | rfl := he
    · exact agrees
    · exact agrees
  exact ⟨⟨singleWorld_settled, agree⟩, (pushes_have_room singleLayout singleWorld singleWorld_settled errands agree).1⟩

end LuaHost.Host
