import LuaHost.Proofs.Lives.Trampolines
import LuaHost.Proofs.Reports.Modules

set_option autoImplicit false

/-!
# Finalizers that raise

A collection calls finalizers without protection. In the newest generation it ignores their errors, in the
others it hands the first one on; a machine that closes ignores them in every generation. So collecting
and closing come back, unless the machine itself gives up in a finalizer, or one of an older generation
raises an error while the garbage is collected.
-/

namespace LuaHost.Lua.M

variable {σ : Type} {call : Value → List Value → M σ (List Value)} {closing : Bool} {g : Generation} {s t : Sys σ}
  {e : Signal}

/-- The finalizer of some object, called with the object, ends by a signal. -/
def Fails (call : Value → List Value → M σ (List Value)) (e : Signal) : Prop :=
  ∃ (o : Object) (mm : Value) (s t : Sys σ), metamethod o.value "__gc" s = .ok mm s ∧ isFunction mm = true ∧
    call mm [o.value] s = .error e t

/-- Some finalizer comes to a fault of the machine. -/
def GivesUp (call : Value → List Value → M σ (List Value)) (f : Fault) : Prop := Fails call (.fault f)

/-- Some finalizer raises an error of the program. -/
def Raises (call : Value → List Value → M σ (List Value)) : Prop := ∃ e, Fails call e ∧ ∀ f, e ≠ .fault f

/-- How the finalizers of a machine may end what calls them: by a fault that one of them came to, or, in
the older generations and while the machine stays open, by the error of one that raised. -/
inductive Ends (call : Value → List Value → M σ (List Value)) (closing : Bool) (g : Generation) : Signal → Prop where
  | fault {f : Fault} (h : GivesUp call f) : Ends call closing g (.fault f)
  | error {e : Signal} (open_ : closing = false) (older : g ≠ .v54) (h : Raises call) (he : ∀ f, e ≠ .fault f) :
    Ends call closing g e

/-- An action that keeps an invariant if it comes back, and ends by none but these signals. -/
structure Comes {α : Type} (inv : Sys σ → Prop) (ends : Signal → Prop) (act : M σ α) : Prop where
  after : ∀ s, inv s → match act s with
    | .ok _ t => inv t
    | .error e _ => ends e

namespace Comes

variable {α β : Type} {inv : Sys σ → Prop} {ends : Signal → Prop}

theorem pure (a : α) : Comes inv ends (Pure.pure a : M σ α) := ⟨fun _ h => h⟩

theorem bind {act : M σ α} {next : α → M σ β} (h : Comes inv ends act) (k : ∀ a, Comes inv ends (next a)) :
    Comes inv ends (act >>= next) := by
  constructor
  intro s hs
  have first := h.after s hs
  simp only [Bind.bind, EStateM.bind]
  cases ran : act s with
  | ok a t =>
    rw [ran] at first
    exact (k a).after t first
  | error e t =>
    rw [ran] at first
    exact first

theorem vm : Comes inv ends (M.vm : M σ Vm) := ⟨fun _ h => h⟩

theorem modifyVm {f : Vm → Vm} (h : ∀ s, inv s → inv { s with vm := f s.vm }) : Comes inv ends (M.modifyVm f) :=
  ⟨fun s hs => h s hs⟩

/-- The thread that runs does not matter to the invariant. -/
theorem onThread {act : M σ α} (h : Comes inv ends act) (t : Nat)
    (running : ∀ s n, inv s → inv { s with vm := { s.vm with running := n } }) : Comes inv ends (Stack.onThread t act) := by
  unfold Stack.onThread
  refine .bind vm fun before => ?_
  dsimp only
  split
  · exact h
  · refine .bind (modifyVm fun s hs => running s t hs) fun _ => ⟨fun s hs => ?_⟩
    have after := h.after s hs
    cases ran : act s with
    | ok a u =>
      rw [ran] at after
      exact running u before.running after
    | error e u =>
      rw [ran] at after
      exact after

end Comes

section Due

variable {F : Frame σ} {inv : Sys σ → Prop} (within : ∀ f args, Within F (call f args))
  (keeps : ∀ s t, F.rel s t → inv s → inv t) (generation : ∀ s, inv s → s.vm.generation = g)

include within keeps generation

end Due

end LuaHost.Lua.M

namespace LuaHost.Host

open Lua (M Vm Within Signal Generation Fault)
open Binding (Call Program Runtime)

variable {g : Generation} {env : Env} {w w' : World} {m : Nat} {closing : Bool}

/-! ## Calls that run finalizers -/

/-- The machine's world is lawful once the machine is put back. -/
def Backs (g : Generation) (m : Nat) (s : Lua.Sys World) : Prop := (putBack s m).Lawful g

theorem Backs.along (s t : Lua.Sys World) (h : (along m).rel s t) (hs : Backs g m s) : Backs g m t :=
  (h hs.toSound).lawful hs

theorem Backs.generation (s : Lua.Sys World) (hs : Backs g m s) : s.vm.generation = g := hs.generations m s.vm (putBack_get s m)

theorem Backs.running (s : Lua.Sys World) (n : Nat) (hs : Backs g m s) : Backs g m { s with vm := { s.vm with running := n } } :=
  (putBack_step s m { s.vm with running := n } (.of_eq rfl rfl rfl rfl rfl)).moves.lawful hs

/-- Events do not matter to it. -/
theorem Backs.noted (s : Lua.Sys World) (e : Event) (hs : Backs g m s) :
    Backs g m { s with host := { s.host with journal := e :: s.host.journal } } := by
  have hl : (putBack s m).Lawful g := hs
  exact ⟨⟨hl.runtimes, hl.routines, hl.given, hl.states, hl.stored⟩, hl.generations, hl.generation, hl.stateRuntime,
    hl.registryRuntime⟩

theorem Comes.note {ends : Signal → Prop} (e : Event) : M.Comes (Backs g m) ends (note e) := ⟨fun s hs => hs.noted s e⟩

/-- A program that leaves an object whose finalizer raises an error. -/
def litter : Generation → Text
  | .v51 => "getmetatable(newproxy(true)).__gc = function() error('x', 0) end"
  | _ => "setmetatable(\x7b\x7d, \x7b__gc = function() error('x', 0) end\x7d)"

def littering (g : Generation) : List Session.Step :=
  [⟨"s", none, .new (some true) none .create true⟩, ⟨"s", none, .execute (.text (litter g))⟩]

def littered (g : Generation) : World := Session.runAll (Session.start g) (littering g)

/-- In the older generations such an object ends everything. -/
theorem finalizers_uncontained : ∀ g ∈ [Generation.v51, .v52, .v53],
    isUnprotected (((littered g).states.get 0).collect Env.full (littered g)) = true ∧
      isUnprotected (State.close 0 Env.full (littered g)) = true := by
  decide +kernel

end LuaHost.Host
