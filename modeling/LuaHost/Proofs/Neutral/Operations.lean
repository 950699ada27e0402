import LuaHost.Session.Run
import LuaHost.Proofs.Neutral.Guards

set_option autoImplicit false

/-!
# Operations leave the main stack as it was

The operations of states, registries and selectors, each of them in a world of which nothing is assumed
but that the machine is open and that its depth fits the width of an index. Functions of the environment
are arbitrary too, so an operation may be carried out from inside one.
-/

namespace LuaHost.Host

open Lua (M Vm Runs Reads Signal Fault)
open Binding (Call Program Runtime)

variable {env : Env} {S : Signal → Prop} [Ways env S] {m : Nat} {base : Array Lua.Value} {k : Nat} {α β : Type}
  {P : Vm → Prop} {Q : α → Vm → Prop} {runtime : Nat}

omit [Ways env S] in
theorem ne_zero_of_failed {status : Int} {r : Runtime} (h : (status != codeOf r .ok) = true) : status ≠ 0 := bne_iff_ne.mp h

namespace Selector

variable {s : Selector} (hm : s.machine = some m)

include hm

theorem handle_eq : s.handle = some (.main m) := by
  rw [handle, hm]
  rfl

end Selector
namespace State

variable {s : State} (hm : s.machine = some m)

include hm

theorem handle_eq : s.handle = some (.main m) := by
  rw [handle, hm]
  rfl

/-- Registering a module calls what opens it without protection, so it may end by any signal; where the
generation has no call for that, the call is protected. -/
theorem register_neutral {T : Signal → Prop} [Ways env T] {rt : Runtime} (name : Value) (f : Lua.Native)
    (hT : rt.registers = true → ∀ e, T e) : Neutral env T m (s.register rt name f) := by
  unfold register
  rw [handle_eq hm]
  refine .guarded fun base => ?_
  split
  · next registers =>
    exact ((Triple.runWith (fun _ => has_zero) fun r => .requireF r name _ true).mono fun e _ => hT registers e).conseq
      (fun _ h => h) fun _ _ => has_zero
  refine .bind (.runWith (fun _ => has_zero) fun r => .pushCFunction r _) fun _ =>
    .bind (.runWith (fun _ => has_zero) fun r => .pushString r _) fun _ =>
      .bind (.runWith (fun _ => has_zero) fun r => .pcall r 1 0 (Nat.le_refl 2)) fun status => ?_
  dsimp only
  split
  · next failed =>
    exact .pre (P := Vm.Has base 1) (fun _ h => h.2.2 (ne_zero_of_failed failed))
      (.bind (.runWith (fun _ => has_zero) fun r => .topText r (Nat.le_refl 1)) fun _ =>
        .conseq (.of_aside (.debug _) fun _ => has_zero) (fun _ h => h) fun _ _ => has_zero)
  · exact .pure fun _ h => h.1

theorem openLib_neutral {T : Signal → Prop} [Ways env T] (name : Value) (loader : Loader) {w : World}
    {stack : Array Lua.Value} (hT : (w.runtimes.get s.runtime).registers = true → ∀ e, T e) (hs : stack.size < 0x80000000)
    (hw : On m (fun vm => vm.stack = stack) w) :
    Leaves T (On m fun vm => vm.stack = stack) (s.openLib name loader env w) := by
  have rest : Neutral env T m (do s.register (w.runtimes.get s.runtime) name (← loader.function s.registry)) :=
    .bind (.of_aside (Aside.loader loader s.registry)) fun f => register_neutral hm name f hT
  unfold openLib
  rw [hm]
  exact rest.after w stack hs hw

end State

/-! ## All of them -/

/-- The operations on the machine of a state, a registry or a selector. -/
inductive Operation where
  | execute (s : State) (source : Value)
  | loadFile (s : State) (path : Value) (shown : Text)
  | openLib (s : State) (name : Value) (loader : State.Loader)
  | collect (s : State)
  | interact (s : State)
  | globalNames (s : State)
  | size (s : State)
  | value (registry : Nat) (slot : Int)
  | get (s : Selector)
  | exists_ (s : Selector)
  | ref (s : Selector)
  | set (s : Selector) (v : Value)
  | call (s : Selector) (args : List Value)

namespace Operation

def run : Operation → H Unit
  | execute s source => discard <| s.execute source
  | loadFile s path shown => discard <| s.loadFile path shown
  | openLib s name loader => s.openLib name loader
  | collect s => s.collect
  | interact s => s.interact
  | globalNames s => discard s.globalNames
  | size s => discard s.size
  | value registry slot => discard <| Registry.value registry slot
  | get s => discard s.get
  | exists_ s => discard s.exists_
  | ref s => discard s.ref
  | set s v => discard <| s.set v
  | call s args => discard <| s.call args

/-- The machine that an operation works on. -/
def machine (w : World) : Operation → Option Nat
  | execute s _ | loadFile s _ _ | openLib s _ _ | collect s | interact s | globalNames s | size s => s.machine
  | value registry _ => (w.registries.get registry).machine
  | get s | exists_ s | ref s | set s _ | call s _ => s.machine

end Operation

/-- An operation with some unprotected calls, or none. -/
instance (env : Env) (unprotected : Prop) : Ways env fun e => unprotected ∨ Quits env e where
  quits _ h := .inr h
  unprotected _ h := h.elim (fun hu => .inr (.inl hu)) fun hq => hq.elim fun f hf => .inl ⟨f, hf.1⟩

omit [Ways env S] in
theorem Leaves.discard {p : World → Prop} {act : H α} {w : World} (h : Leaves S p (act env w)) :
    Leaves S p (discard act env w) := by
  simp only [Functor.discard, Functor.mapConst, EStateM.map, Function.comp_apply]
  cases e : act env w with
  | ok a w' =>
    rw [e] at h
    exact h
  | error x w' =>
    rw [e] at h
    cases x with
    | failure f => exact h
    | signal s => exact h

end LuaHost.Host
