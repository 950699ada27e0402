import LuaHost.Proofs.Lives.Sessions
import LuaHost.Proofs.Neutral.Operations
import LuaHost.Proofs.Reports.Calls

set_option autoImplicit false

/-!
# Errors of what opens a module

Where the interface has no call that registers a module, what opens it is called with protection: its error
goes no further, and only a name without bytes fails. Where the interface has such a call, the call is made
without protection, and an error of what opens the module, or of a metamethod that it meets, is awaited by
nothing.
-/

namespace LuaHost.Host

open Lua (M Vm Signal)
open Binding (Call Program Runtime Api.intOf)

variable {env : Env} {α β : Type}

/-- An operation in which the host itself never fails. -/
structure Sure (act : H α) : Prop where
  never : ∀ env w f w', act env w ≠ .error (.failure f) w'

namespace Sure

theorem pure (a : α) : Sure (Pure.pure a : H α) := ⟨nofun⟩

theorem get : Sure (MonadState.get : H World) := ⟨nofun⟩

theorem modifyGet (f : World → α × World) : Sure (MonadState.modifyGet f : H α) := ⟨nofun⟩

theorem bind {act : H α} {next : α → H β} (h : Sure act) (k : ∀ a, Sure (next a)) : Sure (act >>= next) where
  never env w f w' failed := by
    cases e : act env w with
    | ok a w₁ =>
      rw [bind_ok e] at failed
      exact (k a).never env w₁ f w' failed
    | error x w₁ =>
      rw [bind_error e] at failed
      cases failed
      exact h.never env w f _ e

theorem finally_ {act : H α} {after : H Unit} (h : Sure act) (k : Sure after) : Sure (H.finally_ act after) where
  never env w f w' failed := by
    unfold H.finally_ at failed
    cases e : act env w with
    | ok a w₁ =>
      rw [e] at failed
      dsimp only at failed
      cases e' : after env w₁ with
      | ok u w₂ =>
        rw [e'] at failed
        cases failed
      | error x w₂ =>
        rw [e'] at failed
        cases failed
        exact k.never env w₁ f _ e'
    | error x w₁ =>
      cases x with
      | failure g => exact h.never env w g w₁ e
      | signal s =>
        rw [e] at failed
        cases failed

theorem runtime (n : Nat) : Sure (H.runtime n) := bind get fun _ => pure _

theorem onMachine (m : Nat) (act : M World α) : Sure (H.onMachine m act) where
  never env w f w' failed := by
    unfold H.onMachine at failed
    split at failed
    · dsimp only at failed
      split at failed <;> cases failed
    · cases failed

/-- A call on a machine whose arguments are accepted. -/
def Accepted (c : Call) : Prop := c ≠ .newState ∧ c ≠ .close ∧ checkArguments c = .ok ()

theorem execute (r : Runtime) (l : Option Handle) {c : Call} (hc : Accepted c) : Sure (execute r l c) where
  never env w f w' failed := by
    obtain ⟨hn, hl, ha⟩ := hc
    cases l with
    | none =>
      rw [execute_none r hn] at failed
      cases failed
    | some h =>
      rw [execute_eq r h hn hl, ha] at failed
      exact (onMachine h.machine _).never env w f w' failed

/-- A program that does not fail by itself, and all of whose calls are accepted. -/
def Calls : Program α → Prop
  | .done _ => True
  | .fail _ => False
  | .ask c next => Accepted c ∧ ∀ v, Calls (next v)

theorem runProgram (r : Runtime) (l : Option Handle) {p : Program α} (hp : Calls p) : Sure (runProgram r l p) := by
  induction p with
  | done a => exact pure a
  | fail f => exact hp.elim
  | ask c next ih => exact bind (execute r l hp.1) fun v => ih v (hp.2 v)

theorem runWith (n : Nat) (l : Option Handle) {p : Runtime → Program α} (hp : ∀ r, Calls (p r)) : Sure (runWith n l p) :=
  bind (runtime n) fun r => runProgram r l (hp r)

theorem debug (parts : List Text) : Sure (H.debug parts) := modifyGet _

theorem guarded {act : H α} (n : Nat) (l : Option Handle) (h : Sure act) : Sure (guarded n l act) := by
  cases l with
  | none => exact h
  | some t =>
    exact bind (runWith n _ fun _ => ⟨⟨nofun, nofun, rfl⟩, fun _ => trivial⟩) fun depth =>
      finally_ h (runWith n _ fun _ => ⟨⟨nofun, nofun, rfl⟩, fun _ => trivial⟩)

theorem registry (id : Nat) : Sure (Registry.get id) := bind get fun _ => pure _

theorem keep (id : Nat) (f : Lua.Native) : Sure (Registry.keep id f) := by
  unfold Registry.keep
  refine bind (registry id) fun r => ?_
  split
  · exact pure _
  · exact modifyGet _

/-- The function of what opens a module is made without failure. -/
theorem function (id : Nat) (loader : State.Loader) : Sure (loader.function id) := by
  cases loader with
  | native f => exact bind (keep id f) fun _ => pure _
  | routine r =>
    exact bind (bind (registry id) fun _ => modifyGet _) fun f => bind (keep id f) fun _ => pure _

theorem topText (r : Runtime) : Calls (Binding.Api.toText r (-1)) := by
  unfold Binding.Api.toText
  split
  · exact trivial
  · refine ⟨⟨nofun, nofun, rfl⟩, fun v => ?_⟩
    cases v <;> exact trivial

theorem register (s : State) {rt : Runtime} {name : Value} {bytes : ByteArray} (f : Lua.Native) (old : rt.registers = false)
    (named : sourceBytes name = .ok bytes) : Sure (s.register rt name f) := by
  unfold State.register
  refine guarded _ _ ?_
  rw [old, if_neg Bool.false_ne_true]
  have call (c : Call) (hc : Accepted c) : Calls (Functor.discard (Program.call c)) := ⟨hc, fun _ => trivial⟩
  have pushName : Calls (Binding.Api.pushString name) := by
    unfold Binding.Api.pushString
    rw [named]
    exact call (.pushLString bytes) ⟨nofun, nofun, rfl⟩
  refine bind (runWith _ _ fun _ => call (.pushCClosure (.pointer f)) ⟨nofun, nofun, rfl⟩) fun _ =>
    bind (runWith _ _ fun _ => pushName) fun _ =>
      bind (runWith _ _ fun _ => ⟨⟨nofun, nofun, rfl⟩, fun _ => trivial⟩) fun status => ?_
  dsimp only
  split
  · exact bind (runWith _ _ topText) fun _ => debug _
  · exact pure _

end Sure

/-- What raises its argument. -/
def raiser : State.Loader := .native (.library .base "raise")

def isUnprotected : EStateM.Result Stop World α → Bool
  | .error (.signal (.fault .unprotectedError)) _ => true
  | _ => false

/-- Where the interface has such a call, an error of what opens the module ends everything. -/
theorem module_uncontained : ∀ g ∈ [Lua.Generation.v52, .v53, .v54],
    isUnprotected (((Session.begun g).states.get 0).openLib (.text "m") raiser Env.full (Session.begun g)) = true := by
  decide +kernel

end LuaHost.Host
