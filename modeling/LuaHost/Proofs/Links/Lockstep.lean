import LuaHost.Proofs.Links.Basic

set_option autoImplicit false

/-!
# Lockstep

Two systems go in lockstep if the same machine on either host ends in the same way with the same machine
left, and the hosts are still related as they were.
-/

namespace LuaHost.Lua

variable {σ τ α β : Type}

/-- The same outcome and the same machine on related hosts. -/
inductive Together (R : σ → τ → Prop) : EStateM.Result Signal (Sys σ) α → EStateM.Result Signal (Sys τ) α → Prop where
  | ok {a : α} {vm : Vm} {h : σ} {h' : τ} (related : R h h') : Together R (.ok a ⟨vm, h⟩) (.ok a ⟨vm, h'⟩)
  | error {e : Signal} {vm : Vm} {h : σ} {h' : τ} (related : R h h') : Together R (.error e ⟨vm, h⟩) (.error e ⟨vm, h'⟩)

theorem Together.mono {R S : σ → τ → Prop} (h : ∀ a b, R a b → S a b) {r : EStateM.Result Signal (Sys σ) α}
    {r' : EStateM.Result Signal (Sys τ) α} (k : Together R r r') : Together S r r' := by
  cases k with
  | ok related => exact .ok (h _ _ related)
  | error related => exact .error (h _ _ related)

/-- Programs that keep hosts related. -/
def InStep (R : σ → τ → Prop) (act : M σ α) (act' : M τ α) : Prop :=
  ∀ vm h h', R h h' → Together R (act ⟨vm, h⟩) (act' ⟨vm, h'⟩)

theorem InStep.outcome {R : σ → τ → Prop} {act : M σ α} {act' : M τ α} {ok : α → M σ β} {ok' : α → M τ β}
    {error : Signal → M σ β} {error' : Signal → M τ β} (h : InStep R act act') (k : ∀ a, InStep R (ok a) (ok' a))
    (e : ∀ e, InStep R (error e) (error' e)) : InStep R (act.outcome ok error) (act'.outcome ok' error') := by
  intro vm host host' related
  have first := h vm host host' related
  unfold M.outcome
  revert first
  generalize act ⟨vm, host⟩ = result
  generalize act' ⟨vm, host'⟩ = result'
  intro first
  cases first with
  | ok related => exact k _ _ _ _ related
  | error related => exact e _ _ _ _ related

/-- The link of the programs that keep hosts related. -/
def Link.lockstep (R : σ → τ → Prop) : Link σ τ where
  ties := InStep R
  quiet _ _ _ _ _ related := .ok related
  raise _ _ _ _ _ related := .error related
  after h k e := h.outcome k fun signal => e signal fun _ _ _ related => .error related

namespace Link

variable {R : σ → τ → Prop}

instance lockstep_whole : (lockstep R).Whole := ⟨fun _ _ _ _ related => .ok related⟩

theorem lockstep_files {files : σ → LuaHost.Files} {files' : τ → LuaHost.Files} (h : ∀ h h', R h h' → files h = files' h') :
    (lockstep R).Files files files' := by
  refine ⟨fun vm host host' related => ?_⟩
  change Together R (.ok (files host) ⟨vm, host⟩) (.ok (files' host') ⟨vm, host'⟩)
  rw [h _ _ related]
  exact .ok related

end Link
end LuaHost.Lua
