import LuaHost.Proofs.Lives.Sessions
import LuaHost.Proofs.Twins.Commands

set_option autoImplicit false

/-!
# Steps on twin worlds

A step of a session shows the same in twin worlds and leaves twins. A world is its own twin if whatever it
refers to was made, and so is the world in which a session starts and every world to which it comes.
-/

namespace LuaHost.Host

open Session

variable {ρ : Guise} {b : Roll} {w w' : World} {α : Type} {env : Env}

/-! ## Worlds that are their own twins -/

theorem Roll.Twin.refl {r : Roll} (h : r.Sound) (hb : b.Grows r) : Roll.Twin .same b r r where
  registries := .refl fun _ => rfl
  reporters := .refl fun _ => rfl
  references := .refl fun _ => rfl
  foreigns := .refl fun _ => rfl
  states := .refl fun _ => rfl
  names := (List.map_id _).symm
  stored := by
    have same : Guise.same.keeping = id := by
      funext entry
      obtain ⟨name, stored⟩ := entry
      cases stored with
      | value v => rfl
      | selector s => rfl
    rw [same, List.map_id]
  spare n h := absurd rfl (h n)
  sound := h
  grown := hb

theorem World.Twin.refl (h : w.roll.Sound) : w.Twin .same w.roll w := ⟨rfl, .refl h (.refl _)⟩

/-- What mirrors itself leaves a sound world sound, and what was made is still there. -/
theorem Mirrors.sound {Q : Roll → α → α → Prop} {act : H α} (h : Mirrors Env.full .same w.roll Q act act) (hw : w.roll.Sound) :
    (final (act Env.full w)).roll.Sound ∧ w.roll.Grows (final (act Env.full w)).roll := by
  have after := h.after Env.full_mirrored w w (.refl hw)
  generalize act Env.full w = result at after ⊢
  cases after with
  | ok twin _ => exact ⟨twin.roll.sound, twin.roll.grown⟩
  | error twin => exact ⟨twin.roll.sound, twin.roll.grown⟩

/-! ## Steps -/

/-- What a step shows, and the look at the size of the stack at its end. -/
def showStep (name : Text) (result : Except Failure Answer) (w : World) : StepAnswer × World :=
  match sizeOf? w name Env.full w with
  | .ok size w => (⟨result, recordedOf w.reports, printedOf w.reports, w.calls, w.written, size⟩, w)
  | .error _ w => (⟨result, recordedOf w.reports, printedOf w.reports, w.calls, w.written, none⟩, w)

theorem step_eq (w : World) (s : Step) : step w s =
    match s.act Env.full (fresh w) with
    | .ok a w => showStep s.state (.ok a) w
    | .error (.failure f) w => showStep s.state (.error f) w
    | .error (.signal e) w => showStep s.state (.error (signalFailure e)) w := by
  unfold step showStep
  cases s.act Env.full (fresh w) with
  | ok a v =>
    dsimp only
    cases sizeOf? v s.state Env.full v with
    | ok n u => rfl
    | error e u => rfl
  | error e v =>
    cases e with
    | failure f =>
      dsimp only
      cases sizeOf? v s.state Env.full v with
      | ok n u => rfl
      | error e u => rfl
    | signal f =>
      dsimp only
      cases sizeOf? v s.state Env.full v with
      | ok n u => rfl
      | error e u => rfl

theorem World.Twin.showStep (h : w.Twin ρ b w') (name : Text) (result : Except Failure Answer) :
    (showStep name result w').1 = (showStep name result w).1 ∧
      (showStep name result w).2.Twin ρ b (showStep name result w').2 := by
  have sized : Mirrors Env.full ρ b Same (sizeOf? w name) (sizeOf? w' name) := by
    unfold sizeOf?
    rw [h.stateId?]
    cases Session.stateId? w name with
    | none => exact .pure _
    | some id => exact .bindState id fun _ _ t _ => .bind (.size t) fun _ => .pure _
  have same {v v' : World} (twin : v.Twin ρ b v') : v'.reports = v.reports ∧ v'.calls = v.calls ∧ v'.written = v.written :=
    ⟨twin.agree World.reports fun _ => rfl, twin.agree World.calls fun _ => rfl, twin.agree World.written fun _ => rfl⟩
  unfold Host.showStep
  refine sized.outcome Env.full_mirrored h (fun n n' v v' twin e => ?_) fun e v v' twin => ?_
  · cases e
    obtain ⟨reports, calls, written⟩ := same twin
    dsimp only
    rw [reports, calls, written]
    exact ⟨rfl, twin⟩
  · obtain ⟨reports, calls, written⟩ := same twin
    dsimp only
    rw [reports, calls, written]
    exact ⟨rfl, twin⟩

/-- A step shows the same in twin worlds, which stay twins. -/
theorem World.Twin.step (h : w.Twin ρ b w') (s : Step) :
    (Session.step w' s).1 = (Session.step w s).1 ∧ (Session.step w s).2.Twin ρ b (Session.step w' s).2 := by
  have begun : (fresh w).Twin ρ b (fresh w') := h.change fresh (fun _ => rfl) fun _ => rfl
  rw [step_eq, step_eq]
  refine (Mirrors.act s).outcome Env.full_mirrored begun (fun a a' v v' twin e => ?_) fun e v v' twin => ?_
  · cases e
    exact twin.showStep _ _
  · cases e with
    | failure f => exact twin.showStep _ _
    | signal e => exact twin.showStep _ _

/-- A step of a session leaves a sound world sound. -/
theorem step_sound (hw : w.roll.Sound) (s : Step) : (Session.step w s).2.roll.Sound ∧ w.roll.Grows (Session.step w s).2.roll := by
  have twin := ((World.Twin.refl hw).step s).2
  exact ⟨twin.roll.sound, twin.roll.grown⟩

theorem start_sound (g : Lua.Generation) : (start g).roll.Sound := by
  have registry (n : Nat) : (start g).registries.get n = default := Pool.get_of_size_le _ (Nat.zero_le n)
  have reference (n : Nat) : (start g).references.get n = default := Pool.get_of_size_le _ (Nat.zero_le n)
  have foreign (n : Nat) : (start g).foreigns.get n = default := Pool.get_of_size_le _ (Nat.zero_le n)
  have state (n : Nat) : (start g).states.get n = default := Pool.get_of_size_le _ (Nat.zero_le n)
  have has : (start g).roll.Has 0 0 := ⟨Nat.zero_lt_one, Nat.zero_lt_one⟩
  exact {
    registries n := (congrArg Registry.reporter (registry n)).trans_lt Nat.zero_lt_one
    references n := (congrArg Reference.registry (reference n)).trans_lt Nat.zero_lt_one
    foreigns n := (congrArg (fun f : Foreign => (start g).roll.Has f.registry f.reporter) (foreign n)).mpr has
    states n := (congrArg (fun s : State => (start g).roll.Has s.registry s.reporter) (state n)).mpr has
    names _ _ mem := absurd mem List.not_mem_nil
    stored _ _ mem := absurd mem List.not_mem_nil
    first some := absurd some (Nat.lt_irrefl 0) }

end LuaHost.Host
