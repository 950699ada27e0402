import LuaHost.Proofs.Twins.Mirrors

set_option autoImplicit false

/-!
# Programs of calls on twin worlds

A call of the interface says nothing of the numbers of states, registries or reporters. So a program of
calls ends alike in twin worlds.
-/

namespace LuaHost.Host

open Lua (M Vm Link Tied Signal Together)
open Binding (Call Program Runtime)

variable {ρ : Guise} {b : Roll} {α β : Type} {env : Env}

theorem lockstep_files : (lockstep ρ b).Files World.files World.files := Link.lockstep_files fun _ _ twin => twin.files.symm

theorem note_lockstep (e : Event) : Tied (lockstep ρ b) (note e) (note e) :=
  ⟨fun _ _ _ twin => .ok (twin.change (fun w => { w with journal := e :: w.journal }) (fun _ => rfl) fun _ => rfl)⟩

/-- A function is given to a machine in both worlds, or has been given in both. -/
theorem World.Twin.give {w w' : World} (h : w.Twin ρ b w') (m : Nat) (f : Lua.Native) : (w.give m f).Twin ρ b (w'.give m f) := by
  unfold World.give
  cases f with
  | foreign id =>
    have same : (w'.foreigns.get id).machines = (w.foreigns.get id).machines := by
      rw [h.foreign]
      rfl
    dsimp only
    rw [same]
    split
    · exact h
    · exact h.withForeigns (h.roll.foreigns.modify id rfl) <|
        Pool.all_modify (P := fun f : Foreign => w.roll.Has f.registry f.reporter) h.roll.sound.foreigns id (h.roll.sound.foreigns id)
  | _ => exact h

theorem given_lockstep (m : Nat) (f : Lua.Native) : Tied (lockstep ρ b) (given m f) (given m f) :=
  .bind ⟨fun _ _ _ twin => .ok (twin.give m f)⟩ fun _ => .native f

theorem perform_lockstep (he : env.Mirrored ρ) (h : Handle) (c : Call) :
    Tied (lockstep ρ b) (perform env h c) (perform env h c) :=
  perform_whole h (he b h.machine) lockstep_files note_lockstep (given_lockstep h.machine) c

theorem unprotected_lockstep {act act' : M World Value} (h : Tied (lockstep ρ b) act act') :
    Tied (lockstep ρ b) (unprotected act) (unprotected act') := ⟨unprotected_inStep h.holds⟩

namespace Mirrors

theorem createMachine (g : Lua.Generation) : Mirrors env ρ b Same (createMachine g) (createMachine g) := by
  refine ⟨fun _ w w' twin => ?_⟩
  have made := twin.change (fun w => { w with
    machines := w.machines.add (.open (Lua.Stack.newMachine g)), journal := .created w.machines.size :: w.journal })
    (fun _ => rfl) fun _ => rfl
  refine .ok made ?_
  rw [twin.machines]
  rfl

theorem execute (r : Runtime) (l : Option Handle) (c : Call) :
    Mirrors env ρ b Same (execute r l c) (execute r l c) := by
  have performed (h : Handle) (c : Call) : Mirrors env ρ b Same (H.onMachine h.machine (unprotected (perform env h c)))
      (H.onMachine h.machine (unprotected (perform env h c))) :=
    onMachine fun he => unprotected_lockstep (perform_lockstep he h c)
  cases l with
  | none => cases c <;> first | exact createMachine _ | exact fault _
  | some h =>
    unfold Host.execute
    cases c with
    | newState => exact createMachine _
    | close =>
      exact bind (ofExcept _) fun _ => bindRead (bind (performed _ _) fun v =>
        bind (change _ (fun _ => rfl) fun _ => rfl) fun _ => pure v)
    | _ => exact bind (ofExcept _) fun _ => bindRead (bind (performed _ _) fun v => bind (pure ()) fun _ => pure v)

theorem runProgram (r : Runtime) (l : Option Handle) (p : Program α) :
    Mirrors env ρ b Same (runProgram r l p) (runProgram r l p) := by
  induction p with
  | done a => exact pure a
  | fail f => exact fail f
  | ask c next ih => exact bind (execute r l c) fun v => ih v

theorem runWith (runtime : Nat) (l : Option Handle) (p : Runtime → Program α) :
    Mirrors env ρ b Same (runWith runtime l p) (runWith runtime l p) := bind (.runtime _) fun r => runProgram r l (p r)

theorem guarded {act act' : H α} (runtime : Nat) (l : Option Handle) (h : Mirrors env ρ b Same act act') :
    Mirrors env ρ b Same (guarded runtime l act) (guarded runtime l act') := by
  cases l with
  | none => exact h
  | some t => exact bind (runWith _ _ _) fun depth => finally_ h (runWith _ _ _)

theorem reportTop (reporter : Nat) (code : Int) (runtime : Nat) (l : Option Handle) :
    Mirrors env ρ b Same (reportTop reporter code runtime l) (reportTop (ρ.reporters.image reporter) code runtime l) :=
  bind (runWith _ _ _) fun _ => report _ _ _ _

end Mirrors
end LuaHost.Host
