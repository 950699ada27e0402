import LuaHost.Proofs.Moves.Exchange

set_option autoImplicit false

/-!
# Calls that nobody hears of

A call that runs no program of the machine lets no function of the environment report anything while it is
carried out. Those that compile nothing either cannot fail in the way of a program; what is put together
from them, from looks at the world and from notes in it, is hushed.
-/

namespace LuaHost.Host

open Lua (M Vm Within)
open Binding (Call Program Runtime)

/-- Nothing has been reported, and the reporters and runtimes are the same. -/
structure World.Unheard (w w' : World) : Prop where
  reports : w'.reports = w.reports
  reporters : w'.reporters = w.reporters
  runtimes : w'.runtimes = w.runtimes

theorem World.Unheard.refl (w : World) : w.Unheard w := ⟨rfl, rfl, rfl⟩

theorem World.Unheard.trans {a b c : World} (h : a.Unheard b) (k : b.Unheard c) : a.Unheard c :=
  ⟨k.reports.trans h.reports, k.reporters.trans h.reporters, k.runtimes.trans h.runtimes⟩

/-- Running a machine nothing is reported. -/
def hushed : Lua.Frame World where
  rel s s' := s.host.Unheard s'.host
  ends _ := True
  refl s := .refl s.host
  trans h k := h.trans k
  quiet s _ _ := .refl s.host
  error _ _ := trivial
  unwinding _ _ := trivial
  fault _ _ := trivial

instance : hushed.Threaded := ⟨fun s _ _ => .refl s.host⟩

/-- An environment without functions. -/
def Env.bare : Env := ⟨fun _ _ _ _ _ => M.fault .strayFunction⟩

variable {env : Env} {α β : Type}

/-- The calls that compile nothing and run nothing. -/
def Soft : Call → Prop
  | .ref _ | .pushCClosure (.pointer _) => True
  | c => Mute c

instance : Wide Soft where
  mute c h := by
    cases c <;> first | exact h | exact h.elim

/-- The calls that run nothing. -/
def Idle : Call → Prop
  | .loadString _ | .loadFile _ => True
  | c => Soft c

theorem Soft.idle {c : Call} (h : Soft c) : Idle c := by
  cases c <;> first | exact h | trivial

instance : Wide Idle := ⟨fun c h => (Wide.mute c h : Soft c).idle⟩

/-- Making a function of the host a value of a machine. -/
theorem gives_hushed (env : Env) (h : Handle) (f : Lua.Native) : Within hushed (perform env h (.pushCClosure (.pointer f))) := by
  have gave : Within hushed (modify fun s => { s with host := s.host.give h.machine f } : M World Unit) := by
    constructor
    intro s
    obtain ⟨foreigns, given⟩ := World.give_eq s.host h.machine f
    have kept : s.host.Unheard (s.host.give h.machine f) := by
      rw [given]
      exact ⟨rfl, rfl, rfl⟩
    exact kept
  have run : perform env h (.pushCClosure (.pointer f)) = (do
      let _ ← M.generation
      quiet (do Lua.Stack.push h.thread (← given h.machine f))) := rfl
  rw [run]
  exact .bind .generation fun _ => .bind (.bind (.bind gave fun _ => .native f) fun v => Lua.Stack.push_within _ v) fun _ => .pure _

/-- Pinning a value. -/
theorem pins_hushed (env : Env) (h : Handle) (i : Int) : Within hushed (perform env h (.ref i)) := by
  constructor
  intro s
  obtain ⟨slot, vm, -, pinned⟩ | ⟨vm, -, refused⟩ := Perform.pins env h i s
  · rw [pinned]
    exact ⟨rfl, rfl, rfl⟩
  · rw [refused]
    exact ⟨⟨rfl, rfl, rfl⟩, trivial⟩

theorem perform_hushed (env : Env) (h : Handle) {c : Call} (hc : Idle c) : Within hushed (perform env h c) := by
  -- what does not depend on the functions of the environment keeps to any frame
  have alone (same : perform env h c = perform .bare h c) (ordinary : Ordinary c) : Within hushed (perform env h c) := by
    have unheard : Within hushed (note (.collected h.machine)) := ⟨fun s => ⟨rfl, rfl, rfl⟩⟩
    rw [same]
    exact perform_frame h (fun _ _ _ _ _ => .fault _ (by decide)) unheard ordinary
  cases c with
  | ref i => exact pins_hushed env h i
  | pushCClosure f =>
    cases f with
    | pointer f => exact gives_hushed env h f
    | _ => exact hc.elim
  | _ => first | exact hc.elim | exact alone rfl trivial

/-! ## Operations -/

/-- A note in the world: machines and reports are the same. -/
structure World.Notes (w w' : World) : Prop extends w.Unheard w' where
  machines : w'.machines = w.machines

/-- Operations that nobody hears of. -/
inductive Hushed : {α : Type} → H α → Prop
  | pure {α : Type} (a : α) : Hushed (Pure.pure a : H α)
  | fail {α : Type} (f : Failure) : Hushed (H.fail f : H α)
  | get : Hushed (MonadState.get : H World)
  | modifyGet {α : Type} {f : World → α × World} (h : ∀ w : World, w.Notes (f w).2) : Hushed (MonadState.modifyGet f : H α)
  | execute (r : Runtime) (l : Option Handle) {c : Call} (hc : Soft c) : Hushed (Host.execute r l c)
  | bind {α β : Type} {act : H α} {next : α → H β} (h : Hushed act) (k : ∀ a, Hushed (next a)) : Hushed (act >>= next)

/-- A sequence of operations that comes back is one of each that do. -/
theorem of_bind_ok {act : H α} {next : α → H β} {b : β} {w w' : World}
    (run : (act >>= next) env w = .ok b w') :
    ∃ a w₁, act env w = .ok a w₁ ∧ next a env w₁ = .ok b w' := by
  cases e : act env w with
  | ok a w₁ =>
    rw [bind_ok e] at run
    exact ⟨a, w₁, rfl, run⟩
  | error x w₁ =>
    rw [bind_error e] at run
    cases run

/-- A program that comes back has been answered. -/
theorem of_asks {r : Runtime} {l : Option Handle} {c : Call} {next : Value → Program α} {a : α} {w w' : World}
    (run : runProgram r l (.ask c next) env w = .ok a w') :
    ∃ v w₁, execute r l c env w = .ok v w₁ ∧ runProgram r l (next v) env w₁ = .ok a w' := of_bind_ok run

/-- A call that runs nothing is not heard. -/
theorem execute_unheard {r : Runtime} {l : Option Handle} {c : Call} (hc : Idle c) {v : Value} {w w' : World}
    (run : execute r l c env w = .ok v w') : w.Unheard w' := by
  have other (d : Call) (hd : ¬ Idle d) : c ≠ d := fun h => hd (h ▸ hc)
  cases l with
  | none =>
    rw [execute_none r (other .newState id)] at run
    cases run
  | some h =>
    obtain ⟨vm, s, -, performed, rfl⟩ := of_execute_ok (other .newState id) (other .close id) run
    have kept := (perform_hushed env h hc).after (taken w h.machine vm)
    rw [performed] at kept
    exact ⟨kept.reports, kept.reporters, kept.runtimes⟩

theorem runProgram_unheard {r : Runtime} {l : Option Handle} {p : Program α} (hp : p.All Idle) {a : α} {w w' : World}
    (run : runProgram r l p env w = .ok a w') : w.Unheard w' := by
  induction p generalizing w with
  | done b =>
    cases run
    exact .refl _
  | fail f => cases run
  | ask c next ih =>
    obtain ⟨v, w₁, first, second⟩ := of_bind_ok run
    exact (execute_unheard hp.1 first).trans (ih v (hp.2 v) second)

namespace Hushed

theorem unheard {act : H α} (h : Hushed act) {a : α} {w w' : World} (run : act env w = .ok a w') : w.Unheard w' := by
  induction h generalizing w w' with
  | pure b =>
    cases run
    exact .refl _
  | fail f => cases run
  | get =>
    cases run
    exact .refl _
  | modifyGet h =>
    cases run
    exact (h _).toUnheard
  | execute r l hc => exact execute_unheard hc.idle run
  | bind _ _ ih ihk =>
    obtain ⟨b, w₁, first, second⟩ := of_bind_ok run
    exact (ih first).trans (ihk b second)

theorem discard {act : H α} (h : Hushed act) : Hushed (discard act) := by
  have same : Functor.discard act = act >>= fun _ => Pure.pure PUnit.unit := by
    funext env w
    simp only [Functor.discard, Functor.mapConst, Bind.bind, ReaderT.bind, EStateM.bind, EStateM.map, Function.comp_apply]
    cases act env w <;> rfl
  rw [same]
  exact bind h fun _ => pure _

theorem runtime (n : Nat) : Hushed (H.runtime n) := bind get fun _ => pure _

theorem ofExcept (r : Except Failure α) : Hushed (H.ofExcept r) := by
  cases r with
  | ok a => exact pure a
  | error f => exact fail f

theorem debug (parts : List Text) : Hushed (H.debug parts) := modifyGet fun _ => ⟨⟨rfl, rfl, rfl⟩, rfl⟩

theorem runProgram (r : Runtime) (l : Option Handle) {p : Program α} (hp : p.All Soft) : Hushed (runProgram r l p) := by
  induction p with
  | done a => exact pure a
  | fail f => exact fail f
  | ask c next ih => exact bind (execute r l hp.1) fun v => ih v (hp.2 v)

theorem runWith (n : Nat) (l : Option Handle) {p : Runtime → Program α} (hp : ∀ r, (p r).All Soft) : Hushed (runWith n l p) :=
  bind (runtime n) fun r => runProgram r l (hp r)

/-! ### Registries and references -/

theorem ref (n : Nat) (l : Option Handle) : Hushed (Host.runWith n l Binding.Api.ref) :=
  runWith n l fun _ => ⟨trivial, fun _ => trivial⟩

theorem registry (id : Nat) : Hushed (Registry.get id) := bind get fun _ => pure _

theorem pinTop (id : Nat) (l : Option Handle) : Hushed (Registry.pinTop id l) := by
  unfold Registry.pinTop
  exact bind (registry id) fun r => bind (ref _ _) fun slot => modifyGet fun _ => ⟨⟨rfl, rfl, rfl⟩, rfl⟩

theorem push (id : Nat) (slot : Int) (l : Option Handle) : Hushed (Registry.push id slot l) := by
  unfold Registry.push
  refine bind (registry id) fun r => ?_
  have rest : Hushed (Functor.discard (Host.runWith r.runtime (l <|> r.handle) fun rt => Binding.Api.pushRef rt slot)) :=
    discard (runWith _ _ fun rt => Mute.pushRef rt slot)
  dsimp only
  split
  · exact bind (fail _) fun _ => rest
  · exact rest

theorem keep (id : Nat) (f : Lua.Native) : Hushed (Registry.keep id f) := by
  unfold Registry.keep
  refine bind (registry id) fun r => ?_
  split
  · exact pure _
  · exact modifyGet fun _ => ⟨⟨rfl, rfl, rfl⟩, rfl⟩

theorem wrap (id : Nat) (routine : Routine) : Hushed (Registry.wrap id routine) := by
  unfold Registry.wrap Registry.foreign
  exact bind (bind (registry id) fun r => modifyGet fun _ => ⟨⟨rfl, rfl, rfl⟩, rfl⟩) fun f => bind (keep id f) fun _ => pure _

/-- Giving a function to a machine. -/
theorem pushCFunction (n : Nat) (l : Option Handle) (f : Lua.Native) :
    Hushed (Host.runWith n l fun _ => Binding.Api.pushCFunction (.pointer f)) :=
  runWith n l fun _ => ⟨trivial, fun _ => trivial⟩

theorem pushHost (n : Nat) (l : Option Handle) (v : Value) (registry : Option Nat) : Hushed (Host.pushHost n l v registry) := by
  have wrapped (routine : Routine) : Hushed (pushHost.wrapped n l registry routine) := by
    unfold pushHost.wrapped
    cases registry with
    | none => exact fail _
    | some id => exact bind (wrap id routine) fun f => pushCFunction n l f
  unfold Host.pushHost
  cases v with
  | none => exact runWith _ _ fun _ => Mute.pushNil
  | bool b => exact runWith _ _ fun _ => Mute.pushBoolean _
  | int k =>
    dsimp only
    split
    · exact runWith _ _ fun _ => Mute.pushInteger _
    · exact bind (ofExcept _) fun x => runWith _ _ fun _ => Mute.pushNumber _
  | float x => exact runWith _ _ fun _ => Mute.pushNumber _
  | text t => exact runWith _ _ fun _ => Mute.pushString _
  | bytes b => exact runWith _ _ fun _ => Mute.pushString _
  | byteArray b => exact runWith _ _ fun _ => Mute.pushString _
  | reference id => exact bind (bind get fun _ => pure _) fun r => push _ _ _
  | callable f => exact wrapped _
  | pointer f => exact wrapped _
  | tuple | list | set | dict | other => exact fail _

theorem toHost (n : Nat) (l : Option Handle) (i : Int) (registry : Option Nat) : Hushed (Host.toHost n l i registry) := by
  unfold Host.toHost
  refine bind (runWith _ _ fun _ => Mute.type i) fun tag => ?_
  dsimp only
  split
  · exact pure _
  split
  · exact bind (runWith _ _ fun _ => Mute.toBoolean i) fun _ => pure _
  split
  · refine bind (runWith _ _ fun r => Mute.isInteger r i) fun isInt => ?_
    split
    · exact runWith _ _ fun r => Mute.toInteger r i
    · exact runWith _ _ fun _ => Mute.toNumber i
  split
  · exact bind (runWith _ _ fun r => Mute.toText r i) fun _ => pure _
  split
  · exact bind (runWith _ _ fun _ => Mute.typeName _) fun _ => fail _
  · exact bind (runWith _ _ fun _ => Mute.pushValue i) fun _ => bind (pinTop _ l) fun _ => pure _

end Hushed
end LuaHost.Host
