import LuaHost.Proofs.Moves.Calls

set_option autoImplicit false

/-!
# Operations that make moves

An operation of the host leads from a world by moves if all that it leaves behind, however it ends, was
reached by moves. The rules follow the way in which operations are put together; a program of ordinary
calls leads from every world.
-/

namespace LuaHost.Host

open Lua (M Vm Within Signal)
open Binding (Call Program Runtime)

/-- An operation that continues a run of moves from a sound world by moves. -/
structure Leads {α : Type} (env : Env) (base : World) (act : H α) : Prop where
  after : env.Follows → base.Sound → ∀ w, Moves base w → Moves base (final (act env w))

variable {env : Env} {base : World} {α β : Type}

theorem bind_ok {act : H α} {next : α → H β} {w w' : World} {a : α} (h : act env w = .ok a w') :
    (act >>= next) env w = next a env w' := by
  simp only [Bind.bind, ReaderT.bind, EStateM.bind, h]

theorem bind_error {act : H α} {next : α → H β} {w w' : World} {e : Stop} (h : act env w = .error e w') :
    (act >>= next) env w = .error e w' := by
  simp only [Bind.bind, ReaderT.bind, EStateM.bind, h]

theorem finally_ok {act : H α} {after : H Unit} {w w₁ w₂ : World} {a : α} (h : act env w = .ok a w₁)
    (k : after env w₁ = .ok () w₂) : H.finally_ act after env w = .ok a w₂ := by
  simp only [H.finally_, h, k]

theorem finally_raised {act : H α} {after : H Unit} {w w₁ w₂ : World} {f : Failure} (h : act env w = .error (.failure f) w₁)
    (k : after env w₁ = .ok () w₂) : H.finally_ act after env w = .error (.failure f) w₂ := by
  simp only [H.finally_, h, k]

theorem discard_ok {act : H α} {a : α} {w w' : World} (h : act env w = .ok a w') : (discard act : H PUnit) env w = .ok () w' := by
  simp only [Functor.discard, Functor.mapConst, EStateM.map, Function.comp_apply]
  exact h ▸ rfl

theorem discard_error {act : H α} {e : Stop} {w w' : World} (h : act env w = .error e w') :
    (discard act : H PUnit) env w = .error e w' := by
  simp only [Functor.discard, Functor.mapConst, EStateM.map, Function.comp_apply]
  exact h ▸ rfl

namespace Leads

/-! ## Rules -/

/-- An operation that makes moves from every sound world. -/
theorem of_moves {act : H α} (h : env.Follows → ∀ w, w.Sound → Moves base w → Moves w (final (act env w))) :
    Leads env base act := ⟨fun he hs w hw => hw.trans (h he w (hw.sound hs) hw)⟩

theorem pure (a : α) : Leads env base (Pure.pure a : H α) := ⟨fun _ _ _ hw => hw⟩

theorem fail (f : Failure) : Leads env base (H.fail f : H α) := ⟨fun _ _ _ hw => hw⟩

theorem fault (f : Lua.Fault) : Leads env base (H.fault f : H α) := ⟨fun _ _ _ hw => hw⟩

theorem ofExcept (r : Except Failure α) : Leads env base (H.ofExcept r) := by
  cases r with
  | ok a => exact pure a
  | error f => exact fail f

theorem get : Leads env base (MonadState.get : H World) := ⟨fun _ _ _ hw => hw⟩

theorem bind {act : H α} {next : α → H β} (h : Leads env base act) (k : ∀ a, Leads env base (next a)) :
    Leads env base (act >>= next) := by
  constructor
  intro he hs w hw
  have ha := h.after he hs w hw
  simp only [Bind.bind, ReaderT.bind, EStateM.bind]
  cases e : act env w with
  | ok a w' =>
    rw [e] at ha
    exact (k a).after he hs w' ha
  | error x w' =>
    rw [e] at ha
    exact ha

theorem discard {act : H α} (h : Leads env base act) : Leads env base (discard act) := by
  constructor
  intro he hs w hw
  have ha := h.after he hs w hw
  simp only [Functor.discard, Functor.mapConst, EStateM.map, Function.comp_apply]
  cases e : act env w with
  | ok a w' =>
    rw [e] at ha
    exact ha
  | error x w' =>
    rw [e] at ha
    exact ha

theorem modifyGet (f : World → α × World) (h : ∀ w : World, w.Beside (f w).2) :
    Leads env base (MonadState.modifyGet f : H α) := ⟨fun _ _ w hw => hw.tail (.beside (h w))⟩

theorem modify (f : World → World) (h : ∀ w : World, w.Beside (f w)) :
    Leads env base (modify f : H Unit) := modifyGet _ h

theorem finally_ {act : H α} {after : H Unit} (h : Leads env base act) (k : Leads env base after) :
    Leads env base (H.finally_ act after) := by
  constructor
  intro he hs w hw
  have ha := h.after he hs w hw
  unfold H.finally_
  cases e : act env w with
  | ok a w' =>
    rw [e] at ha
    have hk := k.after he hs w' ha
    dsimp only
    cases e' : after env w' with
    | ok u w'' =>
      rw [e'] at hk
      exact hk
    | error y w'' =>
      rw [e'] at hk
      exact hk
  | error x w' =>
    rw [e] at ha
    cases x with
    | failure f =>
      have hk := k.after he hs w' ha
      dsimp only
      cases e' : after env w' with
      | ok u w'' =>
        rw [e'] at hk
        exact hk
      | error y w'' =>
        rw [e'] at hk
        exact hk
    | signal s => exact ha

theorem catch_ {act : H α} {handler : Failure → H α} (h : Leads env base act) (k : ∀ f, Leads env base (handler f)) :
    Leads env base (H.catch_ act handler) := by
  constructor
  intro he hs w hw
  have ha := h.after he hs w hw
  unfold H.catch_
  cases e : act env w with
  | ok a w' =>
    rw [e] at ha
    exact ha
  | error x w' =>
    rw [e] at ha
    cases x with
    | failure f => exact (k f).after he hs w' ha
    | signal s => exact ha

theorem runtime (n : Nat) : Leads env base (H.runtime n) := bind get fun _ => pure _

theorem report (reporter : Nat) (code : Int) (message : Text) (cause : Option String) :
    Leads env base (H.report reporter code message cause) := by
  have raise (raised : Option Text) : Leads env base (H.raise raised) := by
    cases raised with
    | some t => exact fail _
    | none => exact pure _
  constructor
  intro he hs w hw
  let r := (w.reporters.get reporter).handle ⟨code, message, cause⟩
  refine (raise r.raised).after he hs
    { w with reporters := w.reporters.put reporter r.handler, reports := w.reports ++ r.events } (hw.tail (.beside ?_))
  exact ⟨rfl, rfl, rfl, rfl, rfl, rfl, rfl, rfl, rfl, rfl⟩

theorem debug (parts : List Text) : Leads env base (H.debug parts) :=
  modify _ fun _ => ⟨rfl, rfl, rfl, rfl, rfl, rfl, rfl, rfl, rfl, rfl⟩

/-- An action on a machine that is within the frame of its moves. -/
theorem onMachine {m : Nat} {act : M World α} (h : env.Follows → Within (along m) act) :
    Leads env base (H.onMachine m act) := by
  refine of_moves fun he w hs _ => onMachine_moves fun vm hm => ?_
  have moves := moves_of_within (h he) (taken w m vm)
  rw [putBack_taken hm] at moves
  exact moves hs

/-! ## Programs of ordinary calls -/

theorem execute (r : Runtime) (l : Option Handle) {c : Call} (hc : Ordinary c) : Leads env base (execute r l c) := by
  have other (d : Call) (hd : ¬ Ordinary d) : c ≠ d := fun h => hd (h ▸ hc)
  cases l with
  | none =>
    constructor
    intro _ _ w hw
    rw [execute_none r (other .newState id)]
    exact hw
  | some h =>
    refine of_moves fun he w hs _ => execute_moves (other .newState id) (other .close id) fun vm hm => ?_
    have moves := moves_of_within (perform_within he h hc) (taken w h.machine vm)
    rw [putBack_taken hm] at moves
    exact moves hs

/-- A program all of whose calls make moves. -/
theorem program {P : Call → Prop} {r : Runtime} {l : Option Handle} (h : ∀ c, P c → Leads env base (Host.execute r l c))
    {p : Program α} (hp : p.All P) : Leads env base (Host.runProgram r l p) := by
  induction p with
  | done a => exact pure a
  | fail f => exact fail f
  | ask c next ih => exact bind (h c hp.1) fun v => ih v (hp.2 v)

theorem runProgram (r : Runtime) (l : Option Handle) {p : Program α} (hp : p.All Ordinary) :
    Leads env base (runProgram r l p) := program (fun _ hc => execute r l hc) hp

theorem runWith (runtime : Nat) (l : Option Handle) {p : Runtime → Program α} (hp : ∀ r, (p r).All Ordinary) :
    Leads env base (runWith runtime l p) := bind (.runtime _) fun r => runProgram r l (hp r)

end Leads

namespace Mute

/-! ### Programs of the interface -/

variable {c : Call} {P : Call → Prop} [Wide P]

theorem call (hc : Mute c) : (Program.call c).All P := ⟨Wide.mute _ hc, fun _ => trivial⟩

theorem getTop : Binding.Api.getTop.All P := call trivial

theorem setTop (i : Int) : (Binding.Api.setTop i).All P := ⟨Wide.mute _ trivial, fun _ => trivial⟩

theorem pop (n : Int) : (Binding.Api.pop n).All P := setTop _

theorem checkStack (n : Int) : (Binding.Api.checkStack n).All P := ⟨Wide.mute _ trivial, fun _ => trivial⟩

theorem pushValue (i : Int) : (Binding.Api.pushValue i).All P := ⟨Wide.mute _ trivial, fun _ => trivial⟩

theorem type (i : Int) : (Binding.Api.type i).All P := call trivial

theorem typeName (tag : Int) : (Binding.Api.typeName tag).All P := by
  unfold Binding.Api.typeName
  refine .bind (call trivial) fun v => ?_
  split
  · split
    · exact trivial
    · split
      · exact trivial
      · exact trivial
  · exact trivial

theorem toText (r : Runtime) (i : Int) : (Binding.Api.toText r i).All P := by
  unfold Binding.Api.toText
  split
  · exact trivial
  · refine .bind (call trivial) fun v => ?_
    split
    · exact trivial
    · exact trivial

theorem toNumber (i : Int) : (Binding.Api.toNumber i).All P := call trivial

theorem isInteger (r : Runtime) (i : Int) : (Binding.Api.isInteger r i).All P := by
  unfold Binding.Api.isInteger
  split
  · exact ⟨Wide.mute _ trivial, fun _ => trivial⟩
  · exact trivial

theorem toInteger (r : Runtime) (i : Int) : (Binding.Api.toInteger r i).All P := by
  unfold Binding.Api.toInteger
  split
  · exact .bind (call trivial) fun v => .convert fun n => trivial
  · exact call trivial

theorem toBoolean (i : Int) : (Binding.Api.toBoolean i).All P := ⟨Wide.mute _ trivial, fun _ => trivial⟩

theorem next (i : Int) : (Binding.Api.next i).All P := call trivial

theorem pushNil : Binding.Api.pushNil.All P := ⟨Wide.mute _ trivial, fun _ => trivial⟩

theorem pushNumber (x : Value) : (Binding.Api.pushNumber x).All P := ⟨Wide.mute _ trivial, fun _ => trivial⟩

theorem pushInteger (n : Value) : (Binding.Api.pushInteger n).All P := ⟨Wide.mute _ trivial, fun _ => trivial⟩

theorem pushBoolean (v : Value) : (Binding.Api.pushBoolean v).All P := ⟨Wide.mute _ trivial, fun _ => trivial⟩

theorem pushString (v : Value) : (Binding.Api.pushString v).All P := .convert fun _ => ⟨Wide.mute _ trivial, fun _ => trivial⟩

theorem pushGlobals (r : Runtime) : (Binding.Api.pushGlobals r).All P := by
  unfold Binding.Api.pushGlobals
  split
  · exact ⟨Wide.mute _ trivial, fun _ => trivial⟩
  · exact ⟨Wide.mute _ trivial, fun _ => trivial⟩

theorem pushRef (r : Runtime) (slot : Int) : (Binding.Api.pushRef r slot).All P :=
  .bind (⟨Wide.mute _ trivial, fun _ => trivial⟩) fun _ => type _

theorem break_ (b : Binding.Breakage) : (Binding.Api.break_ b).All P := by
  unfold Binding.Api.break_
  split
  · exact .bind (pushString _) fun _ => trivial
  · exact .bind pushNil fun _ => trivial

theorem openLibs : Binding.Api.openLibs.All P := ⟨Wide.mute _ trivial, fun _ => trivial⟩

theorem topMessage (r : Runtime) : (topMessage r).All P := by
  unfold Host.topMessage
  refine .bind (toText r _) fun t => ?_
  split
  · exact trivial
  · exact .bind (type _) fun _ => .bind (typeName _) fun _ => trivial

end Mute

namespace Ordinary

theorem call {c : Call} (hc : Ordinary c) : (Program.call c).All Ordinary := ⟨hc, fun _ => trivial⟩

theorem pcall (n k e : Int) : (Binding.Api.pcall n k e).All Ordinary := call trivial

theorem loadFile (r : Runtime) (path : Value) : (Binding.Api.loadFile r path).All Ordinary := by
  unfold Binding.Api.loadFile
  split
  · exact Mute.break_ _
  · exact .convert fun _ => call trivial

theorem loadString (r : Runtime) (source : Value) : (Binding.Api.loadString r source).All Ordinary := by
  unfold Binding.Api.loadString
  split
  · exact Mute.break_ _
  · exact .convert fun _ => call trivial

theorem doString (r : Runtime) (source : Value) : (Binding.Api.doString r source).All Ordinary := by
  unfold Binding.Api.doString
  refine .bind (loadString r source) fun status => ?_
  split
  · exact trivial
  · exact pcall _ _ _

theorem collect : Binding.Api.collect.All Ordinary := call trivial

end Ordinary
end LuaHost.Host
