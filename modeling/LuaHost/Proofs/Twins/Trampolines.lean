import LuaHost.Host.Trampoline
import LuaHost.Proofs.Moves.Operations
import LuaHost.Proofs.Twins.Operations

set_option autoImplicit false

/-!
# Functions of the host on twin worlds

What a machine of the host calls ends alike in twin worlds. The numbers of references, functions and
machines are the same in both, so twins hold the same references and show the same values.
-/

namespace LuaHost.Host

open Lua (M Vm Link Tied Signal Together)
open Binding (Program Runtime)

variable {ρ : Guise} {b : Roll} {w w' : World} {α β β' : Type} {env : Env}

/-! ## What twins hold and show -/

namespace World.Twin

theorem slotOf (h : w.Twin ρ b w') : H.slotOf w' = H.slotOf w := by
  funext id
  unfold H.slotOf
  rw [h.reference]
  rfl

theorem referenceType (h : w.Twin ρ b w') (id : Nat) : referenceType w' id = referenceType w id := by
  have slots (m : Nat) (slot : Int) : slotType w' m slot = slotType w m slot := by
    unfold slotType
    rw [h.machines]
  have machine : (w'.registries.get (ρ.registries.image (w.references.get id).registry)).machine =
      (w.registries.get (w.references.get id).registry).machine := by
    rw [h.registry]
    rfl
  unfold Host.referenceType
  simp only [h.reference, slots]
  exact congrArg (fun m : Option Nat => if (w.references.get id).holds then m.bind _ else none) machine

mutual

theorem answer (h : w.Twin ρ b w') : ∀ v : Value, v.answer w' = v.answer w
  | .none | .bool _ | .int _ | .float _ | .text _ | .bytes _ | .byteArray _ => by simp only [Value.answer]
  | .tuple vs => by simp only [Value.answer, answerAll h vs]
  | .list vs => by simp only [Value.answer, answerAll h vs]
  | .reference id => by simp only [Value.answer, h.referenceType]
  | .set _ | .dict _ | .callable _ | .pointer _ | .other _ _ _ => by simp only [Value.answer, h.slotOf]

theorem answerAll (h : w.Twin ρ b w') : ∀ vs : List Value, answerAll w' vs = answerAll w vs
  | [] => rfl
  | v :: vs => by simp only [Host.answerAll, answer h v, answerAll h vs]

end

theorem trampolineReferences (h : w.Twin ρ b w') : w'.trampolineReferences = w.trampolineReferences := by
  have routine (id : Nat) : (w'.foreigns.get id).routine = (w.foreigns.get id).routine := by
    rw [h.foreign]
    rfl
  unfold World.trampolineReferences
  rw [h.trampolines]
  simp only [routine]

/-- The twin of something stored holds the same references. -/
theorem stored_references (ρ : Guise) (s : Stored) : (ρ.stored s).references = s.references := by
  cases s with
  | value v => rfl
  | selector s => rfl

theorem holds (h : w.Twin ρ b w') (id : Nat) : w'.holds id = w.holds id := by
  have stored : w'.stored = w.stored.map ρ.keeping := h.roll.stored
  have kept : w'.kept = w.kept := h.kept
  have inFlight : w'.inFlight = w.inFlight := h.inFlight
  unfold World.holds
  rw [stored, kept, inFlight, h.trampolineReferences, List.any_map]
  simp only [Function.comp_def, Guise.keeping, stored_references]

end World.Twin

namespace Mirrors

variable {R : Roll → β → β' → Prop}

theorem dropAll (ids : List Nat) : Mirrors env ρ b Same (dropAll ids) (dropAll ids) := by
  induction ids with
  | nil => exact pure _
  | cons id rest ih =>
    refine bindGet fun w w' twin => ?_
    dsimp only
    rw [twin.holds]
    exact ite (bind (catch_ (release id) fun _ => pure _) fun _ => ih) ih

theorem holding {act act' : H α} (ids : List Nat) (h : Mirrors env ρ b Same act act') :
    Mirrors env ρ b Same (holding ids act) (holding ids act') :=
  bind (change _ (fun _ => rfl) fun _ => rfl) fun _ => finally_ h (change _ (fun _ => rfl) fun _ => rfl)

theorem recordCall (name : Text) (vs : List Value) : Mirrors env ρ b Same (recordCall name vs) (recordCall name vs) :=
  modify fun w w' twin => by
    rw [twin.answerAll]
    exact twin.change (fun u => { u with calls := u.calls ++ [.text name :: answerAll w vs] }) (fun _ => rfl) fun _ => rfl

/-! ## States by their names -/

/-- A name leads to the twin of the state to which it leads. -/
theorem stateNamed (name : Text) : Mirrors env ρ b (fun c id id' => id' = ρ.states.image id ∧ id < c.states.size)
    (stateNamed name) (stateNamed name) := by
  refine ⟨fun _ w w' twin => ?_⟩
  have names : w'.names = w.names.map ρ.name := twin.roll.names
  rw [stateNamed_eq, stateNamed_eq, names, List.find?_map]
  have same : (fun entry : Text × Nat => entry.1 == name) ∘ ρ.name = fun entry => entry.1 == name := rfl
  rw [same]
  cases found : w.names.find? fun entry => entry.1 == name with
  | none => exact .error twin
  | some entry => exact .ok twin ⟨rfl, twin.roll.sound.names entry.1 entry.2 (List.mem_of_find?_eq_some found)⟩

/-- The twin of a state is looked at in its stead. -/
theorem bindState (id : Nat) {next : State → H β} {next' : State → H β'}
    (k : ∀ c, b.Grows c → ∀ s, c.Has s.registry s.reporter → Mirrors env ρ c R (next s) (next' (ρ.state s))) :
    Mirrors env ρ b R (State.get id >>= next) (State.get (ρ.states.image id) >>= next') := by
  have get : Mirrors env ρ b (fun c s s' => s' = ρ.state s ∧ c.Has s.registry s.reporter)
      (State.get id) (State.get (ρ.states.image id)) := readTo fun w w' twin => ⟨twin.state id, twin.roll.sound.states id⟩
  refine bindTo get fun c hc s s' hs => ?_
  obtain ⟨rfl, hs⟩ := hs
  exact k c hc s hs

theorem bindMainSelector (path : List Value) {next : Selector → H β} {next' : Selector → H β'}
    (k : ∀ c, b.Grows c → ∀ s, c.Has s.registry s.reporter → Mirrors env ρ c R (next s) (next' (ρ.selector s))) :
    Mirrors env ρ b R (mainSelector path >>= next) (mainSelector path >>= next') := by
  unfold mainSelector
  simp only [bind_assoc]
  refine bindTo (stateNamed _) fun c hc id id' hid => ?_
  obtain ⟨rfl, -⟩ := hid
  exact bindState id fun d hd s hs => k d (hc.trans hd) (s.select (path.headD .none) path.tail) hs

/-! ## Callbacks -/

theorem construct (c : Class) (args : List Value) : Mirrors env ρ b Same (c.construct args) (c.construct args) := by
  refine bindGet fun w w' twin => ?_
  rw [twin.slotOf]
  split
  · exact pure _
  · exact pure _
  · exact fail _
  · exact pure _
  · exact bind (ofExcept _) fun _ => pure _
  · exact fail _
  · exact pure _
  · exact pure _
  · exact fail _

theorem callback (f : Callback) (args : List Value) : Mirrors env ρ b Same (f.run args) (f.run args) := by
  unfold Callback.run
  cases f with
  | construct c => exact construct c args
  | named name action =>
    refine bind (recordCall _ _) fun _ => ?_
    cases action with
    | keep => exact bind (change _ (fun _ => rfl) fun _ => rfl) fun _ => pure _
    | raise kind message => exact fail _
    | execute state source => 
      refine bindTo (stateNamed state) fun c hc id id' hid => ?_
      obtain ⟨rfl, -⟩ := hid
      exact bindState id fun d hd s hs => bind (stateExecute s _) fun _ => pure _
    | get path => exact bindMainSelector path fun c hc s hs => selectorGet hs.made
    | call path => exact bindMainSelector path fun c hc s hs => selectorCall hs.made args
    | set path =>
      cases args with
      | nil => exact fail _
      | cons v rest => exact bindMainSelector path fun c hc s hs => bind (set hs.made v) fun _ => pure _
    | _ => exact pure _

/-! ## Functions that machines call -/

theorem routineCall (runtime : Nat) (l : Handle) (c : RoutineCall) :
    Mirrors env ρ b Same (c.run runtime l) (c.run runtime l) := by
  cases c with
  | plain name m => exact bind (runWith _ _ _) fun v => recordCall _ _
  | pushFunction state routine =>
    refine bindTo (stateNamed state) fun c hc id id' hid => ?_
    obtain ⟨rfl, -⟩ := hid
    exact bindState id fun d hd s hs => bind (wrap hs.made routine) fun f => bind (runWith _ _ _) fun _ => recordCall _ _

theorem runCalls (runtime : Nat) (l : Handle) (calls : List RoutineCall) :
    Mirrors env ρ b Same (runCalls runtime l calls) (runCalls runtime l calls) := by
  induction calls with
  | nil => exact pure _
  | cons c rest ih => exact bind (routineCall runtime l c) fun _ => ih

theorem attempt {act act' : H α} (h : Mirrors env ρ b Same act act') :
    Mirrors env ρ b Same (attempt act) (attempt act') := catch_ (bind h fun _ => pure _) fun _ => pure _

section Foreigns

variable (f : Foreign)

theorem reportFailure (e : Failure) : Mirrors env ρ b Same (reportFailure f e) (reportFailure (ρ.foreign f) e) :=
  bind (runtime _) fun _ => bind (report _ _ _ _) fun _ => pure _

theorem giveUp (e : Failure) (ids : List Nat) : Mirrors env ρ b Same (giveUp f e ids) (giveUp (ρ.foreign f) e ids) :=
  finally_ (discard (reportFailure f e)) (dropAll ids)

variable {f} (hf : f.registry < max 1 b.registries.size)

include hf

theorem arguments (l : Handle) (n : Nat) (i : Int) :
    Mirrors env ρ b Same (arguments f l n i) (arguments (ρ.foreign f) l n i) := by
  have argument (i : Int) : Mirrors env ρ b Same (Host.toHost f.runtime (some l) i (some f.registry))
      (Host.toHost f.runtime (some l) i (some (ρ.foreign f).registry)) := by
    refine toHost _ _ _ ?_
    rintro _ ⟨⟩
    exact hf
  induction n generalizing i with
  | zero => exact pure _
  | succ n ih => exact bind (argument i) fun v => bind (ih _) fun vs => pure _

theorem pushResults (l : Handle) (k : Nat) (vs : List Value) :
    Mirrors env ρ b Same (pushResults f l k vs) (pushResults (ρ.foreign f) l k vs) := by
  have result (v : Value) : Mirrors env ρ b Same (Host.pushHost f.runtime (some l) v (some f.registry))
      (Host.pushHost f.runtime (some l) v (some (ρ.foreign f).registry)) := by
    refine pushHost _ _ _ ?_
    rintro _ ⟨⟩
    exact hf
  induction vs generalizing k with
  | nil => exact pure _
  | cons v rest ih =>
    refine bind (catch_ (bind (result v) fun _ => pure _) fun _ => pure _) fun pushed => ?_
    cases pushed with
    | some e => exact pure _
    | none => exact ih _

theorem giveResults (l : Handle) (argIds : List Nat) (result : Value) :
    Mirrors env ρ b Same (giveResults f l argIds result) (giveResults (ρ.foreign f) l argIds result) :=
  holding _ <| bind (dropAll _) fun _ => ite (pure _) <| bind (discard (runWith _ _ _)) fun _ => pushResults hf l _ _

theorem finish (l : Handle) (argIds : List Nat) (outcome : Except Failure Value) :
    Mirrors env ρ b Same (finish f l argIds outcome) (finish (ρ.foreign f) l argIds outcome) := by
  cases outcome with
  | error e => exact bind (giveUp f _ _) fun _ => pure _
  | ok result =>
    refine bind (giveResults hf l _ _) fun failed => ?_
    cases failed with
    | some failed => exact bind (giveUp f _ _) fun _ => pure _
    | none => exact bind (dropAll _) fun _ => pure _

theorem callHost {act act' : List Value → H Value} (ha : ∀ args, Mirrors env ρ b Same (act args) (act' args)) (l : Handle) :
    Mirrors env ρ b Same (callHost f act l) (callHost (ρ.foreign f) act' l) :=
  bind (runWith _ _ _) fun _ => bind (arguments hf l _ _) fun args => bind (holding _ (attempt (ha args))) fun outcome =>
    finish hf l _ outcome

/-- A call of the twin of a function. -/
theorem foreignCall (l : Handle) : Mirrors env ρ b Same (f.call l) ((ρ.foreign f).call l) := by
  have same : (ρ.foreign f).routine = f.routine := rfl
  unfold Foreign.call
  rw [same]
  cases f.routine with
  | callback c => exact callHost hf (callback c) l
  | raw calls result raises =>
    refine catch_ (bind (runCalls _ l calls) fun _ => ?_) fun e => ite (pure _) (reportFailure f e)
    cases raises with
    | some raised => exact fail _
    | none => exact ofExcept _

end Foreigns
end Mirrors

/-! ## All functions of a machine -/

/-- What happens once a machine may call a function of the host. -/
def enter (env : Env) (m t id : Nat) (isKept : Bool) (f : Foreign) : M World (List Lua.Value) := do
  note (.entered m id isKept)
  let n ← H.inMachine env m (f.call ⟨m, t⟩) 0
  Lua.Stack.popAll t (int32 n).toNat

theorem nativesTo_foreign (depth m id : Nat) (services : Lua.Services World) (upvalues args : List Lua.Value)
    (s : Lua.Sys World) :
    nativesTo (depth + 1) m services (.foreign id) upvalues args s =
      (if !(s.host.foreigns.get id).machines.contains m then (M.fault .strayFunction : M World Unit) >>= fun _ =>
          enter ⟨nativesTo depth⟩ m s.vm.running id (s.host.isKept m (.foreign id)) (s.host.foreigns.get id)
        else enter ⟨nativesTo depth⟩ m s.vm.running id (s.host.isKept m (.foreign id)) (s.host.foreigns.get id)) s := rfl

/-- The functions of a machine cannot tell twins, to whatever depth they call each other. -/
theorem nativesTo_mirrored (depth : Nat) : (⟨nativesTo depth⟩ : Env).Mirrored ρ := by
  induction depth with
  | zero => exact fun b m services services' hs f upvalues args => .throw_fault _ (by decide)
  | succ depth ih =>
    intro b m services services' hs f upvalues args
    cases f with
    | library lib name => exact Lua.Library.apply_tied hs lockstep_files _ _ _
    | foreign id =>
      refine ⟨fun vm w w' twin => ?_⟩
      have kept : w'.isKept m (.foreign id) = w.isKept m (.foreign id) := by
        unfold World.isKept
        rw [twin.trampolines]
      have machines : (ρ.foreign (w.foreigns.get id)).machines = (w.foreigns.get id).machines := rfl
      -- the function was made before it is called, so the world of the call is what its call goes on from
      have called (isKept : Bool) : Tied (lockstep ρ w.roll)
          (enter ⟨nativesTo depth⟩ m vm.running id isKept (w.foreigns.get id))
          (enter ⟨nativesTo depth⟩ m vm.running id isKept (ρ.foreign (w.foreigns.get id))) :=
        .bind (note_lockstep _) fun _ => .bind (Mirrors.inMachine ih (.foreignCall (twin.roll.sound.foreigns id).made _) 0)
          fun n => Lua.Stack.popAll_tied _ _
      dsimp only
      rw [nativesTo_foreign, nativesTo_foreign, twin.foreign, kept, machines]
      refine Together.mono (fun _ _ later => World.Twin.weaken later twin.roll.grown) ?_
      exact (Tied.ite (.bind (.fault _ (by decide)) fun _ => called _) (called _)).holds vm w w' twin.self

/-- Whatever the programs of a host's machines call, they cannot tell twins. -/
theorem Env.full_mirrored : Env.full.Mirrored ρ := nativesTo_mirrored depthLimit

end LuaHost.Host
