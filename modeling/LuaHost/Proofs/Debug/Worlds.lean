import LuaHost.Proofs.Links.Lockstep
import LuaHost.Proofs.Moves.Calls
import LuaHost.Proofs.Twins.Worlds

set_option autoImplicit false

/-!
# Worlds that differ in their debug channels

Of two worlds one may have its debug channel on and the other not, the stream of the one may be closed, and
what went to the channels may differ, as may what the states' configurations say of it. Without all that
they are the same world. Operations agree if they end alike in such worlds and leave such worlds behind.
-/

namespace LuaHost

namespace Pool

variable {α : Type} (f : α → α)

theorem map_add (p : Pool α) (a : α) : (p.add a).map f = (p.map f).add (f a) := by
  simp [map, add]

variable [Inhabited α]

theorem get_map_default (h : f default = default) (p : Pool α) (n : Nat) : (p.map f).get n = f (p.get n) := by
  cases Nat.lt_or_ge n p.size with
  | inl hn => exact get_map p f hn
  | inr hn =>
    have beyond : (p.map f).size ≤ n := Nat.le_trans (Nat.le_of_eq (size_map p f)) hn
    rw [get_of_size_le p hn, get_of_size_le _ beyond, h]

theorem map_put (h : f default = default) (p : Pool α) (n : Nat) (a : α) : (p.put n a).map f = (p.map f).put n (f a) := by
  unfold put map
  rw [Array.size_map]
  split
  · rw [Array.map_setIfInBounds]
  · rw [Array.map_push, Array.map_append, Array.map_replicate, h]

theorem map_modify (h : f default = default) (p : Pool α) (n : Nat) {g g' : α → α} (hg : ∀ a, f (g a) = g' (f a)) :
    (p.modify n g).map f = (p.map f).modify n g' := by
  rw [modify_eq_put, modify_eq_put, map_put f h, get_map_default f h, hg]

end Pool

theorem Binding.Debug.enable_isOn {d : Binding.Debug} (c : Option Config) (h : d.isOn = true) : (d.enable c).isOn = true := by
  cases c with
  | none => rfl
  | some c =>
    unfold Debug.enable
    dsimp only
    split
    · rfl
    · exact h

/-- A configuration without its word on debugging. -/
def Config.silent (c : Config) : Config := { c with debug := false }

namespace Host

open Lua (M Vm Link Tied Signal Together InStep)
open Binding (Call Program Runtime Debug)

/-- A state without what its configuration says of debugging. -/
def State.silent (s : State) : State := { s with config := s.config.silent }

theorem State.silent_default : (default : State).silent = default := rfl

theorem State.eq_of_silent {s s' : State} (h : s'.silent = s.silent) :
    ∃ c, c.silent = s.config.silent ∧ s' = { s with config := c } := by
  obtain ⟨machine, isOwner, config, runtime, reporter, registry⟩ := s
  obtain ⟨machine', isOwner', config', runtime', reporter', registry'⟩ := s'
  simp only [State.silent, State.mk.injEq] at h
  obtain ⟨rfl, rfl, quiet, rfl, rfl, rfl⟩ := h
  exact ⟨config', quiet, rfl⟩

namespace World

/-- A world without its debug channel. -/
def silent (w : World) : World :=
  { w with debug := .off, written := Text.empty, states := w.states.map State.silent }

/-- The same world but for its debug channel, which is on if `on` says so. -/
structure Akin (on : Prop) (w w' : World) : Prop where
  same : w'.silent = w.silent
  kept : on → w.debug.isOn = true

end World

variable {on : Prop} {w w' : World} {α β : Type} {env : Env}

namespace World.Akin

/-- Akin worlds agree on what has nothing to do with debugging. -/
theorem agree (h : w.Akin on w') (f : World → α) (hf : ∀ w, f w.silent = f w) : f w' = f w := by
  rw [← hf w', h.same, hf]

theorem machines (h : w.Akin on w') : w'.machines = w.machines := h.agree World.machines fun _ => rfl

/-- What changes neither the debug channel nor a state. -/
theorem change (h : w.Akin on w') (f : World → World) (hf : ∀ w, (f w).silent = f w.silent)
    (debug : ∀ w, (f w).debug = w.debug) : (f w).Akin on (f w') where
  same := by rw [hf, hf, h.same]
  kept := by
    rw [debug]
    exact h.kept

theorem putMachine (h : w.Akin on w') (m : Nat) (s : Slot) :
    Akin on { w with machines := w.machines.put m s } { w' with machines := w'.machines.put m s } :=
  h.change (fun w => { w with machines := w.machines.put m s }) (fun _ => rfl) fun _ => rfl

theorem withStates (h : w.Akin on w') {p p' : Pool State} (hp : p'.map State.silent = p.map State.silent) :
    Akin on { w with states := p } { w' with states := p' } where
  same := by
    have rest := congrArg (fun v : World => { v with states := p.map State.silent }) h.same
    unfold silent at rest ⊢
    rw [hp]
    exact rest
  kept := h.kept

theorem states (h : w.Akin on w') : w'.states.map State.silent = w.states.map State.silent := congrArg World.states h.same

theorem state (h : w.Akin on w') (id : Nat) : (w'.states.get id).silent = (w.states.get id).silent := by
  rw [← Pool.get_map_default _ State.silent_default, ← Pool.get_map_default _ State.silent_default, h.states]

/-- The channel of one world, written to and switched as it may be. -/
theorem channel (h : w.Akin on w') (d d' : Debug) (t t' : Text) (kept : on → d.isOn = true) :
    Akin on { w with debug := d, written := t } { w' with debug := d', written := t' } := ⟨h.same, kept⟩

end World.Akin

/-- Machines on akin worlds. -/
def besides (on : Prop) : Link World World := .lockstep fun w w' => w.Akin on w'

instance : (besides on).Whole := inferInstanceAs (Link.lockstep _).Whole

/-- Functions that are not written in Lua cannot tell akin worlds. -/
def Env.Deaf (env : Env) (on : Prop) : Prop := ∀ m, (besides on).Natives (env.natives m) (env.natives m)

/-- The same result, or the same error, in akin worlds. -/
inductive Agreed (on : Prop) : EStateM.Result Stop World α → EStateM.Result Stop World α → Prop where
  | ok {w w' : World} {a : α} (akin : w.Akin on w') : Agreed on (.ok a w) (.ok a w')
  | error {w w' : World} {e : Stop} (akin : w.Akin on w') : Agreed on (.error e w) (.error e w')

structure Agree (env : Env) (on : Prop) (act act' : H α) : Prop where
  after : env.Deaf on → ∀ w w', w.Akin on w' → Agreed on (act env w) (act' env w')

/-- An operation that ends alike in akin worlds. -/
abbrev Indifferent (env : Env) (on : Prop) (act : H α) : Prop := Agree env on act act

namespace Agree

/-! ## Rules -/

theorem pure (a : α) : Indifferent env on (Pure.pure a : H α) := ⟨fun _ _ _ akin => .ok akin⟩

theorem fail (f : Failure) : Indifferent env on (H.fail f : H α) := ⟨fun _ _ _ akin => .error akin⟩

theorem fault (f : Lua.Fault) : Indifferent env on (H.fault f : H α) := ⟨fun _ _ _ akin => .error akin⟩

theorem ofExcept (r : Except Failure α) : Indifferent env on (H.ofExcept r) := by
  cases r with
  | ok a => exact pure a
  | error f => exact fail f

@[elab_as_elim] theorem outcome {act act' : H α} {motive : EStateM.Result Stop World α → EStateM.Result Stop World α → Prop}
    (h : Agree env on act act') (he : env.Deaf on) {w w' : World} (akin : w.Akin on w')
    (ok : ∀ a v v', v.Akin on v' → motive (.ok a v) (.ok a v'))
    (error : ∀ e v v', v.Akin on v' → motive (.error e v) (.error e v')) : motive (act env w) (act' env w') := by
  have after := h.after he w w' akin
  generalize act env w = result at after
  generalize act' env w' = result' at after
  cases after with
  | ok akin => exact ok _ _ _ akin
  | error akin => exact error _ _ _ akin

theorem bind {act act' : H α} {next next' : α → H β} (h : Agree env on act act') (k : ∀ a, Agree env on (next a) (next' a)) :
    Agree env on (act >>= next) (act' >>= next') := by
  constructor
  intro he w w' akin
  simp only [Bind.bind, ReaderT.bind, EStateM.bind]
  exact h.outcome he akin (fun a v v' akin => (k a).after he v v' akin) fun e v v' akin => .error akin

/-- What follows reads nothing of the debug channel. -/
theorem bindGet {next : World → H β} (k : ∀ w, Indifferent env on (next w)) (h : ∀ w, next w.silent = next w) :
    Indifferent env on (MonadState.get >>= next) := by
  constructor
  intro he w w' akin
  have same : next w' = next w := akin.agree next h
  change Agreed on (next w env w) (next w' env w')
  rw [same]
  exact (k w).after he w w' akin

theorem bindRead {next : Env → H β} (k : Indifferent env on (next env)) : Indifferent env on (MonadReader.read >>= next) :=
  ⟨fun he w w' akin => k.after he w w' akin⟩

theorem discard {act : H α} (h : Indifferent env on act) : Indifferent env on (discard act) := by
  constructor
  intro he w w' akin
  simp only [Functor.discard, Functor.mapConst, EStateM.map, Function.comp_apply]
  exact h.outcome he akin (fun a v v' akin => .ok akin) fun e v v' akin => .error akin

theorem ite {c : Prop} [Decidable c] {yes no yes' no' : H α} (h : Agree env on yes yes') (k : Agree env on no no') :
    Agree env on (if c then yes else no) (if c then yes' else no') := by
  split
  · exact h
  · exact k

theorem forM {next : α → H PUnit} (h : ∀ a, Indifferent env on (next a)) (as : List α) : Indifferent env on (as.forM next) := by
  induction as with
  | nil => exact pure _
  | cons a rest ih => exact bind (h a) fun _ => ih

theorem modifyGet {f f' : World → α × World} (h : ∀ w w', w.Akin on w' → (f' w').1 = (f w).1 ∧ (f w).2.Akin on (f' w').2) :
    Agree env on (MonadState.modifyGet f) (MonadState.modifyGet f') := by
  constructor
  intro _ w w' akin
  obtain ⟨same, later⟩ := h w w' akin
  have made : Agreed on (.ok (f w).1 (f w).2) (.ok (f' w').1 (f' w').2) := by
    rw [same]
    exact .ok later
  exact made

theorem modify {f f' : World → World} (h : ∀ w w', w.Akin on w' → (f w).Akin on (f' w')) :
    Agree env on (modify f : H Unit) (modify f') := modifyGet fun w w' akin => ⟨rfl, h w w' akin⟩

/-- What is done to a world and given of it has nothing to do with debugging. -/
theorem change (f : World → World) (g : World → α) (hf : ∀ w, (f w).silent = f w.silent) (hg : ∀ w, g w.silent = g w)
    (debug : ∀ w, (f w).debug = w.debug) :
    Indifferent env on (MonadState.modifyGet fun w => (g w, f w) : H α) :=
  modifyGet fun _ _ akin => ⟨akin.agree g hg, akin.change f hf debug⟩

theorem finally_ {act act' : H α} {after after' : H Unit} (h : Agree env on act act') (k : Agree env on after after') :
    Agree env on (H.finally_ act after) (H.finally_ act' after') := by
  constructor
  intro he w w' akin
  unfold H.finally_
  refine h.outcome he akin (fun a v v' akin => ?_) fun e v v' akin => ?_
  · dsimp only
    exact k.outcome he akin (fun _ _ _ akin => .ok akin) fun _ _ _ akin => .error akin
  · cases e with
    | failure f =>
      dsimp only
      exact k.outcome he akin (fun _ _ _ akin => .error akin) fun _ _ _ akin => .error akin
    | signal s => exact .error akin

theorem catch_ {act act' : H α} {handler handler' : Failure → H α} (h : Agree env on act act')
    (k : ∀ f, Agree env on (handler f) (handler' f)) : Agree env on (H.catch_ act handler) (H.catch_ act' handler') := by
  constructor
  intro he w w' akin
  unfold H.catch_
  refine h.outcome he akin (fun a v v' akin => .ok akin) fun e v v' akin => ?_
  cases e with
  | failure f => exact (k f).after he v v' akin
  | signal s => exact .error akin

theorem runtime (n : Nat) : Indifferent env on (H.runtime n) := bindGet (fun _ => pure _) fun _ => rfl

/-- Lines of the debug channel, which may be different ones. -/
theorem debug (parts parts' : List Text) : Agree env on (H.debug parts) (H.debug parts') :=
  modify fun _ _ akin => akin.channel _ _ _ _ akin.kept

/-- A configuration may switch the channel of one world on and leave that of the other. -/
theorem enable (c c' : Option Config) : Agree env on (MonadState.modifyGet fun w : World => ((), { w with debug := w.debug.enable c }))
    (MonadState.modifyGet fun w : World => ((), { w with debug := w.debug.enable c' }) : H Unit) :=
  modifyGet fun _ _ akin => ⟨rfl, akin.channel _ _ _ _ fun h => Debug.enable_isOn c (akin.kept h)⟩

/-- A state is looked at: in the other world its configuration may say something else of debugging. -/
theorem bindStates (id : Nat) {next next' : State → H β}
    (k : ∀ s c, c.silent = s.config.silent → Agree env on (next s) (next' { s with config := c })) :
    Agree env on (State.get id >>= next) (State.get id >>= next') := by
  constructor
  intro he w w' akin
  obtain ⟨c, quiet, same⟩ := State.eq_of_silent (akin.state id)
  change Agreed on (next (w.states.get id) env w) (next' (w'.states.get id) env w')
  rw [same]
  exact (k _ c quiet).after he w w' akin

/-- What follows reads of the state nothing that has to do with debugging. -/
theorem bindState (id : Nat) {next : State → H β} (k : ∀ s, Indifferent env on (next s)) (h : ∀ s, next s.silent = next s) :
    Indifferent env on (State.get id >>= next) := by
  refine bindStates id fun s c quiet => ?_
  have same : next { s with config := c } = next s := by
    rw [← h, ← h s, State.silent, State.silent, quiet]
  rw [same]
  exact k s

/-- A reporter is told the same in both worlds. -/
theorem report (reporter : Nat) (code : Int) (message : Text) (cause : Option String) :
    Indifferent env on (H.report reporter code message cause) := by
  have raise (raised : Option Text) : Indifferent env on (H.raise raised) := by
    cases raised with
    | some t => exact fail _
    | none => exact pure _
  constructor
  intro he w w' akin
  let handled (v : World) := (v.reporters.get reporter).handle ⟨code, message, cause⟩
  let told (v : World) : World :=
    { v with reporters := v.reporters.put reporter (handled v).handler, reports := v.reports ++ (handled v).events }
  have same : handled w' = handled w := akin.agree handled fun _ => rfl
  change Agreed on (H.raise (handled w).raised env (told w)) (H.raise (handled w').raised env (told w'))
  rw [same]
  exact (raise _).after he _ _ (akin.change told (fun _ => rfl) fun _ => rfl)

theorem onMachine {m : Nat} {act : M World α} (h : env.Deaf on → Tied (besides on) act act) :
    Indifferent env on (H.onMachine m act) := by
  constructor
  intro he w w' akin
  unfold H.onMachine
  rw [akin.machines]
  cases w.machines.get m with
  | busy => exact .error akin
  | closed => exact .error akin
  | «open» vm =>
    have taken := (h he).holds vm _ _ (akin.putMachine m .busy)
    rw [akin.machines] at taken
    dsimp only
    generalize act ⟨vm, { w with machines := _ }⟩ = result at taken ⊢
    generalize act _ = result' at taken ⊢
    cases taken with
    | ok akin => exact .ok (akin.putMachine m _)
    | error akin => exact .error (akin.putMachine m _)

/-- An operation of the host, carried out from inside a machine. -/
theorem inMachine (he : env.Deaf on) {m : Nat} {act : H α} (h : Indifferent env on act) (dropped : α) :
    Tied (besides on) (H.inMachine env m act dropped) (H.inMachine env m act dropped) := by
  refine ⟨fun vm w w' akin => ?_⟩
  have inside := akin.putMachine m (.open vm)
  unfold H.inMachine
  dsimp only
  refine h.outcome he inside (fun a v v' akin => ?_) fun e v v' akin => ?_
  · have busy := akin.putMachine m .busy
    dsimp only
    rw [akin.machines] at busy ⊢
    cases v.machines.get m with
    | «open» vm => exact .ok busy
    | busy => exact .error akin
    | closed => exact .error akin
  · have busy := akin.putMachine m .busy
    cases e with
    | failure f =>
      dsimp only
      rw [akin.machines] at busy ⊢
      cases v.machines.get m with
      | «open» vm => exact .ok busy
      | busy => exact .error akin
      | closed => exact .error akin
    | signal e =>
      dsimp only
      rw [akin.machines] at busy ⊢
      cases v.machines.get m with
      | «open» vm => exact .error busy
      | busy => exact .error akin
      | closed => exact .error akin

end Agree
end Host
end LuaHost
