import LuaHost.Proofs.Links.Lockstep
import LuaHost.Proofs.Links.Stack
import LuaHost.Proofs.Moves.Calls
import LuaHost.Proofs.Twins.Worlds

set_option autoImplicit false

/-!
# Operations on twin worlds

Two operations mirror each other if they end alike in twin worlds and leave twins behind. The rules follow
the way in which operations are put together. What the twins are known to have grown from only matters
where something new is made that refers to a registry or a reporter.
-/

namespace LuaHost.Host

open Lua (M Vm Link Tied Signal Together)
open Binding (Call Program Runtime)

variable {ρ : Guise} {b : Roll} {w w' : World} {α β α' β' : Type}

namespace World.Twin

theorem weaken {c : Roll} (h : w.Twin ρ c w') (k : b.Grows c) : w.Twin ρ b w' := ⟨h.rest, h.roll.weaken k⟩

theorem self (h : w.Twin ρ b w') : w.Twin ρ w.roll w' := ⟨h.rest, h.roll.self⟩

/-- Twins agree on what has no number. -/
theorem agree (h : w.Twin ρ b w') (f : World → α) (hf : ∀ w, f w.rest = f w) : f w' = f w := by
  rw [← hf w', h.rest, hf]

theorem machines (h : w.Twin ρ b w') : w'.machines = w.machines := h.agree World.machines fun _ => rfl

theorem runtimes (h : w.Twin ρ b w') : w'.runtimes = w.runtimes := h.agree World.runtimes fun _ => rfl

theorem files (h : w.Twin ρ b w') : w'.files = w.files := h.agree World.files fun _ => rfl

theorem trampolines (h : w.Twin ρ b w') : w'.trampolines = w.trampolines := h.agree World.trampolines fun _ => rfl

theorem kept (h : w.Twin ρ b w') : w'.kept = w.kept := h.agree World.kept fun _ => rfl

theorem inFlight (h : w.Twin ρ b w') : w'.inFlight = w.inFlight := h.agree World.inFlight fun _ => rfl

theorem registry (h : w.Twin ρ b w') (n : Nat) :
    w'.registries.get (ρ.registries.image n) = ρ.registry (w.registries.get n) := h.roll.registries.get n

theorem reporter (h : w.Twin ρ b w') (n : Nat) : w'.reporters.get (ρ.reporters.image n) = w.reporters.get n :=
  h.roll.reporters.get n

theorem reference (h : w.Twin ρ b w') (n : Nat) : w'.references.get n = ρ.reference (w.references.get n) :=
  h.roll.references.get n

theorem foreign (h : w.Twin ρ b w') (n : Nat) : w'.foreigns.get n = ρ.foreign (w.foreigns.get n) :=
  h.roll.foreigns.get n

theorem state (h : w.Twin ρ b w') (n : Nat) : w'.states.get (ρ.states.image n) = ρ.state (w.states.get n) :=
  h.roll.states.get n

/-- What changes nothing that has a number. -/
theorem change (h : w.Twin ρ b w') (f : World → World) (rest : ∀ w, (f w).rest = f w.rest)
    (roll : ∀ w, (f w).roll = w.roll) : (f w).Twin ρ b (f w') where
  rest := by rw [rest, rest, h.rest]
  roll := by
    rw [roll, roll]
    exact h.roll

theorem putMachine (h : w.Twin ρ b w') (m : Nat) (s : Slot) :
    Twin ρ b { w with machines := w.machines.put m s } { w' with machines := w'.machines.put m s } :=
  h.change (fun w => { w with machines := w.machines.put m s }) (fun _ => rfl) fun _ => rfl

/-! What changes in one pool alone. -/

theorem withReporters (h : w.Twin ρ b w') {p p' : Pool Handler} (hp : ρ.reporters.Carries id p p')
    (hs : w.reporters.size ≤ p.size) : Twin ρ b { w with reporters := p } { w' with reporters := p' } :=
  ⟨h.rest, h.roll.withReporters hp hs⟩

theorem withRegistries (h : w.Twin ρ b w') {p p' : Pool Registry} (hp : ρ.registries.Carries ρ.registry p p')
    (hs : w.registries.size ≤ p.size) (hr : ∀ n, (p.get n).reporter < max 1 w.reporters.size) :
    Twin ρ b { w with registries := p } { w' with registries := p' } := ⟨h.rest, h.roll.withRegistries hp hs hr⟩

theorem withReferences (h : w.Twin ρ b w') {p p' : Pool Reference} (hp : Renumbering.same.Carries ρ.reference p p')
    (hr : ∀ n, (p.get n).registry < max 1 w.registries.size) :
    Twin ρ b { w with references := p } { w' with references := p' } := ⟨h.rest, h.roll.withReferences hp hr⟩

theorem withForeigns (h : w.Twin ρ b w') {p p' : Pool Foreign} (hp : Renumbering.same.Carries ρ.foreign p p')
    (hr : ∀ n, w.roll.Has (p.get n).registry (p.get n).reporter) :
    Twin ρ b { w with foreigns := p } { w' with foreigns := p' } := ⟨h.rest, h.roll.withForeigns hp hr⟩

theorem withStates (h : w.Twin ρ b w') {p p' : Pool State} (hp : ρ.states.Carries ρ.state p p')
    (hs : w.states.size ≤ p.size) (hr : ∀ n, w.roll.Has (p.get n).registry (p.get n).reporter)
    (first : 0 < p.size → 0 < w.registries.size ∧ 0 < w.reporters.size)
    (spare : ∀ n, (∀ m, ρ.states.image m ≠ n) → p'.get n = w'.states.get n) :
    Twin ρ b { w with states := p } { w' with states := p' } := ⟨h.rest, h.roll.withStates hp hs hr first spare⟩

theorem withNames (h : w.Twin ρ b w') {names : List (Text × Nat)}
    (hn : ∀ name id, (name, id) ∈ names → id < w.states.size) :
    Twin ρ b { w with names := names } { w' with names := names.map ρ.name } := ⟨h.rest, h.roll.withNames hn⟩

theorem withStored (h : w.Twin ρ b w') {stored : List (Text × Stored)}
    (hs : ∀ name s, (name, Stored.selector s) ∈ stored → w.roll.Has s.registry s.reporter) :
    Twin ρ b { w with stored := stored } { w' with stored := stored.map ρ.keeping } := ⟨h.rest, h.roll.withStored hs⟩

end World.Twin

/-- Machines on twin worlds. -/
def lockstep (ρ : Guise) (b : Roll) : Link World World := .lockstep fun w w' => w.Twin ρ b w'

instance : (lockstep ρ b).Whole := inferInstanceAs (Link.lockstep _).Whole

/-- Functions that are not written in Lua cannot tell twins. -/
def Env.Mirrored (env : Env) (ρ : Guise) : Prop := ∀ b m, (lockstep ρ b).Natives (env.natives m) (env.natives m)

/-- Ends that are alike: results that are related, or the same error. -/
inductive Alike (ρ : Guise) (b : Roll) (Q : Roll → α → α' → Prop) :
    EStateM.Result Stop World α → EStateM.Result Stop World α' → Prop where
  | ok {w w' : World} {a : α} {a' : α'} (twin : w.Twin ρ b w') (results : Q w.roll a a') : Alike ρ b Q (.ok a w) (.ok a' w')
  | error {w w' : World} {e : Stop} (twin : w.Twin ρ b w') : Alike ρ b Q (.error e w) (.error e w')

/-- The same result. -/
def Same : Roll → α → α → Prop := fun _ a a' => a' = a

structure Mirrors (env : Env) (ρ : Guise) (b : Roll) (Q : Roll → α → α' → Prop) (act : H α) (act' : H α') : Prop where
  after : env.Mirrored ρ → ∀ w w', w.Twin ρ b w' → Alike ρ b Q (act env w) (act' env w')

theorem Alike.weaken {Q : Roll → α → α' → Prop} {c : Roll} (k : b.Grows c) {r : EStateM.Result Stop World α}
    {r' : EStateM.Result Stop World α'} (h : Alike ρ c Q r r') : Alike ρ b Q r r' := by
  cases h with
  | ok twin results => exact .ok (twin.weaken k) results
  | error twin => exact .error (twin.weaken k)

namespace Mirrors

variable {env : Env} {Q : Roll → α → α' → Prop} {R : Roll → β → β' → Prop}

/-! ## Rules -/

theorem return_ {a : α} {a' : α'} (h : ∀ r, b.Grows r → Q r a a') : Mirrors env ρ b Q (pure a) (pure a') :=
  ⟨fun _ w _ twin => .ok twin (h w.roll twin.roll.grown)⟩

theorem pure (a : α) : Mirrors env ρ b Same (Pure.pure a : H α) (Pure.pure a) := return_ fun _ _ => rfl

theorem fail (f : Failure) : Mirrors env ρ b Q (H.fail f) (H.fail f) := ⟨fun _ _ _ twin => .error twin⟩

theorem fault (f : Lua.Fault) : Mirrors env ρ b Q (H.fault f) (H.fault f) := ⟨fun _ _ _ twin => .error twin⟩

theorem ofExcept (r : Except Failure α) : Mirrors env ρ b Same (H.ofExcept r) (H.ofExcept r) := by
  cases r with
  | ok a => exact pure a
  | error f => exact fail f

@[elab_as_elim] theorem outcome {act : H α} {act' : H α'}
    {motive : EStateM.Result Stop World α → EStateM.Result Stop World α' → Prop} (h : Mirrors env ρ b Q act act')
    (he : env.Mirrored ρ) {w w' : World} (twin : w.Twin ρ b w')
    (ok : ∀ a a' v v', v.Twin ρ b v' → Q v.roll a a' → motive (.ok a v) (.ok a' v'))
    (error : ∀ e v v', v.Twin ρ b v' → motive (.error e v) (.error e v')) : motive (act env w) (act' env w') := by
  have after := h.after he w w' twin
  generalize act env w = result at after
  generalize act' env w' = result' at after
  cases after with
  | ok twin results => exact ok _ _ _ _ twin results
  | error twin => exact error _ _ _ twin

/-- What follows may count on what the results are known to be when they are there. -/
theorem bindTo {act : H α} {act' : H α'} {next : α → H β} {next' : α' → H β'} (h : Mirrors env ρ b Q act act')
    (k : ∀ c, b.Grows c → ∀ a a', Q c a a' → Mirrors env ρ c R (next a) (next' a')) :
    Mirrors env ρ b R (act >>= next) (act' >>= next') := by
  constructor
  intro he w w' twin
  simp only [Bind.bind, ReaderT.bind, EStateM.bind]
  refine h.outcome he twin (fun a a' v v' twin results => ?_) fun e v v' twin => .error twin
  exact ((k v.roll twin.roll.grown a a' results).after he v v' twin.self).weaken twin.roll.grown

theorem bind {act act' : H α} {next : α → H β} {next' : α → H β'} (h : Mirrors env ρ b Same act act')
    (k : ∀ a, Mirrors env ρ b R (next a) (next' a)) : Mirrors env ρ b R (act >>= next) (act' >>= next') := by
  constructor
  intro he w w' twin
  simp only [Bind.bind, ReaderT.bind, EStateM.bind]
  refine h.outcome he twin (fun a a' v v' twin results => ?_) fun e v v' twin => .error twin
  cases results
  exact (k a).after he v v' twin

/-- What follows may be looked at with the worlds in which it happens. -/
theorem bindGet {next : World → H β} {next' : World → H β'}
    (k : ∀ w w', w.Twin ρ b w' → Mirrors env ρ b R (next w) (next' w')) :
    Mirrors env ρ b R (MonadState.get >>= next) (MonadState.get >>= next') :=
  ⟨fun he w w' twin => (k w w' twin).after he w w' twin⟩

/-- What happens may count on the worlds in which it happens being sound. -/
theorem now {act : H α} {act' : H α'} (k : ∀ c, b.Grows c → c.Sound → Mirrors env ρ c Q act act') :
    Mirrors env ρ b Q act act' :=
  ⟨fun he w w' twin => ((k w.roll twin.roll.grown twin.roll.sound).after he w w' twin.self).weaken twin.roll.grown⟩

/-- What follows may count on what is known of the worlds in which it happens. -/
theorem bindNow {next : World → H β} {next' : World → H β'}
    (k : ∀ w w', w.Twin ρ b w' → Mirrors env ρ w.roll R (next w) (next' w')) :
    Mirrors env ρ b R (MonadState.get >>= next) (MonadState.get >>= next') :=
  ⟨fun he w w' twin => ((k w w' twin).after he w w' twin.self).weaken twin.roll.grown⟩

/-- What is read of a world. -/
theorem readTo {f : World → α} {f' : World → α'} (h : ∀ w w', w.Twin ρ b w' → Q w.roll (f w) (f' w')) :
    Mirrors env ρ b Q (do return f (← MonadState.get)) (do return f' (← MonadState.get)) :=
  ⟨fun _ w w' twin => .ok twin (h w w' twin)⟩

theorem bindRead {next next' : Env → H β} {R : Roll → β → β → Prop} (k : Mirrors env ρ b R (next env) (next' env)) :
    Mirrors env ρ b R (MonadReader.read >>= next) (MonadReader.read >>= next') :=
  ⟨fun he w w' twin => k.after he w w' twin⟩

theorem discard {act act' : H α} (h : Mirrors env ρ b Same act act') :
    Mirrors env ρ b Same (discard act) (discard act') := by
  constructor
  intro he w w' twin
  simp only [Functor.discard, Functor.mapConst, EStateM.map, Function.comp_apply]
  exact h.outcome he twin (fun a a' v v' twin _ => .ok twin rfl) fun e v v' twin => .error twin

theorem ite {c : Prop} [Decidable c] {yes no : H α} {yes' no' : H α'} (h : Mirrors env ρ b Q yes yes')
    (k : Mirrors env ρ b Q no no') : Mirrors env ρ b Q (if c then yes else no) (if c then yes' else no') := by
  split
  · exact h
  · exact k

theorem forM {next next' : α → H PUnit} (h : ∀ a, Mirrors env ρ b Same (next a) (next' a)) (as : List α) :
    Mirrors env ρ b Same (as.forM next) (as.forM next') := by
  induction as with
  | nil => exact pure _
  | cons a rest ih => exact bind (h a) fun _ => ih

theorem modifyGet {f : World → α × World} {f' : World → α' × World}
    (h : ∀ w w', w.Twin ρ b w' → (f w).2.Twin ρ b (f' w').2 ∧ Q (f w).2.roll (f w).1 (f' w').1) :
    Mirrors env ρ b Q (MonadState.modifyGet f) (MonadState.modifyGet f') :=
  ⟨fun _ w w' twin => .ok (h w w' twin).1 (h w w' twin).2⟩

theorem change (f : World → World) (rest : ∀ w, (f w).rest = f w.rest) (roll : ∀ w, (f w).roll = w.roll) :
    Mirrors env ρ b Same (modify f : H Unit) (modify f) := modifyGet fun _ _ twin => ⟨twin.change f rest roll, rfl⟩

theorem modify {f f' : World → World} (h : ∀ w w', w.Twin ρ b w' → (f w).Twin ρ b (f' w')) :
    Mirrors env ρ b Same (modify f : H Unit) (modify f') := modifyGet fun w w' twin => ⟨h w w' twin, rfl⟩

theorem finally_ {act act' : H α} {after after' : H Unit} (h : Mirrors env ρ b Same act act')
    (k : Mirrors env ρ b Same after after') : Mirrors env ρ b Same (H.finally_ act after) (H.finally_ act' after') := by
  constructor
  intro he w w' twin
  unfold H.finally_
  refine h.outcome he twin (fun a a' v v' twin results => ?_) fun e v v' twin => ?_
  · dsimp only
    exact k.outcome he twin (fun _ _ _ _ twin _ => .ok twin results) fun _ _ _ twin => .error twin
  · cases e with
    | failure f =>
      dsimp only
      exact k.outcome he twin (fun _ _ _ _ twin _ => .error twin) fun _ _ _ twin => .error twin
    | signal s => exact .error twin

theorem catch_ {act act' : H α} {handler handler' : Failure → H α} (h : Mirrors env ρ b Same act act')
    (k : ∀ f, Mirrors env ρ b Same (handler f) (handler' f)) :
    Mirrors env ρ b Same (H.catch_ act handler) (H.catch_ act' handler') := by
  constructor
  intro he w w' twin
  unfold H.catch_
  refine h.outcome he twin (fun a a' v v' twin results => .ok twin results) fun e v v' twin => ?_
  cases e with
  | failure f => exact (k f).after he v v' twin
  | signal s => exact .error twin

theorem runtime (n : Nat) : Mirrors env ρ b Same (H.runtime n) (H.runtime n) := by
  refine bindGet fun w w' twin => ?_
  rw [twin.runtimes]
  exact pure _

theorem debug (parts : List Text) : Mirrors env ρ b Same (H.debug parts) (H.debug parts) :=
  change _ (fun _ => rfl) fun _ => rfl

/-- The twin of a reporter is told what the reporter is told. -/
theorem report (reporter : Nat) (code : Int) (message : Text) (cause : Option String) :
    Mirrors env ρ b Same (H.report reporter code message cause)
      (H.report (ρ.reporters.image reporter) code message cause) := by
  have raise (raised : Option Text) : Mirrors env ρ b Same (H.raise raised) (H.raise raised) := by
    cases raised with
    | some t => exact fail _
    | none => exact pure _
  constructor
  intro he w w' twin
  let r := (w.reporters.get reporter).handle ⟨code, message, cause⟩
  have told : (w'.reporters.get (ρ.reporters.image reporter)).handle ⟨code, message, cause⟩ = r := by
    rw [twin.reporter]
  let v : World := { w with reporters := w.reporters.put reporter r.handler, reports := w.reports ++ r.events }
  let v' : World :=
    { w' with reporters := w'.reporters.put (ρ.reporters.image reporter) r.handler, reports := w'.reports ++ r.events }
  have noted := twin.change (fun u => { u with reports := u.reports ++ r.events }) (fun _ => rfl) fun _ => rfl
  have after : v.Twin ρ b v' := noted.withReporters (twin.roll.reporters.put reporter r.handler) (Pool.size_le_size_put _ _ _)
  change Alike ρ b Same (H.raise r.raised env v) (H.raise _ env _)
  rw [told]
  exact (raise r.raised).after he v v' after

theorem onMachine {m : Nat} {act act' : M World α} (h : env.Mirrored ρ → Tied (lockstep ρ b) act act') :
    Mirrors env ρ b Same (H.onMachine m act) (H.onMachine m act') := by
  constructor
  intro he w w' twin
  unfold H.onMachine
  rw [twin.machines]
  cases w.machines.get m with
  | busy => exact .error twin
  | closed => exact .error twin
  | «open» vm =>
    have taken := (h he).holds vm _ _ (twin.putMachine m .busy)
    rw [twin.machines] at taken
    dsimp only
    generalize act _ = result at taken ⊢
    generalize act' _ = result' at taken ⊢
    cases taken with
    | ok twin => exact .ok (twin.putMachine m _) rfl
    | error twin => exact .error (twin.putMachine m _)

/-- An operation of the host, carried out from inside a machine. -/
theorem inMachine (he : env.Mirrored ρ) {m : Nat} {act act' : H α} (h : Mirrors env ρ b Same act act') (dropped : α) :
    Tied (lockstep ρ b) (H.inMachine env m act dropped) (H.inMachine env m act' dropped) := by
  refine ⟨fun vm w w' twin => ?_⟩
  have inside := twin.putMachine m (.open vm)
  unfold H.inMachine
  dsimp only
  refine h.outcome he inside (fun a a' v v' twin results => ?_) fun e v v' twin => ?_
  · cases results
    have busy := twin.putMachine m .busy
    dsimp only
    rw [twin.machines] at busy ⊢
    cases v.machines.get m with
    | «open» vm => exact .ok busy
    | busy => exact .error twin
    | closed => exact .error twin
  · have busy := twin.putMachine m .busy
    cases e with
    | failure f =>
      dsimp only
      rw [twin.machines] at busy ⊢
      cases v.machines.get m with
      | «open» vm => exact .ok busy
      | busy => exact .error twin
      | closed => exact .error twin
    | signal e =>
      dsimp only
      rw [twin.machines] at busy ⊢
      cases v.machines.get m with
      | «open» vm => exact .error busy
      | busy => exact .error twin
      | closed => exact .error twin

end Mirrors
end LuaHost.Host
