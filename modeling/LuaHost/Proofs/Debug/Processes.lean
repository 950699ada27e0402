import LuaHost.Config.Load
import LuaHost.Proofs.Debug.Sessions
import LuaHost.Proofs.Searches.Cache

set_option autoImplicit false

/-!
# Processes and their debug channels

A process makes configurations, loads runtimes, makes states and carries out the steps of a session; in
between, its debug channel is switched on, a variable is set, the stream is closed, and configurations are
told what to say of debugging. Requests of the latter kind, and what the former say of debugging, may be
others in another run: both answer alike and come to processes that differ in their debug channels only.
-/

namespace LuaHost

open Host (Value Failure)
open Binding (Debug Runtime Surroundings Search Cache)

variable {α β : Type}

theorem Binding.tryAll_cache (s : Surroundings) (d d' : Debug) (tried targets : List Text) (h h' : Search) (k : h'.cache = h.cache) :
    (tryAll s d' tried targets h').1 = (tryAll s d tried targets h).1 ∧
      (tryAll s d' tried targets h').2.cache = (tryAll s d tried targets h).2.cache := by
  induction targets generalizing h h' with
  | nil => exact ⟨rfl, k⟩
  | cons target rest ih =>
    simp only [tryAll, k]
    cases Surroundings.lookup target h.cache with
    | some r => exact ⟨rfl, k⟩
    | none =>
      dsimp only
      cases openCandidate s target with
      | error e => exact ⟨rfl, k⟩
      | ok opened =>
        obtain ⟨runtime, words⟩ := opened
        cases runtime with
        | some r => exact ⟨rfl, rfl⟩
        | none => exact ih _ _ rfl

namespace Config

/-! ## Configurations -/

/-- A mapping without its entries for debugging. -/
def withoutDebug : Value → Value
  | .dict es => .dict (es.filter fun e => Field.ofKey? (normalizeKey e.1) != some .debug)
  | v => v

theorem set_silent (c : Config) {f : Field} (hf : f ≠ .debug) (v : Value) : c.silent.set f v = (c.set f v).map silent := by
  cases f with
  | useBundled | openLibs | reportAllLoadErrors => rfl
  | library =>
    simp only [set]
    split
    · rfl
    · cases v.written with
      | ok t => rfl
      | error e => rfl
  | libraryNames | bundledModules =>
    unfold set
    cases textList v with
    | ok ts => rfl
    | error e => rfl
  | debug => exact absurd rfl hf

theorem setAll_withoutDebug (c : Config) (es : List (Value × Value)) :
    c.silent.setAll (es.filter fun e => Field.ofKey? (normalizeKey e.1) != some .debug) = (c.setAll es).map silent := by
  induction es generalizing c with
  | nil => rfl
  | cons e rest ih =>
    obtain ⟨key, v⟩ := e
    cases field : Field.ofKey? (normalizeKey key) with
    | none =>
      rw [List.filter_cons_of_pos (by simp [field])]
      simp only [setAll, field]
      rfl
    | some f =>
      by_cases hf : f = .debug
      · subst hf
        rw [List.filter_cons_of_neg (by simp [field])]
        simp only [setAll, field, set]
        exact ih { c with debug := isOn v }
      · rw [List.filter_cons_of_pos (by simp [field, hf])]
        simp only [setAll, field, set_silent c hf]
        cases c.set f v with
        | error e => rfl
        | ok d => exact ih d

theorem ofValue_withoutDebug (v : Value) : (ofValue (withoutDebug v)).map silent = (ofValue v).map silent := by
  cases v with
  | dict es =>
    have whole (es : List (Value × Value)) : ofValue (.dict es) = default.setAll es := by
      cases es with
      | nil => rfl
      | cons e rest => rfl
    rw [withoutDebug, whole, whole, ← setAll_withoutDebug, ← setAll_withoutDebug, List.filter_filter]
    simp only [Bool.and_self]
  | _ => rfl

theorem withVariables_silent (c : Config) {vars vars' : Variables} (h : vars'.library = vars.library) :
    (c.withVariables vars').silent = (c.withVariables vars).silent := by
  simp only [withVariables, silent, h]

theorem load_silent (files : Files) {vars vars' : Variables} (hf : vars'.file = vars.file) (hl : vars'.library = vars.library)
    (path : Option Text) : (load files vars' path).map silent = (load files vars path).map silent := by
  have made (v : Value) : (do return (← ofValue v).withVariables vars').map silent = (do return (← ofValue v).withVariables vars).map silent := by
    cases ofValue v with
    | error e => rfl
    | ok c => exact congrArg Except.ok (withVariables_silent c hl)
  unfold load
  dsimp only
  rw [hf]
  cases (filled path).or (filled vars.file) with
  | none => exact made (.dict [])
  | some p =>
    dsimp only
    cases readMapping files p with
    | error e => rfl
    | ok v => exact made v

theorem candidates_silent (s : Surroundings) {c c' : Config} (h : c'.silent = c.silent) : s.candidates c' = s.candidates c := by
  have same (d : Config) : s.candidates d.silent = s.candidates d := rfl
  rw [← same c', h, same]

end Config

namespace Host

open Session

variable {on : Prop} {w w' : World} {env : Env}

/-! ## Steps -/

/-- A command without what the configuration of a new state says of debugging. -/
def Command.silent : Command → Command
  | .new openLibs config attachment isShared =>
    .new openLibs (some (Config.withoutDebug (config.getD (.dict [])))) attachment isShared
  | c => c

def Step.silent (s : Step) : Step := { s with command := Command.silent s.command }

theorem configOf_silent (config : Option Value) :
    (configOf (some (Config.withoutDebug (config.getD (.dict []))))).map Config.silent = (configOf config).map Config.silent := by
  cases config with
  | none => rfl
  | some v => exact Config.ofValue_withoutDebug v

theorem Agree.silentCommand (name : Text) (c : Command) : Agree env on (run name c) (run name (Command.silent c)) := by
  cases c with
  | new openLibs config attachment isShared => exact newState name (configOf_silent config) openLibs attachment isShared
  | _ => exact command name _

theorem Agree.act (s : Step) : Agree env on s.act (Step.silent s).act :=
  bind (silentCommand s.state s.command) fun given => conclude s.keep given

/-- What a step shows without what went to the debug channel. -/
def StepAnswer.silent (a : StepAnswer) : StepAnswer := { a with written := Text.empty }

/-- What an operation on the state of a name shows, as a step of a session. -/
def answerTo (name : Text) (act : H Answer) (w : World) : StepAnswer × World :=
  match act Env.full (fresh w) with
  | .ok a w => showStep name (.ok a) w
  | .error (.failure f) w => showStep name (.error f) w
  | .error (.signal e) w => showStep name (.error (signalFailure e)) w

theorem step_answerTo (w : World) (s : Step) : step w s = answerTo s.state s.act w := step_eq w s

theorem World.Akin.showStep (h : w.Akin on w') (name : Text) (result : Except Failure Answer) :
    StepAnswer.silent (showStep name result w').1 = StepAnswer.silent (showStep name result w).1 ∧
      (showStep name result w).2.Akin on (showStep name result w').2 := by
  have names : Session.stateId? w' name = Session.stateId? w name := h.agree (Session.stateId? · name) fun _ => rfl
  have sized : Agree Env.full on (sizeOf? w name) (sizeOf? w' name) := by
    unfold sizeOf?
    rw [names]
    cases Session.stateId? w name with
    | none => exact .pure _
    | some id => exact .bindState id (fun s => .bind (.size s) fun _ => .pure _) fun _ => rfl
  have shown {v v' : World} (akin : v.Akin on v') (size : Option Int) :
      StepAnswer.silent ⟨result, recordedOf v'.reports, printedOf v'.reports, v'.calls, v'.written, size⟩ =
        StepAnswer.silent ⟨result, recordedOf v.reports, printedOf v.reports, v.calls, v.written, size⟩ := by
    have reports : v'.reports = v.reports := akin.agree World.reports fun _ => rfl
    have calls : v'.calls = v.calls := akin.agree World.calls fun _ => rfl
    simp only [StepAnswer.silent, reports, calls]
  unfold Host.showStep
  exact sized.outcome Env.full_deaf h (fun n v v' akin => ⟨shown akin n, akin⟩) fun e v v' akin => ⟨shown akin none, akin⟩

theorem World.Akin.answerTo (h : w.Akin on w') (name : Text) {act act' : H Answer} (k : Agree Env.full on act act') :
    StepAnswer.silent (answerTo name act' w').1 = StepAnswer.silent (answerTo name act w).1 ∧
      (answerTo name act w).2.Akin on (answerTo name act' w').2 := by
  have begun : (fresh w).Akin on (fresh w') := ⟨congrArg fresh h.same, h.kept⟩
  unfold Host.answerTo
  refine k.outcome Env.full_deaf begun (fun a v v' akin => akin.showStep name _) fun e v v' akin => ?_
  cases e with
  | failure f => exact akin.showStep name _
  | signal e => exact akin.showStep name _

/-! ## Processes -/

/-- A process that uses the host. -/
structure Process where
  world : World
  surroundings : Surroundings
  /-- the variables of its environment that name a configuration file and a library -/
  file : Option Text
  library : Option Text
  /-- the runtimes that it has opened -/
  cache : Cache
  /-- the configurations and the runtimes that it has names for -/
  configs : List (Text × Config)
  runtimes : List (Text × Nat)

/-- What has to do with the debug channel alone. -/
inductive Setting where
  /-- the channel is switched on if a configuration says so, or if none is given -/
  | enable (config : Option Text)
  | variable_ (t : Option Text)
  /-- what a configuration says of debugging -/
  | mark (config : Text) (debug : Bool)
  | stream (isClosed : Bool)

inductive Request where
  | step (s : Step)
  /-- a configuration out of a mapping -/
  | configure (name : Text) (v : Value)
  /-- a configuration out of a file -/
  | read (name : Text) (path : Option Text)
  /-- the runtime that a configuration asks for, or the one that is read if none is given -/
  | load (name : Text) (config : Option Text)
  | create (state : Text) (origin : State.Origin) (config runtime : Text)
  | setting (s : Setting)

inductive Outcome where
  | step (a : StepAnswer)
  | config (r : Except Failure Config)
  | runtime (r : Except Failure Runtime) (written : Text)

namespace Process

/-- What is kept under a name. -/
def named {α : Type} (name : Text) (xs : List (Text × α)) : Except Failure α :=
  match Surroundings.lookup name xs with
  | some a => .ok a
  | none => .error (.raised "KeyError" (Quoted.text name))

def vars (p : Process) : Config.Variables := ⟨p.file, p.library, p.world.debug.variable_⟩

def set (p : Process) : Setting → Process
  | .enable none => { p with world := { p.world with debug := p.world.debug.enable none } }
  | .enable (some name) =>
    match named name p.configs with
    | .ok c => { p with world := { p.world with debug := p.world.debug.enable (some c) } }
    | .error _ => p
  | .variable_ t => { p with world := { p.world with debug := { p.world.debug with variable_ := t } } }
  | .mark name debug =>
    { p with configs := p.configs.map fun (n, c) => (n, if n == name then { c with debug } else c) }
  | .stream isClosed => { p with world := { p.world with debug := { p.world.debug with isClosed } } }

def keep (p : Process) (name : Text) (r : Except Failure Config) : Process :=
  match r with
  | .ok c => { p with configs := rebind name c p.configs }
  | .error _ => p

def read (p : Process) (path : Option Text) : Except Failure Config := Config.load p.world.files p.vars path

/-- A runtime that was found gets a name. -/
def settle (p : Process) (name written : Text) : Except Failure Runtime → Outcome × Process
  | .ok r =>
    (.runtime (.ok r) written,
      { p with
        world := { p.world with runtimes := p.world.runtimes.add r }
        runtimes := rebind name p.world.runtimes.size p.runtimes })
  | .error e => (.runtime (.error e) written, p)

def load (p : Process) (name : Text) (c : Config) : Outcome × Process :=
  let (r, search, debug) := Binding.load p.surroundings p.world.debug c p.cache
  settle { p with world := { p.world with debug }, cache := search.cache } name search.written r

/-- A state out of a configuration and a runtime. -/
def create (p : Process) (state : Text) (origin : State.Origin) (config runtime : Text) : H Answer := do
  let c ← H.ofExcept (named config p.configs)
  let r ← H.ofExcept (named runtime p.runtimes)
  let id ← State.create origin c r
  Session.bindState state id
  Session.setHandler (← State.get id) (.record state 0 none none)
  return .none

def perform (p : Process) : Request → Option Outcome × Process
  | .step s =>
    let (a, w) := Session.step p.world s
    (some (.step a), { p with world := w })
  | .configure name v => (some (.config (Config.ofValue v)), p.keep name (Config.ofValue v))
  | .read name path => (some (.config (p.read path)), p.keep name (p.read path))
  | .load name config =>
    match (match config with | some c => named c p.configs | none => p.read none) with
    | .ok c =>
      let (o, p) := p.load name c
      (some o, p)
    | .error e => (some (.runtime (.error e) Text.empty), p)
  | .create state origin config runtime =>
    let (a, w) := answerTo state (p.create state origin config runtime) p.world
    (some (.step a), { p with world := w })
  | .setting s => (none, p.set s)

/-- What a process answers to requests one after another, and what it is then. -/
def run (p : Process) : List Request → List Outcome × Process
  | [] => ([], p)
  | r :: rest =>
    let (o, p) := p.perform r
    let (os, p) := run p rest
    (o.toList ++ os, p)

/-! ## Two runs -/

def silentAll (cs : List (Text × Config)) : List (Text × Config) := cs.map fun e => (e.1, e.2.silent)

def silent (p : Process) : Process := { p with world := p.world.silent, configs := silentAll p.configs }

/-- The same process but for its debug channel, which is on if `on` says so. -/
structure Akin (on : Prop) (p p' : Process) : Prop where
  same : p'.silent = p.silent
  kept : on → p.world.debug.isOn = true

end Process

def Outcome.silent : Outcome → Outcome
  | .step a => .step (StepAnswer.silent a)
  | .config r => .config (r.map Config.silent)
  | .runtime r _ => .runtime r Text.empty

/-- A request without what it says of debugging, unless it is about nothing else. -/
def Request.silent : Request → Option Request
  | .step s => some (.step (Step.silent s))
  | .configure name v => some (.configure name (Config.withoutDebug v))
  | .setting _ => none
  | r => some r

namespace Process

variable {p p' : Process}

namespace Akin

theorem world (h : p.Akin on p') : p.world.Akin on p'.world := ⟨congrArg Process.world h.same, h.kept⟩

theorem agree (h : p.Akin on p') (f : Process → α) (hf : ∀ p, f p.silent = f p) : f p' = f p := by
  rw [← hf p', h.same, hf]

theorem configs (h : p.Akin on p') : silentAll p'.configs = silentAll p.configs := congrArg Process.configs h.same

theorem withWorld (h : p.Akin on p') {w w' : World} (k : w.Akin on w') :
    Akin on { p with world := w } { p' with world := w' } where
  same := by
    have rest := congrArg (fun q : Process => { q with world := w.silent }) h.same
    unfold silent at rest ⊢
    rw [k.same]
    exact rest
  kept := k.kept

theorem withConfigs (h : p.Akin on p') {cs cs' : List (Text × Config)} (k : silentAll cs' = silentAll cs) :
    Akin on { p with configs := cs } { p' with configs := cs' } where
  same := by
    have rest := congrArg (fun q : Process => { q with configs := silentAll cs }) h.same
    unfold silent at rest ⊢
    rw [k]
    exact rest
  kept := h.kept

theorem keep (h : p.Akin on p') (name : Text) {r r' : Except Failure Config} (k : r'.map Config.silent = r.map Config.silent) :
    (p.keep name r).Akin on (p'.keep name r') := by
  cases r with
  | error e =>
    cases r' with
    | ok c => cases k
    | error e' => exact h
  | ok c =>
    cases r' with
    | error e => cases k
    | ok c' =>
      have quiet : c'.silent = c.silent := Except.ok.inj k
      refine h.withConfigs ?_
      have bound (c : Config) (cs : List (Text × Config)) : silentAll (rebind name c cs) = rebind name c.silent (silentAll cs) :=
        (rebind_map Config.silent name c cs).symm
      rw [bound, bound, h.configs, quiet]

/-- What is kept under a name in both processes says the same but for debugging. -/
theorem named (h : p.Akin on p') (name : Text) :
    (Process.named name p'.configs).map Config.silent = (Process.named name p.configs).map Config.silent := by
  have found (cs : List (Text × Config)) : (Process.named name cs).map Config.silent = Process.named name (silentAll cs) := by
    unfold Process.named silentAll
    rw [lookup_map Config.silent]
    cases Surroundings.lookup name cs with
    | none => rfl
    | some c => rfl
  rw [found, found, h.configs]

theorem set (h : p.Akin on p') (s : Setting) : (p.set s).Akin on p' := by
  have switch (c : Option Config) : Akin on { p with world := { p.world with debug := p.world.debug.enable c } } p' :=
    ⟨h.same, fun o => Debug.enable_isOn c (h.kept o)⟩
  cases s with
  | enable config =>
    cases config with
    | none => exact switch none
    | some name =>
      unfold Process.set
      dsimp only
      split
      · exact switch _
      · exact h
  | variable_ t => exact ⟨h.same, h.kept⟩
  | stream isClosed => exact ⟨h.same, h.kept⟩
  | mark name debug =>
    have same (cs : List (Text × Config)) :
        silentAll (cs.map fun e => (e.1, if e.1 == name then { e.2 with debug } else e.2)) = silentAll cs := by
      unfold silentAll
      rw [List.map_map]
      refine List.map_congr_left fun e _ => ?_
      dsimp only [Function.comp_apply]
      split
      · rfl
      · rfl
    have marked : silentAll p'.configs = silentAll (p.configs.map fun e => (e.1, if e.1 == name then { e.2 with debug } else e.2)) :=
      h.configs.trans (same _).symm
    exact h.withConfigs marked

theorem settle (h : p.Akin on p') (name written written' : Text) (r : Except Failure Runtime) :
    (p'.settle name written' r).1.silent = (p.settle name written r).1.silent ∧
      (p.settle name written r).2.Akin on (p'.settle name written' r).2 := by
  cases r with
  | error e => exact ⟨rfl, h⟩
  | ok r =>
    have size : p'.world.runtimes.size = p.world.runtimes.size := h.agree (fun q => q.world.runtimes.size) fun _ => rfl
    refine ⟨rfl, ?_, h.kept⟩
    have rest := congrArg (fun q : Process => { q with
      world := { q.world with runtimes := q.world.runtimes.add r }
      runtimes := rebind name p.world.runtimes.size q.runtimes }) h.same
    unfold Process.settle
    dsimp only
    rw [size]
    exact rest

theorem load (h : p.Akin on p') (name : Text) {c c' : Config} (k : c'.silent = c.silent) :
    (p'.load name c').1.silent = (p.load name c).1.silent ∧ (p.load name c).2.Akin on (p'.load name c').2 := by
  have surroundings : p'.surroundings = p.surroundings := h.agree Process.surroundings fun _ => rfl
  have cache : p'.cache = p.cache := h.agree Process.cache fun _ => rfl
  obtain ⟨answer, memory⟩ := Binding.tryAll_cache p.surroundings (p.world.debug.enable (some c)) (p'.world.debug.enable (some c'))
    (p.surroundings.candidates c) (p.surroundings.candidates c) ⟨p.cache, .empty⟩ ⟨p'.cache, .empty⟩ cache
  unfold Process.load Binding.load
  dsimp only
  rw [surroundings, Config.candidates_silent p.surroundings k, answer, memory]
  generalize Binding.tryAll p.surroundings _ _ _ _ = out
  refine settle ⟨?_, fun o => Debug.enable_isOn _ (h.kept o)⟩ name _ _ _
  exact congrArg (fun q : Process => { q with surroundings := p.surroundings, cache := out.2.cache }) h.same

theorem create (h : p.Akin on p') (state : Text) (origin : State.Origin) (config runtime : Text) :
    Agree Env.full on (p.create state origin config runtime) (p'.create state origin config runtime) := by
  have runtimes : p'.runtimes = p.runtimes := h.agree Process.runtimes fun _ => rfl
  unfold Process.create
  rw [runtimes]
  refine .bindConfig (h.named config) fun c c' quiet => .bind (.ofExcept _) fun r => ?_
  exact .named state origin quiet r _

theorem read (h : p.Akin on p') (path : Option Text) : (p'.read path).map Config.silent = (p.read path).map Config.silent := by
  have files : p'.world.files = p.world.files := h.agree (fun q => q.world.files) fun _ => rfl
  unfold Process.read
  rw [files]
  exact Config.load_silent _ (h.agree Process.file fun _ => rfl) (h.agree Process.library fun _ => rfl) path

end Akin

/-- A request and the same without what it says of debugging are answered alike, but for the debug channel. -/
theorem Akin.perform (h : p.Akin on p') {r r' : Request} (hr : r.silent = some r') :
    (p'.perform r').1.map Outcome.silent = (p.perform r).1.map Outcome.silent ∧ (p.perform r).2.Akin on (p'.perform r').2 := by
  cases r with
  | setting s => cases hr
  | step s =>
    cases hr
    obtain ⟨shown, akin⟩ := h.world.answerTo s.state (Agree.act s)
    unfold Process.perform
    dsimp only
    rw [step_answerTo, step_answerTo]
    exact ⟨congrArg (fun a => some (Outcome.step a)) shown, h.withWorld akin⟩
  | configure name v =>
    cases hr
    have quiet := Config.ofValue_withoutDebug v
    exact ⟨congrArg (fun r => some (Outcome.config r)) quiet, h.keep name quiet⟩
  | read name path =>
    cases hr
    have quiet := h.read path
    exact ⟨congrArg (fun r => some (Outcome.config r)) quiet, h.keep name quiet⟩
  | load name config =>
    cases hr
    have asked : (match config with | some c => Process.named c p'.configs | none => p'.read none).map Config.silent =
        (match config with | some c => Process.named c p.configs | none => p.read none).map Config.silent := by
      cases config with
      | none => exact h.read none
      | some c => exact h.named c
    unfold Process.perform
    dsimp only
    revert asked
    generalize (match config with | some c => Process.named c p.configs | none => p.read none) = r
    generalize (match config with | some c => Process.named c p'.configs | none => p'.read none) = r'
    intro quiet
    cases r with
    | error e =>
      cases r' with
      | ok c => cases quiet
      | error e' =>
        cases quiet
        exact ⟨rfl, h⟩
    | ok c =>
      cases r' with
      | error e => cases quiet
      | ok c' =>
        obtain ⟨answer, akin⟩ := h.load name (Except.ok.inj quiet)
        exact ⟨congrArg some answer, akin⟩
  | create state origin config runtime =>
    cases hr
    obtain ⟨shown, akin⟩ := h.world.answerTo state (h.create state origin config runtime)
    exact ⟨congrArg (fun a => some (Outcome.step a)) shown, h.withWorld akin⟩

/-- A run, and the run of what its requests say of other things than debugging. -/
theorem Akin.run (h : p.Akin on p') (rs : List Request) :
    (p'.run (rs.filterMap Request.silent)).1.map Outcome.silent = (p.run rs).1.map Outcome.silent ∧
      (p.run rs).2.Akin on (p'.run (rs.filterMap Request.silent)).2 := by
  induction rs generalizing p p' with
  | nil => exact ⟨rfl, h⟩
  | cons r rest ih =>
    cases hr : r.silent with
    | none =>
      cases r with
      | setting s =>
        rw [List.filterMap_cons_none hr]
        exact ih (h.set s)
      | _ => cases hr
    | some r' =>
      obtain ⟨answer, akin⟩ := h.perform hr
      obtain ⟨answers, later⟩ := ih akin
      rw [List.filterMap_cons_some hr]
      simp only [Process.run, List.map_append, answers, ← Option.toList_map, answer, true_and]
      exact later

/-- Two processes that differ in their debug channels, and in what their configurations say of debugging, answer
requests that differ in nothing else alike, and come to processes that differ in nothing else. A channel that
is on stays on. -/
theorem debug_apart (p p' : Process) (h : p'.silent = p.silent) (rs rs' : List Request)
    (hr : rs'.filterMap Request.silent = rs.filterMap Request.silent) :
    (p'.run rs').1.map Outcome.silent = (p.run rs).1.map Outcome.silent ∧
      (p'.run rs').2.silent = (p.run rs).2.silent ∧
      (p.world.debug.isOn = true → (p.run rs).2.world.debug.isOn = true) := by
  have first : Akin (p.world.debug.isOn = true) p p := ⟨rfl, id⟩
  have second : Akin False p' p := ⟨h.symm, False.elim⟩
  obtain ⟨answers, akin⟩ := first.run rs
  obtain ⟨answers', akin'⟩ := second.run rs'
  rw [hr] at answers' akin'
  exact ⟨answers'.symm.trans answers, akin'.same.symm.trans akin.same, akin.kept⟩

/-- A process in which nothing has happened. -/
def idle : Process := ⟨start .v54, Binding.shelves, none, none, [], [], []⟩

/-- The same process, told to debug to a stream that is closed. -/
def loud : Process := { idle with world := { idle.world with debug := ⟨true, some "1", true⟩ } }

/-- A state of its own, a script and the end of the state. -/
def visit (config : Value) : List Request :=
  [.configure "c" config, .load "l" (some "c"), .create "s" (.create none) "c" "l",
    .step ⟨"s", none, .execute (.text "x = 1")⟩, .step ⟨"s", none, .close⟩]

theorem debug_apart_loud :
    loud.silent = idle.silent ∧
      (loud.run (.setting (.enable none) :: visit (.dict [(.text "debug", .bool true)]))).1.map Outcome.silent =
        (idle.run (visit (.dict []) ++ [.setting (.mark "c" true)])).1.map Outcome.silent ∧
      (loud.run (.setting (.enable none) :: visit (.dict [(.text "debug", .bool true)]))).2.silent =
        (idle.run (visit (.dict []) ++ [.setting (.mark "c" true)])).2.silent := by
  have known : Config.Field.ofKey? (Config.normalizeKey (.text "debug")) = some .debug := by decide
  have apart := debug_apart idle loud rfl (visit (.dict []) ++ [.setting (.mark "c" true)])
    (.setting (.enable none) :: visit (.dict [(.text "debug", .bool true)]))
    (by simp [visit, List.filterMap_cons, Request.silent, Config.withoutDebug, known])
  exact ⟨rfl, apart.1, apart.2.1⟩

end Process
end Host
end LuaHost
