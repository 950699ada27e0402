import LuaHost.Proofs.Debug.Operations
import LuaHost.Proofs.Lives.Handing
import LuaHost.Proofs.Twins.Steps

set_option autoImplicit false

/-!
# Sessions in akin worlds

States are made, closed and handed over alike in akin worlds, whatever their configurations say of
debugging. So every command of a session gives the same, and a step shows the same but for what went to the
debug channel.
-/

namespace LuaHost.Host

open Session

variable {on : Prop} {w w' : World} {α β : Type} {env : Env}

namespace Agree

/-! ## States that are made and handed over -/

section States

variable {s s' : State}

theorem addState (h : s'.silent = s.silent) :
    Agree env on (MonadState.modifyGet fun w : World => (w.states.size, { w with states := w.states.add s }) : H Nat)
      (MonadState.modifyGet fun w : World => (w.states.size, { w with states := w.states.add s' })) := by
  refine modifyGet fun w w' akin => ⟨?_, akin.withStates ?_⟩
  · simpa [Pool.size_map] using congrArg Pool.size akin.states
  · rw [Pool.map_add, Pool.map_add, akin.states, h]

theorem putState (id : Nat) (h : s'.silent = s.silent) : Agree env on (State.put id s) (State.put id s') := by
  refine modify fun w w' akin => akin.withStates ?_
  rw [Pool.map_put _ State.silent_default, Pool.map_put _ State.silent_default, akin.states, h]

theorem modifyState (id : Nat) (f : State → State) (hf : ∀ s, (f s).silent = f s.silent) : Indifferent env on
    (MonadState.modifyGet fun w : World => ((), { w with states := w.states.modify id f }) : H Unit) := by
  refine modifyGet fun w w' akin => ⟨rfl, akin.withStates ?_⟩
  rw [Pool.map_modify _ State.silent_default _ _ hf, Pool.map_modify _ State.silent_default _ _ hf, akin.states]

end States

theorem createReporter : Indifferent env on State.createReporter := change _ _ (fun _ => rfl) (fun _ => rfl) fun _ => rfl

theorem releaseMachine (m : Nat) : Indifferent env on (State.releaseMachine m) := change _ _ (fun _ => rfl) (fun _ => rfl) fun _ => rfl

/-- Making a state with either of two configurations that differ in what they say of debugging. -/
theorem create (origin : State.Origin) {c c' : Config} (h : c'.silent = c.silent) (runtime : Nat) :
    Agree env on (State.create origin c runtime) (State.create origin c' runtime) := by
  have joins (reporter : Nat) (machine : Option Nat) : Agree env on (joinState origin c runtime reporter machine)
      (joinState origin c' runtime reporter machine) := by
    refine bind (createRegistry _ _ _) fun registry => bind (addState ?_) fun id => bind (debug _ _) fun _ => pure _
    simp only [State.silent, h]
  refine bind (enable _ _) fun _ => bind (Agree.runtime _) fun rt => bind createReporter fun reporter => ?_
  cases origin with
  | attach machine => exact joins reporter machine
  | create openLibs =>
    have libs : c'.openLibs = c.openLibs := by
      have same : c'.silent.openLibs = c.silent.openLibs := by rw [h]
      exact same
    have rest (v : Value) : Agree env on (joinFresh rt (openLibs.getD c.openLibs) (joinState (.create openLibs) c runtime reporter) v)
        (joinFresh rt (openLibs.getD c'.openLibs) (joinState (.create openLibs) c' runtime reporter) v) := by
      rw [libs]
      cases v with
      | int m => exact ite (bind (runProgram _ _ _) fun _ => joins _ _) (joins _ _)
      | _ => exact fail _
    exact bind (runProgram rt none (Binding.Api.newState rt)) rest

theorem close (id : Nat) : Indifferent env on (State.close id) := by
  refine bindState id (fun s => ?_) fun _ => rfl
  obtain ⟨machine, isOwner, config, runtime, reporter, registry⟩ := s
  cases machine with
  | none => exact pure _
  | some m =>
    refine ite (bind (debug _ _) fun _ => bind (collect _) fun _ => bind (closeRegistry _) fun _ => ?_)
      (bind (closeRegistry _) fun _ => modifyState id _ fun _ => rfl)
    exact bind (runWith _ _ _) fun _ => bind (releaseMachine m) fun _ => modifyState id _ fun _ => rfl

theorem takeFrom (id other : Nat) : Indifferent env on (State.takeFrom id other) := by
  refine bindStates other fun o c quiet => ?_
  refine bind (modifyState id (fun s => { s with machine := o.machine, isOwner := o.isOwner }) fun _ => rfl) fun _ => ?_
  refine bind createReporter fun reporter => bind (createRegistry _ _ _) fun registry => putState other ?_
  simp only [State.silent, quiet]

theorem move (id : Nat) : Indifferent env on (State.move id) := by
  refine bindStates id fun s c quiet => bind (addState ?_) fun new => bind (takeFrom new id) fun _ => pure _
  simp only [State.silent, quiet]

theorem take (id other : Nat) : Indifferent env on (State.take id other) := by
  refine ite (pure _) (bind (close id) fun _ => bindStates id fun s c _ => bindStates other fun o d quiet => ?_)
  refine bind (putState id ?_) fun _ => takeFrom id other
  simp only [State.silent, quiet]

/-! ## What names stand for -/

theorem bindStateOf (name : Text) {next : State → H β} (k : ∀ s, Indifferent env on (next s))
    (h : ∀ s, next s.silent = next s) : Indifferent env on (stateOf name >>= next) := by
  unfold stateOf
  rw [bind_assoc]
  exact bind (stateNamed name) fun id => bindState id k h

theorem selectorOf (s : State) (way : Way) : Indifferent env on (selectorOf s way) := by
  cases way with
  | path keys => exact pure _
  | kept name keys =>
    refine bindGet (fun w => ?_) fun _ => rfl
    split
    · exact pure _
    · exact fail _

theorem selectorOf_silent (s : State) (way : Way) : Session.selectorOf s.silent way = Session.selectorOf s way := by
  cases way with
  | path keys => rfl
  | kept name keys => rfl

theorem bindSelector (name : Text) (way : Way) {next : Selector → H β} (k : ∀ sel, Indifferent env on (next sel)) :
    Indifferent env on (stateOf name >>= fun s => Session.selectorOf s way >>= next) := by
  refine bindStateOf name (fun s => bind (selectorOf s way) k) fun s => ?_
  rw [selectorOf_silent]

theorem machineOf (name : Text) : Indifferent env on (machineOf name) := bindStateOf name (fun _ => pure _) fun _ => rfl

theorem setHandler (s : State) (h : Handler) : Indifferent env on (setHandler s h) := change _ _ (fun _ => rfl) (fun _ => rfl) fun _ => rfl

theorem setInput (m : Nat) (input : ByteArray) : Indifferent env on (setInput m input) :=
  onMachine fun _ => .modifyAny _ fun _ => .of_eq rfl rfl rfl rfl rfl

theorem referenceNamed (name : Text) : Indifferent env on (referenceNamed name) := by
  refine bindGet (fun w => ?_) fun _ => rfl
  split
  · exact pure _
  · exact fail _

/-! ## Names that are bound and dropped -/

theorem forget (id : Nat) : Indifferent env on (forget id) := by
  refine bindGet (fun w => ite (pure _) ?_) fun _ => rfl
  exact catch_ (close id) fun _ => pure _

theorem bindName (name : Text) (id : Nat) : Indifferent env on (Session.bindState name id) := by
  refine bindGet (fun w => bind (change _ _ (fun _ => rfl) (fun _ => rfl) fun _ => rfl) fun _ => ?_) fun _ => rfl
  split
  · exact ite (forget _) (pure _)
  · exact pure _

theorem dropStored (old : Option Stored) : Indifferent env on
    (match old with
    | some o => Host.dropAll o.references.reverse
    | none => Pure.pure () : H Unit) := by
  cases old with
  | none => exact pure _
  | some o => exact dropAll _

theorem store (name : Text) (s : Stored) : Indifferent env on (store name s) :=
  bindGet (fun w => bind (change _ _ (fun _ => rfl) (fun _ => rfl) fun _ => rfl) fun _ => dropStored _) fun _ => rfl

/-! ## What is shown -/

theorem describeHandle (s : State) : Indifferent env on (describeHandle s) := by
  have held (w : World) (id : Nat) : machineHeld w.silent id = machineHeld w id := by
    have same : w.silent.states.get id = (w.states.get id).silent := Pool.get_map_default _ State.silent_default w.states id
    simp only [machineHeld, same]
    rfl
  have holders (w : World) : Session.holders w.silent = Session.holders w := by
    funext m
    simp only [Session.holders, held]
    rfl
  refine bindGet (fun w => pure _) fun w => ?_
  simp only [holders]
  rfl

theorem describeReference (id : Nat) : Indifferent env on (describeReference id) :=
  bind (referenceGet id) fun _ => bindGet (fun _ => bind (isValid id) fun _ => pure _) fun _ => rfl

/-! ## Calls on a stack -/

theorem apiResults (s : State) (calls : List RoutineCall) : Indifferent env on (apiResults s calls) := by
  induction calls with
  | nil => exact pure _
  | cons c rest ih =>
    have onward (v : Value) : Indifferent env on (do return v :: (← Session.apiResults s rest)) := bind ih fun vs => pure _
    cases c with
    | plain name m => exact bind (runWith _ _ _) onward
    | pushFunction state routine =>
      refine bindStateOf state (fun t => bind (wrap _ routine) fun f => bind (runWith _ _ _) fun _ => ?_) fun _ => rfl
      exact bind (pure _) onward

theorem apiResults_silent (s : State) (calls : List RoutineCall) : Session.apiResults s.silent calls = Session.apiResults s calls := by
  induction calls with
  | nil => rfl
  | cons c rest ih =>
    unfold Session.apiResults
    rw [ih]
    rfl

theorem apiRecorded (s : State) (calls : List RoutineCall) : Indifferent env on (apiRecorded s calls) := by
  induction calls with
  | nil => exact pure _
  | cons c rest ih =>
    unfold Session.apiRecorded
    cases s.handle with
    | some l => exact bind (routineCall _ l c) fun _ => ih
    | none => exact bind (fault _) fun _ => ih

theorem apiRecorded_silent (s : State) (calls : List RoutineCall) :
    Session.apiRecorded s.silent calls = Session.apiRecorded s calls := by
  induction calls with
  | nil => rfl
  | cons c rest ih =>
    unfold Session.apiRecorded
    rw [ih]
    rfl

theorem namesFrom_silent (s : State) (fuel : Nat) : s.silent.namesFrom fuel = s.namesFrom fuel := by
  induction fuel with
  | zero => rfl
  | succ fuel ih =>
    unfold State.namesFrom
    rw [ih]
    rfl

/-- Ends in an error if one is asked for. -/
theorem raised {a : α} (raises : Option (String × Text)) : Indifferent env on
    (match raises with
    | some (kind, message) => raiseFailure kind message
    | none => Pure.pure a : H α) := by
  cases raises with
  | some raised => exact fail _
  | none => exact pure _

/-! ## Commands -/

theorem bindConfig {r r' : Except Failure Config} (h : r'.map Config.silent = r.map Config.silent) {next next' : Config → H β}
    (k : ∀ c c', c'.silent = c.silent → Agree env on (next c) (next' c')) :
    Agree env on (H.ofExcept r >>= next) (H.ofExcept r' >>= next') := by
  cases r with
  | error e =>
    cases r' with
    | ok c => cases h
    | error e' =>
      cases h
      exact fail e
  | ok c =>
    cases r' with
    | error e => cases h
    | ok c' => exact k c c' (Except.ok.inj h)

/-- A state is made and named; until someone else does, its session listens to it. -/
theorem named (name : Text) (origin : State.Origin) {c c' : Config} (h : c'.silent = c.silent) (runtime : Nat) (a : α) :
    Agree env on (do
      let id ← State.create origin c runtime
      Session.bindState name id
      Session.setHandler (← State.get id) (.record name 0 none none)
      return a) (do
      let id ← State.create origin c' runtime
      Session.bindState name id
      Session.setHandler (← State.get id) (.record name 0 none none)
      return a) := by
  refine bind (create origin h _) fun id => bind (bindName name id) fun _ => ?_
  exact bindState id (fun s => bind (setHandler s _) fun _ => pure _) fun _ => rfl

theorem newState (name : Text) {config config' : Option Value} (h : (configOf config').map Config.silent = (configOf config).map Config.silent)
    (openLibs : Option Bool) (attachment : Attachment) (isShared : Bool) :
    Agree env on (run name (.new openLibs config attachment isShared)) (run name (.new openLibs config' attachment isShared)) := by
  refine bindConfig h fun c c' quiet => ?_
  cases attachment with
  | create => exact bind (pure _) fun origin => named name origin quiet _ nothing
  | borrow source =>
    cases source with
    | none => exact bind (pure _) fun origin => named name origin quiet _ nothing
    | some n => exact bind (machineOf n) fun m => bind (pure _) fun origin => named name origin quiet _ nothing

theorem command (name : Text) (c : Command) : Indifferent env on (run name c) := by
  cases c with
  | new openLibs config attachment isShared => exact newState name rfl openLibs attachment isShared
  | execute source => exact bindStateOf _ (fun s => bind (stateExecute s _) fun _ => pure _) fun _ => rfl
  | write file content => exact bind (ofExcept _) fun path => bind (change _ _ (fun _ => rfl) (fun _ => rfl) fun _ => rfl) fun _ => pure _
  | makeDirectory file => exact bind (ofExcept _) fun path => bind (change _ _ (fun _ => rfl) (fun _ => rfl) fun _ => rfl) fun _ => pure _
  | loadFile file form =>
    exact bind (ofExcept _) fun path => bindStateOf _ (fun s => bind (loadFile s _ _) fun _ => pure _) fun _ => rfl
  | get way => exact bindSelector _ way fun sel => bind (selectorGet sel) fun _ => pure _
  | «exists» way => exact bindSelector _ way fun sel => bind (exists_ sel) fun _ => pure _
  | ref way => exact bindSelector _ way fun sel => bind (ref sel) fun _ => pure _
  | call way args => exact bindSelector _ way fun sel => bind (selectorCall sel args) fun _ => pure _
  | set way v byItem => exact bindSelector _ way fun sel => bind (selectorSet sel v) fun _ => pure _
  | select way as_ =>
    exact bindSelector _ way fun sel => bind (store _ _) fun _ => bindGet (fun _ => pure _) fun _ => rfl
  | showSelector way => exact bindSelector _ way fun sel => bindGet (fun _ => pure _) fun _ => rfl
  | globalNames =>
    refine bindStateOf _ (fun s => bind (globalNames s) fun _ => pure _) fun s => ?_
    unfold State.globalNames
    simp only [namesFrom_silent]
    rfl
  | size => exact bindStateOf _ (fun s => bind (size s) fun _ => pure _) fun _ => rfl
  | collect => exact bindStateOf _ (fun s => bind (collect s) fun _ => pure _) fun _ => rfl
  | «show» => exact bindStateOf _ (fun s => pure _) fun _ => rfl
  | interact input =>
    refine bindStateOf _ (fun s => ?_) fun _ => rfl
    have prompt : Indifferent env on (s.interact >>= fun _ => Pure.pure nothing : H Given) := bind (interact s) fun _ => pure _
    cases s.machine with
    | none => exact prompt
    | some m => exact bind (setInput m input) fun _ => prompt
  | handle => exact bindStateOf _ (fun s => bind (describeHandle s) fun _ => pure _) fun _ => rfl
  | handler kind => exact bindStateOf _ (fun s => bind (setHandler s _) fun _ => pure _) fun _ => rfl
  | report code message =>
    exact bindStateOf _ (fun s => bind (registryGet _) fun r => bind (report _ _ _ _) fun _ => pure _) fun _ => rfl
  | openLib lib loader isDirect =>
    refine bindStateOf _ (fun s => ?_) fun _ => rfl
    have opened (loader : State.Loader) : Indifferent env on (s.openLib lib loader >>= fun _ => Pure.pure nothing : H Given) :=
      bind (openLib s lib loader) fun _ => pure _
    cases isDirect with
    | true => exact bind (foreign _ loader true) fun f => opened (.native f)
    | false => exact opened (.routine loader)
  | openNative lib symbol =>
    refine bindStateOf _ (fun s => ?_) fun _ => rfl
    dsimp only
    cases Lua.Library.ofSymbol? symbol with
    | none => exact bind (fail _) fun _ => pure _
    | some f => exact bind (openLib s lib (.native f)) fun _ => pure _
  | move target => exact bind (stateNamed name) fun id => bind (move id) fun new => bind (bindName target new) fun _ => pure _
  | take source => exact bind (stateNamed name) fun id => bind (stateNamed source) fun other => bind (take id other) fun _ => pure _
  | close => exact bind (stateNamed name) fun id => bind (close id) fun _ => pure _
  | delete =>
    exact bind (stateNamed name) fun id => bind (change _ _ (fun _ => rfl) (fun _ => rfl) fun _ => rfl) fun _ => bind (forget id) fun _ => pure _
  | within source raises =>
    refine bind (stateNamed name) fun id => bind (finally_ ?_ (close id)) fun r => pure _
    exact bindState id (fun s => bind (stateExecute s source) fun r => raised raises) fun _ => rfl
  | copy => exact fail _
  | referenceInfo ref => exact bind (referenceNamed _) fun _ => bind (describeReference _) fun _ => pure _
  | release ref => exact bind (referenceNamed _) fun _ => bind (release _) fun _ => pure _
  | drop ref =>
    refine bindGet (fun w => bind (change _ _ (fun _ => rfl) (fun _ => rfl) fun _ => rfl) fun _ => ?_) fun _ => rfl
    cases Binding.Surroundings.lookup ref w.stored with
    | none => exact pure _
    | some o => exact bind (dropAll _) fun _ => pure _
  | pushReference ref state =>
    have pushed (l : Option Handle) : Indifferent env on (do
        Reference.push (← Session.referenceNamed ref) l
        return nothing) := bind (referenceNamed _) fun _ => bind (referencePush _ _) fun _ => pure _
    cases state with
    | none => exact pushed none
    | some n => exact bind (machineOf n) fun m => pushed _
  | registryValue ref =>
    refine bind (referenceNamed _) fun id => bind (referenceGet id) fun r => ?_
    exact bindStateOf _ (fun s => bind (registryValue _ r.slot) fun _ => pure _) fun _ => rfl
  | pinTop => exact bindStateOf _ (fun s => bind (pinTop _ _) fun _ => pure _) fun _ => rfl
  | pushChunk source => exact bindStateOf _ (fun s => bind (pushChunk _ _) fun _ => pure _) fun _ => rfl
  | closeRegistry => exact bindStateOf _ (fun s => bind (closeRegistry _) fun _ => pure _) fun _ => rfl
  | releaseMachine =>
    refine bindStateOf _ (fun s => ?_) fun _ => rfl
    cases s.machine with
    | none => exact pure _
    | some m => exact bind (releaseMachine m) fun _ => pure _
  | dropKept =>
    refine bindGet (fun w => bind (change _ _ (fun _ => rfl) (fun _ => rfl) fun _ => rfl) fun _ => ?_) fun _ => rfl
    exact bind (dropAll _) fun _ => pure _
  | wrap r => exact bindStateOf _ (fun s => bind (discard (wrap _ r)) fun _ => pure _) fun _ => rfl
  | toHost i withRegistry => exact bindStateOf _ (fun s => bind (toHost _ _ i _) fun _ => pure _) fun _ => rfl
  | pushHost v withRegistry => exact bindStateOf _ (fun s => bind (pushHost _ _ v _) fun _ => pure _) fun _ => rfl
  | api calls =>
    refine bindStateOf _ (fun s => bind (apiResults s calls) fun _ => pure _) fun s => ?_
    rw [apiResults_silent]
  | guard calls raises =>
    refine bindStateOf _ (fun s => bind (guarded _ _ ?_) fun _ => pure _) fun s => ?_
    · have body (depth : Value) : Indifferent env on (do
          Host.recordCall "depth" [depth]
          Session.apiRecorded s calls
          match raises with
          | some (kind, message) => raiseFailure kind message
          | none => Pure.pure ()) :=
        bind (recordCall _ _) fun _ => bind (apiRecorded s calls) fun _ => raised raises
      cases s.handle with
      | none => exact body _
      | some l => exact bind (runWith _ _ _) body
    · simp only [apiRecorded_silent]
      rfl
  | patch p => exact bind (change _ _ (fun _ => rfl) (fun _ => rfl) fun _ => rfl) fun _ => pure _

theorem conclude (keep : Option Text) (given : Given) : Indifferent env on (conclude keep given) := by
  cases given with
  | shown a => exact pure a
  | value v =>
    refine bindGet (fun w => ?_) fun w => ?_
    · cases keep with
      | none => exact bind (dropAll _) fun _ => pure _
      | some name => exact bind (store name _) fun _ => pure _
    · simp only [Value.answer_silent]

end Agree
end LuaHost.Host
