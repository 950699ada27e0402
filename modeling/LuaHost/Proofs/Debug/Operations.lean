import LuaHost.Proofs.Debug.Worlds
import LuaHost.Proofs.Twins.Trampolines

set_option autoImplicit false

/-!
# Operations in akin worlds

No call of the interface says anything of the debug channel, and no operation of a registry, a selector or a
state reads it, so each ends alike in akin worlds. The functions that machines call are operations of the
host again: what a machine does is the same by induction on the depth of such calls.
-/

namespace LuaHost.Host

open Lua (M Vm Link Tied Signal)
open Binding (Call Program Runtime)

variable {on : Prop} {w w' : World} {α β : Type} {env : Env}

theorem besides_files : (besides on).Files World.files World.files :=
  Link.lockstep_files fun _ _ akin => (akin.agree World.files fun _ => rfl).symm

theorem note_besides (e : Event) : Tied (besides on) (note e) (note e) := by
  refine ⟨fun vm w w' akin => .ok ?_⟩
  exact akin.change (fun w => { w with journal := e :: w.journal }) (fun _ => rfl) fun _ => rfl

theorem World.silent_give (w : World) (m : Nat) (f : Lua.Native) : (w.give m f).silent = w.silent.give m f := by
  unfold World.give
  cases f with
  | foreign id =>
    change World.silent (if _ then _ else _) = if (w.foreigns.get id).machines.contains m then _ else _
    split
    · rfl
    · rfl
  | _ => rfl

theorem World.give_debug (w : World) (m : Nat) (f : Lua.Native) : (w.give m f).debug = w.debug := by
  unfold World.give
  split
  · split
    · rfl
    · rfl
  · rfl

theorem given_besides (m : Nat) (f : Lua.Native) : Tied (besides on) (given m f) (given m f) := by
  refine .bind ⟨fun vm w w' akin => .ok ?_⟩ fun _ => .native f
  exact akin.change (·.give m f) (·.silent_give m f) (·.give_debug m f)

theorem perform_besides (he : env.Deaf on) (h : Handle) (c : Call) : Tied (besides on) (perform env h c) (perform env h c) :=
  perform_whole h (he h.machine) besides_files note_besides (given_besides h.machine) c

namespace Agree

/-! ## Programs of calls -/

theorem execute (r : Runtime) (l : Option Handle) (c : Call) : Indifferent env on (execute r l c) := by
  have performed (h : Handle) (c : Call) : Indifferent env on (H.onMachine h.machine (unprotected (perform env h c))) :=
    onMachine fun he => ⟨unprotected_inStep (perform_besides he h c).holds⟩
  have made : Indifferent env on (createMachine r.generation) :=
    change (fun w : World => { w with
      machines := w.machines.add (.open (Lua.Stack.newMachine r.generation)), journal := .created w.machines.size :: w.journal })
      (fun w => Value.int w.machines.size) (fun _ => rfl) (fun _ => rfl) fun _ => rfl
  cases l with
  | none =>
    cases c with
    | newState => exact made
    | _ => exact fault _
  | some h =>
    unfold Host.execute
    cases c with
    | newState => exact made
    | close =>
      refine bind (ofExcept _) fun _ => bindRead (bind (performed _ _) fun v => bind ?_ fun _ => pure v)
      exact change _ _ (fun _ => rfl) (fun _ => rfl) fun _ => rfl
    | _ => exact bind (ofExcept _) fun _ => bindRead (bind (performed _ _) fun v => bind (pure ()) fun _ => pure v)

theorem runProgram (r : Runtime) (l : Option Handle) (p : Program α) : Indifferent env on (runProgram r l p) := by
  induction p with
  | done a => exact pure a
  | fail f => exact fail f
  | ask c next ih => exact bind (execute r l c) fun v => ih v

theorem runWith (runtime : Nat) (l : Option Handle) (p : Runtime → Program α) : Indifferent env on (runWith runtime l p) :=
  bind (.runtime _) fun r => runProgram r l (p r)

theorem guarded {act act' : H α} (runtime : Nat) (l : Option Handle) (h : Agree env on act act') :
    Agree env on (guarded runtime l act) (guarded runtime l act') := by
  cases l with
  | none => exact h
  | some t => exact bind (runWith _ _ _) fun depth => finally_ h (runWith _ _ _)

theorem reportTop (reporter : Nat) (code : Int) (runtime : Nat) (l : Option Handle) :
    Indifferent env on (reportTop reporter code runtime l) := bind (runWith _ _ _) fun _ => report _ _ _ _

/-! ## Registries and references -/

theorem registryGet (id : Nat) : Indifferent env on (Registry.get id) := bindGet (fun _ => pure _) fun _ => rfl

theorem referenceGet (id : Nat) : Indifferent env on (Reference.get id) := bindGet (fun _ => pure _) fun _ => rfl

theorem modifyRegistry (id : Nat) (f : Registry → Registry) : Indifferent env on (Registry.modify id f) :=
  change _ _ (fun _ => rfl) (fun _ => rfl) fun _ => rfl

theorem createRegistry (runtime : Nat) (machine : Option Nat) (reporter : Nat) :
    Indifferent env on (Registry.create runtime machine reporter) := change _ _ (fun _ => rfl) (fun _ => rfl) fun _ => rfl

theorem pinTop (id : Nat) (l : Option Handle) : Indifferent env on (Registry.pinTop id l) := by
  refine bind (registryGet id) fun r => bind (runWith _ _ _) fun slot => ?_
  exact change _ _ (fun _ => rfl) (fun _ => rfl) fun _ => rfl

theorem registryPush (id : Nat) (slot : Int) (l : Option Handle) : Indifferent env on (Registry.push id slot l) := by
  refine bind (registryGet id) fun r => ?_
  exact ite (bind (fail _) fun _ => discard (runWith _ _ _)) (discard (runWith _ _ _))

theorem unpin (id : Nat) (slot : Int) : Indifferent env on (Registry.unpin id slot) :=
  bind (registryGet id) fun _ => ite (runWith _ _ _) (pure _)

theorem pushChunk (id : Nat) (source : Text) : Indifferent env on (Registry.pushChunk id source) := by
  refine bind (registryGet id) fun r => bind (runtime _) fun rt => ?_
  dsimp only
  generalize Option.map _ _ = cached
  cases cached with
  | some slot => exact bind (discard (runWith _ _ _)) fun _ => pure true
  | none =>
    refine bind (runWith _ _ _) fun status => ite (bind (reportTop _ _ _ _) fun _ => pure false) ?_
    refine bind (runWith _ _ _) fun slot => bind (modifyRegistry id _) fun _ => ?_
    exact bind (discard (runWith _ _ _)) fun _ => pure true

theorem keep (id : Nat) (f : Lua.Native) : Indifferent env on (Registry.keep id f) := by
  refine bind (registryGet id) fun r => ?_
  cases r.machine with
  | none => exact pure ()
  | some m => exact change (·.keep m f) _ (fun _ => rfl) (fun _ => rfl) fun _ => rfl

theorem foreign (id : Nat) (routine : Routine) (isDirect : Bool) : Indifferent env on (Registry.foreign id routine isDirect) := by
  refine bind (registryGet id) fun r => ?_
  exact change _ _ (fun _ => rfl) (fun _ => rfl) fun _ => rfl

theorem wrap (id : Nat) (routine : Routine) : Indifferent env on (Registry.wrap id routine) :=
  bind (foreign id routine false) fun f => bind (keep id f) fun _ => pure f

theorem closeRegistry (id : Nat) : Indifferent env on (Registry.close id) := by
  refine bind (registryGet id) fun r => ite ?_ (modifyRegistry id _)
  exact bind (forM (fun _ => runWith _ _ _) _) fun _ => modifyRegistry id _

theorem isValid (id : Nat) : Indifferent env on (Reference.isValid id) :=
  bind (referenceGet id) fun _ => bind (registryGet _) fun _ => pure _

theorem referencePush (id : Nat) (l : Option Handle) : Indifferent env on (Reference.push id l) :=
  bind (referenceGet id) fun r => registryPush r.registry r.slot l

theorem release (id : Nat) : Indifferent env on (Reference.release id) := by
  have forgotten : Indifferent env on
      (MonadState.modifyGet fun w : World =>
        ((), { w with references := w.references.modify id fun r => { r with slot := Binding.noReference } }) : H Unit) :=
    change _ _ (fun _ => rfl) (fun _ => rfl) fun _ => rfl
  exact bind (referenceGet id) fun _ => ite (bind (unpin _ _) fun _ => forgotten) forgotten

/-! ## Values -/

theorem toHost (runtime : Nat) (l : Option Handle) (i : Int) (registry : Option Nat) :
    Indifferent env on (toHost runtime l i registry) := by
  refine bind (runWith _ _ _) fun tag => ite (pure _) ?_
  refine ite (bind (runWith _ _ _) fun _ => pure _) ?_
  refine ite (bind (runWith _ _ _) fun isInt => ite (runWith _ _ _) (runWith _ _ _)) ?_
  refine ite (bind (runWith _ _ _) fun _ => pure _) ?_
  cases registry with
  | none => exact bind (runWith _ _ _) fun _ => fail _
  | some id => exact bind (runWith _ _ _) fun _ => bind (pinTop id l) fun _ => pure _

theorem pushHost (runtime : Nat) (l : Option Handle) (v : Value) (registry : Option Nat) :
    Indifferent env on (pushHost runtime l v registry) := by
  have wrapped (routine : Routine) : Indifferent env on (pushHost.wrapped runtime l registry routine) := by
    cases registry with
    | none => exact fail _
    | some id => exact bind (wrap id routine) fun f => runWith _ _ _
  unfold Host.pushHost
  cases v with
  | int n => exact ite (runWith _ _ _) (bind (ofExcept _) fun _ => runWith _ _ _)
  | reference id => exact referencePush id l
  | callable f => exact wrapped _
  | pointer f => exact wrapped _
  | tuple | list | set | dict | other => exact fail _
  | _ => exact runWith _ _ _

theorem registryValue (id : Nat) (slot : Int) : Indifferent env on (Registry.value id slot) :=
  bind (registryGet id) fun _ => guarded _ _ (bind (registryPush _ _ _) fun _ => toHost _ _ _ _)

/-! ## Selectors -/

section Selectors

variable (s : Selector)

theorem pushEntry (key : Value) : Indifferent env on (s.pushEntry key) := by
  refine bind (discard (runWith _ _ _)) fun _ => bind (pushChunk _ _) fun pushed => ite (pure _) ?_
  refine bind (runWith _ _ _) fun _ => bind (pushHost _ _ _ _) fun _ => bind (runWith _ _ _) fun status => ?_
  refine bind (runtime _) fun rt => ite ?_ (bind (runWith _ _ _) fun _ => pure _)
  exact bind (reportTop _ _ _ _) fun _ => pure _

theorem pushKeys (tag : Int) (keys : List Value) : Indifferent env on (s.pushKeys tag keys) := by
  induction keys generalizing tag with
  | nil => exact pure _
  | cons key rest ih =>
    refine ite (bind (runWith _ _ _) fun _ => pure _) (bind (pushEntry s key) fun found => ?_)
    cases found with
    | none => exact pure _
    | some tag => exact ih tag

/-- What follows on finding the value of a selector, inside a guard. -/
theorem found {none : H α} {some : Int → H α} (keys : List Value) (h : Indifferent env on none)
    (k : ∀ tag, Indifferent env on (some tag)) :
    Indifferent env on (s.guard do
      match ← s.push keys with
      | .none => none
      | .some tag => some tag) := by
  refine guarded _ _ (bind (bind (runWith _ _ _) fun _ => pushKeys s 5 keys) fun found => ?_)
  cases found with
  | none => exact h
  | some tag => exact k tag

theorem exists_ : Indifferent env on s.exists_ := ite (pure _) (found s _ (pure _) fun _ => pure _)

theorem selectorGet : Indifferent env on s.get := ite (pure _) (found s _ (pure _) fun _ => toHost _ _ _ _)

theorem ref : Indifferent env on s.ref := ite (pure _) (found s _ (pure _) fun _ => bind (pinTop _ _) fun _ => pure _)

theorem selectorSet (v : Value) : Indifferent env on (s.set v) := by
  refine ite (pure _) (bind (runtime _) fun rt => found s _ (pure _) fun tag => ite ?_ ?_)
  · refine bindGet (fun w => bind (ofExcept _) fun way => bind (runWith _ _ _) fun kind => ?_) fun _ => rfl
    exact bind (report _ _ _ _) fun _ => pure _
  · refine bind (discard (runWith _ _ _)) fun _ => bind (pushChunk _ _) fun pushed => ite (pure _) ?_
    refine bind (runWith _ _ _) fun _ => bind (pushHost _ _ _ _) fun _ => bind (pushHost _ _ _ _) fun _ => ?_
    exact bind (runWith _ _ _) fun status => ite (bind (reportTop _ _ _ _) fun _ => pure _) (pure _)

theorem pushAll (vs : List Value) : Indifferent env on (s.pushAll vs) := by
  induction vs with
  | nil => exact pure _
  | cons v rest ih => exact bind (pushHost _ _ _ _) fun _ => ih

theorem results (n : Nat) (i : Int) : Indifferent env on (s.results n i) := by
  induction n generalizing i with
  | zero => exact pure _
  | succ n ih => exact bind (toHost _ _ _ _) fun v => bind (ih _) fun vs => pure _

theorem selectorCall (args : List Value) : Indifferent env on (s.call args) := by
  refine ite (pure _) (bind (runtime _) fun rt => found s _ (pure _) fun tag => ?_)
  refine bind (discard (runWith _ _ _)) fun _ => bind (runWith _ _ _) fun top => bind (pushAll s args) fun _ => ?_
  refine bind (runWith _ _ _) fun status => ite (bind (reportTop _ _ _ _) fun _ => pure _) ?_
  exact bind (runWith _ _ _) fun _ => bind (results s _ _) fun _ => pure _

end Selectors

/-! ## States -/

section States

variable (s : State)

theorem stateExecute (source : Value) : Indifferent env on (s.execute source) := by
  refine ite (pure _) (bind (runtime _) fun rt => guarded _ _ (bind (runWith _ _ _) fun status => ?_))
  exact ite (bind (reportTop _ _ _ _) fun _ => pure _) (pure _)

theorem loadFile (path : Value) (shown : Text) : Indifferent env on (s.loadFile path shown) := by
  have words (status : Int) (fallback : Text) : Indifferent env on (do
      let message ← Host.runWith s.runtime s.handle fun r => Binding.Api.toText r (-1)
      H.report s.reporter status (message.getD (shown ++ fallback)) none
      return false) := bind (runWith _ _ _) fun _ => bind (report _ _ _ _) fun _ => pure _
  refine ite (pure _) (bind (runtime _) fun rt => guarded _ _ (bind (runWith _ _ _) fun status => ite ?_ ?_))
  · exact ite (words _ _) (ite (words _ _) (ite (words _ _) (bind (debug _ _) fun _ => pure _)))
  · exact bind (runWith _ _ _) fun status => ite (pure _) (words _ _)

theorem interact : Indifferent env on s.interact := ite (pure _) (guarded _ _ (discard (runWith _ _ _)))

theorem collect : Indifferent env on s.collect := ite (discard (runWith _ _ _)) (pure _)

theorem size : Indifferent env on s.size := ite (pure _) (bind (runWith _ _ _) fun _ => pure _)

theorem entryCount (l : Handle) (i : Int) : Indifferent env on (State.entryCount l i) :=
  onMachine fun _ => .bind (Lua.Stack.tableAt_tied _ _) fun _ => .bind (.table _) fun _ => .pure _

theorem namesFrom (fuel : Nat) : Indifferent env on (s.namesFrom fuel) := by
  induction fuel with
  | zero => exact pure _
  | succ fuel ih =>
    have onward (name : List Text) : Indifferent env on (do
        Host.runWith s.runtime s.handle fun _ => Binding.Api.pop 1
        return name ++ (← s.namesFrom fuel)) := bind (runWith _ _ _) fun _ => bind ih fun _ => pure _
    refine bind (runWith _ _ _) fun more => ite (pure _) (bind (runWith _ _ _) fun tag => ?_)
    exact ite (bind (runWith _ _ _) fun _ => onward _) (ite (bind (runWith _ _ _) fun _ => onward _) (onward _))

theorem globalNames : Indifferent env on s.globalNames := by
  unfold State.globalNames
  cases s.handle with
  | none => exact pure _
  | some l =>
    refine guarded _ _ (bind (runWith _ _ _) fun _ => bind (entryCount l _) fun _ => bind (runWith _ _ _) fun _ => ?_)
    exact bind (namesFrom s _) fun _ => bind (runWith _ _ _) fun _ => pure _

theorem openLib (name : Value) (loader : State.Loader) : Indifferent env on (s.openLib name loader) := by
  have made : Indifferent env on (loader.function s.registry) := by
    cases loader with
    | routine r => exact wrap _ r
    | native f => exact bind (keep _ f) fun _ => pure f
  refine ite (pure _) (bind (runtime _) fun rt => bind made fun f => guarded _ _ (ite (runWith _ _ _) ?_))
  refine bind (runWith _ _ _) fun _ => bind (runWith _ _ _) fun _ => bind (runWith _ _ _) fun status => ite ?_ (pure _)
  exact bind (runWith _ _ _) fun _ => debug _ _

end States

/-! ## Functions that machines call -/

theorem dropAll (ids : List Nat) : Indifferent env on (dropAll ids) := by
  induction ids with
  | nil => exact pure _
  | cons id rest ih =>
    refine bindGet (fun w => ite ?_ ih) fun _ => rfl
    exact bind (catch_ (release id) fun _ => pure _) fun _ => ih

theorem holding {act : H α} (ids : List Nat) (h : Indifferent env on act) : Indifferent env on (holding ids act) := by
  refine bind (change _ _ (fun _ => rfl) (fun _ => rfl) fun _ => rfl) fun _ => finally_ h ?_
  exact change _ _ (fun _ => rfl) (fun _ => rfl) fun _ => rfl

end Agree

mutual

theorem Value.answer_silent (w : World) : ∀ v : Value, v.answer w.silent = v.answer w
  | .none | .bool _ | .int _ | .float _ | .text _ | .bytes _ | .byteArray _ => by simp only [Value.answer]
  | .tuple vs => by simp only [Value.answer, answerAll_silent w vs]
  | .list vs => by simp only [Value.answer, answerAll_silent w vs]
  | .reference id => by
    simp only [Value.answer]
    rfl
  | .set _ | .dict _ | .callable _ | .pointer _ | .other _ _ _ => by
    simp only [Value.answer]
    rfl

theorem answerAll_silent (w : World) : ∀ vs : List Value, answerAll w.silent vs = answerAll w vs
  | [] => rfl
  | v :: vs => by simp only [answerAll, Value.answer_silent w v, answerAll_silent w vs]

end

namespace Agree

theorem recordCall (name : Text) (vs : List Value) : Indifferent env on (recordCall name vs) := by
  refine change (fun w => { w with calls := w.calls ++ [.text name :: answerAll w vs] }) _ (fun w => ?_) (fun _ => rfl) fun _ => rfl
  rw [answerAll_silent]
  rfl

theorem stateNamed (name : Text) : Indifferent env on (stateNamed name) := by
  refine bindGet (fun w => ?_) fun _ => rfl
  split
  · exact pure _
  · exact fail _

theorem mainSelector (path : List Value) : Indifferent env on (mainSelector path) :=
  bind (stateNamed _) fun id => bindState id (fun _ => pure _) fun _ => rfl

theorem construct (c : Class) (args : List Value) : Indifferent env on (c.construct args) := by
  refine bindGet (fun w => ?_) fun _ => rfl
  split
  · exact pure _
  · exact pure _
  · exact fail _
  · exact pure _
  · exact bind (ofExcept _) fun _ => pure _
  · exact fail _
  · exact pure _
  · exact pure _
  · exact fail _

theorem callback (f : Callback) (args : List Value) : Indifferent env on (f.run args) := by
  cases f with
  | construct c => exact construct c args
  | named name action =>
    refine bind (recordCall _ _) fun _ => ?_
    cases action with
    | keep => exact bind (change _ _ (fun _ => rfl) (fun _ => rfl) fun _ => rfl) fun _ => pure _
    | raise kind message => exact fail _
    | execute state source =>
      refine bind (stateNamed state) fun id => bindState id (fun s => bind (stateExecute s _) fun _ => pure _) fun _ => rfl
    | get path => exact bind (mainSelector path) fun s => selectorGet s
    | call path => exact bind (mainSelector path) fun s => selectorCall s args
    | set path =>
      cases args with
      | nil => exact fail _
      | cons v rest => exact bind (mainSelector path) fun s => bind (selectorSet s v) fun _ => pure _
    | _ => exact pure _

theorem routineCall (runtime : Nat) (l : Handle) (c : RoutineCall) : Indifferent env on (c.run runtime l) := by
  cases c with
  | plain name m => exact bind (runWith _ _ _) fun v => recordCall _ _
  | pushFunction state routine =>
    refine bind (stateNamed state) fun id => bindState id (fun s => bind (wrap _ routine) fun f => ?_) fun _ => rfl
    exact bind (runWith _ _ _) fun _ => recordCall _ _

theorem runCalls (runtime : Nat) (l : Handle) (calls : List RoutineCall) : Indifferent env on (runCalls runtime l calls) := by
  induction calls with
  | nil => exact pure _
  | cons c rest ih => exact bind (routineCall runtime l c) fun _ => ih

section Foreigns

variable (f : Foreign)

theorem reportFailure (e : Failure) : Indifferent env on (reportFailure f e) :=
  bind (runtime _) fun _ => bind (report _ _ _ _) fun _ => pure _

theorem giveUp (e : Failure) (ids : List Nat) : Indifferent env on (giveUp f e ids) :=
  finally_ (discard (reportFailure f e)) (dropAll ids)

theorem arguments (l : Handle) (n : Nat) (i : Int) : Indifferent env on (arguments f l n i) := by
  induction n generalizing i with
  | zero => exact pure _
  | succ n ih => exact bind (toHost _ _ _ _) fun v => bind (ih _) fun vs => pure _

theorem pushResults (l : Handle) (k : Nat) (vs : List Value) : Indifferent env on (pushResults f l k vs) := by
  induction vs generalizing k with
  | nil => exact pure _
  | cons v rest ih =>
    refine bind (catch_ (bind (pushHost _ _ _ _) fun _ => pure _) fun _ => pure _) fun pushed => ?_
    cases pushed with
    | some e => exact pure _
    | none => exact ih _

theorem finish (l : Handle) (argIds : List Nat) (outcome : Except Failure Value) :
    Indifferent env on (finish f l argIds outcome) := by
  cases outcome with
  | error e => exact bind (giveUp f _ _) fun _ => pure _
  | ok result =>
    have given : Indifferent env on (giveResults f l argIds result) := by
      refine holding _ (bind (dropAll _) fun _ => ite (pure _) ?_)
      exact bind (discard (runWith _ _ _)) fun _ => pushResults f l _ _
    refine bind given fun failed => ?_
    cases failed with
    | some failed => exact bind (giveUp f _ _) fun _ => pure _
    | none => exact bind (dropAll _) fun _ => pure _

theorem foreignCall (l : Handle) : Indifferent env on (f.call l) := by
  unfold Foreign.call
  cases f.routine with
  | callback c =>
    refine bind (runWith _ _ _) fun count => bind (arguments f l _ _) fun args => ?_
    refine bind (holding _ (catch_ (bind (callback c args) fun _ => pure _) fun _ => pure _)) fun outcome => ?_
    exact finish f l _ outcome
  | raw calls result raises =>
    refine catch_ (bind (runCalls _ l calls) fun _ => ?_) fun e => ite (pure _) (reportFailure f e)
    cases raises with
    | some raised => exact fail _
    | none => exact ofExcept _

end Foreigns
end Agree

theorem nativesTo_deaf (depth : Nat) : (⟨nativesTo depth⟩ : Env).Deaf on := by
  induction depth with
  | zero => exact fun m services services' hs f upvalues args => .throw_fault _ (by decide)
  | succ depth ih =>
    intro m services services' hs f upvalues args
    cases f with
    | library lib name => exact Lua.Library.apply_tied hs besides_files _ _ _
    | foreign id =>
      refine ⟨fun vm w w' akin => ?_⟩
      have foreigns : w'.foreigns = w.foreigns := akin.agree World.foreigns fun _ => rfl
      have kept : w'.isKept m (.foreign id) = w.isKept m (.foreign id) := akin.agree (·.isKept m (.foreign id)) fun _ => rfl
      have called (isKept : Bool) : Tied (besides on) (enter ⟨nativesTo depth⟩ m vm.running id isKept (w.foreigns.get id))
          (enter ⟨nativesTo depth⟩ m vm.running id isKept (w.foreigns.get id)) := by
        refine .bind (note_besides _) fun _ => .bind (Agree.inMachine ih (.foreignCall _ _) 0) fun n => ?_
        exact Lua.Stack.popAll_tied _ _
      dsimp only
      rw [nativesTo_foreign, nativesTo_foreign, foreigns, kept]
      exact (Tied.ite (.bind (.fault _ (by decide)) fun _ => called _) (called _)).holds vm w w' akin

/-- What the machines of a host do has nothing to do with its debug channel. -/
theorem Env.full_deaf : Env.full.Deaf on := nativesTo_deaf depthLimit

end LuaHost.Host
