import LuaHost.Host.Trampoline
import LuaHost.Proofs.Moves.Exchange

set_option autoImplicit false

/-!
# Operations make moves

Selectors, scripts, modules and the functions that machines call: whatever they do and however they end,
the world has made moves. A selector or a state must go with a registry of its own machine.
-/

namespace LuaHost.Host

open Lua (M Vm Within Signal)
open Binding (Call Program Runtime)

variable {env : Env} {base w : World} {α β : Type}

/-- A selector whose registry goes with its machine. -/
def Selector.Goes (s : Selector) (w : World) : Prop := ∀ m, s.machine = some m → w.Pairs m s.registry

/-- A state whose registry goes with its machine. -/
def State.Goes (s : State) (w : World) : Prop := ∀ m, s.machine = some m → w.Pairs m s.registry

theorem State.Goes.select {s : State} {w : World} (h : s.Goes w) (name : Value) (path : List Value) :
    (s.select name path).Goes w := h

theorem stateNamed_eq (env : Env) (w : World) (name : Text) :
    stateNamed name env w = (match w.names.find? fun (n, _) => n == name with
      | some (_, id) => Pure.pure id
      | none => H.fail (.raised "KeyError" (Quoted.text name)) : H Nat) env w := rfl

theorem World.Sound.goes {w : World} (h : w.Sound) (id : Nat) : (w.states.get id).Goes w := h.states id

namespace Leads

theorem guarded {act : H α} (runtime : Nat) (l : Option Handle) (h : Leads env base act) :
    Leads env base (guarded runtime l act) := by
  unfold Host.guarded
  cases l with
  | none => exact h
  | some t => exact bind (runWith _ _ fun _ => Mute.getTop) fun _ => finally_ h (runWith _ _ fun _ => Mute.setTop _)

/-! ## References that are let go -/

theorem dropAll (ids : List Nat) : Leads env base (dropAll ids) := by
  induction ids with
  | nil => exact pure _
  | cons id rest ih =>
    unfold Host.dropAll
    refine bind get fun w => ?_
    dsimp only
    split
    · exact bind (catch_ (release id) fun _ => pure _) fun _ => ih
    · exact ih

theorem holding {act : H α} (ids : List Nat) (h : Leads env base act) : Leads env base (holding ids act) :=
  bind (modify _ fun _ => ⟨rfl, rfl, rfl, rfl, rfl, rfl, rfl, rfl, rfl, rfl⟩) fun _ =>
    finally_ h (modify _ fun _ => ⟨rfl, rfl, rfl, rfl, rfl, rfl, rfl, rfl, rfl, rfl⟩)

/-! ## Selectors -/

section Selectors

variable {s : Selector} (hg : s.Goes base)

include hg

theorem selector_pairs (id : Nat) (t : Handle) (hid : some s.registry = some id) (ht : s.handle = some t) :
    base.Pairs t.machine id := by
  obtain ⟨m, hm, rfl⟩ := Option.map_eq_some_iff.mp ht
  cases hid
  exact hg m hm

theorem pushEntry (key : Value) : Leads env base (s.pushEntry key) := by
  unfold Selector.pushEntry
  refine bind (discard (runWith _ _ fun _ => Mute.checkStack _)) fun _ => bind (pushChunk _ _) fun pushed => ?_
  split
  · exact pure _
  refine bind (runWith _ _ fun _ => Mute.pushValue _) fun _ =>
    bind (pushHost _ _ _ _ (selector_pairs hg)) fun _ => bind (runWith _ _ fun _ => Ordinary.pcall _ _ _) fun status =>
      bind (runtime _) fun rt => ?_
  dsimp only
  split
  · exact bind (reportTop _ _ _ _) fun _ => pure _
  · exact bind (runWith _ _ fun _ => Mute.type _) fun _ => pure _

theorem pushKeys (tag : Int) (keys : List Value) : Leads env base (s.pushKeys tag keys) := by
  induction keys generalizing tag with
  | nil => exact pure _
  | cons key rest ih =>
    unfold Selector.pushKeys
    split
    · exact bind (runWith _ _ fun _ => Mute.pushNil) fun _ => pure _
    · refine bind (pushEntry hg key) fun found => ?_
      split
      · exact pure _
      · exact ih _

theorem selectorPush (keys : List Value) : Leads env base (s.push keys) :=
  bind (runWith _ _ Mute.pushGlobals) fun _ => pushKeys hg 5 keys

theorem exists_ : Leads env base s.exists_ := by
  unfold Selector.exists_
  split
  · exact pure _
  refine guarded _ _ (bind (selectorPush hg _) fun found => ?_)
  split
  · exact pure _
  · exact pure _

theorem selectorGet : Leads env base s.get := by
  unfold Selector.get
  split
  · exact pure _
  refine guarded _ _ (bind (selectorPush hg _) fun found => ?_)
  split
  · exact pure _
  · exact toHost _ _ _ _ (selector_pairs hg)

theorem ref : Leads env base s.ref := by
  unfold Selector.ref
  split
  · exact pure _
  refine guarded _ _ (bind (selectorPush hg _) fun found => ?_)
  split
  · exact pure _
  · exact bind (pinTop _ _ nofun) fun _ => pure _

theorem set (v : Value) : Leads env base (s.set v) := by
  unfold Selector.set
  split
  · exact pure _
  refine bind (runtime _) fun rt => guarded _ _ (bind (selectorPush hg _) fun found => ?_)
  split
  · exact pure _
  split
  · exact bind get fun w => bind (ofExcept _) fun way => bind (runWith _ _ fun _ => Mute.typeName _) fun kind =>
      bind (report _ _ _ _) fun _ => pure _
  refine bind (discard (runWith _ _ fun _ => Mute.checkStack _)) fun _ => bind (pushChunk _ _) fun pushed => ?_
  split
  · exact pure _
  refine bind (runWith _ _ fun _ => Mute.pushValue _) fun _ => bind (pushHost _ _ _ _ (selector_pairs hg)) fun _ =>
    bind (pushHost _ _ _ _ (selector_pairs hg)) fun _ => bind (runWith _ _ fun _ => Ordinary.pcall _ _ _) fun status => ?_
  dsimp only
  split
  · exact bind (reportTop _ _ _ _) fun _ => pure _
  · exact pure _

theorem pushAll (vs : List Value) : Leads env base (s.pushAll vs) := by
  induction vs with
  | nil => exact pure _
  | cons v rest ih => exact bind (pushHost _ _ _ _ (selector_pairs hg)) fun _ => ih

theorem results (n : Nat) (i : Int) : Leads env base (s.results n i) := by
  induction n generalizing i with
  | zero => exact pure _
  | succ n ih => exact bind (toHost _ _ _ _ (selector_pairs hg)) fun v => bind (ih _) fun vs => pure _

theorem selectorCall (args : List Value) : Leads env base (s.call args) := by
  unfold Selector.call
  split
  · exact pure _
  refine bind (runtime _) fun rt => guarded _ _ (bind (selectorPush hg _) fun found => ?_)
  split
  · exact pure _
  refine bind (discard (runWith _ _ fun _ => Mute.checkStack _)) fun _ => bind (runWith _ _ fun _ => Mute.getTop) fun top =>
    bind (pushAll hg args) fun _ => bind (runWith _ _ fun _ => Ordinary.pcall _ _ _) fun status => ?_
  dsimp only
  split
  · exact bind (reportTop _ _ _ _) fun _ => pure _
  · exact bind (runWith _ _ fun _ => Mute.getTop) fun _ => bind (results hg _ _) fun _ => pure _

end Selectors

/-! ## Scripts -/

section Scripts

variable (s : State)

theorem stateExecute (source : Value) : Leads env base (s.execute source) := by
  unfold State.execute
  split
  · exact pure _
  refine bind (runtime _) fun rt => guarded _ _ (bind (runWith _ _ fun r => Ordinary.doString r _) fun status => ?_)
  dsimp only
  split
  · exact bind (reportTop _ _ _ _) fun _ => pure _
  · exact pure _

theorem loadFile (path : Value) (shown : Text) : Leads env base (s.loadFile path shown) := by
  unfold State.loadFile
  split
  · exact pure _
  have words (status : Int) (fallback : Text) : Leads env base (do
      let message ← Host.runWith s.runtime s.handle fun r => Binding.Api.toText r (-1)
      H.report s.reporter status (message.getD (shown ++ fallback)) none
      return false) := bind (runWith _ _ fun r => Mute.toText r _) fun _ => bind (report _ _ _ _) fun _ => pure _
  refine bind (runtime _) fun rt => guarded _ _ (bind (runWith _ _ fun r => Ordinary.loadFile r _) fun status => ?_)
  dsimp only
  split
  · split
    · exact words _ _
    split
    · exact words _ _
    split
    · exact words _ _
    · exact bind (debug _) fun _ => pure _
  · refine bind (runWith _ _ fun _ => Ordinary.pcall _ _ _) fun status => ?_
    split
    · exact pure _
    · exact words _ _

theorem interact : Leads env base s.interact := by
  unfold State.interact
  split
  · exact pure _
  · exact guarded _ _ (discard (runWith _ _ fun r => Ordinary.doString r _))

theorem collect : Leads env base s.collect := by
  unfold State.collect
  split
  · exact discard (runWith _ _ fun _ => Ordinary.collect)
  · exact pure _

theorem size : Leads env base s.size := by
  unfold State.size
  split
  · exact pure _
  · exact bind (runWith _ _ fun _ => Mute.getTop) fun _ => pure _

theorem entryCount (l : Handle) (i : Int) : Leads env base (State.entryCount l i) :=
  onMachine fun _ => .bind (Lua.Stack.tableAt_within _ _) fun _ => .bind (.table _) fun _ => .pure _

theorem namesFrom (fuel : Nat) : Leads env base (s.namesFrom fuel) := by
  induction fuel with
  | zero => exact pure _
  | succ fuel ih =>
    unfold State.namesFrom
    have onward (name : List Text) : Leads env base (do
        Host.runWith s.runtime s.handle fun _ => Binding.Api.pop 1
        return name ++ (← s.namesFrom fuel)) := bind (runWith _ _ fun _ => Mute.pop _) fun _ => bind ih fun _ => pure _
    refine bind (runWith _ _ fun _ => Mute.next _) fun more => ?_
    split
    · exact pure _
    refine bind (runWith _ _ fun _ => Mute.type _) fun tag => ?_
    dsimp only
    split
    · exact bind (runWith _ _ fun r => Mute.toText r _) fun _ => onward _
    split
    · exact bind (runWith _ _ fun _ => Mute.toNumber _) fun _ => onward _
    · exact onward _

theorem globalNames : Leads env base s.globalNames := by
  unfold State.globalNames
  split
  · exact pure _
  · exact guarded _ _ (bind (runWith _ _ Mute.pushGlobals) fun _ => bind (entryCount _ _) fun _ =>
      bind (runWith _ _ fun _ => Mute.pushNil) fun _ => bind (namesFrom s _) fun _ =>
        bind (runWith _ _ fun _ => Mute.pop _) fun _ => pure _)

end Scripts

/-- The value in a slot of a registry. -/
theorem registryValue (id : Nat) (slot : Int) : Leads env base (Registry.value id slot) := by
  refine bind_registry id fun r hr => guarded _ _ (bind (registryPush _ _ _) fun _ => toHost _ _ _ _ ?_)
  rintro k t ⟨⟩ ht
  obtain ⟨m, hm, rfl⟩ := Option.map_eq_some_iff.mp ht
  have home : base.machineOf id = some m := hr.symm.trans hm
  exact ⟨World.lt_size_of_machineOf home, .inr home⟩

/-! ## Modules -/

/-- Having a function open a module, on a machine that may have the function. -/
theorem requireFunction {f : Lua.Native} (runtime : Nat) (l : Option Handle) (name : Value) (isGlobal : Bool)
    (h : ∀ t, l = some t → base.Grants t.machine f) :
    Leads env base (Host.runWith runtime l fun r => Binding.Api.requireF r name (.pointer f) isGlobal) := by
  have asked (r : Runtime) : (Binding.Api.requireF r name (.pointer f) isGlobal).All fun c =>
      ∃ bytes, c = .requireF bytes (.pointer f) isGlobal := by
    have called (bytes : ByteArray) : (if r.generation == .v51 then Program.fail (.type "'NoneType' object is not callable")
        else Functor.discard (Program.call (.requireF bytes (.pointer f) isGlobal)) : Program Unit).All fun c =>
          ∃ bytes, c = .requireF bytes (.pointer f) isGlobal := by
      split
      · exact trivial
      · exact ⟨⟨bytes, rfl⟩, fun _ => trivial⟩
    unfold Binding.Api.requireF Binding.Api.nameBytes
    cases name with
    | text t => exact .convert called
    | _ => exact trivial
  refine bind (Leads.runtime _) fun r => program ?_ (asked r)
  rintro c ⟨bytes, rfl⟩
  refine of_moves fun he w hs hw => ?_
  cases l with
  | none =>
    rw [execute_none (c := .requireF _ _ _) _ nofun]
    exact .refl
  | some t =>
    refine execute_moves nofun nofun fun vm hm => ?_
    have moves := Perform.requireF_moves he t bytes f isGlobal (taken w t.machine vm)
    rw [putBack_taken hm] at moves
    exact moves hs (hw.grants (h t rfl))

/-- Registering a module whose function the machine may have. -/
theorem register (s : State) (rt : Runtime) (name : Value) {f : Lua.Native}
    (h : ∀ m, s.machine = some m → base.Grants m f) : Leads env base (s.register rt name f) := by
  have granted (t : Handle) (ht : s.handle = some t) : base.Grants t.machine f := by
    obtain ⟨m, hm, rfl⟩ := Option.map_eq_some_iff.mp ht
    exact h m hm
  unfold State.register
  refine guarded _ _ ?_
  split
  · exact requireFunction _ _ _ _ granted
  refine bind (giveFunction _ _ granted) fun _ => bind (runWith _ _ fun _ => Mute.pushString _) fun _ =>
    bind (runWith _ _ fun _ => Ordinary.pcall _ _ _) fun status => ?_
  dsimp only
  split
  · exact bind (runWith _ _ fun r => Mute.toText r _) fun _ => debug _
  · exact pure _

/-- Making a function through a registry and then registering it. -/
theorem openWith (s : State) (rt : Runtime) (name : Value) {made : H Lua.Native}
    (h : ∀ w, Moves base w → ∃ f w', made env w = .ok f w' ∧ Moves w w' ∧ ∀ m, w.Pairs m s.registry → w'.Grants m f)
    (hg : s.Goes base) : Leads env base (do s.register rt name (← made)) := by
  refine of_moves fun he w hs hw => ?_
  obtain ⟨f, w', ok, moves, grants⟩ := h w hw
  rw [bind_ok ok]
  refine moves.trans <| (register s rt name fun m hm => grants m ?_).after he (moves.sound hs) w' .refl
  exact hw.continues.pairs (hg m hm)

theorem openLib {s : State} (name : Value) {loader : State.Loader}
    (h : ∀ w, Moves base w → ∃ f w', loader.function s.registry env w = .ok f w' ∧ Moves w w' ∧
      ∀ m, w.Pairs m s.registry → w'.Grants m f)
    (hg : s.Goes base) : Leads env base (s.openLib name loader) := by
  unfold State.openLib
  split
  · exact pure _
  · exact bind (Leads.runtime _) fun rt => openWith s rt name h hg

/-! ## Functions that machines call -/

theorem stateNamed (name : Text) : Leads env base (stateNamed name) := by
  unfold Host.stateNamed
  refine bind get fun w => ?_
  split
  · exact pure _
  · exact fail _

/-- A state goes with its registry as it did at first. -/
theorem bind_state (hs : base.Sound) (id : Nat) {next : State → H β} (k : ∀ s, s.Goes base → Leads env base (next s)) :
    Leads env base (State.get id >>= next) := by
  constructor
  intro he _ w hw
  refine (k (w.states.get id) ?_).after he hs w hw
  rw [hw.continues.states]
  exact hs.goes id

theorem recordCall (name : Text) (vs : List Value) : Leads env base (recordCall name vs) :=
  modify _ fun _ => ⟨rfl, rfl, rfl, rfl, rfl, rfl, rfl, rfl, rfl, rfl⟩

theorem bind_mainSelector (hs : base.Sound) (path : List Value) {next : Selector → H β}
    (k : ∀ s, s.Goes base → Leads env base (next s)) : Leads env base (mainSelector path >>= next) := by
  unfold mainSelector
  rw [bind_assoc]
  refine bind (stateNamed _) fun id => ?_
  rw [bind_assoc]
  exact bind_state hs id fun s hg => k _ hg

theorem construct (c : Class) (args : List Value) : Leads env base (c.construct args) := by
  unfold Class.construct
  refine bind get fun w => ?_
  split
  · exact pure _
  · exact pure _
  · exact fail _
  · exact pure _
  · exact bind (ofExcept _) fun _ => pure _
  · exact fail _
  · exact pure _
  · exact pure _
  · exact fail _

theorem callback (hs : base.Sound) (f : Callback) (args : List Value) : Leads env base (f.run args) := by
  unfold Callback.run
  split
  · exact construct _ _
  refine bind (recordCall _ _) fun _ => ?_
  split
  · exact pure _
  · exact pure _
  · exact pure _
  · exact pure _
  · exact pure _
  · exact pure _
  · exact bind (modify _ fun _ => ⟨rfl, rfl, rfl, rfl, rfl, rfl, rfl, rfl, rfl, rfl⟩) fun _ => pure _
  · exact fail _
  · exact bind (stateNamed _) fun id => bind_state hs id fun s hg => bind (stateExecute s _) fun _ => pure _
  · exact bind_mainSelector hs _ fun s hg => selectorGet hg
  · exact bind_mainSelector hs _ fun s hg => selectorCall hg _
  · split
    · exact bind_mainSelector hs _ fun s hg => bind (set hg _) fun _ => pure _
    · exact fail _

theorem arguments (f : Foreign) (l : Handle) (hp : base.Pairs l.machine f.registry) (n : Nat) (i : Int) :
    Leads env base (arguments f l n i) := by
  have pairs (id : Nat) (t : Handle) (hid : some f.registry = some id) (ht : some l = some t) : base.Pairs t.machine id := by
    cases hid
    cases ht
    exact hp
  induction n generalizing i with
  | zero => exact pure _
  | succ n ih => exact bind (toHost _ _ _ _ pairs) fun v => bind (ih _) fun vs => pure _

theorem pushResults (f : Foreign) (l : Handle) (hp : base.Pairs l.machine f.registry) (k : Nat) (vs : List Value) :
    Leads env base (pushResults f l k vs) := by
  have pairs (id : Nat) (t : Handle) (hid : some f.registry = some id) (ht : some l = some t) : base.Pairs t.machine id := by
    cases hid
    cases ht
    exact hp
  induction vs generalizing k with
  | nil => exact pure _
  | cons v rest ih =>
    unfold Host.pushResults
    refine bind (catch_ (bind (pushHost _ _ _ _ pairs) fun _ => pure _) fun _ => pure _) fun pushed => ?_
    split
    · exact pure _
    · exact ih _

theorem reportFailure (f : Foreign) (e : Failure) : Leads env base (reportFailure f e) :=
  bind (Leads.runtime _) fun _ => bind (report _ _ _ _) fun _ => pure _

theorem giveUp (f : Foreign) (e : Failure) (ids : List Nat) : Leads env base (giveUp f e ids) :=
  finally_ (discard (reportFailure f e)) (dropAll ids)

theorem giveResults (f : Foreign) (l : Handle) (hp : base.Pairs l.machine f.registry) (argIds : List Nat) (result : Value) :
    Leads env base (giveResults f l argIds result) := by
  unfold Host.giveResults
  refine holding _ (bind (dropAll _) fun _ => ?_)
  split
  · exact pure _
  · exact bind (discard (runWith _ _ fun _ => Mute.checkStack _)) fun _ => pushResults f l hp _ _

theorem finish (f : Foreign) (l : Handle) (hp : base.Pairs l.machine f.registry) (argIds : List Nat)
    (outcome : Except Failure Value) : Leads env base (finish f l argIds outcome) := by
  unfold Host.finish
  split
  · exact bind (giveUp f _ _) fun _ => pure _
  · refine bind (giveResults f l hp _ _) fun failed => ?_
    split
    · exact bind (giveUp f _ _) fun _ => pure _
    · exact bind (dropAll _) fun _ => pure _

theorem attempt {act : H α} (h : Leads env base act) : Leads env base (attempt act) := catch_ (bind h fun _ => pure _) fun _ => pure _

/-- What a function of the host does leads on if what it is given to do leads on. -/
theorem callHost (f : Foreign) {act : List Value → H Value} (ha : ∀ args, Leads env base (act args)) (l : Handle)
    (hp : base.Pairs l.machine f.registry) : Leads env base (callHost f act l) := by
  unfold Host.callHost
  refine bind (runWith _ _ fun _ => Mute.getTop) fun top => bind (arguments f l hp _ _) fun args =>
    bind (holding _ (attempt (ha args))) fun outcome => finish f l hp _ outcome

end Leads

/-- A local routine makes ordinary calls. -/
theorem Leads.runCalls (runtime : Nat) (l : Handle) {calls : List RoutineCall} {result : Value} {raises : Option (String × Text)}
    (h : (Routine.raw calls result raises).Local) : Leads env base (runCalls runtime l calls) := by
  induction calls with
  | nil => exact pure _
  | cons c rest ih =>
    obtain ⟨name, method, rfl, ordinary⟩ := h c List.mem_cons_self
    refine bind ?_ fun _ => ih fun c hc => h c (List.mem_cons_of_mem _ hc)
    exact bind (runWith _ _ ordinary) fun v => recordCall _ _

/-- What a machine calls makes moves only, if it may be called there. -/
theorem Leads.foreign (hs : base.Sound) (f : Foreign) (hl : f.routine.Local) (l : Handle)
    (hp : base.Pairs l.machine f.registry) : Leads env base (f.call l) := by
  unfold Foreign.call
  cases hr : f.routine with
  | callback c => exact callHost f (callback hs c) l hp
  | raw calls result raises =>
    rw [hr] at hl
    refine catch_ (bind (runCalls _ l hl) fun _ => ?_) fun e => ?_
    · split
      · exact fail _
      · exact ofExcept _
    · split
      · exact pure _
      · exact reportFailure f e

/-! ## All functions of a machine -/

/-- A machine goes on after the host has made moves, unless it is lost. -/
theorem goesOn {m : Nat} (s : Lua.Sys World) (w : World) (hw : (putBack s m).Sound → Moves (putBack s m) w)
    {r : Lua.Sys World → EStateM.Result Signal (Lua.Sys World) α} (hr : ∀ t, final (r t) = t) :
    (along m).After s (match (match w.machines.get m with
        | .open vm => some ⟨vm, { w with machines := w.machines.put m .busy }⟩
        | _ => none : Option (Lua.Sys World)) with
      | some t => r t
      | none => .error (.fault .closedHandle) ⟨Lua.Stack.newMachine .v51, w⟩) := by
  have lost (hn : ¬ w.Open m) (t : Lua.Sys World) : (along m).rel s t := fun hs =>
    absurd ((hw hs).continues.opened m ⟨s.vm, putBack_get s m⟩) hn
  cases hv : w.machines.get m with
  | «open» vm =>
    have same : putBack ⟨vm, { w with machines := w.machines.put m .busy }⟩ m = w := putBack_busy hv
    have rel (t : Lua.Sys World) (ht : t = ⟨vm, { w with machines := w.machines.put m .busy }⟩) : (along m).rel s t := by
      intro hs
      rw [ht, same]
      exact hw hs
    dsimp only
    have ends := hr ⟨vm, { w with machines := w.machines.put m .busy }⟩
    cases e : r ⟨vm, { w with machines := w.machines.put m .busy }⟩ with
    | ok a t =>
      rw [e] at ends
      exact rel t ends
    | error x t =>
      rw [e] at ends
      exact ⟨rel t ends, trivial⟩
  | busy =>
    have shut : ¬ w.Open m := by
      rintro ⟨vm, h⟩
      cases hv.symm.trans h
    exact ⟨lost shut _, trivial⟩
  | closed =>
    have shut : ¬ w.Open m := by
      rintro ⟨vm, h⟩
      cases hv.symm.trans h
    exact ⟨lost shut _, trivial⟩

/-- An operation of the host carried out from inside a machine. -/
theorem inMachine_after {m : Nat} {act : H α} {dropped : α} (he : env.Follows) (s : Lua.Sys World)
    (h : (putBack s m).Sound → Leads env (putBack s m) act) : (along m).After s (H.inMachine env m act dropped s) := by
  have led (hs : (putBack s m).Sound) : Moves (putBack s m) (final (act env (putBack s m))) :=
    (h hs).after he hs _ .refl
  unfold H.inMachine
  dsimp only
  rw [← putBack]
  cases e : act env (putBack s m) with
  | ok a w =>
    rw [e] at led
    exact goesOn s w led fun _ => rfl
  | error x w =>
    rw [e] at led
    cases x with
    | failure f => exact goesOn s w led fun _ => rfl
    | signal g => exact goesOn s w led fun _ => rfl

/-- The functions of a machine make moves, to whatever depth they call each other. -/
theorem nativesTo_within (depth m : Nat) : (nativesTo depth m).Within (along m) := by
  induction depth generalizing m with
  | zero =>
    intro services hs f upvalues args
    exact .throw_fault _ (by decide)
  | succ depth ih =>
    intro services hs f upvalues args
    have follows : (⟨nativesTo depth⟩ : Env).Follows := ih
    cases f with
    | library lib name => exact Lua.Library.apply_within hs _ _ _ _
    | foreign id =>
      constructor
      intro s
      let f := s.host.foreigns.get id
      let e : Event := .entered m id (s.host.isKept m (.foreign id))
      let rest : M World (List Lua.Value) := do
        note e
        let n ← H.inMachine ⟨nativesTo depth⟩ m (f.call ⟨m, s.vm.running⟩) 0
        Lua.Stack.popAll s.vm.running (int32 n).toNat
      have run : nativesTo (depth + 1) m services (.foreign id) upvalues args s =
          (if !f.machines.contains m then M.fault .strayFunction >>= fun _ => rest else rest) s := rfl
      rw [run]
      cases given : f.machines.contains m with
      | false => exact ⟨(along m).refl s, trivial⟩
      | true =>
        let s₁ : Lua.Sys World := { s with host := { s.host with journal := e :: s.host.journal } }
        have member : m ∈ f.machines := List.contains_iff_mem.mp given
        have entered : (along m).rel s s₁ := fun _ => (Move.entered ⟨s.vm, putBack_get s m⟩ member).moves
        have called : (along m).After s₁ (H.inMachine ⟨nativesTo depth⟩ m (f.call ⟨m, s.vm.running⟩) 0 s₁) :=
          inMachine_after follows s₁ fun hs => .foreign hs f (hs.routines id) _ (hs.given id m member)
        have noted : rest s = (H.inMachine ⟨nativesTo depth⟩ m (f.call ⟨m, s.vm.running⟩) 0 >>= fun n =>
            Lua.Stack.popAll s.vm.running (int32 n).toNat) s₁ := rfl
        rw [Bool.not_true, if_neg Bool.false_ne_true, noted]
        refine Lua.Frame.After.of_rel ?_ entered
        simp only [Bind.bind, EStateM.bind]
        cases done : H.inMachine ⟨nativesTo depth⟩ m (f.call ⟨m, s.vm.running⟩) 0 s₁ with
        | ok n t =>
          rw [done] at called
          exact ((Lua.Stack.popAll_within _ _).after t).of_rel called
        | error x t =>
          rw [done] at called
          exact called

/-- Whatever the programs of a host's machines call, the world makes moves. -/
theorem Env.full_follows : Env.full.Follows := nativesTo_within depthLimit

end LuaHost.Host
