import LuaHost.Proofs.Moves.Operations
import LuaHost.Session.Run

set_option autoImplicit false

/-!
# Commands make moves

The commands of a session that neither make nor close nor move a state, nor change what is kept under a
name, make moves only.
-/

namespace LuaHost.Session

open Host
open Binding (Runtime)

variable {env : Env} {base : World} {α β : Type}

/-- A failure that leaves a runtime honest: a chunk that cannot be loaded is not said to be loaded. -/
def Patch.Honest : Patch → Prop
  | .breakChunks b => b.status ≠ 0
  | _ => True

/-- A command whose calls of the interface, if it makes any by itself, are ordinary, and that drops no function
a machine may still call. -/
def Command.Plain : Command → Prop
  | .openLib _ loader _ | .wrap loader => loader.Local
  | .api calls | .guard calls _ => ∀ c ∈ calls, ∃ name method, c = .plain name method ∧ ∀ r, (method.program r).All Ordinary
  | .releaseMachine => False
  | .patch p => p.Honest
  | _ => True

/-- A command that makes, closes or moves no state, closes no registry, patches no runtime and keeps and drops no name. -/
def Command.Works : Command → Prop
  | .new .. | .move _ | .take _ | .close | .delete | .within .. | .select .. | .drop _ | .closeRegistry | .patch _ => False
  | _ => True

end LuaHost.Session

namespace LuaHost.Host.Leads

open Session
open Binding (Runtime)

variable {env : Env} {base : World} {α β : Type}

/-! ## What names stand for -/

/-- The state of a name goes with its registry as it did at first. -/
theorem bind_stateOf (hs : base.Sound) (name : Text) {next : State → H β} (k : ∀ s, s.Goes base → Leads env base (next s)) :
    Leads env base (stateOf name >>= next) := by
  unfold stateOf
  rw [bind_assoc]
  exact bind (stateNamed _) fun id => bind_state hs id k

theorem lookup_mem {key : Text} {a : α} {xs : List (Text × α)} (h : Binding.Surroundings.lookup key xs = some a) :
    ∃ name, (name, a) ∈ xs := by
  induction xs with
  | nil => cases h
  | cons x rest ih =>
    unfold Binding.Surroundings.lookup at h
    split at h
    · cases h
      exact ⟨x.1, List.mem_cons_self⟩
    · obtain ⟨name, hmem⟩ := ih h
      exact ⟨name, List.mem_cons_of_mem _ hmem⟩

theorem selectorOf_kept (env : Env) (w : World) (s : State) (name : Text) (keys : List Value) :
    selectorOf s (.kept name keys) env w = (match Binding.Surroundings.lookup name w.stored with
      | some (.selector sel) => Pure.pure (sel.extend keys)
      | _ => H.fail (.raised "KeyError" (Quoted.text name)) : H Selector) env w := rfl

/-- A selector, from a state or kept, goes with its registry. -/
theorem bind_selectorOf (hs : base.Sound) {s : State} (hg : s.Goes base) (way : Way) {next : Selector → H β}
    (k : ∀ sel, sel.Goes base → Leads env base (next sel)) : Leads env base (selectorOf s way >>= next) := by
  unfold selectorOf
  cases way with
  | path keys => exact k _ (hg.select _ _)
  | kept name keys =>
    constructor
    intro he _ w hw
    change Moves base (final ((selectorOf s (.kept name keys) >>= next) env w))
    have chosen := selectorOf_kept env w s name keys
    rw [hw.continues.stored] at chosen
    have failed {f : Failure} (run : selectorOf s (.kept name keys) env w = .error (.failure f) w) :
        Moves base (final ((selectorOf s (.kept name keys) >>= next) env w)) := by
      rw [bind_error run]
      exact hw
    cases found : Binding.Surroundings.lookup name base.stored with
    | none =>
      rw [found] at chosen
      exact failed chosen
    | some stored =>
      rw [found] at chosen
      cases stored with
      | value v => exact failed chosen
      | selector sel =>
        obtain ⟨key, hmem⟩ := lookup_mem found
        rw [bind_ok chosen]
        exact (k (sel.extend keys) fun m => hs.stored key sel m hmem).after he hs w hw

theorem setHandler (s : State) (h : Handler) : Leads env base (setHandler s h) :=
  modify _ fun _ => ⟨rfl, rfl, rfl, rfl, rfl, rfl, rfl, rfl, rfl, rfl⟩

theorem referenceNamed (name : Text) : Leads env base (referenceNamed name) := by
  unfold Session.referenceNamed
  refine bind get fun w => ?_
  split
  · exact pure _
  · exact fail _

theorem describeHandle (s : State) : Leads env base (describeHandle s) := bind get fun _ => pure _

theorem describeReference (id : Nat) : Leads env base (describeReference id) :=
  bind (bind get fun _ => pure _) fun _ => bind get fun _ =>
    bind (bind (bind get fun _ => pure _) fun _ => bind (registry _) fun _ => pure _) fun _ => pure _

theorem setInput (m : Nat) (input : ByteArray) : Leads env base (setInput m input) :=
  onMachine fun _ => .modifyAny _ fun _ => .of_eq rfl rfl rfl rfl rfl

/-! ## Calls on a stack -/

section Calls

variable {calls : List RoutineCall}
  (h : ∀ c ∈ calls, ∃ name method, c = .plain name method ∧ ∀ r, (method.program r).All Ordinary)

include h

theorem apiResults (s : State) : Leads env base (apiResults s calls) := by
  induction calls with
  | nil => exact pure _
  | cons c rest ih =>
    obtain ⟨name, method, rfl, ordinary⟩ := h c List.mem_cons_self
    exact bind (runWith _ _ ordinary) fun v => bind (ih fun c hc => h c (List.mem_cons_of_mem _ hc)) fun vs => pure _

theorem apiRecorded (s : State) : Leads env base (apiRecorded s calls) := by
  induction calls with
  | nil => exact pure _
  | cons c rest ih =>
    obtain ⟨name, method, rfl, ordinary⟩ := h c List.mem_cons_self
    have next : Leads env base (Session.apiRecorded s rest) := ih fun c hc => h c (List.mem_cons_of_mem _ hc)
    unfold Session.apiRecorded
    split
    · exact bind (bind (runWith _ _ ordinary) fun v => recordCall _ _) fun _ => next
    · exact bind (fault _) fun _ => next

/-- The body of a guard, once the depth of the stack is known. -/
theorem guardBody (s : State) (depth : Value) (raises : Option (String × Text)) :
    Leads env base (do
      Host.recordCall "depth" [depth]
      Session.apiRecorded s calls
      match raises with
      | some (kind, message) => raiseFailure kind message
      | none => Pure.pure ()) := by
  refine bind (recordCall _ _) fun _ => bind (apiRecorded h s) fun _ => ?_
  split
  · exact fail _
  · exact pure _

end Calls

/-! ## Functions that are made -/

theorem wrap {routine : Routine} (id : Nat) (h : routine.Local) : Leads env base (Registry.wrap id routine) := by
  refine of_moves fun he w hs hw => ?_
  obtain ⟨f, w', ok, moves, -⟩ := wrap_grants env id h w
  rw [ok]
  exact moves

theorem madeBy {w w' : World} (h : Moves w w') {registry : Nat} {f : Lua.Native} (hf : w.MadeBy registry f) :
    w'.MadeBy registry f := by
  intro n hn
  obtain ⟨size, same, home⟩ := hf n hn
  obtain ⟨registry', home'⟩ := h.continues.foreign n size
  exact ⟨Nat.lt_of_lt_of_le size h.continues.foreigns, registry'.trans same,
    home'.trans (home.trans (h.continues.machineOf registry).symm)⟩

/-- A function that was made through a state's registry opens a module. -/
theorem openMade {s : State} (hg : s.Goes base) (name : Value) {f : Lua.Native} (hf : base.MadeBy s.registry f) :
    Leads env base (s.openLib name (.native f)) := by
  refine openLib name (fun w hw => ?_) hg
  obtain ⟨w', kept, moves, grants⟩ := keep_grants env s.registry (madeBy hw hf)
  exact ⟨f, w', bind_ok kept, moves, grants⟩

/-- A function made out of a local routine goes on in a world in which it was made through its registry. -/
theorem bind_foreign {routine : Routine} (h : routine.Local) (id : Nat) (isDirect : Bool) {next : Lua.Native → H β}
    (k : ∀ w f, Moves base w → w.MadeBy id f → Leads env w (next f)) :
    Leads env base (Registry.foreign id routine isDirect >>= next) := by
  refine of_moves fun he w hs hw => ?_
  let made : Foreign := ⟨routine, isDirect, (w.registries.get id).runtime, id, (w.registries.get id).reporter, w.machineOf id, []⟩
  let w₁ : World := { w with foreigns := w.foreigns.add made }
  have first : Moves w w₁ := (Move.made h isDirect id).moves
  have by_ : w₁.MadeBy id (.foreign w.foreigns.size) := by
    rintro n ⟨⟩
    refine ⟨Nat.lt_of_lt_of_eq (Nat.lt_succ_self _) (Pool.size_add _ _).symm, ?_, ?_⟩
    · exact congrArg Foreign.registry (Pool.get_add_self _ _)
    · exact congrArg Foreign.home (Pool.get_add_self _ _)
  exact first.trans ((k w₁ _ (hw.trans first) by_).after he (first.sound hs) w₁ .refl)

/-! ## Commands -/

/-- A registry, if one is wanted, goes with the machine of its state. -/
theorem wanted_pairs {s : State} (hg : s.Goes base) (isWanted : Bool) (id : Nat) (t : Handle)
    (hid : (if isWanted then some s.registry else none) = some id) (ht : s.handle = some t) : base.Pairs t.machine id := by
  obtain ⟨m, hm, rfl⟩ := Option.map_eq_some_iff.mp ht
  cases isWanted with
  | false => cases hid
  | true =>
    cases hid
    exact hg m hm

/-- The functions that a library exports are not functions of the host. -/
theorem symbol_madeBy {symbol : String} {f : Lua.Native} (h : Lua.Library.ofSymbol? symbol = some f) {registry : Nat} :
    base.MadeBy registry f := by
  rintro n rfl
  unfold Lua.Library.ofSymbol? at h
  dsimp only at h
  split at h
  · cases h
  · split at h
    · cases h
    · cases h

theorem command (hs : base.Sound) (name : Text) {c : Command} (hp : c.Plain) (hw : c.Works) :
    Leads env base (run name c) := by
  cases c with
  | new | move | take | close | delete | within | select | drop | closeRegistry | patch => exact hw.elim
  | releaseMachine => exact hp.elim
  | execute source => exact bind_stateOf hs _ fun s hg => bind (stateExecute s _) fun _ => pure _
  | write file content =>
    exact bind (ofExcept _) fun path => bind (modify _ fun _ => ⟨rfl, rfl, rfl, rfl, rfl, rfl, rfl, rfl, rfl, rfl⟩) fun _ => pure _
  | makeDirectory file =>
    exact bind (ofExcept _) fun path => bind (modify _ fun _ => ⟨rfl, rfl, rfl, rfl, rfl, rfl, rfl, rfl, rfl, rfl⟩) fun _ => pure _
  | loadFile file form =>
    exact bind (ofExcept _) fun path => bind_stateOf hs _ fun s hg => bind (loadFile s _ _) fun _ => pure _
  | get way =>
    exact bind_stateOf hs _ fun s hg => bind_selectorOf hs hg way fun sel hsel => bind (selectorGet hsel) fun _ => pure _
  | «exists» way =>
    exact bind_stateOf hs _ fun s hg => bind_selectorOf hs hg way fun sel hsel => bind (exists_ hsel) fun _ => pure _
  | ref way =>
    exact bind_stateOf hs _ fun s hg => bind_selectorOf hs hg way fun sel hsel => bind (ref hsel) fun _ => pure _
  | call way args =>
    exact bind_stateOf hs _ fun s hg => bind_selectorOf hs hg way fun sel hsel => bind (selectorCall hsel _) fun _ => pure _
  | set way v byItem =>
    exact bind_stateOf hs _ fun s hg => bind_selectorOf hs hg way fun sel hsel => bind (set hsel _) fun _ => pure _
  | showSelector way =>
    exact bind_stateOf hs _ fun s hg => bind_selectorOf hs hg way fun sel hsel => bind get fun _ => pure _
  | globalNames => exact bind_stateOf hs _ fun s hg => bind (globalNames s) fun _ => pure _
  | size => exact bind_stateOf hs _ fun s hg => bind (size s) fun _ => pure _
  | collect => exact bind_stateOf hs _ fun s hg => bind (collect s) fun _ => pure _
  | «show» => exact bind_stateOf hs _ fun s hg => pure _
  | interact input =>
    refine bind_stateOf hs _ fun s hg => ?_
    have prompt : Leads env base (do
        s.interact
        return nothing) := bind (interact s) fun _ => pure _
    dsimp only
    split
    · exact bind (setInput _ _) fun _ => prompt
    · exact prompt
  | handle => exact bind_stateOf hs _ fun s hg => bind (describeHandle s) fun _ => pure _
  | handler kind => exact bind_stateOf hs _ fun s hg => bind (setHandler s _) fun _ => pure _
  | report code message =>
    exact bind_stateOf hs _ fun s hg => bind (registry _) fun _ => bind (report _ _ _ _) fun _ => pure _
  | openLib lib loader isDirect =>
    refine bind_stateOf hs _ fun s hg => ?_
    dsimp only
    split
    · refine bind_foreign hp _ _ fun w f hw hf => ?_
      rw [pure_bind]
      exact bind (openMade (fun m hm => hw.continues.pairs (hg m hm)) lib hf) fun _ => pure _
    · rw [pure_bind]
      exact bind (openLib lib (fun w _ => wrap_grants env s.registry hp w) hg) fun _ => pure _
  | openNative lib symbol =>
    refine bind_stateOf hs _ fun s hg => ?_
    dsimp only
    split
    · next f found => exact bind (openMade hg lib (symbol_madeBy found)) fun _ => pure _
    · exact bind (fail _) fun _ => pure _
  | copy => exact fail _
  | referenceInfo ref => exact bind (referenceNamed _) fun _ => bind (describeReference _) fun _ => pure _
  | release ref => exact bind (referenceNamed _) fun _ => bind (release _) fun _ => pure _
  | pushReference ref state =>
    have pushed (l : Option Handle) : Leads env base (do
        Reference.push (← Session.referenceNamed ref) l
        return nothing) := bind (referenceNamed _) fun _ => bind (referencePush _ _) fun _ => pure _
    cases state with
    | none => exact pushed none
    | some n => exact bind (bind_stateOf hs _ fun s hg => pure _) fun m => pushed _
  | registryValue ref =>
    exact bind (referenceNamed _) fun _ => bind (bind get fun _ => pure _) fun _ =>
      bind_stateOf hs _ fun s hg => bind (registryValue _ _) fun _ => pure _
  | pinTop => exact bind_stateOf hs _ fun s hg => bind (pinTop _ _ fun _ none => by cases none) fun _ => pure _
  | pushChunk source => exact bind_stateOf hs _ fun s hg => bind (pushChunk _ _) fun _ => pure _
  | dropKept =>
    exact bind get fun _ => bind (modify _ fun _ => ⟨rfl, rfl, rfl, rfl, rfl, rfl, rfl, rfl, rfl, rfl⟩) fun _ =>
      bind (dropAll _) fun _ => pure _
  | wrap r => exact bind_stateOf hs _ fun s hg => bind (discard (wrap _ hp)) fun _ => pure _
  | toHost i withRegistry =>
    exact bind_stateOf hs _ fun s hg => bind (toHost _ _ _ _ (wanted_pairs hg withRegistry)) fun _ => pure _
  | pushHost v withRegistry =>
    exact bind_stateOf hs _ fun s hg => bind (pushHost _ _ _ _ (wanted_pairs hg withRegistry)) fun _ => pure _
  | api calls => exact bind_stateOf hs _ fun s hg => bind (apiResults hp s) fun _ => pure _
  | guard calls raises =>
    refine bind_stateOf hs _ fun s hg => bind (guarded _ _ ?_) fun _ => pure _
    dsimp only
    split
    · exact bind (runWith _ _ fun _ => Mute.getTop) fun depth => guardBody hp s depth raises
    · exact guardBody hp s _ raises

end LuaHost.Host.Leads
