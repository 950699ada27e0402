import LuaHost.Host.State
import LuaHost.Proofs.Twins.Programs

set_option autoImplicit false

/-!
# Operations of registries, selectors and states on twin worlds

An operation on the twin of a registry, a selector or a state mirrors the operation on the thing itself. What
it makes refers to registries that were made, if that of the operation was.
-/

namespace LuaHost.Host

open Binding (Program Runtime)

variable {ρ : Guise} {b : Roll} {α β β' : Type} {env : Env}

namespace Mirrors

variable {R : Roll → β → β' → Prop}

/-! ## Registries -/

/-- The twin of a registry is looked at in its stead. -/
theorem bindRegistry (id : Nat) {next : Registry → H β} {next' : Registry → H β'}
    (k : ∀ c, b.Grows c → ∀ r, r.reporter < max 1 c.reporters.size → Mirrors env ρ c R (next r) (next' (ρ.registry r))) :
    Mirrors env ρ b R (Registry.get id >>= next) (Registry.get (ρ.registries.image id) >>= next') := by
  have get : Mirrors env ρ b (fun c r r' => r' = ρ.registry r ∧ r.reporter < max 1 c.reporters.size)
      (Registry.get id) (Registry.get (ρ.registries.image id)) :=
    readTo fun w w' twin => ⟨twin.registry id, twin.roll.sound.registries id⟩
  refine bindTo get fun c hc r r' hr => ?_
  obtain ⟨rfl, hr⟩ := hr
  exact k c hc r hr

theorem modifyRegistry (id : Nat) {f : Registry → Registry} (hf : ∀ r, f (ρ.registry r) = ρ.registry (f r))
    (hr : ∀ r, (f r).reporter = r.reporter) :
    Mirrors env ρ b Same (Registry.modify id f) (Registry.modify (ρ.registries.image id) f) :=
  modifyGet fun w w' twin => ⟨twin.withRegistries (twin.roll.registries.modify id (hf _)) (Pool.size_le_size_modify _ _ _)
    (Pool.all_modify (P := fun r : Registry => r.reporter < max 1 w.reporters.size) twin.roll.sound.registries id
      ((hr _).symm ▸ twin.roll.sound.registries id)), rfl⟩

/-- A new reference to a registry that was made. -/
theorem pinTop {id : Nat} (hid : id < max 1 b.registries.size) (l : Option Handle) :
    Mirrors env ρ b Same (Registry.pinTop id l) (Registry.pinTop (ρ.registries.image id) l) := by
  refine bindRegistry id fun c hc r _ => bind (runWith _ _ _) fun slot => modifyGet fun w w' twin => ⟨?_, ?_⟩
  · have made : id < max 1 w.registries.size := Roll.below_mono hid (Nat.le_trans hc.registries twin.roll.grown.registries)
    exact twin.withReferences (twin.roll.references.add ⟨id, Binding.Api.intOf slot⟩)
      (Pool.all_add (P := fun r : Reference => r.registry < max 1 w.registries.size) twin.roll.sound.references made)
  · exact twin.roll.references.size

theorem registryPush (id : Nat) (slot : Int) (l : Option Handle) :
    Mirrors env ρ b Same (Registry.push id slot l) (Registry.push (ρ.registries.image id) slot l) := by
  refine bindRegistry id fun c _ r _ => ?_
  have rest : Mirrors env ρ c Same (Functor.discard (Host.runWith r.runtime (l <|> r.handle) fun rt => Binding.Api.pushRef rt slot))
      (Functor.discard (Host.runWith r.runtime (l <|> r.handle) fun rt => Binding.Api.pushRef rt slot)) :=
    discard (runWith _ _ _)
  exact ite (bind (fail _) fun _ => rest) rest

theorem unpin (id : Nat) (slot : Int) : Mirrors env ρ b Same (Registry.unpin id slot) (Registry.unpin (ρ.registries.image id) slot) :=
  bindRegistry id fun _ _ _ _ => ite (runWith _ _ _) (pure _)

theorem pushChunk (id : Nat) (source : Text) :
    Mirrors env ρ b Same (Registry.pushChunk id source) (Registry.pushChunk (ρ.registries.image id) source) := by
  refine bindRegistry id fun c _ r _ => bind (runtime _) fun rt => ?_
  have pushed (c : Roll) (slot : Int) : Mirrors env ρ c Same
      (Functor.discard (Host.runWith r.runtime r.handle fun rt => Binding.Api.pushRef rt slot) >>= fun _ => Pure.pure true : H Bool)
      (Functor.discard (Host.runWith r.runtime r.handle fun rt => Binding.Api.pushRef rt slot) >>= fun _ => Pure.pure true) :=
    bind (discard (runWith _ _ _)) fun _ => pure true
  dsimp only [Guise.registry]
  generalize Option.map _ _ = cached
  cases cached with
  | some slot => exact pushed _ slot
  | none =>
    refine bind (runWith _ _ _) fun status => ite (bind (reportTop r.reporter _ _ _) fun _ => pure false) ?_
    exact bind (runWith _ _ _) fun slot => bind (modifyRegistry id (fun _ => rfl) fun _ => rfl) fun _ => pushed _ _

theorem keep (id : Nat) (f : Lua.Native) : Mirrors env ρ b Same (Registry.keep id f) (Registry.keep (ρ.registries.image id) f) := by
  refine bindRegistry id fun c _ r _ => ?_
  dsimp only [Guise.registry]
  cases r.machine with
  | none => exact pure ()
  | some m => exact change (fun w => w.keep m f) (fun _ => rfl) fun _ => rfl

/-- A new function refers to a registry that was made, and to its reporter. -/
theorem foreign {id : Nat} (hid : id < max 1 b.registries.size) (routine : Routine) (isDirect : Bool) :
    Mirrors env ρ b Same (Registry.foreign id routine isDirect) (Registry.foreign (ρ.registries.image id) routine isDirect) := by
  refine bindRegistry id fun c hc r hr => modifyGet fun w w' twin => ⟨?_, ?_⟩
  · have grown := hc.trans twin.roll.grown
    have has : w.roll.Has id r.reporter := ⟨Roll.below_mono hid grown.registries, Roll.below_mono hr twin.roll.grown.reporters⟩
    exact twin.withForeigns (twin.roll.foreigns.add ⟨routine, isDirect, r.runtime, id, r.reporter, r.machine, []⟩)
      (Pool.all_add (P := fun f : Foreign => w.roll.Has f.registry f.reporter) twin.roll.sound.foreigns has)
  · exact congrArg Lua.Native.foreign twin.roll.foreigns.size

theorem wrap {id : Nat} (hid : id < max 1 b.registries.size) (routine : Routine) :
    Mirrors env ρ b Same (Registry.wrap id routine) (Registry.wrap (ρ.registries.image id) routine) :=
  bind (foreign hid routine false) fun f => bind (keep id f) fun _ => pure f

theorem closeRegistry (id : Nat) : Mirrors env ρ b Same (Registry.close id) (Registry.close (ρ.registries.image id)) := by
  refine bindRegistry id fun c _ r _ => ?_
  have ends : Mirrors env ρ c Same (Registry.modify id fun r => { r with chunks := [], machine := none })
      (Registry.modify (ρ.registries.image id) fun r => { r with chunks := [], machine := none }) :=
    modifyRegistry id (fun _ => rfl) fun _ => rfl
  exact ite (bind (forM (fun entry => runWith _ _ _) _) fun _ => ends) ends

/-! ## References -/

theorem bindReference (id : Nat) {next : Reference → H β} {next' : Reference → H β'}
    (k : ∀ r, Mirrors env ρ b R (next r) (next' (ρ.reference r))) :
    Mirrors env ρ b R (Reference.get id >>= next) (Reference.get id >>= next') :=
  bindGet fun w _ twin => by
    rw [twin.reference]
    exact k _

theorem isValid (id : Nat) : Mirrors env ρ b Same (Reference.isValid id) (Reference.isValid id) :=
  bindReference id fun r => bindRegistry r.registry fun _ _ _ _ => pure _

theorem referencePush (id : Nat) (l : Option Handle) : Mirrors env ρ b Same (Reference.push id l) (Reference.push id l) :=
  bindReference id fun r => registryPush r.registry r.slot l

theorem release (id : Nat) : Mirrors env ρ b Same (Reference.release id) (Reference.release id) := by
  refine bindReference id fun r => ?_
  have forgotten : Mirrors env ρ b Same
      (MonadState.modifyGet fun w : World =>
        ((), { w with references := w.references.modify id fun r => { r with slot := Binding.noReference } }) : H Unit)
      (MonadState.modifyGet fun w : World =>
        ((), { w with references := w.references.modify id fun r => { r with slot := Binding.noReference } })) :=
    modifyGet fun w w' twin => ⟨twin.withReferences (twin.roll.references.modify id rfl)
      (Pool.all_modify (P := fun r : Reference => r.registry < max 1 w.registries.size) twin.roll.sound.references id
        (twin.roll.sound.references id)), rfl⟩
  exact ite (bind (unpin r.registry r.slot) fun _ => forgotten) forgotten

/-! ## Values -/

theorem toHost (runtime : Nat) (l : Option Handle) (i : Int) {registry : Option Nat}
    (h : ∀ id, registry = some id → id < max 1 b.registries.size) :
    Mirrors env ρ b Same (toHost runtime l i registry) (toHost runtime l i (registry.map ρ.registries.image)) := by
  unfold Host.toHost
  refine bind (runWith _ _ _) fun tag => ite (pure _) ?_
  refine ite (bind (runWith _ _ _) fun _ => pure _) ?_
  refine ite (bind (runWith _ _ _) fun isInt => ite (runWith _ _ _) (runWith _ _ _)) ?_
  refine ite (bind (runWith _ _ _) fun _ => pure _) ?_
  cases registry with
  | none => exact bind (runWith _ _ _) fun _ => fail _
  | some id => exact bind (runWith _ _ _) fun _ => bind (pinTop (h id rfl) l) fun _ => pure _

theorem pushHost (runtime : Nat) (l : Option Handle) (v : Value) {registry : Option Nat}
    (h : ∀ id, registry = some id → id < max 1 b.registries.size) :
    Mirrors env ρ b Same (pushHost runtime l v registry) (pushHost runtime l v (registry.map ρ.registries.image)) := by
  have wrapped (routine : Routine) : Mirrors env ρ b Same (pushHost.wrapped runtime l registry routine)
      (pushHost.wrapped runtime l (registry.map ρ.registries.image) routine) := by
    unfold pushHost.wrapped
    cases registry with
    | none => exact fail _
    | some id => exact bind (wrap (h id rfl) routine) fun f => runWith _ _ _
  unfold Host.pushHost
  cases v with
  | int n => exact ite (runWith _ _ _) (bind (ofExcept _) fun _ => runWith _ _ _)
  | reference id => exact referencePush id l
  | callable f => exact wrapped _
  | pointer f => exact wrapped _
  | tuple | list | set | dict | other => exact fail _
  | _ => exact runWith _ _ _

theorem registryValue {id : Nat} (hid : id < max 1 b.registries.size) (slot : Int) :
    Mirrors env ρ b Same (Registry.value id slot) (Registry.value (ρ.registries.image id) slot) := by
  refine bindRegistry id fun c hc r _ => guarded _ _ (bind (registryPush _ _ _) fun _ => toHost _ _ _ ?_)
  rintro n ⟨⟩
  exact Roll.below_mono hid hc.registries

/-! ## Selectors -/

section Selectors

variable {s : Selector} (hs : s.registry < max 1 b.registries.size)

include hs

theorem selectorValue (i : Int) : Mirrors env ρ b Same (Host.toHost s.runtime s.handle i (some s.registry))
    (Host.toHost s.runtime s.handle i (some (ρ.selector s).registry)) := by
  refine toHost _ _ _ ?_
  rintro _ ⟨⟩
  exact hs

theorem selectorArgument (v : Value) : Mirrors env ρ b Same (Host.pushHost s.runtime s.handle v (some s.registry))
    (Host.pushHost s.runtime s.handle v (some (ρ.selector s).registry)) := by
  refine pushHost _ _ _ ?_
  rintro _ ⟨⟩
  exact hs

theorem pushEntry (key : Value) : Mirrors env ρ b Same (s.pushEntry key) ((ρ.selector s).pushEntry key) := by
  refine bind (discard (runWith _ _ _)) fun _ => bind (pushChunk _ _) fun pushed => ite (pure _) ?_
  refine bind (runWith _ _ _) fun _ => bind (selectorArgument hs key) fun _ => bind (runWith _ _ _) fun status => ?_
  refine bind (runtime _) fun rt => ite ?_ (bind (runWith _ _ _) fun _ => pure _)
  exact bind (reportTop _ _ _ _) fun _ => pure _

theorem pushKeys (tag : Int) (keys : List Value) :
    Mirrors env ρ b Same (s.pushKeys tag keys) ((ρ.selector s).pushKeys tag keys) := by
  induction keys generalizing tag with
  | nil => exact pure _
  | cons key rest ih =>
    refine ite (bind (runWith _ _ _) fun _ => pure _) (bind (pushEntry hs key) fun found => ?_)
    cases found with
    | none => exact pure _
    | some tag => exact ih tag

theorem selectorPush (keys : List Value) : Mirrors env ρ b Same (s.push keys) ((ρ.selector s).push keys) :=
  bind (runWith _ _ _) fun _ => pushKeys hs 5 keys

/-- What follows on finding the value of a selector, inside a guard. -/
theorem found {none none' : H α} {some some' : Int → H α} (keys : List Value) (h : Mirrors env ρ b Same none none')
    (k : ∀ tag, Mirrors env ρ b Same (some tag) (some' tag)) :
    Mirrors env ρ b Same
      (s.guard do
        match ← s.push keys with
        | .none => none
        | .some tag => some tag)
      ((ρ.selector s).guard do
        match ← (ρ.selector s).push keys with
        | .none => none'
        | .some tag => some' tag) := by
  refine guarded _ _ (bind (selectorPush hs keys) fun found => ?_)
  cases found with
  | none => exact h
  | some tag => exact k tag

theorem exists_ : Mirrors env ρ b Same s.exists_ (ρ.selector s).exists_ :=
  ite (pure _) (found hs _ (pure _) fun _ => pure _)

theorem selectorGet : Mirrors env ρ b Same s.get (ρ.selector s).get :=
  ite (pure _) (found hs _ (pure _) fun _ => selectorValue hs (-1))

theorem ref : Mirrors env ρ b Same s.ref (ρ.selector s).ref :=
  ite (pure _) (found hs _ (pure _) fun _ => bind (pinTop hs _) fun _ => pure _)

theorem set (v : Value) : Mirrors env ρ b Same (s.set v) ((ρ.selector s).set v) := by
  refine ite (pure _) (bind (runtime _) fun rt => found hs _ (pure _) fun tag => ite ?_ ?_)
  · refine bindGet fun w w' twin => ?_
    have same : H.slotOf w' = H.slotOf w := by
      funext id
      unfold H.slotOf
      rw [twin.reference]
      rfl
    rw [same]
    exact bind (ofExcept _) fun way => bind (runWith _ _ _) fun kind => bind (report _ _ _ _) fun _ => pure _
  · refine bind (discard (runWith _ _ _)) fun _ => bind (pushChunk _ _) fun pushed => ite (pure _) ?_
    refine bind (runWith _ _ _) fun _ => bind (selectorArgument hs _) fun _ => bind (selectorArgument hs v) fun _ => ?_
    exact bind (runWith _ _ _) fun status => ite (bind (reportTop _ _ _ _) fun _ => pure _) (pure _)

theorem pushAll (vs : List Value) : Mirrors env ρ b Same (s.pushAll vs) ((ρ.selector s).pushAll vs) := by
  induction vs with
  | nil => exact pure _
  | cons v rest ih => exact bind (selectorArgument hs v) fun _ => ih

theorem results (n : Nat) (i : Int) : Mirrors env ρ b Same (s.results n i) ((ρ.selector s).results n i) := by
  induction n generalizing i with
  | zero => exact pure _
  | succ n ih => exact bind (selectorValue hs i) fun v => bind (ih _) fun vs => pure _

theorem selectorCall (args : List Value) : Mirrors env ρ b Same (s.call args) ((ρ.selector s).call args) := by
  refine ite (pure _) (bind (runtime _) fun rt => found hs _ (pure _) fun tag => ?_)
  refine bind (discard (runWith _ _ _)) fun _ => bind (runWith _ _ _) fun top => bind (pushAll hs args) fun _ => ?_
  refine bind (runWith _ _ _) fun status => ite (bind (reportTop _ _ _ _) fun _ => pure _) ?_
  exact bind (runWith _ _ _) fun _ => bind (results hs _ _) fun _ => pure _

end Selectors

/-! ## States -/

section States

variable (s : State)

theorem stateExecute (source : Value) : Mirrors env ρ b Same (s.execute source) ((ρ.state s).execute source) :=
  ite (pure _) <| bind (runtime _) fun rt => guarded _ _ <| bind (runWith _ _ _) fun status =>
    ite (bind (reportTop _ _ _ _) fun _ => pure _) (pure _)

theorem loadFile (path : Value) (shown : Text) :
    Mirrors env ρ b Same (s.loadFile path shown) ((ρ.state s).loadFile path shown) := by
  have words (status : Int) (fallback : Text) : Mirrors env ρ b Same (do
      let message ← Host.runWith s.runtime s.handle fun r => Binding.Api.toText r (-1)
      H.report s.reporter status (message.getD (shown ++ fallback)) none
      return false) (do
      let message ← Host.runWith s.runtime s.handle fun r => Binding.Api.toText r (-1)
      H.report (ρ.reporters.image s.reporter) status (message.getD (shown ++ fallback)) none
      return false) := bind (runWith _ _ _) fun _ => bind (report _ _ _ _) fun _ => pure _
  refine ite (pure _) <| bind (runtime _) fun rt => guarded _ _ <| bind (runWith _ _ _) fun status => ite ?_ ?_
  · exact ite (words _ _) <| ite (words _ _) <| ite (words _ _) <| bind (debug _) fun _ => pure _
  · exact bind (runWith _ _ _) fun status => ite (pure _) (words _ _)

theorem interact : Mirrors env ρ b Same s.interact (ρ.state s).interact :=
  ite (pure _) (guarded _ _ (discard (runWith _ _ _)))

theorem collect : Mirrors env ρ b Same s.collect (ρ.state s).collect := ite (discard (runWith _ _ _)) (pure _)

theorem size : Mirrors env ρ b Same s.size (ρ.state s).size := ite (pure _) (bind (runWith _ _ _) fun _ => pure _)

theorem entryCount (l : Handle) (i : Int) : Mirrors env ρ b Same (State.entryCount l i) (State.entryCount l i) :=
  onMachine fun _ => .bind (Lua.Stack.tableAt_tied _ _) fun _ => .bind (.table _) fun _ => .pure _

theorem namesFrom (fuel : Nat) : Mirrors env ρ b Same (s.namesFrom fuel) ((ρ.state s).namesFrom fuel) := by
  induction fuel with
  | zero => exact pure _
  | succ fuel ih =>
    have onward (name : List Text) : Mirrors env ρ b Same (do
        Host.runWith s.runtime s.handle fun _ => Binding.Api.pop 1
        return name ++ (← s.namesFrom fuel)) (do
        Host.runWith s.runtime s.handle fun _ => Binding.Api.pop 1
        return name ++ (← (ρ.state s).namesFrom fuel)) := bind (runWith _ _ _) fun _ => bind ih fun _ => pure _
    refine bind (runWith _ _ _) fun more => ite (pure _) (bind (runWith _ _ _) fun tag => ?_)
    exact ite (bind (runWith _ _ _) fun _ => onward _) (ite (bind (runWith _ _ _) fun _ => onward _) (onward _))

theorem globalNames : Mirrors env ρ b Same s.globalNames (ρ.state s).globalNames := by
  have same : (ρ.state s).handle = s.handle := rfl
  unfold State.globalNames
  rw [same]
  cases s.handle with
  | none => exact pure _
  | some l =>
    exact guarded _ _ <| bind (runWith _ _ _) fun _ => bind (entryCount l _) fun _ => bind (runWith _ _ _) fun _ =>
      bind (namesFrom s _) fun _ => bind (runWith _ _ _) fun _ => pure _

theorem register (rt : Runtime) (name : Value) (f : Lua.Native) :
    Mirrors env ρ b Same (s.register rt name f) ((ρ.state s).register rt name f) := by
  refine guarded _ _ (ite (runWith _ _ _) ?_)
  refine bind (runWith _ _ _) fun _ => bind (runWith _ _ _) fun _ => bind (runWith _ _ _) fun status => ite ?_ (pure _)
  exact bind (runWith _ _ _) fun _ => debug _

theorem loaderFunction {registry : Nat} (hr : registry < max 1 b.registries.size) (loader : State.Loader) :
    Mirrors env ρ b Same (loader.function registry) (loader.function (ρ.registries.image registry)) := by
  cases loader with
  | routine r => exact wrap hr r
  | native f => exact bind (keep registry f) fun _ => pure f

theorem openLib (hs : s.registry < max 1 b.registries.size) (name : Value) (loader : State.Loader) :
    Mirrors env ρ b Same (s.openLib name loader) ((ρ.state s).openLib name loader) :=
  ite (pure _) <| bind (runtime _) fun rt => bind (loaderFunction hs loader) fun f => register s rt name f

end States

theorem releaseMachine (m : Nat) : Mirrors env ρ b Same (State.releaseMachine m) (State.releaseMachine m) :=
  change _ (fun _ => rfl) fun _ => rfl

end Mirrors
end LuaHost.Host
