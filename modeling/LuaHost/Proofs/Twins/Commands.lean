import LuaHost.Proofs.Moves.Commands
import LuaHost.Proofs.Twins.Handing

set_option autoImplicit false

/-!
# Commands on twin worlds

A name leads to twins in twin worlds, so every command of a session mirrors itself: it gives the same
result, and what it has made and kept are twins again.
-/

namespace LuaHost.Session

open Host

variable {α β : Type}

/-! ## Lists of names -/

section Names

variable (f : α → β) (key : Text)

theorem lookup_map (xs : List (Text × α)) :
    Binding.Surroundings.lookup key (xs.map fun e => (e.1, f e.2)) = (Binding.Surroundings.lookup key xs).map f := by
  induction xs with
  | nil => rfl
  | cons x rest ih =>
    simp only [List.map_cons, Binding.Surroundings.lookup, ih]
    split
    · rfl
    · rfl

theorem rebind_map (a : α) (xs : List (Text × α)) :
    rebind key (f a) (xs.map fun e => (e.1, f e.2)) = (rebind key a xs).map fun e => (e.1, f e.2) := by
  induction xs with
  | nil => rfl
  | cons x rest ih =>
    simp only [List.map_cons, rebind, ih]
    split
    · rfl
    · rfl

theorem unbind_map (xs : List (Text × α)) :
    unbind key (xs.map fun e => (e.1, f e.2)) = (unbind key xs).map fun e => (e.1, f e.2) := by
  unfold unbind
  rw [List.filter_map]
  rfl

theorem mem_rebind {name : Text} {a b : α} {xs : List (Text × α)} (h : (name, b) ∈ rebind key a xs) :
    b = a ∨ ∃ n, (n, b) ∈ xs := by
  induction xs with
  | nil =>
    cases List.mem_singleton.mp h
    exact .inl rfl
  | cons x rest ih =>
    unfold rebind at h
    split at h
    · cases List.mem_cons.mp h with
      | inl e =>
        cases e
        exact .inl rfl
      | inr h => exact .inr ⟨name, List.mem_cons_of_mem _ h⟩
    · cases List.mem_cons.mp h with
      | inl e => exact .inr ⟨name, e ▸ List.mem_cons_self⟩
      | inr h =>
        obtain e | ⟨n, h⟩ := ih h
        · exact .inl e
        · exact .inr ⟨n, List.mem_cons_of_mem _ h⟩

end Names
end LuaHost.Session

namespace LuaHost.Host

open Session
open Binding (Runtime)

variable {ρ : Guise} {b : Roll} {w w' : World} {α β β' : Type} {env : Env}

namespace World.Twin

theorem stateId? (h : w.Twin ρ b w') (name : Text) : stateId? w' name = (stateId? w name).map ρ.states.image := by
  have names : w'.names = w.names.map ρ.name := h.roll.names
  unfold Session.stateId?
  rw [names]
  exact lookup_map ρ.states.image name w.names

theorem lookup (h : w.Twin ρ b w') (name : Text) :
    Binding.Surroundings.lookup name w'.stored = (Binding.Surroundings.lookup name w.stored).map ρ.stored := by
  have stored : w'.stored = w.stored.map ρ.keeping := h.roll.stored
  rw [stored]
  exact lookup_map ρ.stored name w.stored

end World.Twin

namespace Mirrors

variable {R : Roll → β → β' → Prop}

/-! ## What names stand for -/

theorem bindStateOf (name : Text) {next : State → H β} {next' : State → H β'}
    (k : ∀ c, b.Grows c → ∀ s, c.Has s.registry s.reporter → Mirrors env ρ c R (next s) (next' (ρ.state s))) :
    Mirrors env ρ b R (stateOf name >>= next) (stateOf name >>= next') := by
  unfold stateOf
  rw [bind_assoc, bind_assoc]
  refine bindTo (stateNamed name) fun c hc id id' hid => ?_
  obtain ⟨rfl, -⟩ := hid
  exact bindState id fun d hd s hs => k d (hc.trans hd) s hs

theorem selectorOf {s : State} (hs : b.Has s.registry s.reporter) (way : Way) :
    Mirrors env ρ b (fun c sel sel' => sel' = ρ.selector sel ∧ c.Has sel.registry sel.reporter)
      (selectorOf s way) (selectorOf (ρ.state s) way) := by
  cases way with
  | path keys => exact return_ fun r hr => ⟨rfl, hs.mono hr⟩
  | kept name keys =>
    refine ⟨fun _ w w' twin => ?_⟩
    rw [Leads.selectorOf_kept, Leads.selectorOf_kept, twin.lookup]
    cases found : Binding.Surroundings.lookup name w.stored with
    | none => exact .error twin
    | some stored =>
      cases stored with
      | value v => exact .error twin
      | selector sel =>
        obtain ⟨key, mem⟩ := Leads.lookup_mem found
        exact .ok twin ⟨rfl, twin.roll.sound.stored key sel mem⟩

theorem bindSelector {s : State} (hs : b.Has s.registry s.reporter) (way : Way) {next : Selector → H β} {next' : Selector → H β'}
    (k : ∀ c, b.Grows c → ∀ sel, c.Has sel.registry sel.reporter → Mirrors env ρ c R (next sel) (next' (ρ.selector sel))) :
    Mirrors env ρ b R (Session.selectorOf s way >>= next) (Session.selectorOf (ρ.state s) way >>= next') := by
  refine bindTo (selectorOf hs way) fun c hc sel sel' h => ?_
  obtain ⟨rfl, h⟩ := h
  exact k c hc sel h

theorem machineOf (name : Text) : Mirrors env ρ b Same (machineOf name) (machineOf name) :=
  bindStateOf name fun _ _ s _ => pure s.machine

theorem setHandler (s : State) (h : Handler) : Mirrors env ρ b Same (setHandler s h) (setHandler (ρ.state s) h) :=
  modify fun _ _ twin => twin.withReporters (twin.roll.reporters.put s.reporter h) (Pool.size_le_size_put _ _ _)

theorem setInput (m : Nat) (input : ByteArray) : Mirrors env ρ b Same (setInput m input) (setInput m input) :=
  onMachine fun _ => .modifyAny _ fun _ => .of_eq rfl rfl rfl rfl rfl

theorem referenceNamed (name : Text) : Mirrors env ρ b Same (referenceNamed name) (referenceNamed name) := by
  refine bindGet fun w w' twin => ?_
  rw [twin.lookup]
  cases Binding.Surroundings.lookup name w.stored with
  | none => exact fail _
  | some stored =>
    cases stored with
    | selector sel => exact fail _
    | value v =>
      cases v with
      | reference id => exact pure id
      | _ => exact fail _

/-! ## Names that are bound and dropped -/

/-- A state that no name leads to is closed in both worlds. -/
theorem forget {id : Nat} (hid : id < b.states.size) : Mirrors env ρ b Same (forget id) (forget (ρ.states.image id)) := by
  refine bindGet fun w w' twin => ?_
  have names : w'.names = w.names.map ρ.name := twin.roll.names
  have closed : Mirrors env ρ b Same (H.catch_ (State.close id) fun _ => Pure.pure ())
      (H.catch_ (State.close (ρ.states.image id)) fun _ => Pure.pure ()) := catch_ (close hid) fun _ => pure ()
  rw [names, List.any_map]
  simp only [Function.comp_def, Guise.name, renumbered_beq]
  exact ite (pure ()) closed

theorem rename {id : Nat} (hid : id < b.states.size) (name : Text) : Mirrors env ρ b Same
    (MonadState.modifyGet fun w : World => ((), { w with names := rebind name id w.names }) : H Unit)
    (MonadState.modifyGet fun w : World => ((), { w with names := rebind name (ρ.states.image id) w.names })) :=
  modifyGet fun w w' twin => by
    have names : w'.names = w.names.map ρ.name := twin.roll.names
    have bound : rebind name (ρ.states.image id) w'.names = (rebind name id w.names).map ρ.name := by
      rw [names]
      exact rebind_map ρ.states.image name id w.names
    rw [bound]
    refine ⟨twin.withNames fun n m mem => ?_, rfl⟩
    obtain rfl | ⟨k, mem⟩ := mem_rebind name mem
    · exact Nat.lt_of_lt_of_le hid twin.roll.grown.states
    · exact twin.roll.sound.names k m mem

/-- A name is bound to a state, and the state it had is forgotten. -/
theorem bindName {id : Nat} (hid : id < b.states.size) (name : Text) :
    Mirrors env ρ b Same (Session.bindState name id) (Session.bindState name (ρ.states.image id)) := by
  refine bindNow fun w w' twin => bind (rename (Nat.lt_of_lt_of_le hid twin.roll.grown.states) name) fun _ => ?_
  rw [twin.stateId?]
  cases found : Session.stateId? w name with
  | none => exact pure ()
  | some o =>
    obtain ⟨n, mem⟩ := Leads.lookup_mem found
    dsimp only [Option.map_some]
    simp only [bne, renumbered_beq]
    exact ite (forget (twin.roll.sound.names n o mem)) (pure ())

/-- Something is kept under a name. -/
theorem keepUnder {s : Stored} (hs : ∀ sel, s = .selector sel → b.Has sel.registry sel.reporter) (name : Text) :
    Mirrors env ρ b Same
      (MonadState.modifyGet fun w : World => ((), { w with stored := rebind name s w.stored }) : H Unit)
      (MonadState.modifyGet fun w : World => ((), { w with stored := rebind name (ρ.stored s) w.stored })) :=
  modifyGet fun w w' twin => by
    have stored : w'.stored = w.stored.map ρ.keeping := twin.roll.stored
    have bound : rebind name (ρ.stored s) w'.stored = (rebind name s w.stored).map ρ.keeping := by
      rw [stored]
      exact rebind_map ρ.stored name s w.stored
    rw [bound]
    refine ⟨twin.withStored fun n sel mem => ?_, rfl⟩
    obtain e | ⟨k, mem⟩ := mem_rebind name mem
    · exact (hs sel e.symm).mono twin.roll.grown
    · exact twin.roll.sound.stored k sel mem

/-- The references of what was kept under a name are let go. -/
theorem dropStored (old : Option Stored) : Mirrors env ρ b Same
    (match old with
    | some o => Host.dropAll o.references.reverse
    | none => Pure.pure () : H Unit)
    (match old.map ρ.stored with
    | some o => Host.dropAll o.references.reverse
    | none => Pure.pure ()) := by
  cases old with
  | none => exact pure ()
  | some o =>
    dsimp only [Option.map_some]
    rw [World.Twin.stored_references]
    exact dropAll _

theorem store {s : Stored} (hs : ∀ sel, s = .selector sel → b.Has sel.registry sel.reporter) (name : Text) :
    Mirrors env ρ b Same (store name s) (store name (ρ.stored s)) := by
  refine bindGet fun w w' twin => bind (keepUnder hs name) fun _ => ?_
  rw [twin.lookup]
  exact dropStored _

theorem unkeep (name : Text) : Mirrors env ρ b Same
    (MonadState.modifyGet fun w : World => ((), { w with stored := unbind name w.stored }) : H Unit)
    (MonadState.modifyGet fun w : World => ((), { w with stored := unbind name w.stored })) :=
  modifyGet fun w w' twin => by
    have stored : w'.stored = w.stored.map ρ.keeping := twin.roll.stored
    have bound : unbind name w'.stored = (unbind name w.stored).map ρ.keeping := by
      rw [stored]
      exact unbind_map ρ.stored name w.stored
    rw [bound]
    exact ⟨twin.withStored fun n sel mem => twin.roll.sound.stored n sel ((List.mem_filter.mp mem).1), rfl⟩

theorem unname (name : Text) : Mirrors env ρ b Same
    (MonadState.modifyGet fun w : World => ((), { w with names := unbind name w.names }) : H Unit)
    (MonadState.modifyGet fun w : World => ((), { w with names := unbind name w.names })) :=
  modifyGet fun w w' twin => by
    have names : w'.names = w.names.map ρ.name := twin.roll.names
    have bound : unbind name w'.names = (unbind name w.names).map ρ.name := by
      rw [names]
      exact unbind_map ρ.states.image name w.names
    rw [bound]
    exact ⟨twin.withNames fun n m mem => twin.roll.sound.names n m ((List.mem_filter.mp mem).1), rfl⟩

/-! ## What is shown -/

end Mirrors

namespace World.Twin

/-- The same names lead to states with a machine. -/
theorem holders (h : w.Twin ρ b w') (m : Nat) : holders w' m = holders w m := by
  have names : w'.names = w.names.map ρ.name := h.roll.names
  have held (id : Nat) : machineHeld w' (ρ.states.image id) = machineHeld w id := by
    unfold machineHeld
    rw [h.state]
    rfl
  unfold Session.holders
  rw [names, List.filter_map, List.map_map]
  simp only [Function.comp_def, Guise.name, held]

theorem keptFor (h : w.Twin ρ b w') (m : Nat) : keptFor w' m = keptFor w m := by
  unfold Session.keptFor
  rw [h.trampolines]

end World.Twin

namespace Mirrors

theorem describeHandle (s : State) : Mirrors env ρ b Same (describeHandle s) (describeHandle (ρ.state s)) := by
  refine bindGet fun w w' twin => ?_
  have holders : Session.holders w' = Session.holders w := funext twin.holders
  have keptFor : Session.keptFor w' = Session.keptFor w := funext twin.keptFor
  rw [holders, keptFor]
  exact pure _

theorem describeReference (id : Nat) : Mirrors env ρ b Same (describeReference id) (describeReference id) := by
  refine bindReference id fun r => bindGet fun w w' twin => ?_
  rw [twin.slotOf]
  exact bind (isValid id) fun valid => pure _

/-! ## Calls on a stack -/

theorem apiResults (s : State) (calls : List RoutineCall) :
    Mirrors env ρ b Same (apiResults s calls) (apiResults (ρ.state s) calls) := by
  induction calls generalizing b with
  | nil => exact pure _
  | cons c rest ih =>
    have onward (d : Roll) (v : Value) : Mirrors env ρ d Same (do return v :: (← Session.apiResults s rest))
        (do return v :: (← Session.apiResults (ρ.state s) rest)) := bind ih fun vs => pure _
    cases c with
    | plain name m => exact bind (runWith _ _ _) (onward b)
    | pushFunction state routine =>
      exact bindStateOf state fun d hd t ht => bind (wrap ht.made routine) fun f => bind (runWith _ _ _) fun _ =>
        bind (pure _) (onward d)

theorem apiRecorded (s : State) (calls : List RoutineCall) :
    Mirrors env ρ b Same (apiRecorded s calls) (apiRecorded (ρ.state s) calls) := by
  have same : (ρ.state s).handle = s.handle := rfl
  induction calls with
  | nil => exact pure _
  | cons c rest ih =>
    unfold Session.apiRecorded
    rw [same]
    cases s.handle with
    | some l => exact bind (routineCall _ l c) fun _ => ih
    | none => exact bind (fault _) fun _ => ih

/-- The body of a guard, once the depth of the stack is known. -/
theorem guardBody (s : State) (calls : List RoutineCall) (depth : Value) (raises : Option (String × Text)) :
    Mirrors env ρ b Same (do
      Host.recordCall "depth" [depth]
      Session.apiRecorded s calls
      match raises with
      | some (kind, message) => raiseFailure kind message
      | none => Pure.pure ()) (do
      Host.recordCall "depth" [depth]
      Session.apiRecorded (ρ.state s) calls
      match raises with
      | some (kind, message) => raiseFailure kind message
      | none => Pure.pure ()) := by
  refine bind (recordCall _ _) fun _ => bind (apiRecorded s calls) fun _ => ?_
  cases raises with
  | some raised => exact fail _
  | none => exact pure ()

/-- A registry, if one is wanted, was made. -/
theorem wanted_made {s : State} (hs : b.Has s.registry s.reporter) (isWanted : Bool) (id : Nat)
    (h : (if isWanted then some s.registry else none) = some id) : id < max 1 b.registries.size := by
  cases isWanted with
  | false => cases h
  | true =>
    cases h
    exact hs.made

theorem wanted_twin (s : State) (isWanted : Bool) : (if isWanted then some (ρ.state s).registry else none) =
    (if isWanted then some s.registry else none).map ρ.registries.image := by
  cases isWanted with
  | false => rfl
  | true => rfl

/-! ## Commands -/

theorem command (name : Text) (c : Command) : Mirrors env ρ b Same (run name c) (run name c) := by
  cases c with
  | new openLibs config attachment isShared =>
    have made (config : Config) (origin : State.Origin) : Mirrors env ρ b Same (do
        let id ← State.create origin config (if isShared then sharedRuntime else foundRuntime)
        Session.bindState name id
        Session.setHandler (← State.get id) (.record name 0 none none)
        return nothing) (do
        let id ← State.create origin config (if isShared then sharedRuntime else foundRuntime)
        Session.bindState name id
        Session.setHandler (← State.get id) (.record name 0 none none)
        return nothing) := by
      refine bindTo (create origin config _) fun c hc id id' hid => ?_
      obtain ⟨rfl, hid⟩ := hid
      exact bind (bindName hid name) fun _ => bindState id fun d hd s hs => bind (setHandler s _) fun _ => pure _
    refine bind (ofExcept _) fun config => ?_
    cases attachment with
    | create => exact bind (pure _) (made config)
    | borrow source =>
      cases source with
      | none => exact bind (pure _) (made config)
      | some n => exact bind (machineOf n) fun m => bind (pure _) (made config)
  | execute source => exact bindStateOf _ fun c hc s hs => bind (stateExecute s _) fun _ => pure _
  | write file content => exact bind (ofExcept _) fun path => bind (change _ (fun _ => rfl) fun _ => rfl) fun _ => pure _
  | makeDirectory file => exact bind (ofExcept _) fun path => bind (change _ (fun _ => rfl) fun _ => rfl) fun _ => pure _
  | loadFile file form =>
    exact bind (ofExcept _) fun path => bindStateOf _ fun c hc s hs => bind (loadFile s _ _) fun _ => pure _
  | get way =>
    exact bindStateOf _ fun c hc s hs => bindSelector hs way fun d hd sel h => bind (selectorGet h.made) fun _ => pure _
  | «exists» way =>
    exact bindStateOf _ fun c hc s hs => bindSelector hs way fun d hd sel h => bind (exists_ h.made) fun _ => pure _
  | ref way =>
    exact bindStateOf _ fun c hc s hs => bindSelector hs way fun d hd sel h => bind (ref h.made) fun _ => pure _
  | call way args =>
    exact bindStateOf _ fun c hc s hs => bindSelector hs way fun d hd sel h => bind (selectorCall h.made args) fun _ => pure _
  | set way v byItem =>
    exact bindStateOf _ fun c hc s hs => bindSelector hs way fun d hd sel h => bind (set h.made v) fun _ => pure _
  | select way as_ =>
    exact bindStateOf _ fun c hc s hs => bindSelector hs way fun d hd sel h => by
      refine bind (store (s := .selector sel) ?_ as_) fun _ => bindGet fun w w' twin => ?_
      · rintro _ ⟨⟩
        exact h
      · rw [twin.slotOf]
        exact pure _
  | showSelector way =>
    exact bindStateOf _ fun c hc s hs => bindSelector hs way fun d hd sel h => bindGet fun w w' twin => by
      rw [twin.slotOf]
      exact pure _
  | globalNames => exact bindStateOf _ fun c hc s hs => bind (globalNames s) fun _ => pure _
  | size => exact bindStateOf _ fun c hc s hs => bind (size s) fun _ => pure _
  | collect => exact bindStateOf _ fun c hc s hs => bind (collect s) fun _ => pure _
  | «show» => exact bindStateOf _ fun c hc s hs => pure _
  | interact input =>
    refine bindStateOf _ fun c hc s hs => ?_
    have prompt : Mirrors env ρ c Same (s.interact >>= fun _ => Pure.pure nothing : H Given)
        ((ρ.state s).interact >>= fun _ => Pure.pure nothing) := bind (interact s) fun _ => pure _
    have same : (ρ.state s).machine = s.machine := rfl
    dsimp only
    rw [same]
    cases s.machine with
    | none => exact prompt
    | some m => exact bind (setInput m input) fun _ => prompt
  | handle => exact bindStateOf _ fun c hc s hs => bind (describeHandle s) fun _ => pure _
  | handler kind => exact bindStateOf _ fun c hc s hs => bind (setHandler s _) fun _ => pure _
  | report code message =>
    exact bindStateOf _ fun c hc s hs => bindRegistry _ fun d hd r hr => bind (report _ _ _ _) fun _ => pure _
  | openLib lib loader isDirect =>
    refine bindStateOf _ fun c hc s hs => ?_
    have opened (loader : State.Loader) : Mirrors env ρ c Same (s.openLib lib loader >>= fun _ => Pure.pure nothing : H Given)
        ((ρ.state s).openLib lib loader >>= fun _ => Pure.pure nothing) := bind (openLib s hs.made lib loader) fun _ => pure _
    cases isDirect with
    | true => exact bind (foreign hs.made loader true) fun f => opened (.native f)
    | false => exact opened (.routine loader)
  | openNative lib symbol =>
    refine bindStateOf _ fun c hc s hs => ?_
    dsimp only
    cases Lua.Library.ofSymbol? symbol with
    | none => exact bind (fail _) fun _ => pure _
    | some f => exact bind (openLib s hs.made lib (.native f)) fun _ => pure _
  | move target =>
    refine bindTo (stateNamed name) fun c hc id id' hid => ?_
    obtain ⟨rfl, hid⟩ := hid
    refine bindTo (move hid) fun d hd new _ hn => ?_
    obtain ⟨rfl, hn⟩ := hn
    exact bind (bindName hn target) fun _ => pure _
  | take source =>
    refine bindTo (stateNamed name) fun c hc id id' hid => ?_
    obtain ⟨rfl, hid⟩ := hid
    refine bindTo (stateNamed source) fun d hd other _ ho => ?_
    obtain ⟨rfl, ho⟩ := ho
    exact bind (take (Nat.lt_of_lt_of_le hid hd.states) ho) fun _ => pure _
  | close =>
    refine bindTo (stateNamed name) fun c hc id id' hid => ?_
    obtain ⟨rfl, hid⟩ := hid
    exact bind (close hid) fun _ => pure _
  | delete =>
    refine bindTo (stateNamed name) fun c hc id id' hid => ?_
    obtain ⟨rfl, hid⟩ := hid
    exact bind (unname name) fun _ => bind (forget hid) fun _ => pure _
  | within source raises =>
    refine bindTo (stateNamed name) fun c hc id id' hid => ?_
    obtain ⟨rfl, hid⟩ := hid
    refine bind (finally_ (bindState id fun d hd s hs => bind (stateExecute s source) fun r => ?_) (close hid)) fun r => pure _
    cases raises with
    | some raised => exact fail _
    | none => exact pure r
  | copy => exact fail _
  | referenceInfo ref => exact bind (referenceNamed _) fun _ => bind (describeReference _) fun _ => pure _
  | release ref => exact bind (referenceNamed _) fun _ => bind (release _) fun _ => pure _
  | drop ref =>
    refine bindGet fun w w' twin => bind (unkeep ref) fun _ => ?_
    rw [twin.lookup]
    cases Binding.Surroundings.lookup ref w.stored with
    | none => exact pure _
    | some o =>
      dsimp only [Option.map_some]
      rw [World.Twin.stored_references]
      exact bind (dropAll _) fun _ => pure _
  | pushReference ref state =>
    have pushed (l : Option Handle) : Mirrors env ρ b Same (do
        Reference.push (← Session.referenceNamed ref) l
        return nothing) (do
        Reference.push (← Session.referenceNamed ref) l
        return nothing) := bind (referenceNamed _) fun _ => bind (referencePush _ _) fun _ => pure _
    cases state with
    | none => exact pushed none
    | some n => exact bind (machineOf n) fun m => pushed _
  | registryValue ref =>
    exact bind (referenceNamed _) fun id => bindReference id fun r => bindStateOf _ fun c hc s hs =>
      bind (registryValue hs.made r.slot) fun _ => pure _
  | pinTop => exact bindStateOf _ fun c hc s hs => bind (pinTop hs.made _) fun _ => pure _
  | pushChunk source => exact bindStateOf _ fun c hc s hs => bind (pushChunk _ _) fun _ => pure _
  | closeRegistry => exact bindStateOf _ fun c hc s hs => bind (closeRegistry _) fun _ => pure _
  | releaseMachine =>
    refine bindStateOf _ fun c hc s hs => ?_
    have same : (ρ.state s).machine = s.machine := rfl
    dsimp only
    rw [same]
    cases s.machine with
    | none => exact pure _
    | some m => exact bind (releaseMachine m) fun _ => pure _
  | dropKept =>
    refine bindGet fun w w' twin => ?_
    rw [twin.kept]
    exact bind (change _ (fun _ => rfl) fun _ => rfl) fun _ => bind (dropAll _) fun _ => pure _
  | wrap r => exact bindStateOf _ fun c hc s hs => bind (discard (wrap hs.made r)) fun _ => pure _
  | toHost i withRegistry =>
    refine bindStateOf _ fun c hc s hs => ?_
    rw [wanted_twin]
    exact bind (toHost s.runtime s.handle i (wanted_made hs withRegistry)) fun _ => pure _
  | pushHost v withRegistry =>
    refine bindStateOf _ fun c hc s hs => ?_
    rw [wanted_twin]
    exact bind (pushHost s.runtime s.handle v (wanted_made hs withRegistry)) fun _ => pure _
  | api calls => exact bindStateOf _ fun c hc s hs => bind (apiResults s calls) fun _ => pure _
  | guard calls raises =>
    refine bindStateOf _ fun c hc s hs => bind (guarded _ _ ?_) fun _ => pure _
    have same : (ρ.state s).handle = s.handle := rfl
    rw [same]
    cases s.handle with
    | none => exact guardBody s calls _ raises
    | some l => exact bind (runWith _ _ _) fun depth => guardBody s calls depth raises
  | patch p => exact bind (change _ (fun _ => rfl) fun _ => rfl) fun _ => pure _

theorem conclude (keep : Option Text) (given : Given) :
    Mirrors env ρ b Same (conclude keep given) (conclude keep given) := by
  cases given with
  | shown a => exact pure a
  | value v =>
    refine bindGet fun w w' twin => ?_
    rw [twin.answer]
    cases keep with
    | none => exact bind (dropAll _) fun _ => pure _
    | some name =>
      refine bind (store (s := .value v) ?_ name) fun _ => pure _
      rintro _ ⟨⟩

theorem act (s : Step) : Mirrors env ρ b Same s.act s.act := bind (command s.state s.command) fun given => conclude s.keep given

end Mirrors
end LuaHost.Host
