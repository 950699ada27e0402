import LuaHost.Proofs.Lives.Selectors
import LuaHost.Proofs.Reports.Operations
import LuaHost.Proofs.Routes.Pairs

set_option autoImplicit false

/-!
# Whom operations tell

An operation of a selector tells the reporter that the selector carries, if the registry of the selector tells the
same, and a function of the host tells the reporter that it was made with. What is told by functions of the host that
are called on the way is their own affair.
-/

namespace LuaHost.Host

open Binding (Call Program Runtime)

variable {env : Env} {reporter : Nat} {base w : World} {α β : Type}

/-- An operation that, from a world on, makes its own reports to one reporter. It is put together from what nobody hears
of, from loads and calls, from what functions of the host do, and from those reports. -/
inductive Routed (env : Env) (reporter : Nat) : {α : Type} → World → H α → Prop
  | hushed {α : Type} {w : World} {act : H α} (h : Hushed act) : Routed env reporter w act
  | attempt {phase : Phase} {p : Runtime → Program Value} {w : World} (r : Runtime) (l : Option Handle) (hp : Attempt phase p) :
    Routed env reporter w (runProgram r l (p r))
  /-- a slot is given back -/
  | released {w : World} (id : Nat) : Routed env reporter w (Reference.release id)
  | callback {w : World} (f : Callback) (args : List Value) : Routed env reporter w (f.run args)
  | routine {w : World} (runtime : Nat) (l : Handle) (c : RoutineCall) : Routed env reporter w (c.run runtime l)
  | report {w : World} (code : Int) (message : Text) (cause : Option String) :
    Routed env reporter w (H.report reporter code message cause)
  | bind {α β : Type} {w : World} {act : H α} {next : α → H β} (h : Routed env reporter w act)
    (k : ∀ a w', act env w = .ok a w' → Routed env reporter w' (next a)) : Routed env reporter w (act >>= next)
  | finally_ {α : Type} {w : World} {act : H α} {after : H Unit} (h : Routed env reporter w act)
    (k : Routed env reporter (final (act env w)) after) : Routed env reporter w (H.finally_ act after)
  | catch_ {α : Type} {w : World} {act : H α} {handler : Failure → H α} (h : Routed env reporter w act)
    (k : ∀ f w', act env w = .error (.failure f) w' → Routed env reporter w' (handler f)) :
    Routed env reporter w (H.catch_ act handler)

theorem discard_eq (act : H α) : (discard act : H PUnit) = act >>= fun _ => Pure.pure PUnit.unit := by
  funext env w
  simp only [Functor.discard, Functor.mapConst, Bind.bind, ReaderT.bind, EStateM.bind, EStateM.map, Function.comp_apply]
  cases act env w <;> rfl

namespace Routed

theorem pure (a : α) : Routed env reporter w (Pure.pure a : H α) := .hushed (.pure a)

theorem fail (f : Failure) : Routed env reporter w (H.fail f : H α) := .hushed (.fail f)

theorem runWith (n : Nat) (l : Option Handle) {p : Runtime → Program α} (hp : ∀ r, (p r).All Soft) :
    Routed env reporter w (Host.runWith n l p) := .hushed (.runWith n l hp)

theorem attemptWith {phase : Phase} {p : Runtime → Program Value} (hp : Attempt phase p) (n : Nat) (l : Option Handle) :
    Routed env reporter w (Host.runWith n l p) := .bind (.hushed (.runtime n)) fun r _ _ => .attempt r l hp

theorem reportTop (code : Int) (n : Nat) (l : Option Handle) : Routed env reporter w (Host.reportTop reporter code n l) :=
  .bind (runWith n l Mute.topMessage) fun _ _ _ => .report _ _ _

theorem guarded {act : H α} (h : ∀ w, Routed env reporter w act) (n : Nat) (l : Option Handle) :
    Routed env reporter w (Host.guarded n l act) := by
  cases l with
  | none => exact h w
  | some t =>
    exact .bind (runWith n _ fun _ => Mute.getTop) fun _ w' _ => .finally_ (h w') (runWith n _ fun _ => Mute.setTop _)

/-! States tell their reporters. -/

theorem doString (n : Nat) (l : Option Handle) (source : Value) :
    Routed env reporter w (Host.runWith n l fun r => Binding.Api.doString r source) := by
  refine .bind (.hushed (.runtime n)) fun r w₁ _ => ?_
  unfold Binding.Api.doString
  rw [runProgram_bind]
  refine .bind (.attempt r l (.source source)) fun status w₂ _ => ?_
  split
  · exact pure _
  · exact .attempt r l (.call 0 Binding.allResults)

theorem execute (s : State) (source : Value) : Routed env s.reporter w (s.execute source) := by
  unfold State.execute
  split
  · exact pure _
  refine .bind (.hushed (.runtime _)) fun rt w₁ _ => .guarded (fun w => .bind (doString _ _ _) fun status w₂ _ => ?_) _ _
  dsimp only
  split
  · exact .bind (reportTop _ _ _) fun _ _ _ => pure _
  · exact pure _

theorem loadFile (s : State) (path : Value) (shown : Text) : Routed env s.reporter w (s.loadFile path shown) := by
  have words (status : Int) (fallback : Text) (w : World) : Routed env s.reporter w (do
      let message ← Host.runWith s.runtime s.handle fun r => Binding.Api.toText r (-1)
      H.report s.reporter status (message.getD (shown ++ fallback)) none
      return false) := .bind (runWith _ _ fun r => Mute.toText r _) fun _ _ _ => .bind (.report _ _ _) fun _ _ _ => pure _
  unfold State.loadFile
  split
  · exact pure _
  refine .bind (.hushed (.runtime _)) fun rt w₁ _ =>
    .guarded (fun w => .bind (attemptWith (.file path) _ _) fun status w₂ _ => ?_) _ _
  dsimp only
  split
  · split
    · exact words _ _ _
    · split
      · exact words _ _ _
      · split
        · exact words _ _ _
        · exact .bind (.hushed (.debug _)) fun _ _ _ => pure _
  · refine .bind (attemptWith (.call 0 Binding.allResults) _ _) fun status w₃ _ => ?_
    split
    · exact pure _
    · exact words _ _ _

/-- A registry reports a chunk that does not compile to the reporter that it tells. -/
theorem pushChunk {id : Nat} (told : (w.registries.get id).reporter = reporter) (source : Text) :
    Routed env reporter w (Registry.pushChunk id source) := by
  unfold Registry.pushChunk
  refine .bind (.hushed (.registry id)) fun r w₁ run => ?_
  cases run
  refine .bind (.hushed (.runtime _)) fun rt w₂ _ => ?_
  have pushed (l : Option Handle) (slot : Int) :
      Hushed (Functor.discard (Host.runWith (w.registries.get id).runtime l fun rt => Binding.Api.pushRef rt slot) >>= fun _ =>
        Pure.pure true) := .bind (.discard (.runWith _ l fun rt => Mute.pushRef rt slot)) fun _ => .pure _
  dsimp only
  split
  · exact .hushed (pushed _ _)
  · refine .bind (attemptWith (.source _) _ _) fun status w₃ _ => ?_
    split
    · rw [told]
      exact .bind (reportTop _ _ _) fun _ _ _ => pure _
    · exact .hushed (.bind (.ref _ _) fun slot => .bind (.modifyGet fun _ => ⟨⟨rfl, rfl, rfl⟩, rfl⟩) fun _ => pushed _ _)

end Routed

/-! ## Selectors -/

/-- An operation that makes moves, and its own reports to one reporter, wherever moves have led from a world. -/
structure Routes (env : Env) (reporter : Nat) (base : World) (act : H α) : Prop where
  leads : Leads env base act
  routed : ∀ w, Moves base w → Routed env reporter w act

namespace Routes

theorem pure (a : α) : Routes env reporter base (Pure.pure a : H α) := ⟨.pure a, fun _ _ => .pure a⟩

theorem hushed {act : H α} (leads : Leads env base act) (h : Hushed act) : Routes env reporter base act :=
  ⟨leads, fun _ _ => .hushed h⟩

/-- Calls that neither compile nor run anything. -/
theorem mute (n : Nat) (l : Option Handle) {p : Runtime → Program α} (hp : ∀ r, (p r).All Mute) :
    Routes env reporter base (Host.runWith n l p) := by
  have wide (P : Call → Prop) [Wide P] {q : Program α} (h : q.All Mute) : q.All P := by
    induction q with
    | done a => trivial
    | fail f => trivial
    | ask c next ih => exact ⟨Wide.mute c h.1, fun v => ih v (h.2 v)⟩
  exact hushed (.runWith n l fun r => wide _ (hp r)) (.runWith n l fun r => wide _ (hp r))

theorem discard {act : H α} (h : Routes env reporter base act) : Routes env reporter base (discard act) := by
  refine ⟨h.leads.discard, fun w hw => ?_⟩
  rw [discard_eq]
  exact .bind (h.routed w hw) fun _ _ _ => .pure _

theorem report (code : Int) (message : Text) (cause : Option String) :
    Routes env reporter base (H.report reporter code message cause) := ⟨.report _ _ _ _, fun _ _ => .report _ _ _⟩

theorem reportTop (code : Int) (n : Nat) (l : Option Handle) : Routes env reporter base (Host.reportTop reporter code n l) :=
  ⟨.reportTop _ _ _ _, fun _ _ => .reportTop _ _ _⟩

section Sequence

variable (he : env.Follows) (hs : base.Sound)

include he hs

theorem bind {act : H α} {next : α → H β} (h : Routes env reporter base act) (k : ∀ a, Routes env reporter base (next a)) :
    Routes env reporter base (act >>= next) where
  leads := h.leads.bind fun a => (k a).leads
  routed w hw := .bind (h.routed w hw) fun a w' run => (k a).routed w' (by
    have after := h.leads.after he hs w hw
    rwa [run] at after)

theorem guarded {act : H α} (h : Routes env reporter base act) (n : Nat) (l : Option Handle) :
    Routes env reporter base (Host.guarded n l act) := by
  refine ⟨.guarded n l h.leads, fun w hw => ?_⟩
  cases l with
  | none => exact h.routed w hw
  | some t =>
    refine .bind (.runWith n _ fun _ => Mute.getTop) fun depth w' run => .finally_ (h.routed w' ?_) (.runWith n _ fun _ => Mute.setTop _)
    have getTop : Leads env base (Host.runWith n (some t) fun _ => Binding.Api.getTop) := .runWith n _ fun _ => Mute.getTop
    have after := getTop.after he hs w hw
    rwa [run] at after

end Sequence

/-- Where moves lead, registries tell whom they told. -/
theorem pushChunk {id : Nat} (told : (base.registries.get id).reporter = reporter) (source : Text) :
    Routes env reporter base (Registry.pushChunk id source) :=
  ⟨.pushChunk id source, fun _ hw => .pushChunk ((hw.steady.reporter id).trans told) source⟩

section Selectors

variable {s : Selector} (he : env.Follows) (hs : base.Sound) (goes : s.Goes base)
  (told : (base.registries.get s.registry).reporter = s.reporter)

include he hs goes told

theorem pushEntry (key : Value) : Routes env s.reporter base (s.pushEntry key) := by
  unfold Selector.pushEntry
  refine bind he hs (discard (mute _ _ fun _ => Mute.checkStack _)) fun _ => bind he hs (pushChunk told _) fun pushed => ?_
  split
  · exact pure _
  refine bind he hs (mute _ _ fun _ => Mute.pushValue _) fun _ =>
    bind he hs (hushed (.pushHost _ _ _ _ (Leads.selector_pairs goes)) (.pushHost _ _ _ _)) fun _ =>
      bind he hs ⟨.runWith _ _ fun _ => Ordinary.pcall _ _ _, fun _ _ => .attemptWith (.call 2 1) _ _⟩ fun status =>
        bind he hs (hushed (.runtime _) (.runtime _)) fun rt => ?_
  dsimp only
  split
  · exact bind he hs (reportTop _ _ _) fun _ => pure _
  · exact bind he hs (mute _ _ fun _ => Mute.type _) fun _ => pure _

theorem pushKeys (tag : Int) (keys : List Value) : Routes env s.reporter base (s.pushKeys tag keys) := by
  induction keys generalizing tag with
  | nil => exact pure _
  | cons key rest ih =>
    unfold Selector.pushKeys
    split
    · exact bind he hs (mute _ _ fun _ => Mute.pushNil) fun _ => pure _
    · refine bind he hs (pushEntry he hs goes told key) fun found => ?_
      split
      · exact pure _
      · exact ih _

/-- What an operation does once the keys have been followed. -/
theorem along (keys : List Value) {nothing : α} {next : Int → H α} (h : ∀ tag, Routes env s.reporter base (next tag)) :
    Routes env s.reporter base (s.guard (s.push keys >>= fun found => match found with
      | none => Pure.pure nothing
      | some tag => next tag)) := by
  refine guarded he hs (bind he hs (bind he hs (mute _ _ Mute.pushGlobals) fun _ => pushKeys he hs goes told 5 keys) fun found => ?_) _ _
  split
  · exact pure _
  · exact h _

theorem set (v : Value) : Routes env s.reporter base (s.set v) := by
  unfold Selector.set
  split
  · exact pure _
  refine bind he hs (hushed (.runtime _) (.runtime _)) fun rt => along he hs goes told _ fun tag => ?_
  split
  · exact bind he hs (hushed .get .get) fun w => bind he hs (hushed (.ofExcept _) (.ofExcept _)) fun way =>
      bind he hs (mute _ _ fun _ => Mute.typeName _) fun kind => bind he hs (report _ _ _) fun _ => pure _
  have pushed (v : Value) : Routes env s.reporter base (pushHost s.runtime s.handle v (some s.registry)) :=
    hushed (.pushHost _ _ _ _ (Leads.selector_pairs goes)) (.pushHost _ _ _ _)
  refine bind he hs (discard (mute _ _ fun _ => Mute.checkStack _)) fun _ => bind he hs (pushChunk told _) fun found => ?_
  split
  · exact pure _
  refine bind he hs (mute _ _ fun _ => Mute.pushValue _) fun _ => bind he hs (pushed _) fun _ => bind he hs (pushed _) fun _ =>
    bind he hs ⟨.runWith _ _ fun _ => Ordinary.pcall _ _ _, fun _ _ => .attemptWith (.call 3 0) _ _⟩ fun status => ?_
  dsimp only
  split
  · exact bind he hs (reportTop _ _ _) fun _ => pure _
  · exact pure _

theorem call (args : List Value) : Routes env s.reporter base (s.call args) := by
  unfold Selector.call
  split
  · exact pure _
  refine bind he hs (hushed (.runtime _) (.runtime _)) fun rt => along he hs goes told _ fun tag => ?_
  refine bind he hs (discard (mute _ _ fun _ => Mute.checkStack _)) fun _ => bind he hs (mute _ _ fun _ => Mute.getTop) fun top =>
    bind he hs (hushed (.pushAll goes args) (Does.pushAll s args)) fun _ =>
      bind he hs ⟨.runWith _ _ fun _ => Ordinary.pcall _ _ _, fun _ _ => .attemptWith (.call _ _) _ _⟩ fun status => ?_
  dsimp only
  split
  · exact bind he hs (reportTop _ _ _) fun _ => pure _
  · exact bind he hs (mute _ _ fun _ => Mute.getTop) fun _ =>
      bind he hs (hushed (.results goes _ _) (Does.results s _ _)) fun _ => pure _

theorem get : Routes env s.reporter base s.get := by
  unfold Selector.get
  split
  · exact pure _
  · exact along he hs goes told _ fun _ => hushed (.toHost _ _ _ _ (Leads.selector_pairs goes)) (.toHost _ _ _ _)

theorem exists_ : Routes env s.reporter base s.exists_ := by
  unfold Selector.exists_
  split
  · exact pure _
  · exact along he hs goes told _ fun _ => pure _

theorem ref : Routes env s.reporter base s.ref := by
  unfold Selector.ref
  split
  · exact pure _
  · exact along he hs goes told _ fun _ => bind he hs (hushed (.pinTop _ _ nofun) (.pinTop _ _)) fun _ => pure _

/-- Every operation of a selector tells the reporter that the selector carries. -/
theorem use (u : Use) : Routes env s.reporter base (u.run s) := by
  cases u with
  | get => exact get he hs goes told
  | exists_ => exact bind he hs (exists_ he hs goes told) fun _ => pure _
  | ref => exact ref he hs goes told
  | set v => exact bind he hs (set he hs goes told v) fun _ => pure _
  | call args => exact call he hs goes told args

end Selectors
end Routes

/-! ## Functions of the host -/

namespace Routed

theorem dropAll (ids : List Nat) : Routed env reporter w (Host.dropAll ids) := by
  induction ids generalizing w with
  | nil => exact pure _
  | cons id rest ih =>
    unfold Host.dropAll
    refine .bind (.hushed .get) fun now w' _ => ?_
    dsimp only
    split
    · exact .bind (.catch_ (.released id) fun _ _ _ => pure _) fun _ _ _ => ih
    · exact ih

theorem holding {act : H α} (ids : List Nat) (h : ∀ w, Routed env reporter w act) : Routed env reporter w (Host.holding ids act) :=
  .bind (.hushed (.modifyGet fun _ => ⟨⟨rfl, rfl, rfl⟩, rfl⟩)) fun _ w' _ =>
    .finally_ (h w') (.hushed (.modifyGet fun _ => ⟨⟨rfl, rfl, rfl⟩, rfl⟩))

variable (f : Foreign) (l : Handle)

theorem arguments (n : Nat) (i : Int) : Hushed (Host.arguments f l n i) := by
  induction n generalizing i with
  | zero => exact .pure _
  | succ n ih => exact .bind (.toHost _ _ _ _) fun _ => .bind (ih _) fun _ => .pure _

theorem pushResults (k : Nat) (vs : List Value) : Routed env reporter w (Host.pushResults f l k vs) := by
  induction vs generalizing k w with
  | nil => exact pure _
  | cons v rest ih =>
    unfold Host.pushResults
    refine .bind (.catch_ (.hushed (.bind (.pushHost _ _ _ _) fun _ => .pure _)) fun _ _ _ => pure _) fun pushed w' _ => ?_
    split
    · exact pure _
    · exact ih _

theorem reportFailure (e : Failure) : Routed env f.reporter w (Host.reportFailure f e) :=
  .bind (.hushed (.runtime _)) fun _ _ _ => .bind (.report _ _ _) fun _ _ _ => pure _

theorem giveUp (e : Failure) (ids : List Nat) : Routed env f.reporter w (Host.giveUp f e ids) := by
  refine .finally_ ?_ (dropAll ids)
  rw [discard_eq]
  exact .bind (reportFailure f e) fun _ _ _ => pure _

theorem giveResults (argIds : List Nat) (result : Value) : Routed env reporter w (Host.giveResults f l argIds result) := by
  refine holding _ fun w => .bind (dropAll _) fun _ _ _ => ?_
  split
  · exact pure _
  · exact .bind (.hushed (.discard (.runWith _ _ fun _ => Mute.checkStack _))) fun _ _ _ => pushResults f l 0 _

theorem finish (argIds : List Nat) (outcome : Except Failure Value) : Routed env f.reporter w (Host.finish f l argIds outcome) := by
  cases outcome with
  | error e => exact .bind (giveUp f e _) fun _ _ _ => pure _
  | ok result =>
    refine .bind (giveResults f l argIds result) fun given _ _ => ?_
    split
    · exact .bind (giveUp f _ _) fun _ _ _ => pure _
    · exact .bind (dropAll _) fun _ _ _ => pure _

theorem callCallback (callback : Callback) : Routed env f.reporter w (Host.callCallback f callback l) := by
  refine .bind (runWith _ _ fun _ => Mute.getTop) fun count _ _ => .bind (.hushed (arguments f l _ 1)) fun args _ _ => ?_
  have called (w : World) : Routed env f.reporter w (Host.attempt (callback.run args)) :=
    .catch_ (.bind (.callback callback args) fun _ _ _ => pure _) fun _ _ _ => pure _
  exact .bind (holding _ called) fun outcome _ _ => finish f l _ outcome

theorem runCalls (calls : List RoutineCall) : Routed env reporter w (Host.runCalls f.runtime l calls) := by
  induction calls generalizing w with
  | nil => exact pure _
  | cons c rest ih => exact .bind (.routine _ _ c) fun _ _ _ => ih

/-- A function of the host tells the reporter that it was made with. -/
theorem foreign : Routed env f.reporter w (f.call l) := by
  unfold Foreign.call
  split
  · exact callCallback f l _
  · refine .catch_ (.bind (runCalls f l _) fun _ _ _ => ?_) fun e _ _ => ?_
    · split
      · exact fail _
      · exact .hushed (.ofExcept _)
    · split
      · exact pure _
      · exact reportFailure f e

end Routed

end LuaHost.Host
