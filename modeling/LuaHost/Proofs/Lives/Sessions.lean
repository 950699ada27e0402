import LuaHost.Proofs.Lives.Handing
import LuaHost.Proofs.Moves.Commands

set_option autoImplicit false

/-!
# Sessions go by stages

Every step of a session that comes back is a run of stages, and so is every operation on states. The worlds
that are reached this way are lawful; what every stage keeps holds in all of them. A machine that throws
across the host ends the session.
-/

namespace LuaHost.Session

open Host
open Lua (Generation)

variable {g : Generation} {env : Env} {w w' : World} {α β : Type}

/-- A machine threw across the host. -/
def Thrown (r : EStateM.Result Stop World α) : Prop := ∃ e w, r = .error (.signal e) w

/-- An operation that, if it comes back, has gone by steps of `R`. -/
structure Lasts (R : World → World → Prop) (env : Env) (w : World) (act : H α) : Prop where
  after : ¬ Thrown (act env w) → Relation.ReflTransGen R w (final (act env w))

/-! ## What names lead to -/

/-- A name leads to a state. -/
def Named (w : World) (id : Nat) : Prop := ∃ name, (name, id) ∈ w.names

/-- A name leads to a state, or to none. -/
theorem stateNamed_cases (env : Env) (w : World) (name : Text) :
    (∃ id, stateNamed name env w = .ok id w ∧ Named w id) ∨ ∃ f, stateNamed name env w = .error (.failure f) w := by
  rw [stateNamed_eq]
  cases found : w.names.find? fun named => named.1 == name with
  | none => exact .inr ⟨_, rfl⟩
  | some named => exact .inl ⟨named.2, rfl, named.1, List.mem_of_find?_eq_some found⟩

theorem stateOf_cases (env : Env) (w : World) (name : Text) :
    (∃ id, stateOf name env w = .ok (w.states.get id) w) ∨ ∃ f, stateOf name env w = .error (.failure f) w := by
  obtain ⟨id, found, -⟩ | ⟨f, failed⟩ := stateNamed_cases env w name
  · exact .inl ⟨id, bind_ok found⟩
  · exact .inr ⟨f, bind_error failed⟩

/-- A selector, from a state or kept, goes with its registry. -/
theorem selectorOf_cases (env : Env) (hs : w.Sound) {s : State} (hg : s.Goes w) (way : Way) :
    (∃ sel, selectorOf s way env w = .ok sel w ∧ sel.Goes w) ∨ ∃ f, selectorOf s way env w = .error (.failure f) w := by
  cases way with
  | path keys => exact .inl ⟨_, rfl, hg.select _ _⟩
  | kept name keys =>
    rw [Leads.selectorOf_kept]
    cases found : Binding.Surroundings.lookup name w.stored with
    | none => exact .inr ⟨_, rfl⟩
    | some stored =>
      cases stored with
      | value v => exact .inr ⟨_, rfl⟩
      | selector sel =>
        obtain ⟨key, hmem⟩ := Leads.lookup_mem found
        exact .inl ⟨_, rfl, fun m => hs.stored key sel m hmem⟩

/-- Steps that include moves and what changes around machines, and keep worlds lawful. -/
structure Ways (g : Generation) (R : World → World → Prop) : Prop where
  moves : ∀ {w w' : World}, Moves w w' → R w w'
  around : ∀ {w w' : World}, w.Around w' → R w w'
  lawful : ∀ {w w' : World}, R w w' → w.Lawful g → w'.Lawful g

namespace Ways

variable {R : World → World → Prop}

theorem lawfully (k : Ways g R) (h : Relation.ReflTransGen R w w') (hl : w.Lawful g) : w'.Lawful g := by
  induction h with
  | refl => exact hl
  | tail _ step ih => exact k.lawful step ih

theorem quiet : Ways g (Quiet g) := ⟨.moves, .around, fun h hl => Quiets.lawful h.quiets hl⟩

theorem stage : Ways g (Stage g) := ⟨fun h => .quiet (.moves h), fun h => .quiet (.around h), fun h hl => Stages.lawful (.single h) hl⟩

end Ways

namespace Lasts

variable {R : World → World → Prop}

theorem loud {act : H α} (h : Lasts (Quiet g) env w act) : Lasts (Stage g) env w act :=
  ⟨fun hc => Quiets.stages (h.after hc)⟩

theorem pure (a : α) : Lasts R env w (Pure.pure a : H α) := ⟨fun _ => .refl⟩

theorem bind {act : H α} {next : α → H β} (h : Lasts R env w act)
    (k : ∀ a w', act env w = .ok a w' → Relation.ReflTransGen R w w' → Lasts R env w' (next a)) :
    Lasts R env w (act >>= next) := by
  constructor
  intro hc
  cases run : act env w with
  | ok a w' =>
    rw [bind_ok run] at hc ⊢
    have first := h.after (by rintro ⟨e, v, thrown⟩; exact nomatch run.symm.trans thrown)
    rw [run] at first
    exact first.trans ((k a w' run first).after hc)
  | error e w' =>
    rw [bind_error run] at hc ⊢
    have first := h.after (by
      rintro ⟨e', v, thrown⟩
      cases run.symm.trans thrown
      exact hc ⟨e', w', rfl⟩)
    rw [run] at first
    exact first

theorem finally_ {act : H α} {after : H Unit} (h : Lasts R env w act)
    (k : ∀ w', Relation.ReflTransGen R w w' → Lasts R env w' after) : Lasts R env w (H.finally_ act after) := by
  constructor
  intro hc
  unfold H.finally_ at hc ⊢
  cases run : act env w with
  | ok a w' =>
    rw [run] at hc
    have first := h.after (by rintro ⟨e, v, thrown⟩; exact nomatch run.symm.trans thrown)
    rw [run] at first
    have second := (k w' first).after
    dsimp only at hc ⊢
    cases run' : after env w' with
    | ok u w'' =>
      rw [run'] at second
      exact first.trans (second (by rintro ⟨e, v, thrown⟩; cases thrown))
    | error e w'' =>
      rw [run'] at hc second
      exact first.trans (second (by rintro ⟨e', v, thrown⟩; cases thrown; exact hc ⟨e', w'', rfl⟩))
  | error e w' =>
    rw [run] at hc
    cases e with
    | signal e => exact absurd ⟨e, w', rfl⟩ hc
    | failure f =>
      have first := h.after (by rintro ⟨e, v, thrown⟩; exact nomatch run.symm.trans thrown)
      rw [run] at first
      have second := (k w' first).after
      dsimp only at hc ⊢
      cases run' : after env w' with
      | ok u w'' =>
        rw [run'] at second
        exact first.trans (second (by rintro ⟨e, v, thrown⟩; cases thrown))
      | error e w'' =>
        rw [run'] at hc second
        exact first.trans (second (by rintro ⟨e', v, thrown⟩; cases thrown; exact hc ⟨e', w'', rfl⟩))

/-- Failures of an operation are dropped. -/
theorem dropping {act : H Unit} (h : Lasts R env w act) : Lasts R env w (H.catch_ act fun _ => return ()) := by
  constructor
  intro hc
  unfold H.catch_ at hc ⊢
  cases run : act env w with
  | ok u w' =>
    have first := h.after (by rintro ⟨e, v, thrown⟩; exact nomatch run.symm.trans thrown)
    rw [run] at first
    exact first
  | error e w' =>
    rw [run] at hc
    cases e with
    | signal e => exact absurd ⟨e, w', rfl⟩ hc
    | failure f =>
      have first := h.after (by rintro ⟨e, v, thrown⟩; exact nomatch run.symm.trans thrown)
      rw [run] at first
      exact first

/-- What an operation that changes nothing gives, the next one goes on with. -/
theorem onward {act : H α} {next : α → H β} {a : α} (h : act env w = .ok a w) (k : Lasts R env w (next a)) :
    Lasts R env w (act >>= next) := ⟨by rw [bind_ok h]; exact k.after⟩

theorem halted {act : H α} {next : α → H β} {f : Failure} (h : act env w = .error (.failure f) w) :
    Lasts R env w (act >>= next) := ⟨by rw [bind_error h]; exact fun _ => .refl⟩

theorem get : Lasts R env w (MonadState.get : H World) := ⟨fun _ => .refl⟩

/-- What an operation gives that only reads names goes on. -/
theorem named (name : Text) {next : Nat → H β} (k : ∀ id, Named w id → Lasts R env w (next id)) :
    Lasts R env w (Host.stateNamed name >>= next) := by
  obtain ⟨id, found, led⟩ | ⟨f, failed⟩ := stateNamed_cases env w name
  · exact onward found (k id led)
  · exact halted failed

theorem stated (name : Text) {next : State → H β} (k : ∀ id, Lasts R env w (next (w.states.get id))) :
    Lasts R env w (stateOf name >>= next) := by
  obtain ⟨id, found⟩ | ⟨f, failed⟩ := stateOf_cases env w name
  · exact onward found (k id)
  · exact halted failed

theorem excepted (r : Except Failure α) {next : α → H β} (k : ∀ a, Lasts R env w (next a)) :
    Lasts R env w (H.ofExcept r >>= next) := by
  cases r with
  | ok a => exact k a
  | error f => exact halted rfl

/-! ## Operations on states -/

section States

variable (he : env.Follows) (hl : w.Lawful g)

include he hl

theorem close (id : Nat) : Lasts (Stage g) env w (State.close id) := by
  constructor
  intro hc
  obtain ⟨w', done, closing⟩ | ⟨e, w', error⟩ := close_closing he hl id
  · rw [done]
    exact closing.stages hl
  · exact absurd ⟨e, w', error⟩ hc

theorem take (id other : Nat) : Lasts (Stage g) env w (State.take id other) := by
  constructor
  intro hc
  by_cases hid : id = other
  · rw [hid, take_self]
    exact .refl
  obtain ⟨w₁, w', done, closing, hands⟩ | ⟨e, w', error⟩ := take_hands he hl hid
  · rw [done]
    exact (closing.stages hl).tail (.quiet (.handed hands))
  · exact absurd ⟨e, w', error⟩ hc

theorem create (origin : State.Origin) (config : Config) {runtime : Nat} (hr : runtime < 2) :
    Lasts (Quiet g) env w (State.create origin config runtime) := by
  constructor
  intro hc
  obtain ⟨id, w', done, quiets⟩ | ⟨f, w', failed, quiets⟩ | ⟨e, w', error⟩ := create_quiets he hl origin config hr
  · rw [done]
    exact quiets
  · rw [failed]
    exact quiets
  · exact absurd ⟨e, w', error⟩ hc

end States

theorem move (id : Nat) : Lasts (Quiet g) env w (State.move id) := by
  constructor
  intro _
  obtain ⟨w', done, quiets⟩ := move_quiets (g := g) env w id
  rw [done]
  exact quiets

theorem closeRegistry (id : Nat) : Lasts (Quiet g) env w (Registry.close id) := by
  constructor
  intro hc
  obtain ⟨w', done, hd⟩ | ⟨e, w', error⟩ := closeRegistry_dismissal env id w
  · rw [done]
    exact (Quiet.dismissed hd).quiets
  · exact absurd ⟨e, w', error⟩ hc

/-! ## What is kept under names -/

/-- A world in which other names lead to states. -/
theorem around_names (w : World) (names : List (Text × Nat)) : w.Around { w with names } :=
  ⟨rfl, rfl, rfl, rfl, rfl, rfl, rfl, fun _ => rfl, fun _ h => h, fun name _ h => .inl ⟨name, h⟩⟩

/-- A world that keeps other things: old ones, and selectors that go with their registries. -/
theorem around_stored (w : World) (stored : List (Text × Stored)) (h : ∀ name s, (name, Stored.selector s) ∈ stored →
    (∃ name, (name, Stored.selector s) ∈ w.stored) ∨ s.Goes w) : w.Around { w with stored } :=
  ⟨rfl, rfl, rfl, rfl, rfl, rfl, rfl, fun _ => rfl, fun _ h => h, h⟩

theorem mem_rebind {name : Text} {a : α} {xs : List (Text × α)} {x : Text × α} (h : x ∈ rebind name a xs) :
    x.2 = a ∨ x ∈ xs := by
  induction xs with
  | nil =>
    rw [List.mem_singleton.mp h]
    exact .inl rfl
  | cons y rest ih =>
    unfold rebind at h
    split at h
    · cases List.mem_cons.mp h with
      | inl h => rw [h]; exact .inl rfl
      | inr h => exact .inr (List.mem_cons_of_mem _ h)
    · cases List.mem_cons.mp h with
      | inl h => rw [h]; exact .inr List.mem_cons_self
      | inr h => exact (ih h).imp_right fun h => List.mem_cons_of_mem _ h

theorem around_patch (w : World) {p : Patch} (hp : p.Honest) :
    w.Around { w with runtimes := w.runtimes.modify sharedRuntime fun r => applyPatch r p } := by
  have generation (r : Binding.Runtime) : (applyPatch r p).generation = r.generation := by
    cases p <;> rfl
  have honest (r : Binding.Runtime) (h : Honest r) : Honest (applyPatch r p) := by
    cases p with
    | breakChunks b =>
      rintro _ ⟨⟩
      exact hp
    | off => exact nofun
    | _ => exact h
  refine ⟨rfl, rfl, rfl, rfl, rfl, rfl, rfl, fun n => ?_, fun n h => ?_, fun name _ h => .inl ⟨name, h⟩⟩
  · by_cases hn : n = sharedRuntime
    · rw [hn]
      dsimp only
      rw [Pool.get_modify_self, generation]
    · dsimp only
      rw [Pool.get_modify_ne _ hn]
  · by_cases hn : n = sharedRuntime
    · rw [hn] at h ⊢
      dsimp only
      rw [Pool.get_modify_self]
      exact honest _ h
    · dsimp only
      rwa [Pool.get_modify_ne _ hn]

theorem pair_lt (isShared : Bool) : (if isShared then sharedRuntime else foundRuntime) < 2 := by
  cases isShared <;> decide

/-! ## Commands -/

section Ways

variable (k : Ways g R)

include k

theorem around (f : World → World) (h : w.Around (f w)) : Lasts R env w (modify f : H Unit) := ⟨fun _ => .single (k.around h)⟩

variable (he : env.Follows)

include he

theorem of_leads (hs : w.Sound) {act : H α} (h : Leads env w act) : Lasts R env w act :=
  ⟨fun _ => .single (k.moves (h.after he hs w .refl))⟩

section Lawful

variable (hl : w.Lawful g)

include hl

theorem dropAll (ids : List Nat) : Lasts R env w (dropAll ids) := of_leads k he hl.toSound (.dropAll ids)

/-- Keeping something under a name lets go of what was there. -/
theorem store (name : Text) {s : Stored} (h : ∀ sel, s = .selector sel → sel.Goes w) : Lasts R env w (store name s) := by
  unfold Session.store
  refine onward (a := w) rfl ?_
  refine bind (around k _ (around_stored w _ fun key sel hmem => ?_)) fun _ w₁ _ kept => ?_
  · cases mem_rebind hmem with
    | inl new => exact .inr (h sel new.symm)
    | inr old => exact .inl ⟨key, old⟩
  · split
    · exact dropAll k he (k.lawfully kept hl) _
    · exact pure _

/-- What a command gave is shown, and kept or let go. -/
theorem conclude (keep : Option Text) (given : Given) : Lasts R env w (conclude keep given) := by
  unfold Session.conclude
  cases given with
  | shown a => exact pure _
  | value v =>
    refine onward (a := w) rfl ?_
    cases keep with
    | none => exact bind (dropAll k he hl _) fun _ _ _ _ => pure _
    | some name => exact bind (store k he hl name nofun) fun _ _ _ _ => pure _

/-- A command that keeps and drops nothing, and makes, closes and moves no state, makes moves only. -/
theorem works (name : Text) {c : Command} (hp : c.Plain) (hw : c.Works) : Lasts R env w (run name c) :=
  of_leads k he hl.toSound (.command hl.toSound name hp hw)

end Lawful

/-! Commands that may close states. -/

section Closing

variable (closes : ∀ (w : World), w.Lawful g → ∀ id, Lasts R env w (State.close id)) (hl : w.Lawful g)

include closes hl

omit k he in
/-- A state that no name leads to any more is closed. -/
theorem forget (id : Nat) : Lasts R env w (forget id) := by
  unfold Session.forget
  refine onward (a := w) rfl ?_
  split
  · exact pure _
  · exact dropping (closes w hl id)

omit he in
/-- A name is bound to a state, and the one that had it is forgotten. -/
theorem bindState (name : Text) (id : Nat) : Lasts R env w (bindState name id) := by
  unfold Session.bindState
  refine onward (a := w) rfl ?_
  refine bind (around k _ (around_names w _)) fun _ w₁ _ named => ?_
  split
  · split
    · exact forget closes (k.lawfully named hl) _
    · exact pure _
  · exact pure _

/-- A state that is made under a name. -/
theorem new (create : ∀ origin config {runtime}, runtime < 2 → Lasts R env w (State.create origin config runtime)) (name : Text)
    (openLibs : Option Bool) (config : Option Value) (attachment : Attachment) (isShared : Bool) :
    Lasts R env w (run name (.new openLibs config attachment isShared)) := by
  have made (config : Config) (origin : State.Origin) : Lasts R env w (do
      let id ← State.create origin config (if isShared then sharedRuntime else foundRuntime)
      Session.bindState name id
      setHandler (← State.get id) (.record name 0 none none)
      return nothing) := by
    refine bind (create origin config (pair_lt isShared)) fun id w₁ _ first => ?_
    have hl₁ := k.lawfully first hl
    refine bind (bindState k closes hl₁ name id) fun _ w₂ _ second => ?_
    have hl₂ := k.lawfully second hl₁
    refine onward (a := w₂.states.get id) rfl ?_
    exact bind (of_leads k he hl₂.toSound (.setHandler _ _)) fun _ _ _ _ => pure _
  unfold run
  refine excepted _ fun config => ?_
  cases attachment with
  | create => exact made config (.create openLibs)
  | borrow source =>
    cases source with
    | none => exact made config (.attach none)
    | some n =>
      dsimp only
      obtain ⟨id, found⟩ | ⟨f, failed⟩ := stateOf_cases env w n
      · have read : Session.machineOf n env w = .ok (w.states.get id).machine w := bind_ok found
        exact onward read (made config (.attach _))
      · have lost : Session.machineOf n env w = .error (.failure f) w := bind_error failed
        exact halted lost

/-- Every plain command goes by the steps by which operations on states go, if it closes no registry by itself. -/
theorem command (create : ∀ origin config {runtime}, runtime < 2 → Lasts R env w (State.create origin config runtime))
    (move : ∀ id, Named w id → Lasts R env w (State.move id))
    (take : ∀ id other, Named w id → Named w other → Lasts R env w (State.take id other)) (name : Text) {c : Command}
    (hp : c.Plain) (hc : c ≠ .closeRegistry) : Lasts R env w (run name c) := by
  by_cases hw : c.Works
  · exact works k he hl name hp hw
  cases c with
  | new openLibs config attachment isShared => exact new k he closes hl create name openLibs config attachment isShared
  | move target =>
    refine named name fun id led => bind (move id led) fun new w₁ _ first => ?_
    exact bind (bindState k closes (k.lawfully first hl) target new) fun _ _ _ _ => pure _
  | take source =>
    exact named name fun id led => named source fun other led' => bind (take id other led led') fun _ _ _ _ => pure _
  | close => exact named name fun id _ => bind (closes w hl id) fun _ _ _ _ => pure _
  | delete =>
    refine named name fun id _ => bind (around k (fun w => { w with names := unbind name w.names }) (around_names w _))
      fun _ w₁ _ first => ?_
    exact bind (forget closes (k.lawfully first hl) id) fun _ _ _ _ => pure _
  | within source raises =>
    refine named name fun id _ => bind (finally_ (of_leads k he hl.toSound ?_) fun w₁ first =>
      closes w₁ (k.lawfully first hl) id) fun _ _ _ _ => pure _
    refine .bind_state hl.toSound id fun s _ => .bind (.stateExecute s _) fun _ => ?_
    split
    · exact .fail _
    · exact .pure _
  | select way key =>
    refine stated name fun id => ?_
    obtain ⟨sel, chosen, goes⟩ | ⟨f, failed⟩ := selectorOf_cases env hl.toSound (hl.goes id) way
    · refine onward chosen (bind (store k he hl key ?_) fun _ _ _ _ => bind get fun _ _ _ _ => pure _)
      rintro _ ⟨⟩
      exact goes
    · exact halted failed
  | drop ref =>
    refine onward (a := w) rfl ?_
    refine bind (around k _ (around_stored w _ fun key sel hmem => .inl ⟨key, (List.mem_filter.mp hmem).1⟩))
      fun _ w₁ _ first => ?_
    dsimp only
    split
    · exact bind (dropAll k he (k.lawfully first hl) _) fun _ _ _ _ => pure _
    · exact pure _
  | closeRegistry => exact absurd rfl hc
  | patch p => exact bind (around k _ (around_patch w hp)) fun _ _ _ _ => pure _
  | _ => exact absurd trivial hw

end Closing
end Ways

section Stages

variable (he : env.Follows) (hl : w.Lawful g)

include he hl

/-- Every plain command goes by stages. -/
theorem stages (name : Text) {c : Command} (hp : c.Plain) : Lasts (Stage g) env w (run name c) := by
  by_cases hc : c = .closeRegistry
  · rw [hc]
    exact stated name fun id => bind (closeRegistry _).loud fun _ _ _ _ => pure _
  · exact command .stage he (fun w hl id => close he hl id) hl (fun origin config _ hr => (create he hl origin config hr).loud)
      (fun id _ => (move id).loud) (fun id other _ _ => take he hl id other) name hp hc

theorem act {s : Step} (hp : s.command.Plain) : Lasts (Stage g) env w s.act :=
  bind (stages he hl s.state hp) fun given _ _ first => conclude .stage he (Stages.lawful first hl) s.keep given

end Stages
end Lasts

/-! ## Runs -/

/-- The step comes back: no machine throws across the host. -/
def Step.Returns (w : World) (s : Step) : Prop := ¬ Thrown (s.act Env.full (fresh w))

/-- A step without the look at the size of the stack at its end. -/
def stepped (w : World) (s : Step) : World := final (s.act Env.full (fresh w))

/-- The look at the size of the stack at the end of a step changes nothing that matters. -/
theorem step_moves {s : Step} (hs : (stepped w s).Sound) : Moves (stepped w s) (step w s).2 := by
  have sized : Leads Env.full (stepped w s) (sizeOf? (stepped w s) s.state) := by
    unfold sizeOf?
    cases stateId? (stepped w s) s.state with
    | none => exact .pure _
    | some id => exact .bind (.bind .get fun _ => .pure _) fun t => .bind (.size t) fun _ => .pure _
  have moves := sized.after Env.full_follows hs _ .refl
  have run : (step w s).2 = final (sizeOf? (stepped w s) s.state Env.full (stepped w s)) := by
    unfold step stepped
    cases s.act Env.full (fresh w) with
    | ok a v =>
      simp only [final]
      cases sizeOf? v s.state Env.full v with
      | ok n u => rfl
      | error e u => rfl
    | error e v =>
      cases e with
      | failure f =>
        simp only [final]
        cases sizeOf? v s.state Env.full v with
        | ok n u => rfl
        | error e u => rfl
      | signal f =>
        simp only [final]
        cases sizeOf? v s.state Env.full v with
        | ok n u => rfl
        | error e u => rfl
  rw [run]
  exact moves

theorem fresh_moves (w : World) : Moves w (fresh w) :=
  Move.moves (.beside ⟨rfl, rfl, rfl, rfl, rfl, rfl, rfl, rfl, rfl, rfl⟩)

/-- A step of a session goes by stages. -/
theorem step_stages {s : Step} (hl : w.Lawful g) (hp : s.command.Plain) (hr : s.Returns w) : Stages g w (step w s).2 := by
  have first : Stages g w (fresh w) := Quiets.stages (fresh_moves w).quiets
  have acted : Stages g w (stepped w s) := first.trans ((Lasts.act Env.full_follows (first.lawful hl) hp).after hr)
  exact acted.tail (.quiet (.moves (step_moves (acted.lawful hl).toSound)))

/-- The worlds to which a world leads by plain steps that come back, and by operations on states between them. -/
inductive Runs (start : World) : World → Prop where
  | refl : Runs start start
  | step {w : World} {s : Step} (h : Runs start w) (hp : s.command.Plain) (hr : s.Returns w) : Runs start (step w s).2
  | created {w w' : World} {origin : State.Origin} {config : Config} {runtime id : Nat} (h : Runs start w) (hr : runtime < 2)
    (run : State.create origin config runtime Env.full w = .ok id w') : Runs start w'
  | moved {w w' : World} {id new : Nat} (h : Runs start w) (run : State.move id Env.full w = .ok new w') : Runs start w'
  | taken {w w' : World} {id other : Nat} (h : Runs start w) (run : State.take id other Env.full w = .ok () w') : Runs start w'
  | closed {w w' : World} {id : Nat} (h : Runs start w) (run : State.close id Env.full w = .ok () w') : Runs start w'

/-- The worlds that sessions reach. -/
abbrev Reached (g : Generation) (w : World) : Prop := Runs (start g) w

/-! ### Whole sessions -/

/-- The world after a list of steps. -/
def runAll (w : World) (steps : List Step) : World := steps.foldl (fun w s => (step w s).2) w

/-- The world of a session with one state, which owns its machine. -/
def begun (g : Lua.Generation) : World := runAll (start g) [⟨"s", none, .new none none .create true⟩]

/-- Whether an outcome is a result or an error of the host. -/
def comesBack : EStateM.Result Stop World α → Bool
  | .error (.signal _) _ => false
  | _ => true

theorem not_thrown {r : EStateM.Result Stop World α} (h : comesBack r = true) : ¬ Thrown r := by
  rintro ⟨e, w, rfl⟩
  cases h

/-- Whether an outcome is a result. -/
def succeeds : EStateM.Result Stop World α → Bool
  | .ok .. => true
  | .error .. => false

theorem ok_of_succeeds {r : EStateM.Result Stop World α} (h : succeeds r = true) : ∃ a w, r = .ok a w := by
  cases r with
  | ok a w => exact ⟨a, w, rfl⟩
  | error e w => cases h

/-- Whether all steps come back. -/
def allReturn : World → List Step → Bool
  | _, [] => true
  | w, s :: rest => comesBack (s.act Env.full (fresh w)) && allReturn (step w s).2 rest

theorem Runs.runAll {start : World} {steps : List Step} (h : Runs start w) (hp : ∀ s ∈ steps, s.command.Plain)
    (hr : allReturn w steps = true) : Runs start (Session.runAll w steps) := by
  induction steps generalizing w with
  | nil => exact h
  | cons s rest ih =>
    obtain ⟨first, after⟩ := Bool.and_eq_true_iff.mp hr
    exact ih (h.step (hp s List.mem_cons_self) (not_thrown first)) (fun s hs => hp s (List.mem_cons_of_mem _ hs)) after

/-- A world without anything is lawful. -/
theorem start_lawful (g : Generation) : (start g).Lawful g where
  runtimes := fun n => by
    match n with
    | 0 | 1 => exact nofun
    | n + 2 =>
      intro b hb
      have none : ((start g).runtimes.get (n + 2)).brokenChunks = none := by
        rw [Pool.get_of_size_le _ (Nat.le_add_left 2 n)]
        rfl
      exact nomatch none.symm.trans hb
  routines := fun id => by
    rw [Pool.get_of_size_le _ (Nat.zero_le id)]
    exact nofun
  given := fun id m hm => by
    rw [Pool.get_of_size_le _ (Nat.zero_le id)] at hm
    cases hm
  states := fun id m hm => by
    rw [Pool.get_of_size_le _ (Nat.zero_le id)] at hm
    cases hm
  stored := nofun
  generations := fun m vm hm => by
    rw [Pool.get_of_size_le _ (Nat.zero_le m)] at hm
    cases hm
  generation := fun n hn => by
    match n, hn with
    | 0, _ | 1, _ => rfl
  stateRuntime := fun id => by
    rw [Pool.get_of_size_le _ (Nat.zero_le id)]
    exact Nat.two_pos
  registryRuntime := fun id => by
    rw [Pool.get_of_size_le _ (Nat.zero_le id)]
    exact Nat.two_pos

theorem start_equipped (g : Generation) : (start g).Equipped := fun id => by
  rw [Pool.get_of_size_le _ (Nat.zero_le id)]
  decide

/-- A run goes by stages. -/
theorem Runs.stages (hl : w.Lawful g) (h : Runs w w') : Stages g w w' := by
  have comes {α : Type} {act : H α} {w w' : World} {a : α} (lasts : Lasts (Stage g) Env.full w act)
      (run : act Env.full w = .ok a w') : Stages g w w' := by
    have after := lasts.after (by
      rintro ⟨e, v, thrown⟩
      exact nomatch run.symm.trans thrown)
    rwa [run] at after
  induction h with
  | refl => exact .refl
  | step h hp hr ih => exact ih.trans (step_stages (Stages.lawful ih hl) hp hr)
  | created h hr run ih =>
    exact ih.trans (comes (Lasts.create Env.full_follows (Stages.lawful ih hl) _ _ hr).loud run)
  | moved h run ih => exact ih.trans (comes (Lasts.move _).loud run)
  | taken h run ih => exact ih.trans (comes (Lasts.take Env.full_follows (Stages.lawful ih hl) _ _) run)
  | closed h run ih => exact ih.trans (comes (Lasts.close Env.full_follows (Stages.lawful ih hl) _) run)

theorem reached_stages (h : Reached g w) : Stages g (start g) w := h.stages (start_lawful g)

theorem reached_lawful (h : Reached g w) : w.Lawful g := Stages.lawful (reached_stages h) (start_lawful g)

end LuaHost.Session
