import LuaHost.Proofs.Lives.Handing
import LuaHost.Proofs.Twins.Trampolines

set_option autoImplicit false

/-!
# States that are made and handed over in twin worlds

Making a state, closing one, moving and taking mirror themselves: what is made in twin worlds gets the
numbers that read as each other.
-/

namespace LuaHost.Host

variable {ρ : Guise} {b : Roll} {w w' : World} {α β β' : Type} {env : Env}

namespace Roll

theorem Has.of_lt {r : Roll} {registry reporter : Nat} (h : registry < r.registries.size) (k : reporter < r.reporters.size) :
    r.Has registry reporter := ⟨Nat.lt_of_lt_of_le h (Nat.le_max_right _ _), Nat.lt_of_lt_of_le k (Nat.le_max_right _ _)⟩

end Roll

theorem renumbered_beq (ρ : Renumbering) (m n : Nat) : (ρ.image m == ρ.image n) = (m == n) := by
  rw [Bool.eq_iff_iff, beq_iff_eq, beq_iff_eq]
  exact ⟨ρ.injective, fun h => h ▸ rfl⟩

namespace Mirrors

variable {R : Roll → β → β' → Prop}

/-! ## What a state is made of -/

theorem createReporter : Mirrors env ρ b (fun c r r' => r' = ρ.reporters.image r ∧ r < c.reporters.size)
    State.createReporter State.createReporter :=
  modifyGet fun w _ twin =>
    have lt : w.reporters.size < (w.reporters.add .print).size := Nat.lt_of_lt_of_eq (Nat.lt_succ_self _) (Pool.size_add _ _).symm
    ⟨twin.withReporters (twin.roll.reporters.add .print) (Nat.le_of_lt lt), twin.roll.reporters.size, lt⟩

theorem createRegistry (runtime : Nat) (machine : Option Nat) {reporter : Nat} (h : reporter < max 1 b.reporters.size) :
    Mirrors env ρ b (fun c r r' => r' = ρ.registries.image r ∧ r < c.registries.size)
      (Registry.create runtime machine reporter) (Registry.create runtime machine (ρ.reporters.image reporter)) :=
  modifyGet fun w _ twin =>
    let made : Registry := ⟨runtime, machine, reporter, []⟩
    have lt : w.registries.size < (w.registries.add made).size := Nat.lt_of_lt_of_eq (Nat.lt_succ_self _) (Pool.size_add _ _).symm
    ⟨twin.withRegistries (twin.roll.registries.add made) (Nat.le_of_lt lt)
      (Pool.all_add (P := fun r : Registry => r.reporter < max 1 w.reporters.size) twin.roll.sound.registries
        (Roll.below_mono h twin.roll.grown.reporters)), twin.roll.registries.size, lt⟩

/-- A state is added in both worlds. -/
theorem addState {s : State} (hs : b.Has s.registry s.reporter) (first : 0 < b.registries.size ∧ 0 < b.reporters.size) :
    Mirrors env ρ b (fun c id id' => id' = ρ.states.image id ∧ id < c.states.size)
      (MonadState.modifyGet fun w : World => (w.states.size, { w with states := w.states.add s }) : H Nat)
      (MonadState.modifyGet fun w : World => (w.states.size, { w with states := w.states.add (ρ.state s) })) :=
  modifyGet fun w w' twin => by
    have lt : w.states.size < (w.states.add s).size := Nat.lt_of_lt_of_eq (Nat.lt_succ_self _) (Pool.size_add _ _).symm
    have size : w'.states.size = ρ.states.image w.states.size := twin.roll.states.size
    have grown := twin.roll.grown
    refine ⟨twin.withStates (twin.roll.states.add s) (Nat.le_of_lt lt) ?_ (fun _ => ?_) fun n hn => ?_, size, lt⟩
    · exact Pool.all_add (P := fun s : State => w.roll.Has s.registry s.reporter) twin.roll.sound.states (hs.mono grown)
    · exact ⟨Nat.lt_of_lt_of_le first.1 grown.registries, Nat.lt_of_lt_of_le first.2 grown.reporters⟩
    · exact Pool.get_add_ne _ (fun e => hn _ (size.symm.trans e.symm)) _

/-- A state that was made is changed in both worlds. -/
theorem modifyState {id : Nat} (hid : id < b.states.size) {f f' : State → State}
    (hf : ∀ s, f' (ρ.state s) = ρ.state (f s))
    (hb : ∀ r, b.Grows r → ∀ s, r.Has s.registry s.reporter → r.Has (f s).registry (f s).reporter) :
    Mirrors env ρ b Same (MonadState.modifyGet fun w : World => ((), { w with states := w.states.modify id f }) : H Unit)
      (MonadState.modifyGet fun w : World => ((), { w with states := w.states.modify (ρ.states.image id) f' })) :=
  modifyGet fun w w' twin => by
    have made : id < w.states.size := Nat.lt_of_lt_of_le hid twin.roll.grown.states
    have size : (w.states.modify id f).size = w.states.size := Pool.size_modify _ made f
    refine ⟨twin.withStates (twin.roll.states.modify id (hf _)) (Nat.le_of_eq size.symm) ?_ (fun h => ?_) fun n hn => ?_, rfl⟩
    · exact Pool.all_modify (P := fun s : State => w.roll.Has s.registry s.reporter) twin.roll.sound.states id
        (hb _ twin.roll.grown _ (twin.roll.sound.states id))
    · exact twin.roll.sound.first (size ▸ h)
    · exact Pool.get_modify_ne _ (hn id).symm _

/-- A state that was made is replaced in both worlds. -/
theorem putState {id : Nat} (hid : id < b.states.size) {s : State} (hs : b.Has s.registry s.reporter) :
    Mirrors env ρ b Same (State.put id s) (State.put (ρ.states.image id) (ρ.state s)) := by
  refine modify fun w w' twin => ?_
  have made : id < w.states.size := Nat.lt_of_lt_of_le hid twin.roll.grown.states
  have size : (w.states.put id s).size = w.states.size := Pool.size_put _ made s
  refine twin.withStates (twin.roll.states.put id s) (Nat.le_of_eq size.symm) ?_ (fun h => ?_) fun n hn => ?_
  · exact Pool.all_put (P := fun s : State => w.roll.Has s.registry s.reporter) twin.roll.sound.states id
      (hs.mono twin.roll.grown)
  · exact twin.roll.sound.first (size ▸ h)
  · exact Pool.get_put_ne _ (hn id).symm _

/-! ## Making and closing -/

theorem joinState (origin : State.Origin) (config : Config) (runtime : Nat) {reporter : Nat} (machine : Option Nat)
    (hr : reporter < b.reporters.size) : Mirrors env ρ b (fun c id id' => id' = ρ.states.image id ∧ id < c.states.size)
      (joinState origin config runtime reporter machine)
      (joinState origin config runtime (ρ.reporters.image reporter) machine) := by
  refine bindTo (createRegistry runtime machine (Nat.lt_of_lt_of_le hr (Nat.le_max_right _ _))) fun c hc registry _ made => ?_
  obtain ⟨rfl, made⟩ := made
  have heard : reporter < c.reporters.size := Nat.lt_of_lt_of_le hr hc.reporters
  let s : State := ⟨machine, origin.isOwner, config, runtime, reporter, registry⟩
  refine bindTo (addState (s := s) (.of_lt made heard) ⟨Nat.zero_lt_of_lt made, Nat.zero_lt_of_lt heard⟩) fun d _ id _ hid => ?_
  obtain ⟨rfl, hid⟩ := hid
  exact bind (debug _) fun _ => return_ fun r hr => ⟨rfl, Nat.lt_of_lt_of_le hid hr.states⟩

theorem create (origin : State.Origin) (config : Config) (runtime : Nat) :
    Mirrors env ρ b (fun c id id' => id' = ρ.states.image id ∧ id < c.states.size)
      (State.create origin config runtime) (State.create origin config runtime) := by
  refine bind (change _ (fun _ => rfl) fun _ => rfl) fun _ => bind (Mirrors.runtime _) fun rt => ?_
  refine bindTo createReporter fun c hc reporter _ hr => ?_
  obtain ⟨rfl, hr⟩ := hr
  have joins (machine : Option Nat) : Mirrors env ρ c (fun c id id' => id' = ρ.states.image id ∧ id < c.states.size)
      (Host.joinState origin config runtime reporter machine)
      (Host.joinState origin config runtime (ρ.reporters.image reporter) machine) := joinState origin config runtime machine hr
  cases origin with
  | attach machine => exact joins machine
  | create openLibs =>
    have rest (v : Value) : Mirrors env ρ c (fun c id id' => id' = ρ.states.image id ∧ id < c.states.size)
        (joinFresh rt (openLibs.getD config.openLibs) (Host.joinState (.create openLibs) config runtime reporter) v)
        (joinFresh rt (openLibs.getD config.openLibs)
          (Host.joinState (.create openLibs) config runtime (ρ.reporters.image reporter)) v) := by
      cases v with
      | int m => exact ite (bind (runProgram _ _ _) fun _ => joins _) (joins _)
      | _ => exact fail _
    exact bind (runProgram rt none (Binding.Api.newState rt)) rest

theorem close {id : Nat} (hid : id < b.states.size) :
    Mirrors env ρ b Same (State.close id) (State.close (ρ.states.image id)) := by
  refine bindState id fun c hc s hs => ?_
  have made : id < c.states.size := Nat.lt_of_lt_of_le hid hc.states
  have lost : Mirrors env ρ c Same
      (MonadState.modifyGet fun w : World =>
        ((), { w with states := w.states.modify id fun s => { s with machine := none } }) : H Unit)
      (MonadState.modifyGet fun w : World =>
        ((), { w with states := w.states.modify (ρ.states.image id) fun s => { s with machine := none } })) :=
    modifyState made (fun _ => rfl) fun _ _ _ hs => hs
  have collects : Mirrors env ρ c Same s.collect (ρ.state s).collect := collect s
  obtain ⟨machine, isOwner, config, runtime, reporter, registry⟩ := s
  cases machine with
  | none => exact pure _
  | some m =>
    refine ite (bind (debug _) fun _ => bind collects fun _ => bind (closeRegistry registry) fun _ => ?_)
      (bind (closeRegistry registry) fun _ => lost)
    exact bind (runWith _ _ _) fun _ => bind (releaseMachine m) fun _ => lost

theorem takeFrom {id other : Nat} (hid : id < b.states.size) (ho : other < b.states.size) :
    Mirrors env ρ b Same (State.takeFrom id other) (State.takeFrom (ρ.states.image id) (ρ.states.image other)) := by
  refine bindState other fun c hc o _ => ?_
  refine bind (modifyState (Nat.lt_of_lt_of_le hid hc.states) (fun _ => rfl) fun _ _ _ hs => hs) fun _ => ?_
  refine bindTo createReporter fun d hd reporter _ hr => ?_
  obtain ⟨rfl, hr⟩ := hr
  refine bindTo (createRegistry o.runtime none (Nat.lt_of_lt_of_le hr (Nat.le_max_right _ _))) fun e he registry _ made => ?_
  obtain ⟨rfl, made⟩ := made
  have there : other < e.states.size := Nat.lt_of_lt_of_le ho (hc.trans (hd.trans he)).states
  exact putState (s := { o with machine := none, isOwner := false, reporter, registry }) there
    (.of_lt made (Nat.lt_of_lt_of_le hr he.reporters))

theorem move {id : Nat} (hid : id < b.states.size) :
    Mirrors env ρ b (fun c id id' => id' = ρ.states.image id ∧ id < c.states.size) (State.move id) (State.move (ρ.states.image id)) := by
  refine now fun c hc sound => bindState id fun d hd s hs => ?_
  have made : id < c.states.size := Nat.lt_of_lt_of_le hid hc.states
  have first := sound.first (Nat.zero_lt_of_lt made)
  refine bindTo (addState (s := { s with machine := none, isOwner := false }) hs
    ⟨Nat.lt_of_lt_of_le first.1 hd.registries, Nat.lt_of_lt_of_le first.2 hd.reporters⟩) fun e he new _ hn => ?_
  obtain ⟨rfl, hn⟩ := hn
  have there : id < e.states.size := Nat.lt_of_lt_of_le made (hd.trans he).states
  exact bind (takeFrom hn there) fun _ => return_ fun r hr => ⟨rfl, Nat.lt_of_lt_of_le hn hr.states⟩

theorem take {id other : Nat} (hid : id < b.states.size) (ho : other < b.states.size) :
    Mirrors env ρ b Same (State.take id other) (State.take (ρ.states.image id) (ρ.states.image other)) := by
  unfold State.take
  rw [renumbered_beq]
  refine ite (pure _) (bind (close hid) fun _ => bindState id fun c hc s _ => bindState other fun d hd o ho' => ?_)
  have grown := hc.trans hd
  have there : id < d.states.size := Nat.lt_of_lt_of_le hid grown.states
  have other_there : other < d.states.size := Nat.lt_of_lt_of_le ho grown.states
  exact bind (putState (s := { s with config := o.config, runtime := o.runtime, reporter := o.reporter, registry := o.registry })
    there ho') fun _ => takeFrom there other_there

end Mirrors
end LuaHost.Host
