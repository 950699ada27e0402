import LuaHost.Proofs.Twins.Handovers

set_option autoImplicit false

/-!
# Handing machines over is transparent

Between the steps of a session machines may be handed over: a state is moved, or taken into one that was left
behind before, and from then on its names lead to the state that has the machine. The session shows what it
shows without that. The states that are left behind may be asked anything in the meantime: they answer that
there is nothing, and touch no machine.
-/

namespace LuaHost.Host

open Session

variable {ρ ρ' : Guise} {b : Roll} {w₀ w w' : World} {id other : Nat} {env : Env}

/-! ## States that are left behind -/

/-- What may be asked of a state. -/
inductive Asked where
  | execute (source : Value)
  | loadFile (path : Value) (shown : Text)
  | openLib (name : Value) (loader : State.Loader)
  | globalNames
  | size
  | collect
  | interact
  | close
  | setHandler (h : Handler)
  | exists (name : Value) (path : List Value)
  | get (name : Value) (path : List Value)
  | ref (name : Value) (path : List Value)
  | set (name : Value) (path : List Value) (v : Value)
  | call (name : Value) (path : List Value) (args : List Value)

namespace Asked

def run (id : Nat) : Asked → H Value
  | .execute source => do return .bool (← (← State.get id).execute source)
  | .loadFile path shown => do return .bool (← (← State.get id).loadFile path shown)
  | .openLib name loader => do
    (← State.get id).openLib name loader
    return .none
  | .globalNames => do return .list ((← (← State.get id).globalNames).map .text)
  | .size => do return .int (← (← State.get id).size)
  | .collect => do
    (← State.get id).collect
    return .none
  | .interact => do
    (← State.get id).interact
    return .none
  | .close => do
    State.close id
    return .none
  | .setHandler h => do
    Session.setHandler (← State.get id) h
    return .none
  | .exists name path => do return .bool (← ((← State.get id).select name path).exists_)
  | .get name path => do ((← State.get id).select name path).get
  | .ref name path => do ((← State.get id).select name path).ref
  | .set name path v => do return .bool (← ((← State.get id).select name path).set v)
  | .call name path args => do ((← State.get id).select name path).call args

/-- The answer of a state without a machine. -/
def inert : Asked → Value
  | .execute _ | .loadFile .. | .exists .. | .set .. => .bool false
  | .globalNames => .list []
  | .size => .int 0
  | .openLib .. | .collect | .interact | .close | .setHandler _ | .get .. | .ref .. | .call .. => .none

/-- All that changes by asking a state without a machine: the handler of its reporter, if it is set. -/
def leaves (id : Nat) (w : World) : Asked → World
  | .setHandler h => { w with reporters := w.reporters.put (w.states.get id).reporter h }
  | _ => w

/-- A state without a machine answers that there is nothing. -/
theorem run_gone (q : Asked) (gone : (w.states.get id).machine = none) : q.run id env w = .ok q.inert (q.leaves id w) := by
  have none : (w.states.get id).machine.isNone = true := by rw [gone]; rfl
  have found {β : Type} (next : State → H β) : (State.get id >>= next) env w = next (w.states.get id) env w := rfl
  have noHandle : (w.states.get id).handle = Option.none := by
    unfold State.handle
    rw [gone]
    rfl
  unfold Asked.run
  cases q with
  | execute source =>
    dsimp only
    rw [found, State.execute, if_pos none]
    rfl
  | loadFile path shown =>
    dsimp only
    rw [found, State.loadFile, if_pos none]
    rfl
  | openLib name loader =>
    dsimp only
    rw [found, State.openLib, if_pos none]
    rfl
  | globalNames =>
    dsimp only
    rw [found, State.globalNames, noHandle]
    rfl
  | size =>
    dsimp only
    rw [found, State.size, if_pos none]
    rfl
  | collect =>
    dsimp only
    rw [found, State.collect, if_neg (by rw [gone]; exact Bool.false_ne_true)]
    rfl
  | interact =>
    dsimp only
    rw [found, State.interact, if_pos none]
    rfl
  | close => exact bind_ok (close_idle env gone)
  | setHandler h => rfl
  | «exists» name path =>
    dsimp only
    rw [found, Selector.exists_, State.select, if_pos none]
    rfl
  | get name path =>
    dsimp only
    rw [found, Selector.get, State.select, if_pos none]
    rfl
  | ref name path =>
    dsimp only
    rw [found, Selector.ref, State.select, if_pos none]
    rfl
  | set name path v =>
    dsimp only
    rw [found, Selector.set, State.select, if_pos none]
    rfl
  | call name path args =>
    dsimp only
    rw [found, Selector.call, State.select, if_pos none]
    rfl

end Asked

/-- A state that stands for no other, has no machine, and tells a reporter of its own. -/
structure Behind (ρ : Guise) (w : World) (id : Nat) : Prop where
  made : id < w.states.size
  free : ∀ n, ρ.states.image n ≠ id
  gone : (w.states.get id).machine = none
  alone : ∀ n, ρ.reporters.image n ≠ (w.states.get id).reporter

namespace Behind

/-- A state stays behind when another one is handed over. -/
theorem stay (h : Behind ρ w id) (hw : w.roll.Sound) {seat : Renumbering} (fixed : ∀ n, seat.image n = id → n = id)
    (states : ∀ n, ρ'.states.image n = seat.image (ρ.states.image n))
    (reporters : ∀ n, ρ'.reporters.image n = (Renumbering.skip w.reporters.size).image (ρ.reporters.image n))
    (made : w.states.size ≤ w'.states.size) (same : w'.states.get id = w.states.get id) : Behind ρ' w' id where
  made := Nat.lt_of_lt_of_le h.made made
  free n e := h.free n (fixed _ ((states n).symm.trans e))
  gone := same ▸ h.gone
  alone n e := by
    rw [same, reporters] at e
    have lt := World.reporter_lt hw h.made id
    cases Nat.lt_or_ge (ρ.reporters.image n) w.reporters.size with
    | inl before => exact h.alone n ((Renumbering.skip_of_lt before).symm.trans e)
    | inr after =>
      rw [Renumbering.skip_of_le after] at e
      omega

/-- A state that is handed over stays behind. -/
theorem vacated {seat : Renumbering} (hid : id < w'.states.size) (same : w'.states.get id = w.vacated id)
    (left : ∀ n, seat.image (ρ.states.image n) ≠ id)
    (states : ∀ n, ρ'.states.image n = seat.image (ρ.states.image n))
    (reporters : ∀ n, ρ'.reporters.image n = (Renumbering.skip w.reporters.size).image (ρ.reporters.image n)) :
    Behind ρ' w' id where
  made := hid
  free n e := left n ((states n).symm.trans e)
  gone := by
    rw [same]
    rfl
  alone n e := by
    rw [same, reporters] at e
    exact Renumbering.skip_ne _ _ e

end Behind

/-! ## Sessions in which machines are handed over -/

/-- What the steps of a list show, one after another. -/
def showAll (w : World) : List Step → List StepAnswer
  | [] => []
  | s :: rest => (step w s).1 :: showAll (step w s).2 rest

theorem showAll_append (w : World) (steps : List Step) (s : Step) :
    showAll w (steps ++ [s]) = showAll w steps ++ [(step (runAll w steps) s).1] := by
  induction steps generalizing w with
  | nil => rfl
  | cons t rest ih => exact congrArg _ (ih _)

theorem runAll_append (w : World) (steps : List Step) (s : Step) : runAll w (steps ++ [s]) = (step (runAll w steps) s).2 := by
  unfold runAll
  rw [List.foldl_append]
  rfl

/-- What the steps of a session show, in which machines are handed over in between, the states that are left
behind by then, and the world. -/
inductive Handed (w₀ : World) : List Step → List StepAnswer → List Nat → World → Prop where
  | start : Handed w₀ [] [] [] w₀
  | step {steps : List Step} {answers : List StepAnswer} {left : List Nat} {w : World} (h : Handed w₀ steps answers left w)
      (s : Step) : Handed w₀ (steps ++ [s]) (answers ++ [(Session.step w s).1]) left (Session.step w s).2
  /-- a state is moved, and its names lead to the new one -/
  | moved {steps : List Step} {answers : List StepAnswer} {left : List Nat} {w v : World} {id new : Nat}
      (h : Handed w₀ steps answers left w) (made : id < w.states.size) (run : State.move id Env.full w = .ok new v) :
      Handed w₀ steps answers (id :: left) (v.redirect id new)
  /-- a state is taken into one that was left behind, to which its names lead then -/
  | taken {steps : List Step} {answers : List StepAnswer} {left : List Nat} {w v : World} {id other : Nat}
      (h : Handed w₀ steps answers left w) (behind : id ∈ left) (made : other < w.states.size) (apart : id ≠ other)
      (run : State.take id other Env.full w = .ok () v) :
      Handed w₀ steps answers (other :: left.filter (· ≠ id)) (v.redirect other id)
  /-- a state that was left behind is asked -/
  | asked {steps : List Step} {answers : List StepAnswer} {left : List Nat} {w : World} {id : Nat}
      (h : Handed w₀ steps answers left w) (behind : id ∈ left) (q : Asked) :
      Handed w₀ steps answers left (final (q.run id Env.full w))

/-- A world that looks like the one to which a session comes without handing anything over. -/
def Follows (w₀ : World) (left : List Nat) (w : World) : Prop :=
  w.roll.Sound ∧ ∃ ρ b, w₀.Twin ρ b w ∧ ∀ id ∈ left, Behind ρ w id

theorem Follows.step {left : List Nat} (h : Follows w₀ left w) (s : Step) :
    (Session.step w s).1 = (Session.step w₀ s).1 ∧ Follows (Session.step w₀ s).2 left (Session.step w s).2 := by
  obtain ⟨hw, ρ, b, twin, behind⟩ := h
  obtain ⟨shown, after⟩ := twin.step s
  obtain ⟨sound, grown⟩ := step_sound hw s
  refine ⟨shown, sound, ρ, b, after, fun id mem => ?_⟩
  have before := behind id mem
  have same : (Session.step w s).2.states.get id = w.states.get id :=
    (after.roll.spare id before.free).trans (twin.roll.spare id before.free).symm
  exact ⟨Nat.lt_of_lt_of_le before.made grown.states, before.free, same ▸ before.gone, same ▸ before.alone⟩

theorem Follows.moved {left : List Nat} (h : Follows w₀ left w) (hid : id < w.states.size) :
    Follows w₀ (id :: left) ((w.moved id).redirect id w.states.size) := by
  obtain ⟨hw, ρ, b, twin, behind⟩ := h
  have size := w.size_moved hid
  obtain ⟨ρ', after, states, reporters⟩ := twin.moved hw hid
  have sound : (w.moved id).roll.Sound := by
    have moves := (Mirrors.sound (Mirrors.move hid) hw).1
    rwa [State.move_eq Env.full w hid] at moves
  refine ⟨World.redirect_sound sound (Nat.lt_of_lt_of_eq (Nat.lt_succ_self _) size.symm), ρ', b, after, fun n mem => ?_⟩
  have vacated : ((w.moved id).redirect id w.states.size).states.get id = w.vacated id := Pool.get_put_self _ _ _
  by_cases hn : n = id
  · subst hn
    exact .vacated (Nat.lt_of_lt_of_eq (Nat.lt_succ_of_lt hid) size.symm) vacated
      (fun m => Renumbering.stand_free hid _) states reporters
  · have before := behind n ((List.mem_cons.mp mem).resolve_left hn)
    have same : ((w.moved id).redirect id w.states.size).states.get n = w.states.get n :=
      (Pool.get_put_ne _ hn _).trans (Pool.get_add_ne _ (Nat.ne_of_lt before.made) _)
    exact before.stay hw (fun m => Renumbering.stand_other hid before.made) states reporters (Nat.le_of_lt (Nat.lt_of_lt_of_eq (Nat.lt_succ_self _) size.symm)) same

theorem Follows.taken {left : List Nat} (h : Follows w₀ left w) (hid : id ∈ left) (ho : other < w.states.size)
    (apart : id ≠ other) : Follows w₀ (other :: left.filter (· ≠ id)) ((w.taken id other).redirect other id) := by
  obtain ⟨hw, ρ, b, twin, behind⟩ := h
  have aside := behind id hid
  have size := w.size_taken aside.made ho
  obtain ⟨ρ', after, states, reporters⟩ := twin.taken hw aside.made ho apart aside.free
  have sound : (w.taken id other).roll.Sound := by
    have takes := (Mirrors.sound (Mirrors.take aside.made ho) hw).1
    rwa [State.take_eq Env.full apart (close_idle Env.full aside.gone)] at takes
  refine ⟨World.redirect_sound sound (Nat.lt_of_lt_of_eq aside.made size.symm), ρ', b, after, fun n mem => ?_⟩
  have vacated : ((w.taken id other).redirect other id).states.get other = w.vacated other := Pool.get_put_self _ _ _
  by_cases hn : n = other
  · subst hn
    refine .vacated (Nat.lt_of_lt_of_eq ho size.symm) vacated (fun m e => aside.free m ?_) states reporters
    exact (Equiv.swap_apply_eq_iff.mp e).trans (Equiv.swap_apply_left n id)
  · obtain ⟨mem, ne⟩ := List.mem_filter.mp ((List.mem_cons.mp mem).resolve_left hn)
    have ne : n ≠ id := of_decide_eq_true ne
    have same : ((w.taken id other).redirect other id).states.get n = w.states.get n :=
      (Pool.get_put_ne _ hn _).trans (Pool.get_put_ne _ ne _)
    refine (behind n mem).stay hw (fun m e => ?_) states reporters (Nat.le_of_eq size.symm) same
    exact (Equiv.swap_apply_eq_iff.mp e).trans (Equiv.swap_apply_of_ne_of_ne hn ne)

theorem Follows.asked {left : List Nat} (h : Follows w₀ left w) (hid : id ∈ left) (q : Asked) :
    Follows w₀ left (q.leaves id w) := by
  obtain ⟨hw, ρ, b, twin, behind⟩ := h
  have aside := behind id hid
  cases q with
  | setHandler handler =>
    have lt := World.reporter_lt hw aside.made id
    have told := (World.Twin.refl hw).withReporters ((World.Twin.refl hw).roll.reporters.put (w.states.get id).reporter handler)
      (Pool.size_le_size_put _ _ _)
    have after : Roll.Twin ρ b w₀.roll { w.roll with reporters := w.reporters.put (w.states.get id).reporter handler } :=
      { twin.roll with reporters := twin.roll.reporters.aside lt aside.alone handler }
    refine ⟨told.roll.sound, ρ, b, ⟨twin.rest, after⟩, fun n mem => ?_⟩
    have before := behind n mem
    exact ⟨before.made, before.free, before.gone, before.alone⟩
  | _ => exact ⟨hw, ρ, b, twin, behind⟩

/-- A session in which machines are handed over shows what it shows without that. -/
theorem Handed.follows {steps : List Step} {answers : List StepAnswer} {left : List Nat} (hw : w₀.roll.Sound)
    (h : Handed w₀ steps answers left w) : answers = showAll w₀ steps ∧ Follows (runAll w₀ steps) left w := by
  induction h with
  | start => exact ⟨rfl, hw, .same, w₀.roll, .refl hw, fun _ mem => absurd mem List.not_mem_nil⟩
  | step _ s ih =>
    obtain ⟨shown, after⟩ := ih.2.step s
    rw [showAll_append, runAll_append, ← ih.1, shown]
    exact ⟨rfl, after⟩
  | moved _ made run ih =>
    cases run.symm.trans (State.move_eq Env.full _ made)
    exact ⟨ih.1, ih.2.moved made⟩
  | @taken steps answers left w v id other _ behind made apart run ih =>
    obtain ⟨_, _, _, _, aside⟩ := ih.2
    have idle := close_idle Env.full (aside id behind).gone
    cases run.symm.trans (State.take_eq Env.full apart idle)
    exact ⟨ih.1, ih.2.taken behind made apart⟩
  | @asked steps answers left w id _ behind q ih =>
    obtain ⟨_, _, _, _, aside⟩ := ih.2
    rw [q.run_gone (aside id behind).gone]
    exact ⟨ih.1, ih.2.asked behind q⟩

/-- Taking another state's machine ends as closing does; then, whatever happens later, handing over included,
it shows what it shows if the names lead to what the other state is moved to instead. -/
def World.TakesByMoving (w : World) (id other : Nat) : Prop :=
  (∀ e c, State.close id Env.full w = .error e c → State.take id other Env.full w = .error e c) ∧
    ∀ c, State.close id Env.full w = .ok () c → ∃ new t m,
      State.take id other Env.full w = .ok () t ∧ State.move other Env.full c = .ok new m ∧
        ∀ steps answers left v, Handed t steps answers left v →
          answers = showAll (m.redirect id new) steps ∧ v.rest = (runAll (m.redirect id new) steps).rest

theorem World.Twin.showAll (h : w.Twin ρ b w') (steps : List Step) :
    Host.showAll w' steps = Host.showAll w steps ∧ (runAll w steps).Twin ρ b (runAll w' steps) := by
  induction steps generalizing w w' with
  | nil => exact ⟨rfl, h⟩
  | cons s rest ih =>
    obtain ⟨shown, after⟩ := h.step s
    obtain ⟨later, twin⟩ := ih after
    exact ⟨congrArg₂ List.cons shown later, twin⟩

theorem takes_by_moving (hw : w.roll.Sound) (hid : id < w.states.size) (ho : other < w.states.size) (apart : id ≠ other) :
    w.TakesByMoving id other := by
  refine ⟨fun e c error => take_error Env.full apart error, fun c closed => ?_⟩
  have takes := State.take_eq Env.full apart closed
  obtain ⟨sound, grown⟩ := Mirrors.sound (Mirrors.close hid) hw
  have taken := (Mirrors.sound (Mirrors.take hid ho) hw).1
  rw [closed] at sound grown
  rw [takes] at taken
  have made : other < c.states.size := Nat.lt_of_lt_of_le ho grown.states
  obtain ⟨ρ, twin⟩ := World.Twin.instead taken (Nat.lt_of_lt_of_le hid grown.states) made apart
  refine ⟨_, _, _, takes, State.move_eq Env.full c made, fun steps answers left v handed => ?_⟩
  obtain ⟨shown, _, _, _, follows, _⟩ := handed.follows taken
  obtain ⟨same, after⟩ := twin.showAll steps
  exact ⟨shown.trans same.symm, follows.rest.trans after.rest.symm⟩

/-- Handing machines over is transparent: a session in which states are moved, or taken into ones that were left
behind, shows step by step what it shows without that, and leaves the same machines, files and journal. Every
state that was left behind answers that there is nothing, whatever the machines are, and leaves all but its
handler. Moving always succeeds and does nothing to a machine, taking is closing and then being bound to what the
other state is moved to, and a state that takes itself does nothing. -/
theorem handing_over_transparent {g : Lua.Generation} {steps : List Step} {answers : List StepAnswer} {left : List Nat}
    {w : World} (h : Handed (start g) steps answers left w) :
    (answers = showAll (start g) steps ∧ w.rest = (runAll (start g) steps).rest) ∧
      (∀ id ∈ left, ∀ (q : Asked) (env : Env) (machines : Pool Slot),
        q.run id env { w with machines } = .ok q.inert (q.leaves id { w with machines }) ∧ (q.leaves id w).rest = w.rest) ∧
      (∀ id, id < w.states.size → ∃ new v, State.move id Env.full w = .ok new v ∧ v.rest = w.rest) ∧
      (∀ id other, id < w.states.size → other < w.states.size → id ≠ other → w.TakesByMoving id other) ∧
      ∀ id, State.take id id Env.full w = .ok () w := by
  obtain ⟨shown, sound, _, _, twin, behind⟩ := h.follows (start_sound g)
  refine ⟨⟨shown, twin.rest⟩, fun id mem q env machines => ⟨q.run_gone (behind id mem).gone, ?_⟩, fun id made => ?_,
    fun id other hid ho apart => takes_by_moving sound hid ho apart, fun id => take_self Env.full w id⟩
  · cases q with
    | setHandler handler => rfl
    | _ => rfl
  · exact ⟨_, _, State.move_eq Env.full w made, rfl⟩

/-- A state is moved and asked, and its name leads to the new one when the next script runs. -/
theorem handing_over_transparent_between :
    ∃ answers w, Handed (start .v51) [⟨"s", none, .new none none .create true⟩, ⟨"s", none, .execute (.text "x = 1")⟩] answers [0] w ∧
      answers = showAll (start .v51) [⟨"s", none, .new none none .create true⟩, ⟨"s", none, .execute (.text "x = 1")⟩] ∧
      ∀ env, (Asked.execute (.text "x = 2")).run 0 env w = .ok (.bool false) w := by
  have made : 0 < (step (start .v51) ⟨"s", none, .new none none .create true⟩).2.states.size := by decide +kernel
  obtain ⟨answers, w, done⟩ : ∃ answers w, Handed (start .v51)
      [⟨"s", none, .new none none .create true⟩, ⟨"s", none, .execute (.text "x = 1")⟩] answers [0] w :=
    ⟨_, _, (((Handed.start.step _).moved made (State.move_eq Env.full _ made)).asked (List.mem_singleton_self 0)
      (.execute (.text "x = 2"))).step _⟩
  obtain ⟨⟨shown, _⟩, behind, _⟩ := handing_over_transparent done
  exact ⟨answers, w, done, shown, fun env => (behind 0 (List.mem_singleton_self 0) (.execute (.text "x = 2")) env w.machines).1⟩

end LuaHost.Host
