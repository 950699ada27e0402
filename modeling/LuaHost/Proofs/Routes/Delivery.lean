import LuaHost.Proofs.Routes.Reporters
import LuaHost.Proofs.Routes.Sessions
import LuaHost.Proofs.Routes.Telling

set_option autoImplicit false

/-!
# Reports find their way

States are made, attached, moved, taken and closed, callbacks are put in place, and operations fail: at every point
states, registries and reporters are in pairs, and what was made for a state goes on telling the reporter that the
state had then, wherever this reporter has gone. Whoever reports is told to the callback that is in place.
-/

namespace LuaHost.Session

open Host
open Lua (Generation)

variable {g : Generation} {w v u : World} {id : Nat}

/-! ## Runs -/

/-- The worlds to which a world leads by steps, by operations on states that were made, whether they come back or fail,
and by callbacks, which may put any others in place and have recorded whatever they like. -/
inductive Tended (start : World) : World → Prop where
  | refl : Tended start start
  | step {w : World} {s : Step} (h : Tended start w) (hp : s.command.Plain) (hc : s.command ≠ .closeRegistry) (hr : s.Returns w) :
    Tended start (step w s).2
  | create {w : World} {origin : State.Origin} {config : Config} {runtime : Nat} (h : Tended start w) (hr : runtime < 2)
    (hn : ¬ Thrown (State.create origin config runtime Env.full w)) :
    Tended start (final (State.create origin config runtime Env.full w))
  | move {w : World} {id : Nat} (h : Tended start w) (hid : id < w.states.size) :
    Tended start (final (State.move id Env.full w))
  | take {w : World} {id other : Nat} (h : Tended start w) (hid : id < w.states.size) (ho : other < w.states.size)
    (hn : ¬ Thrown (State.take id other Env.full w)) : Tended start (final (State.take id other Env.full w))
  | close {w : World} {id : Nat} (h : Tended start w) (hid : id < w.states.size)
    (hn : ¬ Thrown (State.close id Env.full w)) : Tended start (final (State.close id Env.full w))
  | placed {w : World} {reporters : Pool Handler} {reports : List Handler.Event} (h : Tended start w)
    (size : reporters.size = w.reporters.size) : Tended start { w with reporters, reports }

theorem Tended.runAll {start : World} {steps : List Step} (h : Tended start w)
    (hp : ∀ s ∈ steps, s.command.Plain ∧ s.command ≠ .closeRegistry) (hr : allReturn w steps = true) :
    Tended start (Session.runAll w steps) := by
  induction steps generalizing w with
  | nil => exact h
  | cons s rest ih =>
    obtain ⟨plain, keeps⟩ := hp s List.mem_cons_self
    obtain ⟨first, after⟩ := Bool.and_eq_true_iff.mp hr
    exact ih (h.step plain keeps (not_thrown first)) (fun s hs => hp s (List.mem_cons_of_mem _ hs)) after

/-- A world that is lawful and refers to what was made only. -/
structure Held (g : Generation) (w : World) : Prop where
  lawful : w.Lawful g
  sound : w.roll.Sound

theorem start_held (g : Generation) : Held g (start g) := ⟨start_lawful g, start_sound g⟩

/-- Without states there are no pairs to keep. -/
theorem start_paired (g : Generation) : (start g).Paired :=
  ⟨fun _ made => absurd made (Nat.not_lt_zero _), fun _ made => absurd made (Nat.not_lt_zero _),
    fun _ made => absurd made (Nat.not_lt_zero _), fun _ _ made => absurd made (Nat.not_lt_zero _),
    fun _ _ made => absurd made (Nat.not_lt_zero _)⟩

/-- Whatever callbacks do to each other, what else there is stays. -/
theorem Settles.placed {reporters : Pool Handler} {reports : List Handler.Event} :
    Settles g w { w with reporters, reports } :=
  .of_around ⟨rfl, rfl, rfl, rfl, rfl, rfl, rfl, fun _ => rfl, fun _ h => h, fun name _ h => .inl ⟨name, h⟩⟩

theorem placed_sound {reporters : Pool Handler} {reports : List Handler.Event} (h : w.roll.Sound)
    (size : reporters.size = w.reporters.size) : World.roll { w with reporters, reports } |>.Sound :=
  have grown : w.roll.Grows (World.roll { w with reporters, reports }) := ⟨Nat.le_refl _, Nat.le_of_eq size.symm, Nat.le_refl _⟩
  .grow grown h.registries h.references h.foreigns h.states h.names h.stored h.first

/-- A run settles, and leaves what refers to what was made. -/
theorem Tended.settles (h : Tended w v) (held : Held g w) : Settles g w v ∧ Held g v := by
  have he := Env.full_follows
  have next {v u : World} (ih : Settles g w v ∧ Held g v) (one : Settles g v u) (sound : u.roll.Sound) : Settles g w u ∧ Held g u :=
    ⟨ih.1.trans one, one.lawful ih.2.lawful, sound⟩
  induction h with
  | refl => exact ⟨.refl w, held⟩
  | step _ hp hc hr ih => exact next ih (step_settles ih.2.sound ih.2.lawful hp hc hr) (step_sound ih.2.sound _).1
  | create _ hr hn ih =>
    exact next ih (.all ((Lasts.settlesCreate ih.2.sound he ih.2.lawful _ _ hr).after hn))
      (Mirrors.sound (Mirrors.create _ _ _) ih.2.sound).1
  | move _ hid ih =>
    exact next ih (.all ((Lasts.settlesMove ih.2.sound hid).after fun ⟨_, _, thrown⟩ => by
      rw [State.move_eq _ _ hid] at thrown
      cases thrown)) (Mirrors.sound (Mirrors.move hid) ih.2.sound).1
  | take _ hid ho hn ih =>
    exact next ih (.all ((Lasts.settlesTake ih.2.sound ih.2.lawful hid ho).after hn))
      (Mirrors.sound (Mirrors.take hid ho) ih.2.sound).1
  | close _ hid hn ih =>
    exact next ih (.all ((Lasts.settlesClose he ih.2.lawful _).after hn)) (Mirrors.sound (Mirrors.close hid) ih.2.sound).1
  | placed _ size ih => exact next ih .placed (placed_sound ih.2.sound size)

/-! ## What was made for a state -/

/-- A state and what was made for it tell its reporter: its selectors, the functions of the host that are made through
its registry, and those that were made through it since a world. -/
structure Speaks (base : World) (s : State) (u : World) : Prop where
  executes : ∀ source, Routed Env.full s.reporter u (s.execute source)
  loads : ∀ path shown, Routed Env.full s.reporter u (s.loadFile path shown)
  selectors : ∀ (name : Value) (path : List Value) (use : Use), Routed Env.full s.reporter u (use.run (s.select name path))
  makes : ∀ routine isDirect f u', Registry.foreign s.registry routine isDirect Env.full u = .ok f u' →
    f = .foreign u.foreigns.size ∧ (u'.foreigns.get u.foreigns.size).registry = s.registry ∧
      (u'.foreigns.get u.foreigns.size).reporter = s.reporter
  functions : ∀ n, base.foreigns.size ≤ n → n < u.foreigns.size → (u.foreigns.get n).registry = s.registry →
    (u.foreigns.get n).reporter = s.reporter ∧ ∀ (l : Handle) (w : World), Routed Env.full s.reporter w ((u.foreigns.get n).call l)

/-- At every later point, also in the middle of an operation that began then, a state and what was made for it tell the
reporter that the state had. -/
theorem Tended.speaks (held : Held g w) (paired : w.Paired) (h : Tended w v) (k : Moves v u) (hid : id < w.states.size) :
    Speaks w (w.states.get id) u := by
  obtain ⟨settles, after⟩ := h.settles held
  have remembers : w.Remembers u := settles.remembers.trans k.steady.toRemembers
  have made : (w.states.get id).registry < w.registries.size := paired.made id hid
  have told {x : World} (h : w.Remembers x) :
      (x.registries.get (w.states.get id).registry).reporter = (w.states.get id).reporter :=
    (h.told _ made).trans (paired.told id hid)
  refine ⟨fun source => .execute _ source, fun path shown => .loadFile _ path shown, fun name path use => ?_,
    fun routine isDirect f u' run => ?_, fun n since before through => ?_⟩
  · have goes : ((w.states.get id).select name path).Goes v := fun m hm =>
      (Stages.loosens settles.stages).pairs (held.lawful.toSound.goes id m hm)
    exact (Routes.use Env.full_follows after.lawful.toSound goes (told settles.remembers) use).routed u k
  · cases run
    refine ⟨rfl, ?_, ?_⟩
    · dsimp only
      rw [Pool.get_add_self]
    · dsimp only
      rw [Pool.get_add_self]
      exact told remembers
  · have reporter : (u.foreigns.get n).reporter = (w.states.get id).reporter := by
      refine (remembers.made n since before (through ▸ made)).trans ?_
      rw [through]
      exact paired.told id hid
    refine ⟨reporter, fun l x => ?_⟩
    rw [← reporter]
    exact Routed.foreign _ l

/-! ## All together -/

open Procedure (Steps Due Delivered inPlace Sight)

/-- At every point of a run states, registries and reporters are in pairs. What was made for a state tells the reporter
that the state had then, at any later point. A report of an operation is told at once, unchanged, to the callback that is
in place, as are all reports that callbacks make meanwhile, and to nobody else. So it is when callbacks are any procedures
at all, that put others in place, report again and raise, whether or not they ever come back. -/
theorem reports_routed (h : Tended (start g) w) :
    w.Paired ∧
      (∀ v u id, Tended w v → Moves v u → id < w.states.size → Speaks w (w.states.get id) u) ∧
      (∀ env (v : World) reporter code message cause, ∃ raised v' later,
        H.report reporter code message cause env v = H.raise raised env v' ∧
          v' = { v with reporters := v'.reporters, reports := v'.reports } ∧
          Steps Handler.body ⟨v.reporters.get, v.reports, .run (.report reporter ⟨code, message, cause⟩ settled), [], []⟩
            ⟨v'.reporters.get, v'.reports, .run (settled raised), [],
              .begun reporter ⟨code, message, cause⟩ :: .invoked reporter (v.reporters.get reporter) ⟨code, message, cause⟩ :: later⟩ ∧
          Delivered v.reporters.get later ∧ v'.reporters.get = inPlace v.reporters.get later) ∧
      ∀ (C E S : Type) (body : Nat → C → Handler.Report → Procedure C E S) (callbacks : Nat → C) (kept : S) (p : Procedure C E S)
        (waiting : List (Option E → Procedure C E S)) (c : Procedure.Config C E S),
        Steps body ⟨callbacks, kept, .run p, waiting, []⟩ c → Due callbacks c := by
  obtain ⟨settles, held⟩ := h.settles (start_held g)
  have paired : w.Paired := settles.paired (start_paired g)
  refine ⟨paired, fun v u id later moves made => later.speaks held paired moves made, fun env v reporter code message cause => ?_,
    fun C E S body callbacks kept p waiting c steps => steps.delivered⟩
  obtain ⟨raised, v', seen, run, same, steps⟩ := report_steps env v reporter code message cause
  have passed : settled raised ≠ .report reporter ⟨code, message, cause⟩ settled := by
    cases raised with
    | none => exact nofun
    | some e => exact nofun
  obtain ⟨later, rfl, delivered, now⟩ := steps.reported passed
  exact ⟨raised, v', later, run, same, steps, delivered, now⟩

/-- A state that has failed under a callback of its own. -/
def failedWorld : World :=
  runAll (start .v54) [⟨"s", none, .new (some false) none .create true⟩, ⟨"s", none, .handler (.record "r" none none)⟩,
    ⟨"s", none, .execute (.text "local")⟩]

/-- The reporter of a state that is moved is that of another state then, and what was made before goes on telling it. -/
theorem reports_routed_moved :
    (failedWorld.states.get 0).reporter = 0 ∧ ((final (State.move 0 Env.full failedWorld)).states.get 0).reporter = 1 ∧
      ((final (State.move 0 Env.full failedWorld)).states.get 1).reporter = 0 ∧
      Speaks failedWorld (failedWorld.states.get 0) (final (State.move 0 Env.full failedWorld)) := by
  have plain : ∀ s ∈ ([⟨"s", none, .new (some false) none .create true⟩, ⟨"s", none, .handler (.record "r" none none)⟩,
      ⟨"s", none, .execute (.text "local")⟩] : List Step), s.command.Plain ∧ s.command ≠ .closeRegistry := by
    intro s hs
    simp only [List.mem_cons, List.not_mem_nil, or_false] at hs
    obtain rfl | rfl | rfl := hs <;> exact ⟨trivial, nofun⟩
  have run : Tended (start .v54) failedWorld := Tended.refl.runAll plain (by decide +kernel)
  have made : 0 < failedWorld.states.size := by decide +kernel
  exact ⟨by decide +kernel, by decide +kernel, by decide +kernel,
    (reports_routed run).2.1 _ _ 0 (Tended.refl.move made) .refl made⟩

end LuaHost.Session
