import LuaHost.Proofs.Routes.Making
import LuaHost.Proofs.Twins.Steps

set_option autoImplicit false

/-!
# Sessions keep pairs

Every plain step of a session that comes back keeps states, registries and reporters in pairs and lets registries
and functions remember whom they tell, and so does every operation on states between steps.
-/

namespace LuaHost.Session

open Host
open Lua (Generation)

variable {g : Generation} {env : Env} {w v w' : World} {α : Type} {id other : Nat}

/-- Stages that keep worlds paired, while what tells a reporter goes on telling it. -/
structure Settles (g : Generation) (w w' : World) : Prop where
  stages : Stages g w w'
  paired : w.Paired → w'.Paired
  remembers : w.Remembers w'

namespace Settles

theorem refl (w : World) : Settles g w w := ⟨.refl, fun h => h, .refl w⟩

theorem trans (h : Settles g w v) (k : Settles g v w') : Settles g w w' :=
  ⟨h.stages.trans k.stages, fun hp => k.paired (h.paired hp), h.remembers.trans k.remembers⟩

theorem lawful (h : Settles g w w') (hl : w.Lawful g) : w'.Lawful g := Stages.lawful h.stages hl

theorem all (h : Relation.ReflTransGen (Settles g) w w') : Settles g w w' := by
  induction h with
  | refl => exact .refl _
  | tail _ step ih => exact ih.trans step

theorem of_moves (h : Moves w w') : Settles g w w' := ⟨.single (.quiet (.moves h)), h.steady.paired, h.steady.toRemembers⟩

theorem of_around (h : w.Around w') : Settles g w w' :=
  have steady : w.Steady w' := .of_eq h.states h.registries h.foreigns
  ⟨.single (.quiet (.around h)), steady.paired, steady.toRemembers⟩

theorem ways : Ways g (Settles g) := ⟨of_moves, of_around, Settles.lawful⟩

/-- An operation that comes back settles, if it keeps worlds lawful. -/
theorem lasts {act : H α} (stages : Lasts (Stage g) env w act) (h : ¬ Thrown (act env w) → (w.Paired → (final (act env w)).Paired) ∧
    w.Remembers (final (act env w))) : Lasts (Settles g) env w act :=
  ⟨fun hc => .single ⟨stages.after hc, (h hc).1, (h hc).2⟩⟩

end Settles

/-! ## Operations on states -/

namespace Lasts

theorem settlesClose (he : env.Follows) (hl : w.Lawful g) (id : Nat) : Lasts (Settles g) env w (State.close id) := by
  refine Settles.lasts (close he hl id) fun hc => ?_
  obtain ⟨w', done, closing⟩ | ⟨e, w', error⟩ := close_closing he hl id
  · rw [done]
    exact ⟨closing.paired, closing.remembers⟩
  · exact absurd ⟨e, w', error⟩ hc

section Sound

variable (hs : w.roll.Sound)

include hs

/-- The state that is made tells a reporter that no other state tells. -/
theorem settlesCreate (he : env.Follows) (hl : w.Lawful g) (origin : State.Origin) (config : Config) {runtime : Nat}
    (hr : runtime < 2) : Lasts (Settles g) env w (State.create origin config runtime) := by
  refine Settles.lasts (create he hl origin config hr).loud fun hc => ?_
  obtain ⟨w₁, machine, id, w', brings, done, after⟩ | ⟨f, w', failed, moves⟩ | ⟨e, w', error⟩ := create_joins he hl origin config hr
  · rw [done]
    have steady := brings.steady
    have last : World.Steady _ w' := .of_eq after.states after.registries after.foreigns
    refine ⟨fun paired => last.paired ((steady.paired paired).join (fun n hn => ?_) _ _ _ _), ?_⟩
    · rw [steady.same] at hn ⊢
      exact Nat.ne_of_lt (World.reporter_lt hs hn n)
    · exact (steady.toRemembers.trans (w₁.remembers_join _ _ _ _ _)).trans last.toRemembers
  · rw [failed]
    exact ⟨moves.steady.paired, moves.steady.toRemembers⟩
  · exact absurd ⟨e, w', error⟩ hc

theorem settlesMove (hid : id < w.states.size) : Lasts (Settles g) env w (State.move id) := by
  refine Settles.lasts (move id).loud fun _ => ?_
  rw [State.move_eq env w hid]
  exact ⟨fun paired => paired.moved (fun n hn => World.reporter_lt hs hn n) hid, w.remembers_moved hid⟩

theorem settlesTake (hl : w.Lawful g) (hid : id < w.states.size) (ho : other < w.states.size) :
    Lasts (Settles g) Env.full w (State.take id other) := by
  refine Settles.lasts (take Env.full_follows hl id other) fun hc => ?_
  by_cases apart : id = other
  · rw [apart, take_self]
    exact ⟨fun h => h, .refl w⟩
  obtain ⟨c, closed, closing⟩ | ⟨e, w', error⟩ := close_closing Env.full_follows hl id
  · obtain ⟨sound, grown⟩ := Mirrors.sound (Mirrors.close hid) hs
    rw [closed] at sound grown
    have hid' : id < c.states.size := Nat.lt_of_lt_of_le hid grown.states
    have ho' : other < c.states.size := Nat.lt_of_lt_of_le ho grown.states
    rw [State.take_eq Env.full apart closed]
    exact ⟨fun paired => (closing.paired paired).taken (fun n hn => World.reporter_lt sound hn n) hid' ho',
      closing.remembers.trans (c.remembers_taken hid' ho')⟩
  · exact absurd ⟨e, w', take_error Env.full apart error⟩ hc

/-! ## Steps -/

theorem settles (hl : w.Lawful g) (name : Text) {c : Command} (hp : c.Plain) (hc : c ≠ .closeRegistry) :
    Lasts (Settles g) Env.full w (run name c) :=
  have made {id : Nat} (h : Named w id) : id < w.states.size := h.elim fun name mem => hs.names name id mem
  command Settles.ways Env.full_follows (fun _ hl id => settlesClose Env.full_follows hl id) hl
    (fun origin config _ hr => settlesCreate hs Env.full_follows hl origin config hr) (fun _ led => settlesMove hs (made led))
    (fun _ _ led led' => settlesTake hs hl (made led) (made led')) name hp hc

theorem settlesAct (hl : w.Lawful g) {s : Step} (hp : s.command.Plain) (hc : s.command ≠ .closeRegistry) :
    Lasts (Settles g) Env.full w s.act :=
  bind (settles hs hl s.state hp hc) fun given _ _ first =>
    conclude Settles.ways Env.full_follows (Settles.ways.lawfully first hl) s.keep given

end Sound
end Lasts

theorem step_settles {s : Step} (hs : w.roll.Sound) (hl : w.Lawful g) (hp : s.command.Plain) (hc : s.command ≠ .closeRegistry)
    (hr : s.Returns w) : Settles g w (step w s).2 := by
  have first : Settles g w (fresh w) := .of_moves (fresh_moves w)
  have sound : (fresh w).roll.Sound := hs
  have acted : Settles g w (stepped w s) := first.trans (.all ((Lasts.settlesAct sound (first.lawful hl) hp hc).after hr))
  exact acted.trans (.of_moves (step_moves (acted.lawful hl).toSound))

end LuaHost.Session
