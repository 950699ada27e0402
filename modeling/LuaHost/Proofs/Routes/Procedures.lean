import Mathlib.Logic.Function.Basic
import Mathlib.Logic.Relation
import LuaHost.Host.World

set_option autoImplicit false

/-!
# Callbacks that are procedures of the host

The callback of a reporter may be any procedure of the host: it may look at what the host keeps and change it,
put another callback in place, report again, to any depth, and raise; it goes on after its own reports as it
likes, whether they came back or raised. A machine with a stack carries procedures out and writes down what can
be seen: which report begins, which callback is invoked for it, which callback is put in place.

However procedures nest and end, every report is followed at once by the one invocation of the callback that
was in place when it began, of whom it is told unchanged.
-/

namespace LuaHost.Host

open Handler (Report)

/-- What a procedure of the host does next, where callbacks are in `C`, errors in `E`, and the host keeps an `S`. -/
inductive Procedure (C E S : Type) where
  | done
  | raise (e : E)
  | change (f : S → S) (next : S → Procedure C E S)
  | replace (reporter : Nat) (c : C) (next : Procedure C E S)
  /-- goes on with the error that came back, if one did -/
  | report (reporter : Nat) (r : Report) (next : Option E → Procedure C E S)

namespace Procedure

variable {C E S : Type}

/-- What can be seen of procedures. -/
inductive Sight (C : Type) where
  | begun (reporter : Nat) (r : Report)
  | invoked (reporter : Nat) (c : C) (r : Report)
  | replaced (reporter : Nat) (c : C)

/-- What the machine is about to do. -/
inductive Control (C E S : Type) where
  | run (p : Procedure C E S)
  /-- a report has begun, and the callback has been looked up -/
  | invoke (reporter : Nat) (c : C) (r : Report)

/-- The callbacks in place, what the host keeps, what is done now, what goes on after the reports in progress, the
innermost first, and what has been seen. -/
structure Config (C E S : Type) where
  callbacks : Nat → C
  kept : S
  control : Control C E S
  waiting : List (Option E → Procedure C E S)
  seen : List (Sight C)

/-- One step, where `body` says what a callback does that is invoked by a reporter. -/
inductive Step (body : Nat → C → Report → Procedure C E S) : Config C E S → Config C E S → Prop where
  | returns {now : Nat → C} {s : S} {k : Option E → Procedure C E S} {ks : List (Option E → Procedure C E S)} {seen : List (Sight C)} :
    Step body ⟨now, s, .run .done, k :: ks, seen⟩ ⟨now, s, .run (k none), ks, seen⟩
  | raises {now : Nat → C} {s : S} {e : E} {k : Option E → Procedure C E S} {ks : List (Option E → Procedure C E S)}
    {seen : List (Sight C)} : Step body ⟨now, s, .run (.raise e), k :: ks, seen⟩ ⟨now, s, .run (k (some e)), ks, seen⟩
  | changes {now : Nat → C} {s : S} {f : S → S} {next : S → Procedure C E S} {ks : List (Option E → Procedure C E S)}
    {seen : List (Sight C)} : Step body ⟨now, s, .run (.change f next), ks, seen⟩ ⟨now, f s, .run (next (f s)), ks, seen⟩
  | replaces {now : Nat → C} {s : S} {reporter : Nat} {c : C} {next : Procedure C E S} {ks : List (Option E → Procedure C E S)}
    {seen : List (Sight C)} : Step body ⟨now, s, .run (.replace reporter c next), ks, seen⟩
      ⟨Function.update now reporter c, s, .run next, ks, seen ++ [.replaced reporter c]⟩
  | begins {now : Nat → C} {s : S} {reporter : Nat} {r : Report} {next : Option E → Procedure C E S}
    {ks : List (Option E → Procedure C E S)} {seen : List (Sight C)} :
    Step body ⟨now, s, .run (.report reporter r next), ks, seen⟩
      ⟨now, s, .invoke reporter (now reporter) r, next :: ks, seen ++ [.begun reporter r]⟩
  | invokes {now : Nat → C} {s : S} {reporter : Nat} {c : C} {r : Report} {ks : List (Option E → Procedure C E S)}
    {seen : List (Sight C)} : Step body ⟨now, s, .invoke reporter c r, ks, seen⟩
      ⟨now, s, .run (body reporter c r), ks, seen ++ [.invoked reporter c r]⟩

abbrev Steps (body : Nat → C → Report → Procedure C E S) : Config C E S → Config C E S → Prop := Relation.ReflTransGen (Step body)

/-! ## What is seen -/

/-- What is seen, from callbacks in place, when every report is told at once to the callback that is in place then,
and to no other, and nobody else is invoked. -/
inductive Delivered : (Nat → C) → List (Sight C) → Prop where
  | nil {now : Nat → C} : Delivered now []
  | replaced {now : Nat → C} {reporter : Nat} {c : C} {later : List (Sight C)}
    (h : Delivered (Function.update now reporter c) later) : Delivered now (.replaced reporter c :: later)
  | reported {now : Nat → C} {reporter : Nat} {r : Report} {later : List (Sight C)} (h : Delivered now later) :
    Delivered now (.begun reporter r :: .invoked reporter (now reporter) r :: later)

/-- The callbacks in place after what was seen. -/
def inPlace (now : Nat → C) : List (Sight C) → Nat → C
  | [] => now
  | .replaced reporter c :: later => inPlace (Function.update now reporter c) later
  | .begun .. :: later | .invoked .. :: later => inPlace now later

theorem inPlace_append (now : Nat → C) (seen later : List (Sight C)) :
    inPlace now (seen ++ later) = inPlace (inPlace now seen) later := by
  induction seen generalizing now with
  | nil => rfl
  | cons e rest ih =>
    cases e with
    | replaced reporter c => exact ih _
    | begun | invoked => exact ih now

theorem Delivered.append {now : Nat → C} {seen later : List (Sight C)} (h : Delivered now seen)
    (k : Delivered (inPlace now seen) later) : Delivered now (seen ++ later) := by
  induction h with
  | nil => exact k
  | replaced _ ih => exact .replaced (ih k)
  | reported _ ih => exact .reported (ih k)

/-- What has been seen so far: all reports have been delivered, but for one that begins right now. -/
inductive Due (start : Nat → C) : Config C E S → Prop where
  | run {s : S} {p : Procedure C E S} {ks : List (Option E → Procedure C E S)} {seen : List (Sight C)} (h : Delivered start seen) :
    Due start ⟨inPlace start seen, s, .run p, ks, seen⟩
  | invoke {s : S} {reporter : Nat} {r : Report} {ks : List (Option E → Procedure C E S)} {seen : List (Sight C)}
    (h : Delivered start seen) :
    Due start ⟨inPlace start seen, s, .invoke reporter (inPlace start seen reporter) r, ks, seen ++ [.begun reporter r]⟩

variable {body : Nat → C → Report → Procedure C E S} {start : Nat → C} {c c' : Config C E S}

theorem Due.step (h : Due start c) (k : Step body c c') : Due start c' := by
  cases h with
  | @run _ _ _ seen h =>
    cases k with
    | returns => exact .run h
    | raises => exact .run h
    | changes => exact .run h
    | @replaces _ _ reporter f =>
      have placed : inPlace start (seen ++ [.replaced reporter f]) = Function.update (inPlace start seen) reporter f :=
        inPlace_append _ _ _
      rw [← placed]
      exact .run (h.append (.replaced .nil))
    | begins => exact .invoke h
  | @invoke s reporter r ks seen h =>
    cases k
    let told : List (Sight C) := [.begun reporter r, .invoked reporter (inPlace start seen reporter) r]
    have placed : inPlace start (seen ++ told) = inPlace start seen := inPlace_append _ _ _
    have after : Due start ⟨inPlace start (seen ++ told), s, .run (body reporter (inPlace start seen reporter) r), ks, seen ++ told⟩ :=
      .run (h.append (.reported .nil))
    rw [placed] at after
    rw [List.append_assoc]
    exact after

theorem Due.steps (h : Due start c) (k : Steps body c c') : Due start c' := by
  induction k with
  | refl => exact h
  | tail _ step ih => exact ih.step step

/-- However procedures replace callbacks, report and raise: at any point of a run every report that has begun, in
whatever procedure, has been told unchanged to the one callback that was in place, or is about to be. -/
theorem Steps.delivered {s : S} {p : Procedure C E S} {ks : List (Option E → Procedure C E S)}
    (k : Steps body ⟨start, s, .run p, ks, []⟩ c) : Due start c := by
  have begins : Due start ⟨inPlace start [], s, .run p, ks, []⟩ := .run .nil
  exact begins.steps k

/-! ## From the beginning of a report -/

/-- What has been seen is not forgotten. -/
theorem Step.seen (k : Step body c c') : ∃ later, c'.seen = c.seen ++ later := by
  cases k with
  | returns | raises | changes => exact ⟨[], (List.append_nil _).symm⟩
  | replaces | begins | invokes => exact ⟨_, rfl⟩

theorem Steps.seen (k : Steps body c c') : ∃ later, c'.seen = c.seen ++ later := by
  induction k with
  | refl => exact ⟨[], (List.append_nil _).symm⟩
  | tail _ step ih =>
    obtain ⟨before, ih⟩ := ih
    obtain ⟨later, step⟩ := step.seen
    exact ⟨before ++ later, by rw [step, ih, List.append_assoc]⟩

/-- Once a report has been made, it was told, unchanged, to the callback that was in place when it began; so was every report
that was made after it, and nobody else was invoked. -/
theorem Steps.reported {s s' : S} {reporter : Nat} {r : Report} {next : Option E → Procedure C E S} {p : Procedure C E S}
    {now : Nat → C} {ks : List (Option E → Procedure C E S)} {seen : List (Sight C)}
    (k : Steps body ⟨start, s, .run (.report reporter r next), [], []⟩ ⟨now, s', .run p, ks, seen⟩)
    (made : p ≠ .report reporter r next) :
    ∃ later, seen = .begun reporter r :: .invoked reporter (start reporter) r :: later ∧ Delivered start later ∧
      now = inPlace start later := by
  have delivered : Due start ⟨now, s', .run p, ks, seen⟩ := k.delivered
  obtain same | ⟨c, first, rest⟩ := Relation.ReflTransGen.cases_head k
  · injection same with _ _ control
    injection control with before
    exact absurd before.symm made
  cases first
  obtain ⟨later, same⟩ := Steps.seen rest
  cases delivered with
  | run h =>
    obtain rfl : seen = .begun reporter r :: later := same
    cases h with
    | reported h => exact ⟨_, rfl, h, rfl⟩

end Procedure
end LuaHost.Host
