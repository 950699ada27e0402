import LuaHost.Proofs.Routes.Procedures

set_option autoImplicit false

/-!
# Reporters carry out procedures

The callbacks of the model are procedures of the host: handling a report is what the machine for procedures
does with it. So what holds of all procedures holds of every report that an operation makes.
-/

namespace LuaHost.Host

open Handler (Report)
open Procedure (Config Step Steps Sight)

namespace Handler

/-- A callback that has nothing more to report records what it was told and ends. -/
def ending (name : Text) (raises : Option Text) (r : Report) : Procedure Handler Text (List Event) :=
  .change (fun events => events ++ [.recorded name r]) fun _ => match raises with
    | some e => .raise e
    | none => .done

/-- A callback that has reported itself ends with the error that came back, if one did. -/
def afterwards (name : Text) (raises : Option Text) (r : Report) : Option Text → Procedure Handler Text (List Event)
  | some e => .raise e
  | none => ending name raises r

/-- What a callback does that is invoked by a reporter: it puts its successor in place, or itself with one report
less to make. -/
def body (reporter : Nat) : Handler → Report → Procedure Handler Text (List Event)
  | .print, r => .change (fun events => events ++ [.printed r.message]) fun _ => .done
  | .record name 0 none raises, r => ending name raises r
  | .record name 0 (some h) raises, r => .replace reporter h (ending name raises r)
  | .record name (n + 1) none raises, r =>
    .replace reporter (.record name n none raises) (.report reporter r.again (afterwards name raises r))
  | .record name (_ + 1) (some h) raises, r => .replace reporter h (.report reporter r.again (afterwards name raises r))

variable {reporter : Nat} {now : Nat → Handler} {events : List Event} {seen : List (Sight Handler)}
  {next : Option Text → Procedure Handler Text (List Event)} {ks : List (Option Text → Procedure Handler Text (List Event))}

/-- An ending comes to what waits for the report. -/
theorem ending_steps (name : Text) (raises : Option Text) (r : Report) :
    Steps body ⟨now, events, .run (ending name raises r), next :: ks, seen⟩
      ⟨now, events ++ [.recorded name r], .run (next raises), ks, seen⟩ := by
  refine .head .changes ?_
  cases raises with
  | none => exact .single .returns
  | some e => exact .single .raises

/-- The rest of a callback comes to what waits for its report, once the report that it made itself has come back. -/
theorem afterwards_steps (name : Text) (raises : Option Text) (r : Report) (inner : Result) :
    Steps body ⟨now, events ++ inner.events, .run (afterwards name raises r inner.raised), next :: ks, seen⟩
      ⟨now, events ++ (finish name raises r inner).events, .run (next (finish name raises r inner).raised), ks, seen⟩ := by
  obtain ⟨handler, told, raised⟩ := inner
  cases raised with
  | some e => exact .single .raises
  | none =>
    have ends : Steps body ⟨now, events ++ told, .run (ending name raises r), next :: ks, seen⟩
        ⟨now, events ++ told ++ [.recorded name r], .run (next raises), ks, seen⟩ := ending_steps name raises r
    rw [List.append_assoc] at ends
    exact ends

/-- A report begins, and the callback in place is invoked. -/
theorem invoked_steps (r : Report) : Steps body ⟨now, events, .run (.report reporter r next), ks, seen⟩
    ⟨now, events, .run (body reporter (now reporter) r), next :: ks,
      seen ++ [.begun reporter r] ++ [.invoked reporter (now reporter) r]⟩ := .head .begins (.single .invokes)

/-- Handling a report is carrying out the callback in place, and what that leads to. -/
theorem handle_steps (h : Handler) (r : Report) (now : Nat → Handler) (placed : now reporter = h) (events : List Event)
    (next : Option Text → Procedure Handler Text (List Event)) (ks : List (Option Text → Procedure Handler Text (List Event)))
    (seen : List (Sight Handler)) :
    ∃ later, Steps body ⟨now, events, .run (.report reporter r next), ks, seen⟩
      ⟨Function.update now reporter (h.handle r).handler, events ++ (h.handle r).events, .run (next (h.handle r).raised), ks,
        later⟩ := by
  -- a callback that reports again after it has put another one in place
  have again {c : Handler} {name : Text} {raises : Option Text} {r : Report} {now : Nat → Handler} {events : List Event}
      {next : Option Text → Procedure Handler Text (List Event)} {ks : List (Option Text → Procedure Handler Text (List Event))}
      {seen : List (Sight Handler)}
      (invoked : body reporter (now reporter) r = .replace reporter c (.report reporter r.again (afterwards name raises r)))
      (ih : ∀ (now : Nat → Handler), now reporter = c → ∀ events next ks (seen : List (Sight Handler)),
        ∃ later, Steps body ⟨now, events, .run (.report reporter r.again next), ks, seen⟩
          ⟨Function.update now reporter (c.handle r.again).handler, events ++ (c.handle r.again).events,
            .run (next (c.handle r.again).raised), ks, later⟩) :
      ∃ later, Steps body ⟨now, events, .run (.report reporter r next), ks, seen⟩
        ⟨Function.update now reporter (finish name raises r (c.handle r.again)).handler,
          events ++ (finish name raises r (c.handle r.again)).events,
          .run (next (finish name raises r (c.handle r.again)).raised), ks, later⟩ := by
    have begins : Steps body ⟨now, events, .run (.report reporter r next), ks, seen⟩ _ := invoked_steps r
    rw [invoked] at begins
    obtain ⟨later, inner⟩ := ih (Function.update now reporter c) (Function.update_self _ _ _) events (afterwards name raises r)
      (next :: ks) _
    rw [Function.update_idem] at inner
    have same : (finish name raises r (c.handle r.again)).handler = (c.handle r.again).handler := by
      unfold finish
      split
      · rfl
      · rfl
    rw [same]
    exact ⟨later, ((begins.tail .replaces).trans inner).trans (afterwards_steps name raises r _)⟩
  induction h, r using handle.induct generalizing now events next ks seen with
  | case1 r =>
    have begins : Steps body ⟨now, events, .run (.report reporter r next), ks, seen⟩ _ := invoked_steps r
    rw [placed] at begins
    rw [handle, ← placed, Function.update_eq_self]
    exact ⟨_, (begins.tail .changes).tail .returns⟩
  | case2 name raises r =>
    have begins : Steps body ⟨now, events, .run (.report reporter r next), ks, seen⟩ _ := invoked_steps r
    rw [placed] at begins
    rw [handle, finish, ← placed, Function.update_eq_self]
    exact ⟨_, begins.trans (ending_steps name raises r)⟩
  | case3 name h raises r =>
    have begins : Steps body ⟨now, events, .run (.report reporter r next), ks, seen⟩ _ := invoked_steps r
    rw [placed] at begins
    rw [handle, finish]
    exact ⟨_, (begins.tail .replaces).trans (ending_steps name raises r)⟩
  | case4 name n raises r ih =>
    rw [handle]
    exact again (by rw [placed]; rfl) ih
  | case5 name n h raises r ih =>
    rw [handle]
    exact again (by rw [placed]; rfl) ih

end Handler

/-- What the maker of a report does when it comes back. -/
def settled : Option Text → Procedure Handler Text (List Handler.Event)
  | some e => .raise e
  | none => .done

/-- A report of an operation is a run of the machine: it begins with the callbacks that are in place, and in the world
that it leaves those are in place that the run has left, all that was recorded has been recorded, and the error that the
run has raised, if it has, is raised. -/
theorem report_steps (env : Env) (w : World) (reporter : Nat) (code : Int) (message : Text) (cause : Option String) :
    ∃ raised w' seen, H.report reporter code message cause env w = H.raise raised env w' ∧
      w' = { w with reporters := w'.reporters, reports := w'.reports } ∧
      Steps Handler.body ⟨w.reporters.get, w.reports, .run (.report reporter ⟨code, message, cause⟩ settled), [], []⟩
        ⟨w'.reporters.get, w'.reports, .run (settled raised), [], seen⟩ := by
  let result := (w.reporters.get reporter).handle ⟨code, message, cause⟩
  obtain ⟨seen, steps⟩ := Handler.handle_steps (w.reporters.get reporter) ⟨code, message, cause⟩ w.reporters.get rfl w.reports
    settled [] []
  have placed : (w.reporters.put reporter result.handler).get = Function.update w.reporters.get reporter result.handler := by
    funext n
    by_cases h : n = reporter
    · rw [h, Pool.get_put_self, Function.update_self]
    · rw [Pool.get_put_ne _ h, Function.update_of_ne h]
  rw [← placed] at steps
  exact ⟨result.raised, { w with reporters := w.reporters.put reporter result.handler, reports := w.reports ++ result.events },
    seen, rfl, rfl, steps⟩

end LuaHost.Host
