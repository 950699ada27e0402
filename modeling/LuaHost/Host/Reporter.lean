import LuaHost.Host.Value

set_option autoImplicit false

/-!
# Reporters

A reporter holds the one callback that is told of failures. The callback may first put another one in
its place, report again, record what it was told, and fail. Every report goes to the callback in place
when the report begins.
-/

namespace LuaHost.Host

/-- A callback of a reporter. -/
inductive Handler where
  /-- prints the message -/
  | print
  /-- puts `successor` in its place, makes `again` more reports, each of them only once, records the
  report and raises -/
  | record (name : Text) (again : Nat) (successor : Option Handler) (raises : Option Text)

instance : Inhabited Handler := ⟨.print⟩

namespace Handler

def isDefault : Handler → Bool
  | print => true
  | record .. => false

/-- What is known of a failure. -/
structure Report where
  code : Int
  message : Text
  /-- the kind of the exception behind it, if there is one -/
  cause : Option String

/-- What a report led to, in order. -/
inductive Event where
  | recorded (name : Text) (report : Report)
  | printed (message : Text)

/-- The callback in place afterwards, what happened, and the text of the error that was raised. -/
structure Result where
  handler : Handler
  events : List Event
  raised : Option Text

def finish (name : Text) (raises : Option Text) (r : Report) (inner : Result) : Result :=
  match inner.raised with
  | some _ => inner
  | none => { inner with events := inner.events ++ [.recorded name r], raised := raises }

/-- The report that a callback makes while it handles one. -/
def Report.again (r : Report) : Report :=
  { r with code := r.code + 1, message := r.message ++ ("+" : Text) }

/-- Handles one report. -/
def handle : Handler → Report → Result
  | .print, r => ⟨.print, [.printed r.message], none⟩
  | .record name 0 none raises, r => finish name raises r ⟨.record name 0 none raises, [], none⟩
  | .record name 0 (some h) raises, r => finish name raises r ⟨h, [], none⟩
  | .record name (n + 1) none raises, r =>
    finish name raises r (handle (.record name n none raises) r.again)
  | .record name (_ + 1) (some h) raises, r => finish name raises r (handle h r.again)
termination_by h => sizeOf h

end Handler
end LuaHost.Host
