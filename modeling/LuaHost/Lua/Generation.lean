set_option autoImplicit false

/-!
# Generations of Lua

The four interface generations that a host can embed, the outcomes of protected calls and the
numbers each generation gives them.
-/

namespace LuaHost.Lua

inductive Generation where
  | v51
  | v52
  | v53
  | v54
deriving DecidableEq, Repr, Inhabited

namespace Generation

def number : Generation → Nat
  | v51 => 501
  | v52 => 502
  | v53 => 503
  | v54 => 504

def ofNumber? : Int → Option Generation
  | 501 => some v51
  | 502 => some v52
  | 503 => some v53
  | 504 => some v54
  | _ => none

/-- Whether numbers have an integer subtype. -/
def hasIntegers (g : Generation) : Bool := 503 ≤ g.number

/-- Whether `g` is at least as recent as `h`. -/
def since (g h : Generation) : Bool := h.number ≤ g.number

/-- The two-part name as programs see it. -/
def version : Generation → String
  | v51 => "5.1"
  | v52 => "5.2"
  | v53 => "5.3"
  | v54 => "5.4"

theorem ofNumber_number (g : Generation) : ofNumber? g.number = some g := by cases g <;> rfl

end Generation

/-- How loading a chunk or a protected call ended. -/
inductive Status where
  | ok
  | yield
  | errRun
  | errSyntax
  | errMem
  | errGc
  | errErr
  | errFile
deriving DecidableEq, Repr, Inhabited

/-- The number of a status, if the generation has it. -/
def Status.code? (g : Generation) : Status → Option Int
  | ok => some 0
  | yield => some 1
  | errRun => some 2
  | errSyntax => some 3
  | errMem => some 4
  | errGc => match g with
    | .v52 | .v53 => some 5
    | .v51 | .v54 => none
  | errErr => match g with
    | .v52 | .v53 => some 6
    | .v51 | .v54 => some 5
  | errFile => match g with
    | .v52 | .v53 => some 7
    | .v51 | .v54 => some 6

/-- The number of a status; a failed finalizer counts as a run-time error where it has no number. -/
def Status.code (g : Generation) (s : Status) : Int := (s.code? g).getD 2

/-- All statuses of a generation have different numbers. -/
theorem Status.code?_injective (g : Generation) (s t : Status) (n : Int)
    (hs : s.code? g = some n) (ht : t.code? g = some n) : s = t := by
  cases g <;> cases s <;> cases t <;> simp_all [Status.code?] <;> omega

end LuaHost.Lua
