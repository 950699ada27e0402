import LuaHost.Text.Basic

set_option autoImplicit false

/-!
# Paths as texts

A tidy path has no empty parts and no single dots; an empty one is a dot.
-/

namespace LuaHost.Text

/-- The parts of a path between slashes. -/
def pathParts : List UInt32 → List (List UInt32)
  | [] => [[]]
  | p :: rest =>
    match pathParts rest with
    | q :: qs => if p == 47 then [] :: q :: qs else (p :: q) :: qs
    | [] => [[p]]

/-- How many slashes begin a tidy path: two stay two, any other number becomes one. -/
def rootMarks (ps : List UInt32) : List UInt32 :=
  match ps with
  | 47 :: 47 :: 47 :: _ => [47]
  | 47 :: 47 :: _ => [47, 47]
  | 47 :: _ => [47]
  | _ => []

def tidyPath (t : Text) : Text :=
  let kept := (pathParts t.points).filter fun p => !p.isEmpty && p != [46]
  let whole := rootMarks t.points ++ List.intercalate [47] kept
  if whole.isEmpty then "." else ⟨whole⟩

end LuaHost.Text
