set_option autoImplicit false

/-!
# Texts of the host

A text is a list of code points. Lone surrogates are allowed, because the host can hold them
even though no encoding accepts them; a `String` cannot.
-/

namespace LuaHost

/-- A text of the host: its code points in order, lone surrogates included. -/
structure Text where
  points : List UInt32
deriving DecidableEq, Hashable, Inhabited

namespace Text

def ofString (s : String) : Text := ⟨s.toList.map (·.val)⟩

instance : Coe String Text := ⟨ofString⟩

def append (s t : Text) : Text := ⟨s.points ++ t.points⟩

instance : Append Text := ⟨append⟩

def empty : Text := ⟨[]⟩

def isEmpty (t : Text) : Bool := t.points.isEmpty

def length (t : Text) : Nat := t.points.length

/-- The texts in order with `separator` between neighbours. -/
def join (separator : Text) : List Text → Text
  | [] => empty
  | [t] => t
  | t :: rest => t ++ separator ++ join separator rest

/-- `t` written `n` times. -/
def replicate (n : Nat) (t : Text) : Text := ⟨(List.replicate n t.points).flatten⟩

/-- Order by code point, shorter first among equals. -/
def le (s t : Text) : Bool := go s.points t.points
where
  go : List UInt32 → List UInt32 → Bool
    | [], _ => true
    | _ :: _, [] => false
    | a :: s, b :: t => if a == b then go s t else a < b

/-- The letters A to Z become small; every other point stays. -/
def lowerAscii (t : Text) : Text :=
  ⟨t.points.map fun c => if 65 ≤ c ∧ c ≤ 90 then c + 32 else c⟩

/-- The text as a `String`, if it has no surrogate. -/
def toString? (t : Text) : Option String :=
  (t.points.mapM fun (c : UInt32) => if h : c.isValidChar then some (Char.mk c h) else none).map String.ofList

/-- The text as a `String`, with U+FFFD for each surrogate. -/
def toStringLossy (t : Text) : String :=
  String.ofList (t.points.map fun (c : UInt32) => if h : c.isValidChar then Char.mk c h else '\uFFFD')

@[simp] theorem points_append (s t : Text) : (s ++ t).points = s.points ++ t.points := rfl

theorem append_assoc (s t u : Text) : s ++ t ++ u = s ++ (t ++ u) := by
  change Text.mk _ = Text.mk _
  simp

end Text
end LuaHost
