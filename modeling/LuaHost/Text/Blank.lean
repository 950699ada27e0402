import LuaHost.Text.Basic

set_option autoImplicit false

/-!
# Blank code points

White space in the sense of the bidirectional classes of Unicode: its spaces, its line and
paragraph separators, and the four information separators of ASCII.
-/

namespace LuaHost.Text

def isBlank (c : UInt32) : Bool :=
  (9 ≤ c && c ≤ 13) || (28 ≤ c && c ≤ 32) || c == 0x85 || c == 0xA0 || c == 0x1680
    || (0x2000 ≤ c && c ≤ 0x200A) || c == 0x2028 || c == 0x2029 || c == 0x202F || c == 0x205F
    || c == 0x3000

/-- The text without blanks at its two ends. -/
def strip (t : Text) : Text :=
  ⟨((t.points.dropWhile isBlank).reverse.dropWhile isBlank).reverse⟩

/-- Every blank of core's class is one of these. -/
theorem isBlank_of_isWhitespace (c : Char) (h : c.isWhitespace = true) : isBlank c.val = true := by
  simp only [Char.isWhitespace, Bool.or_eq_true, decide_eq_true_eq] at h
  rcases h with ((h | h) | h) | h <;> subst h <;> decide

end LuaHost.Text
