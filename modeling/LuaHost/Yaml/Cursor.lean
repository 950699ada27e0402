import LuaHost.Text.Basic

set_option autoImplicit false

/-!
# Places in a text

A cursor is what is left of a text and where that begins. Past the end it shows the point 0, which no
text to be read holds.
-/

namespace LuaHost.Yaml

/-- Whether a point ends a line. -/
def isBreak (p : UInt32) : Bool := p == 10 || p == 13 || p == 0x85 || p == 0x2028 || p == 0x2029

/-- Whether a line or the text ends here. -/
def isStop (p : UInt32) : Bool := p == 0 || isBreak p

def isSpaceOrStop (p : UInt32) : Bool := p == 32 || isStop p

def isBlank (p : UInt32) : Bool := p == 32 || p == 9

def isBlankOrStop (p : UInt32) : Bool := isBlank p || isStop p

def isDigit (p : UInt32) : Bool := 48 ≤ p && p ≤ 57

/-- The number that decimal digits write. -/
def decimal (ps : List UInt32) : Nat := ps.foldl (fun n (p : UInt32) => n * 10 + (p.toNat - 48)) 0

def isHexDigit (p : UInt32) : Bool := isDigit p || (65 ≤ p && p ≤ 70) || (97 ≤ p && p ≤ 102)

/-- Letters, digits, hyphens and underscores. -/
def isWord (p : UInt32) : Bool :=
  isDigit p || (65 ≤ p && p ≤ 90) || (97 ≤ p && p ≤ 122) || p == 45 || p == 95

/-- Whether a point is one of those written in `s`. -/
def oneOf (s : String) (p : UInt32) : Bool := s.toList.any fun c => c.val == p

/-- Whether a text may hold a point: no control characters but tabs and line breaks, no surrogates. -/
def isReadable (p : UInt32) : Bool :=
  p == 9 || p == 10 || p == 13 || (0x20 ≤ p && p ≤ 0x7E) || p == 0x85 || (0xA0 ≤ p && p ≤ 0xD7FF)
    || (0xE000 ≤ p && p ≤ 0xFFFD) || (0x10000 ≤ p && p ≤ 0x10FFFF)

structure Cursor where
  rest : List UInt32
  index : Nat
  line : Nat
  column : Nat

namespace Cursor

def ofText (t : Text) : Cursor := ⟨t.points, 0, 0, 0⟩

/-- The point `k` places on. -/
def peek (c : Cursor) (k : Nat) : UInt32 := c.rest.getD k 0

/-- One point on. A byte order mark takes no column. -/
def step (c : Cursor) : Cursor :=
  match c.rest with
  | [] => c
  | p :: rest =>
    if isBreak p && !(p == 13 && rest.head? == some 10) then ⟨rest, c.index + 1, c.line + 1, 0⟩
    else ⟨rest, c.index + 1, c.line, if p == 0xFEFF then c.column else c.column + 1⟩

def forward (c : Cursor) : Nat → Cursor
  | 0 => c
  | n + 1 => c.step.forward n

/-- The points up to the first that does not satisfy `p`, and what follows them. -/
def takeWhile (c : Cursor) (p : UInt32 → Bool) : List UInt32 × Cursor :=
  let taken := c.rest.takeWhile p
  (taken, c.forward taken.length)

def skipWhile (c : Cursor) (p : UInt32 → Bool) : Cursor := (c.takeWhile p).2

def skipSpaces (c : Cursor) : Cursor := c.skipWhile (· == 32)

def skipLine (c : Cursor) : Cursor := c.skipWhile fun p => !isStop p

/-- The line break here, as it is kept, and what follows it; nothing if there is none. -/
def lineBreak (c : Cursor) : List UInt32 × Cursor :=
  let p := c.peek 0
  if p == 13 && c.peek 1 == 10 then ([10], c.forward 2)
  else if p == 10 || p == 13 || p == 0x85 then ([10], c.step)
  else if isBreak p then ([p], c.step)
  else ([], c)

/-- Whether `mark`, written three times, stands here between documents. -/
def isMarker (c : Cursor) (mark : UInt32) : Bool :=
  c.peek 0 == mark && c.peek 1 == mark && c.peek 2 == mark && isBlankOrStop (c.peek 3)

/-- Whether a line that starts here separates documents. -/
def isSeparator (c : Cursor) : Bool := c.isMarker 45 || c.isMarker 46

theorem step_rest (c : Cursor) : c.step.rest = c.rest.tail := by
  unfold step
  split
  · simp_all
  · split <;> simp_all

theorem forward_rest (c : Cursor) (n : Nat) : (c.forward n).rest = c.rest.drop n := by
  induction n generalizing c with
  | zero => rfl
  | succ n ih => simp [forward, ih, step_rest]

/-- Nothing is lost between what is taken and what follows. -/
theorem takeWhile_append_rest (c : Cursor) (p : UInt32 → Bool) :
    (c.takeWhile p).1 ++ (c.takeWhile p).2.rest = c.rest := by
  have whole := List.takeWhile_append_dropWhile (p := p) (l := c.rest)
  have h := congrArg (List.drop (List.takeWhile p c.rest).length) whole
  rw [List.drop_left] at h
  simp only [takeWhile, forward_rest, ← h, whole]

end Cursor
end LuaHost.Yaml
