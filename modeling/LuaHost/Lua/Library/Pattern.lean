import LuaHost.Lua.Numeral

set_option autoImplicit false

/-!
# Patterns

Matching of byte strings against Lua's patterns: classes, sets, repetitions, captures, balanced pairs
and frontiers. A pattern matches at the first place and in the longest way its operators allow.
-/

namespace LuaHost.Lua.Pattern

/-- What a capture holds so far. -/
inductive Extent where
  | isOpen
  | position
  | length (n : Nat)
deriving DecidableEq

structure Capture where
  start : Nat
  extent : Extent

abbrev Captures := Array Capture

structure Subject where
  text : ByteArray
  pattern : ByteArray

namespace Subject

def byte (x : Subject) (i : Nat) : UInt8 := x.text.data.getD i 0
def pat (x : Subject) (i : Nat) : UInt8 := x.pattern.data.getD i 0
def ends (x : Subject) : Nat := x.pattern.size

end Subject

def isLower (b : UInt8) : Bool := 97 ≤ b && b ≤ 122
def isUpper (b : UInt8) : Bool := 65 ≤ b && b ≤ 90
def toLower (b : UInt8) : UInt8 := if isUpper b then b + 32 else b
def toUpper (b : UInt8) : UInt8 := if isLower b then b - 32 else b
def isPunct (b : UInt8) : Bool := 33 ≤ b && b ≤ 126 && !Numeral.isAlnum b

/-- Whether a byte is in the class of a letter; a capital letter is the complement. -/
def inClass (b letter : UInt8) : Bool :=
  let member := match (Char.ofNat (toLower letter).toNat) with
    | 'a' => some (Numeral.isAlpha b)
    | 'c' => some (b < 32 || b == 127)
    | 'd' => some (Numeral.isDigit b)
    | 'g' => some (33 ≤ b && b ≤ 126)
    | 'l' => some (isLower b)
    | 'p' => some (isPunct b)
    | 's' => some (Numeral.isSpace b)
    | 'u' => some (isUpper b)
    | 'w' => some (Numeral.isAlnum b)
    | 'x' => some (Numeral.isHexDigit b)
    | 'z' => some (b == 0)
    | _ => none
  match member with
  | some r => if isUpper letter then !r else r
  | none => letter == b

/-- The end of a set that starts before `p`, searched from there. -/
def setEnd (x : Subject) : Nat → Nat → Bool → Except String Nat
  | 0, _, _ => .error "malformed pattern (missing ']')"
  | fuel + 1, p, isFirst =>
    if x.ends ≤ p then .error "malformed pattern (missing ']')"
    else if x.pat p == 93 && !isFirst then .ok (p + 1)
    else if x.pat p == 37 then
      if x.ends ≤ p + 1 then .error "malformed pattern (missing ']')" else setEnd x fuel (p + 2) false
    else setEnd x fuel (p + 1) false

/-- The end of the single-byte item at `p`. -/
def itemEnd (x : Subject) (p : Nat) : Except String Nat :=
  if x.pat p == 37 then
    if x.ends ≤ p + 1 then .error "malformed pattern (ends with '%')" else .ok (p + 2)
  else if x.pat p == 91 then
    let q := if x.pat (p + 1) == 94 then p + 2 else p + 1
    setEnd x (x.ends + 1) q true
  else .ok (p + 1)

/-- Whether a byte is in the set between `p` and its closing bracket at `last`. -/
def inSet (x : Subject) (b : UInt8) (last : Nat) : Nat → Nat → Bool
  | 0, _ => false
  | fuel + 1, p =>
    if last ≤ p then false
    else if x.pat p == 37 then inClass b (x.pat (p + 1)) || inSet x b last fuel (p + 2)
    else if x.pat (p + 1) == 45 && p + 2 < last then
      (x.pat p ≤ b && b ≤ x.pat (p + 2)) || inSet x b last fuel (p + 3)
    else x.pat p == b || inSet x b last fuel (p + 1)

def matchSet (x : Subject) (b : UInt8) (p last : Nat) : Bool :=
  if x.pat (p + 1) == 94 then !inSet x b last (x.ends + 1) (p + 2)
  else inSet x b last (x.ends + 1) (p + 1)

/-- Whether the byte at `s` matches the item from `p` to `ep`. -/
def single (x : Subject) (s p ep : Nat) : Bool :=
  if x.text.size ≤ s then false
  else
    let b := x.byte s
    if x.pat p == 46 then true
    else if x.pat p == 37 then inClass b (x.pat (p + 1))
    else if x.pat p == 91 then matchSet x b p (ep - 1)
    else x.pat p == b

/-- How many bytes from `s` on match the item. -/
def runLength (x : Subject) (p ep : Nat) : Nat → Nat → Nat
  | 0, _ => 0
  | fuel + 1, s => if single x s p ep then 1 + runLength x p ep fuel (s + 1) else 0

/-- The end of a balanced stretch between the bytes `b` and `e`, seen from inside it. -/
def balanceEnd (x : Subject) (b e : UInt8) : Nat → Nat → Nat → Option Nat
  | 0, _, _ => none
  | fuel + 1, s, depth =>
    if x.text.size ≤ s then none
    else if x.byte s == e then if depth == 1 then some (s + 1) else balanceEnd x b e fuel (s + 1) (depth - 1)
    else if x.byte s == b then balanceEnd x b e fuel (s + 1) (depth + 1)
    else balanceEnd x b e fuel (s + 1) depth

/-- The last capture that is still open. -/
def openCapture? (caps : Captures) : Nat → Option Nat
  | 0 => none
  | n + 1 =>
    match caps[n]? with
    | some ⟨_, .isOpen⟩ => some n
    | _ => openCapture? caps n

def slice (b : ByteArray) (start n : Nat) : ByteArray := b.extract start (start + n)

abbrev Match := Except String (Option (Nat × Captures))

mutual

/-- Matches the pattern from `p` on at the place `s`. -/
def matchAt (x : Subject) : Nat → Nat → Nat → Captures → Match
  | 0, _, _, _ => .error "pattern too complex"
  | fuel + 1, s, p, caps =>
    if x.ends ≤ p then .ok (some (s, caps))
    else
      let c := x.pat p
      if c == 40 then
        if x.pat (p + 1) == 41 then matchAt x fuel s (p + 2) (caps.push ⟨s, .position⟩)
        else matchAt x fuel s (p + 1) (caps.push ⟨s, .isOpen⟩)
      else if c == 41 then
        match openCapture? caps caps.size with
        | none => .error "invalid pattern capture"
        | some i =>
          let start := (caps[i]?.map (·.start)).getD 0
          matchAt x fuel s (p + 1) (caps.setIfInBounds i ⟨start, .length (s - start)⟩)
      else if c == 36 && p + 1 == x.ends then
        if s == x.text.size then .ok (some (s, caps)) else .ok none
      else if c == 37 && x.pat (p + 1) == 98 then
        if x.ends ≤ p + 3 then .error "malformed pattern (missing arguments to '%b')"
        else if x.text.size ≤ s || x.byte s != x.pat (p + 2) then .ok none
        else match balanceEnd x (x.pat (p + 2)) (x.pat (p + 3)) (x.text.size + 1) (s + 1) 1 with
          | some s' => matchAt x fuel s' (p + 4) caps
          | none => .ok none
      else if c == 37 && x.pat (p + 1) == 102 then
        if x.pat (p + 2) != 91 then .error "missing '[' after '%f' in pattern"
        else match itemEnd x (p + 2) with
          | .error e => .error e
          | .ok ep =>
            let before := if s == 0 then 0 else x.byte (s - 1)
            if !matchSet x before (p + 2) (ep - 1) && matchSet x (x.byte s) (p + 2) (ep - 1) then
              matchAt x fuel s ep caps
            else .ok none
      else if c == 37 && Numeral.isDigit (x.pat (p + 1)) then
        let i := (x.pat (p + 1)).toNat - 49
        match caps[i]? with
        | some ⟨start, .length n⟩ =>
          if x.pat (p + 1) == 48 then .error "invalid capture index %0"
          else if x.text.size < s + n || slice x.text start n != slice x.text s n then .ok none
          else matchAt x fuel (s + n) (p + 2) caps
        | _ => .error ("invalid capture index %" ++ toString ((x.pat (p + 1)).toNat - 48))
      else matchItem x fuel s p caps

/-- Matches a single-byte item and its repetition mark. -/
def matchItem (x : Subject) : Nat → Nat → Nat → Captures → Match
  | 0, _, _, _ => .error "pattern too complex"
  | fuel + 1, s, p, caps =>
    match itemEnd x p with
    | .error e => .error e
    | .ok ep =>
      let mark := x.pat ep
      if mark == 63 then
        if single x s p ep then
          match matchAt x fuel (s + 1) (ep + 1) caps with
          | .ok none => matchAt x fuel s (ep + 1) caps
          | r => r
        else matchAt x fuel s (ep + 1) caps
      else if mark == 43 then
        if single x s p ep then
          matchMost x fuel (s + 1) (runLength x p ep (x.text.size + 1) (s + 1)) (ep + 1) caps
        else .ok none
      else if mark == 42 then matchMost x fuel s (runLength x p ep (x.text.size + 1) s) (ep + 1) caps
      else if mark == 45 then matchLeast x fuel s p ep caps
      else if single x s p ep then matchAt x fuel (s + 1) ep caps
      else .ok none

/-- Matches the rest after as many repetitions as possible, at most `n`. -/
def matchMost (x : Subject) : Nat → Nat → Nat → Nat → Captures → Match
  | 0, _, _, _, _ => .error "pattern too complex"
  | fuel + 1, s, n, p, caps =>
    match matchAt x fuel (s + n) p caps with
    | .ok none =>
      match n with
      | 0 => .ok none
      | n + 1 => matchMost x fuel s n p caps
    | r => r

/-- Matches the rest after as few repetitions as possible. -/
def matchLeast (x : Subject) : Nat → Nat → Nat → Nat → Captures → Match
  | 0, _, _, _, _ => .error "pattern too complex"
  | fuel + 1, s, p, ep, caps =>
    match matchAt x fuel s (ep + 1) caps with
    | .ok none => if single x s p ep then matchLeast x fuel (s + 1) p ep caps else .ok none
    | r => r

end

/-- A bound on the steps of a match. -/
def matchFuel (x : Subject) : Nat := 4 * (x.text.size + x.pattern.size + 4) * (x.pattern.size + 4)

/-- The first match at or after `s`: its start, its end and its captures. -/
def search (x : Subject) (anchored : Bool) (p : Nat) : Nat → Nat → Except String (Option (Nat × Nat × Captures))
  | 0, _ => .ok none
  | fuel + 1, s =>
    if x.text.size < s then .ok none
    else match matchAt x (matchFuel x) s p #[] with
      | .error e => .error e
      | .ok (some (e, caps)) => .ok (some (s, e, caps))
      | .ok none => if anchored then .ok none else search x anchored p fuel (s + 1)

/-- Whether a pattern has no special bytes. -/
def isPlain (pattern : ByteArray) : Bool :=
  pattern.data.all fun b => !List.contains [94, 36, 42, 43, 63, 46, 40, 91, 37, 45] b.toNat

/-- The first place at or after `s` where a byte string occurs. -/
def findPlain (text word : ByteArray) : Nat → Nat → Option Nat
  | 0, _ => none
  | fuel + 1, s =>
    if text.size < s + word.size then none
    else if slice text s word.size == word then some s
    else findPlain text word fuel (s + 1)

end LuaHost.Lua.Pattern
