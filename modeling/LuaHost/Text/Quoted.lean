import LuaHost.Text.Basic
import LuaHost.Text.Printable

set_option autoImplicit false

/-!
# Quoted texts

How a text or a byte string is shown between quotes. Single quotes are used unless the content has
a single quote and no double one; what does not print is an escape of two, four or eight hex digits.
-/

namespace LuaHost.Quoted

def hexDigit (n : Nat) : UInt32 := (if n < 10 then 48 + n else 87 + n).toUInt32

/-- `width` hex digits of `n`, the high ones first. -/
def hex : Nat → Nat → List UInt32
  | 0, _ => []
  | width + 1, n => hex width (n / 16) ++ [hexDigit (n % 16)]

/-- The quote mark for a content with the given points. -/
def mark (points : List UInt32) : UInt32 :=
  if points.contains 39 && !points.contains 34 then 34 else 39

/-- An escape of the form backslash, letter, hex digits. -/
def escape (letter : Char) (width : Nat) (c : UInt32) : List UInt32 :=
  92 :: letter.val :: hex width c.toNat

/-- The escapes that texts and byte strings share; `none` if `c` is not one of them. -/
def shortEscape? (quote c : UInt32) : Option (List UInt32) :=
  if c == quote || c == 92 then some [92, c]
  else if c == 9 then some [92, 116]
  else if c == 10 then some [92, 110]
  else if c == 13 then some [92, 114]
  else none

def textPoint (quote c : UInt32) : List UInt32 :=
  match shortEscape? quote c with
  | some out => out
  | none =>
    if c < 32 || c == 127 then escape 'x' 2 c
    else if c < 127 then [c]
    else if Text.isPrintable c then [c]
    else if c < 0x100 then escape 'x' 2 c
    else if c < 0x10000 then escape 'u' 4 c
    else escape 'U' 8 c

def bytePoint (quote c : UInt32) : List UInt32 :=
  match shortEscape? quote c with
  | some out => out
  | none => if c < 32 || 127 ≤ c then escape 'x' 2 c else [c]

/-- A text between quotes. -/
def text (t : Text) : Text :=
  ⟨mark t.points :: (t.points.flatMap (textPoint (mark t.points)) ++ [mark t.points])⟩

/-- A byte string between quotes, after the letter b. -/
def bytes (bs : ByteArray) : Text :=
  let points := bs.data.toList.map (·.toUInt32)
  ⟨98 :: mark points :: (points.flatMap (bytePoint (mark points)) ++ [mark points])⟩

end LuaHost.Quoted
