import LuaHost.Text.Basic

set_option autoImplicit false

/-!
# UTF-8

Encoding refuses surrogates. Decoding reads the longest well-formed prefix it can at each place and
reports every maximal ill-formed subpart once, so a reader may refuse it or put U+FFFD there.
-/

namespace LuaHost.Utf8

/-- A continuation byte with the low six bits of `c`. -/
def tailByte (c : UInt32) : UInt8 := (c &&& 0x3F).toUInt8 ||| 0x80

/-- The bytes of one code point; a surrogate has none. -/
def encodePoint (c : UInt32) : Option (List UInt8) :=
  if c < 0x80 then some [c.toUInt8]
  else if c < 0x800 then some [(c >>> 6).toUInt8 ||| 0xC0, tailByte c]
  else if 0xD800 ≤ c ∧ c ≤ 0xDFFF then none
  else if c < 0x10000 then some [(c >>> 12).toUInt8 ||| 0xE0, tailByte (c >>> 6), tailByte c]
  else some [(c >>> 18).toUInt8 ||| 0xF0, tailByte (c >>> 12), tailByte (c >>> 6), tailByte c]

/-- The bytes of all code points, or nothing if one of them has none. -/
def encodePoints : List UInt32 → Option (List UInt8)
  | [] => some []
  | c :: cs =>
    match encodePoint c, encodePoints cs with
    | some bs, some rest => some (bs ++ rest)
    | _, _ => none

def isTail (b : UInt8) : Bool := 0x80 ≤ b && b ≤ 0xBF

/-- The second bytes that may follow `lead`, as a closed range; empty if `lead` starts no sequence. -/
def secondRange (lead : UInt8) : UInt8 × UInt8 :=
  if lead < 0xC2 then (1, 0)
  else if lead == 0xE0 then (0xA0, 0xBF)
  else if lead == 0xED then (0x80, 0x9F)
  else if lead == 0xF0 then (0x90, 0xBF)
  else if lead == 0xF4 then (0x80, 0x8F)
  else if lead < 0xF4 then (0x80, 0xBF)
  else (1, 0)

def isSecond (lead b : UInt8) : Bool := (secondRange lead).1 ≤ b && b ≤ (secondRange lead).2

private def bits6 (b : UInt8) : UInt32 := b.toUInt32 &&& 0x3F

/-- What starts with the byte `a`: the code point, or `none` for a maximal ill-formed subpart, and
how many bytes after `a` belong to it. -/
def decodeHead (a : UInt8) (rest : List UInt8) : Option UInt32 × Nat :=
  if a < 0x80 then (some a.toUInt32, 0)
  else match rest with
    | [] => (none, 0)
    | b :: rest =>
      if !isSecond a b then (none, 0)
      else if a < 0xE0 then (some (((a.toUInt32 &&& 0x1F) <<< 6) ||| bits6 b), 1)
      else match rest with
        | [] => (none, 1)
        | c :: rest =>
          if !isTail c then (none, 1)
          else if a < 0xF0 then
            (some (((a.toUInt32 &&& 0x0F) <<< 12) ||| (bits6 b <<< 6) ||| bits6 c), 2)
          else match rest with
            | [] => (none, 2)
            | d :: _ =>
              if !isTail d then (none, 2)
              else (some (((a.toUInt32 &&& 0x07) <<< 18) ||| (bits6 b <<< 12) ||| (bits6 c <<< 6)
                ||| bits6 d), 3)

/-- The code points after the first `skip` bytes. -/
def decodeAfter : Nat → List UInt8 → List (Option UInt32)
  | _, [] => []
  | skip + 1, _ :: rest => decodeAfter skip rest
  | 0, a :: rest => (decodeHead a rest).1 :: decodeAfter (decodeHead a rest).2 rest

/-- The code points of a byte string in order; `none` stands for one maximal ill-formed subpart. -/
def decode (bs : List UInt8) : List (Option UInt32) := decodeAfter 0 bs

/-- Decoding that puts U+FFFD for each maximal ill-formed subpart. -/
def decodeLossy (bs : List UInt8) : Text := ⟨(decode bs).map (·.getD 0xFFFD)⟩

/-- Decoding that refuses ill-formed input. -/
def decodeStrict (bs : List UInt8) : Option Text := ((decode bs).mapM id).map Text.mk

example : decode [0xF0, 0x9F, 0x98, 0x80] = [some 0x1F600] := by decide
example : decode [0xE2, 0x82] = [none] := by decide
example : decode [0xED, 0xA0, 0x80] = [none, none, none] := by decide

end LuaHost.Utf8

namespace LuaHost.Text

/-- The UTF-8 bytes of a text, or nothing if it holds a surrogate. -/
def utf8? (t : Text) : Option ByteArray :=
  (Utf8.encodePoints t.points).map fun bs => ⟨bs.toArray⟩

/-- The text that a byte string denotes, ill-formed parts replaced. -/
def ofUtf8 (bs : ByteArray) : Text := Utf8.decodeLossy bs.data.toList

end LuaHost.Text
