import LuaHost.Lua.Numeral
import LuaHost.Text.Utf8

set_option autoImplicit false

/-!
# Tokens of Lua

A chunk's bytes become tokens with their lines. Scanning stops at the first fault, which is the last
token then: a fault is an error only if reading comes that far.
-/

namespace LuaHost.Lua

inductive Token where
  /-- a reserved word or an operator -/
  | fixed (s : String)
  | name (s : ByteArray)
  | str (s : ByteArray)
  | int (n : Int64)
  | float (x : Float)
  /-- a byte that starts no token -/
  | byte (b : UInt8)
  | eof
  /-- the scanner's fault: what is wrong, and what it is near to, if anything -/
  | fault (message : String) (near : Option ByteArray)

/-- A token, the line on which it ends and the bytes by which messages show it. -/
structure Lexeme where
  token : Token
  line : Nat
  text : ByteArray

namespace Token

def bytes (bs : List UInt8) : ByteArray := ⟨bs.toArray⟩

def ofString (s : String) : ByteArray := s.toUTF8

/-- The reserved words of a generation. -/
def reserved (g : Generation) : List String :=
  ["and", "break", "do", "else", "elseif", "end", "false", "for", "function"]
    ++ (if g == .v51 then [] else ["goto"])
    ++ ["if", "in", "local", "nil", "not", "or", "repeat", "return", "then", "true", "until", "while"]

/-- What is being scanned: the bytes ahead and the line of the next one. -/
structure Cursor where
  rest : List UInt8
  line : Nat

def isNewline (b : UInt8) : Bool := b == 10 || b == 13

/-- Past one line end, which may be two different bytes. -/
def skipNewline : List UInt8 → List UInt8
  | 10 :: 13 :: rest => rest
  | 13 :: 10 :: rest => rest
  | _ :: rest => rest
  | [] => []

/-- The number of `=` signs if the bytes open a long bracket with the given bracket byte, with the
bytes after it. -/
def longBracket? (bracket : UInt8) : List UInt8 → Option (Nat × List UInt8)
  | b :: rest =>
    if b == bracket then
      let level := (rest.takeWhile (· == 61)).length
      match rest.drop level with
      | c :: rest' => if c == bracket then some (level, rest') else none
      | [] => none
    else none
  | [] => none

/-- A long string's content up to its closing bracket; `none` if the bytes end first. -/
def longBody (level : Nat) : Nat → List UInt8 → Nat → List UInt8 → Option (List UInt8 × Cursor) × Nat
  | 0, _, line, _ => (none, line)
  | _ + 1, _, line, [] => (none, line)
  | fuel + 1, acc, line, b :: rest =>
    if b == 93 then
      match longBracket? 93 (b :: rest) with
      | some (n, rest') =>
        if n == level then (some (acc.reverse, ⟨rest', line⟩), line)
        else longBody level fuel (b :: acc) line rest
      | none => longBody level fuel (b :: acc) line rest
    else if isNewline b then longBody level fuel (10 :: acc) (line + 1) (skipNewline (b :: rest))
    else longBody level fuel (b :: acc) line rest

def longString (level fuel line : Nat) (bs : List UInt8) : Option (List UInt8 × Cursor) × Nat :=
  match bs with
  | b :: _ =>
    if isNewline b then longBody level fuel [] (line + 1) (skipNewline bs)
    else longBody level fuel [] line bs
  | [] => (none, line)

def unfinishedLong (g : Generation) (what : String) (start line : Nat) : Lexeme :=
  let message :=
    if g.since .v53 then "unfinished long " ++ what ++ " (starting at line " ++ toString start ++ ")"
    else "unfinished long " ++ what
  ⟨.fault message (some (ofString "<eof>")), line, .empty⟩

/-- The line on which a long string opens another one, which the oldest generation refuses at the
level without signs. -/
def nesting? : Nat → List UInt8 → Option Nat
  | line, 91 :: 91 :: _ => some line
  | _, 93 :: 93 :: _ => none
  | line, b :: rest => nesting? (if b == 10 then line + 1 else line) rest
  | _, [] => none

/-- The fault of a nested long string, if there is one. -/
def nestingFault? (g : Generation) (level line : Nat) (body : List UInt8) : Option Lexeme :=
  if g == .v51 && level == 0 then
    (nesting? line body).map fun n =>
      ⟨.fault "nesting of [[...]] is deprecated" (some (ofString "[")), n, .empty⟩
  else none

/-- Past blanks and comments; the other result is a comment that does not end. -/
def skipBlank (g : Generation) : Nat → Cursor → Except Lexeme Cursor
  | 0, c => .ok c
  | fuel + 1, c =>
    match c.rest with
    | [] => .ok c
    | b :: rest =>
      if isNewline b then skipBlank g fuel ⟨skipNewline c.rest, c.line + 1⟩
      else if Numeral.isSpace b then skipBlank g fuel ⟨rest, c.line⟩
      else match c.rest with
        | 45 :: 45 :: body =>
          match longBracket? 91 body with
          | some (level, body) =>
            match nestingFault? g level c.line body with
            | some lexeme => .error lexeme
            | none =>
              match longString level (fuel + 1) c.line body with
              | (some (_, c'), _) => skipBlank g fuel c'
              | (none, line) => .error (unfinishedLong g "comment" c.line line)
          | none => skipBlank g fuel ⟨body.dropWhile (fun b => !isNewline b), c.line⟩
        | _ => .ok c

def isNameByte (b : UInt8) : Bool := Numeral.isAlnum b || b == 95

/-- The extent of a numeral in the oldest generation: digits and points, an exponent, then letters. -/
def oldNumeral (bs : List UInt8) : List UInt8 :=
  let isPart (b : UInt8) : Bool := Numeral.isDigit b || b == 46
  let body := bs.takeWhile isPart
  let rest := bs.drop body.length
  let mark := match rest with
    | b :: c :: _ =>
      if b == 101 || b == 69 then if c == 43 || c == 45 then [b, c] else [b] else []
    | [b] => if b == 101 || b == 69 then [b] else []
    | [] => []
  body ++ mark ++ (rest.drop mark.length).takeWhile isNameByte

/-- The extent of a numeral in the later generations, from its second byte on. -/
def numeralTail (lower upper : UInt8) : Nat → List UInt8 → List UInt8
  | 0, _ => []
  | _ + 1, [] => []
  | fuel + 1, b :: rest =>
    if b == lower || b == upper then
      match rest with
      | c :: rest' =>
        if c == 43 || c == 45 then b :: c :: numeralTail lower upper fuel rest'
        else b :: numeralTail lower upper fuel rest
      | [] => [b]
    else if Numeral.isHexDigit b || b == 46 then b :: numeralTail lower upper fuel rest
    else []

def numeralExtent (g : Generation) (bs : List UInt8) : List UInt8 :=
  if g == .v51 then oldNumeral bs
  else
    let body := match bs with
      | 48 :: 120 :: rest => 48 :: 120 :: numeralTail 112 80 (rest.length + 1) rest
      | 48 :: 88 :: rest => 48 :: 88 :: numeralTail 112 80 (rest.length + 1) rest
      | b :: rest => b :: numeralTail 101 69 (rest.length + 1) rest
      | [] => []
    match g, bs.drop body.length with
    | .v54, b :: _ => if Numeral.isAlpha b || b == 95 then body ++ [b] else body
    | _, _ => body

def numeral (g : Generation) (c : Cursor) : Lexeme × Cursor :=
  let text := numeralExtent g c.rest
  let token := match Numeral.read? g text with
    | some (.int n) => .int n
    | some (.float x) => .float x
    | none => .fault "malformed number" (some (bytes text))
  (⟨token, c.line, bytes text⟩, ⟨c.rest.drop text.length, c.line⟩)

/-- The bytes of a code point up to 2^31, in the encoding of UTF-8 before it was limited. -/
def wideUtf8 (n : Nat) : List UInt8 :=
  let tail (k : Nat) : UInt8 := (0x80 + n / Nat.pow 2 (6 * k) % 64).toUInt8
  if n < 0x80 then [n.toUInt8]
  else if n < 0x800 then [(0xC0 + n / 0x40).toUInt8, tail 0]
  else if n < 0x10000 then [(0xE0 + n / 0x1000).toUInt8, tail 1, tail 0]
  else if n < 0x200000 then [(0xF0 + n / 0x40000).toUInt8, tail 2, tail 1, tail 0]
  else if n < 0x4000000 then [(0xF8 + n / 0x1000000).toUInt8, tail 3, tail 2, tail 1, tail 0]
  else [(0xFC + n / 0x40000000).toUInt8, tail 4, tail 3, tail 2, tail 1, tail 0]

/-- The result of one escape: bytes to add and how many were read, or a fault with the bytes to show. -/
inductive Escape where
  | add (bs : List UInt8) (length : Nat)
  | newline
  | skipSpace
  | bad (message : String) (shown : List UInt8)

def simpleEscape? (b : UInt8) : Option UInt8 :=
  if b == 97 then some 7 else if b == 98 then some 8 else if b == 102 then some 12
  else if b == 110 then some 10 else if b == 114 then some 13 else if b == 116 then some 9
  else if b == 118 then some 11 else if b == 92 || b == 34 || b == 39 then some b
  else none

def hexEscape (bs : List UInt8) : Escape :=
  match bs with
  | a :: b :: _ =>
    match Numeral.digit? a, Numeral.digit? b with
    | some x, some y =>
      if 16 ≤ x then .bad "hexadecimal digit expected" [120, a]
      else if 16 ≤ y then .bad "hexadecimal digit expected" [120, a, b]
      else .add [(16 * x + y).toUInt8] 3
    | none, _ => .bad "hexadecimal digit expected" [120, a]
    | some _, none => .bad "hexadecimal digit expected" [120, a, b]
  | shown => .bad "hexadecimal digit expected" (120 :: shown)

/-- How many digits in base 16 it takes to pass a limit. -/
def digitsPast (limit : Nat) : Nat → List UInt8 → Nat
  | _, [] => 0
  | n, b :: rest =>
    let n := 16 * n + (Numeral.digit? b).getD 0
    if limit < n then 1 else 1 + digitsPast limit n rest

def unicodeEscape (g : Generation) (bs : List UInt8) : Escape :=
  let form := if g == .v53 then " in \\u\x7bxxxx\x7d" else ""
  let limit := if g == .v53 then 0x10FFFF else 0x7FFFFFFF
  match bs with
  | 123 :: rest =>
    let (n, count, rest') := Numeral.digits 16 0 0 rest
    let shown := 117 :: 123 :: rest.take (count + 1)
    if count == 0 then .bad "hexadecimal digit expected" shown
    else if limit < n then
      .bad "UTF-8 value too large" (117 :: 123 :: rest.take (digitsPast limit 0 (rest.take count)))
    else match rest' with
      | 125 :: _ => .add (wideUtf8 n) (count + 3)
      | _ => .bad ("missing '\x7d'" ++ form) shown
  | shown => .bad ("missing '\x7b'" ++ form) (117 :: shown.take 1)

def decimalEscape (g : Generation) (bs : List UInt8) : Escape :=
  let ds := (bs.take 3).takeWhile Numeral.isDigit
  let (n, _, _) := Numeral.digits 10 0 0 ds
  if 255 < n then
    match g with
    | .v51 => .bad "escape sequence too large" []
    | .v52 => .bad "decimal escape too large" ds
    | _ => .bad "decimal escape too large" (ds ++ (bs.drop ds.length).take 1)
  else .add [n.toUInt8] ds.length

/-- The meaning of the bytes after a backslash. -/
def escape (g : Generation) (bs : List UInt8) : Escape :=
  match bs with
  | [] => .add [] 0
  | b :: rest =>
    match simpleEscape? b with
    | some c => .add [c] 1
    | none =>
      if isNewline b then .newline
      else if Numeral.isDigit b then decimalEscape g bs
      else if g == .v51 then .add [b] 1
      else if b == 120 then hexEscape rest
      else if b == 122 then .skipSpace
      else if b == 117 && g.since .v53 then unicodeEscape g rest
      else .bad "invalid escape sequence" [b]

/-- Past blanks inside a string, counting lines. -/
def skipSpaces : Nat → Cursor → Cursor
  | 0, c => c
  | fuel + 1, c =>
    match c.rest with
    | [] => c
    | b :: rest =>
      if isNewline b then skipSpaces fuel ⟨skipNewline c.rest, c.line + 1⟩
      else if Numeral.isSpace b then skipSpaces fuel ⟨rest, c.line⟩
      else c

/-- A quoted string after its opening mark; `acc` holds its content so far, last byte first. -/
def quoted (g : Generation) (mark : UInt8) : Nat → List UInt8 → Cursor → Lexeme × Cursor
  | 0, _, c => (⟨.fault "unfinished string" (some (ofString "<eof>")), c.line, .empty⟩, c)
  | fuel + 1, acc, c =>
    let shown (extra : List UInt8) : ByteArray := bytes (mark :: acc.reverse ++ extra)
    match c.rest with
    | [] => (⟨.fault "unfinished string" (some (ofString "<eof>")), c.line, .empty⟩, c)
    | b :: rest =>
      if b == mark then
        (⟨.str (bytes acc.reverse), c.line, shown [mark]⟩, ⟨rest, c.line⟩)
      else if isNewline b then
        (⟨.fault "unfinished string" (some (shown [])), c.line, .empty⟩, c)
      else if b == 92 then
        match escape g rest with
        | .add bs n => quoted g mark fuel (bs.reverse ++ acc) ⟨rest.drop n, c.line⟩
        | .newline => quoted g mark fuel (10 :: acc) ⟨skipNewline rest, c.line + 1⟩
        | .skipSpace =>
          quoted g mark fuel acc (skipSpaces (fuel + 1) ⟨rest.drop 1, c.line⟩)
        | .bad message extra =>
          let near := if g == .v51 then shown extra
            else if g == .v52 then bytes (92 :: extra)
            else shown (92 :: extra)
          (⟨.fault message (some near), c.line, .empty⟩, c)
      else quoted g mark fuel (b :: acc) ⟨rest, c.line⟩

/-- The operators of a generation, longer ones before their beginnings. -/
def operators (g : Generation) : List String :=
  ["...", "..", "==", "<=", ">=", "~="]
    ++ (if g == .v51 then [] else ["::"])
    ++ (if g.since .v53 then ["//", "<<", ">>", "&", "|"] else [])
    ++ (if g.since .v53 then ["~"] else [])
    ++ ["+", "-", "*", "/", "%", "^", "#", "<", ">", "=", "(", ")", "\x7b", "\x7d", "[", "]", ";", ":", ",", "."]

def startsWith (bs : List UInt8) (s : String) : Bool :=
  let w := s.toUTF8.data.toList
  bs.take w.length == w

/-- The token at the cursor, past blanks. -/
def atCursor (g : Generation) (fuel : Nat) (c : Cursor) : Lexeme × Cursor :=
  match c.rest with
  | [] => (⟨.eof, c.line, .empty⟩, c)
  | b :: rest =>
    if Numeral.isAlpha b || b == 95 then
      let word := c.rest.takeWhile isNameByte
      let s := bytes word
      let spelling := String.ofList (word.map fun b => Char.ofNat b.toNat)
      let token := match (reserved g).find? (· == spelling) with
        | some r => .fixed r
        | none => .name s
      (⟨token, c.line, s⟩, ⟨c.rest.drop word.length, c.line⟩)
    else if Numeral.isDigit b || (b == 46 && (rest.head?.map Numeral.isDigit).getD false) then
      numeral g c
    else if b == 34 || b == 39 then quoted g b fuel [] ⟨rest, c.line⟩
    else match longBracket? 91 c.rest with
      | some (level, body) =>
        match nestingFault? g level c.line body with
        | some lexeme => (lexeme, c)
        | none =>
          match longString level fuel c.line body with
          | (some (content, c'), _) =>
            let opening := c.rest.take (level + 2)
            let closing := 93 :: (List.replicate level 61 ++ [93])
            (⟨.str (bytes content), c'.line, bytes (opening ++ content ++ closing)⟩, c')
          | (none, line) => (unfinishedLong g "string" c.line line, c)
      | none =>
        if b == 91 && rest.head? == some 61 then
          (⟨.fault "invalid long string delimiter"
            (some (bytes (91 :: rest.takeWhile (· == 61)))), c.line, .empty⟩, c)
        else match (operators g).find? (startsWith c.rest) with
          | some s => (⟨.fixed s, c.line, s.toUTF8⟩, ⟨c.rest.drop s.utf8ByteSize, c.line⟩)
          | none => (⟨.byte b, c.line, bytes [b]⟩, ⟨rest, c.line⟩)

/-- All tokens from the cursor on, up to the end or the first fault. -/
def scan (g : Generation) : Nat → Cursor → List Lexeme
  | 0, c => [⟨.eof, c.line, .empty⟩]
  | fuel + 1, c =>
    match skipBlank g (fuel + 1) c with
    | .error lexeme => [lexeme]
    | .ok c =>
      let (lexeme, c') := atCursor g (fuel + 1) c
      match lexeme.token with
      | .eof => [lexeme]
      | .fault _ _ => [lexeme]
      | _ => lexeme :: scan g fuel c'

/-- The tokens of a chunk. -/
def ofChunk (g : Generation) (source : ByteArray) : List Lexeme :=
  scan g (source.size + 1) ⟨source.data.toList, 1⟩

end Token
end LuaHost.Lua
