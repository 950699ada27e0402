import LuaHost.Text.Utf8
import LuaHost.Yaml.Token

set_option autoImplicit false

/-!
# Scalars as written

Plain scalars, scalars in quotes and blocks of lines. Line breaks inside the first two are folded: a
single one becomes a space and of several one is dropped.
-/

namespace LuaHost.Yaml

open Host (Failure)

/-! ## Blocks -/

/-- What becomes of the line breaks at the end of a block. -/
inductive Chomping where
  | strip
  | clip
  | keep
deriving DecidableEq

/-- Skips the spaces of an indentation. -/
def Cursor.indentTo (c : Cursor) (column : Nat) : Nat → Cursor
  | 0 => c
  | fuel + 1 => if c.column < column && c.peek 0 == 32 then c.step.indentTo column fuel else c

/-- The breaks of empty lines, and what follows their indentation. -/
def emptyLines (column : Nat) : Nat → Cursor → List UInt32 × Cursor
  | 0, c => ([], c)
  | fuel + 1, c =>
    let c := c.indentTo column column
    if isBreak (c.peek 0) then
      let (b, c) := c.lineBreak
      let (rest, c) := emptyLines column fuel c
      (b ++ rest, c)
    else ([], c)

/-- The breaks of the empty lines before a block, and the deepest indentation on the way. -/
def leadingLines : Nat → Nat → Cursor → List UInt32 × Nat × Cursor
  | 0, deepest, c => ([], deepest, c)
  | fuel + 1, deepest, c =>
    if c.peek 0 == 32 then leadingLines fuel (max deepest c.step.column) c.step
    else if isBreak (c.peek 0) then
      let (b, c) := c.lineBreak
      let (rest, deepest, c) := leadingLines fuel deepest c
      (b ++ rest, deepest, c)
    else ([], deepest, c)

/-- How a block ended: its last line break and the breaks of the empty lines after it. -/
structure BlockEnd where
  content : List UInt32
  last : List UInt32
  empty : List UInt32
  after : Cursor

/-- The lines of a block from here on, after the breaks of `before`. -/
def blockLines (isFolded : Bool) (column : Nat) :
    Nat → List UInt32 → List UInt32 → List UInt32 → Cursor → BlockEnd
  | 0, content, last, before, c => ⟨content, last, before, c⟩
  | fuel + 1, content, last, before, c =>
    if c.column == column && c.peek 0 != 0 then
      let isFlush := !isBlank (c.peek 0)
      let (line, c) := c.takeWhile fun p => !isStop p
      let (b, c) := c.lineBreak
      let content := content ++ before ++ line
      let (empty, c) := emptyLines column (c.rest.length + 1) c
      if c.column == column && c.peek 0 != 0 then
        let joint :=
          if isFolded && b == [10] && isFlush && !isBlank (c.peek 0) then
            if empty.isEmpty then [32] else []
          else b
        blockLines isFolded column fuel (content ++ joint) b empty c
      else ⟨content, b, empty, c⟩
    else ⟨content, last, before, c⟩

def chompingOf? (p : UInt32) : Option Chomping :=
  if p == 43 then some .keep else if p == 45 then some .strip else none

/-- The marks after the one that begins a block: chomping and indentation, in either order. -/
def blockMarks (c : Cursor) : Except Failure ((Chomping × Option Nat) × Cursor) :=
  let digit (c : Cursor) : Except Failure (Option Nat × Cursor) :=
    let p := c.peek 0
    if p == 48 then refuse "an indentation of zero"
    else if isDigit p then .ok (some (p.toNat - 48), c.step)
    else .ok (none, c)
  do
    let (chomping, increment, c) ← match chompingOf? (c.peek 0) with
      | some k => do
        let (increment, c) ← digit c.step
        pure (k, increment, c)
      | none => do
        let (increment, c) ← digit c
        match increment, chompingOf? (c.peek 0) with
        | some _, some k => pure (k, increment, c.step)
        | _, _ => pure (.clip, increment, c)
    requireThat (isSpaceOrStop (c.peek 0)) "marks of a block"
    return ((chomping, increment), c)

/-- Nothing but a comment up to the end of the line. -/
def restOfLine (c : Cursor) : Except Failure Cursor := do
  let c := c.skipSpaces
  let c := if c.peek 0 == 35 then c.skipLine else c
  requireThat (isStop (c.peek 0)) "a comment or a line break"
  return c.lineBreak.2

/-- A block of lines below the indentation `indent`. -/
def blockScalar (isFolded : Bool) (indent : Int) (c : Cursor) : Except Failure (Text × Cursor) := do
  let ((chomping, increment), c) ← blockMarks c.step
  let c ← restOfLine c
  let least := max (indent + 1).toNat 1
  let fuel := c.rest.length + 1
  let (before, column, c) := match increment with
    | none =>
      let (before, deepest, c) := leadingLines fuel 0 c
      (before, max least deepest, c)
    | some n =>
      let (before, c) := emptyLines (least + n - 1) fuel c
      (before, least + n - 1, c)
  let block := blockLines isFolded column fuel [] [] before c
  let tail := match chomping with
    | .strip => []
    | .clip => block.last
    | .keep => block.last ++ block.empty
  return (⟨block.content ++ tail⟩, block.after)

/-! ## Quotes -/

/-- The point that a letter after a backslash stands for. -/
def escaped? (p : UInt32) : Option UInt32 :=
  let known : List (UInt32 × UInt32) :=
    [(48, 0), (97, 7), (98, 8), (116, 9), (9, 9), (110, 10), (118, 11), (102, 12), (114, 13), (101, 27),
      (32, 32), (34, 34), (92, 92), (47, 47), (78, 0x85), (95, 0xA0), (76, 0x2028), (80, 0x2029)]
  (known.find? fun (q, _) => q == p).map (·.2)

/-- How many digits follow a letter that gives a point by its number. -/
def escapeWidth? (p : UInt32) : Option Nat :=
  if p == 120 then some 2 else if p == 117 then some 4 else if p == 85 then some 8 else none

def hexValue (p : UInt32) : Nat :=
  if isDigit p then p.toNat - 48 else if p ≤ 70 then p.toNat - 55 else p.toNat - 87

def hexNumber (ps : List UInt32) : Nat := ps.foldl (fun n p => n * 16 + hexValue p) 0

/-- The breaks of empty lines inside quotes; a line that separates documents ends all. -/
def quotedBreaks : Nat → Cursor → Except Failure (List UInt32 × Cursor)
  | 0, c => .ok ([], c)
  | fuel + 1, c => do
    requireThat (!c.isSeparator) "a document separator inside quotes"
    let c := c.skipWhile isBlank
    if isBreak (c.peek 0) then
      let (b, c) := c.lineBreak
      let (rest, c) ← quotedBreaks fuel c
      return (b ++ rest, c)
    else return ([], c)

/-- The point with that number. -/
def pointOf (n : Nat) : Except Failure UInt32 :=
  if n < 0x110000 then .ok n.toUInt32
  else if n < 0x80000000 then .error (.value "chr() arg not in range(0x110000)")
  else .error (.overflow "signed integer is greater than maximum")

/-- What a backslash and the points from `c` on stand for. -/
def escape (c : Cursor) : Except Failure (List UInt32 × Cursor) := do
  let p := c.peek 0
  match escaped? p, escapeWidth? p with
  | some q, _ => return ([q], c.step)
  | none, some width => do
    let digits := c.step.rest.take width
    requireThat (digits.length == width && digits.all isHexDigit) "digits of an escape"
    return ([← pointOf (hexNumber digits)], c.step.forward width)
  | none, none => do
    requireThat (isBreak p) "an unknown escape"
    let c := c.lineBreak.2
    quotedBreaks (c.rest.length + 1) c

/-- Points that stand for themselves in quotes of both kinds. -/
def isOrdinary (p : UInt32) : Bool := !(p == 39 || p == 34 || p == 92 || isBlankOrStop p)

/-- What stands in quotes up to the next blank, break or closing quote. -/
def quotedWord (isDouble : Bool) : Nat → Cursor → Except Failure (List UInt32 × Cursor)
  | 0, c => .ok ([], c)
  | fuel + 1, c => do
    let (run, c) := c.takeWhile isOrdinary
    let p := c.peek 0
    if !isDouble && p == 39 && c.peek 1 == 39 then
      let (rest, c) ← quotedWord isDouble fuel (c.forward 2)
      return (run ++ 39 :: rest, c)
    else if (isDouble && p == 39) || (!isDouble && (p == 34 || p == 92)) then
      let (rest, c) ← quotedWord isDouble fuel c.step
      return (run ++ p :: rest, c)
    else if isDouble && p == 92 then
      let (piece, c) ← escape c.step
      let (rest, c) ← quotedWord isDouble fuel c
      return (run ++ piece ++ rest, c)
    else return (run, c)

/-- The fold of a line break and the breaks of empty lines after it. -/
def fold (first breaks : List UInt32) : List UInt32 :=
  if first != [10] then first ++ breaks else if breaks.isEmpty then [32] else breaks

/-- Blanks or folded breaks inside quotes. -/
def quotedGap (c : Cursor) : Except Failure (List UInt32 × Cursor) := do
  let (blanks, c) := c.takeWhile isBlank
  requireThat (c.peek 0 != 0) "a quote that is not closed"
  if isBreak (c.peek 0) then
    let (b, c) := c.lineBreak
    let (breaks, c) ← quotedBreaks (c.rest.length + 1) c
    return (fold b breaks, c)
  else return (blanks, c)

/-- The rest of a quoted scalar after its first word. -/
def quotedRest (isDouble : Bool) (quote : UInt32) : Nat → Cursor → Except Failure (List UInt32 × Cursor)
  | 0, _ => refuse "a quote that is not closed"
  | fuel + 1, c => do
    if c.peek 0 == quote then return ([], c.step)
    else
      let (gap, c) ← quotedGap c
      let (word, c) ← quotedWord isDouble (c.rest.length + 1) c
      let (rest, c) ← quotedRest isDouble quote fuel c
      return (gap ++ word ++ rest, c)

/-- A scalar in quotes. -/
def quotedScalar (isDouble : Bool) (c : Cursor) : Except Failure (Text × Cursor) := do
  let quote := c.peek 0
  let c := c.step
  let (word, c) ← quotedWord isDouble (c.rest.length + 1) c
  let (rest, c) ← quotedRest isDouble quote (c.rest.length + 1) c
  return (⟨word ++ rest⟩, c)

/-! ## Plain scalars -/

/-- Whether a plain scalar ends at a place. -/
def endsPlain (inFlow : Bool) (c : Cursor) (k : Nat) : Bool :=
  let p := c.peek k
  let q := c.peek (k + 1)
  isBlankOrStop p
    || (p == 58 && (isBlankOrStop q || (inFlow && oneOf ",[]\x7b\x7d" q)))
    || (inFlow && oneOf ",?[]\x7b\x7d" p)

/-- How many points of a plain scalar stand here without a gap. -/
def plainLength (inFlow : Bool) (c : Cursor) : Nat → Nat → Nat
  | 0, k => k
  | fuel + 1, k => if endsPlain inFlow c k then k else plainLength inFlow c fuel (k + 1)

/-- The breaks of empty lines between the lines of a plain scalar; nothing if a separator follows. -/
def plainBreaks : Nat → Cursor → Option (List UInt32) × Cursor
  | 0, c => (some [], c)
  | fuel + 1, c =>
    if c.peek 0 == 32 then plainBreaks fuel c.step
    else if isBreak (c.peek 0) then
      let (b, c) := c.lineBreak
      if c.isSeparator then (none, c)
      else
        let (rest, c) := plainBreaks fuel c
        (rest.map (b ++ ·), c)
    else (some [], c)

/-- What stands between two parts of a plain scalar. -/
structure Gap where
  text : List UInt32
  hasBreak : Bool
  after : Cursor

def plainGap (c : Cursor) : Gap :=
  let (spaces, c) := c.takeWhile (· == 32)
  if isBreak (c.peek 0) then
    let (b, c) := c.lineBreak
    if c.isSeparator then ⟨[], true, c⟩
    else
      match plainBreaks (c.rest.length + 1) c with
      | (some breaks, c) => ⟨fold b breaks, true, c⟩
      | (none, c) => ⟨[], true, c⟩
  else ⟨spaces, false, c⟩

/-- A plain scalar, and whether a line break follows it. -/
structure Plain where
  text : List UInt32
  hasBreak : Bool
  after : Cursor

/-- The parts of a plain scalar after `gap`. -/
def plainParts (inFlow : Bool) (indent : Int) : Nat → Plain → List UInt32 → Plain
  | 0, done, _ => done
  | fuel + 1, done, gap =>
    let c := done.after
    let n := plainLength inFlow c (c.rest.length + 1) 0
    if c.peek 0 == 35 || n == 0 then done
    else
      let next := plainGap (c.forward n)
      let now : Plain := ⟨done.text ++ gap ++ c.rest.take n, next.hasBreak, next.after⟩
      if next.text.isEmpty || next.after.peek 0 == 35
          || (!inFlow && (next.after.column : Int) < indent + 1) then now
      else plainParts inFlow indent fuel now next.text

/-- A plain scalar below the indentation `indent`. -/
def plainScalar (inFlow : Bool) (indent : Int) (c : Cursor) : Plain :=
  plainParts inFlow indent (c.rest.length + 1) ⟨[], false, c⟩ []

/-! ## Names -/

/-- A name after the mark that makes it an alias or an anchor. -/
def markedName (c : Cursor) : Except Failure (Text × Cursor) := do
  let (name, c) := c.step.takeWhile isWord
  requireThat (!name.isEmpty) "a name"
  let p := c.peek 0
  requireThat (isBlankOrStop p || oneOf "?:,]\x7d%@\x60" p) "the end of a name"
  return (⟨name⟩, c)

def isUri (p : UInt32) : Bool := isWord p || oneOf "-;/?:@&=+$,_.!~*'()[]%" p

/-- Bytes written as a percent sign and two digits each. -/
def uriBytes : Nat → Cursor → Except Failure (List UInt8 × Cursor)
  | 0, c => .ok ([], c)
  | fuel + 1, c =>
    if c.peek 0 == 37 then do
      let digits := c.step.rest.take 2
      requireThat (digits.length == 2 && digits.all isHexDigit) "digits of an escape"
      let (rest, c) ← uriBytes fuel (c.forward 3)
      return ((hexNumber digits).toUInt8 :: rest, c)
    else .ok ([], c)

def uriParts : Nat → Cursor → Except Failure (List UInt32 × Cursor)
  | 0, c => .ok ([], c)
  | fuel + 1, c =>
    if !isUri (c.peek 0) then .ok ([], c)
    else if c.peek 0 == 37 then do
      let (bytes, c) ← uriBytes (c.rest.length + 1) c
      match Utf8.decodeStrict bytes with
      | some t => do
        let (rest, c) ← uriParts fuel c
        return (t.points ++ rest, c)
      | none => refuse "bytes that are no text"
    else do
      let (run, c) := c.takeWhile fun p => isUri p && p != 37
      let (rest, c) ← uriParts fuel c
      return (run ++ rest, c)

/-- The name of a type, or its beginning. -/
def uri (c : Cursor) : Except Failure (Text × Cursor) := do
  requireThat (isUri (c.peek 0)) "the name of a type"
  let (ps, c) ← uriParts (c.rest.length + 1) c
  return (⟨ps⟩, c)

/-- A handle: an exclamation mark, or a word between two. -/
def handle (c : Cursor) : Except Failure (Text × Cursor) := do
  requireThat (c.peek 0 == 33) "a handle"
  if c.peek 1 == 32 then return ("!", c.step)
  else
    let (name, d) := c.step.takeWhile isWord
    requireThat (d.peek 0 == 33) "the end of a handle"
    return (⟨33 :: name ++ [33]⟩, d.step)

/-- Whether an exclamation mark stands after the first one, before a space or the end of the line. -/
def hasSecondMark (c : Cursor) : Bool :=
  (c.step.rest.takeWhile fun p => !isSpaceOrStop p).contains 33

/-- A tag: verbatim, alone, or a handle with the rest of a name. -/
def tag (c : Cursor) : Except Failure (Token × Cursor) := do
  let p := c.peek 1
  let (token, c) ←
    if p == 60 then do
      let (name, c) ← uri (c.forward 2)
      requireThat (c.peek 0 == 62) "the end of a name"
      pure (Token.tag none name, c.step)
    else if isBlankOrStop p then pure (Token.tag none "!", c.step)
    else if hasSecondMark c then do
      let (h, c) ← handle c
      let (name, c) ← uri c
      pure (Token.tag (some h) name, c)
    else do
      let (name, c) ← uri c.step
      pure (Token.tag (some ("!" : Text)) name, c)
  requireThat (isSpaceOrStop (c.peek 0)) "the end of a tag"
  return (token, c)

/-! ## Directives -/

def versionDirective (c : Cursor) : Except Failure (Token × Cursor) := do
  let (major, c) := c.skipSpaces.takeWhile isDigit
  requireThat (!major.isEmpty && c.peek 0 == 46) "a version"
  let (minor, c) := c.step.takeWhile isDigit
  requireThat (!minor.isEmpty && isSpaceOrStop (c.peek 0)) "a version"
  return (.version (decimal major), c)

def shorthandDirective (c : Cursor) : Except Failure (Token × Cursor) := do
  let (h, c) ← handle c.skipSpaces
  requireThat (c.peek 0 == 32) "a space after a handle"
  let (start, c) ← uri c.skipSpaces
  requireThat (isSpaceOrStop (c.peek 0)) "the end of a name"
  return (.shorthand h start, c)

def directive (c : Cursor) : Except Failure (Token × Cursor) := do
  let (name, c) := c.step.takeWhile isWord
  requireThat (!name.isEmpty && isSpaceOrStop (c.peek 0)) "the name of a directive"
  let (token, c) ←
    if (⟨name⟩ : Text) == Text.ofString "YAML" then versionDirective c
    else if (⟨name⟩ : Text) == Text.ofString "TAG" then shorthandDirective c
    else pure (.otherDirective, c.skipLine)
  let c ← restOfLine c
  return (token, c)

end LuaHost.Yaml
