import LuaHost.Yaml.Scalar

set_option autoImplicit false

/-!
# Tokens of a text

Indentation opens and closes blocks, brackets open and close flows. What could be a key is noted where
it begins; a colon after it on the same line makes it one, and then the mark of the key is put in front
of it.
-/

namespace LuaHost.Yaml

open Host (Failure)

/-- A place where a key may have begun: the number of its first token, and whether it must be one. -/
structure Pending where
  token : Nat
  isRequired : Bool
  index : Nat
  line : Nat
  column : Nat

/-- The tokens so far and where reading stands. -/
structure Layout where
  here : Cursor
  tokens : Array Token
  /-- how many brackets are open -/
  flow : Nat
  /-- the column of the innermost block; below zero outside of all -/
  indent : Int
  outer : List Int
  mayBeKey : Bool
  /-- what could be a key, by the number of open brackets -/
  pending : List (Nat × Pending)

namespace Layout

def ofText (t : Text) : Layout :=
  let c := Cursor.ofText t
  ⟨if c.peek 0 == 0xFEFF then c.step else c, #[], 0, -1, [], true, []⟩

def push (s : Layout) (t : Token) : Layout := { s with tokens := s.tokens.push t }

def insert (s : Layout) (i : Nat) (t : Token) : Layout :=
  { s with tokens := (s.tokens.extract 0 i).push t ++ s.tokens.extract i s.tokens.size }

def inFlow (s : Layout) : Bool := s.flow != 0

/-- Closes the blocks that are indented further than `column`. -/
def closeBlocks (column : Int) : List Int → Layout → Layout
  | [], s => s
  | i :: outer, s =>
    if s.indent > column then closeBlocks column outer { s.push .blockEnd with indent := i, outer }
    else s

def unwind (s : Layout) (column : Int) : Layout :=
  if s.inFlow then s else closeBlocks column s.outer s

/-- Whether `column` begins a new block. -/
def isDeeper (s : Layout) (column : Nat) : Bool := s.indent < (column : Int)

def deepen (s : Layout) (column : Nat) : Layout :=
  { s with outer := s.indent :: s.outer, indent := column }

def allowKey (s : Layout) (b : Bool) : Layout := { s with mayBeKey := b }

/-- Forgets what could be a key at this depth; it is an error if it had to be one. -/
def dropPending (s : Layout) : Except Failure Layout := do
  match s.pending.find? fun (n, _) => n == s.flow with
  | some (_, k) =>
    requireThat (!k.isRequired) "a key without a colon"
    return { s with pending := s.pending.filter fun (n, _) => n != s.flow }
  | none => return s

/-- Whether what began there can no longer be a key: it is on another line, or too far back. -/
def isStale (c : Cursor) (k : Pending) : Bool := k.line != c.line || 1024 < c.index - k.index

def dropStale (s : Layout) : Except Failure Layout := do
  requireThat (!s.pending.any fun (_, k) => isStale s.here k && k.isRequired) "a key without a colon"
  return { s with pending := s.pending.filter fun (_, k) => !isStale s.here k }

/-- Notes that a key may begin here. -/
def notePending (s : Layout) : Except Failure Layout := do
  if !s.mayBeKey then return s
  let s ← s.dropPending
  let c := s.here
  let k : Pending :=
    ⟨s.tokens.size, !s.inFlow && s.indent == (c.column : Int), c.index, c.line, c.column⟩
  return { s with pending := (s.flow, k) :: s.pending }

/-- Skips blanks, comments and line breaks; a line break allows a key again. -/
def toNext : Nat → Layout → Layout
  | 0, s => s
  | fuel + 1, s =>
    let c := s.here.skipSpaces
    let c := if c.peek 0 == 35 then c.skipLine else c
    let (b, d) := c.lineBreak
    if b.isEmpty then { s with here := c }
    else toNext fuel { s with here := d, mayBeKey := s.mayBeKey || !s.inFlow }

/-- Leaves all blocks, as the marks between documents do. -/
def leave (s : Layout) : Except Failure Layout := do
  return (← (s.unwind (-1)).dropPending).allowKey false

def directiveToken (s : Layout) : Except Failure Layout := do
  let s ← s.leave
  let (t, c) ← directive s.here
  return { s.push t with here := c }

def marker (s : Layout) (t : Token) : Except Failure Layout := do
  let s ← s.leave
  return { s.push t with here := s.here.forward 3 }

def openFlow (s : Layout) (t : Token) : Except Failure Layout := do
  let s ← s.notePending
  return { s.push t with here := s.here.step, flow := s.flow + 1, mayBeKey := true }

def closeFlow (s : Layout) (t : Token) : Except Failure Layout := do
  requireThat s.inFlow "a bracket that was not opened"
  let s ← s.dropPending
  return { s.push t with here := s.here.step, flow := s.flow - 1, mayBeKey := false }

def flowEntry (s : Layout) : Except Failure Layout := do
  let s ← s.dropPending
  return { s.push .flowEntry with here := s.here.step, mayBeKey := true }

/-- Begins a block of the kind of `t` if this column is deeper than the block around it. -/
def beginBlock (s : Layout) (t : Token) : Layout :=
  if s.isDeeper s.here.column then (s.deepen s.here.column).push t else s

def blockEntry (s : Layout) : Except Failure Layout := do
  requireThat (s.inFlow || s.mayBeKey) "an entry of a sequence where none is allowed"
  let s := if s.inFlow then s else s.beginBlock .blockSequence
  let s ← s.dropPending
  return { s.push .entry with here := s.here.step, mayBeKey := true }

def keyMark (s : Layout) : Except Failure Layout := do
  requireThat (s.inFlow || s.mayBeKey) "a key where none is allowed"
  let s := if s.inFlow then s else s.beginBlock .blockMapping
  let s ← s.dropPending
  return { s.push .key with here := s.here.step, mayBeKey := !s.inFlow }

/-- A colon makes a key of what could be one; otherwise it begins a value of its own. -/
def valueMark (s : Layout) : Except Failure Layout := do
  match s.pending.find? fun (n, _) => n == s.flow with
  | some (_, k) =>
    let s := { s with pending := s.pending.filter fun (n, _) => n != s.flow }
    let s := s.insert k.token .key
    let s :=
      if !s.inFlow && s.isDeeper k.column then (s.deepen k.column).insert k.token .blockMapping else s
    return { s.push .value with here := s.here.step, mayBeKey := false }
  | none =>
    requireThat (s.inFlow || s.mayBeKey) "a value where none is allowed"
    let s := if s.inFlow then s else s.beginBlock .blockMapping
    let s ← (s.allowKey (!s.inFlow)).dropPending
    return { s.push .value with here := s.here.step }

/-- A token that may be a key, read by `read`. -/
def node (s : Layout) (read : Cursor → Except Failure (Token × Cursor)) : Except Failure Layout := do
  let s ← s.notePending
  let (t, c) ← read s.here
  return { s.push t with here := c, mayBeKey := false }

def named (make : Text → Token) (c : Cursor) : Except Failure (Token × Cursor) := do
  let (name, c) ← markedName c
  return (make name, c)

def quoted (isDouble : Bool) (c : Cursor) : Except Failure (Token × Cursor) := do
  let (t, c) ← quotedScalar isDouble c
  return (.scalar t false, c)

def block (s : Layout) (isFolded : Bool) : Except Failure Layout := do
  let s ← (s.allowKey true).dropPending
  let (t, c) ← blockScalar isFolded s.indent s.here
  return { s.push (.scalar t false) with here := c }

def plain (s : Layout) : Except Failure Layout := do
  let s ← s.notePending
  let p := plainScalar s.inFlow s.indent s.here
  return { s.push (.scalar ⟨p.text⟩ true) with here := p.after, mayBeKey := p.hasBreak }

/-- Whether a plain scalar may begin here. -/
def beginsPlain (inFlow : Bool) (c : Cursor) : Bool :=
  let p := c.peek 0
  !(isBlankOrStop p || oneOf "-?:,[]\x7b\x7d#&*!|>'\"%@\x60" p)
    || (!isBlankOrStop (c.peek 1) && (p == 45 || (!inFlow && (p == 63 || p == 58))))

/-- Reads one token, with the marks of the blocks that end or begin with it. -/
def next (s : Layout) : Except Failure Layout :=
  let c := s.here
  let followed := isBlankOrStop (c.peek 1)
  let isLeft := c.column == 0
  match (c.peek 0).toNat with
  | 37 => if isLeft then s.directiveToken else refuse "a percent sign"
  | 91 => s.openFlow .flowSequence
  | 123 => s.openFlow .flowMapping
  | 93 => s.closeFlow .flowSequenceEnd
  | 125 => s.closeFlow .flowMappingEnd
  | 44 => s.flowEntry
  | 42 => s.node (named .alias)
  | 38 => s.node (named .anchor)
  | 33 => s.node tag
  | 39 => s.node (quoted false)
  | 34 => s.node (quoted true)
  | p =>
    if isLeft && c.isMarker 45 then s.marker .documentStart
    else if isLeft && c.isMarker 46 then s.marker .documentEnd
    else if p == 45 && followed then s.blockEntry
    else if p == 63 && (s.inFlow || followed) then s.keyMark
    else if p == 58 && (s.inFlow || followed) then s.valueMark
    else if p == 124 && !s.inFlow then s.block false
    else if p == 62 && !s.inFlow then s.block true
    else if beginsPlain s.inFlow c then s.plain
    else refuse "a character that begins nothing"

/-- Reads all tokens. -/
def readAll : Nat → Layout → Except Failure Layout
  | 0, s => .ok s
  | fuel + 1, s => do
    let s ← (toNext (s.here.rest.length + 1) s).dropStale
    let s := s.unwind s.here.column
    if s.here.peek 0 == 0 then return (← s.leave).push .streamEnd
    else readAll fuel (← s.next)

end Layout

/-- The tokens of a text. -/
def tokens (t : Text) : Except Failure (List Token) := do
  requireThat (t.points.all isReadable) "a character that no document may hold"
  return (← (Layout.ofText t).readAll (t.points.length + 1)).tokens.toList

end LuaHost.Yaml
