import LuaHost.Yaml.Layout

set_option autoImplicit false

/-!
# Nodes

The tree of one document: scalars, sequences and mappings, each with a tag. What has an anchor can be
used again by an alias, which copies it. A scalar without a tag of its own gets one from its form.
-/

namespace LuaHost.Yaml

open Host (Failure)

/-- The types that a tag may name. -/
inductive Tag where
  | null | bool | int | float | str | seq | map
  | binary | timestamp | omap | pairs | set | merge | value
  | other (name : Text)
deriving DecidableEq

namespace Tag

def standardName : Tag → String
  | null => "null"
  | bool => "bool"
  | int => "int"
  | float => "float"
  | str => "str"
  | seq => "seq"
  | map => "map"
  | binary => "binary"
  | timestamp => "timestamp"
  | omap => "omap"
  | pairs => "pairs"
  | set => "set"
  | merge => "merge"
  | value => "value"
  | other _ => ""

def standard : List Tag :=
  [null, bool, int, float, str, seq, map, binary, timestamp, omap, pairs, set, merge, value]

/-- How the names of the standard tags begin. -/
def standardStart : Text := "tag:yaml.org,2002:"

def ofName (name : Text) : Tag :=
  (standard.find? fun t => standardStart ++ Text.ofString t.standardName == name).getD (other name)

end Tag

inductive Node where
  | scalar (tag : Tag) (text : Text)
  | sequence (tag : Tag) (items : List Node)
  | mapping (tag : Tag) (entries : List (Node × Node))
  /-- a collection inside itself -/
  | cycle (isMapping : Bool)
deriving Inhabited

def Node.tag : Node → Tag
  | scalar t _ => t
  | sequence t _ => t
  | mapping t _ => t
  | cycle true => .map
  | cycle false => .seq

/-- What is left to read, the shorthands for tags, and the nodes with anchors; a node that is not
finished is only known by its kind. -/
structure Reading where
  tokens : List Token
  shorthands : List (Text × Text)
  anchors : List (Text × Node)

abbrev Reader := StateT Reading (Except Failure)

namespace Reader

def fail {α : Type} (why : Text) : Reader α := fun _ => refuse why

def peek : Reader Token := do return (← get).tokens.headD .streamEnd

def skip : Reader Unit := modify fun s => { s with tokens := s.tokens.tail }

/-- Whether the next token is one of these. -/
def sees (ts : List Token) : Reader Bool := do return ts.contains (← peek)

/-- Takes the next token if it is that one. -/
def accept (t : Token) : Reader Bool := do
  if (← peek) == t then
    skip
    return true
  return false

def setAnchor (name : Option Text) (n : Node) : Reader Unit :=
  match name with
  | some a => modify fun s => { s with anchors := (a, n) :: s.anchors.filter fun (b, _) => b != a }
  | none => pure ()

def lookUp {α : Type} (name : Text) (xs : List (Text × α)) : Option α :=
  (xs.find? fun (n, _) => n == name).map (·.2)

/-- The full name of a tag. -/
def fullName (h : Option Text) (rest : Text) : Reader Text := do
  match h with
  | none => return rest
  | some h =>
    match lookUp h (← get).shorthands with
    | some start => return start ++ rest
    | none => fail "an unknown handle"

/-- An anchor and a tag before a node, in either order. -/
structure Properties where
  anchor : Option Text
  tag : Option Text

def anchor? : Reader (Option Text) := do
  match ← peek with
  | .anchor a => do
    skip
    return some a
  | _ => return none

def tag? : Reader (Option Text) := do
  match ← peek with
  | .tag h rest => do
    skip
    return some (← fullName h rest)
  | _ => return none

def properties : Reader Properties := do
  match ← anchor? with
  | some a => return ⟨some a, ← tag?⟩
  | none =>
    match ← tag? with
    | some t => return ⟨← anchor?, some t⟩
    | none => return ⟨none, none⟩

end Reader

/-- What a tag leaves to be decided by the form of a node. -/
def isUndecided (tag : Option Text) : Bool := tag.isNone || tag == some (Text.ofString "!")

def collectionTag (tag : Option Text) (usual : Tag) : Tag :=
  if isUndecided tag then usual else Tag.ofName (tag.getD Text.empty)

/-- An empty scalar. -/
def Node.null : Node := .scalar .null Text.empty

open Reader

/-- The tag of a scalar, which `form` decides for a plain one. -/
def scalarTag (form : Text → Tag) (tag : Option Text) (isPlain : Bool) (t : Text) : Tag :=
  if (isPlain && tag.isNone) || tag == some (Text.ofString "!") then form t
  else collectionTag tag .str

mutual

/-- A node. In a block it may be a block; as the value of a key it may be a sequence that is not
indented further. -/
def node (form : Text → Tag) (inBlock mayBeFlush : Bool) : Nat → Reader Node
  | 0 => fail "too deep"
  | fuel + 1 => do
    match ← peek with
    | .alias name => do
      skip
      match lookUp name (← get).anchors with
      | some n => return n
      | none => fail "an unknown alias"
    | _ => do
      let p ← properties
      if let some a := p.anchor then
        if (lookUp a (← get).anchors).isSome then fail "an anchor given twice"
      let list (items : Reader (List Node)) : Reader Node := do
        setAnchor p.anchor (.cycle false)
        let n := Node.sequence (collectionTag p.tag .seq) (← items)
        setAnchor p.anchor n
        return n
      let table (entries : Reader (List (Node × Node))) : Reader Node := do
        setAnchor p.anchor (.cycle true)
        let n := Node.mapping (collectionTag p.tag .map) (← entries)
        setAnchor p.anchor n
        return n
      match ← peek with
      | .entry =>
        if mayBeFlush then list (flushItems form fuel)
        else if p.anchor.isSome || p.tag.isSome then emptyScalar form p
        else fail "an entry of a sequence"
      | .scalar t isPlain => do
        skip
        let n := Node.scalar (scalarTag form p.tag isPlain t) t
        setAnchor p.anchor n
        return n
      | .flowSequence => do
        skip
        list (flowItems form true fuel)
      | .flowMapping => do
        skip
        table (flowEntries form true fuel)
      | .blockSequence =>
        if inBlock then do
          skip
          list (blockItems form fuel)
        else emptyScalar form p
      | .blockMapping =>
        if inBlock then do
          skip
          table (blockEntries form fuel)
        else emptyScalar form p
      | _ => emptyScalar form p

/-- A node of which only the properties are written. -/
def emptyScalar (form : Text → Tag) (p : Properties) : Reader Node := do
  if p.anchor.isNone && p.tag.isNone then fail "no node"
  let tag := if isUndecided p.tag then form Text.empty else collectionTag p.tag .str
  let n := Node.scalar tag Text.empty
  setAnchor p.anchor n
  return n

/-- The items of a block up to its end. -/
def blockItems (form : Text → Tag) : Nat → Reader (List Node)
  | 0 => fail "too deep"
  | fuel + 1 => do
    if ← accept .entry then
      let n ← if ← sees [.entry, .blockEnd] then pure Node.null else node form true false fuel
      return n :: (← blockItems form fuel)
    else if ← accept .blockEnd then return []
    else fail "the end of a sequence"

/-- The items of a sequence that is indented like the key before it. -/
def flushItems (form : Text → Tag) : Nat → Reader (List Node)
  | 0 => fail "too deep"
  | fuel + 1 => do
    if ← accept .entry then
      let n ← if ← sees [.entry, .key, .value, .blockEnd] then pure Node.null
        else node form true false fuel
      return n :: (← flushItems form fuel)
    else return []

/-- The entries of a block up to its end. -/
def blockEntries (form : Text → Tag) : Nat → Reader (List (Node × Node))
  | 0 => fail "too deep"
  | fuel + 1 => do
    let part : Reader Node := do
      if ← sees [.key, .value, .blockEnd] then pure Node.null else node form true true fuel
    if ← accept .key then
      let k ← part
      let v ← if ← accept .value then part else pure Node.null
      return (k, v) :: (← blockEntries form fuel)
    else if ← accept .blockEnd then return []
    else fail "the end of a mapping"

/-- The items between square brackets. -/
def flowItems (form : Text → Tag) (isFirst : Bool) : Nat → Reader (List Node)
  | 0 => fail "too deep"
  | fuel + 1 => do
    if ← accept .flowSequenceEnd then return []
    if !isFirst then
      if !(← accept .flowEntry) then fail "a comma or a bracket"
    if ← accept .key then
      let k ← if ← sees [.value, .flowEntry, .flowSequenceEnd] then pure Node.null
        else node form false false fuel
      let v ← if ← accept .value then
          if ← sees [.flowEntry, .flowSequenceEnd] then pure Node.null else node form false false fuel
        else pure Node.null
      return .mapping .map [(k, v)] :: (← flowItems form false fuel)
    else if ← accept .flowSequenceEnd then return []
    else
      let n ← node form false false fuel
      return n :: (← flowItems form false fuel)

/-- The entries between curly brackets. -/
def flowEntries (form : Text → Tag) (isFirst : Bool) : Nat → Reader (List (Node × Node))
  | 0 => fail "too deep"
  | fuel + 1 => do
    if ← accept .flowMappingEnd then return []
    if !isFirst then
      if !(← accept .flowEntry) then fail "a comma or a bracket"
    if ← accept .key then
      let k ← if ← sees [.value, .flowEntry, .flowMappingEnd] then pure Node.null
        else node form false false fuel
      let v ← if ← accept .value then
          if ← sees [.flowEntry, .flowMappingEnd] then pure Node.null else node form false false fuel
        else pure Node.null
      return (k, v) :: (← flowEntries form false fuel)
    else if ← accept .flowMappingEnd then return []
    else
      let k ← node form false false fuel
      return (k, .null) :: (← flowEntries form false fuel)

end

/-- The directives before a document: at most one version, and shorthands for tags. -/
def directives : Nat → Bool → Reader Unit
  | 0, _ => fail "too many directives"
  | fuel + 1, hasVersion => do
    match ← peek with
    | .version major => do
      skip
      if hasVersion || major != 1 then fail "a version"
      directives fuel true
    | .shorthand h start => do
      skip
      if (lookUp h (← get).shorthands).isSome then fail "a handle given twice"
      modify fun s => { s with shorthands := (h, start) :: s.shorthands }
      directives fuel hasVersion
    | .otherDirective => do
      skip
      directives fuel hasVersion
    | _ => return ()

/-- The shorthands that a document does not give itself. -/
def usualShorthands : List (Text × Text) :=
  [(("!" : Text), ("!" : Text)), (("!!" : Text), Tag.standardStart)]

def skipMarkers : Nat → Reader Unit
  | 0 => return ()
  | fuel + 1 => do if ← accept .documentEnd then skipMarkers fuel

/-- Whether the next token is a directive. -/
def seesDirective : Reader Bool := do
  match ← peek with
  | .version _ => return true
  | .shorthand .. => return true
  | .otherDirective => return true
  | _ => return false

/-- The only document, or nothing if there is none. A second one is an error. -/
def document (form : Text → Tag) (fuel : Nat) : Reader (Option Node) := do
  if ← sees [.streamEnd] then return none
  let isMarked := (← seesDirective) || (← sees [.documentStart])
  let n ←
    if isMarked then do
      directives fuel false
      modify fun s => { s with shorthands := s.shorthands ++ usualShorthands }
      if !(← accept .documentStart) then fail "the start of a document"
      if (← seesDirective) || (← sees [.documentStart, .documentEnd, .streamEnd]) then pure Node.null
      else node form true false fuel
    else do
      modify fun s => { s with shorthands := usualShorthands }
      node form true false fuel
  skipMarkers fuel
  if !(← sees [.streamEnd]) then fail "a second document"
  return some n

/-- The tree of a text with at most one document; `form` gives the tags of plain scalars. -/
def Node.ofText? (form : Text → Tag) (t : Text) : Except Failure (Option Node) := do
  let ts ← tokens t
  let (n, _) ← document form (2 * ts.length + 4) ⟨ts, [], []⟩
  return n

end LuaHost.Yaml
