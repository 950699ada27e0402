import LuaHost.Host.Convert
import LuaHost.Host.Display
import LuaHost.Yaml.Form

set_option autoImplicit false

/-!
# Values of documents

What a tree stands for. The entries of a mapping that is merged into another one come before its own,
which win over them; of entries with equal keys the last gives the value and the first the place.
-/

namespace LuaHost.Yaml

open Host (Failure Value)

/-! ## Merging -/

/-- The entries of a mapping itself and those that are merged into it. -/
structure Merged where
  own : List (Node × Node)
  inherited : List (Node × Node)

/-- The entries that a node gives to a mapping: its own, or of a sequence of mappings all, the last
first. -/
def Node.given : Node → Except Failure (List (Node × Node))
  | .mapping _ es => .ok es
  | .sequence _ items => all items
  | _ => refuse "something that is merged but no mapping"
where
  all : List Node → Except Failure (List (Node × Node))
    | [] => .ok []
    | .mapping _ es :: rest => (all rest).map (· ++ es)
    | _ :: _ => refuse "something that is merged but no mapping"

/-- Adds one entry, whose parts have been merged. -/
def Merged.add (m : Merged) (k v : Node) : Except Failure Merged :=
  match k with
  | .scalar .merge _ => v.given.map fun es => { m with inherited := es ++ m.inherited }
  | .scalar .value t => .ok { m with own := (.scalar .str t, v) :: m.own }
  | k => .ok { m with own := (k, v) :: m.own }

mutual

/-- A tree in which nothing is left to be merged. -/
def Node.merged : Node → Except Failure Node
  | .mapping tag entries => do
    if tag == .map || tag == .set then
      let m ← mergedEntries entries
      return .mapping tag (m.inherited ++ m.own)
    else return .mapping tag (← mergedParts entries)
  | .sequence tag items => return .sequence tag (← mergedAll items)
  | n => .ok n

def mergedAll : List Node → Except Failure (List Node)
  | [] => .ok []
  | n :: rest => do return (← n.merged) :: (← mergedAll rest)

def mergedEntries : List (Node × Node) → Except Failure Merged
  | [] => .ok ⟨[], []⟩
  | e :: rest => do
    let (k, v) ← mergedEntry e
    (← mergedEntries rest).add k v

def mergedParts : List (Node × Node) → Except Failure (List (Node × Node))
  | [] => .ok []
  | e :: rest => do return (← mergedEntry e) :: (← mergedParts rest)

def mergedEntry : Node × Node → Except Failure (Node × Node)
  | (k, v) => do return (← k.merged, ← v.merged)

end

/-! ## Keys -/

/-- Whether two values are the same key: numbers of all kinds are compared as numbers. -/
def sameKey (a b : Value) : Bool :=
  let number (v : Value) : Option (Int ⊕ Float) := match v with
    | .bool b => some (.inl (if b then 1 else 0))
    | .int n => some (.inl n)
    | .float x => some (match Double.toInt? x with
      | some n => .inl n
      | none => .inr x)
    | _ => none
  match number a, number b with
  | some (.inl m), some (.inl n) => m == n
  | some (.inr x), some (.inr y) => x == y
  | some _, _ => false
  | none, some _ => false
  | none, none =>
    match a, b with
    | .none, .none => true
    | .text s, .text t => s == t
    | .bytes s, .bytes t => s == t
    | .other k _ s, .other l _ t => k == l && s == t
    | _, _ => false

/-- Whether a value can be a key. -/
def isKey : Value → Bool
  | .list _ => false
  | .dict _ => false
  | .set _ => false
  | .byteArray _ => false
  | .other kind _ _ => kind != "list" && kind != "dict"
  | _ => true

def putEntry (k v : Value) : List (Value × Value) → List (Value × Value)
  | [] => [(k, v)]
  | (l, w) :: rest => if sameKey k l then (l, v) :: rest else (l, w) :: putEntry k v rest

/-! ## Scalars -/

/-- A number without its gaps, its sign apart. -/
def signAndRest (t : Text) : Except Failure (Bool × List UInt32) :=
  match t.points.filter (· != 95) with
  | [] => .error (.raised "IndexError" "string index out of range")
  | 45 :: rest => .ok (true, rest)
  | 43 :: rest => .ok (false, rest)
  | ps => .ok (false, ps)

/-- Points between colons. -/
def splitColons : List UInt32 → List (List UInt32)
  | [] => [[]]
  | p :: rest =>
    match splitColons rest with
    | q :: qs => if p == 58 then [] :: q :: qs else (p :: q) :: qs
    | [] => [[p]]

def inSixties (parts : List Int) : Int := parts.foldl (fun n p => n * 60 + p) 0

/-- Digits of a base of at most sixteen. -/
def digitsIn? (base : Nat) (ps : List UInt32) : Option Nat :=
  if ps.isEmpty || !ps.all (fun p => isHexDigit p && hexValue p < base) then none
  else some (ps.foldl (fun n p => n * base + hexValue p) 0)

/-- An integer in a base, which a letter after a zero may repeat. -/
def intIn (base : Nat) (letter : String) (ps : List UInt32) : Except Failure Int :=
  let digits := match ps with
    | 48 :: l :: rest => if oneOf letter l then rest else ps
    | ps => ps
  match digitsIn? base digits with
  | some n => .ok n
  | none =>
    .error (.value ((s!"invalid literal for int() with base {base}: " : Text) ++ Quoted.text ⟨ps⟩))

def intOf (t : Text) : Except Failure Int := do
  let (isNegative, ps) ← signAndRest t
  let n ← match ps with
    | [] => .error (.raised "IndexError" "string index out of range")
    | [48] => .ok 0
    | 48 :: 98 :: rest => intIn 2 "bB" rest
    | 48 :: 120 :: rest => intIn 16 "xX" rest
    | 48 :: _ => intIn 8 "oO" ps
    | ps =>
      if ps.contains 58 then do pure (inSixties (← (splitColons ps).mapM fun q => Host.toInt (.text ⟨q⟩)))
      else Host.toInt (.text ⟨ps⟩)
  return if isNegative then -n else n

/-- A decimal number with a point and an exponent, each of which may be missing. -/
def readDecimal? (ps : List UInt32) : Option Float :=
  let whole := ps.takeWhile isDigit
  let ps := ps.drop whole.length
  let (part, ps) := match ps with
    | 46 :: rest => (rest.takeWhile isDigit, rest.dropWhile isDigit)
    | ps => ([], ps)
  let scaled (e : Int) : Float :=
    let n := decimal (whole ++ part)
    let e := e - part.length
    if 0 ≤ e then Double.ofRatio false (n * Nat.pow 10 e.toNat) 1
    else Double.ofRatio false n (Nat.pow 10 (-e).toNat)
  if whole.isEmpty && part.isEmpty then none
  else match ps with
    | [] => some (scaled 0)
    | e :: rest =>
      let digits := Form.unsigned rest
      if e == 101 && !digits.isEmpty && digits.all isDigit then
        some (scaled (if rest.head? == some 45 then -(decimal digits : Int) else decimal digits))
      else none

/-- A number with a fraction as it is read from a text in small letters. -/
def readFloat? (ps : List UInt32) : Option Float :=
  let ps := (Text.strip ⟨ps⟩).points
  let rest := Form.unsigned ps
  let x :=
    if Form.isOneOf ["inf", "infinity"] rest then some (1.0 / 0.0)
    else if Form.isOneOf ["nan"] rest then some (0.0 / 0.0)
    else readDecimal? rest
  x.map fun x => if ps.head? == some 45 then -x else x

def floatPart (ps : List UInt32) : Except Failure Float :=
  match readFloat? ps with
  | some x => .ok x
  | none => .error (.value (("could not convert string to float: " : Text) ++ Quoted.text ⟨ps⟩))

/-- Parts of sixty added up from the last one. -/
def floatSixties (parts : List Float) : Float :=
  (parts.reverse.foldl (fun (s : Float × Nat) x => (s.1 + x * Double.ofInt s.2, s.2 * 60)) (0.0, 1)).1

def floatOf (t : Text) : Except Failure Float := do
  let (isNegative, ps) ← signAndRest t.lowerAscii
  let x ←
    if Form.isOneOf [".inf"] ps then pure (1.0 / 0.0)
    else if Form.isOneOf [".nan"] ps then return 0.0 / 0.0
    else if ps.contains 58 then do pure (floatSixties (← (splitColons ps).mapM floatPart))
    else floatPart ps
  return if isNegative then -1.0 * x else x

/-- The six bits of a letter of the usual alphabet of sixty-four. -/
def sixBits? (p : UInt32) : Option Nat :=
  if 65 ≤ p && p ≤ 90 then some (p.toNat - 65)
  else if 97 ≤ p && p ≤ 122 then some (p.toNat - 71)
  else if isDigit p then some (p.toNat + 4)
  else if p == 43 then some 62
  else if p == 47 then some 63
  else none

/-- Bytes of letters of six bits; other points are skipped, and full padding ends all. `count` letters
of the group have been read, with the value `bits`, and `pads` padding marks. -/
def bytesOfLetters : List UInt32 → Nat → Nat → Nat → Option (List UInt8)
  | [], count, _, _ => if count == 0 then some [] else none
  | p :: rest, count, bits, pads =>
    if p == 61 then
      if 2 ≤ count && 4 ≤ count + pads + 1 then some []
      else bytesOfLetters rest count bits (if 2 ≤ count then pads + 1 else pads)
    else match sixBits? p with
      | none => bytesOfLetters rest count bits pads
      | some d =>
        let bits := bits * 64 + d
        if count == 0 then bytesOfLetters rest 1 bits 0
        else
          let spare := 6 - 2 * count
          let byte := (bits / Nat.pow 2 spare).toUInt8
          (bytesOfLetters rest ((count + 1) % 4) (bits % Nat.pow 2 spare) 0).map (byte :: ·)

def binaryOf (t : Text) : Except Failure Value :=
  if t.points.any (127 < ·) then refuse "letters that are no bytes"
  else match bytesOfLetters t.points 0 0 0 with
    | some bs => .ok (.bytes ⟨bs.toArray⟩)
    | none => refuse "letters that are no bytes"

def boolOf (t : Text) : Except Failure Value :=
  let low := t.lowerAscii
  if Form.isOneOf ["yes", "true", "on"] low.points then .ok (.bool true)
  else if Form.isOneOf ["no", "false", "off"] low.points then .ok (.bool false)
  else .error (.raised "KeyError" (Quoted.text low))

def momentOf (t : Text) : Except Failure Value := do
  match Moment.ofPoints? (Form.withoutBreak t.points) with
  | some m => do
    m.check
    return m.value
  | none => .error (.raised "AttributeError" "'NoneType' object has no attribute 'groupdict'")

/-- The value of a scalar with a tag. -/
def scalarValue (tag : Tag) (t : Text) : Except Failure Value :=
  match tag with
  | .null => .ok .none
  | .bool => boolOf t
  | .int => (intOf t).map .int
  | .float => (floatOf t).map .float
  | .str => .ok (.text t)
  | .binary => binaryOf t
  | .timestamp => momentOf t
  | _ => refuse "a scalar of that type"

/-! ## Trees -/

/-- The text of a scalar, or of the scalar that a mapping has as its value. -/
def Node.text : Node → Except Failure Text
  | .scalar _ t => .ok t
  | .mapping _ entries =>
    let values := entries.filterMap fun (k, v) => match k, v with
      | .scalar .value _, .scalar _ t => some t
      | _, _ => none
    match values with
    | t :: _ => .ok t
    | [] => refuse "a mapping where a scalar is needed"
  | _ => refuse "a collection where a scalar is needed"

def requireKey (k : Value) : Except Failure Unit := requireThat (isKey k) "a key that can change"

mutual

/-- The value of a tree in which nothing is left to be merged. -/
def Node.value : Node → Except Failure Value
  | .scalar tag t => scalarValue tag t
  | .sequence tag items => do
    match tag with
    | .seq => return .list (← values items)
    | .omap | .pairs => return .list (← pairs items)
    | _ => refuse "a sequence of that type"
  | .mapping tag entries => do
    match tag with
    | .map => return .dict (← entriesFrom entries [])
    | .set => return .set ((← entriesFrom entries []).map (·.1))
    | tag => scalarValue tag (← (Node.mapping tag entries).text)
  | .cycle true => .ok (.other "dict" "\x7b...\x7d" "\x7b...\x7d")
  | .cycle false => .ok (.other "list" "[...]" "[...]")

def values : List Node → Except Failure (List Value)
  | [] => .ok []
  | n :: rest => do return (← n.value) :: (← values rest)

/-- The values of mappings with one entry each. -/
def pairs : List Node → Except Failure (List Value)
  | [] => .ok []
  | n :: rest => do return (← n.pair) :: (← pairs rest)

def Node.pair : Node → Except Failure Value
  | .mapping _ [e] => entryValue e
  | _ => refuse "a mapping with one entry"

def entryValue : Node × Node → Except Failure Value
  | (k, v) => do return .tuple [← k.value, ← v.value]

/-- Puts entries one after another into those that are there. -/
def entriesFrom : List (Node × Node) → List (Value × Value) → Except Failure (List (Value × Value))
  | [], done => .ok done
  | e :: rest, done => do
    let (k, v) ← entry e
    entriesFrom rest (putEntry k v done)

def entry : Node × Node → Except Failure (Value × Value)
  | (k, v) => do
    let key ← k.value
    requireKey key
    return (key, ← v.value)

end

/-- The value of a text with at most one document. -/
def read (t : Text) : Except Failure Value := do
  match ← Node.ofText? Form.tag t with
  | some n => (← n.merged).value
  | none => return .none

end LuaHost.Yaml
