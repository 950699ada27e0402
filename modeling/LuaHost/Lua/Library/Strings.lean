import LuaHost.Lua.Library.Arguments
import LuaHost.Lua.Library.Pattern

set_option autoImplicit false

/-!
# The string library

Positions count bytes from 1, and negative ones from the end.
-/

namespace LuaHost.Lua.Strings

variable {σ : Type}

/-- A position relative to a length, as an absolute one. -/
def relative (pos : Int) (n : Nat) : Int :=
  if 0 ≤ pos then pos else if (n : Int) + pos < 0 then 0 else n + pos + 1

def lenFn (c : Call σ) : M σ (List Value) := do
  return [Value.ofNat (← M.generation) (← c.checkString 1).size]

def subFn (c : Call σ) : M σ (List Value) := do
  let s ← c.checkString 1
  let i := max 1 (relative (← c.checkInt 2) s.size)
  let j := min (s.size : Int) (relative (← c.optInt 3 (-1)) s.size)
  return [.str (if j < i then .empty else s.extract (i.toNat - 1) j.toNat)]

def mapBytes (f : UInt8 → UInt8) (c : Call σ) : M σ (List Value) := do
  return [.str ⟨(← c.checkString 1).data.map f⟩]

def reverseFn (c : Call σ) : M σ (List Value) := do
  return [.str ⟨(← c.checkString 1).data.reverse⟩]

def repeated (s : ByteArray) (separator : ByteArray) : Nat → ByteArray → ByteArray
  | 0, acc => acc
  | 1, acc => acc ++ s
  | n + 2, acc => repeated s separator (n + 1) (acc ++ s ++ separator)

def repFn (c : Call σ) : M σ (List Value) := do
  let s ← c.checkString 1
  let n ← c.checkInt 2
  let separator ← if (← M.generation) == .v51 then pure .empty else c.optString 3 .empty
  if n ≤ 0 then return [.str .empty]
  if 0x7fffffff < (s.size + separator.size : Nat) * n then M.fail "resulting string too large"
  return [.str (repeated s separator n.toNat .empty)]

def byteFn (c : Call σ) : M σ (List Value) := do
  let g ← M.generation
  let s ← c.checkString 1
  let i := relative (← c.optInt 2 1) s.size
  let j := min (s.size : Int) (relative (← c.optInt 3 i) s.size)
  let i := max 1 i
  if j < i then return []
  return (s.extract (i.toNat - 1) j.toNat).data.toList.map fun b => Value.ofNat g b.toNat

def charBytes (c : Call σ) : Nat → Nat → M σ (List UInt8)
  | 0, _ => return []
  | left + 1, n => do
    let v ← c.checkInt n
    if v < 0 ∨ 255 < v then
      c.error n (if (← M.generation) == .v51 then "invalid value" else "value out of range")
    return v.toNat.toUInt8 :: (← charBytes c left (n + 1))

def charFn (c : Call σ) : M σ (List Value) := do
  return [.str ⟨(← charBytes c c.count 1).toArray⟩]

/-- A conversion of `format`: its flags, width and precision. -/
structure Spec where
  flags : List Char
  width : Nat
  precision : Option Nat

def Spec.has (s : Spec) (c : Char) : Bool := s.flags.contains c

/-- Fills a text up to the width, with blanks or, after the sign, with zeros. -/
def Spec.pad (s : Spec) (numeric : Bool) (text : String) : String :=
  let missing := s.width - text.length
  if missing == 0 then text
  else if s.has '-' then text ++ String.ofList (List.replicate missing ' ')
  else if s.has '0' && numeric then
    match text.toList with
    | '-' :: rest => "-" ++ Number.zeros missing ++ String.ofList rest
    | '+' :: rest => "+" ++ Number.zeros missing ++ String.ofList rest
    | _ => Number.zeros missing ++ text
  else String.ofList (List.replicate missing ' ') ++ text

def Spec.sign (s : Spec) (text : String) : String :=
  if text.startsWith "-" then text
  else if s.has '+' then "+" ++ text
  else if s.has ' ' then " " ++ text
  else text

def Spec.integer (s : Spec) (n : Int) : String :=
  let digits := toString n.natAbs
  let digits := match s.precision with
    | some p => Number.zeros (p - digits.length) ++ digits
    | none => digits
  s.pad s.precision.isNone (s.sign (if n < 0 then "-" ++ digits else digits))

def Spec.unsigned (s : Spec) (base : Nat) (upper : Bool) (n : Nat) : String :=
  let digits := String.ofList (Nat.toDigits base n)
  let digits := match s.precision with
    | some p => Number.zeros (p - digits.length) ++ digits
    | none => digits
  let digits := if s.has '#' && base == 16 && n != 0 then "0x" ++ digits else digits
  s.pad s.precision.isNone (if upper then digits.toUpper else digits)

def Spec.float (s : Spec) (letter : Char) (x : Float) : String :=
  let places := s.precision.getD 6
  let text := match letter.toLower with
    | 'e' => Number.scientificPlaces places x
    | 'f' => Number.fixedPlaces places x
    | _ => Number.general places x
  let text := s.sign text
  let finite := !(x.isNaN || x.isInf)
  s.pad finite (if letter.isUpper then text.toUpper else text)

/-- A string as a program would write it. -/
def quoted (g : Generation) (s : ByteArray) : ByteArray :=
  let rec go : List UInt8 → List UInt8
    | [] => [34]
    | b :: rest =>
      if b == 34 || b == 92 then 92 :: b :: go rest
      else if b == 10 then 92 :: 10 :: go rest
      else if b == 13 && g == .v51 then [92, 114] ++ go rest
      else if b == 0 && g == .v51 then [92, 48, 48, 48] ++ go rest
      else if (b < 32 || b == 127) && g != .v51 then
        let digits := (toString b.toNat).toUTF8.data.toList
        let wide := match rest.head? with
          | some d => Numeral.isDigit d
          | none => false
        92 :: (if wide then List.replicate (3 - digits.length) 48 ++ digits else digits) ++ go rest
      else b :: go rest
  ⟨(34 :: go s.data.toList).toArray⟩

def readNumber (bs : List UInt8) : Option Nat × List UInt8 :=
  let ds := bs.takeWhile Numeral.isDigit
  let (n, count, _) := Numeral.digits 10 0 0 ds
  (if count == 0 then none else some n, bs.drop ds.length)

/-- One conversion with the n-th argument. -/
def convert (c : Call σ) (spec : Spec) (letter : UInt8) (n : Nat) : M σ ByteArray := do
  let g ← M.generation
  let out (s : String) : M σ ByteArray := return bytesOf s
  if (c.arg? n).isNone then c.error n "no value"
  match Char.ofNat letter.toNat with
  | 'c' => return ⟨#[(← c.checkInt n).toNat.toUInt8]⟩
  | 'd' | 'i' =>
    if g.hasIntegers then out (spec.integer (← c.checkInt n))
    else
      let x ← c.checkFloat n
      match Double.truncate? x with
      | some k => out (spec.integer k)
      | none => out (spec.integer (-0x8000000000000000))
  | 'u' => out (spec.unsigned 10 false ((← c.checkInt n) % 0x10000000000000000).toNat)
  | 'o' => out (spec.unsigned 8 false ((← c.checkInt n) % 0x10000000000000000).toNat)
  | 'x' => out (spec.unsigned 16 false ((← c.checkInt n) % 0x10000000000000000).toNat)
  | 'X' => out (spec.unsigned 16 true ((← c.checkInt n) % 0x10000000000000000).toNat)
  | 'e' => out (spec.float 'e' (← c.checkFloat n))
  | 'E' => out (spec.float 'E' (← c.checkFloat n))
  | 'f' => out (spec.float 'f' (← c.checkFloat n))
  | 'F' => out (spec.float 'f' (← c.checkFloat n))
  | 'g' => out (spec.float 'g' (← c.checkFloat n))
  | 'G' => out (spec.float 'G' (← c.checkFloat n))
  | 'q' =>
    match c.arg n with
    | .str s => return quoted g s
    | v => if g == .v51 || g == .v52 then return quoted g (← c.checkString n) else M.display c.services v
  | 's' => do
    let s ← if g == .v51 then c.checkString n else M.display c.services (c.arg n)
    let s := match spec.precision with
      | some p => s.extract 0 p
      | none => s
    let missing := spec.width - s.size
    let blanks : ByteArray := ⟨(List.replicate missing 32).toArray⟩
    return if spec.has '-' then s ++ blanks else blanks ++ s
  | _ =>
    let shown : ByteArray := ⟨#[letter]⟩
    if g == .v54 then
      M.failBytes (bytesOf "invalid conversion '%" ++ shown ++ bytesOf "' to 'format'")
    else M.failBytes (bytesOf "invalid option '%" ++ shown ++ bytesOf "' to 'format'")

def formatFrom (c : Call σ) : Nat → List UInt8 → Nat → ByteArray → M σ ByteArray
  | 0, _, _, acc => return acc
  | fuel + 1, bs, n, acc => do
    match bs with
    | [] => return acc
    | 37 :: 37 :: rest => formatFrom c fuel rest n (acc.push 37)
    | 37 :: rest =>
      let flags := rest.takeWhile fun b => [45, 43, 32, 35, 48].contains b
      let rest := rest.drop flags.length
      let (width, rest) := readNumber rest
      let (precision, rest) := match rest with
        | 46 :: rest => let (p, rest) := readNumber rest; (some (p.getD 0), rest)
        | _ => (none, rest)
      let spec : Spec := ⟨flags.map fun b => Char.ofNat b.toNat, width.getD 0, precision⟩
      match rest with
      | letter :: rest => formatFrom c fuel rest (n + 1) (acc ++ (← convert c spec letter n))
      | [] =>
        if (← M.generation) == .v54 then M.fail "invalid conversion '%' to 'format'"
        else M.fail "invalid option '%' to 'format'"
    | b :: rest => formatFrom c fuel rest n (acc.push b)

def formatFn (c : Call σ) : M σ (List Value) := do
  let s ← c.checkString 1
  return [.str (← formatFrom c (s.size + 1) s.data.toList 2 .empty)]

/-- A capture as a value; the whole match stands for the first capture if there is none. -/
def captureValue (x : Pattern.Subject) (caps : Pattern.Captures) (start stop i : Nat) : M σ Value := do
  let g ← M.generation
  match caps[i]? with
  | some ⟨s, .length n⟩ => return .str (Pattern.slice x.text s n)
  | some ⟨s, .position⟩ => return Value.ofNat g (s + 1)
  | some ⟨_, .isOpen⟩ => M.fail "unfinished capture"
  | none =>
    if i == 0 then return .str (x.text.extract start stop)
    else if g.since .v53 then
      M.fail ("invalid capture index %" ++ toString (i + 1) ++ " in replacement string")
    else M.fail "invalid capture index"

def captureValues (x : Pattern.Subject) (caps : Pattern.Captures) (start stop : Nat) (whole : Bool) :
    M σ (List Value) :=
  let n := if caps.isEmpty && whole then 1 else caps.size
  (List.range n).mapM (captureValue x caps start stop)

def fromPattern {α : Type} (r : Except String α) : M σ α :=
  match r with
  | .ok a => return a
  | .error message => M.fail message

def findAux (wantsPlace : Bool) (c : Call σ) : M σ (List Value) := do
  let g ← M.generation
  let text ← c.checkString 1
  let pattern ← c.checkString 2
  let start := max 1 (relative (← c.optInt 3 1) text.size)
  if (text.size : Int) + 1 < start then
    return [.nil]
  let start := start.toNat - 1
  if wantsPlace && ((c.arg 4).truthy || Pattern.isPlain pattern) then
    match Pattern.findPlain text pattern (text.size + 1) start with
    | some s => return [Value.ofNat g (s + 1), Value.ofNat g (s + pattern.size)]
    | none => return [.nil]
  else
    let x : Pattern.Subject := ⟨text, pattern⟩
    let anchored := pattern.data[0]? == some 94
    match ← fromPattern (Pattern.search x anchored (if anchored then 1 else 0) (text.size + 2) start) with
    | none => return [.nil]
    | some (s, e, caps) =>
      if wantsPlace then
        return Value.ofNat g (s + 1) :: Value.ofNat g e :: (← captureValues x caps s e false)
      else captureValues x caps s e true

/-- The iterator of `gmatch`: its upvalues are the text, the pattern and the cell of its place. -/
def gmatchStep (upvalues : List Value) : M σ (List Value) := do
  match upvalues with
  | [.str text, .str pattern, .int cellAddress] => do
    let address := cellAddress.toInt.toNat
    let (place, lastEnd) ← match ← M.cell address with
      | .int packed => pure (packed.toInt.toNat / 0x80000000, packed.toInt.toNat % 0x80000000)
      | _ => pure (0, 0)
    let x : Pattern.Subject := ⟨text, pattern⟩
    find x address (text.size + 2) place lastEnd
  | _ => return [.nil]
where
  find (x : Pattern.Subject) (address : Nat) : Nat → Nat → Nat → M σ (List Value)
    | 0, _, _ => return [.nil]
    | fuel + 1, place, lastEnd => do
      let g ← M.generation
      match ← fromPattern (Pattern.search x false 0 (x.text.size + 2) place) with
      | none => return [.nil]
      | some (s, e, caps) =>
        if g == .v54 && e + 1 == lastEnd then find x address fuel (s + 1) lastEnd
        else
          let next := if g != .v54 && e == s then e + 1 else e
          M.setCell address (.int (Int64.ofNat (next * 0x80000000 + (e + 1))))
          captureValues x caps s e true

def gmatchFn (c : Call σ) : M σ (List Value) := do
  let text ← c.checkString 1
  let pattern ← c.checkString 2
  let cell ← M.newCell (.int 0)
  return [← M.newClosure (.native (.library .string "gmatch_step")
    [.str text, .str pattern, .int (Int64.ofNat cell)])]

/-- The text for a match in `gsub`, from a string, a table or a function. -/
def replacement (c : Call σ) (x : Pattern.Subject) (caps : Pattern.Captures) (s e : Nat) :
    M σ ByteArray := do
  let g ← M.generation
  let whole := x.text.extract s e
  let ofValue (v : Value) : M σ ByteArray := do
    match v with
    | .nil | .bool false => return whole
    | v =>
      match Arith.text? g v with
      | some t => return t
      | none => M.fail ("invalid replacement value (a " ++ v.typeName ++ ")")
  match c.arg 3 with
  | .table a => do
    ofValue (← M.getEntry c.services (.table a) (← captureValue x caps s e 0))
  | .closure _ | .native .. => do
    ofValue (first (← c.services.call (c.arg 3) (← captureValues x caps s e true)))
  | _ => expand (← c.checkString 3).data.toList .empty
where
  expand : List UInt8 → ByteArray → M σ ByteArray
    | [], acc => return acc
    | 37 :: d :: rest, acc => do
      if d == 37 then expand rest (acc.push 37)
      else if d == 48 then expand rest (acc ++ x.text.extract s e)
      else if Numeral.isDigit d then
        let v ← captureValue x caps s e (d.toNat - 49)
        expand rest (acc ++ (Arith.text? (← M.generation) v).getD .empty)
      else if (← M.generation) == .v51 then expand rest (acc.push d)
      else M.fail "invalid use of '%' in replacement string"
    | [37], acc => do
      if (← M.generation) == .v51 then return acc.push 0
      else M.fail "invalid use of '%' in replacement string"
    | b :: rest, acc => expand rest (acc.push b)

def gsubFrom (c : Call σ) (x : Pattern.Subject) (anchored : Bool) (limit : Int) :
    Nat → Nat → Option Nat → Nat → ByteArray → M σ (ByteArray × Nat)
  | 0, _, _, count, acc => return (acc, count)
  | fuel + 1, s, lastEnd, count, acc => do
    if limit ≤ count then return (acc ++ x.text.extract s x.text.size, count)
    let r ← fromPattern (Pattern.matchAt x (Pattern.matchFuel x) s (if anchored then 1 else 0) #[])
    let g ← M.generation
    let step (s : Nat) (lastEnd : Option Nat) (count : Nat) (acc : ByteArray) :
        M σ (ByteArray × Nat) :=
      if x.text.size < s || anchored then return (acc ++ x.text.extract s x.text.size, count)
      else gsubFrom c x anchored limit fuel s lastEnd count acc
    let skip (count : Nat) (acc : ByteArray) : M σ (ByteArray × Nat) :=
      if s < x.text.size then step (s + 1) lastEnd count (acc.push (x.byte s)) else return (acc, count)
    match r with
    | some (e, caps) =>
      if g == .v54 && lastEnd == some e then skip count acc
      else
        let acc := acc ++ (← replacement c x caps s e)
        if e == s && g != .v54 then skip (count + 1) acc
        else step e (some e) (count + 1) acc
    | none => skip count acc

def gsubFn (c : Call σ) : M σ (List Value) := do
  let g ← M.generation
  let text ← c.checkString 1
  let pattern ← c.checkString 2
  match c.arg 3 with
  | .str _ | .int _ | .float _ | .table _ | .closure _ | .native .. => pure ()
  | _ =>
    if g == .v54 then c.typeError 3 "string/function/table"
    else c.error 3 "string/function/table expected"
  let limit ← c.optInt 4 (text.size + 1)
  let anchored := pattern.data[0]? == some 94
  let (out, n) ← gsubFrom c ⟨text, pattern⟩ anchored limit (2 * text.size + 4) 0 none 0 .empty
  return [.str out, Value.ofNat g n]

def apply (name : String) (upvalues : List Value) (c : Call σ) : M σ (List Value) :=
  match name with
  | "byte" => byteFn c
  | "char" => charFn c
  | "dump" => M.fail "unable to dump given function"
  | "find" => findAux true c
  | "format" => formatFn c
  | "gfind" => gmatchFn c
  | "gmatch" => gmatchFn c
  | "gmatch_step" => gmatchStep upvalues
  | "gsub" => gsubFn c
  | "len" => lenFn c
  | "lower" => mapBytes Pattern.toLower c
  | "match" => findAux false c
  | "rep" => repFn c
  | "reverse" => reverseFn c
  | "sub" => subFn c
  | "upper" => mapBytes Pattern.toUpper c
  | _ => M.fail ("'" ++ name ++ "' is not supported")

end LuaHost.Lua.Strings
