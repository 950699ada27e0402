import LuaHost.Host.Value
import LuaHost.Text.Blank
import LuaHost.Text.Quoted
import LuaHost.Number.Format

set_option autoImplicit false

/-!
# Conversions between values of the host

Encoding of texts, byte strings from values, numbers from values. Each conversion that can fail says
why in the host's words.
-/

namespace LuaHost.Host

def isSurrogate (c : UInt32) : Bool := 0xD800 ≤ c && c ≤ 0xDFFF

/-- The complaint about a text with surrogates: it names the first run of them. -/
def surrogateFailure (t : Text) : Failure :=
  let start := (t.points.takeWhile fun c => !isSurrogate c).length
  let run := (t.points.drop start).takeWhile isSurrogate
  let place : Text :=
    if run.length ≤ 1 then
      ("character " : Text) ++ Quoted.text ⟨run⟩ ++ (s!" in position {start}" : Text)
    else (s!"characters in position {start}-{start + run.length - 1}" : Text)
  .raised "UnicodeEncodeError"
    (("'utf-8' codec can't encode " : Text) ++ place ++ (": surrogates not allowed" : Text))

/-- The bytes of a text. -/
def encode (t : Text) : Except Failure ByteArray :=
  match t.utf8? with
  | some b => .ok b
  | none => .error (surrogateFailure t)

/-- A path as bytes: surrogates from U+DC80 to U+DCFF stand for the bytes that no text denotes. -/
def encodePath (t : Text) : Except Failure ByteArray :=
  let piece (c : UInt32) : Option (List UInt8) :=
    if 0xDC80 ≤ c ∧ c ≤ 0xDCFF then some [(c - 0xDC00).toUInt8] else Utf8.encodePoint c
  match t.points.mapM piece with
  | some pieces => .ok ⟨pieces.flatten.toArray⟩
  | none => .error (surrogateFailure ⟨t.points.map fun c => if 0xDC80 ≤ c ∧ c ≤ 0xDCFF then 63 else c⟩)

/-- The number of one byte in a byte string given as a list. -/
def byteOf : Value → Except Failure UInt8
  | .int n =>
    if 0 ≤ n ∧ n < 256 then .ok (UInt8.ofNat n.toNat)
    else .error (.value "bytes must be in range(0, 256)")
  | .bool b => .ok (if b then 1 else 0)
  | v => .error (.type (s!"'{v.typeName}' object cannot be interpreted as an integer" : String))

def bytesOfAll : List Value → Except Failure (List UInt8)
  | [] => .ok []
  | v :: vs =>
    match byteOf v with
    | .error e => .error e
    | .ok b => (bytesOfAll vs).map (b :: ·)

/-- The most bytes that a byte string may have. -/
def sizeLimit : Int := 0x8000000000000000 - 1

/-- The byte string made from a value that is no text: a number gives so many zeros. -/
def toBytes : Value → Except Failure ByteArray
  | .bytes b => .ok b
  | .byteArray b => .ok b
  | .bool b => .ok ⟨Array.replicate (if b then 1 else 0) 0⟩
  | .int n =>
    if sizeLimit < n ∨ n < -0x8000000000000000 then .error (.overflow "cannot fit 'int' into an index-sized integer")
    else if n < 0 then .error (.value "negative count")
    else if 0x10000000000 < n then .error (.raised "MemoryError" "")
    else .ok ⟨Array.replicate n.toNat 0⟩
  | .list vs => (bytesOfAll vs).map fun bs => ⟨bs.toArray⟩
  | .tuple vs => (bytesOfAll vs).map fun bs => ⟨bs.toArray⟩
  | .set vs => (bytesOfAll vs).map fun bs => ⟨bs.toArray⟩
  | .dict es => (bytesOfAll (es.map (·.1))).map fun bs => ⟨bs.toArray⟩
  | v => .error (.type (s!"cannot convert '{v.typeName}' object to bytes" : String))

/-- The bytes of a source: a text is encoded, anything else made into a byte string. -/
def sourceBytes : Value → Except Failure ByteArray
  | .text t => encode t
  | v => toBytes v

/-- The bytes of a path given as a text or as bytes. -/
def pathBytes : Value → Except Failure ByteArray
  | .text t => encodePath t
  | .bytes b => .ok b
  | v => .error (.type (s!"expected str, bytes or os.PathLike object, not {v.typeName}" : String))

/-- The bytes up to the first NUL. -/
def upToNul (b : ByteArray) : ByteArray := ⟨(b.data.toList.takeWhile (· != 0)).toArray⟩

/-- An integer as a double, unless it is too large for one. -/
def floatOfInt (n : Int) : Except Failure Float :=
  match Double.ofInt? n with
  | some x => .ok x
  | none => .error (.overflow "int too large to convert to float")

/-- A double as an integer, without its fraction. -/
def intOfFloat (x : Float) : Except Failure Int :=
  match Double.truncate? x with
  | some n => .ok n
  | none =>
    if x.isNaN then .error (.value "cannot convert float NaN to integer")
    else .error (.overflow "cannot convert float infinity to integer")

/-- The value of a decimal digit of any script that stands in one of the common blocks. -/
def digitValue? (c : UInt32) : Option Nat :=
  let zeros : List UInt32 := [0x30, 0x660, 0x6F0, 0x7C0, 0x966, 0x9E6, 0xA66, 0xAE6, 0xB66, 0xBE6, 0xC66,
    0xCE6, 0xD66, 0xDE6, 0xE50, 0xED0, 0xF20, 0x1040, 0x17E0, 0x1810, 0xFF10]
  (zeros.find? fun z => z ≤ c && c ≤ z + 9).map fun z => (c - z).toNat

/-- A run of digits with single underscores between digits. -/
def digitRun : List UInt32 → Option Nat → Option Nat
  | [], acc => acc
  | c :: rest, acc =>
    match digitValue? c with
    | some d => digitRun rest (some (acc.getD 0 * 10 + d))
    | none =>
      match acc, rest with
      | some _, d :: _ => if c == 95 && (digitValue? d).isSome then digitRun rest acc else none
      | _, _ => none

/-- An integer written in decimal, with blanks around it and a sign. -/
def readInt? (t : Text) : Option Int :=
  match (Text.strip t).points with
  | 43 :: rest => (digitRun rest none).map Int.ofNat
  | 45 :: rest => (digitRun rest none).map fun n => -(n : Int)
  | ps => (digitRun ps none).map Int.ofNat

/-- The most digits with which an integer is read or written in decimal. -/
def digitLimit : Nat := 4300

/-- How many digits there are up to the first point that is neither a digit nor an underscore between
digits. No number begins there if an underscore stands elsewhere. -/
def leadingDigits : List UInt32 → (count : Nat) → (gap : Bool) → Option Nat
  | [], count, gap => if gap then none else some count
  | c :: rest, count, gap =>
    if (digitValue? c).isSome then leadingDigits rest (count + 1) false
    else if c == 95 then if gap || count == 0 then none else leadingDigits rest count true
    else if gap then none else some count

/-- The digits that an integer begins with, if they are more than can be read. -/
def excess? (t : Text) : Option Nat :=
  let ps := match (Text.strip t).points with
    | 43 :: rest => rest
    | 45 :: rest => rest
    | ps => ps
  (leadingDigits ps 0 false).filter fun n => digitLimit < n

/-- The integer that a text stands for, which messages show as `quoted`. -/
def intOfText (t : Text) (quoted : Text) : Except Failure Int :=
  match excess? t with
  | some n =>
    .error (.value (s!"Exceeds the limit ({digitLimit} digits) for integer string conversion: value has {n} digits; use sys.set_int_max_str_digits() to increase the limit" : String))
  | none =>
    match readInt? t with
    | some n => .ok n
    | none => .error (.value (("invalid literal for int() with base 10: " : Text) ++ quoted))

/-- The integer that a value converts to. -/
def toInt : Value → Except Failure Int
  | .int n => .ok n
  | .bool b => .ok (if b then 1 else 0)
  | .float x => intOfFloat x
  | .text t => intOfText t (Quoted.text t)
  | .bytes b => ofBytes b (Quoted.bytes b)
  | .byteArray b => ofBytes b (("bytearray(" : Text) ++ Quoted.bytes b ++ (")" : Text))
  | v =>
    .error (.type (s!"int() argument must be a string, a bytes-like object or a real number, not '{v.typeName}'" : String))
where
  ofBytes (b : ByteArray) (quoted : Text) : Except Failure Int :=
    intOfText ⟨b.data.toList.map UInt8.toUInt32⟩ quoted

end LuaHost.Host
