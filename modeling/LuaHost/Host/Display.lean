import LuaHost.Host.Convert

set_option autoImplicit false

/-!
# Texts of values

The quoted form of a value, as messages about it show it, and its plain form, which differs for
texts and a few others. References show their slot, which the caller knows.
-/

namespace LuaHost.Host.Value

def boolText (b : Bool) : String := if b then "True" else "False"

mutual

/-- The quoted form. -/
def quoted (slot : Nat → Int) : Value → Text
  | .none => "None"
  | .bool b => boolText b
  | .int n => toString n
  | .float x => Number.shortest x
  | .text t => Quoted.text t
  | .bytes b => Quoted.bytes b
  | .byteArray b => ("bytearray(" : Text) ++ Quoted.bytes b ++ (")" : Text)
  | .tuple vs =>
    ("(" : Text) ++ Text.join ", " (quotedAll slot vs)
      ++ (if vs.length == 1 then (",)" : Text) else (")" : Text))
  | .list vs => ("[" : Text) ++ Text.join ", " (quotedAll slot vs) ++ ("]" : Text)
  | .set vs =>
    if vs.isEmpty then "set()"
    else ("\x7b" : Text) ++ Text.join ", " (quotedAll slot vs) ++ ("\x7d" : Text)
  | .dict entries => ("\x7b" : Text) ++ Text.join ", " (quotedEntries slot entries) ++ ("\x7d" : Text)
  | .other _ _ q => q
  | .reference id => ("LuaRef(" : Text) ++ (toString (slot id) : Text) ++ (")" : Text)
  | .callable (.construct .text) => "<class 'str'>"
  | .callable (.construct .int) => "<class 'int'>"
  | .callable (.construct .bool) => "<class 'bool'>"
  | .callable (.named ..) => "<function>"
  | .pointer _ => "<CFunctionType object>"

def quotedAll (slot : Nat → Int) : List Value → List Text
  | [] => []
  | v :: vs => quoted slot v :: quotedAll slot vs

def quotedEntries (slot : Nat → Int) : List (Value × Value) → List Text
  | [] => []
  | e :: rest => quotedEntry slot e :: quotedEntries slot rest

def quotedEntry (slot : Nat → Int) : Value × Value → Text
  | (k, v) => quoted slot k ++ (": " : Text) ++ quoted slot v

end

/-- The plain form. -/
def shown (slot : Nat → Int) : Value → Text
  | .text t => t
  | .other _ s _ => s
  | v => quoted slot v

/-- The plain form of a value without references. -/
def plain (v : Value) : Text := shown (fun _ => 0) v

/-- The quoted form of a value without references. -/
def plainQuoted (v : Value) : Text := quoted (fun _ => 0) v

mutual

/-- Whether every integer in a value has few enough digits to be written. -/
def isWritable : Value → Bool
  | .int n => n.natAbs < Nat.pow 10 digitLimit
  | .tuple vs => areWritable vs
  | .list vs => areWritable vs
  | .set vs => areWritable vs
  | .dict entries => entriesAreWritable entries
  | _ => true

def areWritable : List Value → Bool
  | [] => true
  | v :: vs => isWritable v && areWritable vs

def entriesAreWritable : List (Value × Value) → Bool
  | [] => true
  | e :: rest => entryIsWritable e && entriesAreWritable rest

def entryIsWritable : Value × Value → Bool
  | (k, v) => isWritable k && isWritable v

end

/-- What is said of a value that holds an integer with too many digits. -/
def tooManyDigits : Failure :=
  .value (s!"Exceeds the limit ({digitLimit} digits) for integer string conversion; use sys.set_int_max_str_digits() to increase the limit" : String)

/-- The plain form, if it can be written. -/
def written (v : Value) : Except Failure Text := if v.isWritable then .ok v.plain else .error tooManyDigits

end LuaHost.Host.Value
