import LuaHost.Lua.Value
import LuaHost.Text.Utf8

set_option autoImplicit false

/-!
# Values of the host

What a host program holds: plain data, containers, references to values pinned in a machine,
functions that programs of a machine may call, and functions of the machine's own interface.
-/

namespace LuaHost.Host

/-- The types whose constructor may serve as a callback. -/
inductive Class where
  | text
  | int
  | bool
deriving DecidableEq

mutual

inductive Value where
  | none
  | bool (b : Bool)
  | int (n : Int)
  | float (x : Float)
  | text (t : Text)
  | bytes (b : ByteArray)
  | byteArray (b : ByteArray)
  | tuple (vs : List Value)
  | list (vs : List Value)
  | set (vs : List Value)
  | dict (entries : List (Value × Value))
  /-- a value of which only the name of its type and its two texts matter -/
  | other (kind : String) (shown quoted : Text)
  | reference (id : Nat)
  | callable (f : Callback)
  /-- a function of the machine's interface -/
  | pointer (f : Lua.Native)

/-- A function of the host. -/
inductive Callback where
  | named (name : Text) (action : Action)
  | construct (c : Class)

/-- What a callback does with its arguments. -/
inductive Action where
  | echo
  | reverse
  | count
  | first
  | const (v : Value)
  | nothing
  | keep
  | raise (kind : String) (message : Text)
  | execute (state : Text) (source : Value)
  | get (path : List Value)
  | call (path : List Value)
  | set (path : List Value)

end

instance : Inhabited Value := ⟨.none⟩

namespace Value

/-- The part of a name after its last dot. -/
def lastPart (name : String) : String :=
  String.ofList (name.toList.reverse.takeWhile (· != '.')).reverse

/-- The name of a value's type. -/
def typeName : Value → String
  | none => "NoneType"
  | bool _ => "bool"
  | int _ => "int"
  | float _ => "float"
  | text _ => "str"
  | bytes _ => "bytes"
  | byteArray _ => "bytearray"
  | tuple _ => "tuple"
  | list _ => "list"
  | set _ => "set"
  | dict _ => "dict"
  | other kind _ _ => lastPart kind
  | reference _ => "LuaRef"
  | callable (.named ..) => "function"
  | callable (.construct _) => "type"
  | pointer _ => "CFunctionType"

/-- The name of a value's type with that of its module, as the host's own messages give it. -/
def fullTypeName : Value → String
  | other kind _ _ => kind
  | v => v.typeName

/-- Whether a value counts as true. -/
def truthy : Value → Bool
  | none => false
  | bool b => b
  | int n => n != 0
  | float x => x != 0.0
  | text t => !t.isEmpty
  | bytes b => b.size != 0
  | byteArray b => b.size != 0
  | tuple vs => !vs.isEmpty
  | list vs => !vs.isEmpty
  | set vs => !vs.isEmpty
  | dict entries => !entries.isEmpty
  | _ => true

def ofString (s : String) : Value := text s

def isNone : Value → Bool
  | none => true
  | _ => false

end Value

/-- An error of the host. -/
inductive Failure where
  | raised (kind : String) (message : Text)
  /-- no runtime among these could be loaded -/
  | noRuntime (tried : List Text)

namespace Failure

def kind : Failure → String
  | raised k _ => k
  | noRuntime _ => "LuaLibraryNotFound"

def message : Failure → Text
  | raised _ m => m
  | noRuntime tried =>
    let detail : Text := if tried.isEmpty then "no candidates" else Text.join ", " tried
    ("No usable Lua runtime found (tried: " : Text) ++ detail ++ (")" : Text)

def type (m : Text) : Failure := raised "TypeError" m

def value (m : Text) : Failure := raised "ValueError" m

def overflow (m : Text) : Failure := raised "OverflowError" m

/-- A report of it as text: kind and message. -/
def text (f : Failure) : Text := Text.ofString f.kind ++ (": " : Text) ++ f.message

end Failure

end LuaHost.Host
