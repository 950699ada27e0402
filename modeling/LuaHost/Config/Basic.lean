import LuaHost.Host.Display

set_option autoImplicit false

/-!
# Configuration

Which runtime a host wants and how its states behave. A mapping gives a configuration: its keys are
compared after blanks around them are gone and hyphens have become underscores, and the last key for
a field counts.
-/

namespace LuaHost

open Host (Value Failure)

structure Config where
  /-- the runtime to try first -/
  library : Option Text
  /-- names under which the system may know a runtime -/
  libraryNames : List Text
  /-- modules whose files embed a runtime -/
  bundledModules : List Text
  useBundled : Bool
  openLibs : Bool
  /-- whether failures to load other than of syntax or file are reported -/
  reportAllLoadErrors : Bool
  debug : Bool
deriving DecidableEq, Inhabited

namespace Config

def defaultNames : List Text :=
  ["lua5.4", "lua54", "lua-5.4", "lua5.3", "lua53", "lua-5.3", "lua5.2", "lua52", "lua-5.2", "lua",
    "lua5.1", "lua51", "luajit-5.1"].map Text.ofString

def defaultModules : List Text :=
  ["lupa.lua54", "lupa.lua53", "lupa.lua52", "lupa.lua51", "lupa.luajit21", "lupa.luajit20",
    "lupa._lupa"].map Text.ofString

def default : Config := ⟨none, defaultNames, defaultModules, true, false, true, false⟩

/-- The fields that a mapping may set. -/
inductive Field where
  | library | libraryNames | bundledModules | useBundled | openLibs | reportAllLoadErrors | debug
deriving DecidableEq

def Field.name : Field → String
  | library => "library"
  | libraryNames => "library_names"
  | bundledModules => "bundled_modules"
  | useBundled => "use_bundled"
  | openLibs => "open_libs"
  | reportAllLoadErrors => "report_all_load_errors"
  | debug => "debug"

def Field.all : List Field :=
  [.library, .libraryNames, .bundledModules, .useBundled, .openLibs, .reportAllLoadErrors, .debug]

/-- The field that a normalised key names. -/
def Field.ofKey? (key : Text) : Option Field := Field.all.find? fun f => Text.ofString f.name == key

/-- Whether a value switches something on. Of the texts only four do. -/
def isOn : Value → Bool
  | .text t => ["1", "true", "yes", "on"].any fun s => Text.ofString s == (Text.strip t).lowerAscii
  | v => v.truthy

/-- A key without blanks around it, its hyphens made underscores. -/
def normalizeKey (key : Value) : Text :=
  ⟨(Text.strip key.plain).points.map fun c => if c == 45 then 95 else c⟩

/-- The items of a value that has items. -/
def items? : Value → Option (List Value)
  | .tuple vs => some vs
  | .list vs => some vs
  | .set vs => some vs
  | .dict es => some (es.map (·.1))
  | .bytes b => some (b.data.toList.map fun x => .int x.toNat)
  | .byteArray b => some (b.data.toList.map fun x => .int x.toNat)
  | .text t => some (t.points.map fun c => .text ⟨[c]⟩)
  | _ => none

/-- The plain forms of values. -/
def writtenAll : List Value → Except Failure (List Text)
  | [] => .ok []
  | v :: vs =>
    match v.written with
    | .error e => .error e
    | .ok t => (writtenAll vs).map (t :: ·)

/-- What is said of a value that has no items. -/
def notIterable (v : Value) : Failure := .type (s!"'{v.fullTypeName}' object is not iterable" : String)

/-- The texts of a list; a lone text stands for the list that holds it. -/
def textList : Value → Except Failure (List Text)
  | .text t => .ok [t]
  | v =>
    match items? v with
    | some vs => writtenAll vs
    | none => .error (notIterable v)

/-- Sets one field. -/
def set (c : Config) (f : Field) (v : Value) : Except Failure Config :=
  match f with
  | .library =>
    if v.isNone then .ok { c with library := none }
    else v.written.map fun t => { c with library := some t }
  | .libraryNames => (textList v).map fun ts => { c with libraryNames := ts }
  | .bundledModules => (textList v).map fun ts => { c with bundledModules := ts }
  | .useBundled => .ok { c with useBundled := isOn v }
  | .openLibs => .ok { c with openLibs := isOn v }
  | .reportAllLoadErrors => .ok { c with reportAllLoadErrors := isOn v }
  | .debug => .ok { c with debug := isOn v }

/-- What is said of a key that names no field. A key that cannot be written is one of these. -/
def unknownKey (key : Value) : Failure :=
  if key.isWritable then .value (("Unknown lunar config key: " : Text) ++ key.plainQuoted)
  else Value.tooManyDigits

/-- Sets the fields that the entries name, in order. -/
def setAll (c : Config) : List (Value × Value) → Except Failure Config
  | [] => .ok c
  | (key, v) :: rest =>
    match Field.ofKey? (normalizeKey key) with
    | none => .error (unknownKey key)
    | some f =>
      match c.set f v with
      | .error e => .error e
      | .ok c => setAll c rest

/-- The configuration of a mapping; what counts as false stands for an empty one. -/
def ofValue (v : Value) : Except Failure Config :=
  if !v.truthy then .ok default
  else match v with
    | .dict entries => setAll default entries
    | v => .error (.raised "AttributeError" (s!"'{v.fullTypeName}' object has no attribute 'items'" : String))

end Config
end LuaHost
