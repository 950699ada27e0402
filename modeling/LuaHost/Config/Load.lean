import LuaHost.Config.Basic
import LuaHost.Files
import LuaHost.Text.Path
import LuaHost.Yaml.Value

set_option autoImplicit false

/-!
# Configuration files

A configuration is read from a file, if one is named, and variables of the environment win over it.
-/

namespace LuaHost.Config

open Host (Value Failure)

/-- The variables that matter; one that is empty counts as missing. -/
structure Variables where
  /-- the file that is read if no other is named -/
  file : Option Text
  library : Option Text
  debug : Option Text

def filled (t : Option Text) : Option Text := t.filter fun t => !t.isEmpty

/-- The error of a file that cannot be read. -/
def fileFailure (e : FileError) (path : Text) : Failure :=
  let kind := match e with
    | .missing => "FileNotFoundError"
    | .notDirectory => "NotADirectoryError"
    | .isDirectory => "IsADirectoryError"
    | .nameTooLong => "OSError"
  .raised kind ((s!"[Errno {e.number}] {e.text}: " : Text) ++ Quoted.text path)

/-- Line ends of all systems become line feeds. -/
def unixLines : List UInt32 → List UInt32
  | 13 :: 10 :: rest => 10 :: unixLines rest
  | 13 :: rest => 10 :: unixLines rest
  | p :: rest => p :: unixLines rest
  | [] => []

/-- The text of a file. -/
def readText (files : Files) (path : Text) : Except Failure Text := do
  let path := Text.tidyPath path
  if path.points.contains 0 then .error (.value "embedded null byte")
  let name ← Host.encodePath path
  match files.read name with
  | .error e => .error (fileFailure e path)
  | .ok content =>
    match Utf8.decodeStrict content.data.toList with
    | some t => return ⟨unixLines t.points⟩
    | none => .error (.raised "UnicodeDecodeError" "'utf-8' codec can't decode")

/-- The mapping in a file; what counts as false stands for an empty one. -/
def readMapping (files : Files) (path : Text) : Except Failure Value := do
  let v ← Yaml.read (← readText files path)
  if !v.truthy then return .dict []
  match v with
  | .dict es => return .dict es
  | v =>
    .error (.value (("lunar config " : Text) ++ path
      ++ (s!" must be a mapping, got {v.typeName}" : Text)))

/-- Puts the variables in place of what the file says. -/
def withVariables (c : Config) (vars : Variables) : Config :=
  { c with
    library := (filled vars.library).or c.library
    debug := c.debug || (filled vars.debug).isSome }

/-- The configuration of a file, of the one that a variable names, or the usual one. -/
def load (files : Files) (vars : Variables) (path : Option Text) : Except Failure Config := do
  let data ← match (filled path).or (filled vars.file) with
    | some p => readMapping files p
    | none => pure (.dict [])
  return (← ofValue data).withVariables vars

end LuaHost.Config
