import LuaHost.Host.Value
import LuaHost.Yaml.Cursor

set_option autoImplicit false

/-!
# Tokens

The marks, names and scalars of a document. Where a line is indented further or less than the lines
before it, tokens say so.
-/

namespace LuaHost.Yaml

open Host (Failure)

inductive Token where
  | version (major : Nat)
  | shorthand (handle start : Text)
  | otherDirective
  | documentStart
  | documentEnd
  | blockSequence
  | blockMapping
  | blockEnd
  | flowSequence
  | flowSequenceEnd
  | flowMapping
  | flowMappingEnd
  | entry
  | flowEntry
  | key
  | value
  | alias (name : Text)
  | anchor (name : Text)
  | tag (handle : Option Text) (rest : Text)
  | scalar (text : Text) (isPlain : Bool)
  | streamEnd
deriving DecidableEq, Inhabited

/-- A text that is no document. -/
def malformed (why : Text) : Failure := .raised "YAMLError" why

def refuse {α : Type} (why : Text) : Except Failure α := .error (malformed why)

def requireThat (b : Bool) (why : Text) : Except Failure Unit := if b then .ok () else refuse why

end LuaHost.Yaml
