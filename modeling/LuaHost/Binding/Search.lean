import LuaHost.Binding.Program
import LuaHost.Config.Basic

set_option autoImplicit false

/-!
# The search for a runtime

Candidates are the configured library, what the system knows under the configured names, and the files
of bundled modules. The first that opens and is a runtime serves; it is opened once and then
remembered.
-/

namespace LuaHost.Binding

open Lua (Generation)
open Host (Failure)

/-- What surrounds a search: names the system knows, modules with their files, and the names that
each library exports. -/
structure Surroundings where
  found : List (Text × Text)
  modules : List (Text × Option Text)
  exports : List (Text × List String)

namespace Surroundings

def lookup {α : Type} (key : Text) : List (Text × α) → Option α
  | [] => none
  | (k, v) :: rest => if k == key then some v else lookup key rest

/-- The names that a runtime of a generation exports. -/
def exportsOf (g : Generation) : List String :=
  (Symbol.needed g).map Symbol.name
    ++ (if g.since .v53 then ["lua_rotate"] else [])
    ++ (if g == .v54 then ["lua_newuserdatauv"] else [])

/-- Appends a path unless it is empty or already there. -/
def add (out : List Text) (path : Option Text) : List Text :=
  match path with
  | some p => if p.isEmpty || out.contains p then out else out ++ [p]
  | none => out

/-- The libraries to try, in order. -/
def candidates (s : Surroundings) (c : Config) : List Text :=
  let first := match c.library with
    | some l => if l.isEmpty then [] else [l]
    | none => []
  let named := c.libraryNames.foldl (fun out n => add out (lookup n s.found)) first
  if c.useBundled then
    c.bundledModules.foldl (fun out m => add out ((lookup m s.modules).getD none)) named
  else named

end Surroundings

/-- The debug channel of a process: once on it stays on, and a variable of the environment opens it. -/
structure Debug where
  isOn : Bool
  variable_ : Option Text
  /-- whether the stream behind the channel is closed -/
  isClosed : Bool

namespace Debug

def off : Debug := ⟨false, none, false⟩

def writes (d : Debug) : Bool := d.isOn || (d.variable_.map fun t => !t.isEmpty).getD false

/-- Switches the channel on if a configuration wants it, or if there is none. -/
def enable (d : Debug) (c : Option Config) : Debug :=
  match c with
  | none => { d with isOn := true }
  | some c => if c.debug then { d with isOn := true } else d

/-- What a line leaves on the stream. -/
def print (d : Debug) (line : Text) : Except Failure Text :=
  if d.isClosed then .error (.value "I/O operation on closed file.") else .ok line

/-- The line that the parts give. That it cannot be written is no failure. -/
def line (d : Debug) (parts : List Text) : Text :=
  if d.writes then
    match d.print (Text.join " " ("[DBG]" :: parts) ++ ("\n" : Text)) with
    | .ok line => line
    | .error _ => Text.empty
  else Text.empty

end Debug

/-- The runtimes opened so far, by where they came from, in order. -/
abbrev Cache := List (Text × Runtime)

/-- What opening one candidate came to, and the words for the debug channel. -/
structure Opened where
  runtime : Option Runtime
  words : List Text

/-- The first function that a generation needs and a library does not export. -/
def missing? (exported : List String) (g : Generation) : Option String :=
  ((Symbol.needed g).map Symbol.name).find? fun n => !exported.contains n

/-- Opens a library that is not remembered. -/
def openCandidate (s : Surroundings) (target : Text) : Except Failure Opened :=
  match Surroundings.lookup target s.exports with
  | none =>
    .ok ⟨none, ["lua library", target, "not loadable:",
      target ++ (": cannot open shared object file" : Text)]⟩
  | some exported =>
    if !exported.contains "luaL_newstate" then
      .ok ⟨none, ["lua library", target, "does not export the Lua C API"]⟩
    else
      let g := detect exported.contains
      match missing? exported g with
      | some name => .error (.raised "AttributeError" (target ++ (s!": undefined symbol: {name}" : Text)))
      | none =>
        .ok ⟨some (.ofGeneration g target), ["lua library", target, "generation", toString g.number]⟩

/-- A search in progress: what is remembered, and what went to the debug channel. -/
structure Search where
  cache : Cache
  written : Text

/-- Tries candidates in order. -/
def tryAll (s : Surroundings) (d : Debug) (tried : List Text) :
    List Text → Search → Except Failure Runtime × Search
  | [], search => (.error (.noRuntime tried), search)
  | target :: rest, search =>
    match Surroundings.lookup target search.cache with
    | some r => (.ok r, search)
    | none =>
      match openCandidate s target with
      | .error e => (.error e, search)
      | .ok opened =>
        let search := { search with written := search.written ++ d.line opened.words }
        match opened.runtime with
        | some r => (.ok r, { search with cache := search.cache ++ [(target, r)] })
        | none => tryAll s d tried rest search

/-- Finds the runtime that a configuration asks for. -/
def load (s : Surroundings) (d : Debug) (c : Config) (cache : Cache) : Except Failure Runtime × Search × Debug :=
  let d := d.enable (some c)
  let tried := s.candidates c
  let (r, search) := tryAll s d tried tried ⟨cache, Text.empty⟩
  (r, search, d)

end LuaHost.Binding
