import LuaHost.Host.Trampoline

set_option autoImplicit false

/-!
# Commands of a session

A session works on named states and keeps named results. Each command is one operation of a host on
one of its states.
-/

namespace LuaHost.Session

open Host

/-- A selector: from a state, or a kept one, extended by keys. -/
inductive Way where
  | path (keys : List Value)
  | kept (name : Text) (keys : List Value)

/-- How a new state gets its machine. -/
inductive Attachment where
  | create
  | borrow (from_ : Option Text)

/-- The form in which a path is given. -/
inductive PathForm where
  | text
  | path
  | bytes

/-- What a handler of a session does. -/
inductive HandlerKind where
  | print
  | unset
  | record (name : Text) (successor : Option Text) (raises : Option Text)

/-- A failure that a runtime can be made to show. -/
inductive Patch where
  | hideTexts
  | breakFiles (b : Binding.Breakage)
  | breakChunks (b : Binding.Breakage)
  | refuseStates
  | hideRegistration
  | off

inductive Command where
  | new (openLibs : Option Bool) (config : Option Value) (attachment : Attachment) (isShared : Bool)
  | execute (source : Value)
  | write (file : Text) (content : ByteArray)
  | makeDirectory (file : Text)
  | loadFile (file : Value) (form : PathForm)
  | get (way : Way)
  | exists (way : Way)
  | ref (way : Way)
  | call (way : Way) (args : List Value)
  | set (way : Way) (v : Value) (byItem : Bool)
  | select (way : Way) (name : Text)
  | showSelector (way : Way)
  | globalNames
  | size
  | collect
  | show
  | interact (input : ByteArray)
  | handle
  | handler (kind : HandlerKind)
  | report (code : Int) (message : Text)
  | openLib (name : Value) (loader : Routine) (isDirect : Bool)
  | openNative (name : Value) (symbol : String)
  | move (target : Text)
  | take (source : Text)
  | close
  | delete
  | within (source : Value) (raises : Option (String × Text))
  | copy
  | referenceInfo (name : Text)
  | release (name : Text)
  | drop (name : Text)
  | pushReference (name : Text) (state : Option Text)
  | registryValue (name : Text)
  | pinTop
  | pushChunk (source : Text)
  | closeRegistry
  | releaseMachine
  | dropKept
  | wrap (r : Routine)
  | toHost (i : Int) (withRegistry : Bool)
  | pushHost (v : Value) (withRegistry : Bool)
  | api (calls : List RoutineCall)
  | guard (calls : List RoutineCall) (raises : Option (String × Text))
  | patch (p : Patch)

/-- One step: a command on a state; its result may be kept under a name. -/
structure Step where
  state : Text
  keep : Option Text
  command : Command

/-- What a command gives: a value of the host, which may hold references, or something to show. -/
inductive Given where
  | value (v : Value)
  | shown (a : Answer)

def nothing : Given := .value .none

end LuaHost.Session
