import LuaHost.Host.Convert

set_option autoImplicit false

/-!
# Calls of the interface

The functions that a runtime exports, their types in each generation, and single calls of them. A
call is data: it can be carried out by a machine or written down.
-/

namespace LuaHost.Binding

open Lua (Generation)
open Host (Value)

/-- The functions of the interface that a host uses. -/
inductive Symbol where
  | newState | close | openLibs
  | getTop | setTop | checkStack | pushValue
  | type | typeName | toLString | toBoolean | next
  | pushNil | pushNumber | pushInteger | pushLString | pushBoolean | pushCClosure
  | createTable | setField | setTable | loadString | ref | unref
  | getField | getTable | rawGetI
  | toNumber | pcall | loadFile | gc
  | toNumberX | pcallK | loadFileX | getGlobal | setGlobal | requireF | isInteger | toIntegerX
deriving DecidableEq, Repr

namespace Symbol

def name : Symbol → String
  | newState => "luaL_newstate"
  | close => "lua_close"
  | openLibs => "luaL_openlibs"
  | getTop => "lua_gettop"
  | setTop => "lua_settop"
  | checkStack => "lua_checkstack"
  | pushValue => "lua_pushvalue"
  | type => "lua_type"
  | typeName => "lua_typename"
  | toLString => "lua_tolstring"
  | toBoolean => "lua_toboolean"
  | next => "lua_next"
  | pushNil => "lua_pushnil"
  | pushNumber => "lua_pushnumber"
  | pushInteger => "lua_pushinteger"
  | pushLString => "lua_pushlstring"
  | pushBoolean => "lua_pushboolean"
  | pushCClosure => "lua_pushcclosure"
  | createTable => "lua_createtable"
  | setField => "lua_setfield"
  | setTable => "lua_settable"
  | loadString => "luaL_loadstring"
  | ref => "luaL_ref"
  | unref => "luaL_unref"
  | getField => "lua_getfield"
  | getTable => "lua_gettable"
  | rawGetI => "lua_rawgeti"
  | toNumber => "lua_tonumber"
  | pcall => "lua_pcall"
  | loadFile => "luaL_loadfile"
  | gc => "lua_gc"
  | toNumberX => "lua_tonumberx"
  | pcallK => "lua_pcallk"
  | loadFileX => "luaL_loadfilex"
  | getGlobal => "lua_getglobal"
  | setGlobal => "lua_setglobal"
  | requireF => "luaL_requiref"
  | isInteger => "lua_isinteger"
  | toIntegerX => "lua_tointegerx"

end Symbol

/-- The types of arguments and results. -/
inductive CType where
  | void | pointer | string | int | double | int64 | size | sizeOut | intOut | function
deriving DecidableEq, Repr

def CType.name : CType → String
  | void => "void"
  | pointer => "pointer"
  | string => "string"
  | int => "int"
  | double => "double"
  | int64 => "int64"
  | size => "size"
  | sizeOut => "size*"
  | intOut => "int*"
  | function => "cfunction"

/-- The result type and the argument types of a function. -/
structure Signature where
  result : CType
  arguments : List CType
deriving DecidableEq, Repr

namespace Symbol

/-- What the functions that fetch a value give back: its type, from the third generation on. -/
def fetched (g : Generation) : CType := if g.since .v53 then .int else .void

def signature (g : Generation) : Symbol → Signature
  | newState => ⟨.pointer, []⟩
  | close => ⟨.void, [.pointer]⟩
  | openLibs => ⟨.void, [.pointer]⟩
  | getTop => ⟨.int, [.pointer]⟩
  | setTop => ⟨.void, [.pointer, .int]⟩
  | checkStack => ⟨.int, [.pointer, .int]⟩
  | pushValue => ⟨.void, [.pointer, .int]⟩
  | type => ⟨.int, [.pointer, .int]⟩
  | typeName => ⟨.string, [.pointer, .int]⟩
  | toLString => ⟨.pointer, [.pointer, .int, .sizeOut]⟩
  | toBoolean => ⟨.int, [.pointer, .int]⟩
  | next => ⟨.int, [.pointer, .int]⟩
  | pushNil => ⟨.void, [.pointer]⟩
  | pushNumber => ⟨.void, [.pointer, .double]⟩
  | pushInteger => ⟨.void, [.pointer, .int64]⟩
  | pushLString => ⟨.pointer, [.pointer, .string, .size]⟩
  | pushBoolean => ⟨.void, [.pointer, .int]⟩
  | pushCClosure => ⟨.void, [.pointer, .function, .int]⟩
  | createTable => ⟨.void, [.pointer, .int, .int]⟩
  | setField => ⟨.void, [.pointer, .int, .string]⟩
  | setTable => ⟨.void, [.pointer, .int]⟩
  | loadString => ⟨.int, [.pointer, .string]⟩
  | ref => ⟨.int, [.pointer, .int]⟩
  | unref => ⟨.void, [.pointer, .int, .int]⟩
  | getField => ⟨fetched g, [.pointer, .int, .string]⟩
  | getTable => ⟨fetched g, [.pointer, .int]⟩
  | rawGetI => ⟨fetched g, [.pointer, .int, if g.since .v53 then .int64 else .int]⟩
  | toNumber => ⟨.double, [.pointer, .int]⟩
  | pcall => ⟨.int, [.pointer, .int, .int, .int]⟩
  | loadFile => ⟨.int, [.pointer, .string]⟩
  | gc => ⟨.int, if g == .v54 then [.pointer, .int] else [.pointer, .int, .int]⟩
  | toNumberX => ⟨.double, [.pointer, .int, .intOut]⟩
  | pcallK => ⟨.int, [.pointer, .int, .int, .int, if g.since .v53 then .int64 else .int, .pointer]⟩
  | loadFileX => ⟨.int, [.pointer, .string, .string]⟩
  | getGlobal => ⟨fetched g, [.pointer, .string]⟩
  | setGlobal => ⟨.void, [.pointer, .string]⟩
  | requireF => ⟨.void, [.pointer, .string, .function, .int]⟩
  | isInteger => ⟨.int, [.pointer, .int]⟩
  | toIntegerX => ⟨.int64, [.pointer, .int, .intOut]⟩

/-- The functions that every generation has. -/
def shared : List Symbol :=
  [newState, close, openLibs, getTop, setTop, checkStack, pushValue, type, typeName, toLString,
    toBoolean, next, pushNil, pushNumber, pushInteger, pushLString, pushBoolean, pushCClosure,
    createTable, setField, setTable, loadString, ref, unref, getField, getTable, rawGetI]

/-- The functions that a host needs of a generation, in the order in which it looks them up. -/
def needed (g : Generation) : List Symbol :=
  shared ++
    if g == .v51 then [toNumber, pcall, loadFile, gc]
    else [toNumberX, pcallK, loadFileX, getGlobal, setGlobal, requireF, gc]
      ++ (if g.since .v53 then [isInteger] else []) ++ [toIntegerX]

end Symbol

/-- The generation of a runtime, from the names that it exports. -/
def detect (exports : String → Bool) : Generation :=
  if !exports "luaL_requiref" then .v51
  else if exports "lua_newuserdatauv" then .v54
  else if exports "lua_rotate" then .v53
  else .v52

/-- One call of the interface; the machine it is about stands apart. -/
inductive Call where
  | newState
  | close
  | openLibs
  | getTop
  | setTop (i : Int)
  | checkStack (n : Int)
  | pushValue (i : Int)
  | type (i : Int)
  | typeName (tag : Int)
  | toLString (i : Int)
  | toBoolean (i : Int)
  | next (i : Int)
  | pushNil
  | pushNumber (x : Value)
  | pushInteger (n : Value)
  | pushLString (s : ByteArray)
  | pushBoolean (b : Bool)
  | pushCClosure (f : Value)
  | createTable (list record : Int)
  | setField (i : Int) (key : ByteArray)
  | setTable (i : Int)
  | loadString (source : ByteArray)
  | ref (i : Int)
  | unref (i slot : Int)
  | getField (i : Int) (key : ByteArray)
  | getTable (i : Int)
  | rawGetI (i n : Int)
  | toNumber (i : Int)
  | pcall (arguments results handler : Int)
  | loadFile (path : ByteArray)
  | gc
  | getGlobal (name : ByteArray)
  | setGlobal (name : ByteArray)
  | requireF (name : ByteArray) (opening : Value) (isGlobal : Bool)
  | isInteger (i : Int)
  | toInteger (i : Int)

/-- An argument as it is written down. -/
inductive Argument where
  | value (v : Value)
  | out

namespace Call

/-- The function that a call goes to; some jobs have another one in the oldest generation. -/
def symbol (g : Generation) : Call → Symbol
  | newState => .newState
  | close => .close
  | openLibs => .openLibs
  | getTop => .getTop
  | setTop _ => .setTop
  | checkStack _ => .checkStack
  | pushValue _ => .pushValue
  | type _ => .type
  | typeName _ => .typeName
  | toLString _ => .toLString
  | toBoolean _ => .toBoolean
  | next _ => .next
  | pushNil => .pushNil
  | pushNumber _ => .pushNumber
  | pushInteger _ => .pushInteger
  | pushLString _ => .pushLString
  | pushBoolean _ => .pushBoolean
  | pushCClosure _ => .pushCClosure
  | createTable .. => .createTable
  | setField .. => .setField
  | setTable _ => .setTable
  | loadString _ => .loadString
  | ref _ => .ref
  | unref .. => .unref
  | getField .. => .getField
  | getTable _ => .getTable
  | rawGetI .. => .rawGetI
  | toNumber _ => if g == .v51 then .toNumber else .toNumberX
  | pcall .. => if g == .v51 then .pcall else .pcallK
  | loadFile _ => if g == .v51 then .loadFile else .loadFileX
  | gc => .gc
  | getGlobal _ => .getGlobal
  | setGlobal _ => .setGlobal
  | requireF .. => .requireF
  | isInteger _ => .isInteger
  | toInteger _ => .toIntegerX

/-- The number that asks for a full collection. -/
def collectCode : Int := 2

/-- The arguments after the machine. -/
def arguments (g : Generation) : Call → List Argument
  | setTop i => ints [i]
  | checkStack n => ints [n]
  | pushValue i => ints [i]
  | type i => ints [i]
  | typeName t => ints [t]
  | toLString i => ints [i] ++ [.out]
  | toBoolean i => ints [i]
  | next i => ints [i]
  | pushNumber x => [.value x]
  | pushInteger n => [.value n]
  | pushLString s => [.value (.bytes s), .value (.int s.size)]
  | pushBoolean b => ints [if b then 1 else 0]
  | pushCClosure f => [.value f, .value (.int 0)]
  | createTable a r => ints [a, r]
  | setField i k => ints [i] ++ [.value (.bytes k)]
  | setTable i => ints [i]
  | loadString s => [.value (.bytes s)]
  | ref i => ints [i]
  | unref i n => ints [i, n]
  | getField i k => ints [i] ++ [.value (.bytes k)]
  | getTable i => ints [i]
  | rawGetI i n => ints [i, n]
  | toNumber i => ints [i] ++ (if g == .v51 then [] else [.value .none])
  | pcall n r h =>
    ints [n, r, h] ++ (if g == .v51 then [] else [.value (.int 0), .value .none])
  | loadFile p => .value (.bytes p) :: (if g == .v51 then [] else [.value .none])
  | gc => ints (if g == .v54 then [collectCode] else [collectCode, 0])
  | getGlobal n => [.value (.bytes n)]
  | setGlobal n => [.value (.bytes n)]
  | requireF n f isGlobal => [.value (.bytes n), .value f, .value (.int (if isGlobal then 1 else 0))]
  | isInteger i => ints [i]
  | toInteger i => ints [i] ++ [.value .none]
  | _ => []
where
  ints (ns : List Int) : List Argument := ns.map fun n => .value (.int n)

end Call
end LuaHost.Binding
