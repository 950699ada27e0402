import LuaHost.Lua.Library.Bits
import LuaHost.Lua.Library.Codepoints
import LuaHost.Lua.Library.Coroutines
import LuaHost.Lua.Library.Debugging
import LuaHost.Lua.Library.Maths
import LuaHost.Lua.Library.Os
import LuaHost.Lua.Library.Packages
import LuaHost.Lua.Library.Streams
import LuaHost.Lua.Library.Strings
import LuaHost.Lua.Library.Tables

set_option autoImplicit false

/-!
# The standard libraries

Which functions each generation has, how a library is opened, and the meaning of all library
functions together. Opening a library gives its table; registering it stores the table among the
loaded modules and as a global.
-/

namespace LuaHost.Lua.Library

variable {σ : Type}

/-- The name under which a library is registered. -/
def moduleName : Lib → String
  | .base => "_G"
  | .coroutine => "coroutine"
  | .package => "package"
  | .string => "string"
  | .table => "table"
  | .math => "math"
  | .io => "io"
  | .os => "os"
  | .debug => "debug"
  | .utf8 => "utf8"
  | .bit32 => "bit32"

def baseNames (g : Generation) : List String :=
  ["assert", "collectgarbage", "dofile", "error", "getmetatable", "ipairs", "load", "loadfile", "next",
    "pairs", "pcall", "print", "rawequal", "rawget", "rawset", "select", "setmetatable", "tonumber",
    "tostring", "type", "xpcall"]
  ++ match g with
    | .v51 => ["gcinfo", "getfenv", "loadstring", "newproxy", "setfenv", "unpack"]
    | .v52 => ["rawlen"]
    | .v53 => ["rawlen"]
    | .v54 => ["rawlen", "warn"]

/-- The functions of a library. -/
def names (g : Generation) : Lib → List String
  | .base => baseNames g
  | .coroutine =>
    ["create", "resume", "running", "status", "wrap", "yield"]
    ++ (if g.since .v53 then ["isyieldable"] else []) ++ (if g == .v54 then ["close"] else [])
  | .package =>
    ["loadlib"] ++ (if g == .v51 then ["seeall"] else ["searchpath"])
  | .string =>
    ["byte", "char", "dump", "find", "format", "gmatch", "gsub", "len", "lower", "match", "rep",
      "reverse", "sub", "upper"]
    ++ (if g == .v51 then ["gfind"] else [])
    ++ (if g.since .v53 then ["pack", "packsize", "unpack"] else [])
  | .table =>
    ["concat", "insert", "remove", "sort"]
    ++ match g with
      | .v51 => ["foreach", "foreachi", "getn", "maxn", "setn"]
      | .v52 => ["pack", "unpack"]
      | _ => ["move", "pack", "unpack"]
  | .math =>
    ["abs", "acos", "asin", "atan", "ceil", "cos", "deg", "exp", "floor", "fmod", "log", "max", "min",
      "modf", "rad", "random", "randomseed", "sin", "sqrt", "tan"]
    ++ match g with
      | .v51 => ["atan2", "cosh", "frexp", "ldexp", "log10", "mod", "pow", "sinh", "tanh"]
      | .v52 => ["atan2", "cosh", "frexp", "ldexp", "pow", "sinh", "tanh"]
      | _ => ["tointeger", "type", "ult"]
  | .io => ["close", "flush", "input", "lines", "open", "output", "popen", "read", "tmpfile", "type", "write"]
  | .os =>
    ["clock", "date", "difftime", "execute", "exit", "getenv", "remove", "rename", "setlocale", "time",
      "tmpname"]
  | .debug =>
    ["debug", "gethook", "getinfo", "getlocal", "getmetatable", "getregistry", "getupvalue", "sethook",
      "setlocal", "setmetatable", "setupvalue", "traceback"]
    ++ (if g == .v51 then ["getfenv", "setfenv"]
      else ["getuservalue", "setuservalue", "upvalueid", "upvaluejoin"])
    ++ (if g == .v54 then ["setcstacklimit"] else [])
  | .utf8 => ["char", "codepoint", "codes", "len", "offset"]
  | .bit32 =>
    ["arshift", "band", "bnot", "bor", "btest", "bxor", "extract", "lrotate", "lshift", "replace",
      "rrotate", "rshift"]

def fill (a : Nat) (lib : Lib) : List String → M σ Unit
  | [] => return ()
  | name :: rest => do
    let f ← M.native (.library lib name)
    M.modifyTable a fun t => t.setString name f
    fill a lib rest

/-- The table for a library's functions: the oldest generation reuses one that is registered, or a
global, under the library's name. -/
def tableFor (lib : Lib) : M σ Nat := do
  if (← M.generation) != .v51 then return ← M.newTable
  let name := (moduleName lib).toUTF8
  let loaded ← Packages.loaded
  match (← M.table loaded).get (.str name) with
  | .table a => return a
  | _ => do
    let globals := (← M.vm).globals
    let a ← match (← M.table globals).get (.str name) with
      | .table a => pure a
      | .nil => Packages.subtable globals name
      | _ => M.fail ("name conflict for module '" ++ moduleName lib ++ "'")
    M.rawSet loaded (.str name) (.table a)
    return a

def setField (a : Nat) (name : String) (v : Value) : M σ Unit :=
  M.modifyTable a fun t => t.setString name v

/-- A new table filled with functions of a library. -/
def newLibrary (lib : Lib) : M σ Nat := do
  let a ← tableFor lib
  fill a lib (names (← M.generation) lib)
  return a

def openCoroutine : M σ (List Value) := do return [.table (← newLibrary .coroutine)]

def openBase : M σ (List Value) := do
  let g ← M.generation
  let globals := (← M.vm).globals
  setField globals "_G" (.table globals)
  if g == .v51 then M.rawSet (← Packages.loaded) (.str "_G".toUTF8) (.table globals)
  fill globals .base (names g .base)
  setField globals "_VERSION" (Value.ofString ("Lua " ++ g.version))
  if g == .v51 then return .table globals :: (← openCoroutine) else return [.table globals]

/-- A function of the package library that knows the table of the library. -/
def packageFunction (package : Nat) (name : String) : M σ Value :=
  M.newClosure (.native (.library .package name) [.table package])

/-- Enters functions of the package library in a list, from a position on. -/
def fillSearchers (package searchers : Nat) : List String → Nat → M σ Unit
  | [], _ => return ()
  | name :: rest, n => do
    M.rawSet searchers (.int (Int64.ofNat n)) (← packageFunction package name)
    fillSearchers package searchers rest (n + 1)

/-- The fields of the package library besides its functions. -/
def fillPackage (package searchers : Nat) : M σ Unit := do
  let g ← M.generation
  setField package (if g == .v51 then "loaders" else "searchers") (.table searchers)
  setField package "path" (Value.ofString (Packages.defaultPath g))
  setField package "cpath" (Value.ofString (Packages.defaultNativePath g))
  setField package "config" (Value.ofString "/\n;\n?\n!\n-\n")
  setField package "loaded" (.table (← Packages.loaded))
  setField package "preload" (.table (← Packages.subtable (← M.vm).registry (bytesOf "_PRELOAD")))

def openPackage : M σ (List Value) := do
  let a ← newLibrary .package
  let searchers ← M.newTable
  fillSearchers a searchers ["search_preload", "search_path", "search_native", "search_native_root"] 1
  fillPackage a searchers
  let globals := (← M.vm).globals
  setField globals "require" (← packageFunction a "require")
  if (← M.generation) == .v51 then setField globals "module" (← packageFunction a "module")
  return [.table a]

def openString : M σ (List Value) := do
  let a ← newLibrary .string
  let mt ← M.newTable
  setField mt "__index" (.table a)
  M.modifyVm fun vm => { vm with stringMeta := some mt }
  return [.table a]

def openMath : M σ (List Value) := do
  let g ← M.generation
  let a ← newLibrary .math
  setField a "pi" (.float 3.141592653589793)
  setField a "huge" (.float (Double.infinity false))
  if g.hasIntegers then
    setField a "maxinteger" (.int Int64.maxValue)
    setField a "mininteger" (.int Int64.minValue)
  return [.table a]

def methodNames : List String :=
  ["close", "flush", "lines", "read", "seek", "setvbuf", "write"]

def fillMethods (a : Nat) : List String → M σ Unit
  | [] => return ()
  | name :: rest => do
    setField a name (← M.native (.library .io ("file_" ++ name)))
    fillMethods a rest

/-- The metatable of streams. -/
def streamMetatable : M σ Nat := do
  let g ← M.generation
  let mt ← Packages.subtable (← M.vm).registry Streams.metaName
  if g.since .v53 then setField mt "__name" (.str Streams.metaName)
  setField mt "__gc" (← M.native (.library .io "file_gc"))
  setField mt "__tostring" (← M.native (.library .io "file_tostring"))
  let methods ← if g == .v54 then M.newTable else pure mt
  fillMethods methods methodNames
  setField mt "__index" (.table methods)
  return mt

/-- A standard stream as a field of the library. -/
def standardStream (a mt : Nat) (name : String) : M σ Value := do
  let v := Value.userdata (← M.newUserdata ⟨some mt⟩)
  setField a name v
  return v

/-- Enters the functions of the library, each with the standard stream that it uses. -/
def fillStreams (a : Nat) (input output : Value) : List String → M σ Unit
  | [] => return ()
  | name :: rest => do
    let standard := if name == "input" || name == "read" then input else output
    setField a name (← M.newClosure (.native (.library .io name) [standard]))
    fillStreams a input output rest

def openStreams : M σ (List Value) := do
  let mt ← streamMetatable
  let a ← tableFor .io
  let input ← standardStream a mt "stdin"
  let output ← standardStream a mt "stdout"
  let _ ← standardStream a mt "stderr"
  fillStreams a input output (names (← M.generation) .io)
  return [.table a]

def openUtf8 : M σ (List Value) := do
  let a ← newLibrary .utf8
  setField a "charpattern" (.str (Codepoints.charPattern (← M.generation)))
  return [.table a]

/-- Opens a library: makes its table, and what else belongs to it. -/
def opener : Lib → M σ (List Value)
  | .base => openBase
  | .coroutine => openCoroutine
  | .package => openPackage
  | .string => openString
  | .table => do return [.table (← newLibrary .table)]
  | .math => openMath
  | .io => openStreams
  | .os => do return [.table (← newLibrary .os)]
  | .debug => do return [.table (← newLibrary .debug)]
  | .utf8 => openUtf8
  | .bit32 => do return [.table (← newLibrary .bit32)]

/-- The libraries of a generation in the order in which they are opened. -/
def all : Generation → List Lib
  | .v51 => [.base, .package, .table, .io, .os, .string, .math, .debug]
  | .v52 => [.base, .package, .coroutine, .table, .io, .os, .string, .bit32, .math, .debug]
  | .v53 => [.base, .package, .coroutine, .table, .io, .os, .string, .math, .utf8, .debug]
  | .v54 => [.base, .package, .coroutine, .table, .io, .os, .string, .math, .utf8, .debug]

/-- Registers the module that `opening` gives. From the third generation on a loaded module is not
opened again. -/
def register (name : ByteArray) (isGlobal : Bool) (opening : M σ Value) : M σ Value := do
  let g ← M.generation
  let known := (← M.table (← Packages.loaded)).get (.str name)
  let v ← if g.since .v53 && known.truthy then pure known
    else do
      let v ← opening
      M.rawSet (← Packages.loaded) (.str name) v
      pure v
  if isGlobal then M.rawSet (← M.vm).globals (.str name) v
  return v

/-- Opens all libraries of the generation. -/
def openAll : M σ Unit := do
  let g ← M.generation
  (all g).forM fun lib => do
    if g == .v51 then
      let _ ← opener lib
    else
      let _ ← register (moduleName lib).toUTF8 true (first <$> opener lib)

/-- A library function that may be given to the machine by its name in the interface. -/
def ofSymbol? (name : String) : Option Native :=
  let known := [Lib.base, .coroutine, .package, .string, .table, .math, .io, .os, .debug, .utf8, .bit32]
  let symbol (lib : Lib) : String := "luaopen_" ++ (if lib == .base then "base" else moduleName lib)
  match known.find? fun lib => symbol lib == name with
  | some lib => some (.library lib "luaopen")
  | none => if name == "lua_error" then some (.library .base "raise") else none

/-- The meaning of the library functions. -/
def apply (files : Base.Files σ) (services : Services σ) (f : Native) (upvalues args : List Value) :
    M σ (List Value) :=
  let c : Call σ := ⟨f, args, services⟩
  match f with
  | .library lib "luaopen" => opener lib
  | .library .base "raise" => M.raise (args.getLastD .nil)
  | .library .base name => Base.apply files name c
  | .library .coroutine name => Coroutines.apply name upvalues c
  | .library .package name => Packages.apply files name upvalues c
  | .library .string name => Strings.apply name upvalues c
  | .library .table name => Tables.apply name c
  | .library .math name => Maths.apply name c
  | .library .io name => Streams.apply name upvalues c
  | .library .os name => Os.apply name c
  | .library .debug name => Debugging.apply name c
  | .library .utf8 name => Codepoints.apply name c
  | .library .bit32 name => Bits.apply name c
  | .foreign _ => return []

end LuaHost.Lua.Library
