import LuaHost.Lua.Library.Base

set_option autoImplicit false

/-!
# Packages

`require` asks a list of searchers for a loader. The first looks among the preloaded loaders and the
second for a file on the path; the searchers for compiled libraries find nothing, but say where they
would have looked.
-/

namespace LuaHost.Lua.Packages

variable {σ : Type}

/-- A table stored under a name in another one; a new one if there is none. -/
def subtable (a : Nat) (name : ByteArray) : M σ Nat := do
  match (← M.table a).get (.str name) with
  | .table b => return b
  | _ => do
    let b ← M.newTable
    M.rawSet a (.str name) (.table b)
    return b

/-- The table of the loaded modules. -/
def loaded : M σ Nat := do subtable (← M.vm).registry (bytesOf "_LOADED")

def luaDirectory (g : Generation) : String := "/usr/local/share/lua/" ++ g.version ++ "/"

def nativeDirectory (g : Generation) : String := "/usr/local/lib/lua/" ++ g.version ++ "/"

def defaultPath (g : Generation) : String :=
  let l := luaDirectory g
  let n := nativeDirectory g
  let installed := l ++ "?.lua;" ++ l ++ "?/init.lua;" ++ n ++ "?.lua;" ++ n ++ "?/init.lua"
  match g with
  | .v51 => "./?.lua;" ++ installed
  | .v52 => installed ++ ";./?.lua"
  | _ => installed ++ ";./?.lua;./?/init.lua"

def defaultNativePath (g : Generation) : String :=
  let n := nativeDirectory g
  if g == .v51 then "./?.so;" ++ n ++ "?.so;" ++ n ++ "loadall.so"
  else n ++ "?.so;" ++ n ++ "loadall.so;./?.so"

/-- The parts of a byte string between separators. -/
def split (separator : UInt8) (bs : List UInt8) : List (List UInt8) :=
  match bs with
  | [] => [[]]
  | b :: rest =>
    let parts := split separator rest
    if b == separator then [] :: parts
    else match parts with
      | p :: ps => (b :: p) :: ps
      | [] => [[b]]

/-- The file names that a path gives for a module. -/
def fileNames (path name : ByteArray) : List ByteArray :=
  let asFile := name.data.toList.map fun b => if b == 46 then 47 else b
  ((split 59 path.data.toList).filter (!·.isEmpty)).map fun template =>
    ⟨(template.flatMap fun b => if b == 63 then asFile else [b]).toArray⟩

def noFiles (g : Generation) (names : List ByteArray) : ByteArray :=
  let lines := names.map fun n => bytesOf "\n\tno file '" ++ n ++ bytesOf "'"
  let all := lines.foldl (· ++ ·) .empty
  if g == .v54 then all.extract 2 all.size else all

def pathField (package : Nat) (name : String) : M σ ByteArray := do
  match (← M.table package).getString name with
  | .str s => return s
  | _ => M.fail ("'package." ++ name ++ "' must be a string")

/-- The sentence of a searcher that found nothing. -/
def notFound (g : Generation) (s : ByteArray) : Value :=
  .str (if g == .v54 then s else bytesOf "\n\t" ++ s)

def searchPreload (package : Nat) (c : Call σ) : M σ (List Value) := do
  let g ← M.generation
  let name ← c.checkString 1
  let preload ← match (← M.table package).getString "preload" with
    | .table a => pure a
    | _ => M.fail "'package.preload' must be a table"
  match (← M.table preload).get (.str name) with
  | .nil => return [notFound g (bytesOf "no field package.preload['" ++ name ++ bytesOf "']")]
  | f => return if g == .v54 then [f, Value.ofString ":preload:"] else [f]

/-- Whether a file can be opened for reading; a directory can. -/
def isReadable (files : LuaHost.Files) (path : ByteArray) : Bool :=
  match files.find path with
  | .ok _ => true
  | .error _ => false

def searchPath (files : Base.Files σ) (package : Nat) (c : Call σ) : M σ (List Value) := do
  let g ← M.generation
  let name ← c.checkString 1
  let names := fileNames (← pathField package "path") name
  let host := (← get).host
  match names.find? fun n => isReadable (files host) n with
  | none => return [.str (noFiles g names)]
  | some file =>
    match ← Base.loadPath files file with
    | .ok f => return [f, .str file]
    | .error (_, message) =>
      M.failBytes (bytesOf "error loading module '" ++ name ++ bytesOf "' from file '" ++ file
        ++ bytesOf "':\n\t" ++ message)

def searchNative (package : Nat) (c : Call σ) : M σ (List Value) := do
  let g ← M.generation
  let name ← c.checkString 1
  return [.str (noFiles g (fileNames (← pathField package "cpath") name))]

/-- The searcher for a compiled library that holds several modules. -/
def searchNativeRoot (package : Nat) (c : Call σ) : M σ (List Value) := do
  let name ← c.checkString 1
  match split 46 name.data.toList with
  | root :: _ :: _ =>
    let g ← M.generation
    return [.str (noFiles g (fileNames (← pathField package "cpath") ⟨root.toArray⟩))]
  | _ => return []

/-- Asks the searchers in order; gives the loader and what came with it. -/
def findLoader (c : Call σ) (name : ByteArray) (searchers : Nat) : Nat → Nat → ByteArray →
    M σ (Value × List Value)
  | 0, _, message => notThere message
  | fuel + 1, i, message => do
    let g ← M.generation
    match (← M.table searchers).get (.int (Int64.ofNat i)) with
    | .nil => notThere message
    | searcher =>
      let results ← c.services.call searcher [.str name]
      let said := first results
      if isFunction said then return (said, results.drop 1)
      else match Arith.text? g said with
        | some s =>
          let s := if g == .v54 then bytesOf "\n\t" ++ s else s
          findLoader c name searchers fuel (i + 1) (message ++ s)
        | none => findLoader c name searchers fuel (i + 1) message
where
  notThere (message : ByteArray) : M σ (Value × List Value) :=
    M.failBytes (bytesOf "module '" ++ name ++ bytesOf "' not found:" ++ message)

def requireFn (package : Nat) (c : Call σ) : M σ (List Value) := do
  let g ← M.generation
  let name ← c.checkString 1
  let modules ← loaded
  let key : Key := .str name
  let present := (← M.table modules).get key
  if present.truthy then return [present]
  let field := if g == .v51 then "loaders" else "searchers"
  let searchers ← match (← M.table package).getString field with
    | .table a => pure a
    | _ => M.fail ("'package." ++ field ++ "' must be a table")
  let (loader, data) ← findLoader c name searchers 100 1 .empty
  let extra := if g == .v51 then [] else [first data]
  let result := first (← c.services.call loader (.str name :: extra))
  if !result.isNil then M.rawSet modules (.str name) result
  if ((← M.table modules).get key).isNil then M.rawSet modules (.str name) (.bool true)
  let final := (← M.table modules).get key
  return if g == .v54 then final :: extra else [final]

def searchPathFn (files : Base.Files σ) (c : Call σ) : M σ (List Value) := do
  let g ← M.generation
  let names := fileNames (← c.checkString 2) (← c.checkString 1)
  let host := (← get).host
  match names.find? fun n => isReadable (files host) n with
  | some file => return [.str file]
  | none => return [.nil, .str (noFiles g names)]

def apply (files : Base.Files σ) (name : String) (upvalues : List Value) (c : Call σ) :
    M σ (List Value) := do
  let package ← match upvalues with
    | .table a :: _ => pure a
    | _ => pure 0
  match name with
  | "loadlib" =>
    return [.nil, Value.ofString "dynamic libraries not enabled; check your Lua installation",
      Value.ofString "absent"]
  | "require" => requireFn package c
  | "search_native" => searchNative package c
  | "search_native_root" => searchNativeRoot package c
  | "search_path" => searchPath files package c
  | "search_preload" => searchPreload package c
  | "searchpath" => searchPathFn files c
  | "seeall" => do
    let a ← c.checkTable 1
    let mt ← M.newTable
    let globals ← Base.globalsValue
    M.modifyTable mt fun t => t.setString "__index" globals
    Base.setMetatable a (some mt)
    return []
  | _ => return []

end LuaHost.Lua.Packages
