import LuaHost.Lua.Library.Arguments
import LuaHost.Files
import LuaHost.Lua.Collector

set_option autoImplicit false

/-!
# The basic functions

Everything the globals offer besides the library tables. Protected calls are not here: they act on
the continuations of the machine. What functions print goes nowhere, and files come from the caller.
-/

namespace LuaHost.Lua.Base

variable {σ : Type}

/-- How a native function finds the files. -/
abbrev Files (σ : Type) := σ → LuaHost.Files

def bool (b : Bool) : Value := .bool b

def errorFn (c : Call σ) : M σ (List Value) := do
  let g ← M.generation
  let level ← c.optInt 2 1
  let v := c.arg 1
  let isText := match v with
    | .str _ => true
    | .int _ | .float _ => !g.hasIntegers
    | _ => false
  if isText && 0 < level then
    M.raise (.str ((← M.placeAt level.toNat) ++ (Arith.text? g v).getD .empty))
  else M.raise v

def assertFn (c : Call σ) : M σ (List Value) := do
  let g ← M.generation
  if (c.arg 1).truthy then return c.args
  let _ ← c.checkAny 1
  if g.hasIntegers then
    match c.arg? 2 with
    | none => M.fail "assertion failed!"
    | some (.str s) => M.failBytes s
    | some v => M.raise v
  else M.failBytes (← c.optString 2 (bytesOf "assertion failed!"))

def typeFn (c : Call σ) : M σ (List Value) := do
  return [Value.ofString (← c.checkAny 1).typeName]

/-- The text of a value; the older generations hand on whatever its metatable's function gives. -/
def tostringFn (c : Call σ) : M σ (List Value) := do
  let g ← M.generation
  let v ← c.checkAny 1
  let mm ← M.metamethod v "__tostring"
  if mm.isNil || g.since .v53 then return [.str (← M.display c.services v)]
  match first (← c.services.call mm [v]) with
  | .float x => return [if g == .v51 then .float x else .str ((Arith.text? g (.float x)).getD .empty)]
  | r => return [r]

/-- A number written in a base, which may have a sign and blanks around it. -/
def inBase? (base : Nat) (bs : List UInt8) : Option Int :=
  let (neg, bs) := Numeral.sign (Numeral.trim bs)
  let (n, count, rest) := Numeral.digits base 0 0 bs
  if count != 0 && rest.isEmpty then some (if neg then -(n : Int) else n) else none

def tonumberFn (c : Call σ) : M σ (List Value) := do
  let g ← M.generation
  if c.isAbsent 2 then
    let v ← c.checkAny 1
    return [(Arith.toNumber? g v).getD .nil]
  let base ← c.checkInt 2
  let s ← if g.hasIntegers then
      match c.arg 1 with
      | .str s => pure s
      | _ => c.typeError 1 "string"
    else c.checkString 1
  if base < 2 ∨ 36 < base then c.error 2 "base out of range"
  match inBase? base.toNat s.data.toList with
  | some n => return [Value.ofInt g n]
  | none => return [.nil]

def selectFn (c : Call σ) : M σ (List Value) := do
  let g ← M.generation
  match c.arg 1 with
  | .str s =>
    if s.data[0]? == some 35 then return [Value.ofNat g (c.count - 1)]
    else pick (← c.checkInt 1)
  | _ => pick (← c.checkInt 1)
where
  pick (n : Int) : M σ (List Value) := do
    let rest := c.args.drop 1
    if n < 0 then
      let start := (rest.length : Int) + n
      if start < 0 then c.error 1 "index out of range" else return rest.drop start.toNat
    else if n == 0 then c.error 1 "index out of range"
    else return rest.drop (n.toNat - 1)

def rawequalFn (c : Call σ) : M σ (List Value) := do
  let a ← c.checkAny 1
  let b ← c.checkAny 2
  return [bool (a.rawEquals b)]

def rawgetFn (c : Call σ) : M σ (List Value) := do
  let a ← c.checkTable 1
  let k ← c.checkAny 2
  return [(← M.table a).getValue k]

def rawsetFn (c : Call σ) : M σ (List Value) := do
  let a ← c.checkTable 1
  let k ← c.checkAny 2
  let v ← c.checkAny 3
  match M.badKey? k with
  | some message => M.raise (Value.ofString message)
  | none =>
    M.rawSet a k v
    return [.table a]

def rawlenFn (c : Call σ) : M σ (List Value) := do
  let g ← M.generation
  match c.arg 1 with
  | .table a => return [Value.ofNat g (← M.table a).length]
  | .str s => return [Value.ofNat g s.size]
  | _ =>
    if g == .v54 then c.typeError 1 "table or string" else c.error 1 "table or string expected"

def getmetatableFn (c : Call σ) : M σ (List Value) := do
  let v ← c.checkAny 1
  match ← M.metatable? v with
  | none => return [.nil]
  | some mt =>
    match (← M.table mt).getString "__metatable" with
    | .nil => return [.table mt]
    | shown => return [shown]

/-- Gives a table a metatable and, if that has a finalizer, enters the table for finalization. -/
def setMetatable (a : Nat) (mt : Option Nat) : M σ Unit := do
  M.modifyVm fun vm =>
    { vm with
      tables := vm.tables.modify a fun t => { t with metatable := mt }
      breached := vm.breached || a == vm.registry }
  match mt with
  | none => return ()
  | some mt =>
    if (← M.generation) == .v51 then return ()
    if !((← M.table mt).getString "__gc").isNil then
      M.modifyVm fun vm =>
        if vm.finalizable.contains (.table a) then vm
        else { vm with finalizable := .table a :: vm.finalizable }

def setmetatableFn (c : Call σ) : M σ (List Value) := do
  let a ← c.checkTable 1
  let mt ← match c.arg? 2 with
    | some (.table mt) => pure (some mt)
    | some .nil => pure none
    | _ =>
      if (← M.generation) == .v54 then c.typeError 2 "nil or table"
      else c.error 2 "nil or table expected"
  match (← M.metatable? (.table a)) with
  | some old =>
    if !((← M.table old).getString "__metatable").isNil then
      M.fail "cannot change a protected metatable"
  | none => pure ()
  setMetatable a mt
  return [.table a]

/-- The entry after a key, as key and value. -/
def nextEntry (a : Nat) (key : Value) : M σ (List Value) := do
  let t ← M.table a
  match t.next key.key? with
  | none => M.raise (Value.ofString "invalid key to 'next'")
  | some none => return [.nil]
  | some (some e) => return [e.shown, e.value]

def nextFn (c : Call σ) : M σ (List Value) := do
  nextEntry (← c.checkTable 1) (c.arg 2)

def pairsFn (c : Call σ) : M σ (List Value) := do
  let g ← M.generation
  let mm ← if g == .v51 then pure Value.nil else M.metamethod (c.arg 1) "__pairs"
  match mm with
  | .nil =>
    if g.since .v53 then
      let v ← c.checkAny 1
      return [← M.native (.library .base "next"), v, .nil]
    let a ← c.checkTable 1
    return [← M.native (.library .base "next"), .table a, .nil]
  | mm =>
    match ← c.services.call mm [c.arg 1] with
    | x :: y :: z :: _ => return [x, y, z]
    | vs => return adjust 3 vs

def ipairsFn (c : Call σ) : M σ (List Value) := do
  let g ← M.generation
  let step ← M.native (.library .base "ipairs_step")
  if g.since .v53 then return [step, ← c.checkAny 1, Value.ofNat g 0]
  else
    let mm ← if g == .v52 then M.metamethod (c.arg 1) "__ipairs" else pure Value.nil
    match mm with
    | .nil => return [step, .table (← c.checkTable 1), Value.ofNat g 0]
    | mm => return adjust 3 (← c.services.call mm [c.arg 1])

def ipairsStep (c : Call σ) : M σ (List Value) := do
  let g ← M.generation
  let i := (← c.checkInt 2) + 1
  let key := Value.ofInt g i
  let v ← if g.since .v53 then M.getEntry c.services (c.arg 1) key
    else match c.arg 1 with
      | .table a => pure ((← M.table a).getValue key)
      | _ => pure .nil
  if v.isNil then return [.nil] else return [key, v]

def globalsValue : M σ Value := return .table (← M.vm).globals

/-- Loads a text as a chunk; a failure is nil and the message. -/
def loadText (source name : ByteArray) (env : Option Value) : M σ (List Value) := do
  let globals ← match env with
    | some v => pure v
    | none => globalsValue
  match ← M.load name source globals with
  | .ok f => return [f]
  | .error (_, message) => return [.nil, .str message]

/-- The pieces that a reader function gives, up to an empty one. -/
def readPieces (c : Call σ) : Nat → ByteArray → M σ ByteArray
  | 0, acc => return acc
  | fuel + 1, acc => do
    match first (← c.services.call (c.arg 1) []) with
    | .nil => return acc
    | .str s => if s.size == 0 then return acc else readPieces c fuel (acc ++ s)
    | _ => M.fail "reader function must return a string"

def loadFn (c : Call σ) : M σ (List Value) := do
  let g ← M.generation
  let env := if g == .v51 then none else c.arg? 4
  match Arith.text? g (c.arg 1) with
  | some s =>
    if g == .v51 then c.typeError 1 "function"
    else loadText s (← c.optString 2 s) env
  | none =>
    let _ ← c.checkFunction 1
    let name ← c.optString 2 (bytesOf "=(load)")
    let source ← readPieces c 100000 .empty
    loadText source name env

def loadstringFn (c : Call σ) : M σ (List Value) := do
  let s ← c.checkString 1
  loadText s (← c.optString 2 s) none

/-- A file's text without its mark of byte order and its first line if that starts with `#`. -/
def fileText (g : Generation) (content : ByteArray) : ByteArray :=
  let bs := content.data.toList
  let bs := match g, bs with
    | .v51, _ => bs
    | _, 0xEF :: 0xBB :: 0xBF :: rest => rest
    | _, _ => bs
  match bs with
  | 35 :: rest => ⟨(rest.dropWhile (· != 10)).toArray⟩
  | _ => ⟨bs.toArray⟩

/-- What is wrong with a file: a directory can be opened, but not read. -/
def openFailure (path : ByteArray) (e : FileError) : ByteArray :=
  let what := if e == .isDirectory then "cannot read " else "cannot open "
  bytesOf what ++ path ++ bytesOf (": " ++ e.text)

def loadPath (files : Files σ) (path : ByteArray) : M σ (Except (Status × ByteArray) Value) := do
  let g ← M.generation
  match (files (← get).host).read path with
  | .error e => return .error (.errFile, openFailure path e)
  | .ok content => M.load (bytesOf "@" ++ path) (fileText g content) (← globalsValue)

def loadfileFn (files : Files σ) (c : Call σ) : M σ (List Value) := do
  match ← loadPath files (← c.optString 1 .empty) with
  | .ok f =>
    match f, (← M.generation), c.arg? 3 with
    | .closure a, .v51, _ => return [.closure a]
    | .closure a, _, some env =>
      match ← M.closure a with
      | .lua _ cells _ => do
        M.setCell (cells.getD 0 0) env
        return [f]
      | .native .. => return [f]
    | _, _, _ => return [f]
  | .error (_, message) => return [.nil, .str message]

def dofileFn (files : Files σ) (c : Call σ) : M σ (List Value) := do
  match ← loadPath files (← c.optString 1 .empty) with
  | .ok f => c.services.call f []
  | .error (_, message) => M.raise (.str message)

/-- The list of values from position `i` to `j`. -/
def unpackRange (c : Call σ) (obj : Value) : Nat → Int → M σ (List Value)
  | 0, _ => return []
  | n + 1, i => do
    let g ← M.generation
    let key := Value.ofInt g i
    let v ← if g.since .v53 then M.getEntry c.services obj key
      else match obj with
        | .table a => pure ((← M.table a).getValue key)
        | _ => pure .nil
    return v :: (← unpackRange c obj n (i + 1))

def lengthOf (c : Call σ) (v : Value) : M σ Int := do
  let g ← M.generation
  let raw : M σ Int := do
    match v with
    | .table a => return (← M.table a).length
    | .str s => return s.size
    | _ => M.raise (.str (← M.typeError "get length of" v none))
  let mm ← if g == .v51 then pure Value.nil else M.metamethod v "__len"
  match mm with
  | .nil => raw
  | mm =>
    match Arith.toInt? g (first (← c.services.call mm [v])) with
    | some n => return n.toInt
    | none => M.fail "object length is not an integer"

def unpackFn (c : Call σ) : M σ (List Value) := do
  let g ← M.generation
  let obj ← if g.since .v53 then pure (c.arg 1) else .table <$> c.checkTable 1
  let i ← c.optInt 2 1
  let j ← if c.isAbsent 3 then
      if g.since .v53 then lengthOf c obj
      else match obj with
        | .table a => pure ((← M.table a).length : Int)
        | _ => pure 0
    else c.checkInt 3
  if j < i then return []
  let n := (j - i + 1).toNat
  if (if g == .v51 then 7990 else 999000) ≤ n then M.fail "too many results to unpack"
  unpackRange c obj n i

/-- Control of the collector; amounts of memory are constants. -/
def collectgarbageFn (c : Call σ) : M σ (List Value) := do
  let g ← M.generation
  let zero := Value.ofNat g 0
  match ← c.optString 1 (bytesOf "collect") with
  | s =>
    if s == bytesOf "collect" then
      M.collect c.services.callPlain
      return [zero]
    else if s == bytesOf "count" then
      return if g == .v52 then [.float 32.0, zero] else [.float 32.0]
    else if s == bytesOf "step" then
      M.collect c.services.callPlain
      return [bool true]
    else if s == bytesOf "isrunning" && g != .v51 then return [bool true]
    else if ["generational", "incremental"].any (fun w => s == bytesOf w) && g == .v52 then
      return [zero]
    else if s == bytesOf "setmajorinc" && g == .v52 then return [Value.ofNat g 200]
    else if s == bytesOf "generational" && g == .v54 then return [Value.ofString "incremental"]
    else if s == bytesOf "incremental" && g == .v54 then return [Value.ofString "incremental"]
    else if ["stop", "restart"].any (fun w => s == bytesOf w) then return [zero]
    else if s == bytesOf "setpause" then return [Value.ofNat g 200]
    else if s == bytesOf "setstepmul" then return [Value.ofNat g (if g == .v54 then 100 else 200)]
    else M.argError c.fn 1 (bytesOf "invalid option '" ++ s ++ bytesOf "'")

def printEach (c : Call σ) : List Value → M σ Unit
  | [] => return ()
  | v :: rest => do
    let _ ← M.display c.services v
    printEach c rest

def printFn (c : Call σ) : M σ (List Value) := do
  printEach c c.args
  return []

/-- A new userdata; it counts among the objects that may have a finalizer. -/
def newUserdata (mt : Option Nat) : M σ Value := do
  let a ← M.newUserdata ⟨mt⟩
  if mt.isSome then
    M.modifyVm fun vm => { vm with finalizable := .userdata a :: vm.finalizable }
  return .userdata a

/-- A blank userdata, with a metatable of its own on demand. -/
def newproxyFn (c : Call σ) : M σ (List Value) := do
  match c.arg 1 with
  | .bool true => return [← newUserdata (some (← M.newTable))]
  | .userdata a => return [← newUserdata ((← M.vm).userdata.get a).metatable]
  | _ => return [← newUserdata none]

def getfenvFn (c : Call σ) : M σ (List Value) := do
  match c.arg 1 with
  | .closure a =>
    match ← M.closure a with
    | .lua _ cells _ => return [← M.cell (cells.getD 0 0)]
    | .native .. => return [← globalsValue]
  | _ => return [← globalsValue]

def apply (files : Files σ) (name : String) (c : Call σ) : M σ (List Value) :=
  match name with
  | "assert" => assertFn c
  | "collectgarbage" => collectgarbageFn c
  | "dofile" => dofileFn files c
  | "error" => errorFn c
  | "gcinfo" => return [.float 32.0]
  | "getfenv" => getfenvFn c
  | "getmetatable" => getmetatableFn c
  | "ipairs" => ipairsFn c
  | "ipairs_step" => ipairsStep c
  | "load" => loadFn c
  | "loadfile" => loadfileFn files c
  | "loadstring" => loadstringFn c
  | "newproxy" => newproxyFn c
  | "next" => nextFn c
  | "pairs" => pairsFn c
  | "pcall" => c.error 1 "value expected"
  | "print" => printFn c
  | "rawequal" => rawequalFn c
  | "rawget" => rawgetFn c
  | "rawlen" => rawlenFn c
  | "rawset" => rawsetFn c
  | "select" => selectFn c
  | "setfenv" => return [c.arg 1]
  | "setmetatable" => setmetatableFn c
  | "tonumber" => tonumberFn c
  | "tostring" => tostringFn c
  | "type" => typeFn c
  | "unpack" => unpackFn c
  | "warn" => do
    let _ ← c.checkString 1
    return []
  | "xpcall" => do
    if (← M.generation).since .v53 then
      let _ ← c.checkFunction 2
    else
      let _ ← c.checkAny 2
    return []
  | _ => return []

end LuaHost.Lua.Base
