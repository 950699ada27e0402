import LuaHost.Lua.Errors

set_option autoImplicit false

/-!
# The machine

One step takes the most urgent thing to do and either does it or splits it into smaller ones. Native
functions run to their end within a step; what they call is a nested run on the same thread, so an
error passes through them and a yield does not.
-/

namespace LuaHost.Lua

/-- What a thread does next. -/
inductive Ctl where
  | exec (body : List Stat)
  | eval (e : Expr)
  /-- evaluates the rest of a list; the values so far are held last first -/
  | evalAll (es : List Expr) (done : List Value)
  | values (vs : List Value)
  | apply (f : Value) (args : List Value) (caller : Caller)
  | ret (vs : List Value)
  | breakLoop
  | goto (name : ByteArray)
  /-- an error that no message handler has seen -/
  | raise (v : Value) (status : Status)
  /-- an error on its way to the nearest protected call -/
  | unwind (v : Value) (status : Status)

structure Machine where
  thread : Nat
  activation : Activation
  ctl : Ctl
  konts : List Kont

/-- How a run ended, unless by an error. -/
inductive Outcome where
  | returned (vs : List Value)
  | yielded (vs : List Value) (konts : List Kont)

/-- How a coroutine gave back control. -/
inductive Resumed where
  | finished (vs : List Value)
  | yielded (vs : List Value)
  | failed (v : Value)

/-- What native functions may ask of the machine. -/
structure Services (σ : Type) where
  call : Value → List Value → M σ (List Value)
  /-- a call during which no message handler is in force -/
  callPlain : Value → List Value → M σ (List Value)
  resume : Nat → List Value → M σ Resumed

/-- The meaning of native functions: services, function, upvalues, arguments. -/
abbrev Natives (σ : Type) := Services σ → Native → List Value → List Value → M σ (List Value)

/-- The most native calls that may be in progress at once. -/
def nativeLimit : Nat := 200

/-- The most calls that may be in progress at once. -/
def callLimit (g : Generation) : Nat := if g == .v51 then 20000 else 190000

namespace Caller

def activation : Caller → Activation
  | lua a _ _ _ => a
  | native a => a

def origin? : Caller → Option Origin
  | lua _ _ o _ => o
  | native _ => none

/-- The same call after one more tail call in it. -/
def tailCalled : Caller → Caller
  | lua a line origin tails => lua a line origin (tails + 1)
  | native a => native a

end Caller

namespace Activation

def shrink (a : Activation) (n : Nat) : Activation := { a with locals := a.locals.shrink n }

end Activation

/-- What indexing a value comes to. -/
inductive Access where
  | value (v : Value)
  | call (f : Value) (args : List Value)
  | noIndex (v : Value)
  | loops

/-- What storing into a value comes to. -/
inductive Store where
  | done
  | call (f : Value) (args : List Value)
  | noIndex (v : Value)
  | badKey (message : String)
  | loops

def isFunction : Value → Bool
  | .closure _ => true
  | .native .. => true
  | _ => false

namespace M

variable {σ : Type}

/-- Looks a key up, through metatables whose `__index` is no function. -/
def access : Nat → Value → Value → M σ Access
  | 0, _, _ => return .loops
  | fuel + 1, obj, key => do
    let follow (mm : Value) : M σ Access :=
      if isFunction mm then return .call mm [obj, key] else access fuel mm key
    match obj with
    | .table a =>
      let t ← table a
      match t.getValue key with
      | .nil =>
        match t.metatable with
        | none => return .value .nil
        | some mt =>
          match (← table mt).getString "__index" with
          | .nil => return .value .nil
          | mm => follow mm
      | v => return .value v
    | _ =>
      match ← metamethod obj "__index" with
      | .nil => return .noIndex obj
      | mm => follow mm

def badKey? : Value → Option String
  | .nil => some "table index is nil"
  | .float x => if x.isNaN then some "table index is NaN" else none
  | _ => none

/-- Assigns to an entry without metamethods; the key must be neither nil nor NaN. -/
def rawSet (a : Nat) (key value : Value) : M σ Unit :=
  match h : key.key? with
  | some k => modifyVm fun vm =>
    { vm with
      tables := vm.tables.modify a fun t =>
        t.set k (key.asShown vm.generation) value ((key.key?_asShown vm.generation).trans h)
      breached := vm.breached || (a == vm.registry && k.isInt) }
  | none => return ()

/-- Assigns without metamethods. -/
def storeDirect (a : Nat) (key value : Value) : M σ Store :=
  match badKey? key with
  | some message => return .badKey message
  | none => do
    rawSet a key value
    return .done

/-- Stores at a key, through metatables whose `__newindex` is no function. -/
def store : Nat → Value → Value → Value → M σ Store
  | 0, _, _, _ => return .loops
  | fuel + 1, obj, key, value => do
    let follow (mm : Value) : M σ Store :=
      if isFunction mm then return .call mm [obj, key, value] else store fuel mm key value
    match obj with
    | .table a =>
      let t ← table a
      match t.metatable with
      | none => storeDirect a key value
      | some mt =>
        if (t.getValue key).isNil then
          match (← table mt).getString "__newindex" with
          | .nil => storeDirect a key value
          | mm =>
            if (← generation) == .v51 && (badKey? key).isSome then storeDirect a key value else follow mm
        else storeDirect a key value
    | _ =>
      match ← metamethod obj "__newindex" with
      | .nil => return .noIndex obj
      | mm => follow mm

/-- How many metatables indexing may pass through. -/
def chainLimit (g : Generation) : Nat := if g.since .v53 then 2000 else 100

def chainMessage (g : Generation) (event : String) : String :=
  if g.since .v53 then "'" ++ event ++ "' chain too long; possibly a loop"
  else if event == "__index" then "loop in gettable" else "loop in settable"

/-- The handler of a binary event: the left operand's, else the right operand's. -/
def binaryHandler (event : String) (a b : Value) : M σ Value := do
  match ← metamethod a event with
  | .nil => metamethod b event
  | mm => return mm

/-- The handler of a comparison of two objects. The oldest generations want one type and, the very
oldest, one handler. -/
def orderHandler (event : String) (a b : Value) : M σ Value := do
  let g ← generation
  if g == .v51 then
    if a.tag != b.tag then return .nil
    let mm ← metamethod a event
    let nn ← metamethod b event
    if mm.rawEquals nn then return mm else return .nil
  else binaryHandler event a b

def equalHandler (a b : Value) : M σ Value := do
  let comparable := match a, b with
    | .table _, .table _ => true
    | .userdata _, .userdata _ => true
    | _, _ => false
  if !comparable then return .nil
  let g ← generation
  if g.since .v53 then binaryHandler "__eq" a b
  else
    let mm ← metamethod a "__eq"
    let nn ← metamethod b "__eq"
    if mm.rawEquals nn then return mm else return .nil

end M

def BinaryOp.event : BinaryOp → String
  | .add => "__add" | .sub => "__sub" | .mul => "__mul" | .div => "__div" | .mod => "__mod"
  | .pow => "__pow" | .idiv => "__idiv" | .band => "__band" | .bor => "__bor" | .bxor => "__bxor"
  | .shl => "__shl" | .shr => "__shr" | .concat => "__concat" | .eq => "__eq" | .ne => "__eq"
  | .lt => "__lt" | .le => "__le" | .gt => "__lt" | .ge => "__le"

/-- The expressions inside a target of an assignment. -/
def targetParts : Expr → List Expr
  | .index base key _ => [base, key]
  | .paren e => targetParts e
  | _ => []

def itemParts : Item → List Expr
  | .positional e => [e]
  | .keyed k v => [k, v]

/-- The first `n` values, filled up with nil. -/
def adjust : Nat → List Value → List Value
  | 0, _ => []
  | n + 1, [] => .nil :: adjust n []
  | n + 1, v :: vs => v :: adjust n vs

def first (vs : List Value) : Value := vs.headD .nil

/-- Pairs targets with their parts and values. -/
def targetsOf (g : Generation) : List Expr → List Value → List Target
  | [], _ => []
  | .localVar n _ :: rest, vs => .slot n :: targetsOf g rest vs
  | .upvalue n _ :: rest, vs => .upvalue n :: targetsOf g rest vs
  | .index base _ _ :: rest, b :: k :: vs => .entry b k (base.heldOrigin? g) :: targetsOf g rest vs
  | _ :: rest, vs => targetsOf g rest vs

/-- The positional and the keyed entries of a constructor. -/
def splitItems : List Item → List Value → List Value × List (Value × Value)
  | [], vs => (vs, [])
  | [.positional _], vs => (vs, [])
  | .positional _ :: rest, v :: vs =>
    let (ps, ks) := splitItems rest vs
    (v :: ps, ks)
  | .keyed _ _ :: rest, k :: v :: vs =>
    let (ps, ks) := splitItems rest vs
    (ps, (k, v) :: ks)
  | _ :: rest, vs => splitItems rest vs

/-- The nearest protected call or nested run, with what is below it, and the last activation on the
way. -/
def unwindTo (a : Activation) : List Kont → Activation × Option Kont × List Kont
  | [] => (a, none, [])
  | .protectedCall saved :: rest => (a, some (.protectedCall saved), rest)
  | .nativeStart stack saved :: rest => (a, some (.nativeStart stack saved), rest)
  | .callReturn caller :: rest => unwindTo caller.activation rest
  | _ :: rest => unwindTo a rest

/-- The nearest return to a caller, with what is below it. -/
def returnTo : List Kont → Option (Caller × List Kont)
  | [] => none
  | .callReturn caller :: rest => some (caller, rest)
  | _ :: rest => returnTo rest

/-- The nearest end of a loop, with what is below it. -/
def loopEndTo : List Kont → Option (Nat × List Kont)
  | [] => none
  | .loopEnd n :: rest => some (n, rest)
  | _ :: rest => loopEndTo rest

/-- The statements after a label, and how many locals the block declares before it. -/
def afterLabel? (name : ByteArray) (declared : Nat) : List Stat → Option (List Stat × Nat)
  | [] => none
  | .label s :: rest => if s == name then some (rest, declared) else afterLabel? name declared rest
  | .localDecl n _ _ :: rest => afterLabel? name (declared + n) rest
  | .localFunc _ :: rest => afterLabel? name (declared + 1) rest
  | _ :: rest => afterLabel? name declared rest

/-- The nearest block with a label: its kont, the statements after the label, the locals there, and
what is below. -/
def labelTo (name : ByteArray) : List Kont → Option (Kont × List Stat × Nat × List Kont)
  | [] => none
  | .blockEnd n body :: rest =>
    match afterLabel? name n body with
    | some (after, locals) => some (.blockEnd n body, after, locals, rest)
    | none => labelTo name rest
  | .repeatTest body condition n :: rest =>
    match afterLabel? name n body with
    | some (after, locals) => some (.repeatTest body condition n, after, locals, rest)
    | none => labelTo name rest
  | _ :: rest => labelTo name rest

/-- Whether a native function other than a protected call is in progress in these continuations. -/
def crossesNative (g : Generation) : List Kont → Bool
  | [] => false
  | .nativeStart .. :: _ => true
  | .protectedCall _ :: rest => g == .v51 || crossesNative g rest
  | _ :: rest => crossesNative g rest

/-- How many times a loop over integers runs after its first value. -/
def intSteps (start limit step : Int) : Option Nat :=
  if 0 < step then if limit < start then none else some ((limit - start) / step).toNat
  else if start < limit then none else some ((start - limit) / (-step)).toNat

/-- The limit of an integer loop given as a double: rounded toward the start. -/
def clipLimit (limit : Float) (step : Int) : Option Int :=
  match Double.view limit with
  | .nan => none
  | .infinite neg => if neg then some (-0x8000000000000000) else some (0x8000000000000000 - 1)
  | .finite .. =>
    match Double.toInt? (if 0 < step then Float.floor limit else Float.ceil limit) with
    | some n => some (max (-0x8000000000000000) (min (0x8000000000000000 - 1) n))
    | none => none

namespace Machine

variable {σ : Type}

def go (m : Machine) (ctl : Ctl) (push : List Kont := []) : M σ (Machine ⊕ Outcome) :=
  return .inl { m with ctl, konts := push ++ m.konts }

/-- An error at a line of the current function. -/
def failAt (m : Machine) (line : Nat) (message : ByteArray) : M σ (Machine ⊕ Outcome) := do
  let g ← M.generation
  m.go (.raise (.str (ChunkName.place g m.activation.chunk line ++ message)) .errRun)

def callerAt (m : Machine) (line : Nat) (origin : Option Origin) : Caller :=
  .lua m.activation line origin 0

/-- Calls a metamethod from a line of the current function. -/
def event (m : Machine) (f : Value) (args : List Value) (line : Nat) (name : String)
    (push : List Kont := []) : M σ (Machine ⊕ Outcome) :=
  let origin : Origin := ⟨"metamethod", bytesOf (String.ofList (name.toList.drop 2))⟩
  m.go (.apply f args (m.callerAt line (some origin))) push

def indexWith (m : Machine) (obj key : Value) (line : Nat) (origin : Option Origin)
    (push : List Kont := []) : M σ (Machine ⊕ Outcome) := do
  let g ← M.generation
  match ← M.access (M.chainLimit g) obj key with
  | .value v => m.go (.values [v]) push
  | .call f args => m.event f args line "__index" push
  | .noIndex v =>
    let origin := if v.rawEquals obj then origin else none
    m.failAt line (← M.typeError "index" v origin)
  | .loops => m.failAt line (bytesOf (M.chainMessage g "__index"))

def storeWith (m : Machine) (obj key value : Value) (line : Nat) (origin : Option Origin)
    (push : List Kont) : M σ (Machine ⊕ Outcome) := do
  let g ← M.generation
  match ← M.store (M.chainLimit g) obj key value with
  | .done => m.go (.values []) push
  | .call f args => m.event f args line "__newindex" push
  | .noIndex v =>
    let origin := if v.rawEquals obj then origin else none
    m.failAt line (← M.typeError "index" v origin)
  | .badKey message => m.failAt line (bytesOf message)
  | .loops => m.failAt line (bytesOf (M.chainMessage g "__newindex"))

/-- The complaint about the operands of arithmetic. -/
def arithmeticError (m : Machine) (op : BinaryOp) (a b : Value) (l r : Expr) (line : Nat) :
    M σ (Machine ⊕ Outcome) := do
  let g ← M.generation
  let isStr : Value → Bool := fun v => match v with
    | .str _ => true
    | _ => false
  if op == .concat then
    let joins (v : Value) : Bool := Arith.isNumber v || isStr v
    let (v, e) := if joins a then (b, r) else (a, l)
    m.failAt line (← M.typeError "concatenate" v (e.origin? g))
  else if Arith.isBitwise op then
    let (v, e) := if Arith.isNumber a then (b, r) else (a, l)
    m.failAt line (← M.typeError "perform bitwise operation on" v (e.operandOrigin? g))
  else if g == .v54 && (isStr a || isStr b) && (← M.vm).stringMeta.isSome then
    m.failAt line (← M.typeError "perform arithmetic on" a none)
  else
    let fine := if g == .v54 then Arith.isNumber a else (Arith.toNumber? g a).isSome
    let (v, e) := if fine then (b, r) else (a, l)
    m.failAt line (← M.typeError "perform arithmetic on" v (e.operandOrigin? g))

/-- The complaint about the operand that is a number but no integer. -/
def noIntegerError (m : Machine) (a : Value) (l r : Expr) (line : Nat) : M σ (Machine ⊕ Outcome) := do
  let g ← M.generation
  let e := if (Arith.toInt? g a).isSome then r else l
  let place := match e.operandOrigin? g with
    | some o => bytesOf (" (" ++ o.kind ++ " '") ++ o.name ++ bytesOf "')"
    | none => .empty
  m.failAt line (bytesOf "number" ++ place ++ bytesOf " has no integer representation")

def compareError (m : Machine) (a b : Value) (line : Nat) : M σ (Machine ⊕ Outcome) := do
  m.failAt line (← M.orderError a b)

def compareWith (m : Machine) (orEqual : Bool) (a b : Value) (line : Nat) :
    M σ (Machine ⊕ Outcome) := do
  match Arith.less? orEqual a b with
  | some r => m.go (.values [.bool r])
  | none =>
    let g ← M.generation
    let name := if orEqual then "__le" else "__lt"
    match ← M.orderHandler name a b with
    | .nil =>
      if orEqual && g != .v54 then
        match ← M.orderHandler "__lt" b a with
        | .nil => m.compareError a b line
        | mm => m.event mm [b, a] line "__lt" [.truth true]
      else m.compareError a b line
    | mm => m.event mm [a, b] line name [.truth false]

def equalWith (m : Machine) (negate : Bool) (a b : Value) (line : Nat) : M σ (Machine ⊕ Outcome) := do
  if a.rawEquals b then m.go (.values [.bool (!negate)])
  else
    match ← M.equalHandler a b with
    | .nil => m.go (.values [.bool negate])
    | mm => m.event mm [a, b] line "__eq" [.truth negate]

def binaryWith (m : Machine) (op : BinaryOp) (a b : Value) (l r : Expr) (line : Nat) :
    M σ (Machine ⊕ Outcome) := do
  let g ← M.generation
  let handled : M σ (Machine ⊕ Outcome) := do
    match ← M.binaryHandler op.event a b with
    | .nil => m.arithmeticError op a b l r line
    | mm => m.event mm [a, b] line op.event
  match op with
  | .eq => m.equalWith false a b line
  | .ne => m.equalWith true a b line
  | .lt => m.compareWith false a b line
  | .le => m.compareWith true a b line
  | .gt => m.compareWith false b a line
  | .ge => m.compareWith true b a line
  | .concat =>
    match Arith.text? g a, Arith.text? g b with
    | some s, some t => m.go (.values [.str (s ++ t)])
    | _, _ => handled
  | _ =>
    let isStr : Value → Bool := fun v => match v with
      | .str _ => true
      | _ => false
    if g == .v54 && (isStr a || isStr b) && (← M.vm).stringMeta.isNone then handled
    else
      match Arith.binary g op a b with
      | .value v => m.go (.values [v])
      | .bad message => m.failAt line (bytesOf message)
      | .noInteger =>
        match ← M.binaryHandler op.event a b with
        | .nil => m.noIntegerError a l r line
        | mm => m.event mm [a, b] line op.event
      | .other => handled

def unaryWith (m : Machine) (op : UnaryOp) (a : Value) (e : Expr) (line : Nat) :
    M σ (Machine ⊕ Outcome) := do
  let g ← M.generation
  match op with
  | .not => m.go (.values [.bool (!a.truthy)])
  | .neg =>
    match Arith.negate g a with
    | some v => m.go (.values [v])
    | none =>
      match ← M.metamethod a "__unm" with
      | .nil =>
        match g, a with
        | .v54, .str _ =>
          let origin := if (← M.vm).stringMeta.isSome then none else e.heldOrigin? g
          m.failAt line (← M.typeError "perform arithmetic on" a origin)
        | _, _ => m.failAt line (← M.typeError "perform arithmetic on" a (e.heldOrigin? g))
      | mm => m.event mm [a, a] line "__unm"
  | .bnot =>
    match Arith.toInt? g a with
    | some n => m.go (.values [.int (~~~n)])
    | none =>
      match ← M.metamethod a "__bnot" with
      | .nil =>
        if Arith.isNumber a then m.noIntegerError a e e line
        else m.failAt line (← M.typeError "perform bitwise operation on" a (e.heldOrigin? g))
      | mm => m.event mm [a, a] line "__bnot"
  | .len =>
    match a with
    | .str s => m.go (.values [Value.ofNat g s.size])
    | .table t =>
      let handler ← if g == .v51 then pure Value.nil else M.metamethod a "__len"
      match handler with
      | .nil => m.go (.values [Value.ofNat g (← M.table t).length])
      | mm => m.event mm [a] line "__len"
    | _ =>
      match ← M.metamethod a "__len" with
      | .nil => m.failAt line (← M.typeError "get length of" a (e.origin? g))
      | mm => m.event mm [a] line "__len"

/-- A new cell for each value, as further locals. -/
def bind (a : Activation) : List Value → M σ Activation
  | [] => return a
  | v :: vs => do
    let c ← M.newCell v
    bind { a with locals := a.locals.push c } vs

def capture (a : Activation) : Capture → Nat
  | .fromLocal n => a.locals.getD n 0
  | .fromUpvalue n => a.cells.getD n 0

def makeClosure (a : Activation) (f : Func) : M σ Value :=
  M.newClosure (.lua f (f.captures.map (capture a)).toArray a.chunk)

/-- Evaluation of one expression. -/
def stepEval (m : Machine) (e : Expr) : M σ (Machine ⊕ Outcome) := do
  match e with
  | .nil => m.go (.values [.nil])
  | .bool b => m.go (.values [.bool b])
  | .int n => m.go (.values [.int n])
  | .float x => m.go (.values [.float x])
  | .str s => m.go (.values [.str s])
  | .vararg => m.go (.values m.activation.varargs)
  | .localVar n _ => m.go (.values [← M.cell (m.activation.locals.getD n 0)])
  | .upvalue n _ => m.go (.values [← M.cell (m.activation.cells.getD n 0)])
  | .index base key line => m.go (.eval base) [.indexKey base key line]
  | .call fn args line => m.go (.eval fn) [.callee fn args line false]
  | .method object name args line => m.go (.eval object) [.receiver object name args line false]
  | .function f => m.go (.values [← makeClosure m.activation f])
  | .binary op l r line => m.go (.eval l) [.binaryRight op l r line]
  | .unary op e line => m.go (.eval e) [.unaryApply op e line]
  | .and l r => m.go (.eval l) [.andRight r]
  | .or l r => m.go (.eval l) [.orRight r]
  | .paren e => m.go (.eval e)
  | .table items line => m.go (.evalAll (items.flatMap itemParts) []) [.tableBuild items line]

def stepEvalAll (m : Machine) (es : List Expr) (done : List Value) : M σ (Machine ⊕ Outcome) :=
  match es with
  | [] => m.go (.values done.reverse)
  | [e] => m.go (.eval e) [.evalLast done e.isMulti]
  | e :: rest => m.go (.eval e) [.evalRest done rest]

/-- The next value of a numeric loop, or its end. -/
def againInt (m : Machine) (value step : Int) (left : Nat) (body : List Stat) :
    M σ (Machine ⊕ Outcome) := do
  let g ← M.generation
  let n := m.activation.locals.size
  let a ← bind m.activation [Value.ofInt g value]
  let m := { m with activation := a }
  let again : Kont := .numericInt (value + step) step left body
  m.go (.exec body) [.blockEnd n body, again]

def againFloat (m : Machine) (value limit step : Float) (body : List Stat) :
    M σ (Machine ⊕ Outcome) := do
  let goesOn := if 0.0 < step then value ≤ limit else limit ≤ value
  if goesOn then
    let n := m.activation.locals.size
    let a ← bind m.activation [.float value]
    let m := { m with activation := a }
    m.go (.exec body) [.blockEnd n body, .numericFloat (value + step) limit step body]
  else m.go (.exec [])

/-- Continues after a statement or block. -/
def stepNext (m : Machine) : M σ (Machine ⊕ Outcome) := do
  match m.konts with
  | [] => return .inr (.returned [])
  | k :: konts =>
    let m := { m with konts }
    match k with
    | .statements rest => m.go (.exec rest)
    | .blockEnd n _ => ({ m with activation := m.activation.shrink n } : Machine).go (.exec [])
    | .loopEnd n => ({ m with activation := m.activation.shrink n } : Machine).go (.exec [])
    | .whileAgain c body => m.go (.eval c) [.whileTest c body]
    | .repeatTest body c n => m.go (.eval c) [.repeatEnd body c n]
    | .numericInt value step left body =>
      match left with
      | 0 => m.go (.exec [])
      | left + 1 => m.againInt value step left body
    | .numericFloat value limit step body => m.againFloat value limit step body
    | .genericAgain step state control count body line =>
      let g ← M.generation
      let name := if g == .v51 then "(for generator)" else "for iterator"
      m.go (.apply step [state, control] (m.callerAt line (some ⟨"for iterator", bytesOf name⟩)))
        [.genericStep step state count body line]
    | .callReturn caller =>
      ({ m with activation := caller.activation } : Machine).go (.values [])
    | .nativeStart .. => return .inr (.returned [])
    | _ => m.go (.values []) [k]

def stepStat (m : Machine) (s : Stat) : M σ (Machine ⊕ Outcome) := do
  let n := m.activation.locals.size
  match s with
  | .localDecl count values _ => m.go (.evalAll values []) [.bindLocals count]
  | .localFunc f => do
    let a ← bind m.activation [.nil]
    let v ← makeClosure a f
    M.setCell (a.locals.getD n 0) v
    ({ m with activation := a } : Machine).go (.exec [])
  | .assign targets values line =>
    m.go (.evalAll (targets.flatMap targetParts ++ values) []) [.assignBuild targets values.length line]
  | .expr call => m.go (.eval call) [.discard]
  | .block body => m.go (.exec body) [.blockEnd n body]
  | .whileLoop c body => m.go (.eval c) [.whileTest c body, .loopEnd n]
  | .repeatLoop body c => m.go (.exec body) [.repeatTest body c n, .loopEnd n]
  | .ifThen c yes no => m.go (.eval c) [.branch yes no]
  | .numericFor a b c body line => m.go (.evalAll [a, b, c] []) [.numericStart body line, .loopEnd n]
  | .genericFor count values body line =>
    m.go (.evalAll values []) [.genericStart count body line, .loopEnd n]
  | .ret values _ =>
    match values with
    | [.call fn args line] => m.go (.eval fn) [.callee fn args line true]
    | [.method object name args line] => m.go (.eval object) [.receiver object name args line true]
    | _ => m.go (.evalAll values []) [.returnAll]
  | .breakLoop => m.go .breakLoop
  | .goto name => m.go (.goto name)
  | .label _ => m.go (.exec [])

/-- Stores the pending assignments, one at a time. -/
def stepStores (m : Machine) (pending : List (Target × Value)) (line : Nat) :
    M σ (Machine ⊕ Outcome) := do
  match pending with
  | [] => m.go (.exec [])
  | (target, v) :: rest =>
    match target with
    | .slot n => do
      M.setCell (m.activation.locals.getD n 0) v
      m.go (.values []) [.stores rest line]
    | .upvalue n => do
      M.setCell (m.activation.cells.getD n 0) v
      m.go (.values []) [.stores rest line]
    | .entry base key origin => m.storeWith base key v line origin [.stores rest line]

def storeKeyed (a : Nat) (positional : Nat) : List (Value × Value) → M σ (Option String)
  | [] => return none
  | (k, v) :: rest => do
    match M.badKey? k with
    | some message => return some message
    | none =>
      let covered := match k.key? with
        | some (.int n) => decide (1 ≤ n.toInt ∧ n.toInt ≤ (positional : Int))
        | _ => false
      if !covered then M.rawSet a k v
      storeKeyed a positional rest

def storePositional (g : Generation) (n : Nat) : List Value → List Entry
  | [] => []
  | v :: rest =>
    if v.isNil then storePositional g (n + 1) rest
    else match h : (Value.ofNat g n).key? with
      | some k => ⟨k, Value.ofNat g n, v, h⟩ :: storePositional g (n + 1) rest
      | none => storePositional g (n + 1) rest

/-- The setting up of a numeric loop from its three values. -/
def stepNumericStart (m : Machine) (vs : List Value) (body : List Stat) (line : Nat) :
    M σ (Machine ⊕ Outcome) := do
  let g ← M.generation
  match adjust 3 vs with
  | [start, limit, step] =>
    let number (v : Value) : Option Value :=
      if g.since .v54 then (if Arith.isNumber v then some v else none) else Arith.toNumber? g v
    let bad (v : Value) (what : String) : M σ (Machine ⊕ Outcome) := do
      if g == .v54 then
        let name ← M.typeNameOf v
        m.failAt line (bytesOf ("bad 'for' " ++ what ++ " (number expected, got ") ++ name ++ bytesOf ")")
      else m.failAt line (bytesOf ("'for' " ++ what ++ " must be a number"))
    let checkStart : M σ (Option Value) := return number start
    match ← checkStart, number limit, number step with
    | some (.int a), some lv, some (.int c) =>
      if g.hasIntegers then
        if c == 0 then m.failAt line (bytesOf "'for' step is zero")
        else
          let limit? := match lv with
            | .int b => some b.toInt
            | .float b => clipLimit b c.toInt
            | _ => none
          match limit? with
          | some b =>
            match intSteps a.toInt b c.toInt with
            | some left => m.againInt a.toInt c.toInt left body
            | none => m.go (.exec [])
          | none => m.go (.exec [])
      else m.go (.exec [])
    | some a, some b, some c =>
      let asFloat (v : Value) : Float := (Arith.toFloat? g v).getD 0.0
      let c := asFloat c
      if c == 0.0 && g == .v54 then m.failAt line (bytesOf "'for' step is zero")
      else m.againFloat (asFloat a) (asFloat b) c body
    | a?, b?, c? =>
      let faults : List (Value × String × Bool) :=
        if g == .v54 then
          [(limit, "limit", b?.isNone), (step, "step", c?.isNone), (start, "initial value", a?.isNone)]
        else
          [(start, "initial value", a?.isNone), (limit, "limit", b?.isNone), (step, "step", c?.isNone)]
      match faults.find? (·.2.2) with
      | some (v, what, _) => bad v what
      | none => m.go (.exec [])
  | _ => m.go (.exec [])

def isLuaClosure (f : Value) : M σ Bool := do
  match f with
  | .closure a =>
    match ← M.closure a with
    | .lua .. => return true
    | .native .. => return false
  | _ => return false

/-- Delivers values to the most urgent continuation. -/
def stepValues (m : Machine) (vs : List Value) : M σ (Machine ⊕ Outcome) := do
  match m.konts with
  | [] => return .inr (.returned vs)
  | k :: konts =>
    let m := { m with konts }
    let v := first vs
    match k with
    | .discard => m.go (.exec [])
    | .bindLocals count => do
      let a ← bind m.activation (adjust count vs)
      ({ m with activation := a } : Machine).go (.exec [])
    | .evalRest done rest => m.go (.evalAll rest (v :: done))
    | .evalLast done isMulti => m.go (.values (done.reverse ++ (if isMulti then vs else [v])))
    | .binaryRight op l r line => m.go (.eval r) [.binaryApply op v l r line]
    | .binaryApply op left l r line => m.binaryWith op left v l r line
    | .unaryApply op e line => m.unaryWith op v e line
    | .andRight r => if v.truthy then m.go (.eval r) else m.go (.values [v])
    | .orRight r => if v.truthy then m.go (.values [v]) else m.go (.eval r)
    | .indexKey base key line => m.go (.eval key) [.indexApply v base key line]
    | .indexApply obj base _ line => m.indexWith obj v line (base.heldOrigin? (← M.generation))
    | .callee fn args line isTail =>
      m.go (.evalAll args []) [.arguments v [] line (fn.heldOrigin? (← M.generation)) isTail]
    | .receiver object name args line isTail =>
      m.indexWith v (.str name) line (object.heldOrigin? (← M.generation))
        [.methodFound v name args line isTail]
    | .methodFound self name args line isTail =>
      m.go (.evalAll args []) [.arguments v [self] line (some ⟨"method", name⟩) isTail]
    | .arguments f self line origin isTail =>
      let args := self ++ vs
      if isTail then
        if ← isLuaClosure f then
          match returnTo m.konts with
          | some (caller, konts) => ({ m with konts } : Machine).go (.apply f args caller.tailCalled)
          | none => m.go (.apply f args (m.callerAt line origin)) [.returnAll]
        else m.go (.apply f args (m.callerAt line origin)) [.returnAll]
      else m.go (.apply f args (m.callerAt line origin))
    | .tableBuild items line => do
      let g ← M.generation
      let (positional, keyed) := splitItems items vs
      let a ← M.newTable ⟨storePositional g 1 positional, none, positional.length⟩
      match ← storeKeyed a positional.length keyed with
      | none => m.go (.values [.table a])
      | some message => m.failAt line (bytesOf message)
    | .assignBuild targets count line => do
      let g ← M.generation
      let parts := (targets.flatMap targetParts).length
      let values := if vs.length ≤ parts + count - 1 then vs.drop parts else vs.drop parts
      let places := targetsOf g targets (vs.take parts)
      m.stepStores ((places.zip (adjust targets.length values)).reverse) line
    | .stores pending line => m.stepStores pending line
    | .branch yes no =>
      let body := if v.truthy then yes else no
      m.go (.exec body) [.blockEnd m.activation.locals.size body]
    | .whileTest c body =>
      if v.truthy then
        m.go (.exec body) [.blockEnd m.activation.locals.size body, .whileAgain c body]
      else m.go (.exec [])
    | .repeatEnd body c n =>
      let m := { m with activation := m.activation.shrink n }
      if v.truthy then m.go (.exec []) else m.go (.exec body) [.repeatTest body c n]
    | .numericStart body line => m.stepNumericStart vs body line
    | .genericStart count body line =>
      match adjust 3 vs with
      | [f, s, c] => m.go (.exec []) [.genericAgain f s c count body line]
      | _ => m.go (.exec [])
    | .genericStep f s count body line =>
      if v.isNil then m.go (.exec [])
      else
        let n := m.activation.locals.size
        let a ← bind m.activation (adjust count vs)
        ({ m with activation := a } : Machine).go (.exec body)
          [.blockEnd n body, .genericAgain f s v count body line]
    | .returnAll => m.go (.ret vs)
    | .truth negate => m.go (.values [.bool (v.truthy != negate)])
    | .callReturn caller => ({ m with activation := caller.activation } : Machine).go (.values vs)
    | .protectedCall saved => do
      M.modifyThread m.thread fun t => { t with handler := saved }
      m.go (.values (.bool true :: vs))
    | .handling => m.go (.unwind v .errRun)
    | .nativeStart .. => return .inr (.returned vs)
    | _ => m.go (.exec []) [k]

/-- Whether a call comes from the machine itself, which is like a call from a native function. -/
def isEvent (caller : Caller) : Bool :=
  match caller.origin? with
  | some o => o.kind == "metamethod" || o.kind == "for iterator"
  | none => false

/-- Enters a function of a chunk. -/
def enterLua (m : Machine) (f : Func) (cells : Array Nat) (chunk : ByteArray) (args : List Value)
    (caller : Caller) : M σ (Machine ⊕ Outcome) := do
  let g ← M.generation
  let outer := caller.activation
  let natives := if isEvent caller then outer.natives + 1 else outer.natives
  if callLimit g ≤ outer.depth then
    m.go (.raise (.str (caller.place g ++ bytesOf "stack overflow")) .errRun)
  else if nativeLimit ≤ natives && outer.natives < natives then
    m.go (.raise (.str (caller.place g ++ bytesOf "C stack overflow")) .errRun)
  else
    let fresh : Activation :=
      { cells, locals := #[], varargs := if f.isVararg then args.drop f.params else [], chunk
        depth := outer.depth + 1, natives }
    let a ← bind fresh (adjust f.params args)
    let m := { m with activation := a }
    m.go (.exec f.body) [.blockEnd a.locals.size f.body, .callReturn caller]

def deliver (m : Machine) (konts : List Kont) (vs : List Value) : Machine ⊕ Outcome :=
  .inl { m with ctl := .values vs, konts }

def diverted (m : Machine) (konts : List Kont) (ctl : Ctl) : Machine ⊕ Outcome :=
  .inl { m with ctl, konts }

/-- Runs a native function to its end and delivers its results. -/
def runNative (natives : Natives σ) (services : Services σ) (m : Machine) (f : Native)
    (upvalues args : List Value) (caller : Caller) : M σ (Machine ⊕ Outcome) := do
  let konts := Kont.callReturn caller :: m.konts
  let inside := Activation.outside (caller.activation.natives + 1)
  let m := { m with activation := { inside with depth := caller.activation.depth } }
  let before ← M.vm
  let { stack, room, .. } := before.threads.get m.thread
  M.modifyVm fun vm =>
    { vm with
      natives := inside.natives
      threads := vm.threads.modify m.thread fun t =>
        { t with konts, stack := args.toArray, room := .ofArguments args.length } }
  let natives₀ := before.natives
  let restore : M σ Unit := M.modifyVm fun vm =>
    { vm with
      natives := natives₀
      threads := vm.threads.modify m.thread fun t => { t with stack, room } }
  fun s =>
    match (if nativeLimit < inside.natives then M.fail "C stack overflow"
      else natives services f upvalues args) s with
    | .ok vs s => (do
        restore
        return m.deliver konts vs) s
    | .error (.error status v) s => (do
        restore
        return m.diverted konts (.raise v status)) s
    | .error (.unwinding status v) s => (do
        restore
        return m.diverted konts (.unwind v status)) s
    | .error (.fault e) s => .error (.fault e) s

/-- Native functions whose effect is on the continuations themselves. -/
def applyNative (natives : Natives σ) (services : Services σ) (m : Machine) (f : Native)
    (upvalues args : List Value) (caller : Caller) : M σ (Machine ⊕ Outcome) := do
  let g ← M.generation
  let inside (handler saved : Option Value) (target : Value) (rest : List Value) :
      M σ (Machine ⊕ Outcome) := do
    let outer := caller.activation
    if nativeLimit ≤ outer.natives then
      m.go (.raise (.str (caller.place g ++ bytesOf "C stack overflow")) .errRun)
    else
      M.modifyThread m.thread fun t => { t with handler }
      let base : Activation := { Activation.outside (outer.natives + 1) with depth := outer.depth }
      m.go (.apply target rest (.native base)) [.protectedCall saved, .callReturn caller]
  let saved := (← M.thread m.thread).handler
  match f, args with
  | .library .base "pcall", target :: rest => inside none saved target rest
  | .library .base "xpcall", target :: handler :: rest =>
    if g.since .v54 && !isFunction handler then runNative natives services m f upvalues args caller
    else inside (some handler) saved target (if g == .v51 then [] else rest)
  | .library .coroutine "yield", _ =>
    if m.thread == 0 then
      let message := if g == .v51 then "attempt to yield across metamethod/C-call boundary"
        else "attempt to yield from outside a coroutine"
      m.go (.raise (Value.ofString message) .errRun) [.callReturn caller]
    else if crossesNative g m.konts then
      let message := if g == .v51 then "attempt to yield across metamethod/C-call boundary"
        else "attempt to yield across a C-call boundary"
      m.go (.raise (Value.ofString message) .errRun) [.callReturn caller]
    else return .inr (.yielded args (.callReturn caller :: m.konts))
  | _, _ => runNative natives services m f upvalues args caller

def stepApply (natives : Natives σ) (services : Services σ) (m : Machine) (f : Value)
    (args : List Value) (caller : Caller) : M σ (Machine ⊕ Outcome) := do
  match f with
  | .closure a =>
    match ← M.closure a with
    | .lua fn cells chunk => m.enterLua fn cells chunk args caller
    | .native fn upvalues => m.applyNative natives services fn upvalues args caller
  | .native fn _ => m.applyNative natives services fn [] args caller
  | _ =>
    let g ← M.generation
    let mm ← M.metamethod f "__call"
    if if g == .v54 then mm.isNil else !isFunction mm then
      let origin := if isEvent caller && g != .v54 then none else caller.origin?
      let message ← M.typeError "call" f origin
      m.go (.raise (.str (caller.place g ++ message)) .errRun)
    else m.go (.apply mm (f :: args) caller)

/-- Hands an error to the message handler, if there is one. -/
def stepRaise (m : Machine) (v : Value) (status : Status) : M σ (Machine ⊕ Outcome) := do
  match (← M.thread m.thread).handler with
  | none => m.go (.unwind v status)
  | some h =>
    if status != .errRun then m.go (.unwind v status)
    else
      let natives := m.activation.natives + 1
      if nativeLimit < natives then
        m.go (.unwind (Value.ofString "error in error handling") .errErr)
      else
        let base : Activation := { Activation.outside natives with depth := m.activation.depth }
        let m := { m with activation := base }
        m.go (.apply h [v] (.native base)) [.handling]

def stepUnwind (m : Machine) (v : Value) (status : Status) : M σ (Machine ⊕ Outcome) := do
  match unwindTo m.activation m.konts with
  | (a, some (.protectedCall saved), konts) =>
    M.modifyThread m.thread fun t => { t with handler := saved }
    return .inl { m with activation := a, ctl := .values [.bool false, v], konts }
  | _ => throw (.unwinding status v)

def step (natives : Natives σ) (services : Services σ) (m : Machine) : M σ (Machine ⊕ Outcome) := do
  match m.ctl with
  | .exec [] => m.stepNext
  | .exec [s] => m.stepStat s
  | .exec (s :: rest) => ({ m with konts := .statements rest :: m.konts } : Machine).stepStat s
  | .eval e => m.stepEval e
  | .evalAll es done => m.stepEvalAll es done
  | .values vs => m.stepValues vs
  | .apply f args caller => m.stepApply natives services f args caller
  | .ret vs =>
    match returnTo m.konts with
    | some (caller, konts) =>
      return .inl { m with activation := caller.activation, ctl := .values vs, konts }
    | none => return .inr (.returned vs)
  | .breakLoop =>
    match loopEndTo m.konts with
    | some (n, konts) =>
      return .inl { m with activation := m.activation.shrink n, ctl := .exec [], konts }
    | none => m.go (.exec [])
  | .goto name =>
    match labelTo name m.konts with
    | some (k, after, locals, konts) =>
      return .inl
        { m with activation := m.activation.shrink locals, ctl := .exec after, konts := k :: konts }
    | none => m.go (.exec [])
  | .raise v status => m.stepRaise v status
  | .unwind v status => m.stepUnwind v status

/-- A call from a native function on the running thread, in a run of its own. An error passes
through, and the thread is left as it was. -/
def nested (run : Machine → M σ Outcome) (handler : Option (Option Value)) (f : Value)
    (args : List Value) : M σ (List Value) := do
  let t := (← M.vm).running
  let before ← M.thread t
  let natives := (← M.vm).natives + 1
  let base := Activation.outside natives
  let konts := Kont.nativeStart before.stack before.handler :: before.konts
  M.modifyVm fun vm =>
    { vm with
      natives
      threads := vm.threads.modify t fun th =>
        { th with konts, stack := #[], handler := handler.getD before.handler } }
  let restore : M σ Unit := M.modifyVm fun vm =>
    { vm with
      running := t
      natives := natives - 1
      threads := vm.threads.modify t fun th =>
        { th with konts := before.konts, stack := before.stack, room := before.room, handler := before.handler } }
  fun s =>
    match (if nativeLimit + 20 < natives then
        throw (.unwinding .errErr (Value.ofString "error in error handling"))
      else run ⟨t, base, .apply f args (.native base), konts⟩) s with
    | .ok outcome s =>
      match restore s with
      | .ok _ s =>
        match outcome with
        | .returned vs => .ok vs s
        | .yielded vs _ => .ok vs s
      | .error e s => .error e s
    | .error e s =>
      match restore s with
      | .ok _ s => .error e s
      | .error e s => .error e s

/-- Runs a suspended or fresh coroutine until it gives back control. -/
def resumeThread (run : Machine → M σ Outcome) (co : Nat) (args : List Value) : M σ Resumed := do
  let vm ← M.vm
  let outer := vm.running
  let th := vm.threads.get co
  let base := Activation.outside (vm.natives + 1)
  let setStatus (t : Nat) (status : ThreadStatus) : M σ Unit :=
    M.modifyThread t fun th => { th with status }
  setStatus outer .normal
  setStatus co .running
  M.modifyThread co fun th => { th with stack := #[] }
  M.modifyVm fun vm => { vm with running := co }
  let back : M σ Unit := do
    M.modifyVm fun vm => { vm with running := outer }
    setStatus outer .running
  let m : Machine :=
    if th.status == .fresh then
      ⟨co, base, .apply (th.stack.getD 0 .nil) args (.native base), []⟩
    else ⟨co, base, .values args, th.konts⟩
  fun s =>
    match run m s with
    | .ok (.returned vs) s => (do
        back
        M.modifyThread co fun th => { th with status := .dead, konts := [] }
        return Resumed.finished vs) s
    | .ok (.yielded vs konts) s => (do
        back
        M.modifyThread co fun th => { th with status := .suspended, konts }
        return Resumed.yielded vs) s
    | .error (.error _ v) s => (do
        back
        M.modifyThread co fun th => { th with status := .dead, konts := [] }
        return Resumed.failed v) s
    | .error (.unwinding _ v) s => (do
        back
        M.modifyThread co fun th => { th with status := .dead, konts := [] }
        return Resumed.failed v) s
    | .error (.fault f) s => .error (.fault f) s

/-- The services of a machine that runs in the given way. -/
def services (run : Machine → M σ Outcome) : Services σ where
  call := nested run none
  callPlain := nested run (some none)
  resume := resumeThread run

/-- Runs a machine for at most the given number of steps. -/
def run (natives : Natives σ) : Nat → Machine → M σ Outcome
  | 0, _ => throw (.fault .outOfFuel)
  | fuel + 1, m => do
    match ← step natives (services (run natives fuel)) m with
    | .inl m => run natives fuel m
    | .inr outcome => return outcome

end Machine
end LuaHost.Lua
