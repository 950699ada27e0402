import LuaHost.Lua.Token
import LuaHost.Lua.Tree
import LuaHost.Lua.ChunkName

set_option autoImplicit false

/-!
# From tokens to syntax trees

A recursive descent over the tokens of a chunk. It resolves variables, checks what a generation
checks before running anything, and words its complaints as that generation does. Recursion is on a
count of steps that the number of tokens bounds.
-/

namespace LuaHost.Lua.Tree

/-- Why a chunk was refused. -/
structure Fault where
  line : Nat
  message : ByteArray
  /-- how the message names the token it stopped at -/
  near : Option ByteArray
  /-- the reader nested too deeply, which some generations treat as a run-time error -/
  overflow : Bool

inductive Attribute where
  | regular
  | constant
deriving DecidableEq

/-- A label or a jump to one. -/
structure Waypoint where
  name : ByteArray
  line : Nat
  /-- how many locals are in scope there -/
  locals : Nat

/-- A block whose text is being read. -/
structure Block where
  isLoop : Bool
  /-- how many locals were in scope before it -/
  outerLocals : Nat
  labels : List Waypoint
  /-- the jumps to labels that are not yet known, the first jump first -/
  pending : List Waypoint

/-- A function whose text is being read. -/
structure Scope where
  /-- the locals in scope, the latest first -/
  locals : List (ByteArray × Attribute)
  captures : Array (ByteArray × Capture)
  isVararg : Bool
  line : Nat
  /-- the blocks around this place, the innermost first -/
  blocks : List Block

structure State where
  tokens : List Lexeme
  /-- the line of the last token read -/
  lastLine : Nat
  /-- the functions around this place, the innermost first -/
  scopes : List Scope
  depth : Nat

abbrev Read := ReaderT Generation (StateT State (Except Fault))

def concatBytes (parts : List ByteArray) : ByteArray := parts.foldl (· ++ ·) .empty

def current : Read Lexeme := do
  match (← get).tokens with
  | t :: _ => return t
  | [] => return ⟨.eof, 0, .empty⟩

def token : Read Token := return (← current).token

def line : Read Nat := return (← current).line

def lastLine : Read Nat := return (← get).lastLine

/-- The bytes by which a message names a token. -/
def tokenText (g : Generation) (t : Lexeme) : ByteArray :=
  let quote (b : ByteArray) : ByteArray := "'".toUTF8 ++ b ++ "'".toUTF8
  match t.token with
  | .eof => if g == .v51 then "'<eof>'".toUTF8 else "<eof>".toUTF8
  | .fixed s => quote s.toUTF8
  | .byte b =>
    let printable := 32 ≤ b && b < 127
    let number := toString b.toNat
    match g with
    | .v51 => quote (if b < 32 || b == 127 then ("char(" ++ number ++ ")").toUTF8 else ⟨#[b]⟩)
    | .v52 => if printable then quote ⟨#[b]⟩ else ("char(" ++ number ++ ")").toUTF8
    | _ => quote (if printable then ⟨#[b]⟩ else ("<\\" ++ number ++ ">").toUTF8)
  | _ => quote t.text

def failAt {α : Type} (message : ByteArray) (near : Option ByteArray) : Read α := do
  throw ⟨← line, message, near, false⟩

/-- An error that names the current token. -/
def fail {α : Type} (message : String) : Read α := do
  failAt message.toUTF8 (some (tokenText (← read) (← current)))

/-- A token's name in a complaint that it is missing. -/
def expectedName (g : Generation) (s : String) : String :=
  if s.startsWith "<" && g != .v51 && (s == "<eof>" || s == "<name>") then s else "'" ++ s ++ "'"

def failExpected {α : Type} (s : String) : Read α := do
  fail (expectedName (← read) s ++ " expected")

/-- The scanner's fault, if the current token is one. -/
def checkFault : Read Unit := do
  match (← current).token with
  | .fault message near =>
    let g ← read
    let shown (b : ByteArray) : ByteArray :=
      if b == "<eof>".toUTF8 && g != .v51 then b else "'".toUTF8 ++ b ++ "'".toUTF8
    failAt message.toUTF8 (near.map shown)
  | _ => return ()

def advance : Read Unit := do
  modify fun s => match s.tokens with
    | t :: rest => { s with tokens := rest, lastLine := t.line }
    | [] => s
  checkFault

def isFixed (s : String) : Read Bool := do
  match ← token with
  | .fixed t => return t == s
  | _ => return false

def accept (s : String) : Read Bool := do
  if ← isFixed s then
    advance
    return true
  else return false

def expect (s : String) : Read Unit := do
  unless ← accept s do failExpected s

/-- The closing word of a construct that `opening` started on the given line. -/
def expectMatch (closing opening : String) (start : Nat) : Read Unit := do
  unless ← accept closing do
    if start == (← line) then failExpected closing
    else
      let g ← read
      fail (expectedName g closing ++ " expected (to close " ++ expectedName g opening
        ++ " at line " ++ toString start ++ ")")

def expectName : Read ByteArray := do
  match ← token with
  | .name s =>
    advance
    return s
  | _ => failExpected "<name>"

/-- One level deeper into nested constructs, which a generation limits. -/
def enter : Read Unit := do
  modify fun s => { s with depth := s.depth + 1 }
  let depth := (← get).depth
  match ← read with
  | .v51 => if 200 < depth then failAt "chunk has too many syntax levels".toUTF8 none
  | .v54 => if 200 ≤ depth then throw ⟨← line, "C stack overflow".toUTF8, none, true⟩
  | _ =>
    if 200 < depth then
      let start := ((← get).scopes.head?.map (·.line)).getD 0
      let place := if start == 0 then "main function" else "function at line " ++ toString start
      fail ("too many C levels (limit is 200) in " ++ place)

def leave : Read Unit := modify fun s => { s with depth := s.depth - 1 }

def withScope {α : Type} (default : α) (f : Scope → α) : Read α := do
  match (← get).scopes with
  | s :: _ => return f s
  | [] => return default

def modifyScope (f : Scope → Scope) : Read Unit :=
  modify fun s => match s.scopes with
    | top :: rest => { s with scopes := f top :: rest }
    | [] => s

def localCount : Read Nat := withScope 0 (·.locals.length)

/-- The name under which a break is a jump. -/
def breakName : ByteArray := "break".toUTF8

def enterBlock (isLoop : Bool) : Read Unit :=
  modifyScope fun s => { s with blocks := ⟨isLoop, s.locals.length, [], []⟩ :: s.blocks }

/-- Out of the innermost block: its locals are gone, a loop ends its breaks, and the other jumps that
still look for a label go on in the block around it. -/
def leaveBlock : Read Unit :=
  modifyScope fun s => match s.blocks with
    | b :: outer :: rest =>
      let isOpen (j : Waypoint) : Bool :=
        !(b.isLoop && j.name == breakName) && !outer.labels.any (·.name == j.name)
      let moved := (b.pending.filter isOpen).map fun j => { j with locals := min j.locals b.outerLocals }
      { s with
        locals := s.locals.drop (s.locals.length - b.outerLocals)
        blocks := { outer with pending := outer.pending ++ moved } :: rest }
    | _ => s

def modifyBlock (f : Block → Block) : Read Unit :=
  modifyScope fun s => match s.blocks with
    | top :: rest => { s with blocks := f top :: rest }
    | [] => s

def blocks : Read (List Block) := withScope [] (·.blocks)

/-- Notes a jump, unless its label is known. -/
def noteJump (name : ByteArray) (atLine : Nat) : Read Unit := do
  unless (← blocks).any (fun b => b.labels.any (·.name == name)) do
    let j := Waypoint.mk name atLine (← localCount)
    modifyBlock fun b => { b with pending := b.pending ++ [j] }

/-- Refuses a label that is in sight already; but in the middle generations a block's labels hide
those of the blocks around it. -/
def checkRepeated (name : ByteArray) : Read Unit := do
  let bs ← blocks
  let inSight := ((if (← read) == .v54 then bs else bs.take 1).map (·.labels)).flatten
  match inSight.find? (·.name == name) with
  | some l =>
    failAt (concatBytes ["label '".toUTF8, name, "' already defined on line ".toUTF8,
      (toString l.line).toUTF8]) none
  | none => return ()

/-- Whether nothing but labels and semicolons stands before the end of a block. -/
def endsBlock : List Lexeme → Bool
  | [] => true
  | a :: rest =>
    match a.token with
    | .eof => true
    | .fixed ";" => endsBlock rest
    | .fixed "::" =>
      match rest with
      | _ :: _ :: rest => endsBlock rest
      | _ => false
    | .fixed s => ["else", "elseif", "end"].contains s
    | _ => false

/-- Places a label, which the pending jumps of its block now know. None of them may skip the
declaration of a local that is in scope at the label. -/
def placeLabel (name : ByteArray) (atLine : Nat) : Read Unit := do
  match ← blocks with
  | [] => return ()
  | b :: _ =>
    let count ← localCount
    let l := Waypoint.mk name atLine (if endsBlock (← get).tokens then b.outerLocals else count)
    match b.pending.find? (fun j => j.name == name && j.locals < l.locals) with
    | some j =>
      let skipped ← withScope .empty fun s =>
        ((s.locals[s.locals.length - 1 - j.locals]?).map (·.1)).getD .empty
      failAt (concatBytes ["<goto ".toUTF8, name, "> at line ".toUTF8, (toString j.line).toUTF8,
        " jumps into the scope of local '".toUTF8, skipped, "'".toUTF8]) none
    | none =>
      modifyBlock fun b =>
        { b with labels := l :: b.labels, pending := b.pending.filter (·.name != name) }

/-- Refuses a function with a jump that leads nowhere. -/
def checkPending : Read Unit := do
  match (← blocks).head?.map (·.pending) with
  | some (j :: _) =>
    let n := (toString j.line).toUTF8
    let g ← read
    failAt
      (if j.name != breakName then
        concatBytes ["no visible label '".toUTF8, j.name, "' for <goto> at line ".toUTF8, n]
      else if g == .v54 then "break outside a loop at line ".toUTF8 ++ n
      else concatBytes ["<break> at line ".toUTF8, n, " not inside a loop".toUTF8]) none
  | _ => return ()

def declare (name : ByteArray) (mark : Attribute := .regular) : Read Unit := do
  modifyScope fun s => { s with locals := (name, mark) :: s.locals }
  if 200 < (← localCount) then
    let start ← withScope 0 (·.line)
    let place := if start == 0 then "main function" else "function at line " ++ toString start
    if (← read) == .v51 then failAt (place ++ " has more than 200 local variables").toUTF8 none
    else fail ("too many local variables (limit is 200) in " ++ place)

inductive Place where
  | slot (n : Nat) (mark : Attribute)
  | upvalue (n : Nat)
  | unknown

/-- Where a name lives, seen from the innermost of the functions; functions in between capture it. -/
def resolve (name : ByteArray) : List Scope → Place × List Scope
  | [] => (.unknown, [])
  | s :: outer =>
    match s.locals.findIdx? (fun p => p.1 == name) with
    | some i =>
      let mark := ((s.locals[i]?).map (·.2)).getD .regular
      (.slot (s.locals.length - 1 - i) mark, s :: outer)
    | none =>
      match s.captures.findIdx? (fun p => p.1 == name) with
      | some i => (.upvalue i, s :: outer)
      | none =>
        match resolve name outer with
        | (.unknown, outer) => (.unknown, s :: outer)
        | (.slot n _, outer) =>
          (.upvalue s.captures.size, { s with captures := s.captures.push (name, .fromLocal n) } :: outer)
        | (.upvalue n, outer) =>
          (.upvalue s.captures.size,
            { s with captures := s.captures.push (name, .fromUpvalue n) } :: outer)

/-- The variable of a name; a name that is not in scope is an entry of the globals. -/
def lookup (name : ByteArray) (atLine : Nat) : Read Expr := do
  let s ← get
  let (place, scopes) := resolve name s.scopes
  match place with
  | .slot n _ => return .localVar n name
  | .upvalue n =>
    set { s with scopes }
    return .upvalue n name
  | .unknown =>
    let (place, scopes) := resolve (if (← read) == .v51 then .empty else envName) s.scopes
    set { s with scopes }
    match place with
    | .slot n _ => return .index (.localVar n envName) (.str name) atLine
    | .upvalue n => return .index (.upvalue n envName) (.str name) atLine
    | .unknown => return .nil

/-- Whether a name is a local that may not be assigned to. -/
def isConstant (name : ByteArray) : List Scope → Bool
  | [] => false
  | s :: outer =>
    match s.locals.find? (fun p => p.1 == name) with
    | some (_, mark) => mark == .constant
    | none => isConstant name outer

structure BinaryRule where
  left : Nat
  right : Nat
  build : Expr → Expr → Nat → Expr

def arithmeticRule (left right : Nat) (op : BinaryOp) : BinaryRule :=
  ⟨left, right, fun l r n => .binary op l r n⟩

def binaryRule? (s : String) : Option BinaryRule :=
  match s with
  | "or" => some ⟨1, 1, fun l r _ => .or l r⟩
  | "and" => some ⟨2, 2, fun l r _ => .and l r⟩
  | "<" => some (arithmeticRule 3 3 .lt)
  | ">" => some (arithmeticRule 3 3 .gt)
  | "<=" => some (arithmeticRule 3 3 .le)
  | ">=" => some (arithmeticRule 3 3 .ge)
  | "~=" => some (arithmeticRule 3 3 .ne)
  | "==" => some (arithmeticRule 3 3 .eq)
  | "|" => some (arithmeticRule 4 4 .bor)
  | "~" => some (arithmeticRule 5 5 .bxor)
  | "&" => some (arithmeticRule 6 6 .band)
  | "<<" => some (arithmeticRule 7 7 .shl)
  | ">>" => some (arithmeticRule 7 7 .shr)
  | ".." => some (arithmeticRule 9 8 .concat)
  | "+" => some (arithmeticRule 10 10 .add)
  | "-" => some (arithmeticRule 10 10 .sub)
  | "*" => some (arithmeticRule 11 11 .mul)
  | "/" => some (arithmeticRule 11 11 .div)
  | "//" => some (arithmeticRule 11 11 .idiv)
  | "%" => some (arithmeticRule 11 11 .mod)
  | "^" => some (arithmeticRule 14 13 .pow)
  | _ => none

def unaryPriority : Nat := 12

def unaryOp? (g : Generation) (s : String) : Option UnaryOp :=
  match s with
  | "not" => some .not
  | "-" => some .neg
  | "#" => some .len
  | "~" => if g.since .v53 then some .bnot else none
  | _ => none

/-- Whether the current token ends a block. -/
def blockEnds : Read Bool := do
  match ← token with
  | .eof => return true
  | .fixed s => return ["else", "elseif", "end", "until"].contains s
  | _ => return false

/-- Whether an expression can stand left of an assignment; parentheses make it a plain value. -/
def isAssignable : Expr → Bool
  | .localVar .. => true
  | .upvalue .. => true
  | .index .. => true
  | _ => false

def isCall : Expr → Bool
  | .call .. => true
  | .method .. => true
  | _ => false

def captureList (s : Scope) : List Capture := (s.captures.map (·.2)).toList

mutual

/-- An expression whose binary operators bind tighter than `limit`. -/
def subexpr : Nat → Nat → Read Expr
  | 0, _ => fail "chunk has too many syntax levels"
  | fuel + 1, limit => do
    enter
    let g ← read
    let first ← match ← token with
      | .fixed s =>
        match unaryOp? g s with
        | some op =>
          let opLine ← line
          advance
          let e ← subexpr fuel unaryPriority
          let atLine ← if g == .v51 then lastLine else pure opLine
          pure (Expr.unary op e atLine)
        | none => simpleExpr fuel
      | _ => simpleExpr fuel
    let e ← binaryTail fuel limit first
    leave
    return e

/-- The binary operators that follow an operand. -/
def binaryTail : Nat → Nat → Expr → Read Expr
  | 0, _, _ => fail "chunk has too many syntax levels"
  | fuel + 1, limit, l => do
    match ← token with
    | .fixed s =>
      match binaryRule? s with
      | some rule =>
        if limit < rule.left then
          let opLine ← line
          advance
          let r ← subexpr fuel rule.right
          let atLine ← if (← read) == .v51 then lastLine else pure opLine
          binaryTail fuel limit (rule.build l r atLine)
        else return l
      | none => return l
    | _ => return l

def simpleExpr : Nat → Read Expr
  | 0 => fail "chunk has too many syntax levels"
  | fuel + 1 => do
    match ← token with
    | .int n =>
      advance
      return .int n
    | .float x =>
      advance
      return .float x
    | .str s =>
      advance
      return .str s
    | .fixed "nil" =>
      advance
      return .nil
    | .fixed "true" =>
      advance
      return .bool true
    | .fixed "false" =>
      advance
      return .bool false
    | .fixed "..." =>
      unless ← withScope false (·.isVararg) do
        fail "cannot use '...' outside a vararg function"
      advance
      return .vararg
    | .fixed "\x7b" => tableExpr fuel
    | .fixed "function" =>
      advance
      functionBody fuel false (← line)
    | _ => suffixedExpr fuel

/-- A table constructor. -/
def tableExpr : Nat → Read Expr
  | 0 => fail "chunk has too many syntax levels"
  | fuel + 1 => do
    let start ← line
    expect "\x7b"
    let items ← tableItems fuel #[]
    expectMatch "\x7d" "\x7b" start
    return .table items start

def tableItems : Nat → Array Item → Read (List Item)
  | 0, _ => fail "chunk has too many syntax levels"
  | fuel + 1, acc => do
    if ← isFixed "\x7d" then return acc.toList
    let item ← tableItem fuel
    let more ← if ← accept "," then pure true else accept ";"
    if more then tableItems fuel (acc.push item) else return (acc.push item).toList

def tableItem : Nat → Read Item
  | 0 => fail "chunk has too many syntax levels"
  | fuel + 1 => do
    match ← token with
    | .name s =>
      let next : Option Token := ((← get).tokens.drop 1).head?.map (·.token)
      match next with
      | some (.fixed "=") =>
        advance
        advance
        return .keyed (.str s) (← subexpr fuel 0)
      | some (.fault ..) =>
        advance
        return .positional .nil
      | _ => return .positional (← subexpr fuel 0)
    | .fixed "[" =>
      advance
      let key ← subexpr fuel 0
      expect "]"
      expect "="
      return .keyed key (← subexpr fuel 0)
    | _ => return .positional (← subexpr fuel 0)

def primaryExpr : Nat → Read Expr
  | 0 => fail "chunk has too many syntax levels"
  | fuel + 1 => do
    match ← token with
    | .name s =>
      let atLine ← line
      advance
      lookup s atLine
    | .fixed "(" =>
      let start ← line
      advance
      let e ← subexpr fuel 0
      expectMatch ")" "(" start
      return .paren e
    | _ => fail "unexpected symbol"

def suffixedExpr : Nat → Read Expr
  | 0 => fail "chunk has too many syntax levels"
  | fuel + 1 => do
    let start ← line
    let e ← primaryExpr fuel
    suffixes fuel start e

/-- The fields, calls and methods that follow a primary expression. -/
def suffixes : Nat → Nat → Expr → Read Expr
  | 0, _, _ => fail "chunk has too many syntax levels"
  | fuel + 1, start, e => do
    match ← token with
    | .fixed "." =>
      advance
      let atLine ← line
      let name ← expectName
      suffixes fuel start (.index e (.str name) atLine)
    | .fixed "[" =>
      advance
      let key ← subexpr fuel 0
      let atLine ← line
      expect "]"
      suffixes fuel start (.index e key atLine)
    | .fixed ":" =>
      advance
      let name ← expectName
      let callLine ← line
      let args ← callArgs fuel
      suffixes fuel start (.method e name args (← pickLine start callLine))
    | .fixed "(" =>
      let callLine ← line
      let args ← callArgs fuel
      suffixes fuel start (.call e args (← pickLine start callLine))
    | .fixed "\x7b" =>
      let callLine ← line
      let args ← callArgs fuel
      suffixes fuel start (.call e args (← pickLine start callLine))
    | .str _ =>
      let callLine ← line
      let args ← callArgs fuel
      suffixes fuel start (.call e args (← pickLine start callLine))
    | _ => return e

/-- The line of a call: where its arguments start, or where the called expression starts. -/
def pickLine (start atArgs : Nat) : Read Nat := do
  match ← read with
  | .v51 | .v54 => return atArgs
  | .v52 | .v53 => return start

def callArgs : Nat → Read (List Expr)
  | 0 => fail "chunk has too many syntax levels"
  | fuel + 1 => do
    match ← token with
    | .str s =>
      advance
      return [.str s]
    | .fixed "\x7b" => return [← tableExpr fuel]
    | .fixed "(" =>
      let start ← line
      if (← read) == .v51 && start != (← lastLine) then
        fail "ambiguous syntax (function call x new statement)"
      advance
      if ← accept ")" then return []
      let args ← exprList fuel
      expectMatch ")" "(" start
      return args
    | _ => fail "function arguments expected"

def exprList : Nat → Read (List Expr)
  | 0 => fail "chunk has too many syntax levels"
  | fuel + 1 => do
    let e ← subexpr fuel 0
    if ← accept "," then return e :: (← exprList fuel) else return [e]

/-- Parameters and body of a function, after the word that introduces it. -/
def functionBody : Nat → Bool → Nat → Read Expr
  | 0, _, _ => fail "chunk has too many syntax levels"
  | fuel + 1, isMethod, start => do
    modify fun s => { s with scopes := ⟨[], #[], false, start, [⟨false, 0, [], []⟩]⟩ :: s.scopes }
    if isMethod then declare "self".toUTF8
    expect "("
    let named ← if ← isFixed ")" then pure 0 else paramList fuel
    expect ")"
    let body ← statList fuel
    expectMatch "end" "function" start
    checkPending
    let s ← get
    match s.scopes with
    | top :: outer =>
      set { s with scopes := outer }
      return .function (.mk (named + if isMethod then 1 else 0) top.isVararg (captureList top) body start)
    | [] => return .nil

def paramList : Nat → Read Nat
  | 0 => fail "chunk has too many syntax levels"
  | fuel + 1 => do
    match ← token with
    | .name s =>
      advance
      declare s
      if ← accept "," then return 1 + (← paramList fuel) else return 1
    | .fixed "..." =>
      advance
      modifyScope fun s => { s with isVararg := true }
      return 0
    | _ => fail "<name> or '...' expected"

/-- A block: its statements, with its locals out of scope again. -/
def block : Nat → Read (List Stat)
  | 0 => fail "chunk has too many syntax levels"
  | fuel + 1 => do
    enterBlock false
    let body ← statList fuel
    leaveBlock
    return body

def statList : Nat → Read (List Stat)
  | 0 => fail "chunk has too many syntax levels"
  | fuel + 1 => do
    if (← read) == .v51 then
      enter
      let body ← oldStatList fuel
      leave
      return body
    else newStatList fuel

/-- Statements with an optional semicolon after each; the last may leave the block. -/
def oldStatList : Nat → Read (List Stat)
  | 0 => fail "chunk has too many syntax levels"
  | fuel + 1 => do
    if ← blockEnds then return []
    let s ← statement fuel
    let _ ← accept ";"
    match s with
    | some (.ret values n) => return [.ret values n]
    | some .breakLoop => return [.breakLoop]
    | some s => return s :: (← oldStatList fuel)
    | none => oldStatList fuel

/-- Statements among which a semicolon is one; only a return ends the block early. -/
def newStatList : Nat → Read (List Stat)
  | 0 => fail "chunk has too many syntax levels"
  | fuel + 1 => do
    if ← blockEnds then return []
    let s ← statement fuel
    match s with
    | some (.ret values n) => return [.ret values n]
    | some s => return s :: (← newStatList fuel)
    | none => newStatList fuel

def statement : Nat → Read (Option Stat)
  | 0 => fail "chunk has too many syntax levels"
  | fuel + 1 => do
    let g ← read
    let start ← line
    unless g == .v51 do enter
    let s ← match ← token with
      | .fixed ";" =>
        if g == .v51 then exprStat fuel
        else
          advance
          pure none
      | .fixed "if" =>
        advance
        some <$> ifStat fuel start
      | .fixed "while" => do
        advance
        let c ← subexpr fuel 0
        enterBlock true
        expect "do"
        let body ← block fuel
        expectMatch "end" "while" start
        leaveBlock
        pure (some (.whileLoop c body))
      | .fixed "do" => do
        advance
        let body ← block fuel
        expectMatch "end" "do" start
        pure (some (.block body))
      | .fixed "for" => do
        enterBlock true
        advance
        let s ← forStat fuel start
        leaveBlock
        pure (some s)
      | .fixed "repeat" => do
        enterBlock true
        enterBlock false
        advance
        let body ← statList fuel
        expectMatch "until" "repeat" start
        let c ← subexpr fuel 0
        leaveBlock
        leaveBlock
        pure (some (.repeatLoop body c))
      | .fixed "function" => do
        advance
        some <$> functionStat fuel start
      | .fixed "local" => do
        advance
        if ← accept "function" then
          let name ← expectName
          declare name
          match ← functionBody fuel false (← line) with
          | .function f => pure (some (.localFunc f))
          | _ => pure none
        else some <$> localStat fuel
      | .fixed "::" => do
        advance
        let name ← expectName
        if g == .v54 then
          expect "::"
          checkRepeated name
        else
          checkRepeated name
          expect "::"
        placeLabel name start
        pure (some (.label name))
      | .fixed "return" => do
        advance
        let values ← do
          if ← blockEnds then pure []
          else if ← isFixed ";" then pure []
          else exprList fuel
        unless g == .v51 do
          let _ ← accept ";"
        pure (some (.ret values start))
      | .fixed "break" => do
        advance
        if g == .v51 then
          unless (← blocks).any (·.isLoop) do fail "no loop to break"
        else noteJump breakName start
        pure (some .breakLoop)
      | .fixed "goto" => do
        if g == .v51 then exprStat fuel
        else
          advance
          let atLine ← if g == .v54 then line else pure start
          let name ← expectName
          noteJump name atLine
          pure (some (.goto name))
      | _ => exprStat fuel
    unless g == .v51 do leave
    return s

def ifStat : Nat → Nat → Read Stat
  | 0, _ => fail "chunk has too many syntax levels"
  | fuel + 1, start => do
    let c ← subexpr fuel 0
    expect "then"
    let yes ← block fuel
    if ← accept "elseif" then return .ifThen c yes [← ifStat fuel start]
    else if ← accept "else" then
      let no ← block fuel
      expectMatch "end" "if" start
      return .ifThen c yes no
    else
      expectMatch "end" "if" start
      return .ifThen c yes []

def forStat : Nat → Nat → Read Stat
  | 0, _ => fail "chunk has too many syntax levels"
  | fuel + 1, start => do
    let name ← expectName
    if ← accept "=" then
      let first ← subexpr fuel 0
      expect ","
      let limit ← subexpr fuel 0
      let step ← if ← accept "," then subexpr fuel 0
        else pure (if (← read).hasIntegers then .int 1 else .float 1.0)
      expect "do"
      enterBlock false
      declare name
      let body ← block fuel
      leaveBlock
      expectMatch "end" "for" start
      return .numericFor first limit step body start
    else if (← isFixed ",") || (← isFixed "in") then
      let names ← nameList fuel name
      expect "in"
      let values ← exprList fuel
      expect "do"
      enterBlock false
      names.forM fun s => declare s
      let body ← block fuel
      leaveBlock
      expectMatch "end" "for" start
      return .genericFor names.length values body start
    else fail "'=' or 'in' expected"

/-- The rest of a list of names after its first. -/
def nameList : Nat → ByteArray → Read (List ByteArray)
  | 0, _ => fail "chunk has too many syntax levels"
  | fuel + 1, first => do
    if ← accept "," then return first :: (← nameList fuel (← expectName)) else return [first]

def functionStat : Nat → Nat → Read Stat
  | 0, _ => fail "chunk has too many syntax levels"
  | fuel + 1, start => do
    let atLine ← line
    let root ← lookup (← expectName) atLine
    let (target, isMethod) ← functionName fuel root
    let f ← functionBody fuel isMethod start
    return .assign [target] [f] start

/-- The fields after the first name of a function statement, and whether the last is a method. -/
def functionName : Nat → Expr → Read (Expr × Bool)
  | 0, _ => fail "chunk has too many syntax levels"
  | fuel + 1, e => do
    if ← accept "." then
      let atLine ← line
      functionName fuel (.index e (.str (← expectName)) atLine)
    else if ← accept ":" then
      let atLine ← line
      return (.index e (.str (← expectName)) atLine, true)
    else return (e, false)

def mark : Read Attribute := do
  if (← read).since .v54 then
    if ← accept "<" then
      let name ← expectName
      expect ">"
      if name == "const".toUTF8 || name == "close".toUTF8 then return .constant
      else
        failAt ("unknown attribute '".toUTF8 ++ name ++ "'".toUTF8) none
    else return .regular
  else return .regular

def localNames : Nat → Read (List (ByteArray × Attribute))
  | 0 => fail "chunk has too many syntax levels"
  | fuel + 1 => do
    let name ← expectName
    let a ← mark
    if ← accept "," then return (name, a) :: (← localNames fuel) else return [(name, a)]

def localStat : Nat → Read Stat
  | 0 => fail "chunk has too many syntax levels"
  | fuel + 1 => do
    let names ← localNames fuel
    let values ← if ← accept "=" then exprList fuel else pure []
    names.forM fun p => declare p.1 p.2
    return .localDecl names.length values (← lastLine)

/-- A call or an assignment. -/
def exprStat : Nat → Read (Option Stat)
  | 0 => fail "chunk has too many syntax levels"
  | fuel + 1 => do
    let e ← suffixedExpr fuel
    let assigns := (← isFixed "=") || (← isFixed ",")
    if (← read) == .v51 then
      if isCall e then return some (.expr e)
      else
        unless isAssignable e do fail "syntax error"
        some <$> assignment fuel [e]
    else if assigns then some <$> assignment fuel [e]
    else if isCall e then return some (.expr e)
    else fail "syntax error"

/-- The rest of an assignment; `targets` holds those read so far, the last first. -/
def assignment : Nat → List Expr → Read Stat
  | 0, _ => fail "chunk has too many syntax levels"
  | fuel + 1, targets => do
    checkTarget targets.head?
    if ← accept "," then
      let e ← suffixedExpr fuel
      assignment fuel (e :: targets)
    else
      expect "="
      let values ← exprList fuel
      return .assign targets.reverse values (← lastLine)

def checkTarget (target : Option Expr) : Read Unit := do
  match target with
  | some e =>
    unless isAssignable e do fail "syntax error"
    match e with
    | .localVar _ name | .upvalue _ name =>
      if isConstant name (← get).scopes then
        failAt ("attempt to assign to const variable '".toUTF8 ++ name ++ "'".toUTF8) none
    | _ => return ()
  | none => return ()

end

/-- A whole chunk: the body of a function with lookup arguments that captures the globals. -/
def chunk (fuel : Nat) : Read Func := do
  checkFault
  let body ← statList fuel
  match ← token with
  | .eof =>
    checkPending
    match (← get).scopes with
    | top :: _ => return .mk 0 true (captureList top) body 0
    | [] => return default
  | _ => failExpected "<eof>"

/-- The syntax tree of a chunk's text. -/
def ofSource (g : Generation) (source : ByteArray) : Except Fault Func :=
  let tokens := Token.ofChunk g source
  let globals : ByteArray := if g == .v51 then .empty else envName
  let scope : Scope := ⟨[], #[(globals, .fromLocal 0)], true, 0, [⟨false, 0, [], []⟩]⟩
  match (chunk (8 * tokens.length + 64)).run g ⟨tokens, 1, [scope], 0⟩ with
  | .ok (f, _) => .ok f
  | .error e => .error e

def Fault.text (g : Generation) (name : ByteArray) (f : Fault) : ByteArray :=
  if f.overflow then f.message
  else
    let place := ChunkName.place g name f.line
    let near := match f.near with
      | some n => " near ".toUTF8 ++ n
      | none => .empty
    place ++ f.message ++ near

end LuaHost.Lua.Tree
