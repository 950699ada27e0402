import LuaHost.Lua.Numeral

set_option autoImplicit false

/-!
# Syntax trees of Lua

Variables are resolved: a local is a position among the locals in scope, an upvalue a position in
the closure, and a global is an entry of the table in the variable `_ENV`. Trees carry the lines and
names that messages show.
-/

namespace LuaHost.Lua

inductive BinaryOp where
  | add | sub | mul | div | mod | pow | idiv
  | band | bor | bxor | shl | shr
  | concat | eq | ne | lt | le | gt | ge
deriving DecidableEq, Repr

inductive UnaryOp where
  | neg | not | len | bnot
deriving DecidableEq, Repr

/-- Where a new closure finds one of its upvalues. -/
inductive Capture where
  /-- a local of the function around it -/
  | fromLocal (slot : Nat)
  /-- an upvalue of the function around it -/
  | fromUpvalue (index : Nat)
deriving DecidableEq, Repr

mutual

inductive Expr where
  | nil
  | bool (b : Bool)
  | int (n : Int64)
  | float (x : Float)
  | str (s : ByteArray)
  | vararg
  | localVar (slot : Nat) (name : ByteArray)
  | upvalue (index : Nat) (name : ByteArray)
  | index (base key : Expr) (line : Nat)
  | call (fn : Expr) (args : List Expr) (line : Nat)
  | method (object : Expr) (name : ByteArray) (args : List Expr) (line : Nat)
  | function (f : Func)
  | binary (op : BinaryOp) (l r : Expr) (line : Nat)
  | unary (op : UnaryOp) (e : Expr) (line : Nat)
  | and (l r : Expr)
  | or (l r : Expr)
  | paren (e : Expr)
  | table (items : List Item) (line : Nat)

/-- An entry of a table constructor. -/
inductive Item where
  | positional (e : Expr)
  | keyed (key value : Expr)

/-- A function body. -/
inductive Func where
  | mk (params : Nat) (isVararg : Bool) (captures : List Capture) (body : List Stat) (line : Nat)

inductive Stat where
  | localDecl (count : Nat) (values : List Expr) (line : Nat)
  | localFunc (f : Func)
  | assign (targets values : List Expr) (line : Nat)
  | expr (call : Expr)
  | block (body : List Stat)
  | whileLoop (condition : Expr) (body : List Stat)
  | repeatLoop (body : List Stat) (condition : Expr)
  | ifThen (condition : Expr) (yes no : List Stat)
  | numericFor (first limit step : Expr) (body : List Stat) (line : Nat)
  | genericFor (count : Nat) (values : List Expr) (body : List Stat) (line : Nat)
  | ret (values : List Expr) (line : Nat)
  | breakLoop
  | goto (name : ByteArray)
  | label (name : ByteArray)

end

instance : Inhabited Expr := ⟨.nil⟩
instance : Inhabited Func := ⟨.mk 0 false [] [] 0⟩
instance : Inhabited Stat := ⟨.breakLoop⟩

namespace Func

def params : Func → Nat
  | mk n _ _ _ _ => n

def isVararg : Func → Bool
  | mk _ v _ _ _ => v

def captures : Func → List Capture
  | mk _ _ c _ _ => c

def body : Func → List Stat
  | mk _ _ _ b _ => b

/-- The line on which the function starts; 0 for a whole chunk. -/
def line : Func → Nat
  | mk _ _ _ _ n => n

end Func

/-- The name of the variable that holds the globals. -/
def envName : ByteArray := "_ENV".toUTF8

/-- How messages name the place a value came from. -/
structure Origin where
  /-- `local`, `global`, `field`, … -/
  kind : String
  name : ByteArray

/-- Whether an expression is the variable that holds the globals. -/
def Expr.isEnv : Expr → Bool
  | .localVar _ name => name == envName
  | .upvalue _ name => name == envName
  | .paren e => e.isEnv
  | _ => false

/-- The name under which messages show an index that is no constant string. -/
def Expr.indexName (g : Generation) : Expr → ByteArray
  | .int n => (if g == .v54 && 0 ≤ n && n ≤ 255 then "integer index" else "?").toUTF8
  | _ => "?".toUTF8

/-- The origin of an expression's value, if it has a name. -/
def Expr.origin? (g : Generation) : Expr → Option Origin
  | .localVar _ name => some ⟨"local", name⟩
  | .upvalue _ name => some ⟨"upvalue", name⟩
  | .index base (.str s) _ => some ⟨if base.isEnv then "global" else "field", s⟩
  | .index _ key _ => some ⟨"field", key.indexName g⟩
  | .method .. => none
  | .paren e => e.origin? g
  | _ => none

/-- The origin of a value that an operation does not take from the constants of its function: there a
constant string has a name, too, except in the oldest generation. -/
def Expr.heldOrigin? (g : Generation) : Expr → Option Origin
  | .str s => if g == .v51 then none else some ⟨"constant", s⟩
  | .paren e => e.heldOrigin? g
  | e => e.origin? g

/-- The origin of an operand of arithmetic, which the middle generations take from the constants. -/
def Expr.operandOrigin? (g : Generation) (e : Expr) : Option Origin :=
  if g == .v54 then e.heldOrigin? g else e.origin? g

/-- Whether an expression may have any number of values. -/
def Expr.isMulti : Expr → Bool
  | .vararg => true
  | .call .. => true
  | .method .. => true
  | _ => false

end LuaHost.Lua
