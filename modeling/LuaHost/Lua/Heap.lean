import LuaHost.Lua.Value
import LuaHost.Lua.Tree

set_option autoImplicit false

/-!
# The heap

Tables keep their entries in the order of first assignment, and an entry whose value became nil
stays in place, so a traversal may clear entries on its way. An entry carries the proof that the key it
shows is its key. Addresses are never used again.
-/

namespace LuaHost.Lua

/-- An entry of a table; a nil value means that it is absent. -/
structure Entry where
  key : Key
  /-- the key as it was first written -/
  shown : Value
  value : Value
  keyed : shown.key? = some key

structure Table where
  entries : List Entry
  metatable : Option Nat
  /-- how many list items the constructor reserved -/
  reserved : Nat
deriving Inhabited

namespace Table

def empty : Table := ⟨[], none, 0⟩

def lookup (k : Key) : List Entry → Value
  | [] => .nil
  | e :: rest => if e.key = k then e.value else lookup k rest

def get (t : Table) (k : Key) : Value := lookup k t.entries

/-- The value at a key given as a value; nil and NaN find nothing. -/
def getValue (t : Table) (v : Value) : Value :=
  match v.key? with
  | some k => t.get k
  | none => .nil

def getString (t : Table) (s : String) : Value := t.get (.str s.toUTF8)

def assign (k : Key) (shown value : Value) (h : shown.key? = some k) : List Entry → List Entry
  | [] => if value.isNil then [] else [⟨k, shown, value, h⟩]
  | e :: rest =>
    if e.key = k then { e with value } :: rest else e :: assign k shown value h rest

def set (t : Table) (k : Key) (shown value : Value) (h : shown.key? = some k) : Table :=
  { t with entries := assign k shown value h t.entries }

def setString (t : Table) (s : String) (value : Value) : Table :=
  t.set (.str s.toUTF8) (.str s.toUTF8) value rfl

def setInt (t : Table) (n : Int64) (value : Value) : Table := t.set (.int n) (.int n) value rfl

/-- The entries that are present. -/
def present (t : Table) : List Entry := t.entries.filter fun e => !e.value.isNil

/-- The first present entry of a list. -/
def firstPresent : List Entry → Option Entry
  | [] => none
  | e :: rest => if e.value.isNil then firstPresent rest else some e

def after (k : Key) : List Entry → Option (List Entry)
  | [] => none
  | e :: rest => if e.key = k then some rest else after k rest

/-- The entry that follows a key in traversal order: `none` if the key was never there, and
`some none` at the end. -/
def next (t : Table) (k : Option Key) : Option (Option Entry) :=
  match k with
  | none => some (firstPresent t.entries)
  | some k => (after k t.entries).map firstPresent

/-- The integer `n` with a value at `n` and none at `n + 1`, searched upward from `n`. -/
def borderFrom (t : Table) : Nat → Nat → Nat
  | 0, n => n
  | fuel + 1, n => if (t.get (.int (Int64.ofNat (n + 1)))).isNil then n else borderFrom t fuel (n + 1)

/-- A border between a present position and an absent one, by halving. -/
def borderBetween (t : Table) : Nat → Nat → Nat → Nat
  | 0, low, _ => low
  | fuel + 1, low, high =>
    if high ≤ low + 1 then low
    else
      let mid := (low + high) / 2
      if (t.get (.int (Int64.ofNat mid))).isNil then borderBetween t fuel low mid
      else borderBetween t fuel mid high

/-- The length: a border of the integer keys. -/
def length (t : Table) : Nat :=
  if t.reserved != 0 && (t.get (.int (Int64.ofNat t.reserved))).isNil then
    borderBetween t (t.reserved + 1) 0 t.reserved
  else borderFrom t (t.entries.length + 1) t.reserved

theorem lookup_assign_self (k : Key) (shown value : Value) (hk : shown.key? = some k) (es : List Entry) :
    lookup k (assign k shown value hk es) = value := by
  induction es with
  | nil => cases value <;> simp [assign, lookup, Value.isNil]
  | cons e rest ih =>
    by_cases h : e.key = k
    · simp [assign, lookup, h]
    · simpa [assign, lookup, h] using ih

theorem lookup_assign_ne (k j : Key) (h : j ≠ k) (shown value : Value) (hk : shown.key? = some k)
    (es : List Entry) : lookup j (assign k shown value hk es) = lookup j es := by
  induction es with
  | nil => cases value <;> simp [assign, lookup, Value.isNil, Ne.symm h]
  | cons e rest ih =>
    by_cases he : e.key = k
    · simp [assign, lookup, he, Ne.symm h]
    · by_cases hj : e.key = j
      · simp [assign, lookup, hj, h]
      · simp [assign, lookup, he, hj, ih]

theorem get_set_self (t : Table) (k : Key) (shown value : Value) (hk : shown.key? = some k) :
    (t.set k shown value hk).get k = value := lookup_assign_self k shown value hk t.entries

theorem get_set_ne (t : Table) (k j : Key) (h : j ≠ k) (shown value : Value) (hk : shown.key? = some k) :
    (t.set k shown value hk).get j = t.get j := lookup_assign_ne k j h shown value hk t.entries

end Table

/-- A function with upvalues. -/
inductive Closure where
  /-- a function of a chunk, with the cells it captured -/
  | lua (f : Func) (cells : Array Nat) (chunk : ByteArray)
  | native (f : Native) (upvalues : List Value)

instance : Inhabited Closure := ⟨.native (.foreign 0) []⟩

/-- A userdata: only its metatable can be told. -/
structure Userdata where
  metatable : Option Nat
deriving Inhabited

end LuaHost.Lua
