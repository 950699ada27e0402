import LuaHost.Proofs.Lives.Sessions

set_option autoImplicit false

/-!
# Slots in the journal

Which slots are taken can be read off the journal of what was pinned and released. Which slot pinning gives
is up to the machine; that it gives one that is not taken is what a reliable journal says.
-/

namespace LuaHost.Host

open Lua (Generation)

/-- A slot that pinning may give: it has a number, and is not the head of the list of free slots. -/
structure ProperSlot (g : Generation) (slot : Int) : Prop where
  positive : 0 < slot
  bounded : slot ≤ Lua.Stack.greatestSlot
  notHead : Int64.ofInt slot ≠ Lua.Stack.freeListSlot g

instance (g : Generation) (slot : Int) : Decidable (ProperSlot g slot) :=
  decidable_of_iff (0 < slot ∧ slot ≤ Lua.Stack.greatestSlot ∧ Int64.ofInt slot ≠ Lua.Stack.freeListSlot g)
    ⟨fun ⟨a, b, c⟩ => ⟨a, b, c⟩, fun ⟨a, b, c⟩ => ⟨a, b, c⟩⟩

namespace ProperSlot

variable {g : Generation} {slot slot' : Int}

theorem int32_eq (h : ProperSlot g slot) : int32 slot = slot := by
  have bounded := h.bounded
  have positive := h.positive
  unfold int32 Lua.Stack.greatestSlot at *
  rw [Int.bmod_def]
  omega

theorem toInt_ofInt (h : ProperSlot g slot) : (Int64.ofInt slot).toInt = slot := by
  have bounded := h.bounded
  have positive := h.positive
  unfold Lua.Stack.greatestSlot at bounded
  have size : (Int64.size : Int) = 18446744073709551616 := rfl
  rw [Int64.toInt_ofInt, Int.bmod_def, size]
  omega

/-- No entry with a negative number is one of a slot. -/
theorem not_negative (h : ProperSlot g slot) : ¬ (Int64.ofInt slot).toInt < 0 := by
  rw [h.toInt_ofInt]
  exact Int.not_lt.mpr (Int.le_of_lt h.positive)

/-- Different slots are different entries. -/
theorem ofInt_inj (h : ProperSlot g slot) (h' : ProperSlot g slot') (heq : Int64.ofInt slot = Int64.ofInt slot') :
    slot = slot' := by
  rw [← h.toInt_ofInt, ← h'.toInt_ofInt, heq]

end ProperSlot

/-- The value that is pinned in a slot of machine `m` and not released yet. Nil takes no slot. -/
def allocated (m : Nat) (slot : Int) : List Event → Option Lua.Value
  | [] => none
  | .pinned n v s :: rest => if n = m ∧ s = slot ∧ v.isNil = false then some v else allocated m slot rest
  | .unpinned n s :: rest => if n = m ∧ s = slot then none else allocated m slot rest
  | _ :: rest => allocated m slot rest

/-- Pinning always gave a proper slot that was not taken. -/
def Reliable (g : Generation) : List Event → Prop
  | [] => True
  | .pinned m v slot :: rest =>
    (v.isNil = false → ProperSlot g slot ∧ allocated m slot rest = none) ∧ Reliable g rest
  | _ :: rest => Reliable g rest

/-- Only slots that are taken are released: at most once for each time that they are given. -/
def Frugal : List Event → Prop
  | [] => True
  | .unpinned m slot :: rest => (allocated m slot rest).isSome ∧ Frugal rest
  | _ :: rest => Frugal rest

instance decidableReliable (g : Generation) : (journal : List Event) → Decidable (Reliable g journal)
  | [] => .isTrue trivial
  | .pinned m v slot :: rest =>
    have := decidableReliable g rest
    inferInstanceAs (Decidable ((v.isNil = false → ProperSlot g slot ∧ allocated m slot rest = none) ∧ Reliable g rest))
  | .created _ :: rest | .collected _ :: rest | .closed _ :: rest | .unpinned _ _ :: rest | .entered _ _ _ :: rest =>
    decidableReliable g rest

theorem Reliable.of_append {g : Generation} {es journal : List Event} (h : Reliable g (es ++ journal)) :
    Reliable g journal := by
  induction es with
  | nil => exact h
  | cons e rest ih =>
    cases e with
    | pinned m v slot => exact ih h.2
    | _ => exact ih h

/-- An event that neither takes nor releases a slot. -/
def Event.Idle : Event → Prop
  | .pinned .. | .unpinned .. => False
  | _ => True

section Append

variable {es journal : List Event}

theorem allocated_append {m : Nat} {slot : Int} (h : ∀ e ∈ es, e.Idle) : allocated m slot (es ++ journal) = allocated m slot journal := by
  induction es with
  | nil => rfl
  | cons e rest ih =>
    have after := ih fun d hd => h d (List.mem_cons_of_mem _ hd)
    have idle := h e List.mem_cons_self
    cases e with
    | pinned | unpinned => exact idle.elim
    | _ => exact after

theorem frugal_append (h : ∀ e ∈ es, e.Idle) (hf : Frugal journal) : Frugal (es ++ journal) := by
  induction es with
  | nil => exact hf
  | cons e rest ih =>
    have after := ih fun d hd => h d (List.mem_cons_of_mem _ hd)
    have idle := h e List.mem_cons_self
    cases e with
    | pinned | unpinned => exact idle.elim
    | _ => exact after

end Append

section Events

variable {m n : Nat} {slot s : Int} {v : Lua.Value} {journal : List Event}

theorem allocated_pinned (h : v.isNil = false) : allocated m slot (.pinned m v slot :: journal) = some v :=
  if_pos ⟨rfl, rfl, h⟩

theorem allocated_pinned_ne (h : ¬ (n = m ∧ s = slot ∧ v.isNil = false)) :
    allocated m slot (.pinned n v s :: journal) = allocated m slot journal := if_neg h

theorem allocated_unpinned_ne (h : ¬ (n = m ∧ s = slot)) :
    allocated m slot (.unpinned n s :: journal) = allocated m slot journal := if_neg h

end Events
end LuaHost.Host
