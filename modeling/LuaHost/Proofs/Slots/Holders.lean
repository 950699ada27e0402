import LuaHost.Proofs.Slots.Journal

set_option autoImplicit false

/-!
# Who holds a slot

References hold slots, and so do the chunks that a registry has compiled, as long as the registry has a
machine. In an assigned world holders hold taken slots, no two the same, and unless a program has written
numbered entries of the registry itself, each slot has the value that was pinned there.
-/

namespace LuaHost.Lua

/-- A machine whose registry's table is there, has no metatable and no entries with negative numbers. -/
structure Vm.Tame (vm : Vm) : Prop where
  registry : vm.registry < vm.tables.size
  metatable : (vm.tables.get vm.registry).metatable = none
  vacant : ∀ n : Int64, n.toInt < 0 → vm.entry n = .nil

end LuaHost.Lua

namespace LuaHost.Host

open Lua (Vm Generation)

/-- What holds a slot: a reference, or a chunk by its registry and its place there. -/
inductive Holder where
  | reference (id : Nat)
  | chunk (registry index : Nat)
deriving DecidableEq

/-- A holder holds a slot of machine `m`; a chunk is the function of its text. -/
def World.Holds (w : World) (m : Nat) (slot : Int) (text : Option Text) : Holder → Prop
  | .reference id =>
    w.machineOf (w.references.get id).registry = some m ∧ (w.references.get id).holds = true ∧
      (w.references.get id).slot = slot ∧ text = none
  | .chunk registry index =>
    ∃ source, text = some source ∧ w.machineOf registry = some m ∧
      (w.registries.get registry).chunks[index]? = some (source, slot)

/-- A machine has in a slot what was pinned there. -/
structure Backed (vm : Vm) (slot : Int) (text : Option Text) (v : Lua.Value) : Prop where
  entry : vm.breached = false → vm.entry (Int64.ofInt slot) = v
  compiled : ∀ source, text = some source → CompiledFrom vm source v

/-- A slot is taken, and the machine has in it what was pinned there. -/
structure World.Taken (g : Generation) (w : World) (m : Nat) (slot : Int) (text : Option Text) : Prop where
  made : m < w.machines.size
  proper : ProperSlot g slot
  backed : ∃ v, allocated m slot w.journal = some v ∧ ∀ vm, w.machines.get m = .open vm → Backed vm slot text v

structure World.Assigned (g : Generation) (w : World) : Prop where
  taken : ∀ m slot text h, w.Holds m slot text h → w.Taken g m slot text
  apart : ∀ m slot text text' h h', w.Holds m slot text h → w.Holds m slot text' h' → h = h'
  registered : ∀ id, (w.references.get id).holds = true → (w.references.get id).registry < w.registries.size
  tame : ∀ m vm, w.machines.get m = .open vm → vm.breached = false → vm.Tame
  frugal : Frugal w.journal

/-! ## Values that stay where they are -/

section Machines

variable {vm vm' : Vm} {slot : Int} {text : Option Text} {v : Lua.Value} {p : Int64 → Prop}

theorem CompiledFrom.of_closures {source : Text} (h : CompiledFrom vm source v) (hg : vm'.generation = vm.generation)
    (size : vm.closures.size ≤ vm'.closures.size)
    (hc : ∀ a, a < vm.closures.size → vm'.closures.get a = vm.closures.get a) : CompiledFrom vm' source v := by
  obtain ⟨bytes, he, a, f, c, hv, ha, hf, hs⟩ := h
  exact ⟨bytes, he, a, f, c, hv, Nat.lt_of_lt_of_le ha size, (hc a ha).trans hf, by rw [hg]; exact hs⟩

/-- A private step of a tame machine leaves what is in slots. -/
theorem Backed.private (hb : Backed vm slot text v) (ht : vm.breached = false → vm.Tame) (h : vm.Private vm') :
    Backed vm' slot text v where
  entry := fun fine => by
    have before : vm.breached = false := by
      cases b : vm.breached with
      | false => rfl
      | true => exact nomatch (h.breached b).symm.trans fine
    have keeps := h.entries fine (ht before).registry (ht before).metatable
    rw [Lua.Vm.entry, h.registry, keeps.get_int]
    exact hb.entry before
  compiled := fun source hs => (hb.compiled source hs).of_closures h.generation h.closures h.closure

/-- An edit of other entries leaves what is in a slot. -/
theorem Backed.edits (hb : Backed vm slot text v) (h : vm.Edits p vm') (hp : ¬ p (Int64.ofInt slot)) :
    Backed vm' slot text v where
  entry := fun fine => (h.entry _ hp).trans (hb.entry (h.breached ▸ fine))
  compiled := fun source hs => (hb.compiled source hs).of_closures h.generation (Nat.le_of_eq (by rw [h.closures]))
    fun a _ => by rw [h.closures]

theorem tame_private (ht : vm.breached = false → vm.Tame) (h : vm.Private vm') (fine : vm'.breached = false) : vm'.Tame := by
  have before : vm.breached = false := by
    cases b : vm.breached with
    | false => rfl
    | true => exact nomatch (h.breached b).symm.trans fine
  have keeps := h.entries fine (ht before).registry (ht before).metatable
  refine ⟨?_, ?_, fun n hn => ?_⟩
  · rw [h.registry]
    exact Nat.lt_of_lt_of_le (ht before).registry h.tables
  · rw [h.registry, keeps.metatable]
    exact (ht before).metatable
  · rw [Lua.Vm.entry, h.registry, keeps.get_int]
    exact (ht before).vacant n hn

theorem not_negative_freeListSlot (g : Generation) : ¬ (Lua.Stack.freeListSlot g).toInt < 0 := by
  cases g <;> decide

theorem tame_edits (ht : vm.breached = false → vm.Tame) (h : vm.Edits p vm') (hp : ∀ n, p n → ¬ n.toInt < 0)
    (fine : vm'.breached = false) : vm'.Tame := by
  have before := ht (h.breached ▸ fine)
  refine ⟨?_, ?_, fun n hn => ?_⟩
  · rw [h.registry]
    exact Nat.lt_of_lt_of_le before.registry h.tables
  · rw [h.metatable]
    exact before.metatable
  · rw [h.entry n fun named => hp n named hn]
    exact before.vacant n hn

end Machines

/-! ## Holders that stay -/

variable {g : Generation} {w w' : World}

/-- A holder held a slot before, and what is taken there and in it has stayed. -/
structure World.Stays (w w' : World) (m : Nat) (slot : Int) (text : Option Text) (h : Holder) : Prop where
  held : w.Holds m slot text h
  allocated : Host.allocated m slot w'.journal = Host.allocated m slot w.journal
  backed : ∀ v, (∀ vm, w.machines.get m = .open vm → Backed vm slot text v) →
    ∀ vm, w'.machines.get m = .open vm → Backed vm slot text v

theorem World.Taken.stays {m : Nat} {slot : Int} {text : Option Text} {h : Holder} (ht : w.Taken g m slot text)
    (size : w.machines.size ≤ w'.machines.size) (hs : w.Stays w' m slot text h) : w'.Taken g m slot text := by
  obtain ⟨v, hv, hb⟩ := ht.backed
  exact ⟨Nat.lt_of_lt_of_le ht.made size, ht.proper, v, hs.allocated.trans hv, hs.backed v hb⟩

theorem World.Stays.trans {a b c : World} {m : Nat} {slot : Int} {text : Option Text} {h : Holder}
    (first : a.Stays b m slot text h) (second : b.Stays c m slot text h) : a.Stays c m slot text h :=
  ⟨first.held, second.allocated.trans first.allocated, fun v hb => second.backed v (first.backed v hb)⟩

/-- A world that is assigned, in which references that were there before hold what they held, or nothing. -/
structure World.Carries (g : Generation) (w w' : World) : Prop where
  assigned : w'.Assigned g
  references : w.references.size ≤ w'.references.size
  stays : ∀ m slot text id, id < w.references.size → w'.Holds m slot text (.reference id) →
    w.Stays w' m slot text (.reference id)

namespace World.Carries

theorem refl (ha : w.Assigned g) : w.Carries g w :=
  ⟨ha, Nat.le_refl _, fun _ _ _ _ _ hh => ⟨hh, rfl, fun _ hb => hb⟩⟩

theorem trans {a b c : World} (first : a.Carries g b) (second : b.Carries g c) : a.Carries g c where
  assigned := second.assigned
  references := Nat.le_trans first.references second.references
  stays := fun m slot text id hid hh => by
    have later := second.stays m slot text id (Nat.lt_of_lt_of_le hid first.references) hh
    exact (first.stays m slot text id hid later.held).trans later

end World.Carries

/-- What a world needs besides its holders. -/
structure World.Grows (w w' : World) : Prop where
  machines : w.machines.size ≤ w'.machines.size
  references : w.references.size ≤ w'.references.size
  registered : ∀ id, (w'.references.get id).holds = true → (w'.references.get id).registry < w'.registries.size
  tame : ∀ m vm, w'.machines.get m = .open vm → vm.breached = false → vm.Tame
  frugal : Frugal w'.journal

/-- A world in which all holders were there before. -/
theorem World.Grows.carries (hg : w.Grows w') (ha : w.Assigned g)
    (holders : ∀ m slot text h, w'.Holds m slot text h → w.Stays w' m slot text h) : w.Carries g w' where
  assigned :=
    { taken := fun m slot text h hh =>
        (ha.taken m slot text h (holders m slot text h hh).held).stays hg.machines (holders m slot text h hh)
      apart := fun m slot text text' h h' hh hh' =>
        ha.apart m slot text text' h h' (holders m slot text h hh).held (holders m slot text' h' hh').held
      registered := hg.registered
      tame := hg.tame
      frugal := hg.frugal }
  references := hg.references
  stays := fun m slot text _ _ hh => holders m slot text _ hh

/-- A world with one holder more, of a slot that was not taken. -/
theorem World.Grows.carriesNew (hg : w.Grows w') (ha : w.Assigned g) (n : Nat) (s : Int) (t : Option Text) (new : Holder)
    (fresh : ∀ id, new = .reference id → w.references.size ≤ id) (free : Host.allocated n s w.journal = none)
    (taken : w'.Taken g n s t)
    (holders : ∀ m slot text h, w'.Holds m slot text h →
      w.Stays w' m slot text h ∨ (m = n ∧ slot = s ∧ text = t ∧ h = new)) : w.Carries g w' where
  assigned :=
    { taken := fun m slot text h hh => by
        obtain stays | ⟨rfl, rfl, rfl, rfl⟩ := holders m slot text h hh
        · exact (ha.taken m slot text h stays.held).stays hg.machines stays
        · exact taken
      apart := fun m slot text text' h h' hh hh' => by
        have other {text : Option Text} {h : Holder} (stays : w.Stays w' n s text h) : False := by
          obtain ⟨v, hv, -⟩ := (ha.taken n s text h stays.held).backed
          exact nomatch free.symm.trans hv
        obtain stays | ⟨rfl, rfl, rfl, rfl⟩ := holders m slot text h hh
        · obtain stays' | ⟨rfl, rfl, rfl, rfl⟩ := holders m slot text' h' hh'
          · exact ha.apart m slot text text' h h' stays.held stays'.held
          · exact (other stays).elim
        · obtain stays' | ⟨-, -, -, rfl⟩ := holders m slot text' h' hh'
          · exact (other stays').elim
          · rfl
      registered := hg.registered
      tame := hg.tame
      frugal := hg.frugal }
  references := hg.references
  stays := fun m slot text id hid hh => by
    obtain stays | ⟨-, -, -, same⟩ := holders m slot text _ hh
    · exact stays
    · exact absurd (fresh id same.symm) (Nat.not_le_of_lt hid)

end LuaHost.Host
