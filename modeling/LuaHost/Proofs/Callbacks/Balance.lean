import LuaHost.Proofs.Callbacks.Releases
import Mathlib.Data.Set.Insert

set_option autoImplicit false

/-!
# Slots that are taken and given back

Which slots of a machine are taken is read off the journal. The pins of one call take slots of their own;
letting references go gives back the slots of those that nothing holds, if their registry still has its
machine, and none if it has been closed.
-/

namespace LuaHost.Host

open Lua (Vm Generation)
open Binding (Runtime)

variable {g : Generation} {env : Env} {w w' : World} {vm : Vm} {m registry : Nat} {pins : List Pin} {journal : List Event}

/-! ## Slots in the journal -/

/-- The slots of machine `m` that are taken. -/
def slotsOf (m : Nat) (journal : List Event) : Set Int := {slot | (allocated m slot journal).isSome = true}

def World.slots (w : World) (m : Nat) : Set Int := slotsOf m w.journal

theorem slotsOf_pinned {v : Lua.Value} (hv : v.isNil = false) (slot : Int) :
    slotsOf m (.pinned m v slot :: journal) = slotsOf m journal ∪ {slot} := by
  ext s
  simp only [slotsOf, Set.mem_ofPred_eq, Set.mem_union, Set.mem_singleton_iff, allocated, hv, true_and, and_true]
  by_cases h : slot = s
  · rw [if_pos h]
    simp only [h, Option.isSome_some, or_true]
  · rw [if_neg h]
    exact ⟨.inl, fun hs => hs.resolve_right fun same => h same.symm⟩

theorem slotsOf_unpinned (slot : Int) : slotsOf m (.unpinned m slot :: journal) = slotsOf m journal \ {slot} := by
  ext s
  simp only [slotsOf, Set.mem_ofPred_eq, Set.mem_sdiff, Set.mem_singleton_iff, allocated, true_and]
  by_cases h : slot = s
  · rw [if_pos h]
    simp only [h, Option.isSome_none, Bool.false_eq_true, not_true_eq_false, and_false]
  · rw [if_neg h]
    exact ⟨fun hs => ⟨hs, fun same => h same.symm⟩, And.left⟩

theorem slotsOf_unpinned_ne {n : Nat} (other : n ≠ m) (slot : Int) : slotsOf m (.unpinned n slot :: journal) = slotsOf m journal := by
  ext s
  rw [slotsOf, Set.mem_ofPred_eq, allocated_unpinned_ne fun same => other same.1]
  rfl

/-! ## Pins -/

/-- Pins for references of their own, with slots of their own that were not taken. -/
structure OwnSlots (g : Generation) (pins : List Pin) (base : Set Int) : Prop where
  distinct : (pins.map Pin.id).Nodup
  proper : ∀ p ∈ pins, ProperSlot g p.slot
  fresh : ∀ p ∈ pins, p.slot ∉ base
  apart : (pins.map Pin.slot).Nodup

theorem pinning_append (m : Nat) (pins : List Pin) (journal : List Event) : ∃ es, pinning m pins journal = es ++ journal := by
  induction pins generalizing journal with
  | nil => exact ⟨[], rfl⟩
  | cons p rest ih =>
    obtain ⟨es, he⟩ := ih (.pinned m p.value p.slot :: journal)
    exact ⟨es ++ [.pinned m p.value p.slot], he.trans (List.append_cons es _ journal)⟩

theorem slotsOf_pinning (some_ : ∀ p ∈ pins, p.value.isNil = false) :
    slotsOf m (pinning m pins journal) = slotsOf m journal ∪ {slot | ∃ p ∈ pins, p.slot = slot} := by
  induction pins generalizing journal with
  | nil =>
    have none : {slot : Int | ∃ p ∈ ([] : List Pin), p.slot = slot} = ∅ := Set.eq_empty_of_forall_notMem fun _ ⟨_, hp, _⟩ => nomatch hp
    rw [none, Set.union_empty]
    rfl
  | cons p rest ih =>
    rw [pinning, ih fun q hq => some_ q (List.mem_cons_of_mem _ hq), slotsOf_pinned (some_ p List.mem_cons_self),
      Set.union_assoc]
    congr 1
    ext slot
    simp only [Set.mem_union, Set.mem_singleton_iff, Set.mem_ofPred_eq, List.mem_cons, exists_eq_or_imp]
    exact or_congr_left eq_comm

/-- Where pinning gives slots that are not taken, all pins have slots of their own. -/
theorem pinning_ownSlots (distinct : (pins.map Pin.id).Nodup) (some_ : ∀ p ∈ pins, p.value.isNil = false) (hr : Reliable g (pinning m pins journal)) :
    OwnSlots g pins (slotsOf m journal) := by
  induction pins generalizing journal with
  | nil => exact ⟨distinct, nofun, nofun, List.nodup_nil⟩
  | cons p rest ih =>
    have nil := some_ p List.mem_cons_self
    obtain ⟨es, he⟩ := pinning_append m rest (.pinned m p.value p.slot :: journal)
    have first : Reliable g (.pinned m p.value p.slot :: journal) := .of_append (he ▸ hr)
    obtain ⟨proper, free⟩ := first.1 nil
    obtain ⟨-, propers, fresh, apart⟩ := ih (List.nodup_cons.mp distinct).2 (fun q hq => some_ q (List.mem_cons_of_mem _ hq)) hr
    rw [slotsOf_pinned nil] at fresh
    have free' : p.slot ∉ slotsOf m journal := by
      rw [slotsOf, Set.mem_ofPred_eq, free]
      exact Bool.false_ne_true
    refine ⟨distinct, fun q hq => ?_, fun q hq => ?_, List.nodup_cons.mpr ⟨fun hmem => ?_, apart⟩⟩
    · obtain rfl | hq := List.mem_cons.mp hq
      · exact proper
      · exact propers q hq
    · obtain rfl | hq := List.mem_cons.mp hq
      · exact free'
      · exact fun taken => fresh q hq (.inl taken)
    · obtain ⟨q, hq, same⟩ := List.mem_map.mp hmem
      exact fresh q hq (.inr same)

/-! ## Pins that are left -/

/-- The slots that are taken besides those of `base` are those of pins: of the ones that are left, if the
registry still has its machine, and of all if it has been closed. References of pins that are not left
hold nothing. -/
structure World.Balance (w : World) (m registry : Nat) (base : Set Int) (pins : List Pin) (left : Nat → Prop) : Prop where
  slots : w.slots m = base ∪ {slot | ∃ p ∈ pins, (w.machineOf registry = some m → left p.id) ∧ p.slot = slot}
  holding : ∀ p ∈ pins, left p.id → w.references.get p.id = ⟨registry, p.slot⟩
  free : ∀ p ∈ pins, ¬ left p.id → (w.references.get p.id).holds = false

/-- A pin is known by its reference, and by its slot. -/
theorem OwnSlots.id_iff_slot {base : Set Int} (own : OwnSlots g pins base) {p q : Pin} (hp : p ∈ pins) (hq : q ∈ pins) :
    q.id = p.id ↔ q.slot = p.slot := by
  constructor
  · exact fun same => congrArg Pin.slot (List.inj_on_of_nodup_map own.distinct hq hp same)
  · exact fun same => congrArg Pin.id (List.inj_on_of_nodup_map own.apart hq hp same)

theorem holds_of_proper {slot : Int} (h : ProperSlot g slot) : (⟨registry, slot⟩ : Reference).holds = true := by
  have positive := h.positive
  simp only [Reference.holds, Binding.noReference, Binding.nilReference, Bool.and_eq_true, bne_iff_ne]
  omega

namespace World.Balance

variable {base : Set Int} {left : Nat → Prop} {p : Pin}

/-- What is left does not depend on anything but the journal, the references and the registry. -/
theorem of_same (hb : w.Balance m registry base pins left) (journal : w'.journal = w.journal)
    (references : w'.references = w.references) (home : w'.machineOf registry = w.machineOf registry) :
    w'.Balance m registry base pins left where
  slots := by
    rw [World.slots, journal, home]
    exact hb.slots
  holding := references ▸ hb.holding
  free := references ▸ hb.free

theorem imp {left' : Nat → Prop} (hb : w.Balance m registry base pins left) (h : ∀ p ∈ pins, left' p.id ↔ left p.id) :
    w.Balance m registry base pins left' where
  slots := by
    rw [hb.slots]
    congr 1
    ext slot
    exact exists_congr fun p => and_congr_right fun hp => and_congr_left' (forall_congr' fun _ => (h p hp).symm)
  holding := fun p hp hl => hb.holding p hp ((h p hp).mp hl)
  free := fun p hp hl => hb.free p hp fun hl' => hl ((h p hp).mpr hl')

/-- The reference of a pin that holds nothing any more, after its slot has been given back if it could be. -/
theorem forget (hb : w.Balance m registry base pins left) (hp : p ∈ pins) (own : OwnSlots g pins base)
    (references : w'.references = w.references.modify p.id fun r => { r with slot := Binding.noReference })
    (home : w'.machineOf registry = w.machineOf registry)
    (freed : left p.id ∧ w.machineOf registry = some m → w'.slots m = w.slots m \ {p.slot})
    (kept : ¬ (left p.id ∧ w.machineOf registry = some m) → w'.slots m = w.slots m) :
    w'.Balance m registry base pins fun id => left id ∧ id ≠ p.id where
  slots := by
    rw [home]
    by_cases both : left p.id ∧ w.machineOf registry = some m
    · rw [freed both, hb.slots]
      ext slot
      simp only [Set.mem_sdiff, Set.mem_union, Set.mem_ofPred_eq, Set.mem_singleton_iff, both.2, forall_const]
      constructor
      · rintro ⟨old | ⟨q, hq, hl, rfl⟩, hne⟩
        · exact .inl old
        · exact .inr ⟨q, hq, ⟨hl, fun same => hne ((own.id_iff_slot hp hq).mp same)⟩, rfl⟩
      · rintro (old | ⟨q, hq, ⟨hl, hne⟩, rfl⟩)
        · exact ⟨.inl old, fun same => own.fresh p hp (same ▸ old)⟩
        · exact ⟨.inr ⟨q, hq, hl, rfl⟩, fun same => hne ((own.id_iff_slot hp hq).mpr same)⟩
    · rw [kept both, hb.slots]
      congr 1
      ext slot
      refine exists_congr fun q => and_congr_right fun hq => and_congr_left' ⟨fun h open_ => ⟨h open_, ?_⟩, fun h open_ => (h open_).1⟩
      exact fun same => both ⟨same ▸ h open_, open_⟩
  holding := fun q hq hl => by
    rw [references, Pool.get_modify_ne _ hl.2]
    exact hb.holding q hq hl.1
  free := fun q hq hl => by
    rw [references]
    by_cases same : q.id = p.id
    · rw [same, Pool.get_modify_self]
      rfl
    · rw [Pool.get_modify_ne _ same]
      exact hb.free q hq fun hl' => hl ⟨hl', same⟩

end World.Balance

/-! ## References that are let go -/

section Dropping

variable {base : Set Int} {left : Nat → Prop} (own : OwnSlots g pins base)

/-- The references of pins are in reach while the machine is open. -/
theorem World.Balance.inReach (hb : w.Balance m registry base pins left)
    (home : w.machineOf registry = none ∨ w.machineOf registry = some m) (hm : w.Open m) :
    ∀ p ∈ pins, w.InReach p.id := by
  intro p hp hh n hn
  have leaves : left p.id := by
    by_contra hl
    exact nomatch (hb.free p hp hl).symm.trans hh
  rw [hb.holding p hp leaves] at hn
  obtain closed | opened := home
  · exact nomatch closed.symm.trans hn
  · cases opened.symm.trans hn
    exact hm

include own

/-- A pin that is let go gives its slot back if the registry still has its machine. -/
theorem Lets.balance {p : Pin} (hp : p ∈ pins) (h : Lets p.id w w') (hb : w.Balance m registry base pins left) :
    w'.Balance m registry base pins fun id => left id ∧ id ≠ p.id := by
  have home := h.trims.machineOf registry
  have references := h.references_eq
  cases h with
  | forgotten none =>
    refine hb.forget hp own references home (fun ⟨hl, opened⟩ => ?_) fun _ => rfl
    rw [hb.holding p hp hl, holds_of_proper (own.proper p hp)] at none
    exact nomatch (none.resolve_left nofun).symm.trans opened
  | @released n vm vm' hh there hm unpins threads =>
    have leaves : left p.id := by
      by_contra hl
      exact nomatch (hb.free p hp hl).symm.trans hh
    have slot : (w.references.get p.id).slot = p.slot := by rw [hb.holding p hp leaves]
    have given : (w.released n vm' p.id).slots m = slotsOf m (.unpinned n p.slot :: w.journal) := by
      rw [World.slots, World.released, slot, (own.proper p hp).int32_eq]
    rw [hb.holding p hp leaves] at there
    refine hb.forget hp own references home (fun ⟨_, opened⟩ => ?_) fun both => ?_
    · cases there.symm.trans opened
      rw [given, slotsOf_unpinned]
      rfl
    · have other : n ≠ m := fun same => both ⟨leaves, same ▸ there⟩
      rw [given, slotsOf_unpinned_ne other]
      rfl

end Dropping

/-- Of the pins that are let go those are left whose references something holds. -/
theorem Drops.balance {base : Set Int} (own : OwnSlots g pins base) {left : Nat → Prop} {ids : List Nat} (h : Drops ids w w')
    (hb : w.Balance m registry base pins left) (known : ∀ id ∈ ids, (∃ p ∈ pins, p.id = id) ∨ w.holds id = true) :
    w'.Balance m registry base pins fun id => left id ∧ (id ∈ ids → w.holds id = true) := by
  induction h generalizing left with
  | nil w => exact hb.imp fun p _ => and_iff_left nofun
  | @held w w' id rest held _ ih =>
    refine (ih hb fun n hn => known n (List.mem_cons_of_mem _ hn)).imp fun p _ => and_congr_right fun _ => ?_
    rw [List.mem_cons]
    exact ⟨fun h hmem => h (.inr hmem), fun h hmem => hmem.elim (fun same => same ▸ held) h⟩
  | @free w w₁ w' id rest free lets _ ih =>
    obtain ⟨p, hp, rfl⟩ : ∃ p ∈ pins, p.id = id := (known id List.mem_cons_self).resolve_right (ne_true_of_eq_false free)
    have known' : ∀ id ∈ rest, (∃ p ∈ pins, p.id = id) ∨ w₁.holds id = true := fun n hn => by
      rw [lets.trims.holds]
      exact known n (List.mem_cons_of_mem _ hn)
    refine (ih (lets.balance own hp hb) known').imp fun q _ => ?_
    simp only [lets.trims.holds, List.mem_cons, and_assoc]
    refine and_congr_right fun _ => ⟨fun h => ⟨fun same => ?_, fun hmem => h (.inr hmem)⟩, fun h hmem => ?_⟩
    · have stays := h (.inl same)
      rw [same, free] at stays
      exact Bool.false_ne_true stays
    · exact h.2 (hmem.resolve_left h.1)

end LuaHost.Host
