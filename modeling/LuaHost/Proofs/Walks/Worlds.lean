import LuaHost.Proofs.Walks.Heaps
import LuaHost.Proofs.Callbacks.Answers
import LuaHost.Proofs.Moves.Operations

set_option autoImplicit false

/-!
# What a walk leaves of a world

An operation that walks from the globals changes the stack of its machine, makes functions out of routines,
and has its registry hold chunks that it compiles. That is all it does to a world before it assigns, calls or
reports; and a report changes nothing but what reporters have and are told.
-/

namespace LuaHost.Host

open Lua (Vm Generation)

variable {g : Generation} {env : Env} {w w' : World} {vm vm' : Vm} {m registry : Nat} {α β : Type}

/-! ## Worlds that are ready -/

/-- A lawful world in which holders hold what they were given. -/
structure World.Ready (g : Generation) (w : World) : Prop where
  lawful : w.Lawful g
  assigned : w.Assigned g
  reliable : Reliable g w.journal

namespace World.Ready

variable (h : w.Ready g)

include h

theorem moved (moves : Moves w w') (hr : Reliable g w'.journal) : w'.Ready g :=
  ⟨moves.lawful h.lawful, (moves.carries h.lawful h.assigned hr).assigned, hr⟩

/-- The runtime of a registry is of the generation of every machine. -/
theorem generation (hm : w.machines.get m = .open vm) (id : Nat) :
    (w.runtimes.get (w.registries.get id).runtime).generation = vm.generation :=
  (h.lawful.generation _ (h.lawful.registryRuntime id)).trans (h.lawful.generations m vm hm).symm

end World.Ready

/-- A machine in which no table has changed. -/
theorem Move.akin (hm : w.machines.get m = .open vm) (akin : vm.Akin vm') : Move w (w.put m vm') := by
  refine .step hm ⟨akin.generation, akin.registry, fun hb => akin.breached.trans hb, ?_, akin.size, akin.closure, fun _ _ _ => ?_⟩
  · exact Nat.le_of_eq (by rw [akin.tables])
  · rw [akin.tables]
    exact .refl _

/-! ## What is trodden -/

/-- The numbers of the registry's entries that were written for chunks between two worlds, and the head of the
list of free slots. -/
def World.Books (g : Generation) (registry : Nat) (w w' : World) (n : Int64) : Prop :=
  n = Lua.Stack.freeListSlot g ∨ ∃ (i : Nat) (text : Text) (slot : Int), (w.registries.get registry).chunks.length ≤ i ∧
    (w'.registries.get registry).chunks[i]? = some (text, slot) ∧ n = Int64.ofInt slot

/-- A world that a walk on machine `m`, with the registry of the walk, has come to. -/
structure World.Treads (g : Generation) (m registry : Nat) (w w' : World) : Prop where
  moves : Moves w w'
  rest : ∃ machines registries foreigns trampolines journal,
    w' = { w with machines, registries, foreigns, trampolines, journal }
  others : ∀ n, n ≠ m → w'.machines.get n = w.machines.get n
  chunks : ∃ new, (w'.registries.get registry).chunks = (w.registries.get registry).chunks ++ new
  registries : ∀ id, id ≠ registry → w'.registries.get id = w.registries.get id
  functions : ∀ k, k < w.foreigns.size → k < w'.foreigns.size ∧ (w'.foreigns.get k).routine = (w.foreigns.get k).routine
  opened : ∀ vm, w.machines.get m = .open vm → ∃ vm', w'.machines.get m = .open vm' ∧ vm.Spares (w.Books g registry w') vm'

namespace World.Treads

theorem refl (w : World) : w.Treads g m registry w :=
  ⟨.refl, ⟨_, _, _, _, _, rfl⟩, fun _ _ => rfl, ⟨[], (List.append_nil _).symm⟩, fun _ _ => rfl, fun _ hk => ⟨hk, rfl⟩,
    fun vm hm => ⟨vm, hm, .refl vm⟩⟩

theorem books_later {a b c : World} (k : b.Treads g m registry c) {n : Int64} (hn : a.Books g registry b n) : a.Books g registry c n := by
  obtain ⟨newer, he⟩ := k.chunks
  refine hn.imp_right fun ⟨i, text, slot, old, found, same⟩ => ⟨i, text, slot, old, ?_, same⟩
  rw [he, List.getElem?_append_left (List.getElem?_eq_some_iff.mp found).1]
  exact found

theorem books_earlier {a b c : World} (h : a.Treads g m registry b) {n : Int64} (hn : b.Books g registry c n) : a.Books g registry c n := by
  obtain ⟨new, he⟩ := h.chunks
  refine hn.imp_right fun ⟨i, text, slot, old, found, same⟩ => ⟨i, text, slot, ?_, found, same⟩
  rw [he, List.length_append] at old
  exact Nat.le_trans (Nat.le_add_right _ _) old

theorem trans {a b c : World} (h : a.Treads g m registry b) (k : b.Treads g m registry c) : a.Treads g m registry c where
  moves := h.moves.trans k.moves
  rest := by
    obtain ⟨_, _, _, _, _, rfl⟩ := h.rest
    obtain ⟨machines, registries, foreigns, trampolines, journal, rfl⟩ := k.rest
    exact ⟨machines, registries, foreigns, trampolines, journal, rfl⟩
  others := fun n hn => (k.others n hn).trans (h.others n hn)
  chunks := by
    obtain ⟨new, he⟩ := h.chunks
    obtain ⟨newer, he'⟩ := k.chunks
    exact ⟨new ++ newer, by rw [he', he, List.append_assoc]⟩
  registries := fun id hid => (k.registries id hid).trans (h.registries id hid)
  functions := fun n hn => by
    obtain ⟨hn₁, same⟩ := h.functions n hn
    obtain ⟨hn₂, same'⟩ := k.functions n hn₁
    exact ⟨hn₂, same'.trans same⟩
  opened := fun vm hm => by
    obtain ⟨vm₁, hm₁, first⟩ := h.opened vm hm
    obtain ⟨vm₂, hm₂, second⟩ := k.opened vm₁ hm₁
    exact ⟨vm₂, hm₂, (first.mono fun _ => k.books_later).trans (second.mono fun _ => h.books_earlier)⟩

/-- A machine that has another stack, or more functions. -/
theorem put (hm : w.machines.get m = .open vm) (akin : vm.Akin vm') (natives : vm'.natives = vm.natives) :
    w.Treads g m registry (w.put m vm') where
  moves := (Move.akin hm akin).moves
  rest := ⟨_, _, _, _, _, rfl⟩
  others := fun n hn => Pool.get_put_ne _ hn _
  chunks := ⟨[], (List.append_nil _).symm⟩
  registries := fun _ _ => rfl
  functions := fun _ hk => ⟨hk, rfl⟩
  opened := fun v hv => by
    cases hm.symm.trans hv
    exact ⟨vm', World.get_put _ _ _, .of_akin akin natives⟩

section Views

variable (h : w.Treads g m registry w')

include h

theorem references : w'.references = w.references := by
  obtain ⟨_, _, _, _, _, rfl⟩ := h.rest
  rfl

theorem reports : w'.reports = w.reports := by
  obtain ⟨_, _, _, _, _, rfl⟩ := h.rest
  rfl

theorem machineOf (id : Nat) : w'.machineOf (w'.references.get id).registry = w.machineOf (w.references.get id).registry := by
  rw [h.moves.continues.machineOf, h.references]

theorem refuses {v : Value} {e : Failure} : Refuses w' v e ↔ Refuses w v e :=
  ⟨fun refused => refused.of_same fun id => (h.machineOf id).symm, fun refused => refused.of_same h.machineOf⟩

end Views

end World.Treads

/-! ## What values are in a world that was come to -/

/-- Holders that hold what they did: what a reference pins, it pinned before. -/
theorem Denotes.earlier {w₀ : World} {v : Value} {u : Lua.Value} (h : Denotes g m w w' v u) (carries : w₀.Carries g w)
    (same : w.references = w₀.references) (machineOf : ∀ r, w.machineOf r = w₀.machineOf r) : Denotes g m w₀ w' v u := by
  cases h with
  | data copy => exact .data copy
  | @pinned id u home holds taken =>
    have there : id < w₀.references.size := World.lt_size_of_holds (same ▸ holds)
    have stays := carries.stays m (w.references.get id).slot none id there ⟨home, holds, rfl, rfl⟩
    rw [stays.allocated] at taken
    rw [machineOf, same] at home
    rw [same] at holds taken
    exact .pinned home holds taken
  | released home none =>
    rw [machineOf, same] at home
    rw [same] at none
    exact .released home none
  | elsewhere home other u =>
    rw [machineOf, same] at home
    exact .elsewhere home other u
  | function hv made does => exact .function hv made does

/-- In a ready world whose programs leave the registry alone, what is read for references is what they pin. -/
theorem World.Ready.recalls (h : w.Ready g) (hm : w.machines.get m = .open vm) (fine : vm.breached = false) (ids : List Nat) :
    Recalls g m w ids w vm :=
  have none : Drops [] (w.flying ids) (w.flying ids) := .nil _
  none.recalls h.lawful h.assigned h.reliable hm fine

end LuaHost.Host
