import LuaHost.Proofs.Callbacks.Values

set_option autoImplicit false

/-!
# What a function of the host receives

The arguments of a call are copied from the stack, or pinned when they cannot be copied: each of these
takes a slot of its own and gets a new reference. None of it depends on whether the registry that the
function was made through still has a machine.
-/

namespace LuaHost.Host

open Lua (Vm Generation)
open Binding (Runtime)

variable {g : Generation} {env : Env} {w w' : World} {vm : Vm} {f : Foreign} {t : Handle} {m : Nat}

/-- A value that was pinned for a new reference. -/
structure Pin where
  id : Nat
  slot : Int
  value : Lua.Value

/-- Values of a stack are received by the host, from the first on. -/
inductive Received (f : Foreign) (t : Handle) : World → List Lua.Value → List Value → List Pin → World → Prop where
  | nil (w : World) : Received f t w [] [] [] w
  | data {w w' : World} {v : Lua.Value} {vs : List Lua.Value} {a : Value} {as : List Value} {pins : List Pin}
    (copy : copied (w.runtimes.get f.runtime) v = some a) (rest : Received f t w vs as pins w') :
    Received f t w (v :: vs) (a :: as) pins w'
  | pinned {w w' : World} {vm vm' : Vm} {v : Lua.Value} {slot : Int} {vs : List Lua.Value} {as : List Value} {pins : List Pin}
    (copy : copied (w.runtimes.get f.runtime) v = none) (hm : w.machines.get t.machine = .open vm)
    (h : (vm.pushed t.thread v).Pins v slot vm') (stack : vm'.stackOf t.thread = vm.stackOf t.thread)
    (rest : Received f t (w.referenced t.machine vm' f.registry v slot) vs as pins w') :
    Received f t w (v :: vs) (.reference w.references.size :: as) (⟨w.references.size, slot, v⟩ :: pins) w'

/-- All arguments are received, unless no slot is left. -/
theorem arguments_received {vs before : List Lua.Value} (hm : w.machines.get t.machine = .open vm)
    (hg : (w.runtimes.get f.runtime).generation = vm.generation) (stack : (vm.stackOf t.thread).toList = before ++ vs)
    (small : (before ++ vs).length < 0x80000000) :
    (∃ as pins w', arguments f t vs.length ((before.length + 1 : Nat) : Int) env w = .ok as w' ∧ Received f t w vs as pins w') ∨
      ∃ w', arguments f t vs.length ((before.length + 1 : Nat) : Int) env w = .error (.signal (.fault .registryFull)) w' := by
  induction vs generalizing w vm before with
  | nil => exact .inl ⟨[], [], w, rfl, .nil w⟩
  | cons v vs ih =>
    let i : Int := ((before.length + 1 : Nat) : Int)
    have bound : before.length + 1 < 0x80000000 := by
      simp only [List.length_append, List.length_cons] at small
      omega
    have there : ((taken w t.machine vm).vm.stackOf t.thread)[before.length]? = some v := by
      rw [← Array.getElem?_toList]
      change (vm.stackOf t.thread).toList[before.length]? = some v
      rw [stack, List.getElem?_append_right (Nat.le_refl _), Nat.sub_self]
      rfl
    have found : Lua.Stack.value? t.thread (int32 i) (taken w t.machine vm) = .ok (some v) (taken w t.machine vm) := by
      rw [int32_small bound]
      exact Lua.Stack.value?_at there
    have after : before ++ v :: vs = (before ++ [v]) ++ vs := List.append_cons before v vs
    have next : i + 1 = (((before ++ [v]).length + 1 : Nat) : Int) := by
      rw [List.length_append, List.length_singleton]
      exact (Int.natCast_succ _).symm
    have run : arguments f t (v :: vs).length i env w =
        (toHost f.runtime (some t) i (some f.registry) >>= fun a =>
          arguments f t vs.length (i + 1) >>= fun as => Pure.pure (a :: as) : H (List Value)) env w := rfl
    rw [run, next]
    cases copy : copied (w.runtimes.get f.runtime) v with
    | some a =>
      rw [bind_ok (toHost_copied hm hg found _ copy)]
      obtain ⟨as, pins, w', done, received⟩ | ⟨w', failed⟩ := ih hm hg (stack.trans after) (by rwa [← after])
      · exact .inl ⟨a :: as, pins, w', bind_ok done, .data copy received⟩
      · exact .inr ⟨w', bind_error failed⟩
    | none =>
      obtain ⟨slot, vm', h, same, pinned⟩ | ⟨w', failed⟩ := toHost_pinned env hm found f.registry copy
      · rw [bind_ok pinned]
        have hm' : (w.referenced t.machine vm' f.registry v slot).machines.get t.machine = .open vm' := Pool.get_put_self _ _ _
        obtain ⟨as, pins, w', done, received⟩ | ⟨w', failed⟩ := ih hm' (hg.trans h.edits.generation.symm)
          ((congrArg Array.toList same).trans (stack.trans after)) (by rwa [← after])
        · exact .inl ⟨_, _, w', bind_ok done, .pinned copy hm h same received⟩
        · exact .inr ⟨w', bind_error failed⟩
      · exact .inr ⟨w', bind_error failed⟩

/-! ## What receiving changes -/

/-- Events of pinning, put before those of a journal. -/
def pinning (m : Nat) : List Pin → List Event → List Event
  | [], journal => journal
  | p :: pins, journal => pinning m pins (.pinned m p.value p.slot :: journal)

theorem World.size_referenced (w : World) (n : Nat) (vm : Vm) (registry : Nat) (v : Lua.Value) (slot : Int) :
    (w.referenced n vm registry v slot).references.size = w.references.size + 1 := Pool.size_add _ _

namespace Received

variable {vs : List Lua.Value} {as : List Value} {pins : List Pin}

/-- Only the machine, the references and the journal change. -/
theorem rest (h : Received f t w vs as pins w') :
    ∃ machines references, w' = { w with machines, references, journal := pinning t.machine pins w.journal } := by
  induction h with
  | nil w => exact ⟨w.machines, w.references, rfl⟩
  | data _ _ ih => exact ih
  | pinned _ _ _ _ _ ih =>
    obtain ⟨machines, references, rfl⟩ := ih
    exact ⟨machines, references, rfl⟩

/-- The machine has the same stack. -/
theorem opened (h : Received f t w vs as pins w') (hm : w.machines.get t.machine = .open vm) :
    ∃ vm', w'.machines.get t.machine = .open vm' ∧ vm'.stackOf t.thread = vm.stackOf t.thread ∧
      vm'.generation = vm.generation ∧ vm'.breached = vm.breached := by
  induction h generalizing vm with
  | nil w => exact ⟨vm, hm, rfl, rfl, rfl⟩
  | data _ _ ih => exact ih hm
  | pinned _ hm' h stack _ ih =>
    cases hm'.symm.trans hm
    obtain ⟨vm', opened, same, generation, breached⟩ := ih (Pool.get_put_self _ _ _)
    exact ⟨vm', opened, same.trans stack, generation.trans h.edits.generation, breached.trans h.edits.breached⟩

/-- Other machines are as they were. -/
theorem others (h : Received f t w vs as pins w') {n : Nat} (hn : n ≠ t.machine) : w'.machines.get n = w.machines.get n := by
  induction h with
  | nil w => rfl
  | data _ _ ih => exact ih
  | pinned _ _ _ _ _ ih => exact ih.trans (Pool.get_put_ne _ hn _)

theorem references (h : Received f t w vs as pins w') : referencesOfAll as = pins.map Pin.id := by
  induction h with
  | nil w => rfl
  | @data w w' v vs a as pins copy _ ih =>
    have none : a.references = [] := by
      cases v <;> cases copy <;> first | rfl | (split <;> rfl)
    rw [referencesOfAll, none, ih, List.nil_append]
  | pinned _ _ _ _ _ ih => rw [referencesOfAll, Value.references, ih, List.map_cons, List.singleton_append]

/-- The values that cannot be copied are those that are pinned. -/
theorem values (h : Received f t w vs as pins w') :
    pins.map Pin.value = vs.filter fun v => (copied (w.runtimes.get f.runtime) v).isNone := by
  induction h with
  | nil w => rfl
  | data copy _ ih => rw [List.filter_cons_of_neg (by rw [copy]; exact Bool.false_ne_true), ih]
  | pinned copy _ _ _ _ ih =>
    rw [List.filter_cons_of_pos (by rw [copy]; rfl), List.map_cons, ih]
    rfl

theorem size_le (h : Received f t w vs as pins w') : w.references.size ≤ w'.references.size := by
  induction h with
  | nil w => exact Nat.le_refl _
  | data _ _ ih => exact ih
  | pinned _ _ _ _ _ ih =>
    rw [World.size_referenced] at ih
    exact Nat.le_of_succ_le ih

/-- References that were there stay. -/
theorem older (h : Received f t w vs as pins w') {id : Nat} (hid : id < w.references.size) :
    w'.references.get id = w.references.get id := by
  induction h with
  | nil w => rfl
  | data _ _ ih => exact ih hid
  | pinned _ _ _ _ _ ih =>
    rw [World.size_referenced] at ih
    exact (ih (Nat.lt_succ_of_lt hid)).trans (Pool.get_add_ne _ (Nat.ne_of_lt hid) _)

/-- New references are those of the pins, in order. -/
theorem newer (h : Received f t w vs as pins w') : ∀ p ∈ pins, w.references.size ≤ p.id ∧ p.id < w'.references.size ∧
    w'.references.get p.id = ⟨f.registry, p.slot⟩ ∧ p.value.isNil = false := by
  induction h with
  | nil w => exact nofun
  | data _ _ ih => exact ih
  | @pinned w w' vm vm' v slot vs as pins copy _ _ _ received ih =>
    have size := w.size_referenced t.machine vm' f.registry v slot
    have larger : w.references.size < (w.referenced t.machine vm' f.registry v slot).references.size := by omega
    intro p hp
    obtain rfl | hp := List.mem_cons.mp hp
    · refine ⟨Nat.le_refl _, Nat.lt_of_lt_of_le larger received.size_le, (received.older larger).trans (Pool.get_add_self _ _), ?_⟩
      cases v <;> first | rfl | cases copy
    · obtain ⟨least, rest⟩ := ih p hp
      exact ⟨Nat.le_trans (Nat.le_of_lt larger) least, rest⟩

theorem distinct (h : Received f t w vs as pins w') : (pins.map Pin.id).Nodup := by
  induction h with
  | nil w => exact List.nodup_nil
  | data _ _ ih => exact ih
  | @pinned w w' vm vm' v slot vs as pins copy _ _ _ received ih =>
    refine List.nodup_cons.mpr ⟨fun hmem => ?_, ih⟩
    obtain ⟨p, hp, same⟩ := List.mem_map.mp hmem
    have least := (received.newer p hp).1
    rw [same, World.size_referenced] at least
    exact absurd least (Nat.not_succ_le_self _)

end Received
end LuaHost.Host
