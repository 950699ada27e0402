import LuaHost.Proofs.Callbacks.Arguments

set_option autoImplicit false

/-!
# References that are let go

A reference that is let go gives its slot back if its registry still has its machine. Letting references go
changes nothing but machines that are open, and those references that nothing holds.
-/

namespace LuaHost.Host

open Lua (Vm Generation)

variable {env : Env} {w w' : World}

/-- A machine on whose stacks nothing has changed. -/
structure Still (vm vm' : Vm) : Prop where
  generation : vm'.generation = vm.generation
  breached : vm'.breached = vm.breached
  stack : ∀ t, vm'.stackOf t = vm.stackOf t

theorem Still.refl (vm : Vm) : Still vm vm := ⟨rfl, rfl, fun _ => rfl⟩

theorem Still.trans {a b c : Vm} (h : Still a b) (k : Still b c) : Still a c :=
  ⟨k.generation.trans h.generation, k.breached.trans h.breached, fun t => (k.stack t).trans (h.stack t)⟩

/-- Nothing has changed but machines, of which none was closed, and slots that references have given back. -/
structure World.Trims (w w' : World) : Prop where
  rest : ∃ machines references journal, w' = { w with machines, references, journal }
  opened : ∀ n vm, w.machines.get n = .open vm → ∃ vm', w'.machines.get n = .open vm' ∧ Still vm vm'
  registry : ∀ id, (w'.references.get id).registry = (w.references.get id).registry
  holding : ∀ id, (w'.references.get id).holds = true → w'.references.get id = w.references.get id
  reliable : ∀ g, Reliable g w.journal → Reliable g w'.journal

/-- A reference whose slot can be given back if there is one: the machine of its registry is open, or the
registry has been closed. -/
def World.InReach (w : World) (id : Nat) : Prop :=
  (w.references.get id).holds = true → ∀ n, w.machineOf (w.references.get id).registry = some n → w.Open n

namespace World.Trims

theorem refl (w : World) : w.Trims w :=
  ⟨⟨_, _, _, rfl⟩, fun _ vm hm => ⟨vm, hm, .refl vm⟩, fun _ => rfl, fun _ _ => rfl, fun _ h => h⟩

theorem trans {a b c : World} (h : a.Trims b) (k : b.Trims c) : a.Trims c where
  rest := by
    obtain ⟨_, _, _, rfl⟩ := h.rest
    obtain ⟨machines, references, journal, rfl⟩ := k.rest
    exact ⟨machines, references, journal, rfl⟩
  opened := fun n vm hm => by
    obtain ⟨vm₁, hm₁, still⟩ := h.opened n vm hm
    obtain ⟨vm₂, hm₂, still'⟩ := k.opened n vm₁ hm₁
    exact ⟨vm₂, hm₂, still.trans still'⟩
  registry := fun id => (k.registry id).trans (h.registry id)
  holding := fun id hid => by
    have same := k.holding id hid
    rw [same] at hid ⊢
    exact h.holding id hid
  reliable := fun g hr => k.reliable g (h.reliable g hr)

theorem holds (h : w.Trims w') (id : Nat) : w'.holds id = w.holds id := by
  obtain ⟨_, _, _, rfl⟩ := h.rest
  rfl

theorem machineOf (h : w.Trims w') (r : Nat) : w'.machineOf r = w.machineOf r := by
  obtain ⟨_, _, _, rfl⟩ := h.rest
  rfl

theorem inReach (h : w.Trims w') {id : Nat} (reach : w.InReach id) : w'.InReach id := by
  intro hh n home
  rw [h.machineOf, h.registry] at home
  obtain ⟨vm, hm⟩ := reach (h.holding id hh ▸ hh) n home
  obtain ⟨vm', hm', -⟩ := h.opened n vm hm
  exact ⟨vm', hm'⟩

end World.Trims

/-! ## One reference -/

/-- A world in which a reference holds nothing any more. -/
def World.forgetting (w : World) (id : Nat) : World :=
  { w with references := w.references.modify id fun r => { r with slot := Binding.noReference } }

/-- A reference is let go. -/
inductive Lets (id : Nat) (w : World) : World → Prop where
  | forgotten (h : (w.references.get id).holds = false ∨ w.machineOf (w.references.get id).registry = none) :
    Lets id w (w.forgetting id)
  | released {n : Nat} {vm vm' : Vm} (hh : (w.references.get id).holds = true)
    (home : w.machineOf (w.references.get id).registry = some n) (hm : w.machines.get n = .open vm)
    (unpins : vm.Unpins (int32 (w.references.get id).slot) vm') (threads : vm'.threads = vm.threads) :
    Lets id w (w.released n vm' id)

namespace Lets

variable {id : Nat} (h : Lets id w w')

include h

theorem references_eq : w'.references = (w.forgetting id).references := by
  cases h <;> rfl

theorem others {n : Nat} (hn : n ≠ id) : w'.references.get n = w.references.get n := by
  rw [h.references_eq]
  exact Pool.get_modify_ne _ hn _

theorem trims : w.Trims w' where
  rest := by cases h <;> exact ⟨_, _, _, rfl⟩
  opened := fun n vm hm => by
    cases h with
    | forgotten _ => exact ⟨vm, hm, .refl vm⟩
    | @released m vm₁ vm' _ _ hm₁ unpins threads =>
      by_cases same : n = m
      · subst same
        cases hm.symm.trans hm₁
        exact ⟨vm', Pool.get_put_self _ _ _, unpins.generation, unpins.breached,
          fun t => congrArg (fun ths => (Pool.get ths t).stack) threads⟩
      · exact ⟨vm, (Pool.get_put_ne _ same _).trans hm, .refl vm⟩
  registry := fun n => by
    by_cases same : n = id
    · rw [h.references_eq, same, World.forgetting, Pool.get_modify_self]
    · rw [h.others same]
  holding := fun n hn => by
    by_cases same : n = id
    · rw [h.references_eq, same, World.forgetting, Pool.get_modify_self] at hn
      cases hn
    · exact h.others same
  reliable := fun g hr => by
    cases h with
    | forgotten _ => exact hr
    | released => exact hr

theorem moves : Moves w w' := by
  cases h with
  | forgotten none => exact (Move.forgotten none).moves
  | released hh home hm unpins _ => exact (Move.released hm hh home unpins).moves

end Lets

theorem unpin_eq (env : Env) (w : World) (id : Nat) (slot : Int) :
    Registry.unpin id slot env w = ((match w.machineOf id with
      | none => Pure.pure ()
      | some n => runWith (w.registries.get id).runtime (some (.main n)) fun rt => Binding.Api.unref rt slot) : H Unit)
        env w := by
  unfold Registry.unpin
  rw [bind_registryGet, Registry.handle, World.machineOf]
  cases (w.registries.get id).machine <;> rfl

/-- A reference in reach is let go without an error. -/
theorem release_lets (env : Env) {id : Nat} (reach : w.InReach id) : ∃ w', Reference.release id env w = .ok () w' ∧ Lets id w w' := by
  have run : Reference.release id env w =
      (if (w.references.get id).holds then
        Registry.unpin (w.references.get id).registry (w.references.get id).slot >>= fun _ => Leads.forgetReference id
      else Leads.forgetReference id) env w := rfl
  have unpin := unpin_eq env w (w.references.get id).registry (w.references.get id).slot
  cases hh : (w.references.get id).holds with
  | false =>
    rw [run, hh, if_neg Bool.false_ne_true]
    exact ⟨_, rfl, .forgotten (.inl hh)⟩
  | true =>
    rw [run, hh, if_pos rfl]
    cases home : w.machineOf (w.references.get id).registry with
    | none =>
      rw [home] at unpin
      exact ⟨_, bind_ok unpin, .forgotten (.inr home)⟩
    | some n =>
      obtain ⟨vm, hm⟩ := reach hh n home
      obtain ⟨vm', ⟨unpins, threads⟩, done⟩ := runWith_unref_open env (w.registries.get (w.references.get id).registry).runtime
        (h := .main n) (w.references.get id).slot hm
      rw [home] at unpin
      exact ⟨_, bind_ok (unpin.trans done), .released hh home hm unpins threads⟩

/-! ## Many references -/

/-- References are let go one after another, but for those that something holds. -/
inductive Drops : List Nat → World → World → Prop where
  | nil (w : World) : Drops [] w w
  | held {w w' : World} {id : Nat} {rest : List Nat} (h : w.holds id = true) (next : Drops rest w w') : Drops (id :: rest) w w'
  | free {w w₁ w' : World} {id : Nat} {rest : List Nat} (h : w.holds id = false) (lets : Lets id w w₁) (next : Drops rest w₁ w') :
    Drops (id :: rest) w w'

namespace Drops

variable {ids : List Nat}

theorem trims (h : Drops ids w w') : w.Trims w' := by
  induction h with
  | nil w => exact .refl w
  | held _ _ ih => exact ih
  | free _ lets _ ih => exact lets.trims.trans ih

theorem moves (h : Drops ids w w') : Moves w w' := by
  induction h with
  | nil w => exact .refl
  | held _ _ ih => exact ih
  | free _ lets _ ih => exact lets.moves.trans ih

/-- What something holds stays as it is. -/
theorem keeps (h : Drops ids w w') {id : Nat} (held : w.holds id = true) : w'.references.get id = w.references.get id := by
  induction h with
  | nil w => rfl
  | held _ _ ih => exact ih held
  | @free w w₁ w' gone rest free lets _ ih =>
    have other : id ≠ gone := by
      rintro rfl
      exact nomatch free.symm.trans held
    rw [ih ((lets.trims.holds id).trans held), lets.others other]

end Drops

/-- References in reach are let go without an error. -/
theorem dropAll_drops (env : Env) {ids : List Nat} (reach : ∀ id ∈ ids, w.holds id = true ∨ w.InReach id) :
    ∃ w', dropAll ids env w = .ok () w' ∧ Drops ids w w' := by
  induction ids generalizing w with
  | nil => exact ⟨w, rfl, .nil w⟩
  | cons id rest ih =>
    have run : dropAll (id :: rest) env w = ((do
        if !w.holds id then H.catch_ (Reference.release id) fun _ => return ()
        dropAll rest) : H Unit) env w := rfl
    cases held : w.holds id with
    | true =>
      obtain ⟨w', dropped, drops⟩ := ih fun n hn => reach n (List.mem_cons_of_mem _ hn)
      rw [run, held]
      exact ⟨w', dropped, .held held drops⟩
    | false =>
      obtain ⟨w₁, released, lets⟩ := release_lets env ((reach id List.mem_cons_self).resolve_left (ne_true_of_eq_false held))
      have caught : H.catch_ (Reference.release id) (fun _ => return ()) env w = .ok () w₁ := by
        rw [H.catch_, released]
      obtain ⟨w', dropped, drops⟩ := ih fun n hn =>
        (reach n (List.mem_cons_of_mem _ hn)).imp (fun h => (lets.trims.holds n).trans h) lets.trims.inReach
      rw [run, held]
      exact ⟨w', (bind_ok caught).trans dropped, .free held lets drops⟩

end LuaHost.Host
