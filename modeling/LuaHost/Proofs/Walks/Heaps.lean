import LuaHost.Proofs.Walks.Stacks

set_option autoImplicit false

/-!
# Heaps that are spared

What an operation may do to the heap of a machine without any program running: functions are made, and
some numbered entries of the registry's table are written. Everything else in all tables is spared.
-/

namespace LuaHost.Lua

/-- No table has a metatable. -/
def Vm.Plain (vm : Vm) : Prop := ∀ a, (vm.tables.get a).metatable = none

instance (vm : Vm) : Decidable vm.Plain :=
  decidable_of_iff (∀ a, a < vm.tables.size → (vm.tables.get a).metatable = none) ⟨fun h a => by
    by_cases inside : a < vm.tables.size
    · exact h a inside
    · rw [Pool.get_of_size_le _ (Nat.le_of_not_lt inside)]
      rfl, fun h a _ => h a⟩

/-- A numbered entry of the registry's table that `p` names. -/
def Vm.Exempt (vm : Vm) (p : Int64 → Prop) (a : Nat) (k : Key) : Prop := a = vm.registry ∧ ∃ n, k = .int n ∧ p n

/-- All entries of all tables are spared but those that `p` names. -/
structure Vm.Spares (p : Int64 → Prop) (vm vm' : Vm) : Prop where
  generation : vm'.generation = vm.generation
  registry : vm'.registry = vm.registry
  globals : vm'.globals = vm.globals
  breached : vm'.breached = vm.breached
  natives : vm'.natives = vm.natives
  size : vm.closures.size ≤ vm'.closures.size
  closure : ∀ a, a < vm.closures.size → vm'.closures.get a = vm.closures.get a
  metatable : ∀ a, (vm'.tables.get a).metatable = (vm.tables.get a).metatable
  entry : ∀ a k, ¬ vm.Exempt p a k → (vm'.tables.get a).get k = (vm.tables.get a).get k

namespace Vm.Spares

variable {a b c : Vm} {p q : Int64 → Prop}

theorem of_akin (h : a.Akin b) (natives : b.natives = a.natives) : a.Spares p b :=
  ⟨h.generation, h.registry, h.globals, h.breached, natives, h.size, h.closure, fun _ => by rw [h.tables],
    fun _ _ _ => by rw [h.tables]⟩

theorem refl (a : Vm) : a.Spares p a := .of_akin (.refl a) rfl

theorem mono (h : a.Spares p b) (hpq : ∀ n, p n → q n) : a.Spares q b :=
  { h with entry := fun t k spared => h.entry t k fun ⟨ht, n, hk, hn⟩ => spared ⟨ht, n, hk, hpq n hn⟩ }

theorem trans (h : a.Spares p b) (k : b.Spares p c) : a.Spares p c where
  generation := k.generation.trans h.generation
  registry := k.registry.trans h.registry
  globals := k.globals.trans h.globals
  breached := k.breached.trans h.breached
  natives := k.natives.trans h.natives
  size := Nat.le_trans h.size k.size
  closure := fun n hn => (k.closure n (Nat.lt_of_lt_of_le hn h.size)).trans (h.closure n hn)
  metatable := fun t => (k.metatable t).trans (h.metatable t)
  entry := fun t key spared => by
    refine (k.entry t key fun ⟨ht, n, hk, hn⟩ => spared ⟨?_, n, hk, hn⟩).trans (h.entry t key spared)
    exact ht.trans h.registry

theorem write (vm : Vm) {n : Int64} (v : Value) (hn : p n) : vm.Spares p (vm.write n v) where
  generation := rfl
  registry := rfl
  globals := rfl
  breached := rfl
  natives := rfl
  size := Nat.le_refl _
  closure := fun _ _ => rfl
  metatable := fun t => by
    by_cases ht : t = vm.registry
    · subst ht
      rw [Vm.write, Pool.get_modify_self]
      rfl
    · rw [Vm.write, Pool.get_modify_ne _ ht]
  entry := fun t k spared => by
    by_cases ht : t = vm.registry
    · subst ht
      rw [Vm.write, Pool.get_modify_self]
      exact Table.get_set_ne _ _ _ (fun hk => spared ⟨rfl, n, hk, hn⟩) _ _ _
    · rw [Vm.write, Pool.get_modify_ne _ ht]

theorem plain (h : a.Spares p b) (hp : a.Plain) : b.Plain := fun t => (h.metatable t).trans (hp t)

end Vm.Spares

/-- Another stack spares everything. -/
theorem Vm.Restacks.akin {vm vm' : Vm} {stack : Array Value} (h : vm.Restacks stack vm') : vm.Akin vm' := by
  obtain ⟨overdrawn, rfl⟩ := h
  exact (Vm.Akin.refl vm).course _ _ _

theorem Vm.Restacks.natives {vm vm' : Vm} {stack : Array Value} (h : vm.Restacks stack vm') : vm'.natives = vm.natives := by
  obtain ⟨overdrawn, rfl⟩ := h
  rfl

section Pinning

variable {σ : Type} {s u : Sys σ} {t : Nat} {v : Value} {free : Int64} {slot : Int}

theorem Stack.freeSlot_spares (h : freeSlot s = .ok free u) : s.vm.Spares (· = freeListSlot s.vm.generation) u.vm := by
  unfold freeSlot at h
  simp only [M.generation, Bind.bind, EStateM.bind, registryEntry_eq] at h
  cases entry : s.vm.entry (freeListSlot s.vm.generation) with
  | nil =>
    rw [entry] at h
    dsimp only at h
    split at h
    · cases h
      exact .write s.vm _ rfl
    · cases h
      exact .refl _
  | _ =>
    rw [entry] at h
    cases h
    exact .refl _

theorem Stack.occupy_spares (h : occupy v free s = .ok slot u) :
    s.vm.Spares (fun n => n = freeListSlot s.vm.generation ∨ n = Int64.ofInt slot) u.vm := by
  unfold occupy at h
  split at h
  · simp only [M.vm, M.table, Bind.bind, EStateM.bind] at h
    split at h
    · cases h
    · cases h
      exact .write s.vm v (.inr Int64.ofInt_eq_ofNat.symm)
  · cases h
    refine .trans (.write s.vm _ (.inl rfl)) (.write _ v (.inr ?_))
    rw [Int64.ofInt_toInt]

/-- Pinning writes its slot and the head of the list of free slots, and nothing else. -/
theorem Stack.pin_spares (h : pin t s = .ok slot u) :
    s.vm.Spares (fun n => n = freeListSlot s.vm.generation ∨ n = Int64.ofInt slot) u.vm := by
  let popped : Sys σ :=
    { s with vm := { s.vm with threads := s.vm.threads.modify t fun th => { th with stack := (s.vm.stackOf t).pop } } }
  have taken : pop t s = .ok (s.vm.top t) popped := rfl
  have first (p : Int64 → Prop) : s.vm.Spares p popped.vm := .of_akin ((Vm.Akin.refl s.vm).course _ _ _) rfl
  unfold pin at h
  simp only [Bind.bind, EStateM.bind, taken] at h
  by_cases nil : (s.vm.top t).isNil = true
  · rw [if_pos nil] at h
    have same : popped = u := (EStateM.Result.ok.inj h).2
    exact same ▸ first _
  · rw [if_neg nil] at h
    simp only [EStateM.bind] at h
    cases found : freeSlot popped with
    | ok free w =>
      rw [found] at h
      have second := (freeSlot_spares found).mono (q := fun n => n = freeListSlot s.vm.generation ∨ n = Int64.ofInt slot)
        fun _ => .inl
      have third := occupy_spares h
      rw [second.generation] at third
      exact ((first _).trans second).trans third
    | error e w =>
      rw [found] at h
      cases h

end Pinning

section Loading

variable {σ : Type} {s : Sys σ}

/-- A text that is a chunk of the language. -/
def Loads (g : Generation) (source : ByteArray) : Prop := source.data[0]? ≠ some 27 ∧ ∃ f, Tree.ofSource g source = .ok f

/-- Compiling makes a function, or finds a fault. -/
theorem Gives.compile (source : ByteArray) (globals : Value) :
    Gives s (M.load source source globals) fun r vm => (s.vm.Akin vm ∧ vm.natives = s.vm.natives ∧ vm.threads = s.vm.threads) ∧
      (∀ v, r = .ok v → vm.Compiled source v) ∧
      ∀ status words, r = .error (status, words) → status ≠ .ok ∧ ¬ Loads s.vm.generation source := by
  have same : s.vm.Akin s.vm ∧ s.vm.natives = s.vm.natives ∧ s.vm.threads = s.vm.threads := ⟨.refl _, rfl, rfl⟩
  unfold M.load
  refine .bind (q := fun g vm => g = s.vm.generation ∧ vm = s.vm) ⟨_, _, rfl, rfl, rfl⟩ ?_
  rintro _ _ ⟨rfl, rfl⟩
  split
  · next binary =>
    refine .pure ⟨same, nofun, ?_⟩
    rintro _ _ ⟨⟩
    exact ⟨Status.noConfusion, fun loads => loads.1 (beq_iff_eq.mp binary)⟩
  · cases hf : Tree.ofSource s.vm.generation source with
    | error f =>
      refine .pure ⟨same, nofun, ?_⟩
      rintro _ _ ⟨⟩
      refine ⟨?_, fun loads => nomatch hf.symm.trans loads.2.choose_spec⟩
      split
      · exact Status.noConfusion
      · exact Status.noConfusion
    | ok f =>
      refine ⟨_, _, rfl, ⟨⟨⟨rfl, rfl, rfl, rfl, ?_, fun a ha => ?_⟩, rfl⟩, rfl, rfl⟩, ?_, nofun⟩
      · exact Nat.le_trans (Nat.le_succ _) (Nat.le_of_eq (Pool.size_add _ _).symm)
      · exact Pool.get_add_ne _ (Nat.ne_of_lt ha) _
      · rintro _ ⟨⟩
        refine ⟨s.vm.closures.size, f, s.vm.cells.size, rfl, ?_, Pool.get_add_self _ _, hf⟩
        exact Nat.lt_of_lt_of_eq (Nat.lt_succ_self _) (Pool.size_add _ _).symm

/-- Loading a text pushes one value: the function that is compiled, or the words of a fault. -/
theorem Gives.loadText (source : ByteArray) :
    Gives s (Stack.loadText 0 source) fun status vm => ∃ v, s.vm.Stacks (s.vm.stack.push v) vm ∧
      (status = .ok → vm.Compiled source v) ∧ (Loads s.vm.generation source → status = .ok) := by
  unfold Stack.loadText Stack.globals Stack.load
  refine .bind (q := fun _ vm => vm = s.vm) ⟨_, _, rfl, rfl⟩ ?_
  rintro globals _ rfl
  refine .bind (.compile source globals) ?_
  rintro r vm ⟨⟨akin, natives, threads⟩, compiled, failed⟩
  have stack : vm.stack = s.vm.stack := by rw [Vm.stack, threads, Vm.stack]
  have pushes (v : Value) : Gives { s with vm } (Stack.push 0 v) fun _ vm' => vm' = vm.pushed 0 v := ⟨_, _, rfl, rfl⟩
  have pushed (v : Value) : s.vm.Stacks (s.vm.stack.push v) (vm.pushed 0 v) :=
    ⟨akin.course _ _ _, natives, by rw [← stack]; exact vm.stackOf_pushed 0 v⟩
  cases r with
  | ok v => exact .bind (pushes v) fun _ _ h => .pure ⟨v, h ▸ pushed v, fun _ => h ▸ compiled v rfl, fun _ => rfl⟩
  | error e =>
    obtain ⟨status, words⟩ := e
    obtain ⟨bad, faulty⟩ := failed status words rfl
    exact .bind (pushes (.str words)) fun _ _ h => .pure ⟨_, h ▸ pushed _, fun ok => absurd ok bad, fun loads => absurd loads faulty⟩

end Loading
end LuaHost.Lua
