import LuaHost.Proofs.Neutral.Evaluation

set_option autoImplicit false

/-!
# Slots of the registry

What pinning and releasing do to the numbered entries of the registry's table: they write the slot
itself and the head of the list of free slots. Which slot pinning chooses is not said here.
-/

namespace LuaHost.Lua

/-- A numbered entry of the registry's table. -/
def Vm.entry (vm : Vm) (n : Int64) : Value := (vm.tables.get vm.registry).get (.int n)

/-- A step that leaves alone the numbered entries of the registry's table but those that `p` names. -/
structure Vm.Edits (p : Int64 → Prop) (vm vm' : Vm) : Prop where
  generation : vm'.generation = vm.generation
  registry : vm'.registry = vm.registry
  breached : vm'.breached = vm.breached
  tables : vm.tables.size ≤ vm'.tables.size
  closures : vm'.closures = vm.closures
  metatable : (vm'.tables.get vm'.registry).metatable = (vm.tables.get vm.registry).metatable
  entry : ∀ n, ¬ p n → vm'.entry n = vm.entry n

namespace Vm.Edits

variable {p q : Int64 → Prop}

theorem of_eq {vm vm' : Vm} (hg : vm'.generation = vm.generation) (hr : vm'.registry = vm.registry)
    (hb : vm'.breached = vm.breached) (ht : vm'.tables = vm.tables) (hc : vm'.closures = vm.closures) :
    vm.Edits p vm' := by
  refine ⟨hg, hr, hb, ?_, hc, ?_, fun n _ => ?_⟩
  · exact Nat.le_of_eq (by rw [ht])
  · rw [hr, ht]
  · rw [Vm.entry, Vm.entry, hr, ht]

theorem trans {a b c : Vm} (h : a.Edits p b) (k : b.Edits p c) : a.Edits p c where
  generation := k.generation.trans h.generation
  registry := k.registry.trans h.registry
  breached := k.breached.trans h.breached
  tables := Nat.le_trans h.tables k.tables
  closures := k.closures.trans h.closures
  metatable := k.metatable.trans h.metatable
  entry := fun n hn => (k.entry n hn).trans (h.entry n hn)

theorem imp {vm vm' : Vm} (h : vm.Edits p vm') (hpq : ∀ n, p n → q n) : vm.Edits q vm' :=
  { h with entry := fun n hn => h.entry n fun hp => hn (hpq n hp) }

end Vm.Edits

/-- A machine with one numbered entry of the registry's table written. -/
def Vm.write (vm : Vm) (n : Int64) (v : Value) : Vm :=
  { vm with tables := vm.tables.modify vm.registry fun t => t.setInt n v }

theorem Vm.entry_write_self (vm : Vm) (n : Int64) (v : Value) : (vm.write n v).entry n = v := by
  rw [Vm.entry, Vm.write, Pool.get_modify_self]
  exact Table.get_set_self _ _ _ _ _

theorem Vm.entry_write_ne (vm : Vm) {n k : Int64} (h : k ≠ n) (v : Value) : (vm.write n v).entry k = vm.entry k := by
  rw [Vm.entry, Vm.write, Pool.get_modify_self]
  exact Table.get_set_ne _ _ _ (fun hk => h (by injection hk)) _ _ _

theorem Vm.edits_write (vm : Vm) (n : Int64) (v : Value) {p : Int64 → Prop} (hp : p n) : vm.Edits p (vm.write n v) := by
  refine ⟨rfl, rfl, rfl, Pool.size_le_size_modify _ _ _, rfl, ?_, fun k hk => ?_⟩
  · rw [Vm.write, Pool.get_modify_self]
    rfl
  · exact vm.entry_write_ne (fun h => hk (by rwa [h])) v

/-- The value on top of a thread's stack, if there is one. -/
def Vm.top? (vm : Vm) (t : Nat) : Option Value := (vm.threads.get t).stack.back?

/-- The value on top of a thread's stack. -/
def Vm.top (vm : Vm) (t : Nat) : Value := (vm.threads.get t).stack.back?.getD .nil

/-- Pinning a value: it is in the slot afterwards; nil gets the number of no slot. -/
structure Vm.Pins (vm : Vm) (v : Value) (slot : Int) (vm' : Vm) : Prop where
  nil : v = .nil → slot = -1
  edits : vm.Edits (fun n => n = Stack.freeListSlot vm.generation ∨ (v ≠ .nil ∧ n = Int64.ofInt slot)) vm'
  pinned : v ≠ .nil → vm'.entry (Int64.ofInt slot) = v

/-- Releasing a slot. -/
def Vm.Unpins (vm : Vm) (slot : Int) (vm' : Vm) : Prop :=
  vm.Edits (fun n => n = Stack.freeListSlot vm.generation ∨ n = Int64.ofInt slot) vm'

variable {σ α β : Type}

/-- A machine with one value more on the stack of a thread. -/
def Vm.pushed (vm : Vm) (t : Nat) (v : Value) : Vm :=
  { vm with
    threads := vm.threads.modify t fun th =>
      { th with stack := th.stack.push v, overdrawn := th.overdrawn || !th.room.allows th.stack.size } }

theorem Vm.top?_pushed (vm : Vm) (t : Nat) (v : Value) : (vm.pushed t v).top? t = some v := by
  rw [Vm.top?, Vm.pushed]
  dsimp only
  rw [Pool.get_modify_self, Array.back?_push]

theorem Stack.push_eq (t : Nat) (v : Value) (s : Sys σ) :
    Stack.push t v s = .ok () { s with vm := s.vm.pushed t v } := rfl

theorem Stack.setRegistryEntry_eq (n : Int64) (v : Value) (s : Sys σ) :
    Stack.setRegistryEntry n v s = .ok () { s with vm := s.vm.write n v } := rfl

theorem Stack.registryEntry_eq (n : Int64) (s : Sys σ) : Stack.registryEntry n s = .ok (s.vm.entry n) s := rfl

theorem Stack.pop_thread (t : Nat) (s : Sys σ) : ∃ vm, Stack.pop t s = .ok (s.vm.top t) { s with vm } ∧
    ∀ p, s.vm.Edits p vm := ⟨_, rfl, fun _ => .of_eq rfl rfl rfl rfl rfl⟩

theorem Value.isNil_eq_false {v : Value} (h : v ≠ .nil) : v.isNil = false := by
  cases v with
  | nil => exact absurd rfl h
  | _ => rfl

theorem Value.eq_nil_of_isNil {v : Value} (h : v.isNil = true) : v = .nil := by
  cases v with
  | nil => rfl
  | _ => cases h

/-- Looking for a free slot may begin the list of them. -/
theorem Stack.freeSlot_edits (s : Sys σ) : ∃ free vm, Stack.freeSlot s = .ok free { s with vm } ∧
    s.vm.Edits (· = Stack.freeListSlot s.vm.generation) vm := by
  have unchanged : s.vm.Edits (· = Stack.freeListSlot s.vm.generation) s.vm := .of_eq rfl rfl rfl rfl rfl
  unfold Stack.freeSlot
  simp only [M.generation, Bind.bind, EStateM.bind, Stack.registryEntry_eq]
  cases s.vm.entry (Stack.freeListSlot s.vm.generation) with
  | nil =>
    by_cases hg : (s.vm.generation == .v54) = true
    · simp only [hg, if_true]
      exact ⟨_, _, rfl, s.vm.edits_write _ _ rfl⟩
    · simp only [hg]
      exact ⟨_, s.vm, rfl, unchanged⟩
  | _ => exact ⟨_, s.vm, rfl, unchanged⟩

/-- A value that is pinned is in its slot, or there is no slot left. -/
theorem Stack.occupy_pins (v : Value) (hv : v ≠ .nil) (free : Int64) (s : Sys σ) :
    (∃ slot vm, Stack.occupy v free s = .ok slot { s with vm } ∧ s.vm.Pins v slot vm) ∨
      Stack.occupy v free s = .error (.fault .registryFull) s := by
  unfold Stack.occupy
  by_cases hf : (free == 0) = true
  · simp only [hf, if_true, M.vm, M.table, Bind.bind, EStateM.bind]
    generalize (s.vm.tables.get s.vm.registry).length + 1 = slot
    by_cases full : Stack.greatestSlot < slot
    · rw [if_pos full]
      exact .inr rfl
    · rw [if_neg full]
      have hs : Int64.ofInt (slot : Int) = Int64.ofNat slot := Int64.ofInt_eq_ofNat
      refine .inl ⟨slot, s.vm.write (Int64.ofNat slot) v, rfl, fun h => absurd h hv, ?_, fun _ => ?_⟩
      · exact s.vm.edits_write _ _ (.inr ⟨hv, hs.symm⟩)
      · rw [hs]
        exact s.vm.entry_write_self _ _
  · rw [if_neg hf]
    refine .inl ⟨free.toInt, _, rfl, fun h => absurd h hv, ?_, fun _ => ?_⟩
    · rw [Int64.ofInt_toInt]
      exact (s.vm.edits_write _ _ (.inl rfl)).trans (Vm.edits_write _ _ _ (.inr ⟨hv, rfl⟩))
    · rw [Int64.ofInt_toInt]
      exact Vm.entry_write_self _ _ _

/-- Pinning takes the value on top of a stack, or there is no slot left. -/
theorem Stack.pin_pins (t : Nat) (s : Sys σ) :
    (∃ slot vm, Stack.pin t s = .ok slot { s with vm } ∧ s.vm.Pins (s.vm.top t) slot vm) ∨
      ∃ vm, Stack.pin t s = .error (.fault .registryFull) { s with vm } ∧
        s.vm.Edits (· = Stack.freeListSlot s.vm.generation) vm := by
  obtain ⟨popped, hpop, hp⟩ := Stack.pop_thread t s
  unfold Stack.pin
  simp only [Bind.bind, EStateM.bind, hpop]
  by_cases hn : (s.vm.top t).isNil = true
  · rw [if_pos hn]
    have nil := Value.eq_nil_of_isNil hn
    exact .inl ⟨-1, popped, rfl, fun _ => rfl, hp _, fun h => absurd nil h⟩
  · rw [if_neg hn]
    have hv : s.vm.top t ≠ .nil := by
      intro h
      rw [h] at hn
      exact hn rfl
    obtain ⟨free, vm, hfree, he⟩ := Stack.freeSlot_edits { s with vm := popped }
    have begun : s.vm.Edits (· = Stack.freeListSlot s.vm.generation) vm := by
      have hg := (hp fun _ => False).generation
      dsimp only at he
      rw [hg] at he
      exact (hp _).trans he
    have run : (Stack.freeSlot >>= fun free => Stack.occupy (s.vm.top t) free : M σ Int) { s with vm := popped } =
        Stack.occupy (s.vm.top t) free { s with vm } := by
      simp only [Bind.bind, EStateM.bind, hfree]
    obtain ⟨slot, vm', hocc, pins⟩ | hocc := Stack.occupy_pins (s.vm.top t) hv free { s with vm }
    · refine .inl ⟨slot, vm', run.trans hocc, pins.nil, ?_, pins.pinned⟩
      have edits := pins.edits
      dsimp only at edits
      rw [begun.generation] at edits
      exact (begun.imp fun n h => .inl h).trans edits
    · exact .inr ⟨vm, run.trans hocc, begun⟩

theorem Stack.unpin_unpins (slot : Int) (s : Sys σ) :
    ∃ vm, Stack.unpin slot s = .ok () { s with vm } ∧ s.vm.Unpins slot vm ∧ vm.threads = s.vm.threads := by
  unfold Stack.unpin
  by_cases hs : slot < 0
  · rw [if_pos hs]
    exact ⟨s.vm, rfl, .of_eq rfl rfl rfl rfl rfl, rfl⟩
  · rw [if_neg hs]
    refine ⟨_, rfl, ?_, rfl⟩
    exact (s.vm.edits_write _ _ (.inr rfl)).trans (Vm.edits_write _ _ _ (.inl rfl))

/-! ## Chunks -/

/-- A value is the function that a source compiles to. -/
def Vm.Compiled (vm : Vm) (source : ByteArray) (v : Value) : Prop :=
  ∃ a f c, v = .closure a ∧ a < vm.closures.size ∧ vm.closures.get a = .lua f #[c] source ∧
    Tree.ofSource vm.generation source = .ok f

theorem Stack.push_top (t : Nat) (v : Value) (s : Sys σ) : ∃ vm, Stack.push t v s = .ok () { s with vm } ∧
    vm.top t = v ∧ vm.closures = s.vm.closures ∧ vm.generation = s.vm.generation := by
  refine ⟨_, Stack.push_eq t v s, ?_, rfl, rfl⟩
  rw [Vm.top, ← Vm.top?, Vm.top?_pushed, Option.getD_some]

theorem M.load_compiles (source : ByteArray) (globals : Value) (s : Sys σ) :
    (∃ status words, M.load source source globals s = .ok (.error (status, words)) s ∧ status ≠ .ok) ∨
      ∃ v vm, M.load source source globals s = .ok (.ok v) { s with vm } ∧ vm.Compiled source v := by
  unfold M.load
  simp only [M.generation, Bind.bind, EStateM.bind]
  split
  · exact .inl ⟨_, _, rfl, Status.noConfusion⟩
  · cases hf : Tree.ofSource s.vm.generation source with
    | error f =>
      refine .inl ⟨_, _, rfl, ?_⟩
      split
      · exact Status.noConfusion
      · exact Status.noConfusion
    | ok f =>
      refine .inr ⟨_, _, rfl, s.vm.closures.size, f, s.vm.cells.size, rfl, ?_, ?_, hf⟩
      · dsimp only
        rw [Pool.size_add]
        exact Nat.lt_succ_self _
      · exact Pool.get_add_self _ _

/-- Compiling leaves the function on top of the stack, or the words of a fault. -/
theorem Stack.loadText_compiles (t : Nat) (source : ByteArray) (s : Sys σ) :
    ∃ status vm, Stack.loadText t source s = .ok status { s with vm } ∧
      (status = .ok → vm.Compiled source (vm.top t)) := by
  have run (r : Except (Status × ByteArray) Value) (u : Sys σ)
      (hr : M.load source source (.table s.vm.globals) s = .ok r u) :
      Stack.loadText t source s = Stack.load t (Pure.pure r) u := by
    unfold Stack.loadText Stack.load
    simp only [Stack.globals, M.vm, Bind.bind, EStateM.bind, Pure.pure, EStateM.pure, hr]
  obtain ⟨status, words, hl, hs⟩ | ⟨v, vm, hl, a, f, c, hv, ha, hc, hf⟩ := M.load_compiles source (.table s.vm.globals) s
  · obtain ⟨vm, hp, -⟩ := Stack.push_top t (.str words) s
    refine ⟨status, vm, ?_, fun h => absurd h hs⟩
    rw [run _ _ hl]
    simp only [Stack.load, Bind.bind, EStateM.bind, Pure.pure, EStateM.pure, hp]
  · obtain ⟨vm', hp, top, closures, generation⟩ := Stack.push_top t v { s with vm }
    refine ⟨.ok, vm', ?_, fun _ => ?_⟩
    · rw [run _ _ hl]
      simp only [Stack.load, Bind.bind, EStateM.bind, Pure.pure, EStateM.pure, hp]
    · rw [top]
      refine ⟨a, f, c, hv, ?_, ?_, ?_⟩
      · rw [closures]
        exact ha
      · rw [closures]
        exact hc
      · rw [generation]
        exact hf

theorem Status.eq_ok_of_code {g : Generation} {status : Status} (h : status.code g = 0) : status = .ok := by
  cases status with
  | ok => rfl
  | _ => cases g <;> cases h

end LuaHost.Lua
