import LuaHost.Proofs.Openings.Calls
import LuaHost.Proofs.Strings.Cuts
import LuaHost.Proofs.Walks.Assignments

set_option autoImplicit false

/-!
# Opening modules

A module is opened by one call of its loader with its name. Where the interface registers modules, what the
loader gave becomes the module of that name and the global of that name; where it does not, the loader's results
are dropped. Nothing else is done to the tables of the machine than what the loader does.
-/

namespace LuaHost.Lua

variable {σ : Type} {services : Services σ} {s s₁ : Sys σ} {l : Nat} {key v : Value} {name : ByteArray} {vs : List Value}

/-! ## Entries, from outside a program -/

/-- What the registry has for the table of the loaded modules. -/
def Vm.modules (vm : Vm) : Value := (vm.tables.get vm.registry).getString "_LOADED"

theorem M.bind_done {α β : Type} {act : M σ α} {next : α → M σ β} {a : α} (h : act s = .ok a s₁) : (act >>= next) s = next a s₁ := by
  simp only [Bind.bind, EStateM.bind, h]

/-- What is done on the main thread, and what holds of the machine whichever thread runs. -/
theorem Stack.onThread_reaches (s₁ : Sys σ) {α : Type} {act : M σ α} {a : α} {P : Vm → Prop}
    (ran : act { s with vm := { s.vm with running := 0 } } = .ok a s₁) (h : ∀ vm, s₁.vm.Akin vm → P vm) :
    ∃ vm, Stack.onThread 0 act s = .ok a { s₁ with vm } ∧ P vm := by
  obtain ⟨vm, run, akin⟩ := Stack.onThread_done ran
  exact ⟨vm, run, h vm akin⟩

theorem M.getEntry_plain (services : Services σ) (plain : (s.vm.tables.get l).metatable = none) (key : Value) :
    M.getEntry services (.table l) key s = .ok ((s.vm.tables.get l).getValue key) s := by
  obtain ⟨fuel, limit⟩ := Machine.chainLimit_succ s.vm.generation
  unfold M.getEntry
  simp only [M.generation, Bind.bind, EStateM.bind, limit, Machine.access_entry plain]
  rfl

theorem M.setEntry_plain (services : Services σ) (plain : (s.vm.tables.get l).metatable = none) (key v : Value) {k : Key}
    (hk : key.key? = some k) : M.setEntry services (.table l) key v s = .ok () { s with vm := s.vm.assign l key v hk } := by
  obtain ⟨fuel, limit⟩ := Machine.chainLimit_succ s.vm.generation
  unfold M.setEntry
  simp only [M.generation, Bind.bind, EStateM.bind, limit, Machine.store_entry plain fuel v hk]
  rfl

theorem Packages.loaded_modules (h : s.vm.modules = .table l) : (Packages.loaded : M σ Nat) s = .ok l s := by
  have entry : (s.vm.tables.get s.vm.registry).get (.str (bytesOf "_LOADED")) = .table l := h
  unfold Packages.loaded Packages.subtable
  simp only [M.vm, M.table, Bind.bind, EStateM.bind, entry]
  rfl

/-- A machine in which registering a module sets entries of two plain tables: the one of the loaded modules, and the
globals. -/
structure Vm.Takes (vm : Vm) (l : Nat) : Prop where
  modules : vm.modules = .table l
  plain : (vm.tables.get l).metatable = none
  bare : (vm.tables.get vm.globals).metatable = none

/-- Whether a machine is such, and has no module of a name. -/
def Vm.isReady (vm : Vm) (name : ByteArray) : Bool :=
  match vm.modules with
  | .table l => decide ((vm.tables.get l).metatable = none ∧ (vm.tables.get vm.globals).metatable = none ∧
      ((vm.tables.get l).get (.str name)).truthy = false)
  | _ => false

theorem Vm.takes_of_isReady {vm : Vm} (h : vm.isReady name = true) :
    ∃ l, vm.Takes l ∧ ((vm.tables.get l).get (.str name)).truthy = false := by
  unfold Vm.isReady at h
  split at h
  · next l modules =>
    obtain ⟨plain, bare, new⟩ := of_decide_eq_true h
    exact ⟨l, ⟨modules, plain, bare⟩, new⟩
  · cases h

theorem Vm.Akin.takes {vm vm' : Vm} (h : vm.Akin vm') (k : vm.Takes l) : vm'.Takes l where
  modules := by
    unfold Vm.modules
    rw [h.tables, h.registry]
    exact k.modules
  plain := h.tables ▸ k.plain
  bare := by
    rw [h.tables, h.globals]
    exact k.bare

/-- A machine in which what a loader gave is the module and the global of a name. -/
def Vm.registers (vm : Vm) (l : Nat) (name : ByteArray) (v : Value) : Vm :=
  (vm.assign l (.str name) v rfl).assign vm.globals (.str name) v rfl

/-- What an entry is after that: only the two entries of the name have changed. -/
theorem Vm.entry_registers (vm : Vm) (l : Nat) (name : ByteArray) (v : Value) (b : Nat) (j : Key) :
    ((vm.registers l name v).tables.get b).get j =
      if (b = l ∨ b = vm.globals) ∧ j = .str name then v else (vm.tables.get b).get j := by
  let first : Vm := vm.assign l (.str name) v rfl
  have inner := Vm.Writes.assign (p := fun _ => False) vm l v (k := .str name) rfl
  have outer := Vm.Writes.assign (p := fun _ => False) first vm.globals v (k := .str name) rfl
  have spared (vm : Vm) : ¬ vm.Exempt (fun _ => False) b j := fun h => h.2.choose_spec.2
  by_cases global : b = vm.globals ∧ j = .str name
  · rw [if_pos ⟨.inr global.1, global.2⟩, global.1, global.2]
    exact outer.entry
  · rw [Vm.registers, outer.others b j global (spared first)]
    by_cases loaded : b = l ∧ j = .str name
    · rw [if_pos ⟨.inl loaded.1, loaded.2⟩, loaded.1, loaded.2]
      exact inner.entry
    · rw [inner.others b j loaded (spared vm), if_neg]
      rintro ⟨rfl | rfl, same⟩
      · exact loaded ⟨rfl, same⟩
      · exact global ⟨rfl, same⟩

theorem Vm.Akin.registers {vm vm' : Vm} (h : vm.Akin vm') (l : Nat) (name : ByteArray) (v : Value) :
    (vm.registers l name v).Akin (vm'.registers l name v) := by
  unfold Vm.registers
  rw [h.globals]
  exact (h.assign _ _ _ _).assign _ _ _ _

/-- The same, if it is registered at all. -/
def Vm.registered (vm : Vm) (registers : Bool) (l : Nat) (name : ByteArray) (v : Value) : Vm :=
  if registers then vm.registers l name v else vm

theorem Vm.Akin.registered {vm vm' : Vm} (h : vm.Akin vm') (registers : Bool) (l : Nat) (name : ByteArray) (v : Value) :
    (vm.registered registers l name v).Akin (vm'.registered registers l name v) := by
  cases registers with
  | true => exact h.registers l name v
  | false => exact h

theorem Vm.entry_registered (vm : Vm) (registers : Bool) (l : Nat) (name : ByteArray) (v : Value) (b : Nat) (j : Key) :
    ((vm.registered registers l name v).tables.get b).get j =
      if registers = true ∧ (b = l ∨ b = vm.globals) ∧ j = .str name then v else (vm.tables.get b).get j := by
  cases registers with
  | true =>
    simp only [true_and]
    exact vm.entry_registers l name v b j
  | false => rw [if_neg (fun h => Bool.false_ne_true h.1), Vm.registered, if_neg Bool.false_ne_true]

/-- Requiring a module that is not loaded calls what opens it with its name, and registers the first thing it gives. -/
theorem Stack.require_runs (services : Services σ) (opening : Value) (takes : s.vm.Takes l)
    (new : s.vm.generation.since .v53 = true → ((s.vm.tables.get l).get (.str name)).truthy = false)
    (called : services.call opening [.str name] { s with vm := { s.vm with running := 0 } } = .ok vs s₁)
    (takes₁ : s₁.vm.Takes l) :
    ∃ vm, Stack.require services 0 name opening true s = .ok () { s₁ with vm } ∧ (s₁.vm.registers l name (first vs)).Akin vm := by
  let s₀ : Sys σ := { s with vm := { s.vm with running := 0 } }
  let module_ : Vm := s₁.vm.assign l (.str name) (first vs) rfl
  have known : ∃ u : Value, u.truthy = false ∧ ∀ next : Value → M σ Unit,
      (if s.vm.generation.since .v53 = true then M.getEntry services (.table l) (.str name) >>= next
        else (Pure.pure Value.nil : M σ Value) >>= next) s₀ = next u s₀ := by
    by_cases since : s.vm.generation.since .v53 = true
    · refine ⟨_, new since, fun next => ?_⟩
      rw [if_pos since]
      exact M.bind_done (M.getEntry_plain (s := s₀) services takes.plain (.str name))
    · exact ⟨.nil, rfl, fun next => by rw [if_neg since]; rfl⟩
  obtain ⟨u, absent, known⟩ := known
  have stored := M.setEntry_plain (s := s₁) services takes₁.plain (.str name) (first vs) rfl
  have bare' : (module_.tables.get s₁.vm.globals).metatable = none := ((Vm.Writes.assign (p := fun _ => False) s₁.vm l (first vs) (k := .str name) rfl).metatable _).trans takes₁.bare
  have global := M.setEntry_plain (s := { s₁ with vm := module_.pushed 0 (first vs) }) services bare' (.str name) (first vs) rfl
  unfold Stack.require
  refine Stack.onThread_reaches { s₁ with vm := (module_.pushed 0 (first vs)).assign s₁.vm.globals (.str name) (first vs) rfl } ?_
    fun vm akin => Vm.Akin.trans ?_ akin
  · refine (M.bind_done (s := s₀) rfl).trans ?_
    refine (M.bind_done (Packages.loaded_modules (s := s₀) takes.modules)).trans ?_
    refine (known _).trans ?_
    dsimp only
    rw [absent, if_neg Bool.false_ne_true]
    refine (M.bind_done called).trans ?_
    refine (M.bind_done (Packages.loaded_modules takes₁.modules)).trans ?_
    refine (M.bind_done stored).trans ?_
    exact global
  · exact ((Vm.Akin.refl module_).course _ _ _).assign _ _ _ _

end LuaHost.Lua
