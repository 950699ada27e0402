import LuaHost.Host.Selector

set_option autoImplicit false

/-!
# The accessor chunks

Every step of a selector runs one of two small chunks. On a table without metatable the one gives the
entry and the other sets it; neither calls anything.
-/

namespace LuaHost.Lua

/-- What the index chunk does with its arguments, up to lines and names. -/
def indexing (n₀ n₁ : ByteArray) (l₀ l₁ : Nat) : Stat := .ret [.index (.localVar 0 n₀) (.localVar 1 n₁) l₀] l₁

/-- What the assign chunk does with its arguments, up to lines and names. -/
def assigning (n₀ n₁ n₂ : ByteArray) (l₀ l₁ : Nat) : Stat :=
  .assign [.index (.localVar 0 n₀) (.localVar 1 n₁) l₀] [.localVar 2 n₂] l₁

/-- A chunk that names so many arguments and then makes one statement. -/
def Func.Names (count : Nat) (last : Stat) (f : Func) : Prop :=
  ∃ captures line l, f = .mk 0 true captures [.localDecl count [.vararg] l, last] line

theorem badKey?_of_key {v : Value} {k : Key} (h : v.key? = some k) : M.badKey? v = none := by
  cases v with
  | nil => cases h
  | float x =>
    refine if_neg fun nan => ?_
    rw [Value.key?, if_pos nan] at h
    cases h
  | _ => rfl

theorem badKey?_of_noKey {v : Value} (h : v.key? = none) : ∃ message, M.badKey? v = some message := by
  cases v with
  | nil => exact ⟨_, rfl⟩
  | float x =>
    refine ⟨_, if_pos ?_⟩
    by_cases nan : x.isNaN
    · exact nan
    · rw [Value.key?, if_neg nan] at h
      split at h <;> cases h
  | _ => cases h

/-- A machine after an entry of a table has been set. -/
def Vm.assign (vm : Vm) (a : Nat) (key v : Value) {k : Key} (h : key.key? = some k) : Vm :=
  { vm with
    tables := vm.tables.modify a fun t => t.set k (key.asShown vm.generation) v ((key.key?_asShown vm.generation).trans h)
    breached := vm.breached || (a == vm.registry && k.isInt) }

namespace Machine

variable {σ : Type} {natives : Natives σ} {n k : Nat} {m m' m'' : Machine} {s s' s'' : Sys σ}

theorem run_next {fuel : Nat} (h : step natives (services (run natives fuel)) m s = .ok (.inl m') s') :
    run natives (fuel + 1) m s = run natives fuel m' s' := by
  rw [run]
  simp only [Bind.bind, EStateM.bind, h]

theorem run_fails {fuel : Nat} {x : Signal} (h : step natives (services (run natives fuel)) m s = .error x s') :
    run natives (fuel + 1) m s = .error x s' := by
  rw [run]
  simp only [Bind.bind, EStateM.bind, h]

/-- Steps that a machine makes without calling any function. -/
inductive Reaches (natives : Natives σ) : Nat → Machine → Sys σ → Machine → Sys σ → Prop
  | refl (m : Machine) (s : Sys σ) : Reaches natives 0 m s m s
  | next {n : Nat} {m m' m'' : Machine} {s s' s'' : Sys σ} (first : ∀ services, step natives services m s = .ok (.inl m') s')
    (rest : Reaches natives n m' s' m'' s'') : Reaches natives (n + 1) m s m'' s''

theorem Reaches.run (h : Reaches natives n m s m' s') (fuel : Nat) :
    run natives (fuel + n) m s = run natives fuel m' s' := by
  induction h with
  | refl => rfl
  | next first _ ih =>
    rw [← ih]
    change (step natives _ _ >>= _ : M σ Outcome) _ = _
    simp only [Bind.bind, EStateM.bind, first]
    rfl

theorem Reaches.fails {e : Signal} (h : Reaches natives n m s m' s') (last : ∀ services, step natives services m' s' = .error e s'')
    (fuel : Nat) : Machine.run natives (fuel + 1 + n) m s = .error e s'' := by
  rw [h.run]
  change (step natives _ _ >>= _ : M σ Outcome) _ = _
  simp only [Bind.bind, EStateM.bind, last]

theorem Reaches.trans (h : Reaches natives n m s m' s') (h' : Reaches natives k m' s' m'' s'') :
    Reaches natives (k + n) m s m'' s'' := by
  induction h with
  | refl => exact h'
  | next first _ ih => exact .next first (ih h')

/-! ## Locals -/

/-- The locals of a function have these values, in order. -/
def Holds (a : Activation) (cells : Pool Value) (vs : List Value) : Prop :=
  a.locals.size = vs.length ∧ ∀ i v, vs[i]? = some v → a.locals.getD i 0 < cells.size ∧ cells.get (a.locals.getD i 0) = v

/-- One local more. -/
theorem Holds.push {a : Activation} {cells : Pool Value} {vs : List Value} (h : Holds a cells vs) (v : Value) :
    Holds { a with locals := a.locals.push cells.size } (cells.add v) (vs ++ [v]) := by
  obtain ⟨size, held⟩ := h
  refine ⟨by simp [size], fun i u hu => ?_⟩
  rw [Pool.size_add]
  by_cases last : i = vs.length
  · have here : (a.locals.push cells.size).getD i 0 = cells.size := by simp [last, ← size]
    have same : v = u := by simpa [last] using hu
    rw [here, Pool.get_add_self]
    exact ⟨Nat.lt_succ_self _, same⟩
  · have before : i < vs.length := by
      have := (List.getElem?_eq_some_iff.mp hu).1
      rw [List.length_append, List.length_singleton] at this
      omega
    have old : vs[i]? = some u := by rwa [List.getElem?_append_left before] at hu
    obtain ⟨lt, value⟩ := held i u old
    have here : (a.locals.push cells.size).getD i 0 = a.locals.getD i 0 := by
      simp [Array.getD_eq_getD_getElem?, Array.getElem?_push, size, last]
    rw [here, Pool.get_add_ne _ (Nat.ne_of_lt lt)]
    exact ⟨Nat.lt_succ_of_lt lt, value⟩

/-- Values become locals. -/
theorem bind_holds {a : Activation} {vs : List Value} (us : List Value) (h : Holds a s.vm.cells vs) :
    ∃ a' cells, bind a us s = .ok a' { s with vm := { s.vm with cells } } ∧ Holds a' cells (vs ++ us) ∧
      a'.varargs = a.varargs := by
  induction us generalizing a s vs with
  | nil => exact ⟨a, s.vm.cells, rfl, by rwa [List.append_nil], rfl⟩
  | cons u us ih =>
    obtain ⟨a', cells, run, held, same⟩ := ih (s := { s with vm := { s.vm with cells := s.vm.cells.add u } }) (h.push u)
    exact ⟨a', cells, run, by rwa [List.append_assoc] at held, same⟩

/-! ## Steps -/

section Steps

variable (natives : Natives σ) (t : Nat) (a base : Activation) (konts : List Kont) {cells : Array Nat} {chunk : ByteArray}

/-- A function of a chunk, called from outside. -/
theorem step_enter {address line : Nat} {captures : List Capture} {body : List Stat} (args : List Value)
    (hc : s.vm.closures.get address = .lua (.mk 0 true captures body line) cells chunk) (hd : base.depth = 0)
    (services : Services σ) :
    step natives services ⟨t, a, .apply (.closure address) args (.native base), konts⟩ s =
      .ok (.inl ⟨t, ⟨cells, #[], args, chunk, 1, base.natives⟩, .exec body,
        .blockEnd 0 body :: .callReturn (.native base) :: konts⟩) s := by
  have shallow : ¬ callLimit s.vm.generation ≤ base.depth := by
    rw [hd]
    cases s.vm.generation <;> decide
  have event : isEvent (.native base) = false := rfl
  unfold step stepApply
  simp only [M.closure, Bind.bind, EStateM.bind, hc]
  unfold enterLua
  simp only [M.generation, Bind.bind, EStateM.bind, Caller.activation, shallow, event, Bool.false_eq_true, if_false,
    Nat.lt_irrefl, decide_false, Bool.and_false]
  rw [hd]
  rfl

/-- The declaration with which both chunks begin: their arguments become locals. -/
theorem reaches_locals {a' : Activation} {pool : Pool Value} {count : Nat}
    (run : bind a (adjust count a.varargs) s = .ok a' { s with vm := { s.vm with cells := pool } }) (line : Nat) (last : Stat) :
    Reaches natives 6 ⟨t, a, .exec [.localDecl count [.vararg] line, last], konts⟩ s
      ⟨t, a', .exec [last], konts⟩ { s with vm := { s.vm with cells := pool } } := by
  have binds (services : Services σ) :
      step natives services ⟨t, a, .values a.varargs, .bindLocals count :: .statements [last] :: konts⟩ s =
        .ok (.inl ⟨t, a', .exec [], .statements [last] :: konts⟩) { s with vm := { s.vm with cells := pool } } := by
    change (bind a (adjust count a.varargs) >>= _ : M σ _) s = _
    simp only [Bind.bind, EStateM.bind, run]
    rfl
  refine .next (fun _ => rfl) ?_
  refine .next (fun _ => rfl) ?_
  refine .next (fun _ => rfl) ?_
  refine .next (fun _ => rfl) ?_
  refine .next binds ?_
  exact .next (fun _ => rfl) (.refl _ _)

/-- A chunk that is called comes to its last statement with its arguments as locals. -/
theorem reaches_last {count address : Nat} {last : Stat} {f : Func} (hf : f.Names count last) (args : List Value)
    (hc : s.vm.closures.get address = .lua f cells chunk) (hd : base.depth = 0) :
    ∃ a' pool, Holds a' pool (adjust count args) ∧
      bind ⟨cells, #[], args, chunk, 1, base.natives⟩ (adjust count args) s = .ok a' { s with vm := { s.vm with cells := pool } } ∧
      Reaches natives 7 ⟨t, a, .apply (.closure address) args (.native base), konts⟩ s
        ⟨t, a', .exec [last], .blockEnd 0 f.body :: .callReturn (.native base) :: konts⟩
        { s with vm := { s.vm with cells := pool } } := by
  obtain ⟨captures, line, l, rfl⟩ := hf
  let entered : Activation := ⟨cells, #[], args, chunk, 1, base.natives⟩
  obtain ⟨a', pool, run, held, -⟩ := bind_holds (a := entered) (s := s) (adjust count args) (⟨rfl, nofun⟩ : Holds entered s.vm.cells [])
  have locals := reaches_locals natives t entered
    (.blockEnd 0 [.localDecl count [.vararg] l, last] :: .callReturn (.native base) :: konts) (s := s) run l last
  exact ⟨a', pool, held, run, .next (step_enter natives t a base konts args hc hd) locals⟩

end Steps

/-! ## Indexing -/

/-- The index chunk comes to the lookup with both its arguments evaluated. -/
theorem reaches_keyed (natives : Natives σ) (t : Nat) {a : Activation} (konts : List Kont) {obj key : Value}
    (held : Holds a s.vm.cells [obj, key]) (n₀ n₁ : ByteArray) (l₀ l₁ : Nat) :
    Reaches natives 6 ⟨t, a, .exec [indexing n₀ n₁ l₀ l₁], konts⟩ s
      ⟨t, a, .values [key], .indexApply obj (.localVar 0 n₀) (.localVar 1 n₁) l₀ :: .evalLast [] false :: .returnAll :: konts⟩ s := by
  obtain ⟨-, table⟩ := held.2 0 _ rfl
  obtain ⟨-, index⟩ := held.2 1 _ rfl
  refine .next (fun _ => rfl) ?_
  refine .next (fun _ => rfl) ?_
  refine .next (fun _ => rfl) ?_
  refine .next (fun _ => rfl) ?_
  rw [table]
  refine .next (fun _ => rfl) ?_
  refine .next (fun _ => rfl) ?_
  rw [index]
  exact .refl _ _

theorem chainLimit_succ (g : Generation) : ∃ fuel, M.chainLimit g = fuel + 1 := by
  cases g <;> exact ⟨_, rfl⟩

/-! ## Entries of tables without metatable -/

section Plain

variable {b : Nat} {key : Value} (plain : (s.vm.tables.get b).metatable = none)

include plain

theorem access_entry (fuel : Nat) (key : Value) :
    M.access (fuel + 1) (.table b) key s = .ok (.value ((s.vm.tables.get b).getValue key)) s := by
  unfold M.access
  simp only [M.table, Bind.bind, EStateM.bind, plain]
  cases (s.vm.tables.get b).getValue key <;> rfl

theorem store_entry (fuel : Nat) (v : Value) {k : Key} (hk : key.key? = some k) :
    M.store (fuel + 1) (.table b) key v s = .ok .done { s with vm := s.vm.assign b key v hk } := by
  have set : (M.rawSet b key v : M σ Unit) = M.modifyVm fun vm => vm.assign b key v hk := by
    unfold M.rawSet
    split
    · next k' h =>
      cases hk.symm.trans h
      rfl
    · next h => cases hk.symm.trans h
  unfold M.store
  simp only [M.table, Bind.bind, EStateM.bind, plain]
  unfold M.storeDirect
  rw [badKey?_of_key hk]
  simp only [Bind.bind, EStateM.bind, set]
  rfl

end Plain

section Indexing

variable (natives : Natives σ) (t : Nat) (a base : Activation) (konts : List Kont) {b : Nat} {key : Value} 
  (plain : (s.vm.tables.get b).metatable = none)

include plain

/-- Indexing a table without metatable gives its entry. -/
theorem step_index (e e' : Expr) (line : Nat) (services : Services σ) :
    step natives services ⟨t, a, .values [key], .indexApply (.table b) e e' line :: konts⟩ s =
      .ok (.inl ⟨t, a, .values [(s.vm.tables.get b).getValue key], konts⟩) s := by
  obtain ⟨fuel, limit⟩ := chainLimit_succ s.vm.generation
  change indexWith ⟨t, a, .values [key], konts⟩ (.table b) key line (e.heldOrigin? s.vm.generation) [] s = _
  unfold indexWith
  simp only [M.generation, Bind.bind, EStateM.bind, limit, access_entry plain]
  rfl

theorem reaches_index (held : Holds a s.vm.cells [.table b, key]) (n₀ n₁ : ByteArray) (l₀ l₁ : Nat) (body : List Stat) :
    Reaches natives 10 ⟨t, a, .exec [indexing n₀ n₁ l₀ l₁], .blockEnd 0 body :: .callReturn (.native base) :: konts⟩ s
      ⟨t, base, .values [(s.vm.tables.get b).getValue key], konts⟩ s := by
  refine (reaches_keyed natives t _ held n₀ n₁ l₀ l₁).trans ?_
  refine .next (step_index natives t a _ plain _ _ _) ?_
  refine .next (fun _ => rfl) ?_
  refine .next (fun _ => rfl) ?_
  exact .next (fun _ => rfl) (.refl _ _)

/-- What the index chunk does with a table without metatable and a key. -/
theorem run_index {address : Nat} {f : Func} {cells : Array Nat} {chunk : ByteArray} {n₀ n₁ : ByteArray} {l₀ l₁ : Nat}
    (hf : f.Names 2 (indexing n₀ n₁ l₀ l₁)) (hc : s.vm.closures.get address = .lua f cells chunk) (hd : base.depth = 0)
    (stack : Array Value) (saved : Option Value) (fuel : Nat) :
    ∃ pool, run natives (fuel + 18) ⟨t, base, .apply (.closure address) [.table b, key] (.native base),
        .nativeStart stack saved :: konts⟩ s =
      .ok (.returned [(s.vm.tables.get b).getValue key]) { s with vm := { s.vm with cells := pool } } := by
  obtain ⟨a', pool, held, -, called⟩ := reaches_last natives t base base (.nativeStart stack saved :: konts)
    hf [.table b, key] hc hd
  have indexes := reaches_index natives t a' base (.nativeStart stack saved :: konts)
    (s := { s with vm := { s.vm with cells := pool } }) plain held n₀ n₁ l₀ l₁ f.body
  exact ⟨pool, (called.trans indexes).run (fuel + 1)⟩

end Indexing

/-! ## Assigning -/

section Assigning

variable (natives : Natives σ) (t : Nat) (a base : Activation) (konts : List Kont) {b : Nat} {key v : Value} {k : Key}
  (plain : (s.vm.tables.get b).metatable = none) (hk : key.key? = some k)

/-- The chunk comes to the store with the table, the key and the value evaluated. -/
theorem reaches_store (held : Holds a s.vm.cells [.table b, key, v]) (n₀ n₁ n₂ : ByteArray) (l₀ l₁ : Nat) :
    Reaches natives 10 ⟨t, a, .exec [assigning n₀ n₁ n₂ l₀ l₁], konts⟩ s
      ⟨t, a, .values [.table b, key, v], .assignBuild [.index (.localVar 0 n₀) (.localVar 1 n₁) l₀] 1 l₁ :: konts⟩ s := by
  obtain ⟨-, table⟩ := held.2 0 _ rfl
  obtain ⟨-, index⟩ := held.2 1 _ rfl
  obtain ⟨-, value⟩ := held.2 2 _ rfl
  refine .next (fun _ => rfl) ?_
  refine .next (fun _ => rfl) ?_
  refine .next (fun _ => rfl) ?_
  rw [table]
  refine .next (fun _ => rfl) ?_
  refine .next (fun _ => rfl) ?_
  refine .next (fun _ => rfl) ?_
  rw [index]
  refine .next (fun _ => rfl) ?_
  refine .next (fun _ => rfl) ?_
  refine .next (fun _ => rfl) ?_
  rw [value]
  exact .next (fun _ => rfl) (.refl _ _)

include plain

/-- Setting an entry of a table without metatable. -/
theorem storeWith_entry (line : Nat) (origin : Option Origin) :
    storeWith ⟨t, a, .values [.table b, key, v], konts⟩ (.table b) key v line origin [.stores [] line] s =
      .ok (.inl ⟨t, a, .values [], .stores [] line :: konts⟩) { s with vm := s.vm.assign b key v hk } := by
  obtain ⟨fuel, limit⟩ := chainLimit_succ s.vm.generation
  unfold storeWith
  simp only [M.generation, Bind.bind, EStateM.bind, limit, store_entry plain fuel v hk]
  rfl

theorem reaches_assign (held : Holds a s.vm.cells [.table b, key, v]) (n₀ n₁ n₂ : ByteArray) (l₀ l₁ : Nat) (body : List Stat) :
    Reaches natives 14 ⟨t, a, .exec [assigning n₀ n₁ n₂ l₀ l₁], .blockEnd 0 body :: .callReturn (.native base) :: konts⟩ s
      ⟨t, base, .values [], konts⟩ { s with vm := s.vm.assign b key v hk } := by
  refine (reaches_store natives t a _ held n₀ n₁ n₂ l₀ l₁).trans ?_
  refine .next (fun _ => storeWith_entry t a _ plain hk l₁ _) ?_
  refine .next (fun _ => rfl) ?_
  refine .next (fun _ => rfl) ?_
  exact .next (fun _ => rfl) (.refl _ _)

/-- What the assign chunk does with a table without metatable, a key and a value. -/
theorem run_assign {address : Nat} {f : Func} {cells : Array Nat} {chunk : ByteArray} {n₀ n₁ n₂ : ByteArray} {l₀ l₁ : Nat}
    (hf : f.Names 3 (assigning n₀ n₁ n₂ l₀ l₁)) (hc : s.vm.closures.get address = .lua f cells chunk) (hd : base.depth = 0)
    (stack : Array Value) (saved : Option Value) (fuel : Nat) :
    ∃ pool, run natives (fuel + 22) ⟨t, base, .apply (.closure address) [.table b, key, v] (.native base),
        .nativeStart stack saved :: konts⟩ s =
      .ok (.returned []) { s with vm := { s.vm with cells := pool }.assign b key v hk } := by
  obtain ⟨a', pool, held, -, called⟩ := reaches_last natives t base base (.nativeStart stack saved :: konts)
    hf [.table b, key, v] hc hd
  have assigns := reaches_assign natives t a' base (.nativeStart stack saved :: konts)
    (s := { s with vm := { s.vm with cells := pool } }) plain hk held n₀ n₁ n₂ l₀ l₁ f.body
  exact ⟨pool, (called.trans assigns).run (fuel + 1)⟩

omit hk

/-- Setting an entry under nil or NaN is an error. -/
theorem storeWith_badKey (hk : key.key? = none) (line : Nat) (origin : Option Origin) :
    ∃ message, storeWith ⟨t, a, .values [.table b, key, v], konts⟩ (.table b) key v line origin [.stores [] line] s =
      .ok (.inl ⟨t, a, .raise (.str message) .errRun, konts⟩) s := by
  obtain ⟨fuel, limit⟩ := chainLimit_succ s.vm.generation
  obtain ⟨message, bad⟩ := badKey?_of_noKey hk
  have store : M.store (fuel + 1) (.table b) key v s = .ok (.badKey message) s := by
    unfold M.store
    simp only [M.table, Bind.bind, EStateM.bind, plain]
    unfold M.storeDirect
    rw [bad]
    rfl
  refine ⟨ChunkName.place s.vm.generation a.chunk line ++ bytesOf message, ?_⟩
  unfold storeWith
  simp only [M.generation, Bind.bind, EStateM.bind, limit, store]
  rfl

/-- What the assign chunk does with a table without metatable and no key. -/
theorem run_assign_badKey (hk : key.key? = none) {address : Nat} {f : Func} {cells : Array Nat} {chunk : ByteArray}
    {n₀ n₁ n₂ : ByteArray} {l₀ l₁ : Nat} (hf : f.Names 3 (assigning n₀ n₁ n₂ l₀ l₁))
    (hc : s.vm.closures.get address = .lua f cells chunk) (hd : base.depth = 0)
    (quiet : (s.vm.threads.get t).handler = none) (stack : Array Value) (saved : Option Value) (fuel : Nat) :
    ∃ pool message, run natives (fuel + 20) ⟨t, base, .apply (.closure address) [.table b, key, v] (.native base),
        .nativeStart stack saved :: konts⟩ s =
      .error (.unwinding .errRun (.str message)) { s with vm := { s.vm with cells := pool } } := by
  obtain ⟨a', pool, held, -, called⟩ := reaches_last natives t base base (.nativeStart stack saved :: konts)
    hf [.table b, key, v] hc hd
  have stores := reaches_store natives t a' (.blockEnd 0 f.body :: .callReturn (.native base) :: .nativeStart stack saved :: konts)
    (s := { s with vm := { s.vm with cells := pool } }) held n₀ n₁ n₂ l₀ l₁
  obtain ⟨message, raises⟩ := storeWith_badKey t a' (.blockEnd 0 f.body :: .callReturn (.native base) ::
    .nativeStart stack saved :: konts) (s := { s with vm := { s.vm with cells := pool } }) (v := v) plain hk l₁
    ((Expr.localVar 0 n₀).heldOrigin? s.vm.generation)
  have unwinds (services : Services σ) : step natives services
      ⟨t, a', .raise (.str message) .errRun, .blockEnd 0 f.body :: .callReturn (.native base) :: .nativeStart stack saved :: konts⟩
      { s with vm := { s.vm with cells := pool } } =
        .ok (.inl ⟨t, a', .unwind (.str message) .errRun,
          .blockEnd 0 f.body :: .callReturn (.native base) :: .nativeStart stack saved :: konts⟩)
          { s with vm := { s.vm with cells := pool } } := by
    change stepRaise _ _ _ _ = _
    unfold stepRaise
    simp only [M.thread, Bind.bind, EStateM.bind, quiet]
    rfl
  have raised := (called.trans stores).trans (.next (fun _ => raises) (.next unwinds (.refl _ _)))
  exact ⟨pool, message, raised.fails (fun _ => rfl) fuel⟩

end Assigning

end Machine
end LuaHost.Lua

namespace LuaHost.Host

open Lua (Generation Tree.Fault Tree.ofSource Func indexing assigning)

/-! ## Compiling -/

/-- What is compiled of a text. -/
def sourceOf (t : Text) : ByteArray :=
  match encode t with
  | .ok bytes => upToNul bytes
  | .error _ => .empty

def indexes : Except Tree.Fault Func → Bool
  | .ok (.mk 0 true _ [.localDecl 2 [.vararg] _, .ret [.index (.localVar 0 _) (.localVar 1 _) _] _] _) => true
  | _ => false

def assigns : Except Tree.Fault Func → Bool
  | .ok (.mk 0 true _ [.localDecl 3 [.vararg] _,
      .assign [.index (.localVar 0 _) (.localVar 1 _) _] [.localVar 2 _] _] _) => true
  | _ => false

/-- The index chunk is what it should be in every generation. -/
theorem indexChunk_compiles (g : Generation) : ∃ f n₀ n₁ l₀ l₁,
    Tree.ofSource g (sourceOf Selector.indexChunk) = .ok f ∧ f.Names 2 (indexing n₀ n₁ l₀ l₁) := by
  have check : indexes (Tree.ofSource g (sourceOf Selector.indexChunk)) = true := by
    cases g <;> decide +kernel
  generalize Tree.ofSource g (sourceOf Selector.indexChunk) = r at check
  unfold indexes at check
  split at check
  · exact ⟨_, _, _, _, _, rfl, _, _, _, rfl⟩
  · cases check

/-- The assign chunk is what it should be in every generation. -/
theorem assignChunk_compiles (g : Generation) : ∃ f n₀ n₁ n₂ l₀ l₁,
    Tree.ofSource g (sourceOf Selector.assignChunk) = .ok f ∧ f.Names 3 (assigning n₀ n₁ n₂ l₀ l₁) := by
  have check : assigns (Tree.ofSource g (sourceOf Selector.assignChunk)) = true := by
    cases g <;> decide +kernel
  generalize Tree.ofSource g (sourceOf Selector.assignChunk) = r at check
  unfold assigns at check
  split at check
  · exact ⟨_, _, _, _, _, _, rfl, _, _, _, rfl⟩
  · cases check

end LuaHost.Host
