import LuaHost.Proofs.Routes.Pairs

set_option autoImplicit false

/-!
# States that are made and handed over in pairs

A state that is made gets a registry and a reporter that are new; so does a state that is left, while the state
that takes its machine gets its registry and its reporter.
-/

namespace LuaHost.Host

open Lua (Generation)

variable {g : Generation} {w w₁ w' : World} {id other : Nat}

/-! ## Making -/

/-- A world with one more state is paired if the reporter of the new one is new. -/
theorem World.Paired.join (h : w.Paired) {reporter : Nat} (fresh : ∀ id, id < w.states.size → (w.states.get id).reporter ≠ reporter)
    (machine : Option Nat) (isOwner : Bool) (config : Config) (runtime : Nat) :
    (w.join machine isOwner config runtime reporter).Paired := by
  let u := w.join machine isOwner config runtime reporter
  have size : u.states.size = w.states.size + 1 := Pool.size_add _ _
  have self : u.states.get w.states.size = ⟨machine, isOwner, config, runtime, reporter, w.registries.size⟩ := Pool.get_add_self _ _
  have others (n : Nat) (hn : n < w.states.size) : u.states.get n = w.states.get n := Pool.get_add_ne _ (Nat.ne_of_lt hn) _
  have made : u.registries.get w.registries.size = ⟨runtime, machine, reporter, []⟩ := Pool.get_add_self _ _
  have kept (n : Nat) (hn : n < w.states.size) : u.registries.get (w.states.get n).registry = w.registries.get (w.states.get n).registry :=
    Pool.get_add_ne _ (Nat.ne_of_lt (h.made n hn)) _
  have lt_or_new (n : Nat) (hn : n < u.states.size) : n < w.states.size ∨ n = w.states.size :=
    Nat.lt_or_eq_of_le (Nat.le_of_lt_succ (Nat.lt_of_lt_of_eq hn size))
  refine ⟨fun n hn => ?_, fun n hn => ?_, fun n hn => ?_, fun i j hi hj e => ?_, fun i j hi hj e => ?_⟩
  · obtain lt | rfl := lt_or_new n hn
    · rw [others n lt]
      exact Nat.lt_of_lt_of_eq (Nat.lt_succ_of_lt (h.made n lt)) (Pool.size_add _ _).symm
    · rw [self]
      exact Nat.lt_of_lt_of_eq (Nat.lt_succ_self _) (Pool.size_add _ _).symm
  · obtain lt | rfl := lt_or_new n hn
    · rw [others n lt, kept n lt]
      exact h.told n lt
    · rw [self, made]
  · unfold World.machineOf
    obtain lt | rfl := lt_or_new n hn
    · rw [others n lt, kept n lt]
      exact h.held n lt
    · rw [self, made]
  · obtain li | rfl := lt_or_new i hi
    · obtain lj | rfl := lt_or_new j hj
      · rw [others i li, others j lj] at e
        exact h.registries i j li lj e
      · rw [others i li, self] at e
        exact absurd e (Nat.ne_of_lt (h.made i li))
    · obtain lj | rfl := lt_or_new j hj
      · rw [others j lj, self] at e
        exact absurd e.symm (Nat.ne_of_lt (h.made j lj))
      · rfl
  · obtain li | rfl := lt_or_new i hi
    · obtain lj | rfl := lt_or_new j hj
      · rw [others i li, others j lj] at e
        exact h.reporters i j li lj e
      · rw [others i li, self] at e
        exact absurd e (fresh i li)
    · obtain lj | rfl := lt_or_new j hj
      · rw [others j lj, self] at e
        exact absurd e.symm (fresh j lj)
      · rfl

/-- What tells a reporter goes on telling it when registries and states are added and states change. -/
theorem World.remembers_add {r : Registry} (states : w.states.size ≤ w'.states.size) (registries : w'.registries = w.registries.add r)
    (foreigns : w'.foreigns = w.foreigns) : w.Remembers w' :=
  .of_eq states (by rw [registries, Pool.size_add]; exact Nat.le_succ _)
    (fun _ hr => by rw [registries, Pool.get_add_ne _ (Nat.ne_of_lt hr)]) foreigns

theorem World.remembers_join (w : World) (machine : Option Nat) (isOwner : Bool) (config : Config) (runtime reporter : Nat) :
    w.Remembers (w.join machine isOwner config runtime reporter) :=
  remembers_add (Nat.le_of_lt (Nat.lt_of_lt_of_eq (Nat.lt_succ_self _) (Pool.size_add _ _).symm)) rfl rfl

theorem Brings.steady {origin : State.Origin} {machine : Option Nat} (h : Brings g w origin w₁ machine) : w.Steady w₁ := by
  cases h with
  | attached _ h => exact h.steady
  | @born w₀ _ _ first h =>
    have born : w₀.Steady (w₀.bear g) := .of_eq rfl rfl rfl
    exact (first.steady.trans born).trans h.steady

/-! ## Handing over -/

/-- States keep their pairs when one is left, with a registry and a reporter that are new, and each other one has the pair
of a state of before. -/
theorem World.Paired.reseat (h : w.Paired) (heard : ∀ n, n < w.states.size → (w.states.get n).reporter < w.reporters.size)
    {source runtime : Nat} (registries : w'.registries = w.registries.add ⟨runtime, none, w.reporters.size, []⟩)
    (left : w'.states.get source = w.vacated source) (before : Nat → Nat)
    (made : ∀ n, n < w'.states.size → n ≠ source → before n < w.states.size)
    (same : ∀ n, n < w'.states.size → n ≠ source → w'.states.get n = w.states.get (before n))
    (apart : ∀ i j, i < w'.states.size → j < w'.states.size → i ≠ source → j ≠ source → before i = before j → i = j) : w'.Paired := by
  have new : w'.registries.get w.registries.size = ⟨runtime, none, w.reporters.size, []⟩ := by
    rw [registries, Pool.get_add_self]
  have kept (n : Nat) (hn : n < w.states.size) : w'.registries.get (w.states.get n).registry = w.registries.get (w.states.get n).registry := by
    rw [registries]
    exact Pool.get_add_ne _ (Nat.ne_of_lt (h.made n hn)) _
  have size : w'.registries.size = w.registries.size + 1 := by rw [registries, Pool.size_add]
  have registry : (w'.states.get source).registry = w.registries.size := by rw [left]; rfl
  have reporter : (w'.states.get source).reporter = w.reporters.size := by rw [left]; rfl
  refine ⟨fun n hn => ?_, fun n hn => ?_, fun n hn => ?_, fun i j hi hj e => ?_, fun i j hi hj e => ?_⟩
  · by_cases hs : n = source
    · rw [hs, registry, size]
      exact Nat.lt_succ_self _
    · rw [same n hn hs, size]
      exact Nat.lt_succ_of_lt (h.made _ (made n hn hs))
  · by_cases hs : n = source
    · rw [hs, registry, reporter, new]
    · rw [same n hn hs, kept _ (made n hn hs)]
      exact h.told _ (made n hn hs)
  · unfold World.machineOf
    by_cases hs : n = source
    · rw [hs, registry, new, left]
      rfl
    · rw [same n hn hs, kept _ (made n hn hs)]
      exact h.held _ (made n hn hs)
  · by_cases his : i = source
    · by_cases hjs : j = source
      · rw [his, hjs]
      · rw [his, registry, same j hj hjs] at e
        exact absurd e.symm (Nat.ne_of_lt (h.made _ (made j hj hjs)))
    · by_cases hjs : j = source
      · rw [hjs, registry, same i hi his] at e
        exact absurd e (Nat.ne_of_lt (h.made _ (made i hi his)))
      · rw [same i hi his, same j hj hjs] at e
        exact apart i j hi hj his hjs (h.registries _ _ (made i hi his) (made j hj hjs) e)
  · by_cases his : i = source
    · by_cases hjs : j = source
      · rw [his, hjs]
      · rw [his, reporter, same j hj hjs] at e
        exact absurd e.symm (Nat.ne_of_lt (heard _ (made j hj hjs)))
    · by_cases hjs : j = source
      · rw [hjs, reporter, same i hi his] at e
        exact absurd e (Nat.ne_of_lt (heard _ (made i hi his)))
      · rw [same i hi his, same j hj hjs] at e
        exact apart i j hi hj his hjs (h.reporters _ _ (made i hi his) (made j hj hjs) e)

theorem World.remembers_moved (w : World) (hid : id < w.states.size) : w.Remembers (w.moved id) :=
  World.remembers_add (Nat.le_of_lt (Nat.lt_of_lt_of_eq (Nat.lt_succ_self _) (w.size_moved hid).symm)) rfl rfl

theorem World.remembers_taken (w : World) (hid : id < w.states.size) (ho : other < w.states.size) : w.Remembers (w.taken id other) :=
  World.remembers_add (Nat.le_of_eq (w.size_taken hid ho).symm) rfl rfl

variable (h : w.Paired) (heard : ∀ n, n < w.states.size → (w.states.get n).reporter < w.reporters.size)

include h heard

theorem World.Paired.moved (hid : id < w.states.size) : (w.moved id).Paired := by
  have size := w.size_moved hid
  have lt_or_new (n : Nat) (hn : n < (w.moved id).states.size) : n < w.states.size ∨ n = w.states.size :=
    Nat.lt_or_eq_of_le (Nat.le_of_lt_succ (Nat.lt_of_lt_of_eq hn size))
  refine h.reseat heard rfl (Pool.get_put_self _ _ _) (fun n => if n = w.states.size then id else n) (fun n hn hs => ?_)
    (fun n hn hs => ?_) fun i j hi hj his hjs e => ?_
  · obtain lt | rfl := lt_or_new n hn
    · rw [if_neg (Nat.ne_of_lt lt)]
      exact lt
    · rw [if_pos rfl]
      exact hid
  · refine (Pool.get_put_ne _ hs _).trans ?_
    obtain lt | rfl := lt_or_new n hn
    · rw [if_neg (Nat.ne_of_lt lt), Pool.get_add_ne _ (Nat.ne_of_lt lt)]
    · rw [if_pos rfl, Pool.get_add_self]
  · obtain li | rfl := lt_or_new i hi
    · obtain lj | rfl := lt_or_new j hj
      · rwa [if_neg (Nat.ne_of_lt li), if_neg (Nat.ne_of_lt lj)] at e
      · rw [if_neg (Nat.ne_of_lt li), if_pos rfl] at e
        exact absurd e his
    · obtain lj | rfl := lt_or_new j hj
      · rw [if_pos rfl, if_neg (Nat.ne_of_lt lj)] at e
        exact absurd e.symm hjs
      · rfl

theorem World.Paired.taken (hid : id < w.states.size) (ho : other < w.states.size) : (w.taken id other).Paired := by
  have size := w.size_taken hid ho
  refine h.reseat heard rfl (Pool.get_put_self _ _ _) (fun n => if n = id then other else n) (fun n hn hs => ?_)
    (fun n hn hs => ?_) fun i j hi hj his hjs e => ?_
  · split
    · exact ho
    · exact size ▸ hn
  · refine (Pool.get_put_ne _ hs _).trans ?_
    split
    · next e => rw [e, Pool.get_put_self]
    · next ne => exact Pool.get_put_ne _ ne _
  · split at e
    · next ei =>
      split at e
      · next ej => exact ei.trans ej.symm
      · exact absurd e.symm hjs
    · split at e
      · exact absurd e his
      · exact e

end LuaHost.Host
