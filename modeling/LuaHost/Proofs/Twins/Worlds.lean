import LuaHost.Host.Trampoline

set_option autoImplicit false

/-!
# Twin worlds

Two worlds may differ only in the numbers that states, registries and reporters have in them: a machine
that was handed over is held by a state of another number, and what is made afterwards is numbered on from
there. A guise says how the numbers of the one world read in the other. Twins under a guise differ in
nothing that a machine or a function of the host can see.
-/

namespace LuaHost

namespace Pool

variable {α : Type} [Inhabited α]

theorem size_put_eq (p : Pool α) (n : Nat) (a : α) : (p.put n a).size = max p.size (n + 1) := by
  unfold put size
  split
  · next h =>
    rw [Array.size_setIfInBounds, Nat.max_eq_left h]
  · next h =>
    rw [Array.size_push, Array.size_append, Array.size_replicate]
    omega

/-! What holds of everything in a pool, the default included, still does when something is added or replaced. -/

variable {p : Pool α} {P : α → Prop}

theorem all_add (h : ∀ n, P (p.get n)) {a : α} (ha : P a) (n : Nat) : P ((p.add a).get n) := by
  by_cases hn : n = p.size
  · rw [hn, get_add_self]
    exact ha
  · rw [get_add_ne p hn]
    exact h n

theorem all_put (h : ∀ n, P (p.get n)) (m : Nat) {a : α} (ha : P a) (n : Nat) : P ((p.put m a).get n) := by
  by_cases hn : n = m
  · rw [hn, get_put_self]
    exact ha
  · rw [get_put_ne p hn]
    exact h n

theorem all_modify (h : ∀ n, P (p.get n)) (m : Nat) {f : α → α} (hf : P (f (p.get m))) (n : Nat) :
    P ((p.modify m f).get n) := by
  rw [modify_eq_put]
  exact all_put h m hf n

end Pool

/-- How the numbers of one pool read in another pool: from `start` on both count in step. -/
structure Renumbering where
  image : Nat → Nat
  start : Nat
  start' : Nat
  injective : ∀ {m n}, image m = image n → m = n
  early : ∀ n, n < start → image n < start'
  later : ∀ n, image (start + n) = start' + n

namespace Renumbering

variable {α : Type}

/-- Every number reads as itself. -/
def same : Renumbering := ⟨id, 0, 0, id, fun _ h => h, fun _ => rfl⟩

variable (ρ : Renumbering)

theorem image_of_le {n : Nat} (h : ρ.start ≤ n) : ρ.image n = ρ.start' + (n - ρ.start) := by
  have later := ρ.later (n - ρ.start)
  rwa [Nat.add_sub_cancel' h] at later

theorem image_succ {n : Nat} (h : ρ.start ≤ n) : ρ.image (n + 1) = ρ.image n + 1 := by
  rw [ρ.image_of_le h, ρ.image_of_le (Nat.le_succ_of_le h)]
  omega

theorem image_lt {m n : Nat} (h : ρ.start ≤ n) (hm : m < n) : ρ.image m < ρ.image n := by
  rw [ρ.image_of_le h]
  by_cases hs : m < ρ.start
  · exact Nat.lt_of_lt_of_le (ρ.early m hs) (Nat.le_add_right _ _)
  · rw [ρ.image_of_le (Nat.le_of_not_lt hs)]
    omega

/-- One pool holds what another one holds, under other numbers and as `f` reads it. -/
structure Carries [Inhabited α] (f : α → α) (p p' : Pool α) : Prop where
  start : ρ.start ≤ p.size
  size : p'.size = ρ.image p.size
  get : ∀ n, p'.get (ρ.image n) = f (p.get n)

namespace Carries

variable {ρ} [Inhabited α] {f : α → α} {p p' : Pool α}

theorem add (h : ρ.Carries f p p') (a : α) : ρ.Carries f (p.add a) (p'.add (f a)) where
  start := Nat.le_trans h.start (Nat.le_of_lt (Nat.lt_of_lt_of_eq (Nat.lt_succ_self _) (p.size_add a).symm))
  size := by rw [Pool.size_add, Pool.size_add, h.size, ρ.image_succ h.start]
  get n := by
    by_cases hn : n = p.size
    · rw [hn, ← h.size, Pool.get_add_self, Pool.get_add_self]
    · have hn' : ρ.image n ≠ p'.size := fun e => hn (ρ.injective (e.trans h.size))
      rw [Pool.get_add_ne _ hn, Pool.get_add_ne _ hn', h.get]

theorem put (h : ρ.Carries f p p') (n : Nat) (a : α) : ρ.Carries f (p.put n a) (p'.put (ρ.image n) (f a)) where
  start := Nat.le_trans h.start (p.size_le_size_put n a)
  size := by
    rw [Pool.size_put_eq, Pool.size_put_eq, h.size]
    cases Nat.lt_or_ge n p.size with
    | inl hn =>
      have lt := ρ.image_lt h.start hn
      rw [Nat.max_eq_left hn, Nat.max_eq_left lt]
    | inr hn =>
      have le : ρ.start ≤ n := Nat.le_trans h.start hn
      rw [Nat.max_eq_right (Nat.le_succ_of_le hn), ρ.image_succ le, Nat.max_eq_right]
      rw [ρ.image_of_le h.start, ρ.image_of_le le]
      omega
  get m := by
    by_cases hm : m = n
    · rw [hm, Pool.get_put_self, Pool.get_put_self]
    · rw [Pool.get_put_ne _ hm, Pool.get_put_ne _ fun e => hm (ρ.injective e), h.get]

theorem modify (h : ρ.Carries f p p') (n : Nat) {g g' : α → α} (hg : g' (f (p.get n)) = f (g (p.get n))) :
    ρ.Carries f (p.modify n g) (p'.modify (ρ.image n) g') := by
  rw [Pool.modify_eq_put, Pool.modify_eq_put, h.get, hg]
  exact h.put n _

/-- What no number leads to may change. -/
theorem aside (h : ρ.Carries f p p') {n : Nat} (hs : n < p'.size) (hn : ∀ m, ρ.image m ≠ n) (a : α) :
    ρ.Carries f p (p'.put n a) where
  start := h.start
  size := by rw [Pool.size_put _ hs, h.size]
  get m := by rw [Pool.get_put_ne _ (hn m), h.get]

theorem refl {p : Pool α} (h : ∀ n, f (p.get n) = p.get n) : Renumbering.same.Carries f p p :=
  ⟨Nat.zero_le _, rfl, fun n => (h n).symm⟩

end Carries
end Renumbering

namespace Host

/-- What a world knows by numbers. -/
structure Roll where
  registries : Pool Registry
  reporters : Pool Handler
  references : Pool Reference
  foreigns : Pool Foreign
  states : Pool State
  names : List (Text × Nat)
  stored : List (Text × Stored)

namespace World

def roll (w : World) : Roll := ⟨w.registries, w.reporters, w.references, w.foreigns, w.states, w.names, w.stored⟩

/-- A world without what it knows by numbers. -/
def rest (w : World) : World :=
  { w with
    registries := .empty
    reporters := .empty
    references := .empty
    foreigns := .empty
    states := .empty
    names := []
    stored := [] }

end World

namespace Roll

/-- What was made stays. -/
structure Grows (b r : Roll) : Prop where
  registries : b.registries.size ≤ r.registries.size
  reporters : b.reporters.size ≤ r.reporters.size
  states : b.states.size ≤ r.states.size

theorem Grows.refl (b : Roll) : b.Grows b := ⟨Nat.le_refl _, Nat.le_refl _, Nat.le_refl _⟩

theorem Grows.trans {b c r : Roll} (h : b.Grows c) (k : c.Grows r) : b.Grows r :=
  ⟨Nat.le_trans h.registries k.registries, Nat.le_trans h.reporters k.reporters, Nat.le_trans h.states k.states⟩

/-- A registry and a reporter that were made, or the first of each, as which one that was never made reads. -/
structure Has (r : Roll) (registry reporter : Nat) : Prop where
  made : registry < max 1 r.registries.size
  heard : reporter < max 1 r.reporters.size

theorem below_mono {k m n : Nat} (h : k < max 1 m) (l : m ≤ n) : k < max 1 n :=
  Nat.lt_of_lt_of_le h (Nat.max_le.mpr ⟨Nat.le_max_left _ _, Nat.le_trans l (Nat.le_max_right _ _)⟩)

theorem Has.mono {b r : Roll} {registry reporter : Nat} (h : b.Has registry reporter) (k : b.Grows r) :
    r.Has registry reporter := ⟨below_mono h.made k.registries, below_mono h.heard k.reporters⟩

/-- Whatever is known by a number refers to what was made. -/
structure Sound (r : Roll) : Prop where
  registries : ∀ n, (r.registries.get n).reporter < max 1 r.reporters.size
  references : ∀ n, (r.references.get n).registry < max 1 r.registries.size
  foreigns : ∀ n, r.Has (r.foreigns.get n).registry (r.foreigns.get n).reporter
  states : ∀ n, r.Has (r.states.get n).registry (r.states.get n).reporter
  names : ∀ name id, (name, id) ∈ r.names → id < r.states.size
  stored : ∀ name s, (name, Stored.selector s) ∈ r.stored → r.Has s.registry s.reporter
  first : 0 < r.states.size → 0 < r.registries.size ∧ 0 < r.reporters.size

/-- What a roll that grew has to refer to was made before it grew. -/
theorem Sound.grow {b r : Roll} (g : b.Grows r) (registries : ∀ n, (r.registries.get n).reporter < max 1 b.reporters.size)
    (references : ∀ n, (r.references.get n).registry < max 1 b.registries.size)
    (foreigns : ∀ n, b.Has (r.foreigns.get n).registry (r.foreigns.get n).reporter)
    (states : ∀ n, b.Has (r.states.get n).registry (r.states.get n).reporter)
    (names : ∀ name id, (name, id) ∈ r.names → id < r.states.size)
    (stored : ∀ name s, (name, Stored.selector s) ∈ r.stored → b.Has s.registry s.reporter)
    (first : 0 < r.states.size → 0 < b.registries.size ∧ 0 < b.reporters.size) : r.Sound where
  registries n := below_mono (registries n) g.reporters
  references n := below_mono (references n) g.registries
  foreigns n := (foreigns n).mono g
  states n := (states n).mono g
  names := names
  stored name s hs := (stored name s hs).mono g
  first h := ⟨Nat.lt_of_lt_of_le (first h).1 g.registries, Nat.lt_of_lt_of_le (first h).2 g.reporters⟩

end Roll

/-- How the states, registries and reporters of one world read in another one. -/
structure Guise where
  states : Renumbering
  registries : Renumbering
  reporters : Renumbering
  /-- what was never made reads as what was made first -/
  registry_zero : registries.image 0 = 0
  reporter_zero : reporters.image 0 = 0
  /-- the states of which there is no counterpart -/
  spare : Nat → State

namespace Guise

/-- Every number reads as itself. -/
def same : Guise := ⟨.same, .same, .same, rfl, rfl, fun _ => default⟩

variable (ρ : Guise)

def registry (r : Registry) : Registry := { r with reporter := ρ.reporters.image r.reporter }

def reference (r : Reference) : Reference := { r with registry := ρ.registries.image r.registry }

def foreign (f : Foreign) : Foreign :=
  { f with registry := ρ.registries.image f.registry, reporter := ρ.reporters.image f.reporter }

def state (s : State) : State :=
  { s with registry := ρ.registries.image s.registry, reporter := ρ.reporters.image s.reporter }

def selector (s : Selector) : Selector :=
  { s with registry := ρ.registries.image s.registry, reporter := ρ.reporters.image s.reporter }

def stored : Stored → Stored
  | .value v => .value v
  | .selector s => .selector (ρ.selector s)

/-- A name, and what it leads to. -/
def name (named : Text × Nat) : Text × Nat := (named.1, ρ.states.image named.2)

/-- A name, and what is kept under it. -/
def keeping (kept : Text × Stored) : Text × Stored := (kept.1, ρ.stored kept.2)

end Guise

/-- One roll is another one under other numbers. Both have grown from a roll that is known. -/
structure Roll.Twin (ρ : Guise) (b r r' : Roll) : Prop where
  registries : ρ.registries.Carries ρ.registry r.registries r'.registries
  reporters : ρ.reporters.Carries id r.reporters r'.reporters
  references : Renumbering.same.Carries ρ.reference r.references r'.references
  foreigns : Renumbering.same.Carries ρ.foreign r.foreigns r'.foreigns
  states : ρ.states.Carries ρ.state r.states r'.states
  names : r'.names = r.names.map ρ.name
  stored : r'.stored = r.stored.map ρ.keeping
  spare : ∀ n, (∀ m, ρ.states.image m ≠ n) → r'.states.get n = ρ.spare n
  sound : r.Sound
  grown : b.Grows r

namespace Roll.Twin

variable {ρ : Guise} {b r r' : Roll}

/-! Twins stay twins when one pool of each changes alike. -/

theorem weaken {c : Roll} (h : Twin ρ c r r') (k : b.Grows c) : Twin ρ b r r' := { h with grown := k.trans h.grown }

theorem self (h : Twin ρ b r r') : Twin ρ r r r' := { h with grown := .refl r }

theorem withReporters (h : Twin ρ b r r') {p p' : Pool Handler} (hp : ρ.reporters.Carries id p p')
    (hs : r.reporters.size ≤ p.size) : Twin ρ b { r with reporters := p } { r' with reporters := p' } :=
  have g : r.Grows { r with reporters := p } := ⟨Nat.le_refl _, hs, Nat.le_refl _⟩
  have s := h.sound
  { h with
    reporters := hp
    sound := .grow g s.registries s.references s.foreigns s.states s.names s.stored s.first
    grown := h.grown.trans g }

theorem withRegistries (h : Twin ρ b r r') {p p' : Pool Registry} (hp : ρ.registries.Carries ρ.registry p p')
    (hs : r.registries.size ≤ p.size) (hr : ∀ n, (p.get n).reporter < max 1 r.reporters.size) :
    Twin ρ b { r with registries := p } { r' with registries := p' } :=
  have g : r.Grows { r with registries := p } := ⟨hs, Nat.le_refl _, Nat.le_refl _⟩
  have s := h.sound
  { h with
    registries := hp
    sound := .grow g hr s.references s.foreigns s.states s.names s.stored s.first
    grown := h.grown.trans g }

theorem withReferences (h : Twin ρ b r r') {p p' : Pool Reference} (hp : Renumbering.same.Carries ρ.reference p p')
    (hr : ∀ n, (p.get n).registry < max 1 r.registries.size) :
    Twin ρ b { r with references := p } { r' with references := p' } :=
  have g : r.Grows { r with references := p } := ⟨Nat.le_refl _, Nat.le_refl _, Nat.le_refl _⟩
  have s := h.sound
  { h with
    references := hp
    sound := .grow g s.registries hr s.foreigns s.states s.names s.stored s.first
    grown := h.grown.trans g }

theorem withForeigns (h : Twin ρ b r r') {p p' : Pool Foreign} (hp : Renumbering.same.Carries ρ.foreign p p')
    (hr : ∀ n, r.Has (p.get n).registry (p.get n).reporter) :
    Twin ρ b { r with foreigns := p } { r' with foreigns := p' } :=
  have g : r.Grows { r with foreigns := p } := ⟨Nat.le_refl _, Nat.le_refl _, Nat.le_refl _⟩
  have s := h.sound
  { h with
    foreigns := hp
    sound := .grow g s.registries s.references hr s.states s.names s.stored s.first
    grown := h.grown.trans g }

/-- The states of which there is no counterpart stay as they were. -/
theorem withStates (h : Twin ρ b r r') {p p' : Pool State} (hp : ρ.states.Carries ρ.state p p')
    (hs : r.states.size ≤ p.size) (hr : ∀ n, r.Has (p.get n).registry (p.get n).reporter)
    (first : 0 < p.size → 0 < r.registries.size ∧ 0 < r.reporters.size)
    (spare : ∀ n, (∀ m, ρ.states.image m ≠ n) → p'.get n = r'.states.get n) :
    Twin ρ b { r with states := p } { r' with states := p' } :=
  have g : r.Grows { r with states := p } := ⟨Nat.le_refl _, Nat.le_refl _, hs⟩
  have s := h.sound
  { h with
    states := hp
    spare := fun n hn => (spare n hn).trans (h.spare n hn)
    sound := .grow g s.registries s.references s.foreigns hr (fun name id hn => Nat.lt_of_lt_of_le (s.names name id hn) hs)
      s.stored first
    grown := h.grown.trans g }

theorem withNames (h : Twin ρ b r r') {names : List (Text × Nat)} (hn : ∀ name id, (name, id) ∈ names → id < r.states.size) :
    Twin ρ b { r with names := names } { r' with names := names.map ρ.name } :=
  have g : r.Grows { r with names := names } := ⟨Nat.le_refl _, Nat.le_refl _, Nat.le_refl _⟩
  have s := h.sound
  { h with
    names := rfl
    sound := .grow g s.registries s.references s.foreigns s.states hn s.stored s.first
    grown := h.grown.trans g }

theorem withStored (h : Twin ρ b r r') {stored : List (Text × Stored)}
    (hs : ∀ name s, (name, Stored.selector s) ∈ stored → r.Has s.registry s.reporter) :
    Twin ρ b { r with stored := stored } { r' with stored := stored.map ρ.keeping } :=
  have g : r.Grows { r with stored := stored } := ⟨Nat.le_refl _, Nat.le_refl _, Nat.le_refl _⟩
  have s := h.sound
  { h with
    stored := rfl
    sound := .grow g s.registries s.references s.foreigns s.states s.names hs s.first
    grown := h.grown.trans g }

end Roll.Twin

/-- Two worlds are the same but for the numbers. -/
structure World.Twin (ρ : Guise) (b : Roll) (w w' : World) : Prop where
  rest : w'.rest = w.rest
  roll : Roll.Twin ρ b w.roll w'.roll

end Host
end LuaHost
