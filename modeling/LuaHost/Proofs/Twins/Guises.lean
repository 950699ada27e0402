import LuaHost.Proofs.Twins.Steps
import Mathlib.Logic.Equiv.Basic

set_option autoImplicit false

/-!
# Guises of worlds in which a machine was handed over

After a state was moved and its names lead to the new one, the world is a twin of the world before: the new
state stands for the old one, and whatever is made later gets the number after the one it would have got.
Guises follow upon each other, so a machine may be handed over again and again.
-/

namespace LuaHost

namespace Renumbering

variable {α : Type} (ρ σ : Renumbering)

theorem image_add {m : Nat} (h : ρ.start ≤ m) (n : Nat) : ρ.image (m + n) = ρ.image m + n := by
  rw [ρ.image_of_le (Nat.le_add_right_of_le h), ρ.image_of_le h]
  omega

/-- One renumbering after the other; `n` is a number from which on both count in step. -/
def comp (n : Nat) (h : ρ.start ≤ n) (k : σ.start ≤ ρ.image n) : Renumbering where
  image m := σ.image (ρ.image m)
  start := n
  start' := σ.image (ρ.image n)
  injective e := ρ.injective (σ.injective e)
  early _ hm := σ.image_lt k (ρ.image_lt h hm)
  later m := by rw [ρ.image_add h, σ.image_add k]

theorem Carries.comp {ρ σ : Renumbering} [Inhabited α] {f g : α → α} {p q r : Pool α} (h : ρ.Carries f p q) (k : σ.Carries g q r) :
    (ρ.comp σ p.size h.start (h.size ▸ k.start)).Carries (g ∘ f) p r where
  start := Nat.le_refl _
  size := k.size.trans (congrArg σ.image h.size)
  get n := (k.get (ρ.image n)).trans (congrArg g (h.get n))

theorem Carries.same_comp [Inhabited α] {f g : α → α} {p q r : Pool α} (h : same.Carries f p q) (k : same.Carries g q r) :
    same.Carries (g ∘ f) p r where
  start := Nat.zero_le _
  size := k.size.trans h.size
  get n := (k.get n).trans (congrArg g (h.get n))

/-- A number is left out, and the ones from there on are the next ones. -/
def skip (k : Nat) : Renumbering where
  image n := if n < k then n else n + 1
  start := k
  start' := k + 1
  injective {m n} e := by
    split at e
    · split at e
      · exact e
      · omega
    · split at e
      · omega
      · omega
  early n h := by
    rw [if_pos h]
    exact Nat.lt_succ_of_lt h
  later n := by
    rw [if_neg (Nat.not_lt.mpr (Nat.le_add_right k n))]
    omega

theorem skip_of_lt {k n : Nat} (h : n < k) : (skip k).image n = n := if_pos h

theorem skip_of_le {k n : Nat} (h : k ≤ n) : (skip k).image n = n + 1 := if_neg (Nat.not_lt.mpr h)

theorem skip_ne (k n : Nat) : (skip k).image n ≠ k := by
  cases Nat.lt_or_ge n k with
  | inl h =>
    rw [skip_of_lt h]
    exact Nat.ne_of_lt h
  | inr h =>
    rw [skip_of_le h]
    exact Nat.ne_of_gt (Nat.lt_succ_of_le h)

/-- What was added is left out of the numbers that are known. -/
theorem Carries.skip [Inhabited α] {f : α → α} {p : Pool α} (h : ∀ n, f (p.get n) = p.get n) (a : α) :
    (skip p.size).Carries f p (p.add a) where
  start := Nat.le_refl _
  size := by rw [Pool.size_add, skip_of_le (Nat.le_refl _)]
  get n := by
    rw [h]
    cases Nat.lt_or_ge n p.size with
    | inl lt => rw [skip_of_lt lt, Pool.get_add_ne _ (Nat.ne_of_lt lt)]
    | inr le =>
      rw [skip_of_le le, Pool.get_add_ne _ (Nat.ne_of_gt (Nat.lt_succ_of_le le)), Pool.get_of_size_le _ le,
        Pool.get_of_size_le _ (Nat.le_succ_of_le le)]

/-- Another number stands for one of those before `k`. -/
def stand (id k : Nat) (h : id < k) : Renumbering where
  image n := if n = id then k else (skip k).image n
  start := k
  start' := k + 1
  injective {m n} e := by
    have left := skip_ne k m
    have right := skip_ne k n
    split at e
    · split at e
      · omega
      · exact absurd e.symm right
    · split at e
      · exact absurd e left
      · exact (skip k).injective e
  early n hn := by
    split
    · exact Nat.lt_succ_self k
    · exact (skip k).early n hn
  later n := by
    rw [if_neg (by omega)]
    exact (skip k).later n

theorem stand_self {id k : Nat} (h : id < k) : (stand id k h).image id = k := if_pos rfl

theorem stand_ne {id k : Nat} (h : id < k) {n : Nat} (hn : n ≠ id) : (stand id k h).image n = (skip k).image n := if_neg hn

/-- No number is read as the one for which another stands. -/
theorem stand_free {id k : Nat} (h : id < k) (n : Nat) : (stand id k h).image n ≠ id := by
  by_cases hn : n = id
  · rw [hn, stand_self]
    exact Nat.ne_of_gt h
  · rw [stand_ne h hn]
    cases Nat.lt_or_ge n k with
    | inl lt =>
      rw [skip_of_lt lt]
      exact hn
    | inr le =>
      rw [skip_of_le le]
      omega

/-- Any other number before `k` is the image of itself alone. -/
theorem stand_other {id k : Nat} (h : id < k) {m n : Nat} (hn : n < k) (e : (stand id k h).image m = n) : m = n := by
  by_cases hm : m = id
  · rw [hm, stand_self] at e
    omega
  · rw [stand_ne h hm] at e
    cases Nat.lt_or_ge m k with
    | inl lt => rwa [skip_of_lt lt] at e
    | inr le =>
      rw [skip_of_le le] at e
      omega

/-- What was under a number is added, and another thing is put in its place. -/
theorem Carries.stand [Inhabited α] {f : α → α} {p : Pool α} {id : Nat} (hid : id < p.size) (h : ∀ n, f (p.get n) = p.get n) (a : α) :
    (stand id p.size hid).Carries f p ((p.add (p.get id)).put id a) where
  start := Nat.le_refl _
  size := by
    rw [Pool.size_put _ (Nat.lt_of_lt_of_eq (Nat.lt_succ_of_lt hid) (Pool.size_add _ _).symm), Pool.size_add,
      stand_ne hid (Nat.ne_of_gt hid), skip_of_le (Nat.le_refl _)]
  get n := by
    rw [Pool.get_put_ne _ (stand_free hid n)]
    by_cases hn : n = id
    · rw [hn, stand_self, Pool.get_add_self, h]
    · rw [stand_ne hid hn]
      exact (Carries.skip h _).get n

/-- Two of the numbers before `k` stand for each other. -/
def swap (i j k : Nat) (hi : i < k) (hj : j < k) : Renumbering where
  image := Equiv.swap i j
  start := k
  start' := k
  injective e := (Equiv.swap i j).injective e
  early n hn := by
    rw [Equiv.swap_apply_def]
    split
    · exact hj
    · split
      · exact hi
      · exact hn
  later n := Equiv.swap_apply_of_ne_of_ne (by omega) (by omega)

/-- What was under two numbers changes places. -/
theorem Carries.swap [Inhabited α] {p : Pool α} {i j : Nat} (hi : i < p.size) (hj : j < p.size) :
    (swap i j p.size hi hj).Carries id p ((p.put j (p.get i)).put i (p.get j)) where
  start := Nat.le_refl _
  size := by
    have same : Equiv.swap i j p.size = p.size := Equiv.swap_apply_of_ne_of_ne (Nat.ne_of_gt hi) (Nat.ne_of_gt hj)
    rw [Pool.size_put _ (Nat.lt_of_lt_of_eq hi (Pool.size_put _ hj _).symm), Pool.size_put _ hj]
    exact same.symm
  get n := by
    change Pool.get _ (Equiv.swap i j n) = p.get n
    by_cases hni : n = i
    · rw [hni, Equiv.swap_apply_left]
      by_cases hij : j = i
      · rw [hij, Pool.get_put_self]
      · rw [Pool.get_put_ne _ hij, Pool.get_put_self]
    · by_cases hnj : n = j
      · rw [hnj, Equiv.swap_apply_right, Pool.get_put_self]
      · rw [Equiv.swap_apply_of_ne_of_ne hni hnj, Pool.get_put_ne _ hni, Pool.get_put_ne _ hnj]

end Renumbering

namespace Host

variable {ρ σ : Guise} {b c r r' r'' : Roll} {w w' w'' : World}

/-! ## Guises that follow upon each other -/

/-- How a roll reads in the twin of its twin. -/
def Guise.comp (h : Roll.Twin ρ b r r') (k : Roll.Twin σ c r' r'') : Guise where
  states := ρ.states.comp σ.states r.states.size h.states.start (h.states.size ▸ k.states.start)
  registries := ρ.registries.comp σ.registries r.registries.size h.registries.start (h.registries.size ▸ k.registries.start)
  reporters := ρ.reporters.comp σ.reporters r.reporters.size h.reporters.start (h.reporters.size ▸ k.reporters.start)
  registry_zero := (congrArg σ.registries.image ρ.registry_zero).trans σ.registry_zero
  reporter_zero := (congrArg σ.reporters.image ρ.reporter_zero).trans σ.reporter_zero
  spare := r''.states.get

theorem Roll.Twin.comp (h : Roll.Twin ρ b r r') (k : Roll.Twin σ c r' r'') : Roll.Twin (Guise.comp h k) b r r'' where
  registries := h.registries.comp k.registries
  reporters := h.reporters.comp k.reporters
  references := h.references.same_comp k.references
  foreigns := h.foreigns.same_comp k.foreigns
  states := h.states.comp k.states
  names := by
    rw [k.names, h.names, List.map_map]
    rfl
  stored := by
    have twice (kept : Text × Stored) : σ.keeping (ρ.keeping kept) = (Guise.comp h k).keeping kept := by
      obtain ⟨name, stored⟩ := kept
      cases stored with
      | value v => rfl
      | selector s => rfl
    rw [k.stored, h.stored, List.map_map]
    exact List.map_congr_left fun kept _ => twice kept
  spare _ _ := rfl
  sound := h.sound
  grown := h.grown

theorem World.Twin.comp (h : w.Twin ρ b w') (k : w'.Twin σ c w'') : w.Twin (Guise.comp h.roll k.roll) b w'' :=
  ⟨k.rest.trans h.rest, h.roll.comp k.roll⟩

/-! ## What is made besides, and what changes places -/

/-- A world with one more reporter, and a registry that has no machine and tells it. -/
def World.furnished (w : World) (runtime : Nat) : World :=
  { w with
    reporters := w.reporters.add .print
    registries := w.registries.add ⟨runtime, none, w.reporters.size, []⟩ }

/-- The numbers of the last registry and of the last reporter are left out. -/
def Guise.furnished (first : 0 < w.registries.size ∧ 0 < w.reporters.size) : Guise where
  states := .same
  registries := .skip w.registries.size
  reporters := .skip w.reporters.size
  registry_zero := Renumbering.skip_of_lt first.1
  reporter_zero := Renumbering.skip_of_lt first.2
  spare _ := default

/-- What is made besides shows nowhere. -/
theorem World.Twin.furnished (hw : w.roll.Sound) (first : 0 < w.registries.size ∧ 0 < w.reporters.size) (runtime : Nat) :
    w.Twin (.furnished first) w.roll (w.furnished runtime) := by
  have registry {n : Nat} (h : n < max 1 w.registries.size) : (Guise.furnished first).registries.image n = n :=
    Renumbering.skip_of_lt (Nat.lt_of_lt_of_eq h (Nat.max_eq_right first.1))
  have reporter {n : Nat} (h : n < max 1 w.reporters.size) : (Guise.furnished first).reporters.image n = n :=
    Renumbering.skip_of_lt (Nat.lt_of_lt_of_eq h (Nat.max_eq_right first.2))
  -- whatever there is refers to what was made before, which reads as itself
  have state (n : Nat) : (Guise.furnished first).state (w.states.get n) = w.states.get n := by
    have has : w.roll.Has (w.states.get n).registry (w.states.get n).reporter := hw.states n
    unfold Guise.state
    rw [registry has.made, reporter has.heard]
  have foreign (n : Nat) : (Guise.furnished first).foreign (w.foreigns.get n) = w.foreigns.get n := by
    have has : w.roll.Has (w.foreigns.get n).registry (w.foreigns.get n).reporter := hw.foreigns n
    unfold Guise.foreign
    rw [registry has.made, reporter has.heard]
  have reference (n : Nat) : (Guise.furnished first).reference (w.references.get n) = w.references.get n := by
    have made : (w.references.get n).registry < max 1 w.registries.size := hw.references n
    unfold Guise.reference
    rw [registry made]
  have told (n : Nat) : (Guise.furnished first).registry (w.registries.get n) = w.registries.get n := by
    have heard : (w.registries.get n).reporter < max 1 w.reporters.size := hw.registries n
    unfold Guise.registry
    rw [reporter heard]
  have keeping (kept : Text × Stored) (mem : kept ∈ w.stored) : (Guise.furnished first).keeping kept = kept := by
    obtain ⟨name, stored⟩ := kept
    cases stored with
    | value v => rfl
    | selector s =>
      have has : w.roll.Has s.registry s.reporter := hw.stored name s mem
      unfold Guise.keeping Guise.stored Guise.selector
      dsimp only
      rw [registry has.made, reporter has.heard]
  refine ⟨rfl, ?_⟩
  exact {
    registries := .skip told _
    reporters := .skip (fun _ => rfl) _
    references := .refl reference
    foreigns := .refl foreign
    states := .refl state
    names := (List.map_id _).symm
    stored := ((List.map_congr_left keeping).trans (List.map_id _)).symm
    spare n hn := absurd rfl (hn n)
    sound := hw
    grown := .refl _ }

theorem World.furnished_sound (hw : w.roll.Sound) (runtime : Nat) : (w.furnished runtime).roll.Sound := by
  have heard : w.reporters.size < (w.reporters.add .print).size := Nat.lt_of_lt_of_eq (Nat.lt_succ_self _) (Pool.size_add _ _).symm
  let v : World := { w with reporters := w.reporters.add .print }
  have told : w.Twin .same w.roll w := .refl hw
  have told : v.Twin .same w.roll v := told.withReporters (told.roll.reporters.add .print) (Nat.le_of_lt heard)
  have made := told.withRegistries (told.roll.registries.add ⟨runtime, none, w.reporters.size, []⟩)
    (Nat.le_of_lt (Nat.lt_of_lt_of_eq (Nat.lt_succ_self _) (Pool.size_add _ _).symm))
    (Pool.all_add (P := fun r : Registry => r.reporter < max 1 v.reporters.size) told.roll.sound.registries
      (Nat.lt_of_lt_of_le heard (Nat.le_max_right _ _)))
  exact made.roll.sound

/-- A world in which the states have other numbers, to which the names lead. -/
def World.seated (w : World) (τ : Renumbering) (states : Pool State) : World :=
  { w with states, names := w.names.map fun named => (named.1, τ.image named.2) }

/-- What a state refers to is the same, whatever its number is. -/
theorem World.Twin.seated (hw : w.roll.Sound) {τ : Renumbering} {states : Pool State} (h : τ.Carries id w.states states) :
    w.Twin ⟨τ, .same, .same, rfl, rfl, states.get⟩ w.roll (w.seated τ states) := by
  have whole : w.Twin .same w.roll w := .refl hw
  refine ⟨rfl, ?_⟩
  exact { whole.roll with
    states := h
    names := rfl
    stored := whole.roll.stored
    spare _ _ := rfl }

/-- A state of which there is no counterpart may be any. -/
theorem World.Twin.vary (h : w.Twin ρ b w') {id : Nat} (hid : id < w'.states.size) (free : ∀ m, ρ.states.image m ≠ id) (s : State) :
    w.Twin { ρ with spare := (w'.states.put id s).get } b { w' with states := w'.states.put id s } := by
  refine ⟨h.rest, ?_⟩
  exact { h.roll with
    states := h.roll.states.aside hid free s
    names := h.roll.names
    stored := h.roll.stored
    spare _ _ := rfl }

end Host
end LuaHost
