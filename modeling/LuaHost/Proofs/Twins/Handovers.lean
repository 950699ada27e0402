import LuaHost.Proofs.Twins.Guises

set_option autoImplicit false

/-!
# Handing a machine over

A state is moved into a new one, or taken into one that is left behind, and the names that led to it lead to
the other one from then on. The world that this gives is a twin of whatever the world before was a twin of:
the state that has the machine now stands for the one that had it, and what was made besides is left out.
-/

namespace LuaHost

namespace Pool

variable {α : Type} [Inhabited α]

theorem ext {p q : Pool α} (size : p.size = q.size) (get : ∀ n, p.get n = q.get n) : p = q := by
  obtain ⟨xs⟩ := p
  obtain ⟨ys⟩ := q
  congr 1
  refine Array.ext size fun n hx hy => ?_
  have same := get n
  rw [get_eq, get_eq, Array.getElem?_eq_getElem hx, Array.getElem?_eq_getElem hy] at same
  exact same

end Pool

namespace Host

variable {ρ : Guise} {b : Roll} {w₀ w c : World} {id other : Nat}

/-! ## The worlds afterwards -/

/-- A state that was left: it has a reporter and a registry of its own, and no machine. -/
def World.vacated (w : World) (id : Nat) : State :=
  { w.states.get id with
    machine := none
    isOwner := false
    reporter := w.reporters.size
    registry := w.registries.size }

/-- The world after a state was moved. -/
def World.moved (w : World) (id : Nat) : World :=
  { w.furnished (w.states.get id).runtime with states := (w.states.add (w.states.get id)).put id (w.vacated id) }

/-- The world after a state without a machine has taken another one's. -/
def World.taken (w : World) (id other : Nat) : World :=
  { w.furnished (w.states.get other).runtime with
    states := (w.states.put id (w.states.get other)).put other (w.vacated other) }

theorem World.size_moved (w : World) (hid : id < w.states.size) : (w.moved id).states.size = w.states.size + 1 :=
  (Pool.size_put _ (Nat.lt_of_lt_of_eq (Nat.lt_succ_of_lt hid) (Pool.size_add _ _).symm) _).trans (Pool.size_add _ _)

theorem World.size_taken (w : World) (hid : id < w.states.size) (ho : other < w.states.size) :
    (w.taken id other).states.size = w.states.size :=
  (Pool.size_put _ (Nat.lt_of_lt_of_eq ho (Pool.size_put _ hid _).symm) _).trans (Pool.size_put _ hid _)

/-- The names that led to a state lead to another one. -/
def World.redirect (w : World) (id new : Nat) : World :=
  { w with names := w.names.map fun named => (named.1, if named.2 = id then new else named.2) }

/-- Moving a state always succeeds. -/
theorem State.move_eq (env : Env) (w : World) (hid : id < w.states.size) :
    State.move id env w = .ok w.states.size (w.moved id) := by
  let free : State := { w.states.get id with machine := none, isOwner := false }
  have run : State.move id env w = .ok w.states.size { w with
      states := ((w.states.add free).modify w.states.size fun s =>
        { s with
          machine := ((w.states.add free).get id).machine
          isOwner := ((w.states.add free).get id).isOwner }).put id
            { (w.states.add free).get id with
              machine := none
              isOwner := false
              reporter := w.reporters.size
              registry := w.registries.size }
      reporters := w.reporters.add .print
      registries := w.registries.add ⟨((w.states.add free).get id).runtime, none, w.reporters.size, []⟩ } := rfl
  rw [run, Pool.get_add_ne _ (Nat.ne_of_lt hid), Pool.modify_add_self]
  rfl

/-- Taking succeeds if closing does. -/
theorem State.take_eq (env : Env) (apart : id ≠ other) (closed : State.close id env w = .ok () c) :
    State.take id other env w = .ok () (c.taken id other) := by
  let s : State := { c.states.get id with
    config := (c.states.get other).config
    runtime := (c.states.get other).runtime
    reporter := (c.states.get other).reporter
    registry := (c.states.get other).registry }
  let set := c.states.put id s
  have run : State.take id other env w = .ok () { c with
      states := (set.modify id fun s => { s with machine := (set.get other).machine, isOwner := (set.get other).isOwner }).put other
        { set.get other with
          machine := none
          isOwner := false
          reporter := c.reporters.size
          registry := c.registries.size }
      reporters := c.reporters.add .print
      registries := c.registries.add ⟨(set.get other).runtime, none, c.reporters.size, []⟩ } := by
    rw [take_run env w apart, bind_ok closed]
    rfl
  have kept : set.get other = c.states.get other := Pool.get_put_ne _ (Ne.symm apart) _
  rw [run, kept, Pool.modify_eq_put, Pool.get_put_self, Pool.put_put]
  rfl

/-- The reporters of the states of a sound world were made. -/
theorem World.reporter_lt (hw : w.roll.Sound) (hid : id < w.states.size) (n : Nat) : (w.states.get n).reporter < w.reporters.size := by
  have has : w.roll.Has (w.states.get n).registry (w.states.get n).reporter := hw.states n
  have first : 0 < w.reporters.size := (hw.first (Nat.zero_lt_of_lt hid)).2
  exact Nat.lt_of_lt_of_eq has.heard (Nat.max_eq_right first)

theorem World.redirect_sound {new : Nat} (hw : w.roll.Sound) (hn : new < w.states.size) : (w.redirect id new).roll.Sound := by
  have made (name : Text) (n : Nat) (mem : (name, n) ∈ (w.redirect id new).names) : n < w.states.size := by
    obtain ⟨named, there, e⟩ := List.mem_map.mp mem
    cases e
    split
    · exact hn
    · exact hw.names named.1 named.2 there
  have named := (World.Twin.refl hw).withNames made
  exact named.roll.sound

/-! ## Their twins -/

/-- The names of a sound world lead to what was made. -/
theorem World.seated_eq (hw : w.roll.Sound) (id new : Nat) {v : World} (names : v.names = w.names) {τ : Renumbering}
    (h : ∀ named ∈ w.names, named.2 < w.states.size → τ.image named.2 = if named.2 = id then new else named.2) (states : Pool State) :
    v.seated τ states = World.redirect { v with states } id new := by
  unfold World.seated World.redirect
  congr 1
  rw [names]
  refine List.map_congr_left fun named mem => ?_
  rw [h named mem (hw.names named.1 named.2 mem)]

theorem Renumbering.stand_eq {k n : Nat} (hid : id < k) (hn : n < k) :
    (Renumbering.stand id k hid).image n = if n = id then k else n := by
  by_cases h : n = id
  · rw [if_pos h, h, Renumbering.stand_self]
  · rw [if_neg h, Renumbering.stand_ne hid h, Renumbering.skip_of_lt hn]

/-- After a move the new state stands for the one that was moved. -/
theorem World.Twin.moved (h : w₀.Twin ρ b w) (hw : w.roll.Sound) (hid : id < w.states.size) :
    ∃ ρ' : Guise, w₀.Twin ρ' b ((w.moved id).redirect id w.states.size) ∧
      (∀ n, ρ'.states.image n = (Renumbering.stand id w.states.size hid).image (ρ.states.image n)) ∧
      ∀ n, ρ'.reporters.image n = (Renumbering.skip w.reporters.size).image (ρ.reporters.image n) := by
  have first : 0 < w.registries.size ∧ 0 < w.reporters.size := hw.first (Nat.zero_lt_of_lt hid)
  let runtime := (w.states.get id).runtime
  let u := w.furnished runtime
  have placed : (Renumbering.stand id w.states.size hid).Carries (fun s => s) u.states
      ((w.states.add (w.states.get id)).put id (w.vacated id)) := .stand hid (fun _ => rfl) _
  have seated := World.Twin.seated (World.furnished_sound hw runtime) placed
  rw [World.seated_eq hw id w.states.size (v := u) rfl fun named _ lt => Renumbering.stand_eq hid lt] at seated
  exact ⟨_, (h.comp (.furnished hw first runtime)).comp seated, fun _ => rfl, fun _ => rfl⟩

/-- After a state that is left behind has taken another one's machine, it stands for that one. -/
theorem World.Twin.taken (h : w₀.Twin ρ b w) (hw : w.roll.Sound) (hid : id < w.states.size) (ho : other < w.states.size)
    (apart : id ≠ other) (free : ∀ n, ρ.states.image n ≠ id) :
    ∃ ρ' : Guise, w₀.Twin ρ' b ((w.taken id other).redirect other id) ∧
      (∀ n, ρ'.states.image n = (Renumbering.swap other id w.states.size ho hid).image (ρ.states.image n)) ∧
      ∀ n, ρ'.reporters.image n = (Renumbering.skip w.reporters.size).image (ρ.reporters.image n) := by
  have first : 0 < w.registries.size ∧ 0 < w.reporters.size := hw.first (Nat.zero_lt_of_lt hid)
  let runtime := (w.states.get other).runtime
  let u := w.furnished runtime
  let v : World := { u with states := w.states.put id (w.vacated other) }
  have made : w.registries.size < u.registries.size := Nat.lt_of_lt_of_eq (Nat.lt_succ_self _) (Pool.size_add _ _).symm
  have heard : w.reporters.size < u.reporters.size := Nat.lt_of_lt_of_eq (Nat.lt_succ_self _) (Pool.size_add _ _).symm
  have size : v.states.size = w.states.size := Pool.size_put _ hid _
  have sound : v.roll.Sound := by
    have whole := World.Twin.refl (World.furnished_sound hw runtime)
    have put := whole.withStates (whole.roll.states.put id (w.vacated other)) (Pool.size_le_size_put _ _ _)
      (Pool.all_put (P := fun s : State => u.roll.Has s.registry s.reporter) (World.furnished_sound hw runtime).states id
        (.of_lt made heard)) (fun _ => ⟨Nat.zero_lt_of_lt made, Nat.zero_lt_of_lt heard⟩) fun n hn => absurd rfl (hn n)
    exact put.roll.sound
  have swapped : (Renumbering.swap other id v.states.size (size ▸ ho) (size ▸ hid)).Carries (fun s => s) v.states
      ((w.states.put id (w.states.get other)).put other (w.vacated other)) := by
    have swapped := Renumbering.Carries.swap (p := v.states) (size ▸ ho) (size ▸ hid)
    rw [Pool.get_put_ne _ (Ne.symm apart), Pool.get_put_self, Pool.put_put] at swapped
    exact swapped
  have seated := World.Twin.seated sound swapped
  -- no name leads to the state that is left behind
  have elsewhere (named : Text × Nat) (mem : named ∈ w.names) : named.2 ≠ id := by
    have names : w.names = w₀.names.map ρ.name := h.roll.names
    rw [names] at mem
    obtain ⟨before, -, rfl⟩ := List.mem_map.mp mem
    exact free before.2
  have leads (named : Text × Nat) (mem : named ∈ w.names) (_ : named.2 < w.states.size) :
      Equiv.swap other id named.2 = if named.2 = other then id else named.2 := by
    rw [Equiv.swap_apply_def, if_neg (elsewhere named mem)]
  rw [World.seated_eq hw other id (v := v) rfl leads] at seated
  exact ⟨_, ((h.comp (.furnished hw first runtime)).vary hid free (w.vacated other)).comp seated, fun _ => rfl, fun _ => rfl⟩

/-- Taking another state's machine and being bound to what that one is moved to give twins. -/
theorem World.Twin.instead (hw : (w.taken id other).roll.Sound) (hid : id < w.states.size) (ho : other < w.states.size)
    (apart : id ≠ other) :
    ∃ ρ : Guise, (w.taken id other).Twin ρ (w.taken id other).roll ((w.moved other).redirect id w.states.size) := by
  let t := w.taken id other
  have size : t.states.size = w.states.size := w.size_taken hid ho
  have self : t.states.get id = w.states.get other := (Pool.get_put_ne _ apart _).trans (Pool.get_put_self _ _ _)
  have aside : (t.states.add (t.states.get id)).put id (w.states.get id) =
      (w.states.add (w.states.get other)).put other (w.vacated other) := by
    have before : id < (t.states.add (t.states.get id)).size := by
      rw [Pool.size_add, size]
      exact Nat.lt_succ_of_lt hid
    refine Pool.ext ?_ fun n => ?_
    · rw [Pool.size_put _ before, Pool.size_add, size,
        Pool.size_put _ (Nat.lt_of_lt_of_eq (Nat.lt_succ_of_lt ho) (Pool.size_add _ _).symm), Pool.size_add]
    · by_cases hi : n = id
      · rw [hi, Pool.get_put_self, Pool.get_put_ne _ apart, Pool.get_add_ne _ (Nat.ne_of_lt hid)]
      · rw [Pool.get_put_ne _ hi]
        by_cases hs : n = w.states.size
        · rw [hs, ← size, Pool.get_add_self, size, Pool.get_put_ne _ (Nat.ne_of_gt ho), Pool.get_add_self, self]
        · rw [Pool.get_add_ne _ (size ▸ hs)]
          by_cases hn : n = other
          · rw [hn, Pool.get_put_self]
            exact Pool.get_put_self _ _ _
          · rw [Pool.get_put_ne _ hn, Pool.get_add_ne _ hs]
            exact (Pool.get_put_ne _ hn _).trans (Pool.get_put_ne _ hi _)
  have placed : (Renumbering.stand id t.states.size (size ▸ hid)).Carries (fun s => s) t.states
      ((w.states.add (w.states.get other)).put other (w.vacated other)) := by
    rw [← aside]
    exact .stand (size ▸ hid) (fun _ => rfl) _
  have seated := World.Twin.seated hw placed
  rw [World.seated_eq hw id w.states.size (v := t) rfl fun named _ lt =>
    (Renumbering.stand_eq (size ▸ hid) lt).trans (by rw [size])] at seated
  exact ⟨_, seated⟩

end Host
end LuaHost
