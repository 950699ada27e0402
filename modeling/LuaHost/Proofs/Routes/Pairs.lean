import LuaHost.Proofs.Twins.Handovers

set_option autoImplicit false

/-!
# States, registries and reporters go in pairs

Between operations every state has a registry and a reporter of its own: the registry tells the reporter of the
state, and pins values of the machine that the state has, or of none. Closing breaks the pair and mends it, as do
moving and taking. What a registry or a function of the host was made with stays.
-/

namespace LuaHost.Host

open Lua (Generation)

variable {g : Generation} {env : Env} {w w₁ w' u v : World} {id other : Nat}

/-- Every state that was made has a registry and a reporter that no other state has. -/
structure World.Paired (w : World) : Prop where
  made : ∀ id, id < w.states.size → (w.states.get id).registry < w.registries.size
  told : ∀ id, id < w.states.size → (w.registries.get (w.states.get id).registry).reporter = (w.states.get id).reporter
  held : ∀ id, id < w.states.size → w.machineOf (w.states.get id).registry = (w.states.get id).machine
  registries : ∀ i j, i < w.states.size → j < w.states.size → (w.states.get i).registry = (w.states.get j).registry → i = j
  reporters : ∀ i j, i < w.states.size → j < w.states.size → (w.states.get i).reporter = (w.states.get j).reporter → i = j

/-- Registries tell whom they told, and functions report to whom they reported, or, if they are new, to whom their
registry tells. -/
structure World.Remembers (w w' : World) : Prop where
  states : w.states.size ≤ w'.states.size
  registries : w.registries.size ≤ w'.registries.size
  told : ∀ r, r < w.registries.size → (w'.registries.get r).reporter = (w.registries.get r).reporter
  foreigns : w.foreigns.size ≤ w'.foreigns.size
  foreign : ∀ n, n < w.foreigns.size → (w'.foreigns.get n).registry = (w.foreigns.get n).registry ∧
    (w'.foreigns.get n).reporter = (w.foreigns.get n).reporter
  made : ∀ n, w.foreigns.size ≤ n → n < w'.foreigns.size → (w'.foreigns.get n).registry < w.registries.size →
    (w'.foreigns.get n).reporter = (w.registries.get (w'.foreigns.get n).registry).reporter

namespace World.Remembers

theorem refl (w : World) : w.Remembers w :=
  ⟨Nat.le_refl _, Nat.le_refl _, fun _ _ => rfl, Nat.le_refl _, fun _ _ => ⟨rfl, rfl⟩,
    fun _ old new => absurd new (Nat.not_lt.mpr old)⟩

theorem trans (h : w.Remembers v) (k : v.Remembers u) : w.Remembers u where
  states := Nat.le_trans h.states k.states
  registries := Nat.le_trans h.registries k.registries
  told r hr := (k.told r (Nat.lt_of_lt_of_le hr h.registries)).trans (h.told r hr)
  foreigns := Nat.le_trans h.foreigns k.foreigns
  foreign n hn := by
    obtain ⟨registry, reporter⟩ := h.foreign n hn
    obtain ⟨registry', reporter'⟩ := k.foreign n (Nat.lt_of_lt_of_le hn h.foreigns)
    exact ⟨registry'.trans registry, reporter'.trans reporter⟩
  made n old new hr := by
    by_cases between : n < v.foreigns.size
    · obtain ⟨registry, reporter⟩ := k.foreign n between
      rw [registry] at hr ⊢
      exact reporter.trans (h.made n old between hr)
    · exact (k.made n (Nat.le_of_not_lt between) new (Nat.lt_of_lt_of_le hr h.registries)).trans (h.told _ hr)

/-- What leaves functions alone, and registries but for the machine that they have. -/
theorem of_eq (states : w.states.size ≤ w'.states.size) (registries : w.registries.size ≤ w'.registries.size)
    (told : ∀ r, r < w.registries.size → (w'.registries.get r).reporter = (w.registries.get r).reporter)
    (foreigns : w'.foreigns = w.foreigns) : w.Remembers w' where
  states := states
  registries := registries
  told := told
  foreigns := Nat.le_of_eq (by rw [foreigns])
  foreign _ _ := by
    rw [foreigns]
    exact ⟨rfl, rfl⟩
  made _ old new := by
    rw [foreigns] at new
    exact absurd new (Nat.not_lt.mpr old)

end World.Remembers

/-! ## What leaves the states alone -/

/-- No state has changed, and registries have the machines and the reporters that they had. -/
structure World.Steady (w w' : World) : Prop extends w.Remembers w' where
  same : w'.states = w.states
  size : w'.registries.size = w.registries.size
  machineOf : ∀ r, w'.machineOf r = w.machineOf r
  reporter : ∀ r, (w'.registries.get r).reporter = (w.registries.get r).reporter

namespace World.Steady

theorem of_eq (states : w'.states = w.states) (registries : w'.registries = w.registries) (foreigns : w'.foreigns = w.foreigns) :
    w.Steady w' where
  toRemembers := .of_eq (Nat.le_of_eq (by rw [states])) (Nat.le_of_eq (by rw [registries])) (fun _ _ => by rw [registries]) foreigns
  same := states
  size := by rw [registries]
  machineOf r := by rw [World.machineOf, World.machineOf, registries]
  reporter r := by rw [registries]

theorem trans (h : w.Steady v) (k : v.Steady u) : w.Steady u where
  toRemembers := h.toRemembers.trans k.toRemembers
  same := k.same.trans h.same
  size := k.size.trans h.size
  machineOf r := (k.machineOf r).trans (h.machineOf r)
  reporter r := (k.reporter r).trans (h.reporter r)

theorem paired (h : w.Steady w') (k : w.Paired) : w'.Paired where
  made id hid := by
    rw [h.same] at hid ⊢
    exact h.size ▸ k.made id hid
  told id hid := by
    rw [h.same] at hid ⊢
    exact (h.reporter _).trans (k.told id hid)
  held id hid := by
    rw [h.same] at hid ⊢
    exact (h.machineOf _).trans (k.held id hid)
  registries i j hi hj e := by
    rw [h.same] at hi hj e
    exact k.registries i j hi hj e
  reporters i j hi hj e := by
    rw [h.same] at hi hj e
    exact k.reporters i j hi hj e

end World.Steady

theorem World.reporter_give (w : World) (m : Nat) (f : Lua.Native) (n : Nat) :
    ((w.give m f).foreigns.get n).reporter = (w.foreigns.get n).reporter := by
  unfold World.give
  cases f with
  | foreign k =>
    dsimp only
    split
    · rfl
    · by_cases h : n = k
      · rw [h]
        dsimp only
        rw [Pool.get_modify_self]
      · dsimp only
        rw [Pool.get_modify_ne _ h]
  | _ => rfl

/-- Giving a function that was made to a machine makes none. -/
theorem World.Grants.size {m : Nat} {f : Lua.Native} (h : w.Grants m f) : (w.give m f).foreigns.size = w.foreigns.size := by
  unfold World.give
  cases f with
  | foreign id =>
    dsimp only
    split
    · rfl
    · exact Pool.size_modify _ (h id rfl).1 _
  | _ => rfl

theorem Move.steady (h : Move w w') : w.Steady w' := by
  have continues := h.continues
  have reporter (r : Nat) : (w'.registries.get r).reporter = (w.registries.get r).reporter := by
    cases h with
    | beside hb => rw [hb.registries]
    | @cached _ registry =>
      by_cases hr : r = registry
      · rw [hr]
        dsimp only
        rw [Pool.get_modify_self]
      · dsimp only
        rw [Pool.get_modify_ne _ hr]
    | @gave n f _ _ =>
      obtain ⟨foreigns, he⟩ := World.give_eq w n f
      rw [he]
    | _ => rfl
  have kept (n : Nat) (hn : n < w.foreigns.size) : (w'.foreigns.get n).reporter = (w.foreigns.get n).reporter := by
    cases h with
    | beside hb => rw [hb.foreigns]
    | made =>
      dsimp only
      rw [Pool.get_add_ne _ (Nat.ne_of_lt hn)]
    | gave => exact World.reporter_give _ _ _ _
    | _ => rfl
  -- only one move makes a function
  have made (n : Nat) (old : w.foreigns.size ≤ n) (new : n < w'.foreigns.size) :
      (w'.foreigns.get n).reporter = (w.registries.get (w'.foreigns.get n).registry).reporter := by
    have same {foreigns : Pool Foreign} (h : foreigns.size = w.foreigns.size) (lt : n < foreigns.size) : False :=
      absurd (h ▸ lt) (Nat.not_lt.mpr old)
    cases h with
    | beside hb => exact (same (by rw [hb.foreigns]) new).elim
    | made =>
      obtain rfl : n = w.foreigns.size := Nat.le_antisymm (Nat.le_of_lt_succ (Nat.lt_of_lt_of_eq new (Pool.size_add _ _))) old
      dsimp only
      rw [Pool.get_add_self]
    | gave _ grants => exact (same grants.size new).elim
    | _ => exact (same rfl new).elim
  exact ⟨⟨Nat.le_of_eq (by rw [continues.states]), Nat.le_of_eq continues.registries.symm, fun r _ => reporter r, continues.foreigns,
    fun n hn => ⟨(continues.foreign n hn).1, kept n hn⟩, fun n old new _ => made n old new⟩, continues.states, continues.registries,
    continues.machineOf, reporter⟩

theorem Moves.steady (h : Moves w w') : w.Steady w' := by
  induction h with
  | refl => exact .of_eq rfl rfl rfl
  | tail _ h ih => exact ih.trans h.steady

/-! ## Closing -/

/-- No state has changed, and one registry has no machine any more. -/
structure World.Dismisses (w : World) (registry : Nat) (w' : World) : Prop extends w.Remembers w' where
  same : w'.states = w.states
  gone : w'.machineOf registry = none
  machineOf : ∀ r, r ≠ registry → w'.machineOf r = w.machineOf r
  reporter : ∀ r, (w'.registries.get r).reporter = (w.registries.get r).reporter

theorem World.dismisses_dismiss (w : World) (registry : Nat) : w.Dismisses registry (w.dismiss registry) := by
  have reporter (r : Nat) : ((w.dismiss registry).registries.get r).reporter = (w.registries.get r).reporter := by
    unfold World.dismiss
    dsimp only
    by_cases h : r = registry
    · rw [h, Pool.get_modify_self]
    · rw [Pool.get_modify_ne _ h]
  have size : w.registries.size ≤ (w.dismiss registry).registries.size := Pool.size_le_size_modify _ _ _
  refine ⟨.of_eq (Nat.le_refl _) size (fun r _ => reporter r) rfl, rfl, w.machineOf_dismiss registry, fun r hr => ?_, reporter⟩
  exact congrArg Registry.machine (Pool.get_modify_ne _ hr _)

namespace World.Dismisses

variable {registry : Nat}

theorem steady (h : w.Dismisses registry v) (k : v.Steady u) : w.Dismisses registry u where
  toRemembers := h.toRemembers.trans k.toRemembers
  same := k.same.trans h.same
  gone := (k.machineOf _).trans h.gone
  machineOf r hr := (k.machineOf r).trans (h.machineOf r hr)
  reporter r := (k.reporter r).trans (h.reporter r)

end World.Dismisses

theorem World.Steady.dismisses {registry : Nat} (h : w.Steady v) (k : v.Dismisses registry u) : w.Dismisses registry u where
  toRemembers := h.toRemembers.trans k.toRemembers
  same := k.same.trans h.same
  gone := k.gone
  machineOf r hr := (k.machineOf r hr).trans (h.machineOf r)
  reporter r := (k.reporter r).trans (h.reporter r)

theorem Dismissal.dismisses {registry : Nat} (h : Dismissal w registry w') : w.Dismisses registry w' := by
  cases h with
  | idle _ => exact w.dismisses_dismiss registry
  | @freed v m _ hf =>
    have slots : w.Steady v := by
      obtain ⟨machines, journal, rfl⟩ := hf.apart.rest
      exact .of_eq rfl rfl rfl
    exact slots.dismisses (v.dismisses_dismiss registry)

/-- A state lets its machine go after its registry has. -/
theorem World.Paired.leave (h : w.Paired) (hid : id < w.states.size) (freed : w.Dismisses (w.states.get id).registry v)
    (states : u.states = v.states.modify id fun s => { s with machine := none }) (registries : u.registries = v.registries) :
    u.Paired := by
  have size : u.states.size = w.states.size := by
    rw [states, freed.same]
    exact Pool.size_modify _ hid _
  have self : u.states.get id = { w.states.get id with machine := none } := by
    rw [states, freed.same, Pool.get_modify_self]
  have others (n : Nat) (hn : n ≠ id) : u.states.get n = w.states.get n := by
    rw [states, freed.same, Pool.get_modify_ne _ hn]
  have registry (n : Nat) : (u.states.get n).registry = (w.states.get n).registry := by
    by_cases hn : n = id
    · rw [hn, self]
    · rw [others n hn]
  have reporter (n : Nat) : (u.states.get n).reporter = (w.states.get n).reporter := by
    by_cases hn : n = id
    · rw [hn, self]
    · rw [others n hn]
  refine ⟨fun n hn => ?_, fun n hn => ?_, fun n hn => ?_, fun i j hi hj e => ?_, fun i j hi hj e => ?_⟩
  · rw [registry, registries]
    exact Nat.lt_of_lt_of_le (h.made n (size ▸ hn)) freed.registries
  · rw [registry, reporter, registries, freed.reporter]
    exact h.told n (size ▸ hn)
  · rw [registry]
    unfold World.machineOf
    rw [registries]
    by_cases hi : n = id
    · rw [hi, self]
      exact freed.gone
    · have apart : (w.states.get n).registry ≠ (w.states.get id).registry := fun e => hi (h.registries n id (size ▸ hn) hid e)
      rw [others n hi]
      exact (freed.machineOf _ apart).trans (h.held n (size ▸ hn))
  · rw [registry, registry] at e
    exact h.registries i j (size ▸ hi) (size ▸ hj) e
  · rw [reporter, reporter] at e
    exact h.reporters i j (size ▸ hi) (size ▸ hj) e

/-- A state with a machine was made. -/
theorem World.made_of_machine {m : Nat} (h : (w.states.get id).machine = some m) : id < w.states.size := by
  refine Nat.lt_of_not_le fun le => ?_
  rw [Pool.get_of_size_le _ le] at h
  cases h

theorem Closing.paired (h : Closing w id w') (k : w.Paired) : w'.Paired := by
  cases h with
  | idle => exact k
  | borrower hm _ hd => exact k.leave (World.made_of_machine hm) hd.dismisses rfl rfl
  | @owner w₁ w₂ w₃ m owns hc _ hd hm =>
    have noted : w₂.Steady (w₂.noteEnd m) := .of_eq rfl rfl rfl
    have freed := hc.steady.dismisses (hd.dismisses.steady (noted.trans hm.steady))
    exact k.leave (World.made_of_machine owns.1) freed rfl rfl

theorem Closing.remembers (h : Closing w id w') : w.Remembers w' := by
  have left {v u : World} (states : v.states.size ≤ u.states.size) (registries : u.registries = v.registries)
      (foreigns : u.foreigns = v.foreigns) : v.Remembers u :=
    .of_eq states (Nat.le_of_eq (by rw [registries])) (fun _ _ => by rw [registries]) foreigns
  cases h with
  | idle => exact .refl w
  | borrower _ _ hd => exact hd.dismisses.toRemembers.trans (left (Pool.size_le_size_modify _ _ _) rfl rfl)
  | @owner w₁ w₂ w₃ m owns hc _ hd hm =>
    have noted : w₂.Steady (w₂.noteEnd m) := .of_eq rfl rfl rfl
    have freed := hc.steady.dismisses (hd.dismisses.steady (noted.trans hm.steady))
    exact freed.toRemembers.trans (left (Pool.size_le_size_modify _ _ _) rfl rfl)

end LuaHost.Host
