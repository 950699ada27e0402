import Mathlib.Order.Basic
import LuaHost.Proofs.Lives.Stages

set_option autoImplicit false

/-!
# What every stage keeps

In a lawful world functions, states and kept selectors go with registries of their own machines, and all
machines are of the generation that the runtimes have.
-/

namespace LuaHost.Host

open Lua (Vm Generation)

structure World.Lawful (g : Generation) (w : World) : Prop extends w.Sound where
  generations : ∀ m vm, w.machines.get m = .open vm → vm.generation = g
  generation : ∀ n, n < 2 → (w.runtimes.get n).generation = g
  stateRuntime : ∀ id, (w.states.get id).runtime < 2
  registryRuntime : ∀ id, (w.registries.get id).runtime < 2

variable {g : Generation} {w w' : World}

/-! ## Machines that stay what they are -/

/-- Every open machine goes on as a machine that was open, of the same generation. -/
theorem machines_put {m : Nat} {vm vm' : Vm} (hm : w.machines.get m = .open vm) (hg : vm'.generation = vm.generation)
    (h : ∀ n v, w.machines.get n = .open v → v.generation = g) (n : Nat) (v : Vm)
    (hv : (w.machines.put m (.open vm')).get n = .open v) : v.generation = g := by
  by_cases hn : n = m
  · rw [hn, Pool.get_put_self] at hv
    cases hv
    exact hg.trans (h m vm hm)
  · rw [Pool.get_put_ne _ hn] at hv
    exact h n v hv

theorem Move.generations (h : Move w w') (hg : ∀ m vm, w.machines.get m = .open vm → vm.generation = g) (m : Nat) (vm : Vm)
    (hm : w'.machines.get m = .open vm) : vm.generation = g := by
  cases h with
  | step ho hp => exact machines_put ho hp.generation hg m vm hm
  | refused ho he => exact machines_put ho he.generation hg m vm hm
  | referenced ho _ hp => exact machines_put ho hp.edits.generation hg m vm hm
  | cached ho _ _ hp => exact machines_put ho hp.edits.generation hg m vm hm
  | released ho _ _ hp => exact machines_put ho hp.generation hg m vm hm
  | beside hb => exact hg m vm (hb.machines ▸ hm)
  | @gave n f _ _ =>
    obtain ⟨foreigns, he⟩ := World.give_eq w n f
    rw [he] at hm
    exact hg m vm hm
  | _ => exact hg m vm hm

theorem Moves.generations (h : Moves w w') (hg : ∀ m vm, w.machines.get m = .open vm → vm.generation = g) :
    ∀ m vm, w'.machines.get m = .open vm → vm.generation = g := by
  induction h with
  | refl => exact hg
  | tail _ h ih => exact h.generations ih

theorem Move.registryRuntime (h : Move w w') (id : Nat) :
    (w'.registries.get id).runtime = (w.registries.get id).runtime := by
  cases h with
  | beside hb => rw [hb.registries]
  | @cached _ registry =>
    by_cases hid : id = registry
    · rw [hid]
      dsimp only
      rw [Pool.get_modify_self]
    · dsimp only
      rw [Pool.get_modify_ne _ hid]
  | @gave n f _ _ =>
    obtain ⟨foreigns, he⟩ := World.give_eq w n f
    rw [he]
  | _ => rfl

theorem Moves.registryRuntime (h : Moves w w') (id : Nat) :
    (w'.registries.get id).runtime = (w.registries.get id).runtime := by
  induction h with
  | refl => rfl
  | tail _ h ih => exact (h.registryRuntime id).trans ih

theorem Moves.lawful (h : Moves w w') (hl : w.Lawful g) : w'.Lawful g where
  toSound := h.sound hl.toSound
  generations := h.generations hl.generations
  generation := fun n hn => by rw [h.continues.runtimes]; exact hl.generation n hn
  stateRuntime := fun id => by rw [h.continues.states]; exact hl.stateRuntime id
  registryRuntime := fun id => by rw [h.registryRuntime]; exact hl.registryRuntime id

/-! ## Pairs -/

theorem World.Around.pairs (h : w.Around w') {m registry : Nat} (hp : w.Pairs m registry) : w'.Pairs m registry := by
  rw [Pairs, machineOf, h.registries]
  exact hp

/-- A registry pins values of the machine that it pinned values of before, or of none. -/
structure World.Loosens (w w' : World) : Prop where
  size : w.registries.size ≤ w'.registries.size
  machineOf : ∀ r, r < w.registries.size → w'.machineOf r = w.machineOf r ∨ w'.machineOf r = none

theorem World.Loosens.pairs (h : w.Loosens w') {m registry : Nat} (hp : w.Pairs m registry) : w'.Pairs m registry := by
  obtain ⟨size, hm⟩ := hp
  refine ⟨Nat.lt_of_lt_of_le size h.size, ?_⟩
  cases h.machineOf registry size with
  | inl same => rwa [same]
  | inr none => exact .inl none

theorem World.Loosens.add {r : Registry} (hr : w'.registries = w.registries.add r) : w.Loosens w' := by
  refine ⟨?_, fun id hid => .inl ?_⟩
  · rw [hr, Pool.size_add]
    exact Nat.le_succ _
  · rw [World.machineOf, World.machineOf, hr, Pool.get_add_ne _ (Nat.ne_of_lt hid)]

theorem World.loosens_dismiss (w : World) {registry : Nat} : w.Loosens (w.dismiss registry) := by
  refine ⟨Pool.size_le_size_modify _ _ _, fun id _ => ?_⟩
  unfold World.machineOf World.dismiss
  by_cases h : id = registry
  · right
    rw [h]
    dsimp only
    rw [Pool.get_modify_self]
  · left
    dsimp only
    rw [Pool.get_modify_ne _ h]

/-! ## Registries that close -/

/-- What giving back slots leaves as it was. -/
structure World.Apart (m : Nat) (w w' : World) : Prop where
  rest : ∃ machines journal, w' = { w with machines, journal }
  opened : ∀ n, w'.Open n ↔ w.Open n
  closed : ∀ n, ¬ w.Open n → w'.machines.get n = w.machines.get n
  size : w'.machines.size = w.machines.size
  journal : ∃ es, w'.journal = es ++ w.journal ∧ ∀ e ∈ es, ∃ slot, e = .unpinned m slot

theorem Frees.apart {m : Nat} {slots : List Int} (h : Frees m slots w w') : w.Apart m w' := by
  induction h with
  | nil w => exact ⟨⟨_, _, rfl⟩, fun _ => .rfl, fun _ _ => rfl, rfl, [], rfl, nofun⟩
  | @cons w w' vm vm' slot slots hm _ _ ih =>
    have put := World.Continues.put hm vm'
    obtain ⟨machines, journal, hw⟩ := ih.rest
    obtain ⟨es, he, hes⟩ := ih.journal
    refine ⟨⟨machines, journal, hw⟩, fun n => (ih.opened n).trans (put.open_iff n), fun n hn => ?_,
      ih.size.trans put.machines, es ++ [.unpinned m (int32 slot)], ?_, fun e hmem => ?_⟩
    · exact (ih.closed n fun ho => hn ((put.open_iff n).mp ho)).trans (put.closed n hn)
    · rw [he, List.append_assoc]
      rfl
    · cases List.mem_append.mp hmem with
      | inl h => exact hes e h
      | inr h => exact ⟨_, List.mem_singleton.mp h⟩

theorem Frees.generations {m : Nat} {slots : List Int} (h : Frees m slots w w')
    (hg : ∀ m vm, w.machines.get m = .open vm → vm.generation = g) :
    ∀ m vm, w'.machines.get m = .open vm → vm.generation = g := by
  induction h with
  | nil w => exact hg
  | cons hm h _ ih => exact ih (machines_put hm h.generation hg)

/-! ## Lawful worlds -/

/-- What a function, a state or a kept selector needs of the registries. -/
theorem World.Sound.loosen (hs : w.Sound) (hl : w.Loosens w') (runtimes : ∀ n, Honest (w'.runtimes.get n))
    (foreigns : w'.foreigns = w.foreigns)
    (states : ∀ id m, (w'.states.get id).machine = some m → w'.Pairs m (w'.states.get id).registry)
    (stored : w'.stored = w.stored) : w'.Sound where
  runtimes := runtimes
  routines := fun id => by rw [foreigns]; exact hs.routines id
  given := fun id m hm => by
    rw [foreigns] at hm ⊢
    exact hl.pairs (hs.given id m hm)
  states := states
  stored := fun name s m hmem hm => by
    rw [stored] at hmem
    exact hl.pairs (hs.stored name s m hmem hm)

/-- A world with one more machine. -/
theorem World.Lawful.bear (hl : w.Lawful g) : (w.bear g).Lawful g where
  toSound := hl.toSound.loosen ⟨Nat.le_refl _, fun _ _ => .inl rfl⟩ hl.runtimes rfl hl.states rfl
  generations := fun m vm hm => by
    by_cases h : m = w.machines.size
    · rw [h] at hm
      cases (Pool.get_add_self _ _).symm.trans hm
      unfold Lua.Stack.newMachine
      dsimp only
      split
      · rfl
      · rfl
    · exact hl.generations m vm ((Pool.get_add_ne _ h _).symm.trans hm)
  generation := hl.generation
  stateRuntime := hl.stateRuntime
  registryRuntime := hl.registryRuntime

theorem World.Lawful.noteEnd (hl : w.Lawful g) (m : Nat) : (w.noteEnd m).Lawful g :=
  ⟨⟨hl.runtimes, hl.routines, hl.given, hl.states, hl.stored⟩, hl.generations, hl.generation, hl.stateRuntime,
    hl.registryRuntime⟩

/-- A world with one more state, whose registry goes with its machine. -/
theorem World.Lawful.join (hl : w.Lawful g) (machine : Option Nat) (isOwner : Bool) (config : Config) {runtime : Nat}
    (hr : runtime < 2) (reporter : Nat) : (w.join machine isOwner config runtime reporter).Lawful g := by
  have loosens : w.Loosens (w.join machine isOwner config runtime reporter) := .add rfl
  refine ⟨hl.toSound.loosen loosens hl.runtimes rfl (fun id m hm => ?_) rfl, hl.generations, hl.generation, fun id => ?_,
    fun id => ?_⟩
  · by_cases h : id = w.states.size
    · rw [h] at hm ⊢
      have self : (w.join machine isOwner config runtime reporter).states.get w.states.size =
          ⟨machine, isOwner, config, runtime, reporter, w.registries.size⟩ := Pool.get_add_self _ _
      rw [self] at hm ⊢
      refine ⟨?_, .inr ?_⟩
      · exact Nat.lt_of_lt_of_eq (Nat.lt_succ_self _) (Pool.size_add _ _).symm
      · exact (congrArg Registry.machine (Pool.get_add_self _ _)).trans hm
    · have other : (w.join machine isOwner config runtime reporter).states.get id = w.states.get id := Pool.get_add_ne _ h _
      rw [other] at hm ⊢
      exact loosens.pairs (hl.states id m hm)
  · by_cases h : id = w.states.size
    · rw [h]
      exact (congrArg State.runtime (Pool.get_add_self _ _)).trans_lt hr
    · exact (congrArg State.runtime (Pool.get_add_ne _ h _)).trans_lt (hl.stateRuntime id)
  · by_cases h : id = w.registries.size
    · rw [h]
      exact (congrArg Registry.runtime (Pool.get_add_self _ _)).trans_lt hr
    · exact (congrArg Registry.runtime (Pool.get_add_ne _ h _)).trans_lt (hl.registryRuntime id)

/-- A world in which a registry has closed. -/
theorem Dismissal.lawful {registry : Nat} (h : Dismissal w registry w') (hl : w.Lawful g) : w'.Lawful g := by
  have dismiss {w : World} (hl : w.Lawful g) : (w.dismiss registry).Lawful g := by
    refine ⟨hl.toSound.loosen w.loosens_dismiss hl.runtimes rfl (fun id m hm => w.loosens_dismiss.pairs (hl.states id m hm)) rfl,
      hl.generations, hl.generation, hl.stateRuntime, fun id => ?_⟩
    by_cases h : id = registry
    · rw [h]
      unfold World.dismiss
      dsimp only
      rw [Pool.get_modify_self]
      exact hl.registryRuntime registry
    · unfold World.dismiss
      dsimp only
      rw [Pool.get_modify_ne _ h]
      exact hl.registryRuntime id
  cases h with
  | idle _ => exact dismiss hl
  | @freed w' m _ hf =>
    have generations := hf.generations hl.generations
    obtain ⟨machines, journal, rfl⟩ := hf.apart.rest
    exact dismiss ⟨hl.toSound.loosen ⟨Nat.le_refl _, fun _ _ => .inl rfl⟩ hl.runtimes rfl hl.states rfl, generations,
      hl.generation, hl.stateRuntime, hl.registryRuntime⟩

/-- A world in which a state has let its machine go. -/
theorem World.Lawful.leave (hl : w.Lawful g) (id : Nat) :
    { w with states := w.states.modify id fun s => { s with machine := none } }.Lawful g := by
  refine ⟨hl.toSound.loosen ⟨Nat.le_refl _, fun _ _ => .inl rfl⟩ hl.runtimes rfl (fun n m hm => ?_) rfl, hl.generations,
    hl.generation, fun n => ?_, hl.registryRuntime⟩
  · by_cases h : n = id
    · rw [h] at hm
      dsimp only at hm
      rw [Pool.get_modify_self] at hm
      cases hm
    · dsimp only at hm ⊢
      rw [Pool.get_modify_ne _ h] at hm ⊢
      exact hl.states n m hm
  · by_cases h : n = id
    · rw [h]
      dsimp only
      rw [Pool.get_modify_self]
      exact hl.stateRuntime id
    · dsimp only
      rw [Pool.get_modify_ne _ h]
      exact hl.stateRuntime n

/-- A world in which a machine is gone, with what was kept for it. -/
theorem World.Lawful.shut (hl : w.Lawful g) (m : Nat) : { w with
    machines := w.machines.put m .closed
    trampolines := w.trampolines.filter fun (n, _) => n != m }.Lawful g := by
  refine ⟨hl.toSound.loosen ⟨Nat.le_refl _, fun _ _ => .inl rfl⟩ hl.runtimes rfl hl.states rfl, fun n vm hn => ?_,
    hl.generation, hl.stateRuntime, hl.registryRuntime⟩
  by_cases h : n = m
  · rw [h] at hn
    cases (Pool.get_put_self _ _ _).symm.trans hn
  · exact hl.generations n vm ((Pool.get_put_ne _ h _).symm.trans hn)

theorem World.Lawful.bury (hl : w.Lawful g) (id m : Nat) : (w.bury id m).Lawful g := (hl.shut m).leave id

/-- A world in which nothing that functions and machines depend on has changed. -/
theorem World.Around.lawful (h : w.Around w') (hl : w.Lawful g) : w'.Lawful g where
  runtimes := fun n => h.honest n (hl.runtimes n)
  routines := fun id => by rw [h.foreigns]; exact hl.routines id
  given := fun id m hm => by
    rw [h.foreigns] at hm ⊢
    exact h.pairs (hl.given id m hm)
  states := fun id m hm => by
    rw [h.states] at hm ⊢
    exact h.pairs (hl.states id m hm)
  stored := fun name s m hmem hm => by
    cases h.stored name s hmem with
    | inl old =>
      obtain ⟨name, old⟩ := old
      exact h.pairs (hl.stored name s m old hm)
    | inr new => exact h.pairs (new m hm)
  generations := fun m vm hm => hl.generations m vm (h.machines ▸ hm)
  generation := fun n hn => (h.generation n).trans (hl.generation n hn)
  stateRuntime := fun id => by rw [h.states]; exact hl.stateRuntime id
  registryRuntime := fun id => by rw [h.registries]; exact hl.registryRuntime id

/-- A world in which a machine has changed hands. -/
theorem World.Hands.lawful {source target : Nat} (h : w.Hands source target w') (hl : w.Lawful g) : w'.Lawful g := by
  obtain ⟨reporter, registries⟩ := h.registries
  have loosens : w.Loosens w' := .add registries
  refine ⟨hl.toSound.loosen loosens (fun n => h.runtimes ▸ hl.runtimes n) h.foreigns (fun id m hm => ?_) h.stored,
    fun m vm hm => hl.generations m vm (h.machines ▸ hm), fun n hn => h.runtimes ▸ hl.generation n hn, fun id => ?_,
    fun id => ?_⟩
  · by_cases ht : id = target
    · rw [ht] at hm ⊢
      rw [h.registry]
      exact loosens.pairs (hl.states source m (h.machine.symm.trans hm))
    by_cases hs : id = source
    · rw [hs, h.left] at hm
      cases hm
    rw [h.others id hs ht] at hm ⊢
    exact loosens.pairs (hl.states id m hm)
  · by_cases ht : id = target
    · rw [ht, h.runtime]
      exact hl.stateRuntime source
    by_cases hs : id = source
    · rw [hs, h.leftRuntime]
      exact hl.stateRuntime source
    rw [h.others id hs ht]
    exact hl.stateRuntime id
  · rw [registries]
    by_cases hid : id = w.registries.size
    · rw [hid]
      exact (congrArg Registry.runtime (Pool.get_add_self _ _)).trans_lt (hl.stateRuntime source)
    · exact (congrArg Registry.runtime (Pool.get_add_ne _ hid _)).trans_lt (hl.registryRuntime id)

theorem Quiet.lawful (h : Quiet g w w') (hl : w.Lawful g) : w'.Lawful g := by
  cases h with
  | moves h => exact h.lawful hl
  | around h => exact h.lawful hl
  | born h config hr reporter => exact (h.lawful hl.bear).join _ _ config hr reporter
  | attached machine config hr reporter => exact hl.join _ _ config hr reporter
  | dismissed h => exact h.lawful hl
  | left h => exact hl.leave _
  | handed h => exact h.lawful hl

theorem Stage.lawful (h : Stage g w w') (hl : w.Lawful g) : w'.Lawful g := by
  cases h with
  | quiet h => exact h.lawful hl
  | ended h hc hm => exact (hm.lawful (hl.noteEnd _)).bury _ _

theorem Quiets.lawful (h : Quiets g w w') (hl : w.Lawful g) : w'.Lawful g := by
  induction h with
  | refl => exact hl
  | tail _ h ih => exact h.lawful ih

theorem Stages.lawful (h : Stages g w w') (hl : w.Lawful g) : w'.Lawful g := by
  induction h with
  | refl => exact hl
  | tail _ h ih => exact h.lawful ih

/-! ## The libraries of functions -/

theorem World.runtime_give (w : World) (m : Nat) (f : Lua.Native) (id : Nat) :
    ((w.give m f).foreigns.get id).runtime = (w.foreigns.get id).runtime := by
  unfold World.give
  cases f with
  | foreign n =>
    dsimp only
    split
    · rfl
    · by_cases h : id = n
      · rw [h]
        dsimp only
        rw [Pool.get_modify_self]
      · dsimp only
        rw [Pool.get_modify_ne _ h]
  | _ => rfl

/-- Functions were made with runtimes that there are. -/
def World.Equipped (w : World) : Prop := ∀ id, (w.foreigns.get id).runtime < 2

namespace World.Equipped

theorem of_eq (h : w.Equipped) (same : w'.foreigns = w.foreigns) : w'.Equipped := fun id => same ▸ h id

theorem move (h : w.Equipped) (hr : ∀ id, (w.registries.get id).runtime < 2) (k : Move w w') : w'.Equipped := by
  cases k with
  | beside hb => exact h.of_eq hb.foreigns
  | @made routine _ isDirect registry =>
    intro id
    by_cases hid : id = w.foreigns.size
    · rw [hid]
      dsimp only
      rw [Pool.get_add_self]
      exact hr registry
    · dsimp only
      rw [Pool.get_add_ne _ hid]
      exact h id
  | @gave n f _ _ => exact fun id => (w.runtime_give n f id).symm ▸ h id
  | _ => exact h

theorem moves (h : w.Equipped) (hr : ∀ id, (w.registries.get id).runtime < 2) (k : Moves w w') : w'.Equipped := by
  induction k with
  | refl => exact h
  | tail moves move ih => exact ih.move (fun id => (Moves.registryRuntime moves id).symm ▸ hr id) move

theorem stage (h : w.Equipped) (hl : w.Lawful g) (k : Stage g w w') : w'.Equipped := by
  cases k with
  | @ended w' id m _ _ hm =>
    have noted : (w.noteEnd m).Equipped := h
    have moved := noted.moves hl.registryRuntime hm
    exact moved
  | quiet k =>
    cases k with
    | moves k => exact h.moves hl.registryRuntime k
    | around k => exact h.of_eq k.foreigns
    | born k =>
      have bear : (w.bear g).Equipped := h
      have moved := bear.moves hl.registryRuntime k
      exact moved
    | attached | left => exact h
    | dismissed k =>
      cases k with
      | idle _ => exact h
      | freed _ hf =>
        obtain ⟨machines, journal, rfl⟩ := hf.apart.rest
        exact h
    | handed k => exact h.of_eq k.foreigns

theorem stages (h : w.Equipped) (hl : w.Lawful g) (k : Stages g w w') : w'.Equipped := by
  induction k with
  | refl => exact h
  | tail stages stage ih => exact ih.stage (Stages.lawful stages hl) stage

end World.Equipped

end LuaHost.Host
