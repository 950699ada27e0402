import LuaHost.Proofs.Lives.Ownership

set_option autoImplicit false

/-!
# Functions that machines may still call

A function made through a registry that has a machine is kept for the machine until the machine is closed:
whatever states close before, the machine never calls it dropped. A function made through a registry that
has been closed is not kept, and may still be given to the machine from which the call came.
-/

namespace LuaHost.Host

open Lua (Generation)
open Session (Reached Step step reached_stages reached_lawful)

variable {g : Generation} {w w' : World}

/-- Functions are kept for the machine of their registry while it is open. -/
structure World.Trusty (w : World) : Prop where
  made : ∀ id m, m ∈ (w.foreigns.get id).machines → m < w.machines.size
  keeps : ∀ id m, m ∈ (w.foreigns.get id).machines → (w.foreigns.get id).home = some m → w.Open m → w.Keeps m (.foreign id)
  /-- a function was kept when it was called -/
  entered : ∀ m id isKept, Event.entered m id isKept ∈ w.journal →
    id < w.foreigns.size ∧ ((w.foreigns.get id).home = some m → isKept = true)

theorem World.isKept_iff {w : World} {m : Nat} {f : Lua.Native} : w.isKept m f = true ↔ w.Keeps m f := by
  unfold World.isKept World.Keeps
  simp only [List.any_eq_true, Bool.and_eq_true, beq_iff_eq, List.contains_iff_mem, Prod.exists]
  constructor
  · rintro ⟨n, fs, hmem, rfl, hf⟩
    exact ⟨fs, hmem, hf⟩
  · rintro ⟨fs, hmem, hf⟩
    exact ⟨m, fs, hmem, rfl, hf⟩

/-- A function that a machine has was made. -/
theorem lt_of_mem_machines {id m : Nat} (h : m ∈ (w.foreigns.get id).machines) : id < w.foreigns.size := by
  apply Nat.lt_of_not_le
  intro hle
  rw [Pool.get_of_size_le _ hle] at h
  cases h

namespace World.Trusty

/-- What a world needs to stay trusty when functions, machines and calls are few and known. -/
theorem of_same (ht : w.Trusty) (hf : w'.foreigns = w.foreigns) (size : w.machines.size ≤ w'.machines.size)
    (opened : ∀ m, m < w.machines.size → w'.Open m → w.Open m)
    (keeps : ∀ m f, w'.Open m → w.Keeps m f → w'.Keeps m f)
    (journal : ∃ es, w'.journal = es ++ w.journal ∧ ∀ e ∈ es, ∀ m id isKept, e = .entered m id isKept →
      id < w.foreigns.size ∧ ((w.foreigns.get id).home = some m → isKept = true)) : w'.Trusty where
  made := fun id m hm => Nat.lt_of_lt_of_le (ht.made id m (hf ▸ hm)) size
  keeps := fun id m hm home ho => by
    rw [hf] at hm home
    exact keeps m _ ho (ht.keeps id m hm home (opened m (ht.made id m hm) ho))
  entered := fun m id isKept hmem => by
    obtain ⟨es, he, hes⟩ := journal
    rw [he] at hmem
    rw [hf]
    cases List.mem_append.mp hmem with
    | inl new => exact hes _ new m id isKept rfl
    | inr old => exact ht.entered m id isKept old

end World.Trusty

theorem Move.trusty (h : Move w w') (ht : w.Trusty) : w'.Trusty := by
  have hc := h.continues
  have same (hf : w'.foreigns = w.foreigns) (journal : ∃ es, w'.journal = es ++ w.journal ∧ ∀ e ∈ es, ∀ m id isKept,
      e = .entered m id isKept → id < w.foreigns.size ∧ ((w.foreigns.get id).home = some m → isKept = true)) : w'.Trusty :=
    ht.of_same hf (Nat.le_of_eq hc.machines.symm) (fun m _ ho => (hc.open_iff m).mp ho) (fun _ _ _ hk => h.keeps hk) journal
  cases h with
  | beside h => exact same h.foreigns ⟨[], h.journal, nofun⟩
  | @entered m id ho hm =>
    refine same rfl ⟨[_], rfl, fun e he m' id' isKept hk => ?_⟩
    rw [List.mem_singleton.mp he] at hk
    cases hk
    exact ⟨lt_of_mem_machines hm, fun home => World.isKept_iff.mpr (ht.keeps id m hm home ho)⟩
  | collected | referenced | cached | released =>
    refine same rfl ⟨[_], rfl, fun e he m' id' isKept hk => ?_⟩
    rw [List.mem_singleton.mp he] at hk
    cases hk
  | step | refused | forgotten | kept => exact same rfl ⟨[], rfl, nofun⟩
  | @made routine hr isDirect registry =>
    have old {id m : Nat} (hm : m ∈ ((w.foreigns.add ⟨routine, isDirect, (w.registries.get registry).runtime, registry,
        (w.registries.get registry).reporter, w.machineOf registry, []⟩).get id).machines) : id ≠ w.foreigns.size := by
      rintro rfl
      rw [Pool.get_add_self] at hm
      cases hm
    refine ⟨fun id m hm => ?_, fun id m hm home ho => ?_, fun m id isKept hmem => ?_⟩
    · have hid := old hm
      dsimp only at hm
      rw [Pool.get_add_ne _ hid] at hm
      exact ht.made id m hm
    · have hid := old hm
      dsimp only at hm home
      rw [Pool.get_add_ne _ hid] at hm home
      exact ht.keeps id m hm home ho
    · obtain ⟨hlt, kept⟩ := ht.entered m id isKept hmem
      refine ⟨Nat.lt_of_lt_of_le hlt hc.foreigns, ?_⟩
      dsimp only
      rwa [Pool.get_add_ne _ (Nat.ne_of_lt hlt)]
  | @gave m f ho hg =>
    have home (id : Nat) : ((w.give m f).foreigns.get id).home = (w.foreigns.get id).home := (w.foreign_give m f id).2.2
    have size : w.foreigns.size ≤ (w.give m f).foreigns.size := hc.foreigns
    have given {id n : Nat} : n ∈ ((w.give m f).foreigns.get id).machines →
        n ∈ (w.foreigns.get id).machines ∨ (f = .foreign id ∧ n = m) := World.mem_machines_give
    obtain ⟨foreigns, he⟩ := World.give_eq w m f
    rw [he] at home size given ⊢
    refine ⟨fun id n hn => ?_, fun id n hn hh hopen => ?_, fun n id isKept hmem => ?_⟩
    · cases given hn with
      | inl old => exact ht.made id n old
      | inr new => exact new.2 ▸ ho.lt_size
    · rw [home] at hh
      cases given hn with
      | inl old => exact ht.keeps id n old hh hopen
      | inr new =>
        obtain ⟨hf, rfl⟩ := new
        exact hf ▸ (hg id hf).2.2 hh
    · obtain ⟨hlt, kept⟩ := ht.entered n id isKept hmem
      refine ⟨Nat.lt_of_lt_of_le hlt size, ?_⟩
      rwa [home]

theorem Moves.trusty (h : Moves w w') (ht : w.Trusty) : w'.Trusty := by
  induction h with
  | refl => exact ht
  | tail _ h ih => exact h.trusty ih

theorem Quiet.trusty (h : Quiet g w w') (ht : w.Trusty) : w'.Trusty := by
  cases h with
  | moves h => exact h.trusty ht
  | around h =>
    refine ht.of_same h.foreigns (Nat.le_of_eq (by rw [h.machines])) (fun m _ ho => ?_) (fun m f _ hk => ?_) ⟨[], h.journal, nofun⟩
    · rwa [World.Open, h.machines] at ho
    · rwa [World.Keeps, h.trampolines]
  | born h config _ reporter =>
    have bear : (w.bear g).Trusty := by
      refine ht.of_same rfl (Nat.le_of_lt (Nat.lt_of_lt_of_eq (Nat.lt_succ_self _) (Pool.size_add _ _).symm)) (fun m hm ho => ?_)
        (fun _ _ _ hk => hk) ⟨[_], rfl, fun e he m id isKept hk => ?_⟩
      · obtain ⟨vm, hv⟩ := ho
        exact ⟨vm, (Pool.get_add_ne _ (Nat.ne_of_lt hm) _).symm.trans hv⟩
      · rw [List.mem_singleton.mp he] at hk
        cases hk
    exact (h.trusty bear).of_same rfl (Nat.le_refl _) (fun _ _ ho => ho) (fun _ _ _ hk => hk) ⟨[], rfl, nofun⟩
  | attached | left =>
    exact ht.of_same rfl (Nat.le_refl _) (fun _ _ ho => ho) (fun _ _ _ hk => hk) ⟨[], rfl, nofun⟩
  | dismissed h =>
    cases h with
    | idle _ => exact ht.of_same rfl (Nat.le_refl _) (fun _ _ ho => ho) (fun _ _ _ hk => hk) ⟨[], rfl, nofun⟩
    | @freed w' m _ hf =>
      have apart := hf.apart
      obtain ⟨machines, journal, hw⟩ := apart.rest
      obtain ⟨es, he, hes⟩ := apart.journal
      refine ht.of_same ?_ (Nat.le_of_eq apart.size.symm) (fun m _ ho => (apart.opened m).mp ho) (fun m f _ hk => ?_)
        ⟨es, he, fun e hmem m id isKept hk => ?_⟩
      · rw [hw]
        rfl
      · rw [hw]
        exact hk
      · obtain ⟨slot, rfl⟩ := hes e hmem
        cases hk
  | handed h =>
    refine ht.of_same h.foreigns (Nat.le_of_eq (by rw [h.machines])) (fun m _ ho => ?_) (fun m f _ hk => ?_) ⟨[], h.journal, nofun⟩
    · rwa [World.Open, h.machines] at ho
    · rwa [World.Keeps, h.trampolines]

theorem Stage.trusty (h : Stage g w w') (ht : w.Trusty) : w'.Trusty := by
  cases h with
  | quiet h => exact h.trusty ht
  | @ended w' id m _ _ hm =>
    have noted : (w.noteEnd m).Trusty := by
      refine ht.of_same rfl (Nat.le_refl _) (fun _ _ ho => ho) (fun _ _ _ hk => hk) ⟨[_], rfl, fun e he m id isKept hk => ?_⟩
      rw [List.mem_singleton.mp he] at hk
      cases hk
    have closed : ¬ (w'.bury id m).Open m := fun ⟨vm, hv⟩ => nomatch (Pool.get_put_self _ _ _).symm.trans hv
    refine (hm.trusty noted).of_same rfl (Pool.size_le_size_put _ _ _) (fun n _ ho => ?_) (fun n f ho hk => ?_) ⟨[], rfl, nofun⟩
    · have hn : n ≠ m := fun h => closed (h ▸ ho)
      obtain ⟨vm, hv⟩ := ho
      exact ⟨vm, (Pool.get_put_ne _ hn _).symm.trans hv⟩
    · have hn : n ≠ m := fun h => closed (h ▸ ho)
      obtain ⟨fs, hfs, hf⟩ := hk
      exact ⟨fs, List.mem_filter.mpr ⟨hfs, bne_iff_ne.mpr hn⟩, hf⟩

theorem Stages.trusty (h : Stages g w w') (ht : w.Trusty) : w'.Trusty := by
  induction h with
  | refl => exact ht
  | tail _ h ih => exact h.trusty ih

theorem start_trusty (g : Generation) : (Session.start g).Trusty where
  made := fun id m hm => by
    rw [Pool.get_of_size_le _ (Nat.zero_le id)] at hm
    cases hm
  keeps := fun id m hm => by
    rw [Pool.get_of_size_le _ (Nat.zero_le id)] at hm
    cases hm
  entered := nofun

/-- A function made through a registry that had the machine is kept for it until it is closed, and was kept
whenever the machine called it. Closing a machine by its owner drops all that was kept for it. -/
theorem kept_until_closed (h : Reached g w) :
    w.Trusty ∧ ∀ id m w', w.Owns id m → State.close id Env.full w = .ok () w' → ∀ f, ¬ w'.Keeps m f := by
  refine ⟨Stages.trusty (reached_stages h) (start_trusty g), fun id m w' owns run f => ?_⟩
  obtain ⟨w₁, done, closing⟩ | ⟨e, w₁, error⟩ := close_closing Env.full_follows (reached_lawful h) id
  · cases done.symm.trans run
    exact closing.drops owns f
  · exact nomatch error.symm.trans run

/-- A function given by a state that borrows, called after that state has closed, gives another function. -/
def giveAfterClose : List Step :=
  [⟨"s", none, .new none none .create true⟩, ⟨"b", none, .new none none (.borrow (some "s")) true⟩,
    ⟨"b", none, .set (.path [.text "f"]) (.callable (.named "const" (.const (.callable (.named "echo" .echo))))) false⟩,
    ⟨"b", none, .close⟩, ⟨"s", none, .execute (.text "g = f()")⟩]

theorem giveAfterClose_reached : Reached .v54 (Session.runAll (Session.start .v54) giveAfterClose) := by
  have plain : ∀ s ∈ giveAfterClose, s.command.Plain := by
    intro s hs
    simp only [giveAfterClose, List.mem_cons, List.not_mem_nil, or_false] at hs
    obtain rfl | rfl | rfl | rfl | rfl := hs <;> trivial
  exact Session.Runs.refl.runAll plain (by decide +kernel)

/-- Whether a machine is open. -/
def World.isOpen (w : World) (m : Nat) : Bool :=
  match w.machines.get m with
  | .open _ => true
  | _ => false

theorem World.open_of_isOpen {w : World} {m : Nat} (h : w.isOpen m = true) : w.Open m := by
  unfold World.isOpen at h
  split at h
  · next vm hv => exact ⟨vm, hv⟩
  · cases h

theorem kept_until_closed_lent :
    (Session.runAll (Session.start .v54) giveAfterClose).isKept 0 (.foreign 0) = true :=
  World.isKept_iff.mpr <| (kept_until_closed giveAfterClose_reached).1.keeps 0 0 (by decide +kernel) (by decide +kernel)
    (World.open_of_isOpen (by decide +kernel))

/-- A function that the machine has is not kept although the machine is open. -/
theorem given_not_kept : ∃ w, Reached .v54 w ∧ w.Owns 0 0 ∧ 0 ∈ (w.foreigns.get 1).machines ∧ ¬ w.Keeps 0 (.foreign 1) :=
  ⟨_, giveAfterClose_reached, by decide +kernel, by decide +kernel, fun h => nomatch
    (World.isKept_iff.mpr h).symm.trans (by decide +kernel : (Session.runAll (Session.start .v54) giveAfterClose).isKept 0 (.foreign 1) = false)⟩

end LuaHost.Host
