import Mathlib.Logic.ExistsUnique
import LuaHost.Proofs.Lives.Sessions

set_option autoImplicit false

/-!
# Who owns a machine

A machine is open and owned by exactly one state, or it has been closed once and nobody owns it. Only its
owner closes it, after a collection. What a state that borrows a machine does to the machine is not said
here.
-/

namespace LuaHost.Host

open Lua (Generation)
open Session (Reached Step step reached_stages reached_lawful)

variable {g : Generation} {w w' : World}

/-- The end of machine `m`. -/
def Event.isEnd (m : Nat) : Event → Bool
  | .closed n => n == m
  | _ => false

/-- How often machine `m` was closed. -/
def closings (m : Nat) (journal : List Event) : Nat := journal.countP (Event.isEnd m)

def World.closings (w : World) (m : Nat) : Nat := Host.closings m w.journal

/-- Each machine was collected before it was closed. -/
def CollectedFirst : List Event → Prop
  | [] => True
  | .closed m :: rest => CollectedLast m rest ∧ CollectedFirst rest
  | _ :: rest => CollectedFirst rest

/-- Machine `m` is open and has one owner. -/
structure World.Held (w : World) (m : Nat) : Prop where
  opened : w.Open m
  owner : ∃! id, w.Owns id m
  closings : w.closings m = 0

/-- Machine `m` was closed once, and nobody owns it. -/
structure World.Ended (w : World) (m : Nat) : Prop where
  closed : w.machines.get m = .closed
  owner : ∀ id, ¬ w.Owns id m
  closings : w.closings m = 1

/-- Every machine that was made is held or ended, and was collected before it ended. -/
structure World.Linear (w : World) : Prop where
  machines : ∀ m, m < w.machines.size → w.Held m ∨ w.Ended m
  /-- nobody owns a machine that was not made -/
  made : ∀ id m, w.Owns id m → m < w.machines.size
  fresh : ∀ m, w.machines.size ≤ m → w.closings m = 0
  collected : CollectedFirst w.journal

theorem World.Linear.held {w : World} (hl : w.Linear) {id m : Nat} (h : w.Owns id m) : w.Held m :=
  (hl.machines m (hl.made id m h)).resolve_right fun ended => ended.owner id h

/-! ## Events in between -/

/-- An event that is not the end of a machine. -/
def Event.Quiet (e : Event) : Prop := ∀ m, e.isEnd m = false

theorem Event.Inner.quiet {e : Event} (h : e.Inner) : e.Quiet := by
  intro m
  cases e with
  | closed n => exact h.elim
  | _ => rfl

theorem closings_append {es : List Event} (h : ∀ e ∈ es, e.Quiet) (m : Nat) (journal : List Event) :
    closings m (es ++ journal) = closings m journal := by
  rw [closings, List.countP_append, List.countP_eq_zero.mpr fun e he => ne_true_of_eq_false (h e he m), Nat.zero_add]
  rfl

theorem collectedFirst_append {es : List Event} (h : ∀ e ∈ es, e.Quiet) {journal : List Event} (hj : CollectedFirst journal) :
    CollectedFirst (es ++ journal) := by
  induction es with
  | nil => exact hj
  | cons e rest ih =>
    have after := ih fun d hd => h d (List.mem_cons_of_mem _ hd)
    have quiet := h e List.mem_cons_self
    cases e with
    | closed m => exact absurd (quiet m) (by simp [Event.isEnd])
    | _ => exact after

/-- A world in which machines end no more and no less, and states own what they owned. -/
structure World.Owned (w w' : World) : Prop where
  owns : ∀ id m, w'.Owns id m ↔ w.Owns id m
  size : w'.machines.size = w.machines.size
  opened : ∀ m, w.Open m → w'.Open m
  closed : ∀ m, ¬ w.Open m → w'.machines.get m = w.machines.get m
  journal : ∃ es, w'.journal = es ++ w.journal ∧ ∀ e ∈ es, e.Quiet

namespace World.Owned

theorem closings (h : w.Owned w') (m : Nat) : w'.closings m = w.closings m := by
  obtain ⟨es, he, hes⟩ := h.journal
  rw [World.closings, he, closings_append hes]
  rfl

theorem linear (h : w.Owned w') (hl : w.Linear) : w'.Linear where
  machines := fun m hm => by
    cases hl.machines m (h.size ▸ hm) with
    | inl held =>
      obtain ⟨id, owns, unique⟩ := held.owner
      exact .inl ⟨h.opened m held.opened, ⟨id, (h.owns id m).mpr owns, fun id' owns' => unique id' ((h.owns id' m).mp owns')⟩,
        (h.closings m).trans held.closings⟩
    | inr ended =>
      have shut : ¬ w.Open m := fun ⟨vm, hv⟩ => nomatch ended.closed.symm.trans hv
      exact .inr ⟨(h.closed m shut).trans ended.closed, fun id owns => ended.owner id ((h.owns id m).mp owns),
        (h.closings m).trans ended.closings⟩
  made := fun id m owns => h.size ▸ hl.made id m ((h.owns id m).mp owns)
  fresh := fun m hm => (h.closings m).trans (hl.fresh m (h.size ▸ hm))
  collected := by
    obtain ⟨es, he, hes⟩ := h.journal
    rw [he]
    exact collectedFirst_append hes hl.collected

end World.Owned

theorem World.Continues.owned (h : w.Continues w') : w.Owned w' where
  owns := fun id m => by rw [World.Owns, World.Owns, h.states]
  size := h.machines
  opened := h.opened
  closed := h.closed
  journal := by
    obtain ⟨es, he, hes⟩ := h.journal
    exact ⟨es, he, fun e hmem => (hes e hmem).quiet⟩

theorem World.Around.owned (h : w.Around w') : w.Owned w' where
  owns := fun id m => by rw [World.Owns, World.Owns, h.states]
  size := by rw [h.machines]
  opened := fun m ho => by rwa [World.Open, h.machines]
  closed := fun m _ => by rw [h.machines]
  journal := ⟨[], h.journal, nofun⟩

theorem Dismissal.owned {registry : Nat} (h : Dismissal w registry w') : w.Owned w' := by
  cases h with
  | idle _ => exact ⟨fun _ _ => .rfl, rfl, fun _ h => h, fun _ _ => rfl, [], rfl, nofun⟩
  | @freed w' m _ hf =>
    have apart := hf.apart
    obtain ⟨machines, journal, hw⟩ := apart.rest
    obtain ⟨es, he, hes⟩ := apart.journal
    refine ⟨fun id n => ?_, apart.size, fun n ho => (apart.opened n).mpr ho, apart.closed, es, he, fun e hmem n => ?_⟩
    · rw [hw]
      exact .rfl
    · obtain ⟨slot, rfl⟩ := hes e hmem
      rfl

theorem World.owned_leave (w : World) {id : Nat} (h : (w.states.get id).isOwner = false ∨ (w.states.get id).machine = none) :
    w.Owned { w with states := w.states.modify id fun s => { s with machine := none } } := by
  refine ⟨fun n m => ?_, rfl, fun _ h => h, fun _ _ => rfl, [], rfl, nofun⟩
  by_cases hn : n = id
  · rw [hn]
    constructor
    · rintro ⟨hm, -⟩
      dsimp only at hm
      rw [Pool.get_modify_self] at hm
      cases hm
    · rintro ⟨hm, ho⟩
      cases h with
      | inl borrows => exact nomatch ho.symm.trans borrows
      | inr free => exact nomatch hm.symm.trans free
  · rw [World.Owns, World.Owns]
    dsimp only
    rw [Pool.get_modify_ne _ hn]

/-! ## New states -/

/-- A new state owns the machine that it was made with, if it is an owner; other states own what they owned. -/
theorem World.owns_join {machine : Option Nat} {isOwner : Bool} {config : Config} {runtime reporter id m : Nat} :
    (w.join machine isOwner config runtime reporter).Owns id m ↔
      if id = w.states.size then machine = some m ∧ isOwner = true else w.Owns id m := by
  rw [World.Owns, World.join]
  dsimp only
  split
  · next h => rw [h, Pool.get_add_self]
  · next h =>
    rw [Pool.get_add_ne _ h]
    exact .rfl

theorem World.owned_attach (w : World) (machine : Option Nat) (config : Config) (runtime reporter : Nat) :
    w.Owned (w.join machine false config runtime reporter) := by
  refine ⟨fun id m => ?_, rfl, fun _ h => h, fun _ _ => rfl, [], rfl, nofun⟩
  rw [World.owns_join]
  split
  · next h =>
    refine ⟨fun ⟨_, owns⟩ => (nomatch owns), fun ⟨hm, _⟩ => ?_⟩
    rw [h, Pool.get_of_size_le _ (Nat.le_refl _)] at hm
    cases hm
  · exact .rfl

/-- A new machine is held by the state that it was made for. -/
theorem World.Linear.born (hl : w.Linear) (h : Moves (w.bear g) w') (config : Config) (runtime reporter : Nat) :
    (w'.join (some w.machines.size) true config runtime reporter).Linear := by
  have states : w'.states = w.states := h.continues.states
  have size : w'.machines.size = w.machines.size + 1 := h.continues.machines.trans (Pool.size_add _ _)
  have owned := h.continues.owned
  have closings (m : Nat) : w'.closings m = w.closings m := owned.closings m
  have owns {id m : Nat} : (w'.join (some w.machines.size) true config runtime reporter).Owns id m ↔
      if id = w.states.size then w.machines.size = m else w.Owns id m := by
    rw [World.owns_join, states]
    split
    · rw [Option.some_inj, and_iff_left rfl]
    · rw [World.Owns, World.Owns, states]
  have old {id m : Nat} (ho : w.Owns id m) : id ≠ w.states.size := by
    rintro rfl
    rw [World.Owns, Pool.get_of_size_le _ (Nat.le_refl _)] at ho
    cases ho.1
  refine ⟨fun m hm => ?_, fun id m ho => ?_, fun m hm => ?_, ?_⟩
  · by_cases hnew : m = w.machines.size
    · rw [hnew]
      refine .inl ⟨h.continues.opened _ ⟨_, Pool.get_add_self _ _⟩, ⟨w.states.size, ?_, fun id ho => ?_⟩, ?_⟩
      · exact owns.mpr (if_pos rfl ▸ rfl)
      · have either := owns.mp ho
        split at either
        · next hid => exact hid
        · exact absurd (hl.made id _ either) (Nat.lt_irrefl _)
      · exact (closings _).trans (hl.fresh _ (Nat.le_refl _))
    have hlt : m < w.machines.size := Nat.lt_of_le_of_ne (Nat.le_of_lt_succ (Nat.lt_of_lt_of_eq hm size)) hnew
    have same : (w.bear g).machines.get m = w.machines.get m := Pool.get_add_ne _ hnew _
    cases hl.machines m hlt with
    | inl held =>
      obtain ⟨vm, hv⟩ := held.opened
      obtain ⟨id, ho, unique⟩ := held.owner
      refine .inl ⟨h.continues.opened m ⟨vm, same.trans hv⟩, ⟨id, ?_, fun id' ho' => ?_⟩, (closings m).trans held.closings⟩
      · exact owns.mpr (by rwa [if_neg (old ho)])
      · have either := owns.mp ho'
        split at either
        · exact absurd either.symm hnew
        · exact unique id' either
    | inr ended =>
      have shut : ¬ (w.bear g).Open m := by
        rintro ⟨vm, hv⟩
        cases (same.trans ended.closed).symm.trans hv
      refine .inr ⟨(h.continues.closed m shut).trans (same.trans ended.closed), fun id ho => ?_, (closings m).trans ended.closings⟩
      rw [owns] at ho
      split at ho
      · exact hnew ho.symm
      · exact ended.owner id ho
  · rw [owns] at ho
    split at ho
    · rw [← ho]
      exact Nat.lt_of_lt_of_eq (Nat.lt_succ_self _) size.symm
    · exact Nat.lt_of_lt_of_le (hl.made id m ho) (Nat.le_of_lt (Nat.lt_of_lt_of_eq (Nat.lt_succ_self _) size.symm))
  · exact (closings m).trans (hl.fresh m (Nat.le_of_succ_le (Nat.le_trans (Nat.le_of_eq size.symm) hm)))
  · have created : CollectedFirst (w.bear g).journal := hl.collected
    obtain ⟨es, he, hes⟩ := owned.journal
    change CollectedFirst w'.journal
    rw [he]
    exact collectedFirst_append hes created

/-! ## Machines that change hands and end -/

theorem World.Hands.owns {source target : Nat} (h : w.Hands source target w') (id m : Nat) :
    w'.Owns id m ↔ (id = target ∧ w.Owns source m) ∨ (id ≠ source ∧ id ≠ target ∧ w.Owns id m) := by
  unfold World.Owns
  by_cases ht : id = target
  · rw [ht, h.machine, h.isOwner]
    simp only [true_and, ne_eq, not_true_eq_false, false_and, and_false, or_false]
  by_cases hs : id = source
  · rw [hs, h.left]
    simp only [h.apart, ne_eq, not_true_eq_false, false_and, or_false, reduceCtorEq]
  · rw [h.others id hs ht]
    simp only [ht, hs, false_and, ne_eq, not_false_eq_true, true_and, false_or]

theorem World.Hands.linear {source target : Nat} (h : w.Hands source target w') (hl : w.Linear) : w'.Linear := by
  have closings (m : Nat) : w'.closings m = w.closings m := congrArg (Host.closings m) h.journal
  have unowned (m : Nat) : ¬ w.Owns target m := fun ho => nomatch h.free.symm.trans ho.1
  refine ⟨fun m hm => ?_, fun id m ho => ?_, fun m hm => ?_, ?_⟩
  · rw [h.machines] at hm
    cases hl.machines m hm with
    | inl held =>
      obtain ⟨id, ho, unique⟩ := held.owner
      refine .inl ⟨?_, ?_, (closings m).trans held.closings⟩
      · rw [World.Open, h.machines]
        exact held.opened
      by_cases hs : id = source
      · rw [hs] at ho unique
        refine ⟨target, (h.owns target m).mpr (.inl ⟨rfl, ho⟩), fun id' ho' => ?_⟩
        obtain ⟨same, -⟩ | ⟨other, -, owns⟩ := (h.owns id' m).mp ho'
        · exact same
        · exact absurd (unique id' owns) other
      · refine ⟨id, (h.owns id m).mpr (.inr ⟨hs, fun ht => unowned m (ht ▸ ho), ho⟩), fun id' ho' => ?_⟩
        obtain ⟨-, owns⟩ | ⟨-, -, owns⟩ := (h.owns id' m).mp ho'
        · exact absurd (unique source owns).symm hs
        · exact unique id' owns
    | inr ended =>
      refine .inr ⟨by rw [h.machines]; exact ended.closed, fun id ho => ?_, (closings m).trans ended.closings⟩
      obtain ⟨-, owns⟩ | ⟨-, -, owns⟩ := (h.owns id m).mp ho
      · exact ended.owner _ owns
      · exact ended.owner _ owns
  · rw [h.machines]
    obtain ⟨-, owns⟩ | ⟨-, -, owns⟩ := (h.owns id m).mp ho
    · exact hl.made _ _ owns
    · exact hl.made _ _ owns
  · rw [h.machines] at hm
    exact (closings m).trans (hl.fresh m hm)
  · rw [h.journal]
    exact hl.collected

/-- The machine that a state owns ends; other states own what they owned. -/
theorem World.owns_bury {id m n k : Nat} : (w.bury id m).Owns n k ↔ n ≠ id ∧ w.Owns n k := by
  unfold World.Owns World.bury
  by_cases h : n = id
  · rw [h]
    dsimp only
    rw [Pool.get_modify_self]
    simp only [reduceCtorEq, false_and, ne_eq, not_true_eq_false]
  · dsimp only
    rw [Pool.get_modify_ne _ h]
    simp only [h, ne_eq, not_false_eq_true, true_and]

theorem World.Linear.ended {id m : Nat} (hl : w.Linear) (h : w.Owns id m) (hc : CollectedLast m w.journal)
    (hm : Moves (w.noteEnd m) w') : (w'.bury id m).Linear := by
  have owned := hm.continues.owned
  have owns {n k : Nat} : (w'.bury id m).Owns n k ↔ n ≠ id ∧ w.Owns n k :=
    World.owns_bury.trans (and_congr_right fun _ => owned.owns n k)
  have held : w.Held m := hl.held h
  obtain ⟨owner, -, unique⟩ := held.owner
  have size : (w'.bury id m).machines.size = w.machines.size :=
    (Pool.size_put _ (Nat.lt_of_lt_of_eq (hl.made id m h) owned.size.symm) _).trans owned.size
  have closings (k : Nat) : (w'.bury id m).closings k = w.closings k + if m = k then 1 else 0 := by
    refine (owned.closings k).trans ?_
    rw [World.closings, Host.closings, World.noteEnd, List.countP_cons]
    simp only [Event.isEnd, beq_iff_eq]
    rfl
  have others {k : Nat} (hk : m ≠ k) : (w'.bury id m).closings k = w.closings k := by
    rw [closings, if_neg hk, Nat.add_zero]
  refine ⟨fun k hk => ?_, fun n k ho => ?_, fun k hk => ?_, ?_⟩
  · by_cases same : k = m
    · subst same
      refine .inr ⟨Pool.get_put_self _ _ _, fun n ho => ?_, ?_⟩
      · obtain ⟨hn, ho⟩ := owns.mp ho
        exact hn ((unique n ho).trans (unique id h).symm)
      · rw [closings, held.closings, if_pos rfl]
    have get : (w'.bury id m).machines.get k = w'.machines.get k := Pool.get_put_ne _ same _
    cases hl.machines k (Nat.lt_of_lt_of_eq hk size) with
    | inl held =>
      obtain ⟨vm, hv⟩ := owned.opened k held.opened
      obtain ⟨n, ho, unique⟩ := held.owner
      refine .inl ⟨⟨vm, get.trans hv⟩, ⟨n, owns.mpr ⟨?_, ho⟩, fun n' ho' => unique n' (owns.mp ho').2⟩,
        (others (Ne.symm same)).trans held.closings⟩
      rintro rfl
      exact same (Option.some_inj.mp (ho.1.symm.trans h.1))
    | inr ended =>
      have shut : ¬ (w.noteEnd m).Open k := by
        rintro ⟨vm, hv⟩
        cases ended.closed.symm.trans hv
      exact .inr ⟨get.trans ((owned.closed k shut).trans ended.closed), fun n ho => ended.owner n (owns.mp ho).2,
        (others (Ne.symm same)).trans ended.closings⟩
  · exact Nat.lt_of_lt_of_eq (hl.made n k (owns.mp ho).2) size.symm
  · have hk' : w.machines.size ≤ k := Nat.le_trans (Nat.le_of_eq size.symm) hk
    have hne : m ≠ k := Nat.ne_of_lt (Nat.lt_of_lt_of_le (hl.made id m h) hk')
    exact (others hne).trans (hl.fresh k hk')
  · have noted : CollectedFirst (w.noteEnd m).journal := ⟨hc, hl.collected⟩
    obtain ⟨es, he, hes⟩ := owned.journal
    change CollectedFirst w'.journal
    rw [he]
    exact collectedFirst_append hes noted

/-! ## Runs -/

theorem Quiet.linear (h : Quiet g w w') (hl : w.Linear) : w'.Linear := by
  cases h with
  | moves h => exact h.continues.owned.linear hl
  | around h => exact h.owned.linear hl
  | born h config _ reporter => exact hl.born h config _ reporter
  | attached machine config _ reporter => exact (w.owned_attach machine config _ reporter).linear hl
  | dismissed h => exact h.owned.linear hl
  | left h => exact (w.owned_leave h).linear hl
  | handed h => exact h.linear hl

theorem Stage.linear (h : Stage g w w') (hl : w.Linear) : w'.Linear := by
  cases h with
  | quiet h => exact h.linear hl
  | ended h hc hm => exact hl.ended h hc hm

theorem Stages.linear (h : Stages g w w') (hl : w.Linear) : w'.Linear := by
  induction h with
  | refl => exact hl
  | tail _ h ih => exact h.linear ih

instance (w : World) (id m : Nat) : Decidable (w.Owns id m) := inferInstanceAs (Decidable (_ ∧ _))

theorem Quiet.closings (h : Quiet g w w') (m : Nat) : w'.closings m = w.closings m := by
  cases h with
  | moves h => exact h.continues.owned.closings m
  | around h => exact h.owned.closings m
  | born h _ _ _ => exact h.continues.owned.closings m
  | attached machine config _ reporter => exact (w.owned_attach machine config _ reporter).closings m
  | dismissed h => exact h.owned.closings m
  | left h => exact (w.owned_leave h).closings m
  | handed h => exact congrArg (Host.closings m) h.journal

theorem Quiets.closings (h : Quiets g w w') (m : Nat) : w'.closings m = w.closings m := by
  induction h with
  | refl => rfl
  | tail _ h ih => exact (h.closings m).trans ih

/-- A state that closes ends the machine that it owns, and no other. -/
theorem Closing.closings {id : Nat} (h : Closing w id w') (m : Nat) :
    w'.closings m = w.closings m + if w.Owns id m then 1 else 0 := by
  cases h with
  | idle free =>
    have unowned : ¬ w.Owns id m := fun ho => nomatch free.symm.trans ho.1
    rw [if_neg unowned]
    rfl
  | borrower _ borrows hd =>
    have unowned : ¬ w.Owns id m := fun ho => nomatch ho.2.symm.trans borrows
    rw [if_neg unowned]
    exact hd.owned.closings m
  | @owner w₁ w₂ w₃ n owns hc _ hd hm =>
    have before : w₂.closings m = w.closings m := (hd.owned.closings m).trans (hc.continues.owned.closings m)
    have same : n = m ↔ w.Owns id m := by
      refine ⟨fun h => h ▸ owns, fun ho => Option.some_inj.mp (owns.1.symm.trans ho.1)⟩
    refine (hm.continues.owned.closings m).trans ?_
    rw [World.closings, Host.closings, World.noteEnd, List.countP_cons, ← before]
    simp only [Event.isEnd, beq_iff_eq, same]
    rfl

end LuaHost.Host
