import Mathlib.Data.List.Nodup
import LuaHost.Proofs.Lives.Ownership
import LuaHost.Proofs.Slots.Moves

set_option autoImplicit false

/-!
# Slots are never shared and never released twice

Machines, states and registries come and go without two holders ever getting one slot. A registry that
closes gives back the slots of its chunks, which nothing else holds.
-/

namespace LuaHost.Host

open Lua (Vm Generation)
open Session (Reached Runs Step start_lawful reached_stages reached_lawful)

variable {g : Generation} {w w' : World}

/-! ## Machines and registries that are made -/

theorem newMachine_tame (g : Generation) : (Lua.Stack.newMachine g).Tame := by
  have vacant (n : Int64) (hn : n.toInt < 0) : (Lua.Stack.newMachine g).entry n = .nil := by
    have ne (k : Int64) (hk : ¬ k.toInt < 0) : Lua.Key.int n ≠ .int k := by
      intro h
      cases h
      exact hk hn
    have second := ne 2 (by decide)
    have first := ne 1 (by decide)
    cases g with
    | v51 => rfl
    | _ => exact (Lua.Table.get_set_ne _ _ _ second _ _ _).trans (Lua.Table.get_set_ne _ _ _ first _ _ _)
  cases g with
  | v51 => exact ⟨by decide, rfl, vacant⟩
  | _ => exact ⟨by decide +kernel, rfl, vacant⟩

theorem World.Assigned.bear (ha : w.Assigned g) : w.Carries g (w.bear g) := by
  have grows : w.Grows (w.bear g) := by
    refine ⟨Nat.le_of_lt (Nat.lt_of_lt_of_eq (Nat.lt_succ_self _) (Pool.size_add _ _).symm), Nat.le_refl _, ha.registered,
      fun m vm hv fine => ?_, ha.frugal⟩
    by_cases hm : m = w.machines.size
    · rw [hm] at hv
      cases (Pool.get_add_self _ _).symm.trans hv
      exact newMachine_tame g
    · exact ha.tame m vm ((Pool.get_add_ne _ hm _).symm.trans hv) fine
  refine grows.carries ha fun m slot text h hh => ⟨hh, rfl, fun v hb vm hv => ?_⟩
  have made : m ≠ w.machines.size := Nat.ne_of_lt (ha.taken m slot text h hh).made
  exact hb vm ((Pool.get_add_ne _ made _).symm.trans hv)

/-- A registry that has been made pins nothing yet. -/
theorem World.Assigned.addRegistry (ha : w.Assigned g) {r : Registry} (hr : r.chunks = [])
    (registries : w'.registries = w.registries.add r) (references : w'.references = w.references)
    (machines : w'.machines = w.machines) (journal : w'.journal = w.journal) : w.Carries g w' := by
  have machineOf {id m : Nat} (hid : id ≠ w.registries.size) (h : w'.machineOf id = some m) : w.machineOf id = some m := by
    rw [World.machineOf, registries, Pool.get_add_ne _ hid] at h
    exact h
  have grows : w.Grows w' := by
    refine ⟨Nat.le_of_eq (by rw [machines]), Nat.le_of_eq (by rw [references]), fun id hh => ?_, fun m vm hv fine => ?_,
      by rw [journal]; exact ha.frugal⟩
    · rw [references] at hh ⊢
      rw [registries, Pool.size_add]
      exact Nat.lt_succ_of_lt (ha.registered id hh)
    · rw [machines] at hv
      exact ha.tame m vm hv fine
  refine grows.carries ha fun m slot text h hh => ⟨?_, by rw [journal], fun v hb vm hv => ?_⟩
  · cases h with
    | reference id =>
      obtain ⟨home, holds, hs, ht⟩ := hh
      rw [references] at home holds hs
      exact ⟨machineOf (Nat.ne_of_lt (ha.registered id holds)) home, holds, hs, ht⟩
    | chunk id index =>
      obtain ⟨source, ht, home, hc⟩ := hh
      rw [registries] at hc
      by_cases hid : id = w.registries.size
      · rw [hid, Pool.get_add_self, hr] at hc
        cases hc
      · rw [Pool.get_add_ne _ hid] at hc
        exact ⟨source, ht, machineOf hid home, hc⟩
  · rw [machines] at hv
    exact hb vm hv

/-- A machine that has been closed has no slots any more. -/
theorem World.Assigned.bury (ha : w.Assigned g) (id m : Nat) : w.Carries g (w.bury id m) := by
  have open_ {n : Nat} {vm : Vm} (h : (w.bury id m).machines.get n = .open vm) : w.machines.get n = .open vm := by
    by_cases hn : n = m
    · rw [hn] at h
      exact nomatch (Pool.get_put_self _ _ _).symm.trans h
    · exact (Pool.get_put_ne _ hn _).symm.trans h
  have grows : w.Grows (w.bury id m) := ⟨Pool.size_le_size_put _ _ _, Nat.le_refl _, ha.registered,
    fun n vm hv fine => ha.tame n vm (open_ hv) fine, ha.frugal⟩
  exact grows.carries ha fun n slot text h hh => ⟨hh, rfl, fun v hb vm hv => hb vm (open_ hv)⟩

/-! ## Registries that close -/

namespace Frees

variable {m : Nat} {slots : List Int} (h : Frees m slots w w') (hp : ∀ s ∈ slots, ProperSlot g s)

include h hp

/-- The slots are not taken any more; the others are as they were. -/
theorem allocated_eq (n : Nat) (s : Int) :
    Host.allocated n s w'.journal = if n = m ∧ s ∈ slots then none else Host.allocated n s w.journal := by
  induction h with
  | nil w => simp only [List.not_mem_nil, and_false, if_false]
  | @cons w w' vm vm' slot slots hm _ _ ih =>
    rw [ih fun s hs => hp s (List.mem_cons_of_mem _ hs), (hp slot List.mem_cons_self).int32_eq]
    dsimp only [Host.allocated]
    by_cases hn : n = m
    · by_cases hs : s = slot
      · simp only [hn, hs, true_and, and_self, List.mem_cons, true_or, if_true, ite_self]
      · simp only [hn, true_and, Ne.symm hs, if_false, List.mem_cons, hs, false_or]
    · simp only [hn, Ne.symm hn, false_and, if_false]

/-- Each slot was taken until it was released. -/
theorem frugal (hd : slots.Nodup) (ht : ∀ s ∈ slots, (Host.allocated m s w.journal).isSome) (hf : Frugal w.journal) :
    Frugal w'.journal := by
  induction h with
  | nil w => exact hf
  | @cons w w' vm vm' slot slots hm _ _ ih =>
    have same := (hp slot List.mem_cons_self).int32_eq
    obtain ⟨new, hd⟩ := List.nodup_cons.mp hd
    refine ih (fun s hs => hp s (List.mem_cons_of_mem _ hs)) hd (fun s hs => ?_) ⟨?_, hf⟩
    · have ne : ¬ (m = m ∧ int32 slot = s) := by
        rintro ⟨-, hit⟩
        exact new (same ▸ hit ▸ hs)
      rw [allocated_unpinned_ne ne]
      exact ht s (List.mem_cons_of_mem _ hs)
    · rw [same]
      exact ht slot List.mem_cons_self

/-- Other slots have what they had. -/
theorem backed (hl : ∀ n vm, w.machines.get n = .open vm → vm.generation = g) (n : Nat) (s : Int)
    (text : Option Text) (v : Lua.Value) (hs : ProperSlot g s) (other : ¬ (n = m ∧ s ∈ slots))
    (hb : ∀ vm, w.machines.get n = .open vm → Backed vm s text v) :
    ∀ vm, w'.machines.get n = .open vm → Backed vm s text v := by
  induction h with
  | nil w => exact hb
  | @cons w w' vm vm' slot slots hm hu _ ih =>
    have proper := hp slot List.mem_cons_self
    refine ih (fun s hs => hp s (List.mem_cons_of_mem _ hs)) (machines_put hm hu.generation hl)
      (fun ⟨hn, hs⟩ => other ⟨hn, List.mem_cons_of_mem _ hs⟩) fun vm₁ => backed_put hm ?_ hb vm₁
    rintro rfl hb
    refine hb.edits hu fun hit => ?_
    rw [proper.int32_eq, hl _ _ hm] at hit
    obtain head | same := hit
    · exact hs.notHead head
    · rw [hs.ofInt_inj proper same] at other
      exact other ⟨rfl, List.mem_cons_self⟩

theorem tame (ht : ∀ n vm, w.machines.get n = .open vm → vm.breached = false → vm.Tame) :
    ∀ n vm, w'.machines.get n = .open vm → vm.breached = false → vm.Tame := by
  induction h with
  | nil w => exact ht
  | @cons w w' vm vm' slot slots hm hu _ ih =>
    have proper := hp slot List.mem_cons_self
    refine ih (fun s hs => hp s (List.mem_cons_of_mem _ hs)) fun n vm₁ hv fine => ?_
    by_cases hn : n = m
    · subst hn
      dsimp only at hv
      rw [Pool.get_put_self] at hv
      cases hv
      exact tame_unpins (ht n vm hm) hu (proper.int32_eq.symm ▸ proper) fine
    · dsimp only at hv
      rw [Pool.get_put_ne _ hn] at hv
      exact ht n vm₁ hv fine

end Frees

/-- The holders that there are when a registry has been dismissed: those that went with other registries. -/
theorem holds_dismiss {registry m : Nat} {slot : Int} {text : Option Text} {h : Holder}
    (hh : (w.dismiss registry).Holds m slot text h) : w.Holds m slot text h ∧ ∀ index, h ≠ .chunk registry index := by
  have machineOf {r n : Nat} (hr : (w.dismiss registry).machineOf r = some n) : r ≠ registry ∧ w.machineOf r = some n := by
    by_cases same : r = registry
    · rw [same, World.machineOf, World.dismiss, Pool.get_modify_self] at hr
      cases hr
    · rw [World.machineOf, World.dismiss, Pool.get_modify_ne _ same] at hr
      exact ⟨same, hr⟩
  cases h with
  | reference id =>
    obtain ⟨home, rest⟩ := hh
    exact ⟨⟨(machineOf home).2, rest⟩, fun _ same => by injection same⟩
  | chunk r index =>
    obtain ⟨source, ht, home, hc⟩ := hh
    obtain ⟨other, home⟩ := machineOf home
    rw [World.dismiss, Pool.get_modify_ne _ other] at hc
    exact ⟨⟨source, ht, home, hc⟩, fun _ same => other (by injection same)⟩

theorem Dismissal.carries {registry : Nat} (h : Dismissal w registry w') (hl : w.Lawful g) (ha : w.Assigned g) :
    w.Carries g w' := by
  have registered (id : Nat) (hh : (w.references.get id).holds = true) :
      (w.references.get id).registry < ((w.dismiss registry).registries).size :=
    Nat.lt_of_lt_of_le (ha.registered id hh) (Pool.size_le_size_modify _ _ _)
  cases h with
  | idle _ =>
    have grows : w.Grows (w.dismiss registry) := ⟨Nat.le_refl _, Nat.le_refl _, registered, ha.tame, ha.frugal⟩
    exact grows.carries ha fun m slot text h hh => ⟨(holds_dismiss hh).1, rfl, fun v hb => hb⟩
  | @freed w₁ m hm hf =>
    have chunk {s : Int} (hs : s ∈ (w.registries.get registry).chunks.map Prod.snd) :
        ∃ source index, w.Holds m s (some source) (.chunk registry index) := by
      obtain ⟨⟨source, s⟩, hmem, rfl⟩ := List.mem_map.mp hs
      obtain ⟨index, hi⟩ := List.getElem?_of_mem hmem
      exact ⟨source, index, source, rfl, hm, hi⟩
    have proper (s : Int) (hs : s ∈ (w.registries.get registry).chunks.map Prod.snd) : ProperSlot g s := by
      obtain ⟨source, index, hh⟩ := chunk hs
      exact (ha.taken m s _ _ hh).proper
    have taken (s : Int) (hs : s ∈ (w.registries.get registry).chunks.map Prod.snd) :
        (Host.allocated m s w.journal).isSome := by
      obtain ⟨source, index, hh⟩ := chunk hs
      obtain ⟨v, hv, -⟩ := (ha.taken m s _ _ hh).backed
      rw [hv]
      rfl
    have nodup : ((w.registries.get registry).chunks.map Prod.snd).Nodup := by
      rw [List.nodup_iff_getElem?_ne_getElem?]
      intro i j hij hj same
      rw [List.length_map] at hj
      have at_ (k : Nat) (hk : k < (w.registries.get registry).chunks.length) :
          w.Holds m ((w.registries.get registry).chunks[k]).2 (some ((w.registries.get registry).chunks[k]).1)
            (.chunk registry k) := ⟨_, rfl, hm, List.getElem?_eq_getElem hk⟩
      have hi := Nat.lt_trans hij hj
      rw [List.getElem?_map, List.getElem?_map, List.getElem?_eq_getElem hi, List.getElem?_eq_getElem hj] at same
      have first := at_ i hi
      rw [Option.some_inj.mp same] at first
      cases ha.apart m _ _ _ _ _ first (at_ j hj)
      exact Nat.lt_irrefl _ hij
    have apart := hf.apart
    have allocated := hf.allocated_eq proper
    have tame := hf.tame proper ha.tame
    have frugal := hf.frugal proper nodup taken ha.frugal
    have kept (n : Nat) (s : Int) (text : Option Text) (v : Lua.Value) :=
      hf.backed proper hl.generations n s text v
    obtain ⟨machines, journal, rfl⟩ := apart.rest
    have grows : w.Grows ({ w with machines, journal }.dismiss registry) :=
      ⟨Nat.le_of_eq apart.size.symm, Nat.le_refl _, registered, tame, frugal⟩
    refine grows.carries ha fun n s text h hh => ?_
    obtain ⟨old, other⟩ := holds_dismiss hh
    -- a chunk's slot is held by the chunk alone
    have ne : ¬ (n = m ∧ s ∈ (w.registries.get registry).chunks.map Prod.snd) := by
      rintro ⟨rfl, hs⟩
      obtain ⟨source, index, held⟩ := chunk hs
      exact other index (ha.apart n s text _ h _ old held)
    refine ⟨old, ?_, fun v => kept n s text v (ha.taken n s text h old).proper ne⟩
    refine (allocated n s).trans ?_
    rw [if_neg ne]

/-! ## Runs -/

theorem Quiet.carries (h : Quiet g w w') (hl : w.Lawful g) (ha : w.Assigned g) (hr : Reliable g w'.journal) :
    w.Carries g w' := by
  cases h with
  | moves h => exact h.carries hl ha hr
  | around h => exact ha.same h.references h.registries h.machines ⟨[], h.journal, nofun⟩
  | born h config _ reporter =>
    have made := ha.bear.trans (h.carries hl.bear ha.bear.assigned hr)
    exact made.trans (made.assigned.addRegistry rfl rfl rfl rfl rfl)
  | attached machine config _ reporter => exact ha.addRegistry rfl rfl rfl rfl rfl
  | dismissed h => exact h.carries hl ha
  | left _ => exact ha.same rfl rfl rfl ⟨[], rfl, nofun⟩
  | handed h =>
    obtain ⟨reporter, registries⟩ := h.registries
    exact ha.addRegistry rfl registries h.references h.machines h.journal

theorem Stage.carries (h : Stage g w w') (hl : w.Lawful g) (ha : w.Assigned g) (hr : Reliable g w'.journal) :
    w.Carries g w' := by
  cases h with
  | quiet h => exact h.carries hl ha hr
  | @ended w' id m _ _ hm =>
    have noted : w.Carries g (w.noteEnd m) :=
      ha.same rfl rfl rfl ⟨[_], rfl, fun e he => by rw [List.mem_singleton.mp he]; trivial⟩
    have moved := noted.trans (hm.carries (hl.noteEnd m) noted.assigned hr)
    exact moved.trans (moved.assigned.bury id m)

/-- The journal only grows. -/
theorem Stage.journal (h : Stage g w w') : ∃ es, w'.journal = es ++ w.journal := by
  cases h with
  | quiet h =>
    cases h with
    | moves h => exact h.continues.journal.imp fun _ h => h.1
    | around h => exact ⟨[], h.journal⟩
    | @born w' h _ _ _ _ =>
      obtain ⟨es, he, -⟩ := h.continues.journal
      exact ⟨es ++ [.created w.machines.size], by rw [List.append_assoc]; exact he⟩
    | attached | left => exact ⟨[], rfl⟩
    | dismissed h =>
      obtain ⟨es, he, -⟩ := h.owned.journal
      exact ⟨es, he⟩
    | handed h => exact ⟨[], h.journal⟩
  | @ended w' id m _ _ hm =>
    obtain ⟨es, he, -⟩ := hm.continues.journal
    exact ⟨es ++ [.closed m], by rw [List.append_assoc]; exact he⟩

theorem Stages.journal (h : Stages g w w') : ∃ es, w'.journal = es ++ w.journal := by
  induction h with
  | refl => exact ⟨[], rfl⟩
  | tail _ last ih =>
    obtain ⟨es, he⟩ := ih
    obtain ⟨ds, hd⟩ := last.journal
    exact ⟨ds ++ es, by rw [hd, he, List.append_assoc]⟩

theorem Stages.carries (h : Stages g w w') (hl : w.Lawful g) (ha : w.Assigned g) (hr : Reliable g w'.journal) :
    w.Carries g w' := by
  induction h with
  | refl => exact .refl ha
  | tail stages last ih =>
    obtain ⟨es, he⟩ := last.journal
    have first := ih (.of_append (he ▸ hr))
    exact first.trans (last.carries (Stages.lawful stages hl) first.assigned hr)

theorem start_assigned (g : Generation) : (Session.start g).Assigned g := by
  have unmade (id : Nat) : (Session.start g).references.get id = default := Pool.get_of_size_le _ (Nat.zero_le id)
  have nobody {m : Nat} {slot : Int} {text : Option Text} {h : Holder} (hh : (Session.start g).Holds m slot text h) : False := by
    cases h with
    | reference id =>
      obtain ⟨-, holds, -⟩ := hh
      rw [unmade] at holds
      cases holds
    | chunk r index =>
      obtain ⟨source, -, -, hc⟩ := hh
      rw [Pool.get_of_size_le _ (Nat.zero_le r)] at hc
      cases hc
  refine ⟨fun m slot text h hh => (nobody hh).elim, fun m slot text text' h h' hh => (nobody hh).elim, fun id hh => ?_,
    fun m vm hv => ?_, trivial⟩
  · rw [unmade] at hh
    cases hh
  · rw [Pool.get_of_size_le _ (Nat.zero_le m)] at hv
    cases hv

theorem reached_assigned (h : Reached g w) (hr : Reliable g w.journal) : w.Assigned g :=
  (Stages.carries (reached_stages h) (start_lawful g) (start_assigned g) hr).assigned

/-- Pinning the top of a stack makes a new reference, if it comes back. -/
theorem pinTop_referenced {env : Env} {registry n : Nat} {l : Option Handle}
    (run : Registry.pinTop registry l env w = .ok n w') :
    n = w.references.size ∧ ∃ t vm slot vm', (l <|> (w.registries.get registry).handle) = some t ∧
      w.machines.get t.machine = .open vm ∧ vm.Pins (vm.top t.thread) slot vm' ∧
      w' = w.referenced t.machine vm' registry (vm.top t.thread) slot := by
  have unfolded : Registry.pinTop registry l env w =
      (Host.runWith (w.registries.get registry).runtime (l <|> (w.registries.get registry).handle) Binding.Api.ref >>= fun slot =>
        MonadState.modifyGet fun w =>
          (w.references.size, { w with references := w.references.add ⟨registry, Binding.Api.intOf slot⟩ }) : H Nat) env w := rfl
  rw [unfolded] at run
  obtain ⟨t, vm, slot, vm', hh, hm, pins, ok⟩ | ⟨e, w₁, error, -⟩ := runWith_ref env (w.registries.get registry).runtime
    (l <|> (w.registries.get registry).handle) w
  · rw [bind_ok ok] at run
    cases run
    exact ⟨rfl, t, vm, slot, vm', hh, hm, pins, rfl⟩
  · rw [bind_error error] at run
    cases run

/-- A new reference pins the value that was on top of the stack. Nil takes no slot. -/
theorem pinTop_ok {env : Env} {registry n : Nat} {l : Option Handle} (run : Registry.pinTop registry l env w = .ok n w') :
    n = w.references.size ∧ ∃ t vm slot, (l <|> (w.registries.get registry).handle) = some t ∧
      w.machines.get t.machine = .open vm ∧ w'.references.get n = ⟨registry, slot⟩ ∧
      ((vm.top t.thread).isNil = true → slot = Binding.nilReference) ∧
      ((vm.top t.thread).isNil = false → allocated t.machine slot w'.journal = some (vm.top t.thread)) := by
  obtain ⟨rfl, t, vm, slot, vm', hh, hm, pins, rfl⟩ := pinTop_referenced run
  refine ⟨rfl, t, vm, slot, hh, hm, Pool.get_add_self _ _, fun hn => ?_, fun hn => allocated_pinned hn⟩
  exact pins.nil (Lua.Value.eq_nil_of_isNil hn)

/-- As long as pinning gives slots that are not taken, all slots that references and chunks hold are taken,
each by its holder only, have the values that were pinned there, and are released at most once. What a
reference holds does not change while it is held, and a new one pins what was on top of the stack. -/
theorem slots_never_shared (h : Reached g w) (k : Runs w w') (hr : Reliable g w'.journal) :
    w'.Assigned g ∧
      (∀ m slot text id, id < w.references.size → w'.Holds m slot text (.reference id) →
        w.Holds m slot text (.reference id) ∧ allocated m slot w'.journal = allocated m slot w.journal) ∧
      ∀ registry l n w'', Registry.pinTop registry l Env.full w' = .ok n w'' →
        n = w'.references.size ∧ ∃ t vm slot, (l <|> (w'.registries.get registry).handle) = some t ∧
          w'.machines.get t.machine = .open vm ∧ w''.references.get n = ⟨registry, slot⟩ ∧
          ((vm.top t.thread).isNil = true → slot = Binding.nilReference) ∧
          ((vm.top t.thread).isNil = false → allocated t.machine slot w''.journal = some (vm.top t.thread)) := by
  have lawful := reached_lawful h
  have stages := k.stages lawful
  obtain ⟨es, he⟩ := Stages.journal stages
  have carries := Stages.carries stages lawful (reached_assigned h (.of_append (he ▸ hr))) hr
  refine ⟨carries.assigned, fun m slot text id hid hh => ?_, fun registry l n w'' run => pinTop_ok run⟩
  have stays := carries.stays m slot text id hid hh
  exact ⟨stays.held, stays.allocated⟩

/-- References of two states on one machine, two of one value, one of nil; one is released and its slot used
again, and the state that borrows closes. -/
def sharing : List Step :=
  [⟨"s", none, .new none none .create true⟩, ⟨"b", none, .new none none (.borrow (some "s")) true⟩,
    ⟨"s", none, .execute (.text "x = {}; y = print")⟩, ⟨"s", some "p", .ref (.path [.text "x"])⟩,
    ⟨"b", some "q", .ref (.path [.text "x"])⟩, ⟨"s", some "n", .ref (.path [.text "z"])⟩]

def releasing : List Step :=
  [⟨"s", none, .release "p"⟩, ⟨"s", some "r", .ref (.path [.text "y"])⟩, ⟨"b", none, .close⟩]

theorem slots_never_shared_released :
    (Session.runAll (Session.start .v54) (sharing ++ releasing)).Assigned .v54 ∧
      (Session.runAll (Session.start .v54) (sharing ++ releasing)).references.size = 4 := by
  have plain : ∀ s ∈ sharing ++ releasing, s.command.Plain := by
    intro s hs
    simp only [sharing, releasing, List.cons_append, List.nil_append, List.mem_cons, List.not_mem_nil, or_false] at hs
    obtain rfl | rfl | rfl | rfl | rfl | rfl | rfl | rfl | rfl := hs <;> trivial
  have reached := Session.Runs.refl.runAll plain (by decide +kernel : Session.allReturn (Session.start .v54) _ = true)
  exact ⟨(slots_never_shared reached .refl (by decide +kernel)).1, by decide +kernel⟩

end LuaHost.Host
