import LuaHost.Proofs.Slots.Holders

set_option autoImplicit false

/-!
# Moves keep slots

Whatever move a world makes, holders hold taken slots, each another one, as long as pinning gives slots that
are not taken.
-/

namespace LuaHost.Host

open Lua (Vm Generation)

variable {g : Generation} {w w' : World} {m n : Nat} {slot s : Int} {text : Option Text} {vm vm' : Vm} {v u : Lua.Value}

/-! ## One machine -/

/-- What is in the slots of machines when one of them has changed. -/
theorem backed_put (hm : w.machines.get n = .open vm) (hk : m = n → Backed vm slot text v → Backed vm' slot text v)
    (hb : ∀ vm, w.machines.get m = .open vm → Backed vm slot text v) (vm₁ : Vm)
    (h : (w.machines.put n (.open vm')).get m = .open vm₁) : Backed vm₁ slot text v := by
  by_cases hmn : m = n
  · subst hmn
    rw [Pool.get_put_self] at h
    cases h
    exact hk rfl (hb vm hm)
  · rw [Pool.get_put_ne _ hmn] at h
    exact hb vm₁ h

theorem tame_put (ha : w.Assigned g) (hm : w.machines.get n = .open vm)
    (ht : (vm.breached = false → vm.Tame) → vm'.breached = false → vm'.Tame) (m : Nat) (vm₁ : Vm)
    (h : (w.machines.put n (.open vm')).get m = .open vm₁) (fine : vm₁.breached = false) : vm₁.Tame := by
  by_cases hmn : m = n
  · subst hmn
    rw [Pool.get_put_self] at h
    cases h
    exact ht (ha.tame m vm hm) fine
  · rw [Pool.get_put_ne _ hmn] at h
    exact ha.tame m vm₁ h fine

theorem tame_pins (ht : vm.breached = false → vm.Tame) (hp : vm.Pins v s vm') (proper : v.isNil = false → ProperSlot g s)
    (fine : vm'.breached = false) : vm'.Tame := by
  refine tame_edits ht hp.edits ?_ fine
  rintro n (rfl | ⟨hv, rfl⟩)
  · exact not_negative_freeListSlot _
  · exact (proper (Lua.Value.isNil_eq_false hv)).not_negative

theorem tame_unpins (ht : vm.breached = false → vm.Tame) (h : vm.Unpins s vm') (proper : ProperSlot g s)
    (fine : vm'.breached = false) : vm'.Tame := by
  refine tame_edits ht h ?_ fine
  rintro n (rfl | rfl)
  · exact not_negative_freeListSlot _
  · exact proper.not_negative

/-- A slot that is taken is not one that is free. -/
theorem World.Taken.ne_free (ht : w.Taken g m slot text) (free : Host.allocated n s w.journal = none) :
    ¬ (n = m ∧ s = slot) := by
  rintro ⟨rfl, rfl⟩
  obtain ⟨v, hv, -⟩ := ht.backed
  exact nomatch free.symm.trans hv

/-- Pinning writes no slot that is taken. -/
theorem World.Taken.pins (ht : w.Taken g m slot text) (hg : vm.generation = g) (hp : vm.Pins v s vm')
    (free : v.isNil = false → ProperSlot g s ∧ Host.allocated m s w.journal = none) (hb : Backed vm slot text u) :
    Backed vm' slot text u := by
  refine hb.edits hp.edits fun hit => ?_
  obtain head | ⟨hv, same⟩ := hit
  · exact ht.proper.notHead (hg ▸ head)
  · obtain ⟨proper, unused⟩ := free (Lua.Value.isNil_eq_false hv)
    exact ht.ne_free unused ⟨rfl, (proper.ofInt_inj ht.proper same.symm)⟩

theorem World.Taken.allocated_pinned (ht : w.Taken g m slot text)
    (free : v.isNil = false → ProperSlot g s ∧ Host.allocated n s w.journal = none) :
    Host.allocated m slot (.pinned n v s :: w.journal) = Host.allocated m slot w.journal :=
  allocated_pinned_ne fun ⟨hn, hs, hv⟩ => ht.ne_free (free hv).2 ⟨hn, hs⟩

/-- A value that has just been pinned. -/
theorem Backed.pinned (hp : vm.Pins v slot vm') (hv : v.isNil = false)
    (hc : ∀ source, text = some source → CompiledFrom vm source v) : Backed vm' slot text v where
  entry := fun _ => hp.pinned (by rintro rfl; cases hv)
  compiled := fun source hs => (hc source hs).of_closures hp.edits.generation
    (Nat.le_of_eq (by rw [hp.edits.closures])) fun a _ => by rw [hp.edits.closures]

/-! ## References that change -/

/-- The holders that there are when one reference more has been made. -/
theorem holds_add {reference : Reference} {h : Holder} (hh : w'.Holds m slot text h)
    (hr : w'.references = w.references.add reference) (hg : w'.registries = w.registries) :
    w.Holds m slot text h ∨ (w.machineOf reference.registry = some m ∧ reference.holds = true ∧ slot = reference.slot ∧
      text = none ∧ h = .reference w.references.size) := by
  cases h with
  | chunk registry index =>
    obtain ⟨source, ht, hm, hc⟩ := hh
    rw [World.machineOf, hg] at hm
    rw [hg] at hc
    exact .inl ⟨source, ht, hm, hc⟩
  | reference id =>
    obtain ⟨hm, holds, hs, ht⟩ := hh
    rw [World.machineOf, hg] at hm
    rw [hr] at hm holds hs
    by_cases hid : id = w.references.size
    · rw [hid, Pool.get_add_self] at hm holds hs
      exact .inr ⟨hm, holds, hs.symm, ht, by rw [hid]⟩
    · rw [Pool.get_add_ne _ hid] at hm holds hs
      exact .inl ⟨hm, holds, hs, ht⟩

/-- The holders that there are when a reference holds nothing any more. -/
theorem holds_forget {id : Nat} {h : Holder} (hh : w'.Holds m slot text h)
    (hr : w'.references = w.references.modify id fun r => { r with slot := Binding.noReference })
    (hg : w'.registries = w.registries) : w.Holds m slot text h ∧ h ≠ .reference id := by
  cases h with
  | chunk registry index =>
    obtain ⟨source, ht, hm, hc⟩ := hh
    rw [World.machineOf, hg] at hm
    rw [hg] at hc
    exact ⟨⟨source, ht, hm, hc⟩, fun same => by injection same⟩
  | reference n =>
    obtain ⟨hm, holds, hs, ht⟩ := hh
    rw [World.machineOf, hg] at hm
    rw [hr] at hm holds hs
    by_cases hid : n = id
    · rw [hid, Pool.get_modify_self] at holds
      cases holds
    · rw [Pool.get_modify_ne _ hid] at hm holds hs
      exact ⟨⟨hm, holds, hs, ht⟩, fun h => hid (by injection h)⟩

theorem registered_forget (ha : w.Assigned g) {id n : Nat}
    (hh : ((w.references.modify id fun r => { r with slot := Binding.noReference }).get n).holds = true) :
    ((w.references.modify id fun r => { r with slot := Binding.noReference }).get n).registry < w.registries.size := by
  by_cases hid : n = id
  · rw [hid, Pool.get_modify_self] at hh
    cases hh
  · rw [Pool.get_modify_ne _ hid] at hh ⊢
    exact ha.registered n hh

/-! ## Moves -/

/-- A world that has the same holders and slots. -/
theorem World.Assigned.same (ha : w.Assigned g) (hr : w'.references = w.references) (hg : w'.registries = w.registries)
    (hm : w'.machines = w.machines) (journal : ∃ es, w'.journal = es ++ w.journal ∧ ∀ e ∈ es, e.Idle) : w.Carries g w' := by
  obtain ⟨es, he, hes⟩ := journal
  have grows : w.Grows w' := by
    refine ⟨Nat.le_of_eq (by rw [hm]), Nat.le_of_eq (by rw [hr]), fun id hh => ?_, fun m vm hv fine => ?_, ?_⟩
    · rw [hr] at hh ⊢
      rw [hg]
      exact ha.registered id hh
    · rw [hm] at hv
      exact ha.tame m vm hv fine
    · rw [he]
      exact frugal_append hes ha.frugal
  refine grows.carries ha fun m slot text h hh => ⟨?_, ?_, fun v hb vm hv => ?_⟩
  · cases h with
    | chunk registry index => rwa [World.Holds, World.machineOf, hg] at hh
    | reference id => rwa [World.Holds, World.machineOf, hr, hg] at hh
  · rw [he]
    exact allocated_append hes
  · rw [hm] at hv
    exact hb vm hv

/-- A machine that goes on without touching slots that are taken. -/
theorem World.Assigned.put (ha : w.Assigned g) (hm : w.machines.get n = .open vm)
    (hb : ∀ slot text v, w.Taken g n slot text → Backed vm slot text v → Backed vm' slot text v)
    (ht : (vm.breached = false → vm.Tame) → vm'.breached = false → vm'.Tame) :
    w.Carries g { w with machines := w.machines.put n (.open vm') } := by
  have grows : w.Grows { w with machines := w.machines.put n (.open vm') } :=
    ⟨Pool.size_le_size_put _ _ _, Nat.le_refl _, ha.registered, tame_put ha hm ht, ha.frugal⟩
  refine grows.carries ha fun m slot text h hh => ⟨hh, rfl, fun v => backed_put hm ?_⟩
  rintro rfl
  exact hb slot text v (ha.taken m slot text h hh)

/-- A world in which a value is pinned for a new reference. -/
def World.referenced (w : World) (n : Nat) (vm : Vm) (registry : Nat) (v : Lua.Value) (s : Int) : World :=
  { w with
    machines := w.machines.put n (.open vm), references := w.references.add ⟨registry, s⟩
    journal := .pinned n v s :: w.journal }

theorem World.Assigned.reference (ha : w.Assigned g) (hm : w.machines.get n = .open vm) (hg : vm.generation = g)
    {registry : Nat} (hp : w.Pairs n registry) (pins : vm.Pins v s vm')
    (free : v.isNil = false → ProperSlot g s ∧ Host.allocated n s w.journal = none) :
    w.Carries g (w.referenced n vm' registry v s) := by
  have stays {m : Nat} {slot : Int} {text : Option Text} {h : Holder} (hh : w.Holds m slot text h) :
      w.Stays (w.referenced n vm' registry v s) m slot text h := by
    have taken := ha.taken m slot text h hh
    refine ⟨hh, taken.allocated_pinned free, fun u => backed_put hm ?_⟩
    rintro rfl
    exact taken.pins hg pins free
  have size : w.machines.size ≤ (w.machines.put n (.open vm')).size := Pool.size_le_size_put _ _ _
  have grows : w.Grows (w.referenced n vm' registry v s) := by
    refine ⟨size, Nat.le_of_lt (Nat.lt_of_lt_of_eq (Nat.lt_succ_self _) (Pool.size_add _ _).symm), fun id hh => ?_,
      tame_put ha hm fun ht => tame_pins ht pins fun hv => (free hv).1, ha.frugal⟩
    by_cases hid : id = w.references.size
    · rw [hid, World.referenced, Pool.get_add_self]
      exact hp.1
    · rw [World.referenced, Pool.get_add_ne _ hid] at hh ⊢
      exact ha.registered id hh
  cases hv : v.isNil with
  | true =>
    -- nil takes no slot, and its reference holds none
    have none : s = -1 := pins.nil (Lua.Value.eq_nil_of_isNil hv)
    refine grows.carries ha fun m slot text h hh => ?_
    obtain old | ⟨-, holds, -⟩ := holds_add hh rfl rfl
    · exact stays old
    · rw [none] at holds
      cases holds
  | false =>
    obtain ⟨proper, unused⟩ := free hv
    refine grows.carriesNew ha n s none (.reference w.references.size)
      (fun id same => by injection same with same; exact Nat.le_of_eq same) unused ?_ fun m slot text h hh => ?_
    · refine ⟨Nat.lt_of_lt_of_le (World.Open.lt_size ⟨vm, hm⟩) size, proper, v, Host.allocated_pinned hv, fun vm₁ h => ?_⟩
      rw [World.referenced, Pool.get_put_self] at h
      cases h
      exact .pinned pins hv nofun
    · obtain old | ⟨home, -, rfl, rfl, rfl⟩ := holds_add hh rfl rfl
      · exact .inl (stays old)
      · refine .inr ⟨?_, rfl, rfl, rfl⟩
        cases hp.2 with
        | inl gone => exact nomatch gone.symm.trans home
        | inr same => exact (Option.some_inj.mp (same.symm.trans home)).symm

/-- A world in which the function of a chunk is pinned for a registry. -/
def World.cached (w : World) (n : Nat) (vm : Vm) (registry : Nat) (source : Text) (v : Lua.Value) (s : Int) : World :=
  { w with
    machines := w.machines.put n (.open vm)
    registries := w.registries.modify registry fun r => { r with chunks := r.chunks ++ [(source, s)] }
    journal := .pinned n v s :: w.journal }

/-- The holders that there are when one chunk more has been compiled. -/
theorem holds_cached {registry : Nat} {source : Text} {h : Holder} (hr : w.machineOf registry = some n)
    (hh : (w.cached n vm registry source v s).Holds m slot text h) :
    w.Holds m slot text h ∨ (m = n ∧ slot = s ∧ text = some source ∧
      h = .chunk registry (w.registries.get registry).chunks.length) := by
  have machineOf (r : Nat) : (w.cached n vm registry source v s).machineOf r = w.machineOf r :=
    w.machineOf_modify registry (fun r => { r with chunks := r.chunks ++ [(source, s)] }) (fun _ => rfl) r
  cases h with
  | reference id =>
    obtain ⟨home, rest⟩ := hh
    exact .inl ⟨(machineOf _).symm.trans home, rest⟩
  | chunk r index =>
    obtain ⟨source', rfl, home, hc⟩ := hh
    replace home : w.machineOf r = some m := (machineOf r).symm.trans home
    by_cases hreg : r = registry
    · subst hreg
      rw [World.cached, Pool.get_modify_self] at hc
      dsimp only at hc
      rw [List.getElem?_append] at hc
      split at hc
      · exact .inl ⟨source', rfl, home, hc⟩
      · next beyond =>
        have last : index - (w.registries.get r).chunks.length = 0 := by
          obtain ⟨hlt, -⟩ := List.getElem?_eq_some_iff.mp hc
          exact Nat.lt_one_iff.mp hlt
        rw [last] at hc
        cases hc
        have here : index = (w.registries.get r).chunks.length :=
          Nat.le_antisymm (Nat.le_of_sub_eq_zero last) (Nat.le_of_not_lt beyond)
        exact .inr ⟨Option.some_inj.mp (home.symm.trans hr), rfl, rfl, by rw [here]⟩
    · rw [World.cached, Pool.get_modify_ne _ hreg] at hc
      exact .inl ⟨source', rfl, home, hc⟩

theorem World.Assigned.cache (ha : w.Assigned g) (hm : w.machines.get n = .open vm) (hg : vm.generation = g)
    {registry : Nat} {source : Text} (hr : w.machineOf registry = some n) (hc : CompiledFrom vm source v)
    (pins : vm.Pins v s vm') (free : v.isNil = false → ProperSlot g s ∧ Host.allocated n s w.journal = none) :
    w.Carries g (w.cached n vm' registry source v s) := by
  have lt : registry < w.registries.size := World.lt_size_of_machineOf hr
  have size : w.machines.size ≤ (w.machines.put n (.open vm')).size := Pool.size_le_size_put _ _ _
  have hv : v.isNil = false := by
    obtain ⟨bytes, -, a, f, c, rfl, -⟩ := hc
    rfl
  obtain ⟨proper, unused⟩ := free hv
  have grows : w.Grows (w.cached n vm' registry source v s) := by
    refine ⟨size, Nat.le_refl _, fun id hh => ?_, tame_put ha hm fun ht => tame_pins ht pins fun _ => proper,
      ha.frugal⟩
    rw [World.cached, Pool.size_modify _ lt]
    exact ha.registered id hh
  refine grows.carriesNew ha n s (some source)
    (.chunk registry (w.registries.get registry).chunks.length) nofun unused ?_ fun m slot text h hh => ?_
  · refine ⟨Nat.lt_of_lt_of_le (World.Open.lt_size ⟨vm, hm⟩) size, proper, v, Host.allocated_pinned hv, fun vm₁ h => ?_⟩
    rw [World.cached, Pool.get_put_self] at h
    cases h
    refine .pinned pins hv ?_
    rintro _ ⟨⟩
    exact hc
  · obtain old | new := holds_cached hr hh
    · have taken := ha.taken m slot text h old
      refine .inl ⟨old, taken.allocated_pinned free, fun u => backed_put hm ?_⟩
      rintro rfl
      exact taken.pins hg pins free
    · exact .inr new

/-- A world in which the slot of a reference is released. -/
def World.released (w : World) (n : Nat) (vm : Vm) (id : Nat) : World :=
  { w with
    machines := w.machines.put n (.open vm)
    references := w.references.modify id fun r => { r with slot := Binding.noReference }
    journal := .unpinned n (int32 (w.references.get id).slot) :: w.journal }

theorem World.Assigned.release (ha : w.Assigned g) (hm : w.machines.get n = .open vm) (hg : vm.generation = g) {id : Nat}
    (hh : (w.references.get id).holds = true) (hr : w.machineOf (w.references.get id).registry = some n)
    (h : vm.Unpins (int32 (w.references.get id).slot) vm') : w.Carries g (w.released n vm' id) := by
  have held : w.Holds n (w.references.get id).slot none (.reference id) := ⟨hr, hh, rfl, rfl⟩
  have taken := ha.taken n _ none _ held
  have same := taken.proper.int32_eq
  obtain ⟨v, hv, -⟩ := taken.backed
  have grows : w.Grows (w.released n vm' id) := by
    refine ⟨Pool.size_le_size_put _ _ _, Pool.size_le_size_modify _ _ _, fun n hh => registered_forget ha hh,
      tame_put ha hm fun ht => tame_unpins ht h (same.symm ▸ taken.proper), ?_, ha.frugal⟩
    rw [same, hv]
    rfl
  refine grows.carries ha fun m slot text holder hold => ?_
  obtain ⟨old, other⟩ := holds_forget (w := w) hold rfl rfl
  -- another holder holds another slot
  have ne : ¬ (n = m ∧ int32 (w.references.get id).slot = slot) := by
    rintro ⟨rfl, rfl⟩
    exact other (ha.apart n _ text none _ _ old (same.symm ▸ held))
  refine ⟨old, allocated_unpinned_ne ne, fun u => backed_put hm ?_⟩
  rintro rfl hb
  have proper := (ha.taken m slot text holder old).proper
  refine hb.edits h fun hit => ?_
  obtain head | hit := hit
  · exact proper.notHead (hg ▸ head)
  · refine ne ⟨rfl, ?_⟩
    rw [same] at hit ⊢
    exact (proper.ofInt_inj taken.proper hit).symm

theorem Move.carries (h : Move w w') (hl : w.Lawful g) (ha : w.Assigned g) (hr : Reliable g w'.journal) : w.Carries g w' := by
  have noted {e : Event} (he : e.Idle) : ∃ es, e :: w.journal = es ++ w.journal ∧ ∀ d ∈ es, d.Idle :=
    ⟨[e], rfl, fun d hd => by rwa [List.mem_singleton.mp hd]⟩
  cases h with
  | step hm hp =>
    exact ha.put hm (fun slot text v _ hb => hb.private (ha.tame _ _ hm) hp) fun ht => tame_private ht hp
  | refused hm he =>
    refine ha.put hm (fun slot text v ht hb => hb.edits he fun head => ?_) fun ht => tame_edits ht he ?_
    · exact ht.proper.notHead ((hl.generations _ _ hm) ▸ head)
    · rintro n rfl
      exact not_negative_freeListSlot _
  | beside hb => exact ha.same hb.references hb.registries hb.machines ⟨[], hb.journal, nofun⟩
  | collected m => exact ha.same rfl rfl rfl (noted trivial)
  | entered _ _ => exact ha.same rfl rfl rfl (noted trivial)
  | referenced hm hp pins => exact ha.reference hm (hl.generations _ _ hm) hp pins hr.1
  | cached hm home hc pins => exact ha.cache hm (hl.generations _ _ hm) home hc pins hr.1
  | released hm hh home hu => exact ha.release hm (hl.generations _ _ hm) hh home hu
  | @forgotten id hn =>
    have grows : w.Grows { w with references := w.references.modify id fun r => { r with slot := Binding.noReference } } :=
      ⟨Nat.le_refl _, Pool.size_le_size_modify _ _ _, fun n hh => registered_forget ha hh, ha.tame, ha.frugal⟩
    exact grows.carries ha fun m slot text holder hold => ⟨(holds_forget (w := w) hold rfl rfl).1, rfl, fun v hb => hb⟩
  | made _ _ _ => exact ha.same rfl rfl rfl ⟨[], rfl, nofun⟩
  | kept _ => exact ha.same rfl rfl rfl ⟨[], rfl, nofun⟩
  | @gave m f _ _ =>
    obtain ⟨foreigns, he⟩ := World.give_eq w m f
    rw [he]
    exact ha.same rfl rfl rfl ⟨[], rfl, nofun⟩

theorem Moves.carries (h : Moves w w') (hl : w.Lawful g) (ha : w.Assigned g) (hr : Reliable g w'.journal) : w.Carries g w' := by
  induction h with
  | refl => exact .refl ha
  | tail moves h ih =>
    obtain ⟨es, he, -⟩ := h.continues.journal
    have first := ih (.of_append (he ▸ hr))
    exact first.trans (h.carries (Moves.lawful moves hl) first.assigned hr)

end LuaHost.Host
