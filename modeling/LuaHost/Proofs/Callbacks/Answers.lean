import LuaHost.Proofs.Callbacks.Slots

set_option autoImplicit false

/-!
# What a call receives and gives

What a function of the host receives depends on the stack alone, and so does what becomes of its results but
for references: those to its own arguments are valid and pass while the registry of the function has its
machine, and are not valid, refused and told of once it has been closed.
-/

namespace LuaHost.Lua

theorem Vm.Alike.entry {vm vm' : Vm} (h : vm.Alike vm') (n : Int64) : vm'.entry n = vm.entry n := by
  rw [Vm.entry, h.tables, h.registry, Vm.entry]

end LuaHost.Lua

namespace LuaHost.Host

open Lua (Vm Generation)
open Binding (Runtime)
open Session (Step Reached reached_stages start_lawful start_equipped)

variable {g : Generation} {env : Env} {w w' : World} {vm : Vm} {f : Foreign} {t : Handle} {m registry : Nat} {pins : List Pin}
  {base : Set Int}

/-! ## Arguments -/

/-- What a function of the host receives for the values of a stack when `n` is the number of the next
reference: copies, and new references for what cannot be copied. -/
def received (r : Runtime) : Nat → List Lua.Value → List Value
  | _, [] => []
  | n, v :: vs =>
    match copied r v with
    | some a => a :: received r n vs
    | none => .reference n :: received r (n + 1) vs

theorem Received.eq_received {vs : List Lua.Value} {as : List Value} (h : Received f t w vs as pins w') :
    as = received (w.runtimes.get f.runtime) w.references.size vs := by
  induction h with
  | nil w => rfl
  | data copy _ ih => rw [received, copy, ih]
  | pinned copy _ _ _ _ ih =>
    rw [received, copy, ih, World.size_referenced]
    rfl

theorem allocated_pinning_ne {slot : Int} {journal : List Event} (other : ∀ p ∈ pins, p.slot ≠ slot) :
    allocated m slot (pinning m pins journal) = allocated m slot journal := by
  induction pins generalizing journal with
  | nil => rfl
  | cons p rest ih =>
    rw [pinning, ih fun q hq => other q (List.mem_cons_of_mem _ hq), allocated_pinned_ne fun h => other p List.mem_cons_self h.2.1]

/-- Pinning leaves the values of all pins in their slots. -/
theorem allocated_pinning {journal : List Event} (apart : (pins.map Pin.slot).Nodup) (some_ : ∀ p ∈ pins, p.value.isNil = false) :
    ∀ p ∈ pins, allocated m p.slot (pinning m pins journal) = some p.value := by
  induction pins generalizing journal with
  | nil => exact nofun
  | cons p rest ih =>
    obtain ⟨new, apart⟩ := List.nodup_cons.mp apart
    intro q hq
    obtain rfl | hq := List.mem_cons.mp hq
    · rw [pinning, allocated_pinning_ne fun p hp same => new (List.mem_map.mpr ⟨p, hp, same⟩)]
      exact allocated_pinned (some_ q List.mem_cons_self)
    · exact ih apart (fun p hp => some_ p (List.mem_cons_of_mem _ hp)) q hq

/-- An argument that arrived as a new reference. It pins what was on the stack; but it is valid, and can be
pushed again, only while the registry of the function has its machine. -/
structure Arrived (env : Env) (f : Foreign) (t : Handle) (w : World) (p : Pin) : Prop where
  reference : w.references.get p.id = ⟨f.registry, p.slot⟩
  taken : allocated t.machine p.slot w.journal = some p.value
  valid : Reference.isValid p.id env w = .ok (w.machineOf f.registry).isSome w
  refused : ∀ e, Refuses w (.reference p.id) e ↔ w.machineOf f.registry = none ∧ e = refusal
  usable : w.machineOf f.registry = some t.machine → ∀ runtime thread registry vm, w.machines.get t.machine = .open vm →
    vm.breached = false →
    pushHost runtime (some ⟨t.machine, thread⟩) (.reference p.id) registry env w = .ok () (w.pushed ⟨t.machine, thread⟩ vm p.value)

theorem Received.taken {vs : List Lua.Value} {as : List Value} (h : Received f t w vs as pins w') (hr : Reliable g w'.journal) :
    ∀ p ∈ pins, allocated t.machine p.slot w'.journal = some p.value := by
  obtain ⟨own, -⟩ := h.balance hr
  have some_ : ∀ p ∈ pins, p.value.isNil = false := fun p hp => (h.newer p hp).2.2.2
  obtain ⟨machines, references, rfl⟩ := h.rest
  exact allocated_pinning own.apart some_

theorem Received.arrived {vs : List Lua.Value} {as : List Value} (env : Env) (h : Received f t w vs as pins w') (hl : w'.Lawful g)
    (ha : w'.Assigned g) (hr : Reliable g w'.journal) : ∀ p ∈ pins, Arrived env f t w' p := by
  intro p hp
  have reference := (h.newer p hp).2.2.1
  have holds : (w'.references.get p.id).holds = true := by
    rw [reference]
    exact holds_of_proper ((h.balance hr).1.proper p hp)
  have taken := h.taken hr p hp
  refine ⟨reference, taken, ?_, fun e => ?_, fun home runtime thread registry vm hm fine => ?_⟩
  · have run : Reference.isValid p.id env w' =
        .ok ((w'.references.get p.id).holds && (w'.machineOf (w'.references.get p.id).registry).isSome) w' := rfl
    rw [run, holds, reference, Bool.true_and]
  · rw [Refuses.reference_iff, reference]
  · have home' : w'.machineOf (w'.references.get p.id).registry = some t.machine := by rwa [reference]
    have generation : vm.generation = g := hl.generations _ _ hm
    have runs := (hl.generation _ (hl.registryRuntime (w'.references.get p.id).registry)).trans generation.symm
    have denotes := ha.denotes holds home' hm fine
    have value : vm.entry (Int64.ofInt (w'.references.get p.id).slot) = p.value := by
      rw [reference] at denotes ⊢
      exact Option.some_inj.mp (denotes.symm.trans taken)
    rw [← value]
    exact pushHost_open (t := ⟨t.machine, thread⟩) runtime registry home' hm runs (generation.symm ▸ ha.exact home')

/-! ## Results -/

/-- What a value of the host is on machine `m`: a copy, the value that a reference pins, nil for a reference
that pins nothing, a new function. What a reference to another machine gives is not said. -/
inductive Denotes (g : Generation) (m : Nat) (w w' : World) : Value → Lua.Value → Prop where
  | data {v : Value} {u : Lua.Value} (copy : sent g v = some u) : Denotes g m w w' v u
  | pinned {id : Nat} {u : Lua.Value} (home : w.machineOf (w.references.get id).registry = some m)
    (holds : (w.references.get id).holds = true) (taken : allocated m (w.references.get id).slot w.journal = some u) :
    Denotes g m w w' (.reference id) u
  | released {id n : Nat} (home : w.machineOf (w.references.get id).registry = some n)
    (none : (w.references.get id).holds = false) : Denotes g m w w' (.reference id) .nil
  | elsewhere {id n : Nat} (home : w.machineOf (w.references.get id).registry = some n) (other : n ≠ m) (u : Lua.Value) :
    Denotes g m w w' (.reference id) u
  | function {v : Value} {routine : Routine} {k n : Nat} (hv : v.routine? = some routine) (made : k < w'.foreigns.size)
    (does : (w'.foreigns.get k).routine = routine) : Denotes g m w w' v (.native (.foreign k) n)

theorem Denotes.later {v : Value} {u : Lua.Value} {w₀ : World} (h : Denotes g m w₀ w v u) (functions : ∀ k, k < w.foreigns.size →
    k < w'.foreigns.size ∧ (w'.foreigns.get k).routine = (w.foreigns.get k).routine) : Denotes g m w₀ w' v u := by
  cases h with
  | data copy => exact .data copy
  | pinned home holds taken => exact .pinned home holds taken
  | released home none => exact .released home none
  | elsewhere home other u => exact .elsewhere home other u
  | function hv made does => exact .function hv (functions _ made).1 ((functions _ made).2.trans does)

/-- What is read for references whose registries have their machines is what they were in `w₀`. -/
def Recalls (g : Generation) (m : Nat) (w₀ : World) (ids : List Nat) (w : World) (vm : Vm) : Prop :=
  ∀ id ∈ ids, ∀ n w', w.machineOf (w.references.get id).registry = some n →
    Denotes g m w₀ w' (.reference id) (vm.entry (Int64.ofInt (conveyed g (w.references.get id).slot)))

theorem Recalls.level {ids more : List Nat} {vm' : Vm} {w₀ : World} (h : Recalls g m w₀ ids w vm) (level : w.Level more w')
    (alike : vm.Alike vm') : Recalls g m w₀ ids w' vm' := by
  obtain ⟨machines, foreigns, trampolines, rfl⟩ := level.rest
  intro id hid n w' home
  rw [alike.entry]
  exact h id hid n w' home

theorem World.lt_size_of_holds {id : Nat} (h : (w.references.get id).holds = true) : id < w.references.size := by
  by_contra hn
  rw [Pool.get_of_size_le _ (Nat.le_of_not_lt hn)] at h
  cases h

/-- After references have been let go, those that are in flight are what they were. -/
theorem Drops.recalls {ids flying : List Nat} (h : Drops ids (w.flying flying) w') (hl : w.Lawful g) (ha : w.Assigned g)
    (hr : Reliable g w.journal) (hm : w'.machines.get m = .open vm) (fine : vm.breached = false) :
    Recalls g m w flying w' vm := by
  have aloft : w.Beside (w.flying flying) := ⟨rfl, rfl, rfl, rfl, rfl, rfl, rfl, rfl, rfl, rfl⟩
  have moves : Moves w w' := (Move.beside aloft).moves.trans h.moves
  have carries := moves.carries hl ha (h.trims.reliable g hr)
  intro id hid n w'' home
  have same : w'.references.get id = w.references.get id := h.keeps (World.holds_flying.mpr (.inr hid))
  have exact_ : conveyed g (w'.references.get id).slot = (w'.references.get id).slot := carries.assigned.exact home
  have home₀ : w.machineOf (w.references.get id).registry = some n := by
    rw [← same]
    exact (h.trims.machineOf _).symm.trans home
  rw [exact_]
  cases holds : (w.references.get id).holds with
  | false =>
    have vacant := (carries.assigned.tame m vm hm fine).vacant
    have none : vm.entry (Int64.ofInt (w'.references.get id).slot) = .nil := by
      rw [same]
      obtain none | none := Reference.slot_of_not_holds holds
      · rw [none]
        exact vacant _ (by decide)
      · rw [none]
        exact vacant _ (by decide)
    rw [none]
    exact .released home₀ holds
  | true =>
    by_cases there : n = m
    · subst there
      have holds' : (w'.references.get id).holds = true := same ▸ holds
      have there : id < w.references.size := World.lt_size_of_holds holds
      have stays := carries.stays n (w'.references.get id).slot none id there ⟨home, holds', rfl, rfl⟩
      refine .pinned home₀ holds ?_
      rw [← same, ← stays.allocated]
      exact carries.assigned.denotes holds' home hm fine
    · exact .elsewhere home₀ there _

section Pushing

variable {v : Value} {u : Lua.Value} {vs : List Value} {us : List Lua.Value} {w₀ : World}

theorem Pushed.denotes (h : Pushed registry t vm w v u w') (hg : vm.generation = g) (recalls : Recalls g t.machine w₀ v.references w vm) :
    Denotes g t.machine w₀ w' v u := by
  cases h with
  | data copy => exact .data (hg ▸ copy)
  | @reference id n home =>
    rw [hg]
    exact recalls id (List.mem_singleton_self _) n _ home
  | @function _ routine n vm' hv akin natives stack =>
    have made : w.foreigns.size < (w.made registry routine).foreigns.size := by
      rw [World.foreigns_made]
      exact Nat.lt_of_lt_of_eq (Nat.lt_succ_self _) (Pool.size_add _ _).symm
    have given := (World.level_give (w := w.made registry routine) (m := t.machine) (.foreign w.foreigns.size)).functions _ made
    refine .function hv given.1 (given.2.trans ?_)
    rw [World.foreigns_made, World.routine_added, if_pos rfl]

theorem Pushed.stack (h : Pushed registry t vm w v u w') :
    ∃ vm', w'.machines.get t.machine = .open vm' ∧ vm'.stackOf t.thread = (vm.stackOf t.thread).push u := by
  cases h with
  | data _ => exact ⟨_, World.get_put _ _ _, Lua.Vm.stackOf_pushed _ _ _⟩
  | reference _ => exact ⟨_, World.get_put _ _ _, Lua.Vm.stackOf_pushed _ _ _⟩
  | function _ _ _ stack => exact ⟨_, World.get_put _ _ _, stack⟩

namespace PushedAll

theorem denotes (h : PushedAll registry t w vs us w') (hm : w.machines.get t.machine = .open vm) (hg : vm.generation = g)
    (recalls : Recalls g t.machine w₀ (referencesOfAll vs) w vm) : List.Forall₂ (Denotes g t.machine w₀ w') vs us := by
  induction h generalizing vm with
  | nil w => exact .nil
  | cons hm' pushed _ rest ih =>
    cases hm'.symm.trans hm
    have level := pushed.level hm
    obtain ⟨vm₁, hm₁, alike⟩ := level.opened _ _ hm
    refine .cons ((pushed.denotes hg fun id hid => recalls id (List.mem_append_left _ hid)).later rest.level.functions) ?_
    exact ih hm₁ (alike.generation.trans hg) (.level (fun id hid => recalls id (List.mem_append_right _ hid)) level alike)

theorem stack (h : PushedAll registry t w vs us w') (hm : w.machines.get t.machine = .open vm) :
    ∃ vm', w'.machines.get t.machine = .open vm' ∧ vm'.stackOf t.thread = vm.stackOf t.thread ++ us.toArray := by
  induction h generalizing vm with
  | nil w => exact ⟨vm, hm, (Array.append_empty).symm⟩
  | cons hm' pushed _ rest ih =>
    cases hm'.symm.trans hm
    obtain ⟨vm₁, hm₁, first⟩ := pushed.stack
    obtain ⟨vm₂, hm₂, all⟩ := ih hm₁
    refine ⟨vm₂, hm₂, all.trans ?_⟩
    rw [first]
    simp

/-- None of the values that are pushed was refused in the world before. -/
theorem free (h : PushedAll registry t w vs us w') : ∀ v ∈ vs, ∀ e, ¬ Refuses w v e := by
  induction h with
  | nil w => exact nofun
  | cons hm pushed free rest ih =>
    intro v hv e refused
    obtain rfl | hv := List.mem_cons.mp hv
    · exact free e refused
    · refine ih v hv e (refused.of_same fun id => ?_)
      obtain ⟨machines, foreigns, trampolines, rfl⟩ := (pushed.level hm).rest
      rfl

end PushedAll
end Pushing

/-! ## Calls -/

/-- How a call answers to what a function gave or raised in world `w`, with what stack was there. It pushes all
results and tells of nothing, if none is refused. It tells of the first that is refused, or of the error that
was raised, and gives nothing. -/
inductive Answers (g : Generation) (f : Foreign) (t : Handle) (w : World) (stack : Array Lua.Value) :
    Except Failure Value → EStateM.Result Stop World Int → Prop where
  | results {r : Value} {us : List Lua.Value} {w' : World} {vm : Vm} (free : ∀ v ∈ resultList r, ∀ e, ¬ Refuses w v e)
    (denotes : List.Forall₂ (Denotes g t.machine w w') (resultList r) us) (quiet : w'.reports = w.reports)
    (hm : w'.machines.get t.machine = .open vm) (pushed : vm.stackOf t.thread = stack ++ us.toArray) :
    Answers g f t w stack (.ok r) (.ok (resultList r).length w')
  | refused {r v : Value} {before after : List Value} {e : Failure} {w' : World} (parts : resultList r = before ++ v :: after)
    (free : ∀ u ∈ before, ∀ e, ¬ Refuses w u e) (refuses : Refuses w v e)
    (told : w'.reports = w.reports ++ (f.telling w e).events) : Answers g f t w stack (.ok r) (f.ending w e 0 w')
  | raised {e : Failure} {w' : World} (told : w'.reports = w.reports ++ (f.telling w e).events) :
    Answers g f t w stack (.error e) (f.ending w e 0 w')

/-- Two worlds in which the same values are refused and the same is told of. -/
structure World.Likewise (f : Foreign) (w w' : World) : Prop where
  reports : w'.reports = w.reports
  telling : ∀ e, f.telling w' e = f.telling w e
  refuses : ∀ v e, Refuses w' v e ↔ Refuses w v e

namespace World.Likewise

theorem of_same (reports : w'.reports = w.reports) (reporters : w'.reporters = w.reporters) (runtimes : w'.runtimes = w.runtimes)
    (same : ∀ id, w'.machineOf (w'.references.get id).registry = w.machineOf (w.references.get id).registry) : w.Likewise f w' where
  reports := reports
  telling := fun e => by rw [Foreign.telling, reporters, runtimes, Foreign.telling]
  refuses := fun _ _ => ⟨fun h => h.of_same fun id => (same id).symm, fun h => h.of_same same⟩

theorem trans {a b c : World} (h : a.Likewise f b) (k : b.Likewise f c) : a.Likewise f c :=
  ⟨k.reports.trans h.reports, fun e => (k.telling e).trans (h.telling e), fun v e => (k.refuses v e).trans (h.refuses v e)⟩

theorem ending (h : w.Likewise f w') (e : Failure) {α : Type} (a : α) (w₁ : World) : f.ending w' e a w₁ = f.ending w e a w₁ := by
  rw [Foreign.ending, h.telling, Foreign.ending]

end World.Likewise

theorem World.Trims.likewise (h : w.Trims w') : w.Likewise f w' := by
  have same (id : Nat) : w'.machineOf (w'.references.get id).registry = w.machineOf (w.references.get id).registry := by
    rw [h.machineOf, h.registry]
  obtain ⟨machines, references, journal, rfl⟩ := h.rest
  exact .of_same rfl rfl rfl same

theorem World.Level.likewise {ids : List Nat} (h : w.Level ids w') : w.Likewise f w' := by
  obtain ⟨machines, foreigns, trampolines, rfl⟩ := h.rest
  exact .of_same rfl rfl rfl fun _ => rfl

/-- What has been given before a result was refused, if one was. -/
theorem Giving.gives {ids : List Nat} {r : Value} {before : List Value} {us : List Lua.Value} {stop : Option (Nat × Failure)}
    (h : Giving f t ids w r before us stop w') (hl : w.Lawful g) (ha : w.Assigned g) (hr : Reliable g w.journal)
    (hm : w.machines.get t.machine = .open vm) (fine : vm.breached = false) :
    w.Likewise f w'.landed ∧ List.Forall₂ (Denotes g t.machine w w') before us ∧ (∀ v ∈ before, ∀ e, ¬ Refuses w v e) ∧
      Stops w (resultList r) before stop ∧
      ∃ vm', w'.machines.get t.machine = .open vm' ∧ vm'.stackOf t.thread = vm.stackOf t.thread ++ us.toArray := by
  cases h with
  | @intro w₁ _ vm₁ vm₂ _ _ _ drops hm₁ alike stack pushed stops =>
    obtain ⟨_, hm₁', still⟩ := drops.trims.opened _ vm hm
    cases hm₁.symm.trans hm₁'
    have aloft : w.Likewise f (w.flying r.references) := .of_same rfl rfl rfl fun _ => rfl
    have dropped : w.Likewise f w₁ := aloft.trans drops.trims.likewise
    have put : w₁.Level [] (w₁.put t.machine vm₂) := .put hm₁ alike
    have pushes : w.Likewise f w' := (dropped.trans put.likewise).trans pushed.level.likewise
    have landed : w'.Likewise f w'.landed := .of_same rfl rfl rfl fun _ => rfl
    have generation : vm₂.generation = g := alike.generation.trans (still.generation.trans (hl.generations _ _ hm))
    have recalls := (drops.recalls hl ha hr hm₁ (still.breached.trans fine)).level put alike
    have denotes := pushed.denotes (World.get_put _ _ _) generation fun id hid => by
      obtain ⟨v, hv, hid⟩ := mem_referencesOfAll.mp hid
      exact recalls id (referencesOfAll_resultList r ▸ mem_referencesOfAll.mpr ⟨v, stops.among v hv, hid⟩)
    have free : ∀ v ∈ before, ∀ e, ¬ Refuses w v e := fun v hv e refused =>
      pushed.free v hv e (((dropped.trans put.likewise).refuses v e).mpr refused)
    obtain ⟨vm', hm', all⟩ := pushed.stack (World.get_put _ _ _)
    refine ⟨pushes.trans landed, denotes, free, stops.imp fun v e => (pushes.refuses v e).mp, vm', hm', all.trans ?_⟩
    rw [stack, still.stack]

theorem Finish.answers {ids : List Nat} {outcome : Except Failure Value} {result : EStateM.Result Stop World Int}
    (h : Finish f t ids w outcome result w') (hl : w.Lawful g) (ha : w.Assigned g) (hr : Reliable g w.journal)
    (hm : w.machines.get t.machine = .open vm) (fine : vm.breached = false) :
    Answers g f t w (vm.stackOf t.thread) outcome result := by
  cases h with
  | @raised e _ drops =>
    have dropped : (w.told f e).Likewise f w' := drops.trims.likewise
    exact .raised dropped.reports
  | given giving drops =>
    obtain ⟨same, denotes, free, stops, vm₁, hm₁, all⟩ := giving.gives hl ha hr hm fine
    have dropped : World.Likewise f _ w' := drops.trims.likewise
    obtain ⟨vm', hm', still⟩ := drops.trims.opened _ vm₁ hm₁
    cases stops
    have functions := drops.trims.rest
    refine .results free (denotes.imp fun v u h => h.later fun k hk => ?_) (dropped.reports.trans same.reports) hm'
      ((still.stack _).trans all)
    obtain ⟨machines, references, journal, rfl⟩ := functions
    exact ⟨hk, rfl⟩
  | @stopped r _ _ k e w₁ _ giving drops =>
    obtain ⟨same, -, free, stops, -⟩ := giving.gives hl ha hr hm fine
    have dropped : (w₁.landed.told f e).Likewise f w' := drops.trims.likewise
    have told : w'.reports = w.reports ++ (f.telling w e).events := by
      rw [dropped.reports, World.told, same.reports, same.telling]
    rw [same.ending]
    cases stops with
    | refused parts refuses => exact .refused parts free refuses told

namespace Answers

variable {p : Pin} {stack : Array Lua.Value} {result : EStateM.Result Stop World Int}
  (h : Answers g f t w stack (.ok (.reference p.id)) result)

include h

/-- A reference that is given back reaches the machine while its registry has it, and nothing is told of. -/
theorem argument_passes (home : w.machineOf (w.references.get p.id).registry = some t.machine)
    (holds : (w.references.get p.id).holds = true)
    (taken : allocated t.machine (w.references.get p.id).slot w.journal = some p.value) :
    ∃ w' vm, result = .ok 1 w' ∧ w'.reports = w.reports ∧ w'.machines.get t.machine = .open vm ∧
      vm.stackOf t.thread = stack.push p.value := by
  cases h with
  | @results _ us w' vm _ denotes quiet hm pushed =>
    refine ⟨w', vm, rfl, quiet, hm, pushed.trans ?_⟩
    cases denotes with
    | cons denotes rest =>
      cases rest
      cases denotes with
      | data copy => cases copy
      | pinned _ _ taken' =>
        rw [Option.some_inj.mp (taken'.symm.trans taken)]
        exact Array.push_eq_append.symm
      | released _ none => exact nomatch none.symm.trans holds
      | elsewhere home' other _ => exact absurd (Option.some_inj.mp (home'.symm.trans home)) other
      | function hv _ _ => cases hv
  | @refused _ v before after e _ parts _ refuses _ =>
    cases before with
    | nil =>
      cases parts
      exact nomatch (Refuses.reference_iff.mp refuses).1.symm.trans home
    | cons _ before => cases before <;> cases parts

/-- Once its registry has been closed, it does not reach the machine, and this is told of. -/
theorem argument_lost (home : w.machineOf (w.references.get p.id).registry = none) :
    ∃ w', result = f.ending w refusal 0 w' ∧ w'.reports = w.reports ++ (f.telling w refusal).events := by
  cases h with
  | results free _ _ _ _ => exact absurd (.closed home) (free _ List.mem_cons_self _)
  | @refused _ v before after e w' parts _ refuses told =>
    cases before with
    | nil =>
      cases parts
      obtain ⟨-, rfl⟩ := Refuses.reference_iff.mp refuses
      exact ⟨w', rfl, told⟩
    | cons _ before => cases before <;> cases parts

end Answers

/-- The references of pins that hold something still pin on machine `m` what they did. -/
def World.Retains (w : World) (m : Nat) (pins : List Pin) : Prop :=
  ∀ p ∈ pins, (w.references.get p.id).holds = true → ∀ n, w.machineOf (w.references.get p.id).registry = some n →
    n = m ∧ allocated m (w.references.get p.id).slot w.journal = some p.value

/-- Whatever a function does while it runs, references to its arguments that it has not released are retained. -/
theorem World.Carries.retains (carries : w.Carries g w') (pairs : w.machineOf f.registry = none ∨ w.machineOf f.registry = some t.machine)
    (arrived : ∀ p ∈ pins, p.id < w.references.size ∧ Arrived env f t w p) : w'.Retains t.machine pins := by
  intro p hp holds n home
  obtain ⟨there, arrived⟩ := arrived p hp
  have stays := carries.stays n (w'.references.get p.id).slot none p.id there ⟨home, holds, rfl, rfl⟩
  obtain ⟨home₀, -, slot, -⟩ := stays.held
  rw [arrived.reference] at home₀ slot
  obtain closed | opened := pairs
  · exact nomatch closed.symm.trans home₀
  · cases opened.symm.trans home₀
    refine ⟨rfl, stays.allocated.trans ?_⟩
    rw [← slot]
    exact arrived.taken

/-- A call of a function of the host, made while the machine runs it. The arguments arrive, unless no slot is
left: they depend on the stack alone, not on whether the state through which the function was made has been
closed. What cannot be copied arrives as a new reference that pins it; this is valid, and can be given back to
the machine, only if that state has not been closed. Whatever the function then does, the call answers to what it
gives or raises. References to its arguments that it has not released still pin what they did. -/
theorem call_answers {id : Nat} {act : List Value → H Value} (he : env.Follows) (h : Stages g (Session.start g) w)
    (given : t.machine ∈ (w.foreigns.get id).machines) (hm : w.machines.get t.machine = .open vm)
    (small : (vm.stackOf t.thread).size < 0x80000000) :
    (∃ w', callHost (w.foreigns.get id) act t env w = .error (.signal (.fault .registryFull)) w') ∨
      ∃ (as : List Value) (pins : List Pin) (w₁ : World),
        arguments (w.foreigns.get id) t (vm.stackOf t.thread).size 1 env w = .ok as w₁ ∧
        as = received (w.runtimes.get (w.foreigns.get id).runtime) w.references.size (vm.stackOf t.thread).toList ∧
        pins.map Pin.id = referencesOfAll as ∧
        pins.map Pin.value = (vm.stackOf t.thread).toList.filter
          (fun v => (copied (w.runtimes.get (w.foreigns.get id).runtime) v).isNone) ∧
        w₁.machineOf (w.foreigns.get id).registry = w.machineOf (w.foreigns.get id).registry ∧
        (Reliable g w₁.journal → ∀ p ∈ pins, Arrived env (w.foreigns.get id) t w₁ p) ∧
        ∀ (outcome : Except Failure Value) (w₂ : World) (vm₂ : Vm),
          attempt (act as) env (w₁.flying (pins.map Pin.id)) = .ok outcome w₂ → Stages g (w₁.flying (pins.map Pin.id)) w₂ →
          Reliable g w₂.journal → w₂.machines.get t.machine = .open vm₂ → vm₂.breached = false →
          (∀ r, outcome = .ok r → ∀ n ∈ r.references, w₂.landed.holds n = true ∨ w₂.InReach n) →
          w₂.Retains t.machine pins ∧
            Answers g (w.foreigns.get id) t w₂.landed (vm₂.stackOf t.thread) outcome (callHost (w.foreigns.get id) act t env w) := by
  have lawful : w.Lawful g := Stages.lawful h (start_lawful g)
  have pairs := lawful.given id t.machine given
  have generation : vm.generation = g := lawful.generations _ _ hm
  have fits : (w.runtimes.get (w.foreigns.get id).runtime).generation = vm.generation :=
    (lawful.generation _ ((start_equipped g).stages (start_lawful g) h id)).trans generation.symm
  obtain full | ⟨as, pins, w₁, run, received, goes⟩ := callHost_phases (w.foreigns.get id) act hm fits small
  · exact .inl full
  -- the world when the arguments have arrived
  have moves : Moves w w₁ := by
    have led := (Leads.arguments (w.foreigns.get id) t pairs (vm.stackOf t.thread).size 1).after he lawful.toSound w .refl
    rwa [run] at led
  have stages₁ : Stages g (Session.start g) w₁ := h.trans moves.quiets.stages
  have lawful₁ := Stages.lawful stages₁ (start_lawful g)
  have same : w₁.machineOf (w.foreigns.get id).registry = w.machineOf (w.foreigns.get id).registry := received.onward.machineOf _
  have arrived (hr : Reliable g w₁.journal) : ∀ p ∈ pins, Arrived env (w.foreigns.get id) t w₁ p :=
    received.arrived env lawful₁ (Stages.carries stages₁ (start_lawful g) (start_assigned g) hr).assigned hr
  refine .inr ⟨as, pins, w₁, run, received.eq_received, received.references.symm, received.values, same, arrived, ?_⟩
  intro outcome w₂ vm₂ ran stages hr hm₂ fine results
  -- the world when the function has come back
  have aloft : w₁.Beside (w₁.flying (pins.map Pin.id)) := ⟨rfl, rfl, rfl, rfl, rfl, rfl, rfl, rfl, rfl, rfl⟩
  have stages₂ : Stages g w₁ w₂ := (Move.beside aloft).moves.quiets.stages.trans stages
  obtain ⟨es, journal⟩ := Stages.journal stages₂
  have hr₁ : Reliable g w₁.journal := .of_append (journal ▸ hr)
  have carries₁ := Stages.carries stages₁ (start_lawful g) (start_assigned g) hr₁
  have carries := Stages.carries stages₂ lawful₁ carries₁.assigned hr
  have retains : w₂.Retains t.machine pins := carries.retains (same ▸ pairs.2) fun p hp => ⟨(received.newer p hp).2.1, arrived hr₁ p hp⟩
  have landing : w₂.Beside w₂.landed := ⟨rfl, rfl, rfl, rfl, rfl, rfl, rfl, rfl, rfl, rfl⟩
  have landed : Stages g w₂ w₂.landed := (Move.beside landing).moves.quiets.stages
  have lawful₂ := Stages.lawful landed (Stages.lawful stages₂ lawful₁)
  have assigned₂ := (Stages.carries landed (Stages.lawful stages₂ lawful₁) carries.assigned hr).assigned
  have hm₃ : w₂.landed.machines.get t.machine = .open vm₂ := hm₂
  have runtimes (n : Nat) : (w₂.landed.runtimes.get (w₂.landed.registries.get n).runtime).generation = vm₂.generation :=
    (lawful₂.generation _ (lawful₂.registryRuntime n)).trans (lawful₂.generations _ _ hm₃).symm
  have reach : ∀ n ∈ pins.map Pin.id, w₂.landed.InReach n := by
    intro n hn holds k home
    obtain ⟨p, hp, rfl⟩ := List.mem_map.mp hn
    obtain ⟨rfl, -⟩ := retains p hp holds k home
    exact ⟨vm₂, hm₂⟩
  obtain ⟨w', finished⟩ := finish_runs env (w.foreigns.get id) hm₃ runtimes reach results
  rw [goes outcome w₂ ran]
  exact ⟨retains, finished.answers lawful₂ assigned₂ hr hm₃ fine⟩

/-- A callback that gives its first argument back. -/
def giver : Callback := .named "f" .first

/-- Whether the function of the host that was made first is all that is on the stack of a machine. -/
def World.calling (w : World) (m : Nat) : Bool :=
  w.shows m fun vm => !vm.breached && match (vm.stackOf 0).toList with
    | [.native (.foreign 0) 0] => true
    | _ => false

theorem World.open_of_calling (h : w.calling m = true) :
    ∃ vm, w.machines.get m = .open vm ∧ vm.breached = false ∧ vm.stackOf 0 = #[.native (.foreign 0) 0] := by
  obtain ⟨vm, hm, shown⟩ := World.open_of_shows h
  obtain ⟨fine, same⟩ := Bool.and_eq_true_iff.mp shown
  refine ⟨vm, hm, Bool.not_eq_true' _ |>.mp fine, Array.toList_inj.mp ?_⟩
  split at same
  · next single => exact single
  · cases same

/-- The callback is called with itself: it is pushed again, and nothing is told of. -/
theorem call_answers_giver :
    ∃ w' vm, callHost ((exposed giver).foreigns.get 0) giver.run (.main 0) Env.full (exposed giver) = .ok 1 w' ∧
      w'.reports = (exposed giver).reports ∧ w'.machines.get 0 = .open vm ∧
      vm.stackOf 0 = #[.native (.foreign 0) 0, .native (.foreign 0) 0] := by
  obtain ⟨vm, hm, -, stack⟩ := World.open_of_calling (by decide +kernel : (exposed giver).calling 0 = true)
  have given : (Handle.main 0).machine ∈ ((exposed giver).foreigns.get 0).machines := by decide +kernel
  have small : (vm.stackOf 0).size < 0x80000000 := by
    rw [stack]
    decide
  have home : (exposed giver).machineOf ((exposed giver).foreigns.get 0).registry = some 0 := by decide +kernel
  obtain ⟨w', full⟩ | ⟨as, pins, w₁, run, received, ids, values, same, arrived, answers⟩ := @call_answers .v54 Env.full (exposed giver) vm
    (.main 0) 0 giver.run Env.full_follows (reached_stages (exposed_reached (by decide +kernel))) given hm small
  · have succeeds : Session.succeeds (callHost ((exposed giver).foreigns.get 0) giver.run (.main 0) Env.full (exposed giver)) = true := by
      decide +kernel
    rw [full] at succeeds
    cases succeeds
  have thread : vm.stackOf (Handle.main 0).thread = #[.native (.foreign 0) 0] := stack
  rw [thread] at run received values
  -- the only argument is a new reference, and the only pin
  obtain ⟨p, rfl, value⟩ := List.map_eq_singleton_iff.mp values
  have only : as = [.reference (exposed giver).references.size] := received
  have none : (exposed giver).references.size = 0 := by decide +kernel
  have number : p.id = 0 := by
    rw [only] at ids
    exact (List.singleton_inj.mp ids).trans none
  rw [none, ← number] at only
  subst only
  have after : w₁ = final (arguments ((exposed giver).foreigns.get 0) (.main 0) 1 1 Env.full (exposed giver)) := by
    rw [show arguments ((exposed giver).foreigns.get 0) (.main 0) 1 1 Env.full (exposed giver) = _ from run]
    rfl
  have reliable : Reliable .v54 w₁.journal := by
    rw [after]
    decide +kernel
  obtain ⟨vm₁, hm₁, fine, stack₁⟩ := World.open_of_calling (by rw [after]; decide +kernel : w₁.calling 0 = true)
  have arrived := arrived reliable p List.mem_cons_self
  have home₁ : w₁.machineOf (w₁.references.get p.id).registry = some 0 := by
    rw [arrived.reference, ← home, ← same]
  have holds : (w₁.references.get p.id).holds = true := by
    rw [number, after]
    decide +kernel
  let w₂ : World := { w₁.flying [p.id] with calls := w₁.calls ++ [.text "f" :: answerAll (w₁.flying [p.id]) [.reference p.id]] }
  have ran : attempt (giver.run [.reference p.id]) Env.full (w₁.flying [p.id]) = .ok (.ok (.reference p.id)) w₂ := rfl
  have beside : (w₁.flying [p.id]).Beside w₂ := ⟨rfl, rfl, rfl, rfl, rfl, rfl, rfl, rfl, rfl, rfl⟩
  have reach : ∀ r, (.ok (.reference p.id) : Except Failure Value) = .ok r → ∀ n ∈ r.references, w₂.landed.holds n = true ∨ w₂.InReach n := by
    intro r hr n hn
    cases hr
    cases List.mem_singleton.mp hn
    refine .inr fun _ k there => ?_
    cases home₁.symm.trans there
    exact ⟨vm₁, hm₁⟩
  have stages : Stages .v54 (w₁.flying [p.id]) w₂ := (Move.beside beside).moves.quiets.stages
  obtain ⟨retains, answered⟩ := answers (.ok (.reference p.id)) w₂ vm₁ ran stages reliable hm₁ fine reach
  have home₂ : w₂.landed.machineOf (w₂.landed.references.get p.id).registry = some (Handle.main 0).machine := home₁
  obtain ⟨-, taken⟩ := retains p List.mem_cons_self holds 0 home₁
  obtain ⟨w', vm', run', quiet, hm', all⟩ := answered.argument_passes home₂ holds taken
  refine ⟨w', vm', run', ?_, hm', ?_⟩
  · calc w'.reports = w₁.reports := quiet
      _ = [] := List.isEmpty_iff.mp (by rw [after]; decide +kernel)
      _ = (exposed giver).reports := (List.isEmpty_iff.mp (by decide +kernel)).symm
  · have twice : vm'.stackOf 0 = (vm₁.stackOf 0).push p.value := all
    rw [twice, stack₁, value]
    rfl

end LuaHost.Host
