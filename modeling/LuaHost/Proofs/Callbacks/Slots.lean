import LuaHost.Proofs.Callbacks.Endings

set_option autoImplicit false

/-!
# Slots after a call

When a call of a function that performs no operation of its own has ended, however it ended, the slots that
its arguments took are given back, but for those whose references are still held: if the registry through
which the function was made still has its machine. If it has been closed, none is given back.
-/

namespace LuaHost.Host

open Lua (Vm Generation)
open Session (Step Reached reached_stages start_lawful start_equipped)

variable {g : Generation} {env : Env} {w w' : World} {vm : Vm} {f : Foreign} {t : Handle} {m registry : Nat} {pins : List Pin}
  {base : Set Int}

/-! ## The phases of a call -/

/-- All pins of a call are left when its arguments have been received. -/
theorem Received.balance {vs : List Lua.Value} {as : List Value} (h : Received f t w vs as pins w')
    (hr : Reliable g w'.journal) : OwnSlots g pins (w.slots t.machine) ∧
      w'.Balance t.machine f.registry (w.slots t.machine) pins fun _ => True := by
  have journal : w'.journal = pinning t.machine pins w.journal := by
    obtain ⟨machines, references, rfl⟩ := h.rest
    rfl
  have some_ : ∀ p ∈ pins, p.value.isNil = false := fun p hp => (h.newer p hp).2.2.2
  refine ⟨pinning_ownSlots h.distinct some_ (journal ▸ hr), ?_, fun p hp _ => (h.newer p hp).2.2.1, fun _ _ left => absurd trivial left⟩
  rw [World.slots, journal, slotsOf_pinning some_]
  simp only [implies_true, true_and]
  rfl

theorem World.Keeping.balance {left : Nat → Prop} (h : w.Keeping w') (hb : w.Balance m registry base pins left) :
    w'.Balance m registry base pins left :=
  hb.of_same h.journal h.references (h.onward.machineOf registry)

section Ending

variable (own : OwnSlots g pins base)

include own

/-- Once the results have been given, the pins are left whose references are held by something, or by the
results. -/
theorem Giving.balance {r : Value} {before : List Value} {us : List Lua.Value} {stop : Option (Nat × Failure)}
    (h : Giving f t (pins.map Pin.id) w r before us stop w') (hb : w.Balance m registry base pins fun _ => True) :
    w'.landed.Balance m registry base pins fun id => w'.landed.holds id = true ∨ id ∈ r.references := by
  cases h with
  | @intro w₁ _ vm₁ vm₂ _ _ _ drops hm alike _ pushed stops =>
    let aloft := w.flying r.references
    have hb' : aloft.Balance m registry base pins fun _ => True := hb.of_same rfl rfl rfl
    have balance := drops.balance own hb' fun id hid => .inl (List.mem_map.mp (List.mem_reverse.mp hid))
    have whole := Giving.level hm alike pushed stops
    have onward : aloft.Onward w' := drops.trims.onward.trans whole.onward
    have held (id : Nat) : aloft.holds id = true ↔ w'.landed.holds id = true ∨ id ∈ r.references := by
      have inFlight : ∀ id ∈ r.references, w₁.holds id = true := fun id hid => by
        rw [drops.trims.holds]
        exact World.holds_flying.mpr (.inr hid)
      rw [← drops.trims.holds, ← whole.holds_iff inFlight, ← onward.flying_landed]
      exact World.holds_flying
    have balance' : w'.landed.Balance m registry base pins fun id =>
        True ∧ (id ∈ (pins.map Pin.id).reverse → aloft.holds id = true) := by
      obtain ⟨machines, foreigns, trampolines, rfl⟩ := whole.rest
      exact balance.of_same rfl rfl rfl
    refine balance'.imp fun p hp => ?_
    rw [true_and, held]
    exact ⟨fun h _ => h, fun h => h (List.mem_reverse.mpr (List.mem_map_of_mem hp))⟩

/-- At the end of a call those pins are left whose references are held. -/
theorem Finish.balance {outcome : Except Failure Value} {result : EStateM.Result Stop World Int}
    (h : Finish f t (pins.map Pin.id) w outcome result w') (hb : w.Balance m registry base pins fun _ => True)
    (known : ∀ r, outcome = .ok r → ∀ id ∈ r.references, (∃ p ∈ pins, p.id = id) ∨ w.holds id = true) :
    w'.Balance m registry base pins fun id => w'.holds id = true := by
  -- the results are let go after they have been given, whether or not an error was told of
  have settles {r : Value} {before : List Value} {us : List Lua.Value} {stop : Option (Nat × Failure)} {last : Option Nat} {w₁ w₂ : World}
      (hr : outcome = .ok r) (giving : Giving f t (pins.map Pin.id) w r before us stop w₁) (keeping : w₁.landed.Keeping w₂)
      (same : ∀ id, w₂.holds id = w₁.landed.holds id) (drops : Drops (releaseOrder (resultList r) last) w₂ w') :
      w'.Balance m registry base pins fun id => w'.holds id = true := by
    have balance := drops.balance own (keeping.balance (giving.balance own hb)) fun id hid => by
      rw [mem_releaseOrder, referencesOfAll_resultList] at hid
      rw [same]
      exact (known r hr id hid).imp_right giving.onward.holds
    refine balance.imp fun p _ => ?_
    rw [drops.trims.holds, same, mem_releaseOrder, referencesOfAll_resultList]
    exact ⟨fun h => ⟨.inl h, fun _ => h⟩, fun h => h.1.elim id h.2⟩
  cases h with
  | @raised e _ drops =>
    refine (drops.balance own ((w.keeping_told f e).balance hb) fun id hid =>
      .inl (List.mem_map.mp (List.mem_reverse.mp hid))).imp fun p hp => ?_
    rw [true_and, drops.trims.holds]
    exact ⟨fun h _ => h, fun h => h (List.mem_reverse.mpr (List.mem_map_of_mem hp))⟩
  | given giving drops => exact settles rfl giving (.refl _) (fun _ => rfl) drops
  | stopped giving drops => exact settles rfl giving (World.keeping_told _ f _) (fun _ => rfl) drops

end Ending

/-! ## Calls -/

/-- What a call has made of the world when its arguments have been received and the function has run. -/
theorem callHost_reliable {id : Nat} {as : List Value} {w₁ w₂ : World} {outcome : Except Failure Value} {n : Nat}
    (he : env.Follows) (sound : w.Sound) (given : t.machine ∈ (w.foreigns.get id).machines)
    (received : arguments (w.foreigns.get id) t n 1 env w = .ok as w₁) (keeping : w₁.Keeping w₂)
    (hr : Reliable g (final (finish (w.foreigns.get id) t (pins.map Pin.id) outcome env w₂)).journal) :
    Reliable g w₁.journal := by
  have pairs := sound.given id t.machine given
  have moves : Moves w w₁ := by
    have arrived := (Leads.arguments (w.foreigns.get id) t pairs n 1).after he sound w .refl
    rwa [received] at arrived
  have ran : Moves w w₂ := moves.tail (.beside keeping.toBeside)
  have ended := (Leads.finish _ t (ran.continues.pairs pairs) (pins.map Pin.id) outcome).after he (ran.sound sound) w₂ .refl
  obtain ⟨es, journal, -⟩ := ended.continues.journal
  rw [journal] at hr
  exact keeping.journal ▸ .of_append hr

/-- A call of a function that performs no operation, made while the machine runs it, comes back or raises,
unless no slot is left. Each argument that cannot be copied took a slot of its own. The slots of those whose
references are still held stay taken; the others are given back if the registry of the function has its
machine, and stay taken too if it has been closed. -/
theorem slots_given_back {id : Nat} {act : List Value → H Value} (he : env.Follows) (h : Stages g (Session.start g) w)
    (given : t.machine ∈ (w.foreigns.get id).machines) (hm : w.machines.get t.machine = .open vm)
    (small : (vm.stackOf t.thread).size < 0x80000000) (plain : Plain env (fun id => w.holds id = true) act)
    (hr : Reliable g (final (callHost (w.foreigns.get id) act t env w)).journal) :
    (∃ w', callHost (w.foreigns.get id) act t env w = .error (.signal (.fault .registryFull)) w') ∨
      ∃ pins w', Ends (callHost (w.foreigns.get id) act t env w) w' ∧
        pins.map Pin.value = (vm.stackOf t.thread).toList.filter
          (fun v => (copied (w.runtimes.get (w.foreigns.get id).runtime) v).isNone) ∧
        OwnSlots g pins (w.slots t.machine) ∧
        w'.slots t.machine = w.slots t.machine ∪ {slot | ∃ p ∈ pins,
          (w.machineOf (w.foreigns.get id).registry = some t.machine → w'.holds p.id = true) ∧ p.slot = slot} := by
  have lawful : w.Lawful g := Stages.lawful h (start_lawful g)
  have pairs := lawful.given id t.machine given
  have generation : vm.generation = g := lawful.generations _ _ hm
  have fits : (w.runtimes.get (w.foreigns.get id).runtime).generation = vm.generation :=
    (lawful.generation _ ((start_equipped g).stages (start_lawful g) h id)).trans generation.symm
  obtain full | ⟨as, pins, w₁, arrived, received, goes⟩ := callHost_phases (w.foreigns.get id) act hm fits small
  · exact .inl full
  · obtain ⟨outcome, w₂, ran, keeping, gives⟩ := plain.attempt (pins.map Pin.id) as w₁
    rw [goes outcome w₂ ran] at hr ⊢
    obtain ⟨own, balance⟩ := received.balance (callHost_reliable he lawful.toSound given arrived keeping hr)
    have balance₂ := keeping.balance balance
    have onward : w.Onward w₂.landed := received.onward.trans keeping.onward
    obtain ⟨vm₂, hm₂, generation₂⟩ := onward.opened _ vm hm
    have home : w₂.landed.machineOf (w.foreigns.get id).registry = none ∨
        w₂.landed.machineOf (w.foreigns.get id).registry = some t.machine := by
      rw [onward.machineOf]
      exact pairs.2
    have runtimes (n : Nat) : (w₂.landed.runtimes.get (w₂.landed.registries.get n).runtime).generation = vm₂.generation := by
      rw [onward.runtimes, onward.registries, generation₂]
      exact (lawful.generation _ (lawful.registryRuntime n)).trans generation.symm
    have reach := balance₂.inReach home ⟨vm₂, hm₂⟩
    have known : ∀ r, outcome = .ok r → ∀ id ∈ r.references, (∃ p ∈ pins, p.id = id) ∨ w₂.landed.holds id = true :=
      fun r hr id hid => (gives r hr id hid).imp (fun hid => List.mem_map.mp (received.references ▸ hid)) onward.holds
    obtain ⟨w', finished⟩ := finish_runs env (w.foreigns.get id) hm₂ runtimes
      (fun n hn => by
        obtain ⟨p, hp, rfl⟩ := List.mem_map.mp hn
        exact reach p hp)
      fun r hr id hid => (known r hr id hid).symm.imp_right fun ⟨p, hp, same⟩ => same ▸ reach p hp
    have balance' := finished.balance own balance₂ known
    refine .inr ⟨pins, w', finished.ends, received.values, own, ?_⟩
    rw [balance'.slots, finished.onward.machineOf, onward.machineOf]

/-- A callback is made through a state that borrows, and pushed on the stack of the machine itself. -/
def exposing (c : Callback) : List Step :=
  [⟨"s", none, .new none none .create true⟩, ⟨"b", none, .new none none (.borrow (some "s")) true⟩,
    ⟨"b", none, .pushHost (.callable c) true⟩]

def exposed (c : Callback) : World := Session.runAll (Session.start .v54) (exposing c)

theorem exposed_reached {c : Callback} (returns : Session.allReturn (Session.start .v54) (exposing c) = true) :
    Reached .v54 (exposed c) := by
  have plain : ∀ s ∈ exposing c, s.command.Plain := by
    intro s hs
    simp only [exposing, List.mem_cons, List.not_mem_nil, or_false] at hs
    obtain rfl | rfl | rfl := hs <;> trivial
  exact Session.Runs.refl.runAll plain returns

/-- A callback that counts its arguments. -/
def counter : Callback := .named "f" .count

/-- Whether nothing holds any reference. -/
def World.isFree (w : World) : Bool := w.stored.isEmpty && w.kept.isEmpty && w.inFlight.isEmpty && w.trampolineReferences.isEmpty

theorem World.holds_of_isFree (h : w.isFree = true) (id : Nat) : w.holds id = false := by
  simp only [World.isFree, Bool.and_eq_true, List.isEmpty_iff] at h
  obtain ⟨⟨⟨stored, kept⟩, inFlight⟩, trampolines⟩ := h
  rw [World.holds, stored, kept, inFlight, trampolines]
  rfl

/-- A callback that counts its arguments is called with itself. -/
theorem slots_given_back_counter :
    ∃ w', Ends (callHost ((exposed counter).foreigns.get 0) counter.run (.main 0) Env.full (exposed counter)) w' ∧
      w'.slots 0 = (exposed counter).slots 0 := by
  obtain ⟨vm, hm, size⟩ := World.open_of_shows
    (by decide +kernel : (exposed counter).shows 0 (fun vm => (vm.threads.get 0).stack.size == 1) = true)
  have small : (vm.stackOf 0).size < 0x80000000 := by
    rw [Vm.stackOf, beq_iff_eq.mp size]
    decide
  have given : (Handle.main 0).machine ∈ ((exposed counter).foreigns.get 0).machines := by decide +kernel
  have plain : Plain Env.full (fun id => (exposed counter).holds id = true) counter.run := Callback.plain trivial nofun
  obtain ⟨w', full⟩ | ⟨pins, w', ends, -, -, slots⟩ := slots_given_back Env.full_follows
    (reached_stages (exposed_reached (by decide +kernel))) given hm small plain (by decide +kernel)
  · have succeeds : Session.succeeds (callHost ((exposed counter).foreigns.get 0) counter.run (.main 0) Env.full (exposed counter)) = true := by
      decide +kernel
    rw [full] at succeeds
    cases succeeds
  · refine ⟨w', ends, slots.trans ?_⟩
    have same : w' = final (callHost ((exposed counter).foreigns.get 0) counter.run (.main 0) Env.full (exposed counter)) := by
      obtain ⟨_, run⟩ | ⟨_, run⟩ := ends <;> rw [run] <;> rfl
    have nobody : ∀ id, w'.holds id = false := World.holds_of_isFree (by rw [same]; decide +kernel)
    have home : (exposed counter).machineOf ((exposed counter).foreigns.get 0).registry = some 0 := by decide +kernel
    have none : {slot : Int | ∃ p ∈ pins, ((exposed counter).machineOf ((exposed counter).foreigns.get 0).registry = some 0 → w'.holds p.id = true) ∧
        p.slot = slot} = ∅ :=
      Set.eq_empty_of_forall_notMem fun _ ⟨_, _, held, _⟩ => nomatch (held home).symm.trans (nobody _)
    exact (congrArg _ none).trans (Set.union_empty _)

/-- The same call after the state that borrows has closed: its slot is not given back. -/
theorem slot_leaked :
    let w := (Session.step (exposed counter) ⟨"b", none, .close⟩).2
    4 ∉ w.slots 0 ∧ 4 ∈ (final (callHost (w.foreigns.get 0) counter.run (.main 0) Env.full w)).slots 0 := by
  have before : (allocated 0 4 (Session.step (exposed counter) ⟨"b", none, .close⟩).2.journal).isSome = false := by decide +kernel
  refine ⟨fun taken => Bool.false_ne_true (before.symm.trans taken), ?_⟩
  exact (by decide +kernel : (allocated 0 4 (final (callHost ((Session.step (exposed counter) ⟨"b", none, .close⟩).2.foreigns.get 0)
    counter.run (.main 0) Env.full (Session.step (exposed counter) ⟨"b", none, .close⟩).2)).journal).isSome = true)

end LuaHost.Host
