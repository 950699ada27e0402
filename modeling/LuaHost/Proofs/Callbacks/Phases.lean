import LuaHost.Proofs.Callbacks.Results

set_option autoImplicit false

/-!
# Phases of a call

A call receives its arguments, runs the function while they are held, and then finishes. A world goes onward
in all phases in which nothing but the call itself is at work: machines stay open, registries stay what they
are, and what is held by something else than the call stays held.
-/

namespace LuaHost.Host

open Lua (Vm Generation)
open Binding (Runtime)

variable {env : Env} {w w' : World} {vm : Vm} {f : Foreign} {t : Handle} {m registry : Nat} {α : Type}

/-! ## Worlds that go onward -/

structure World.Onward (w w' : World) : Prop where
  registries : w'.registries = w.registries
  runtimes : w'.runtimes = w.runtimes
  inFlight : w'.inFlight = w.inFlight
  anchored : ∀ id, w.anchored id = true → w'.anchored id = true
  opened : ∀ n vm, w.machines.get n = .open vm → ∃ vm', w'.machines.get n = .open vm' ∧ vm'.generation = vm.generation

namespace World.Onward

theorem trans {a b c : World} (h : a.Onward b) (k : b.Onward c) : a.Onward c where
  registries := k.registries.trans h.registries
  runtimes := k.runtimes.trans h.runtimes
  inFlight := k.inFlight.trans h.inFlight
  anchored := fun id hid => k.anchored id (h.anchored id hid)
  opened := fun n vm hm => by
    obtain ⟨vm₁, hm₁, same⟩ := h.opened n vm hm
    obtain ⟨vm₂, hm₂, same'⟩ := k.opened n vm₁ hm₁
    exact ⟨vm₂, hm₂, same'.trans same⟩

theorem machineOf (h : w.Onward w') (r : Nat) : w'.machineOf r = w.machineOf r := by
  rw [World.machineOf, h.registries, World.machineOf]

theorem holds (h : w.Onward w') {id : Nat} (hid : w.holds id = true) : w'.holds id = true := by
  rw [World.holds_eq, Bool.or_eq_true] at hid ⊢
  rw [h.inFlight]
  exact hid.imp_left (h.anchored id)

end World.Onward

theorem World.Trims.onward (h : w.Trims w') : w.Onward w' := by
  have opened := h.opened
  obtain ⟨machines, references, journal, rfl⟩ := h.rest
  refine ⟨rfl, rfl, rfl, fun _ h => h, fun n vm hm => ?_⟩
  obtain ⟨vm', hm', still⟩ := opened n vm hm
  exact ⟨vm', hm', still.generation⟩

theorem World.Level.onward {ids : List Nat} (h : w.Level ids w') : w.Onward w' := by
  have opened := h.opened
  have anchored := fun id (hid : w.anchored id = true) => h.anchored hid
  obtain ⟨machines, foreigns, trampolines, rfl⟩ := h.rest
  refine ⟨rfl, rfl, rfl, anchored, fun n vm hm => ?_⟩
  obtain ⟨vm', hm', alike⟩ := opened n vm hm
  exact ⟨vm', hm', alike.generation⟩

theorem Received.onward {vs : List Lua.Value} {as : List Value} {pins : List Pin} (h : Received f t w vs as pins w') :
    w.Onward w' := by
  have opened := fun vm (hm : w.machines.get t.machine = .open vm) => h.opened hm
  have others := fun n (hn : n ≠ t.machine) => h.others hn
  obtain ⟨machines, references, rfl⟩ := h.rest
  refine ⟨rfl, rfl, rfl, fun _ h => h, fun n vm hm => ?_⟩
  by_cases same : n = t.machine
  · subst same
    obtain ⟨vm', hm', -, generation, -⟩ := opened vm hm
    exact ⟨vm', hm', generation⟩
  · exact ⟨vm, (others n same).trans hm, rfl⟩

/-! ## Functions that do nothing with machines -/

/-- More may be kept or written down, but nothing is let go, and neither slots nor functions change. -/
structure World.Keeping (w w' : World) : Prop extends w.Beside w' where
  inFlight : w'.inFlight = w.inFlight
  kept : ∀ id ∈ referencesOfAll w.kept, id ∈ referencesOfAll w'.kept

theorem World.Keeping.refl (w : World) : w.Keeping w := ⟨⟨rfl, rfl, rfl, rfl, rfl, rfl, rfl, rfl, rfl, rfl⟩, rfl, fun _ h => h⟩

theorem World.Keeping.onward (h : w.Keeping w') : w.Onward w' where
  registries := h.registries
  runtimes := h.runtimes
  inFlight := h.inFlight
  anchored := fun id hid => by
    have same : w'.trampolineReferences = w.trampolineReferences := by
      rw [World.trampolineReferences, h.trampolines, h.foreigns, World.trampolineReferences]
    simp only [World.anchored, Bool.or_eq_true, List.contains_iff_mem, h.stored, same] at hid ⊢
    exact hid.imp_left (.imp_right (h.kept id))
  opened := fun _ vm hm => ⟨vm, h.machines ▸ hm, rfl⟩

/-- A function of the host that performs no operation: it comes back or raises, lets nothing go, and gives no
references but those it was given and some that are held anyway. -/
structure Plain (env : Env) (held : Nat → Prop) (act : List Value → H Value) : Prop where
  runs : ∀ args w,
    (∃ r w', act args env w = .ok r w' ∧ w.Keeping w' ∧ ∀ id ∈ r.references, id ∈ referencesOfAll args ∨ held id) ∨
      ∃ e w', act args env w = .error (.failure e) w' ∧ w.Keeping w'

theorem mem_referencesOfAll {id : Nat} {vs : List Value} : id ∈ referencesOfAll vs ↔ ∃ v ∈ vs, id ∈ v.references := by
  induction vs with
  | nil => exact ⟨nofun, nofun⟩
  | cons v vs ih => rw [referencesOfAll, List.mem_append, ih, List.exists_mem_cons_iff]

/-- A callback that performs no operation. -/
def Callback.Idle : Callback → Prop
  | .construct _ => True
  | .named _ action =>
    match action with
    | .echo | .reverse | .count | .first | .const _ | .nothing | .keep | .raise _ _ => True
    | .get _ | .call _ | .set _ | .execute _ _ => False

theorem Class.plain (held : Nat → Prop) (c : Class) : Plain env held c.construct := by
  constructor
  intro args w
  have gives (v : Value) (run : c.construct args env w = .ok v w) (hv : v.references = []) :
      ∃ r w', c.construct args env w = .ok r w' ∧ w.Keeping w' ∧ ∀ id ∈ r.references, id ∈ referencesOfAll args ∨ held id :=
    ⟨v, w, run, .refl w, hv ▸ nofun⟩
  match c, args with
  | .text, [] => exact .inl (gives _ rfl rfl)
  | .text, [v] => exact .inl (gives _ rfl rfl)
  | .text, _ :: _ :: _ => exact .inr ⟨_, w, rfl, .refl w⟩
  | .int, [] => exact .inl (gives _ rfl rfl)
  | .int, [v] =>
    have run : Class.int.construct [v] env w = (H.ofExcept (toInt v) >>= fun n => Pure.pure (Value.int n)) env w := rfl
    cases converted : toInt v with
    | ok n =>
      rw [converted] at run
      exact .inl (gives _ run rfl)
    | error e =>
      rw [converted] at run
      exact .inr ⟨e, w, run, .refl w⟩
  | .int, _ :: _ :: _ => exact .inr ⟨_, w, rfl, .refl w⟩
  | .bool, [] => exact .inl (gives _ rfl rfl)
  | .bool, [v] => exact .inl (gives _ rfl rfl)
  | .bool, _ :: _ :: _ => exact .inr ⟨_, w, rfl, .refl w⟩

theorem Callback.plain {held : Nat → Prop} {c : Callback} (h : c.Idle) (hc : ∀ id ∈ c.references, held id) : Plain env held c.run := by
  cases c with
  | construct c => exact Class.plain held c
  | named name action =>
    constructor
    intro args w
    let noted : World := { w with calls := w.calls ++ [.text name :: answerAll w args] }
    have keeping : w.Keeping noted := ⟨⟨rfl, rfl, rfl, rfl, rfl, rfl, rfl, rfl, rfl, rfl⟩, rfl, fun _ h => h⟩
    cases action with
    | echo => exact .inl ⟨.tuple args, noted, rfl, keeping, fun id hid => .inl hid⟩
    | reverse =>
      refine .inl ⟨.tuple args.reverse, noted, rfl, keeping, fun id hid => .inl ?_⟩
      obtain ⟨v, hv, hid⟩ := mem_referencesOfAll.mp hid
      exact mem_referencesOfAll.mpr ⟨v, List.mem_reverse.mp hv, hid⟩
    | count => exact .inl ⟨.int args.length, noted, rfl, keeping, nofun⟩
    | first =>
      refine .inl ⟨args.headD .none, noted, rfl, keeping, fun id hid => .inl ?_⟩
      cases args with
      | nil => cases hid
      | cons v vs => exact List.mem_append_left _ hid
    | const v => exact .inl ⟨v, noted, rfl, keeping, fun id hid => .inr (hc id hid)⟩
    | nothing => exact .inl ⟨.none, noted, rfl, keeping, nofun⟩
    | keep =>
      refine .inl ⟨.none, { noted with kept := noted.kept ++ args }, rfl,
        ⟨⟨rfl, rfl, rfl, rfl, rfl, rfl, rfl, rfl, rfl, rfl⟩, rfl, fun id hid => ?_⟩, nofun⟩
      obtain ⟨v, hv, hid⟩ := mem_referencesOfAll.mp hid
      exact mem_referencesOfAll.mpr ⟨v, List.mem_append_left _ hv, hid⟩
    | raise kind message => exact .inr ⟨_, noted, rfl, keeping⟩
    | get | call | set | execute => exact h.elim

/-! ## References that are held for a while -/

/-- A world in which an operation in progress holds references. -/
def World.flying (w : World) (ids : List Nat) : World := { w with inFlight := ids :: w.inFlight }

/-- The operation is over. -/
def World.landed (w : World) : World := { w with inFlight := w.inFlight.drop 1 }

theorem holding_ok {ids : List Nat} {act : H α} {a : α} (run : act env (w.flying ids) = .ok a w') :
    holding ids act env w = .ok a w'.landed := by
  have whole : holding ids act env w = H.finally_ act (modify World.landed) env (w.flying ids) := rfl
  rw [whole, H.finally_, run]
  rfl

theorem World.holds_flying {ids : List Nat} {id : Nat} : (w.flying ids).holds id = true ↔ w.holds id = true ∨ id ∈ ids := by
  simp only [World.holds_eq, World.flying, List.any_cons, Bool.or_eq_true, List.contains_iff_mem]
  exact ⟨fun h => h.elim (fun h => .inl (.inl h)) fun h => h.elim .inr fun h => .inl (.inr h),
    fun h => h.elim (fun h => h.imp_right .inr) fun h => .inr (.inl h)⟩

theorem World.Onward.land {ids : List Nat} (h : (w.flying ids).Onward w') : w.Onward w'.landed where
  registries := h.registries
  runtimes := h.runtimes
  inFlight := by rw [World.landed, h.inFlight]; rfl
  anchored := h.anchored
  opened := h.opened

theorem World.Onward.flying_landed {ids : List Nat} (h : (w.flying ids).Onward w') : w'.landed.flying ids = w' := by
  have inFlight : w'.inFlight = ids :: w.inFlight := h.inFlight
  rw [World.flying, World.landed, inFlight, List.drop_one, List.tail_cons, ← inFlight]

/-! ## The phases of a call -/

theorem World.Keeping.land {ids : List Nat} (h : (w.flying ids).Keeping w') : w.Keeping w'.landed where
  toBeside := ⟨h.machines, h.runtimes, h.registries, h.references, h.foreigns, h.trampolines, h.states, h.names, h.stored, h.journal⟩
  inFlight := by rw [World.landed, h.inFlight]; rfl
  kept := h.kept

/-- A plain function runs while its arguments are held. -/
theorem Plain.attempt {held : Nat → Prop} {act : List Value → H Value} (plain : Plain env held act) (ids : List Nat)
    (args : List Value) (w : World) : ∃ outcome w', attempt (act args) env (w.flying ids) = .ok outcome w' ∧ w.Keeping w'.landed ∧
      ∀ r, outcome = .ok r → ∀ id ∈ r.references, id ∈ referencesOfAll args ∨ held id := by
  obtain ⟨r, w', run, keeping, among⟩ | ⟨e, w', run, keeping⟩ := plain.runs args (w.flying ids)
  · refine ⟨.ok r, w', ?_, keeping.land, ?_⟩
    · rw [Host.attempt, H.catch_, bind_ok run]
      rfl
    · rintro _ ⟨⟩
      exact among
  · refine ⟨.error e, w', ?_, keeping.land, fun _ same => by injection same⟩
    rw [Host.attempt, H.catch_, bind_error run]
    rfl

/-- A call receives what is on the stack, unless no slot is left, and then runs the function and finishes with
what this gives. -/
theorem callHost_phases (f : Foreign) (act : List Value → H Value) (hm : w.machines.get t.machine = .open vm)
    (hg : (w.runtimes.get f.runtime).generation = vm.generation) (small : (vm.stackOf t.thread).size < 0x80000000) :
    (∃ w', callHost f act t env w = .error (.signal (.fault .registryFull)) w') ∨
      ∃ as pins w₁, arguments f t (vm.stackOf t.thread).size 1 env w = .ok as w₁ ∧
        Received f t w (vm.stackOf t.thread).toList as pins w₁ ∧
        ∀ outcome w₂, attempt (act as) env (w₁.flying (pins.map Pin.id)) = .ok outcome w₂ →
          callHost f act t env w = finish f t (pins.map Pin.id) outcome env w₂.landed := by
  have run : callHost f act t env w = (arguments f t (vm.stackOf t.thread).toList.length 1 >>= fun args =>
      holding (referencesOfAll args) (attempt (act args)) >>= fun outcome =>
        finish f t (referencesOfAll args) outcome) env w := bind_ok (runWith_getTop env f.runtime hm)
  have whole : (vm.stackOf t.thread).toList = [] ++ (vm.stackOf t.thread).toList := rfl
  have receives : (∃ as pins w', arguments f t (vm.stackOf t.thread).toList.length 1 env w = .ok as w' ∧
        Received f t w (vm.stackOf t.thread).toList as pins w') ∨
      ∃ w', arguments f t (vm.stackOf t.thread).toList.length 1 env w = .error (.signal (.fault .registryFull)) w' :=
    arguments_received hm hg whole small
  obtain ⟨as, pins, w₁, done, received⟩ | ⟨w', failed⟩ := receives
  · refine .inr ⟨as, pins, w₁, done, received, fun outcome w₂ ran => ?_⟩
    rw [run, bind_ok done, received.references, bind_ok (holding_ok ran)]
  · rw [run]
    exact .inl ⟨w', bind_error failed⟩

end LuaHost.Host
