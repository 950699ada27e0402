import LuaHost.Proofs.Entries.Utf8
import LuaHost.Proofs.Walks.Trampolines

set_option autoImplicit false

/-!
# Values that go there and back

Calls carry all values in both directions: a selector hands its arguments to the function it finds and collects the
results, and a function of the host receives what a program passes and hands back what it gives. So what goes through
a function of the host that gives its arguments back comes back as it came.
-/

namespace LuaHost.Lua

open Stack (Attempt)

variable {σ : Type} {natives : Natives σ} {run : Machine → M σ Outcome} {s s' : Sys σ} {f : Value} {args vs : List Value} {c : Machine}
  {caller : Caller}

/-! ## Native functions called from outside -/

/-- A machine on whose main thread a call from outside has begun. -/
def Vm.nesting (vm : Vm) : Vm :=
  { vm with
    running := 0, natives := vm.natives + 1
    threads := vm.threads.modify 0 fun th =>
      { th with konts := .nativeStart (vm.threads.get 0).stack (vm.threads.get 0).handler :: (vm.threads.get 0).konts, stack := #[], handler := none } }

/-- How the call begins. -/
def Machine.nesting (vm : Vm) (f : Value) (args : List Value) : Machine :=
  ⟨0, .outside (vm.natives + 1), .apply f args (.native (.outside (vm.natives + 1))),
    .nativeStart (vm.threads.get 0).stack (vm.threads.get 0).handler :: (vm.threads.get 0).konts⟩

/-- The machine after the call, whose main thread goes on as it was in `vm`. -/
def Vm.nested (vm after : Vm) : Vm :=
  { after with
    running := 0, natives := vm.natives
    threads := after.threads.modify 0 fun th =>
      { th with
        konts := (vm.threads.get 0).konts, stack := (vm.threads.get 0).stack, room := (vm.threads.get 0).room
        handler := (vm.threads.get 0).handler } }

theorem Vm.akin_nesting (vm : Vm) : vm.Akin vm.nesting := (Vm.Akin.refl vm).course _ _ _

theorem Vm.akin_nested (vm after : Vm) : after.Akin (vm.nested after) := (Vm.Akin.refl after).course _ _ _

section Nested

variable (shallow : s.vm.Shallow)

include shallow

theorem Stack.attempt_done (main : s.vm.running = 0) (ran : run (.nesting s.vm f args) { s with vm := s.vm.nesting } = .ok (.returned vs) s') :
    attempt (Machine.nested run (some none) f args) s = .ok (.done vs) { s' with vm := s.vm.nested s'.vm } := by
  have fits : ¬ nativeLimit + 20 < s.vm.natives + 1 := Nat.not_lt.mpr shallow
  unfold Machine.nesting Vm.nesting at ran
  unfold attempt Machine.nested
  simp only [M.vm, M.thread, M.modifyVm, Bind.bind, EStateM.bind, main, fits, if_false]
  rw [Option.getD_some, ran]
  rfl

theorem Stack.attempt_fault {e : Fault} (main : s.vm.running = 0)
    (ran : run (.nesting s.vm f args) { s with vm := s.vm.nesting } = .error (.fault e) s') :
    attempt (Machine.nested run (some none) f args) s = .error (.fault e) { s' with vm := s.vm.nested s'.vm } := by
  have fits : ¬ nativeLimit + 20 < s.vm.natives + 1 := Nat.not_lt.mpr shallow
  unfold Machine.nesting Vm.nesting at ran
  unfold attempt Machine.nested
  simp only [M.vm, M.thread, M.modifyVm, Bind.bind, EStateM.bind, main, fits, if_false]
  rw [Option.getD_some, ran]
  rfl

/-- What a call from outside comes to, whichever thread runs. -/
theorem Machine.outside_done (ran : run (.nesting s.vm f args) { s with vm := s.vm.nesting } = .ok (.returned vs) s') :
    ∃ vm, Machine.outside run f args s = .ok (.done vs) { s' with vm } ∧ s'.vm.Akin vm := by
  by_cases main : s.vm.running = 0
  · exact ⟨_, (Stack.onThread_eq _ main).trans (Stack.attempt_done shallow main ran), s.vm.akin_nested _⟩
  · have done := Stack.attempt_done (s := { s with vm := { s.vm with running := 0 } }) shallow rfl ran
    exact ⟨{ s.vm.nested s'.vm with running := s.vm.running }, Stack.onThread_runs main done, (s.vm.akin_nested s'.vm).course _ _ _⟩

theorem Machine.outside_fault {e : Fault} (ran : run (.nesting s.vm f args) { s with vm := s.vm.nesting } = .error (.fault e) s') :
    ∃ s'', Machine.outside run f args s = .error (.fault e) s'' := by
  by_cases main : s.vm.running = 0
  · exact ⟨_, (Stack.onThread_eq _ main).trans (Stack.attempt_fault shallow main ran)⟩
  · have failed := Stack.attempt_fault (s := { s with vm := { s.vm with running := 0 } }) shallow rfl ran
    exact ⟨_, Stack.onThread_fails main failed⟩

end Nested

/-- A machine on which what a native function gave goes back to who called from outside. -/
theorem Machine.run_returned (fuel : Nat) {stack : Array Value} {handler : Option Value} {konts : List Kont}
    (h : c.konts = .nativeStart stack handler :: konts) :
    Machine.run natives (fuel + 2) { c.entered caller with ctl := .values vs } s = .ok (.returned vs) s := by
  have first : step natives (Machine.services (run natives (fuel + 1))) { c.entered caller with ctl := .values vs } s =
      .ok (.inl { c with activation := caller.activation, ctl := .values vs }) s := rfl
  have second : step natives (Machine.services (run natives fuel)) { c with activation := caller.activation, ctl := .values vs } s =
      .ok (.inr (.returned vs)) s := by
    unfold step stepValues
    rw [h]
    rfl
  rw [run_next first]
  unfold run
  simp only [Bind.bind, EStateM.bind, second]
  rfl

end LuaHost.Lua

namespace LuaHost.Host

open Lua (M Vm Generation Sys Machine Caller)
open Binding (Runtime)

variable {g : Generation} {env : Env} {w w' : World} {vm vm' : Vm} {m k n : Nat} {r : Runtime}

/-! ## Conversions there and back -/

/-- What is converted to the host and back is converted to the same again. -/
theorem copied_sent {u u' : Lua.Value} {a : Value} (h : copied r u = some a) (back : sent r.generation a = some u') :
    copied r u' = some a := by
  cases u with
  | nil =>
    cases h
    cases back
    rfl
  | bool b =>
    cases h
    cases back
    rfl
  | int n =>
    unfold copied at h
    cases h
    split at back
    · next integers =>
      have fits : leastInteger ≤ n.toInt ∧ n.toInt ≤ greatestInteger := ⟨n.le_toInt, Int.le_of_lt_add_one n.toInt_lt⟩
      simp only [sent, if_pos fits, Lua.Value.ofInt, integers, if_true, Option.some.injEq] at back
      subst back
      simp only [copied, integers, if_true, Int64.ofInt_toInt]
    · next floats =>
      cases back
      simp only [copied, floats]
      rfl
  | float x =>
    cases h
    cases back
    rfl
  | str b =>
    unfold copied at h
    cases h
    split at back
    · next hides =>
      cases back
      simp only [copied, hides]
      rfl
    · next shows_ =>
      obtain ⟨b', encoded, decoded⟩ := (Text.scalar_ofUtf8 b).roundTrip
      simp only [sent, sourceBytes, encoded, Except.toOption, Option.map_some, Option.some.injEq] at back
      subst back
      simp only [copied, shows_, decoded, Bool.false_eq_true, if_false]
  | _ => cases h

/-- What is converted to the host can be converted back. -/
theorem sent_copied {u : Lua.Value} {a : Value} (h : copied r u = some a) : ∃ u', sent g a = some u' := by
  cases u with
  | nil | bool | float =>
    cases h
    exact ⟨_, rfl⟩
  | int n =>
    unfold copied at h
    cases h
    split
    · have fits : leastInteger ≤ n.toInt ∧ n.toInt ≤ greatestInteger := ⟨n.le_toInt, Int.le_of_lt_add_one n.toInt_lt⟩
      exact ⟨_, if_pos fits⟩
    · exact ⟨_, rfl⟩
  | str b =>
    unfold copied at h
    cases h
    split
    · exact ⟨_, rfl⟩
    · obtain ⟨b', encoded, -⟩ := (Text.scalar_ofUtf8 b).roundTrip
      exact ⟨.str b', by simp only [sent, sourceBytes, encoded, Except.toOption, Option.map_some]⟩
  | _ => cases h

theorem forall₂_through {α β γ : Type} {R : α → β → Prop} {S : β → γ → Prop} {T : α → γ → Prop} {xs : List α} {ys : List β} {zs : List γ}
    (h : List.Forall₂ R xs ys) (k : List.Forall₂ S ys zs) (through : ∀ x y z, R x y → S y z → T x z) : List.Forall₂ T xs zs := by
  induction h generalizing zs with
  | nil =>
    cases k
    exact .nil
  | cons first _ ih =>
    cases k with
    | cons second rest => exact .cons (through _ _ _ first second) (ih rest)

/-- A value of a machine and what it has become on the way to the host and back: the same for the host. -/
def Returned (r : Runtime) (u u' : Lua.Value) : Prop := copied r u' = copied r u ∧ (copied r u = none → u' = u)

theorem received_returned {us us' : List Lua.Value} (h : List.Forall₂ (Returned r) us us') (n : Nat) : received r n us' = received r n us := by
  induction h generalizing n with
  | nil => rfl
  | cons same _ ih =>
    rw [received, received, same.1]
    split
    · rw [ih]
    · rw [ih]

theorem filter_returned {us us' : List Lua.Value} (h : List.Forall₂ (Returned r) us us') :
    us'.filter (fun v => (copied r v).isNone) = us.filter fun v => (copied r v).isNone := by
  induction h with
  | nil => rfl
  | cons same _ ih =>
    rw [List.filter_cons, List.filter_cons, same.1, ih]
    split
    · next none => rw [same.2 (Option.isNone_iff_eq_none.mp none)]
    · rfl

/-- Runtimes of one generation that show the same texts make the same copies. -/
theorem copied_congr {r' : Runtime} (generation : r'.generation = r.generation) (texts : r'.hidesTexts = r.hidesTexts) :
    copied r' = copied r := by
  funext u
  cases u <;> simp only [copied, generation, texts]

theorem Returned.congr {r' : Runtime} {u u' : Lua.Value} (h : Returned r u u') (same : copied r' = copied r) : Returned r' u u' := by
  unfold Returned
  rw [same]
  exact h

/-- What is collected does not change if each of the results has gone to the host and back before. -/
theorem Selector.Collects.returned {s : Selector} {us us' : List Lua.Value} {v : Value} (h : s.Collects m r us' v w)
    (back : List.Forall₂ (Returned r) us us') : s.Collects m r us v w := by
  cases h with
  | intro values references pinned held =>
    exact .intro (values.trans (received_returned back _)) references (pinned.trans (filter_returned back)) held

/-- What each argument is for a function that has received it: a copy of it, or a reference that pins it. -/
theorem Received.each {f : Foreign} {t : Handle} {vs : List Lua.Value} {as : List Value} {pins : List Pin}
    (h : Received f t w vs as pins w') : List.Forall₂ (fun v a => copied (w.runtimes.get f.runtime) v = some a ∨
      copied (w.runtimes.get f.runtime) v = none ∧ ∃ p ∈ pins, p.value = v ∧ a = .reference p.id) vs as := by
  induction h with
  | nil w => exact .nil
  | data copy _ ih => exact .cons (.inl copy) ih
  | pinned copy _ _ _ _ ih =>
    exact .cons (.inr ⟨copy, _, List.mem_cons_self, rfl, rfl⟩)
      (ih.imp fun v a each => each.imp_right fun ⟨whole, p, hp, rest⟩ => ⟨whole, p, List.mem_cons_of_mem _ hp, rest⟩)

/-- What was received can be pushed again, while the registry of its references has a machine. -/
theorem Received.passes {f : Foreign} {t : Handle} {vs : List Lua.Value} {as : List Value} {pins : List Pin} {w₁ w₂ : World}
    (h : Received f t w vs as pins w₁) (hm : w₂.machines.get m = .open vm) (home : w₂.machineOf f.registry = some m)
    (references : w₂.references = w₁.references) {a : Value} (ha : a ∈ as) (e : Failure) : ¬ Refuses w₂ a e := by
  have each : (∃ v, copied (w.runtimes.get f.runtime) v = some a) ∨ ∃ p ∈ pins, a = .reference p.id := by
    clear hm home references
    induction h with
    | nil w => cases ha
    | data copy _ ih =>
      obtain rfl | ha := List.mem_cons.mp ha
      · exact .inl ⟨_, copy⟩
      · exact ih ha
    | pinned _ _ _ _ _ ih =>
      obtain rfl | ha := List.mem_cons.mp ha
      · exact .inr ⟨_, List.mem_cons_self, rfl⟩
      · exact (ih ha).imp_right fun ⟨p, hp, same⟩ => ⟨p, List.mem_cons_of_mem _ hp, same⟩
  obtain ⟨v, copy⟩ | ⟨p, hp, rfl⟩ := each
  · obtain ⟨u, data⟩ := sent_copied (g := vm.generation) copy
    intro refused
    cases (refused.error 0 (some (.main m)) none Env.full).symm.trans (pushHost_sent (t := .main m) 0 none hm data)
  · rw [Refuses.reference_iff, references, (h.newer p hp).2.2.1]
    rintro ⟨closed, -⟩
    exact nomatch closed.symm.trans home

/-- What arrives for what was received is the same for the host, while references hold on to it. -/
theorem Denotes.returned {f : Foreign} {t : Handle} {pins : List Pin} {vs : List Lua.Value} {as : List Value} {w₁ w₂ w₃ : World}
    (received : Received f t w vs as pins w₁) (hr : Reliable g w₁.journal) (home : w₁.machineOf f.registry = some t.machine)
    (references : w₂.references = w₁.references) (registries : w₂.registries = w₁.registries) (journal : w₂.journal = w₁.journal)
    (generation : (w.runtimes.get f.runtime).generation = g) {v u : Lua.Value} {a : Value}
    (each : copied (w.runtimes.get f.runtime) v = some a ∨
      copied (w.runtimes.get f.runtime) v = none ∧ ∃ p ∈ pins, p.value = v ∧ a = .reference p.id)
    (denotes : Denotes g t.machine w₂ w₃ a u) : Returned (w.runtimes.get f.runtime) v u := by
  obtain copy | ⟨whole, p, hp, rfl, rfl⟩ := each
  · refine ⟨?_, fun none => absurd (copy.symm.trans none) (Option.some_ne_none a)⟩
    rw [copy]
    obtain ⟨u', data⟩ := sent_copied (g := g) copy
    cases denotes with
    | data back => exact copied_sent copy (generation ▸ back)
    | pinned | released | elsewhere => cases data
    | function hv => cases a <;> cases hv <;> cases data
  · have reference := (received.newer p hp).2.2.1
    have taken := received.taken hr p hp
    have holds : (w₂.references.get p.id).holds = true := by
      rw [references, reference]
      exact holds_of_proper ((received.balance hr).1.proper p hp)
    have there : w₂.machineOf (w₂.references.get p.id).registry = some t.machine := by
      rw [references, reference, World.machineOf, registries]
      exact home
    suffices same : u = p.value by
      subst same
      exact ⟨rfl, fun _ => rfl⟩
    cases denotes with
    | data back => cases back
    | pinned _ _ taken' =>
      rw [references, reference, journal] at taken'
      exact Option.some_inj.mp (taken'.symm.trans taken)
    | released _ none => exact absurd (none.symm.trans holds) Bool.false_ne_true
    | elsewhere home' other => exact absurd (Option.some_inj.mp (home'.symm.trans there)) other
    | function hv => cases hv

/-! ## Functions that give their arguments back -/

/-- On machine `m` there is a function of the host that gives its arguments back, and whose registry has the machine. -/
structure World.Echoes (w : World) (m k : Nat) : Prop where
  routine : ∃ name, (w.foreigns.get k).routine = .callback (.named name .echo)
  given : m ∈ (w.foreigns.get k).machines
  home : w.machineOf (w.foreigns.get k).registry = some m

theorem World.Echoes.moved (h : w.Echoes m k) (moves : Moves w w') : w'.Echoes m k := by
  have made : k < w.foreigns.size := by
    by_contra beyond
    have given := h.given
    rw [Pool.get_of_size_le _ (Nat.le_of_not_lt beyond)] at given
    cases given
  have lasts := moves.lasts made
  refine ⟨?_, lasts.machines m h.given, ?_⟩
  · rw [lasts.routine]
    exact h.routine
  · rw [lasts.registry, moves.continues.machineOf]
    exact h.home

section Echoing

variable {vm₀ : Vm} {depth : Nat} {args : List Lua.Value} (ready : w.Ready g) (hm : w.machines.get m = .open vm) (akin : vm.Akin vm₀)
  (few : vm₀.natives + 1 < Lua.nativeLimit) (echoes : w.Echoes m k)
  (fits : (w.runtimes.get (w.foreigns.get k).runtime).generation = g) (small : args.length < 0x80000000)

include ready hm akin few echoes fits small

/-- A call of such a function from outside. -/
theorem calling_echo (n : Nat) : ∃ name, Calling g m k (.named name .echo) (.nesting vm₀ (.native (.foreign k) n) args)
    (.native (.outside (vm₀.natives + 1))) args { taken w m vm₀ with vm := vm₀.nesting } := by
  obtain ⟨name, routine⟩ := echoes.routine
  have world : putBack { taken w m vm₀ with vm := vm₀.nesting } m = w.put m vm₀.nesting := by
    simp only [putBack, taken, World.put, Pool.put_put]
  have moves : Moves w (w.put m vm₀.nesting) := (Move.akin hm (akin.trans vm₀.akin_nesting)).moves
  refine ⟨name, ⟨world ▸ ready.moved moves ready.reliable, ⟨n, rfl⟩, rfl, few, routine, echoes.given, fits, small⟩⟩

variable (depth) in
/-- What goes into such a function comes back. -/
theorem outside_echo (fine : vm.breached = false) (n : Nat) :
    (∃ s', Machine.outside (runner ⟨nativesTo (depth + 1)⟩ m) (.native (.foreign k) n) args (taken w m vm₀) =
        .error (.fault .registryFull) s') ∨
      ∃ us w' vm', Machine.outside (runner ⟨nativesTo (depth + 1)⟩ m) (.native (.foreign k) n) args (taken w m vm₀) =
          .ok (.done us) (taken w' m vm') ∧ Moves w w' ∧
        (Reliable g w'.journal → List.Forall₂ (Returned (w.runtimes.get (w.foreigns.get k).runtime)) args us) := by
  obtain ⟨name, calling⟩ := calling_echo ready hm akin few echoes fits small n
  have shallow : vm₀.Shallow := by
    unfold Lua.Vm.Shallow
    omega
  obtain ⟨s', full⟩ | ⟨as, pins, w₁, received, moves, goes⟩ :=
    calling.calls depth (Machine.services (Machine.run (nativesTo (depth + 1) m) 399999999))
  · exact .inl (Machine.outside_fault (s := taken w m vm₀) shallow (Machine.run_fails full))
  right
  let w₂ : World := { w₁.flying (pins.map Pin.id) with
    calls := w₁.calls ++ [.text name :: answerAll (w₁.flying (pins.map Pin.id)) as] }
  obtain ⟨acts, finishes⟩ := goes (.ok (.tuple as)) w₂ rfl
  have world : putBack { taken w m vm₀ with vm := vm₀.nesting } m = w.put m vm₀.nesting := by
    simp only [putBack, taken, World.put, Pool.put_put]
  have begun : Moves w w₁ := by
    have first : Moves w (w.put m vm₀.nesting) := (Move.akin hm (akin.trans vm₀.akin_nesting)).moves
    exact first.trans (world ▸ moves)
  have all : Moves w w₂.landed := begun.trans acts
  have home : w₁.machineOf (w.foreigns.get k).registry = some m := (begun.continues.machineOf _).trans echoes.home
  have opened : w₁.Open m := begun.continues.opened m ⟨vm, hm⟩
  have reach : ∀ i ∈ pins.map Pin.id, w₂.landed.InReach i := by
    intro i hi _ j there
    obtain ⟨p, hp, rfl⟩ := List.mem_map.mp hi
    change w₁.machineOf (w₁.references.get p.id).registry = some j at there
    rw [(received.newer p hp).2.2.1] at there
    cases home.symm.trans there
    exact opened
  obtain ⟨us, w', vm₁, vm₂, stepped, hm₁, akin₂, -, led, receives⟩ := finishes reach fun r hr i hi => by
    cases hr
    exact .inr (reach i (received.references ▸ hi))
  have ran : runner ⟨nativesTo (depth + 1)⟩ m (.nesting vm₀ (.native (.foreign k) n) args) { taken w m vm₀ with vm := vm₀.nesting } =
      .ok (.returned us) (taken w' m vm₂) := (Machine.run_next stepped).trans (Machine.run_returned 399999997 rfl)
  obtain ⟨vm₃, done, -⟩ := Machine.outside_done (s := taken w m vm₀) shallow ran
  refine ⟨us, w', vm₃, done, all.trans led, fun hr => ?_⟩
  obtain ⟨es, journal, -⟩ := led.continues.journal
  have hr₁ : Reliable g w₁.journal := .of_append (journal ▸ hr)
  have ready₂ : w₂.landed.Ready g := ready.moved all hr₁
  have sound (v : Vm) (hv : w₂.machines.get m = .open v) : v.breached = false := by
    obtain ⟨vm', hm', -, -, breached⟩ := received.opened (putBack_get _ m)
    cases hv.symm.trans hm'
    exact (breached.trans akin.breached).trans fine
  have short (r : Value) (hr : (Except.ok (.tuple as) : Except Failure Value) = .ok r) : (resultList r).length < 0x80000000 := by
    cases hr
    exact received.each.length_eq ▸ small
  obtain ⟨vm₄, hm₄⟩ := all.continues.opened m ⟨vm, hm⟩
  generalize outcome_eq : (Except.ok (.tuple as) : Except Failure Value) = outcome at receives
  cases receives ready₂ sound (fun r hr => short r (outcome_eq.trans hr)) with
  | results free denotes quiet =>
    cases outcome_eq
    exact forall₂_through received.each denotes fun v a u each denotes =>
      denotes.returned received hr₁ home (rfl : w₂.landed.references = w₁.references) rfl rfl fits each
  | @refused r v before after e w' parts free refuses told =>
    cases outcome_eq
    have member : v ∈ as := by
      change as = _ at parts
      rw [parts]
      exact List.mem_append_right _ List.mem_cons_self
    exact absurd refuses (received.passes hm₄ home rfl member e)
  | raised told => cases outcome_eq

end Echoing

namespace Selector

variable {s : Selector} {base : Array Lua.Value} {w₁ : World} {vm₁ : Vm} {depth : Nat} {args : List Value}

/-- A call of such a function through a selector gives its arguments back, as they are after they have been on the machine. -/
theorem call_echoes (h : s.Finds g ⟨nativesTo (depth + 1)⟩ m w vm base (.native (.foreign k) n) w₁ vm₁)
    (pushable : ∀ v ∈ args, ∀ e, ¬ Refuses w₁ v e) (echoes : w₁.Echoes m k)
    (texts : (w.runtimes.get s.runtime).hidesTexts = (w.runtimes.get (w₁.foreigns.get k).runtime).hidesTexts)
    (few : vm₁.natives + 1 < Lua.nativeLimit) (small : base.size + args.length < 0x80000000) :
    ∃ us w₂, List.Forall₂ (Denotes g m w₁ w₂) args us ∧
      Yields g ⟨nativesTo (depth + 1)⟩ w (s.call args) (fun v w' => s.Collects m (w.runtimes.get s.runtime) us v w')
        fun _ _ => False := by
  have he : (⟨nativesTo (depth + 1)⟩ : Env).Follows := nativesTo_within (depth + 1)
  have moves := h.moves he
  have stages₁ : Stages g (Session.start g) w₁ := h.stages.trans moves.quiets.stages
  have equipped : (w₁.foreigns.get k).runtime < 2 := (Session.start_equipped g).stages (Session.start_lawful g) stages₁ k
  have generation : (w.runtimes.get (w₁.foreigns.get k).runtime).generation = g := h.lawful.generation _ equipped
  obtain ⟨us, w₂, vm₂, handed, gives, fails⟩ := call_gives he h pushable
  refine ⟨us, w₂, handed.denotes, ?_⟩
  obtain ⟨vm₃, hm₃, akin⟩ := handed.opened
  have ready : w₂.Ready g := (h.ready he).moved handed.moves (handed.journal ▸ h.reliable)
  have count : args.length = us.length := handed.denotes.length_eq
  have lasts : (w₁.foreigns.get k).Lasts (w₂.foreigns.get k) := by
    refine handed.moves.lasts ?_
    by_contra beyond
    have given := echoes.given
    rw [Pool.get_of_size_le _ (Nat.le_of_not_lt beyond)] at given
    cases given
  have runtime : w₂.runtimes.get (w₂.foreigns.get k).runtime = w.runtimes.get (w₁.foreigns.get k).runtime := by
    rw [lasts.runtime, handed.moves.continues.runtimes, moves.continues.runtimes]
  have fine : vm₃.breached = false := (akin.breached.symm.trans handed.akin.breached).trans h.fine
  have short : us.length < 0x80000000 := by omega
  obtain ⟨s₃, full⟩ | ⟨rs, w₃, vm', done, -, returned⟩ := outside_echo depth ready hm₃ akin
    (handed.natives.symm ▸ few) (echoes.moved handed.moves) (runtime ▸ generation) short fine n
  · exact .of_ended (fails s₃ full ▸ .full)
  obtain ⟨⟨es, appended⟩, yields⟩ := gives rs (taken w₃ m vm') done
  intro hr
  have back := returned (.of_append (appended ▸ hr))
  rw [runtime] at back
  have same : copied (w.runtimes.get s.runtime) = copied (w.runtimes.get (w₁.foreigns.get k).runtime) :=
    copied_congr (h.generation.trans generation.symm) texts
  have whole : List.Forall₂ (Returned (w.runtimes.get s.runtime)) us rs := back.imp fun _ _ each => each.congr same
  exact (yields (by rw [← whole.length_eq]; omega) hr).imp (fun v w' collects => collects.returned whole) fun _ _ no => no

end Selector

end LuaHost.Host
