import LuaHost.Proofs.Neutral.Programs

set_option autoImplicit false

/-!
# Registries, values and guards

The exchange of values leaves on the main stack what it finds, even when a registry belongs to another
machine. A guard gives back the base itself, so an operation inside one is neutral.
-/

namespace LuaHost.Host

open Lua (M Vm Runs Reads Signal Fault)
open Binding (Call Program Runtime)

variable {env : Env} {S : Signal → Prop} {m : Nat} {base : Array Lua.Value} {k : Nat} {α β : Type}
  {P : Vm → Prop} {Q : α → Vm → Prop} {runtime : Nat}

namespace Aside

theorem registry (id : Nat) : Aside env S (Registry.get id) := bind get fun _ => pure _

theorem keep (id : Nat) (f : Lua.Native) : Aside env S (Registry.keep id f) := by
  refine bind (registry id) fun x => ?_
  split
  · exact pure _
  · exact modifyGet _ fun _ => rfl

theorem foreign (id : Nat) (routine : Routine) (isDirect : Bool) : Aside env S (Registry.foreign id routine isDirect) :=
  bind (registry id) fun _ => modifyGet _ fun _ => rfl

theorem wrap (id : Nat) (routine : Routine) : Aside env S (Registry.wrap id routine) :=
  bind (foreign id routine false) fun f => bind (keep id f) fun _ => pure f

theorem loader (loader : State.Loader) (id : Nat) : Aside env S (loader.function id) := by
  cases loader with
  | routine r => exact wrap id r
  | native f => exact bind (keep id f) fun _ => pure f

end Aside

namespace Triple

theorem registry (id : Nat) (hp : ∀ vm, P vm → vm.Has base 0) :
    Triple env S m (Vm.Has base 0) P (Registry.get id) fun _ => P := of_aside (.registry id) hp

theorem wrap (id : Nat) (routine : Routine) (hp : ∀ vm, P vm → vm.Has base 0) :
    Triple env S m (Vm.Has base 0) P (Registry.wrap id routine) fun _ => P := of_aside (.wrap id routine) hp

variable [Ways env S]

theorem topMessage (r : Runtime) (hk : 1 ≤ k) :
    Triple env S m (Vm.Has base 0) (Vm.Has base k) (runProgram r (some (.main m)) (Host.topMessage r)) fun _ => Vm.Has base k := by
  unfold Host.topMessage
  refine andThen (topText r hk) fun t => ?_
  split
  · exact pure fun _ h => h
  · exact andThen ((type r (-1) fun _ => has_zero).conseq (fun _ h => h) fun _ _ h => h.1) fun _ =>
      andThen (typeName r _ fun _ => has_zero) fun _ => pure fun _ h => h

theorem reportTop (reporter : Nat) (code : Int) (hk : 1 ≤ k) :
    Triple env S m (Vm.Has base 0) (Vm.Has base k) (Host.reportTop reporter code runtime (some (.main m))) fun _ => Vm.Has base k :=
  bind (runWith (fun _ => has_zero) fun r => topMessage r hk) fun _ =>
    of_aside (.report _ _ _ _) fun _ => has_zero

/-- A program of bare calls on the machine of a registry, which leaves more or less than it found. -/
theorem own {p : Runtime → Program α} {j : Nat} {Q : α → Vm → Prop} (hb : ∀ r, (p r).All Apart.Bare) (x : Host.Registry)
    (here : ∀ r, Triple env S m (Vm.Has base 0) (Vm.Has base k) (runProgram r (some (.main m)) (p r)) fun _ => Vm.Has base j)
    (hq : ∀ a vm, vm.Has base (min k j) → Q a vm) :
    Triple env S m (Vm.Has base 0) (Vm.Has base k) (Host.runWith runtime (Registry.handle x) p) Q := by
  unfold Registry.handle
  refine runWith (fun _ => has_zero) fun r => ?_
  by_cases hm : x.machine = some m
  · rw [hm]
    exact (here r).conseq (fun _ h => h) fun a vm h => hq a vm (h.weaken (Nat.min_le_right _ _))
  · exact (bare r hm (hb r) fun _ => has_zero).conseq (fun _ h => h) fun a vm h => hq a vm (h.weaken (Nat.min_le_left _ _))

theorem pinTop (id : Nat) :
    Triple env S m (Vm.Has base 0) (Vm.Has base (k + 1)) (Registry.pinTop id (some (.main m))) fun _ => Vm.Has base k :=
  bind (registry id fun _ => has_zero) fun _ =>
    bind (Q := fun _ => Vm.Has base k) (runWith (fun _ => has_zero) fun r => ref r (Nat.le_add_left _ _)) fun _ =>
      of_aside (.modifyGet _ fun _ => rfl) fun _ => has_zero

theorem pinTop_own (id : Nat) :
    Triple env S m (Vm.Has base 0) (Vm.Has base (k + 1)) (Registry.pinTop id none) fun _ => Vm.Has base k :=
  bind (registry id fun _ => has_zero) fun x =>
    bind (Q := fun _ => Vm.Has base k)
      (own (fun r => bare_ref r) x (fun r => ref r (Nat.le_add_left _ _)) fun _ _ h => h.weaken (by omega)) fun _ =>
      of_aside (.modifyGet _ fun _ => rfl) fun _ => has_zero

theorem push (id : Nat) (slot : Int) :
    Triple env S m (Vm.Has base 0) (Vm.Has base k) (Registry.push id slot (some (.main m))) fun _ => Vm.Has base (k + 1) := by
  refine bind (registry id fun _ => has_zero) fun x => ?_
  have pushed {rt : Nat} : Triple env S m (Vm.Has base 0) (Vm.Has base k)
      (Functor.discard (Host.runWith rt (some (.main m)) fun rt => Binding.Api.pushRef rt slot)) fun _ => Vm.Has base (k + 1) :=
    discard (runWith (fun _ => has_zero) fun r => pushRef r slot)
  dsimp only
  split
  · exact bind (fail _ fun _ => has_zero) fun _ => pushed
  · exact pushed

/-- The function of a chunk is pushed on the registry's machine, which may be another one. -/
theorem pushChunk (id : Nat) (source : Text) :
    Triple env S m (Vm.Has base 0) (Vm.Has base k) (Registry.pushChunk id source) fun _ => Vm.Has base k := by
  refine bind (registry id fun _ => has_zero) fun x => bind (of_aside (.runtime _) fun _ => has_zero) fun rt => ?_
  have pushed (slot : Int) : Triple env S m (Vm.Has base 0) (Vm.Has base k)
      (Functor.discard (Host.runWith x.runtime (Registry.handle x) fun rt => Binding.Api.pushRef rt slot)) fun _ =>
        Vm.Has base k :=
    discard (own (fun r => bare_pushRef r slot) x (fun r => pushRef r slot) fun _ _ h => h.weaken (by omega))
  dsimp only
  split
  · exact bind (pushed _) fun _ => pure fun _ h => h
  · by_cases hm : x.machine = some m
    · have hl : Registry.handle x = some (.main m) := by rw [Registry.handle, hm]; rfl
      rw [hl] at pushed ⊢
      refine bind (runWith (fun _ => has_zero) fun r => loadString r _) fun status => ?_
      split
      · exact bind (reportTop _ _ (Nat.le_add_left _ _)) fun _ => pure fun _ h => h.weaken (Nat.le_succ k)
      · exact bind (runWith (fun _ => has_zero) fun r => ref r (Nat.le_add_left _ _)) fun slot =>
          bind (of_aside (.modifyGet _ fun _ => rfl) fun _ => has_zero) fun _ => bind (pushed _) fun _ => pure fun _ h => h
    · have other {β : Type} (p : Runtime → Program β) (hb : ∀ r, (p r).All Apart.Bare) :
          Triple env S m (Vm.Has base 0) (Vm.Has base k) (Host.runWith x.runtime (Registry.handle x) p) fun _ => Vm.Has base k :=
        runWith (fun _ => has_zero) fun r => bare r hm (hb r) fun _ => has_zero
      refine bind (other _ fun r => bare_loadString r _) fun status => ?_
      split
      · exact bind (bind (other _ fun r => bare_topMessage r) fun _ => of_aside (.report _ _ _ _) fun _ => has_zero) fun _ =>
          pure fun _ h => h
      · exact bind (other _ fun r => bare_ref r) fun slot =>
          bind (of_aside (.modifyGet _ fun _ => rfl) fun _ => has_zero) fun _ => bind (pushed _) fun _ => pure fun _ h => h

/-! ### Values -/

/-- Only a string is read as a text, so nothing changes in place at whatever index. -/
theorem toHost (i : Int) (registry : Option Nat) :
    Triple env S m (Vm.Has base 0) (Vm.Has base k) (Host.toHost runtime (some (.main m)) i registry) fun _ => Vm.Has base k := by
  have low {tag : Int} (vm : Vm) (h : vm.Has base k ∧ (tag = 4 → ∃ s, vm.at (int32 i) = .str s)) : vm.Has base 0 :=
    has_zero h.1
  have string : Runs S (fun vm => vm.Has base k ∧ ∃ s, vm.at (int32 i) = .str s)
      (Lua.Stack.text? 0 (int32 i) : M World _) fun _ vm => vm.Has base k ∧ ∃ s, vm.at (int32 i) = .str s :=
    .textAt fun _ h => h.2
  have known (tag : Int) {rest : H Value} (h : Triple env S m (Vm.Has base 0) (Vm.Has base k) rest fun _ => Vm.Has base k) :
      Triple env S m (Vm.Has base 0) (fun vm => vm.Has base k ∧ (tag = 4 → ∃ s, vm.at (int32 i) = .str s)) (do
        if tag == 0 ∨ tag == -1 then return .none
        if tag == 1 then return .bool (← Host.runWith runtime (some (.main m)) fun _ => Binding.Api.toBoolean i)
        if tag == 3 then
          if ← Host.runWith runtime (some (.main m)) fun r => Binding.Api.isInteger r i then
            return ← Host.runWith runtime (some (.main m)) fun r => Binding.Api.toInteger r i
          else return ← Host.runWith runtime (some (.main m)) fun _ => Binding.Api.toNumber i
        if tag == 4 then
          return ((← Host.runWith runtime (some (.main m)) fun r => Binding.Api.toText r i).map Value.text).getD .none
        rest) fun _ => Vm.Has base k := by
    split
    · exact pure fun _ h => h.1
    split
    · exact bind (runWith low fun r => toBoolean r i low) fun _ => pure fun _ h => h.1
    split
    · refine bind (runWith low fun r => isInteger r i low) fun isInt => ?_
      split
      · exact (runWith low fun r => toInteger r i low).conseq (fun _ h => h) fun _ _ h => h.1
      · exact (runWith low fun r => toNumber r i low).conseq (fun _ h => h) fun _ _ h => h.1
    split
    · next h4 =>
      refine bind (Q := fun _ vm => vm.Has base k ∧ ∃ s, vm.at (int32 i) = .str s) ?_ fun t => ?_
      · refine (runWith (fun _ h => has_zero h.1) fun r => toText r (fun _ h => has_zero h.1) string).conseq
          (fun vm h => ⟨h.1, h.2 ?_⟩) fun _ _ h => h
        simpa using h4
      · exact pure fun _ h => h.1
    · exact h.conseq (fun _ h => h.1) fun _ _ h => h
  unfold Host.toHost
  refine bind (runWith (fun _ => has_zero) fun r => type r i fun _ => has_zero) fun tag => ?_
  cases registry with
  | none => exact known _ (bind (runWith (fun _ => has_zero) fun r => typeName r _ fun _ => has_zero) fun _ => fail _ fun _ => has_zero)
  | some id =>
    exact known _ (bind (runWith (fun _ => has_zero) fun r => pushValue r i) fun _ =>
      bind (pinTop _) fun _ => pure fun _ h => h)

/-- Whatever a value is, it is pushed as one value or not at all. -/
theorem pushHost (v : Value) (registry : Option Nat) :
    Triple env S m (Vm.Has base 0) (Vm.Has base k) (Host.pushHost runtime (some (.main m)) v registry) fun _ => Vm.Has base (k + 1) := by
  have wrapped (routine : Routine) :
      Triple env S m (Vm.Has base 0) (Vm.Has base k) (Host.pushHost.wrapped runtime (some (.main m)) registry routine) fun _ =>
        Vm.Has base (k + 1) := by
    unfold Host.pushHost.wrapped
    split
    · exact fail _ fun _ => has_zero
    · exact bind (wrap _ _ fun _ => has_zero) fun f => runWith (fun _ => has_zero) fun r => pushCFunction r _
  unfold Host.pushHost
  cases v with
  | none => exact runWith (fun _ => has_zero) fun r => pushNil r
  | bool b => exact runWith (fun _ => has_zero) fun r => pushBoolean r _
  | int n =>
    dsimp only
    split
    · exact runWith (fun _ => has_zero) fun r => pushInteger r _
    · exact bind (of_aside (.ofExcept _) fun _ => has_zero) fun _ => runWith (fun _ => has_zero) fun r => pushNumber r _
  | float x => exact runWith (fun _ => has_zero) fun r => pushNumber r _
  | text t => exact runWith (fun _ => has_zero) fun r => pushString r _
  | bytes b => exact runWith (fun _ => has_zero) fun r => pushString r _
  | byteArray b => exact runWith (fun _ => has_zero) fun r => pushString r _
  | reference id => exact bind (of_aside (.bind .get fun _ => .pure _) fun _ => has_zero) fun _ => push _ _
  | callable f => exact wrapped _
  | pointer f => exact wrapped _
  | tuple vs => exact fail _ fun _ => has_zero
  | list vs => exact fail _ fun _ => has_zero
  | set vs => exact fail _ fun _ => has_zero
  | dict es => exact fail _ fun _ => has_zero
  | other kind shown quoted => exact fail _ fun _ => has_zero

end Triple

/-! ## Neutral operations -/

/-- An operation came back or failed in a world of which `p` holds, or ended by a signal of `S`. -/
def Leaves (S : Signal → Prop) (p : World → Prop) : EStateM.Result Stop World α → Prop
  | .ok _ w => p w
  | .error (.failure _) w => p w
  | .error (.signal e) _ => S e

/-- An operation that leaves the main stack of machine `m` as it was, whether it comes back or fails. -/
structure Neutral (env : Env) (S : Signal → Prop) (m : Nat) (act : H α) : Prop where
  after : ∀ w stack, stack.size < 0x80000000 → On m (fun vm => vm.stack = stack) w →
    Leaves S (On m fun vm => vm.stack = stack) (act env w)

namespace Neutral

theorem of_aside {act : H α} (h : Aside env S act) : Neutral env S m act := by
  constructor
  intro w stack _ hw
  have ha := h.after w
  cases e : act env w with
  | ok a w' =>
    rw [e] at ha
    exact hw.of_eq (congrArg (Pool.get · m) ha)
  | error x w' =>
    rw [e] at ha
    cases x with
    | failure f => exact hw.of_eq (congrArg (Pool.get · m) ha)
    | signal s => exact ha

theorem pure (a : α) : Neutral env S m (Pure.pure a : H α) := of_aside (.pure a)

theorem discard {act : H α} (h : Neutral env S m act) : Neutral env S m (discard act) := by
  constructor
  intro w stack hs hw
  have ha := h.after w stack hs hw
  simp only [Functor.discard, Functor.mapConst, EStateM.map, Function.comp_apply]
  cases e : act env w with
  | ok a w' =>
    rw [e] at ha
    exact ha
  | error x w' =>
    rw [e] at ha
    cases x with
    | failure f => exact ha
    | signal s => exact ha

theorem mono {act : H α} {T : Signal → Prop} (h : Neutral env S m act) (hT : ∀ e, S e → T e) : Neutral env T m act := by
  constructor
  intro w stack hs hw
  have ha := h.after w stack hs hw
  cases e : act env w with
  | ok a w' =>
    rw [e] at ha
    exact ha
  | error x w' =>
    rw [e] at ha
    cases x with
    | failure f => exact ha
    | signal s => exact hT s ha

theorem bind {act : H α} {next : α → H β} (h : Neutral env S m act) (k : ∀ a, Neutral env S m (next a)) :
    Neutral env S m (act >>= next) := by
  constructor
  intro w stack hs hw
  have ha := h.after w stack hs hw
  simp only [Bind.bind, ReaderT.bind, EStateM.bind]
  cases e : act env w with
  | ok a w' =>
    rw [e] at ha
    exact (k a).after w' stack hs ha
  | error x w' =>
    rw [e] at ha
    cases x with
    | failure f => exact ha
    | signal s => exact ha

/-- A call with nothing to convert does not fail. -/
theorem call_no_failure (h : Handle) (c : Call) (g : Value → α) (hn : c ≠ .newState) (hc : c ≠ .close)
    (ok : checkArguments c = .ok ()) (w : World) (f : Failure) (w' : World) :
    runWith runtime (some h) (fun _ => .ask c fun v => .done (g v)) env w ≠ .error (.failure f) w' := by
  have he : execute (w.runtimes.get runtime) (some h) c env w = _ := execute_eq (w.runtimes.get runtime) h hn hc w
  rw [ok] at he
  intro hf
  change (execute (w.runtimes.get runtime) (some h) c >>= fun v => Pure.pure (g v) : H α) env w = _ at hf
  simp only [Bind.bind, ReaderT.bind, EStateM.bind, he, H.onMachine] at hf
  cases hm : w.machines.get h.machine with
  | «open» vm =>
    simp only [hm] at hf
    cases hu : unprotected (perform env h c) ⟨vm, { w with machines := w.machines.put h.machine .busy }⟩ with
    | ok v s =>
      simp only [hu] at hf
      cases hf
    | error e s =>
      simp only [hu] at hf
      cases hf
  | busy =>
    simp only [hm] at hf
    cases hf
  | closed =>
    simp only [hm] at hf
    cases hf

/-- A guard gives back the base that its body has left on the stack. -/
theorem guarded [Ways env S] {act : H α}
    (h : ∀ base, Triple env S m (Vm.Has base 0) (Vm.Has base 0) act fun _ => Vm.Has base 0) :
    Neutral env S m (guarded runtime (some (.main m)) act) := by
  constructor
  intro w stack hs hw
  have zero (vm : Vm) (h : vm.stack = stack) : vm.Has stack 0 := ⟨#[], by rw [h, Array.append_empty], Nat.le_refl _⟩
  have depth : Triple env S m (Vm.Has stack 0) (fun vm => vm.stack = stack)
      (runWith runtime (some (.main m)) fun _ => Binding.Api.getTop) fun v vm => vm.stack = stack ∧ v = .int stack.size :=
    .runWith zero fun r => (Triple.getTop r zero).conseq (fun _ h => h) fun v vm h => ⟨h.1, by rw [h.2, h.1]⟩
  have restore : Triple env S m (Vm.Has stack 0) (Vm.Has stack 0)
      (runWith runtime (some (.main m)) fun _ => Binding.Api.setTop stack.size) fun _ vm => vm.stack = stack :=
    .runWith (fun _ h => h) fun r => .setTop_base r rfl hs
  have restored (w' : World) (hw' : On m (Vm.Has stack 0) w') :
      match runWith runtime (some (.main m)) (fun _ => Binding.Api.setTop stack.size) env w' with
      | .ok _ w'' => On m (fun vm => vm.stack = stack) w''
      | .error (.failure _) _ => False
      | .error (.signal e) _ => S e := by
    have hr := restore.after w' hw'
    cases e : runWith runtime (some (.main m)) (fun _ => Binding.Api.setTop stack.size) env w' with
    | ok u w'' =>
      rw [e] at hr
      exact hr
    | error x w'' =>
      rw [e] at hr
      cases x with
      | failure f => exact call_no_failure (.main m) (.setTop stack.size) (fun _ => ()) nofun nofun rfl _ _ _ e
      | signal s => exact hr
  have hd := depth.after w hw
  unfold Host.guarded
  simp only [Bind.bind, ReaderT.bind, EStateM.bind]
  cases e : runWith runtime (some (.main m)) (fun _ => Binding.Api.getTop) env w with
  | error x w₁ =>
    rw [e] at hd
    cases x with
    | failure f => exact absurd e (call_no_failure (.main m) .getTop id nofun nofun rfl _ _ _)
    | signal s => exact hd
  | ok v w₁ =>
    rw [e] at hd
    obtain ⟨vm, ho, hst, rfl⟩ := hd
    have hb := (h stack).after w₁ ⟨vm, ho, zero vm hst⟩
    simp only [H.finally_, Binding.Api.intOf]
    cases e₁ : act env w₁ with
    | ok a w₂ =>
      rw [e₁] at hb
      have hr := restored w₂ hb
      dsimp only
      cases e₂ : runWith runtime (some (.main m)) (fun _ => Binding.Api.setTop stack.size) env w₂ with
      | ok u w₃ =>
        rw [e₂] at hr
        exact hr
      | error x w₃ =>
        rw [e₂] at hr
        cases x with
        | failure f => exact hr.elim
        | signal s => exact hr
    | error y w₂ =>
      rw [e₁] at hb
      cases y with
      | signal s => exact hb
      | failure f =>
        have hr := restored w₂ hb
        dsimp only
        cases e₂ : runWith runtime (some (.main m)) (fun _ => Binding.Api.setTop stack.size) env w₂ with
        | ok u w₃ =>
          rw [e₂] at hr
          exact hr
        | error x w₃ =>
          rw [e₂] at hr
          cases x with
          | failure f => exact hr.elim
          | signal s => exact hr

/-- One call with nothing to convert that keeps the stack as it is. -/
theorem call [Ways env S] {c : Call} (hn : c ≠ .newState) (hc : c ≠ .close) (ok : checkArguments c = .ok ())
    (h : ∀ stack, Runs S (fun vm => vm.stack = stack) (perform env (.main m) c) fun _ vm => vm.stack = stack) :
    Neutral env S m (runWith runtime (some (.main m)) fun _ => Program.call c) := by
  constructor
  intro w stack _ hw
  have zero (vm : Vm) (h : vm.stack = stack) : vm.Has stack 0 := ⟨#[], by rw [h, Array.append_empty], Nat.le_refl _⟩
  have called : Triple env S m (Vm.Has stack 0) (fun vm => vm.stack = stack)
      (runWith runtime (some (.main m)) fun _ => Program.call c) fun _ vm => vm.stack = stack :=
    .runWith zero fun r => .call (.execute r hn hc zero fun _ => h stack)
  have ha := called.after w hw
  cases e : runWith runtime (some (.main m)) (fun _ => Program.call c) env w with
  | ok v w' =>
    rw [e] at ha
    exact ha
  | error x w' =>
    rw [e] at ha
    cases x with
    | failure f => exact absurd e (call_no_failure (.main m) c id hn hc ok _ _ _)
    | signal s => exact ha

end Neutral
end LuaHost.Host
