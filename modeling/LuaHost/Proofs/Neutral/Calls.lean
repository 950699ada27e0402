import LuaHost.Host.Interface
import LuaHost.Proofs.Neutral.Evaluation

set_option autoImplicit false

/-!
# Calls of the interface on the main stack

What each call that the operations of a state make needs on the main stack, and what it leaves. None of
them ends by an error of the program, but for the two that call functions without protection.
-/

namespace LuaHost.Host

open Lua (M Vm Runs Reads Signal Fault)
open Binding (Call)

/-- A machine may end an operation by a fault, though not by an error that nothing awaits. -/
def calm : Lua.Frame World where
  rel _ _ := True
  ends e := e ≠ .fault .unprotectedError
  refl _ := trivial
  trans _ _ := trivial
  quiet _ _ _ := trivial
  error _ _ h := nomatch h
  unwinding _ _ h := nomatch h
  fault f hf h := hf (by injection h)

instance : calm.Threaded := ⟨fun _ _ _ => trivial⟩

/-- The functions of an environment end by no unprotected error if the calls that they make back do not. -/
def Env.Calm (env : Env) : Prop := ∀ m, (env.natives m).Within calm

/-- How a call may end an operation: by a fault, and by an unprotected error only if a function of the
environment does. -/
def Quits (env : Env) (e : Signal) : Prop := ∃ f, e = .fault f ∧ (env.Calm → f ≠ .unprotectedError)

/-- A set of signals that holds all by which a call may end an operation. -/
class Ways (env : Env) (S : Signal → Prop) : Prop where
  quits : ∀ e, Quits env e → S e
  unprotected : ∀ e, S e → (∃ f, e = .fault f) ∨ S (.fault .unprotectedError)

instance (env : Env) : Ways env (Quits env) := ⟨fun _ h => h, fun _ h => h.elim fun f hf => .inl ⟨f, hf.1⟩⟩

instance (env : Env) : Ways env fun _ => True := ⟨fun _ _ => trivial, fun _ _ => .inr trivial⟩

theorem Ways.unawaited (env : Env) {S : Signal → Prop} [h : Ways env S] (e : Signal) (he : S e) :
    (∃ f, e = .fault f) ∨ S (.fault .unprotectedError) := h.unprotected e he

theorem Ways.fault (env : Env) {S : Signal → Prop} [h : Ways env S] (f : Fault) (hf : f ≠ .unprotectedError) :
    S (.fault f) := h.quits _ ⟨f, rfl, fun _ => hf⟩

variable {env : Env} {S : Signal → Prop} {m t : Nat} {base : Array Lua.Value} {k : Nat} {P : Vm → Prop}

/-- An error in an attempt is caught; what is left is a fault of the evaluation. -/
theorem attempt_quits (m : Nat) (f : Lua.Value) (args : List Lua.Value) (s : Lua.Sys World) (e : Signal)
    (s' : Lua.Sys World) (h : Lua.Stack.attempt (Lua.Machine.nested (runner env m) (some none) f args) s = .error e s') :
    Quits env e := by
  have fault : ∃ f, e = .fault f := by
    unfold Lua.Stack.attempt at h
    split at h
    · cases h
    · cases h
    · cases h
    · next g _ _ =>
      injection h with he _
      exact ⟨g, he.symm⟩
  obtain ⟨g, rfl⟩ := fault
  refine ⟨g, rfl, fun hc hg => ?_⟩
  have within : Lua.Within calm (Lua.Stack.attempt (Lua.Machine.nested (runner env m) (some none) f args)) :=
    Lua.Stack.attempt_within (Lua.Machine.nested_within (Lua.Machine.run_within (hc m) stepLimit) _ _ _)
  have hw := within.after s
  rw [h] at hw
  exact hw.2 (congrArg Signal.fault hg)

theorem int32_small {n : Nat} (h : n < 0x80000000) : int32 n = n := by
  unfold int32
  rw [Int.bmod_def]
  omega

/-- Changes of the stack by a known program. -/
theorem quiet_call {act : M World Unit} {Q : Vm → Prop} (h : Runs S P act fun _ => Q) :
    Runs S P (quiet act) fun _ => Q := .bind h fun _ => .pure fun _ h => h

namespace Perform

theorem getTop : Runs S P (perform env (.main m) .getTop) fun v vm => P vm ∧ v = .int vm.stack.size :=
  ⟨fun _ h => ⟨h, rfl⟩⟩

theorem setTop {i : Int} (n : Nat) (hi : int32 i = -(n : Int) - 1) (hn : n ≤ k) :
    Runs S (Vm.Has base k) (perform env (.main m) (.setTop i)) fun _ => Vm.Has base (k - n) := by
  refine .read_bind .generation fun g => quiet_call ?_
  rw [hi]
  exact .setTop n _ hn

theorem setTop_base {i : Int} (hi : int32 i = base.size) :
    Runs S (Vm.Has base 0) (perform env (.main m) (.setTop i)) fun _ vm => vm.stack = base :=
  .read_bind .generation fun _ => quiet_call (.setTop_base _ hi)

theorem checkStack (n : Int) :
    Runs S (Vm.Has base k) (perform env (.main m) (.checkStack n)) fun _ => Vm.Has base k :=
  .read_bind .generation fun _ => .bind (.checkRoom _ _) fun _ => .pure fun _ h => h

theorem pushValue (i : Int) :
    Runs S (Vm.Has base k) (perform env (.main m) (.pushValue i)) fun _ => Vm.Has base (k + 1) :=
  .read_bind .generation fun _ => quiet_call (.read_bind (.value 0 _) fun _ => .push _)

/-- Where a call pushes a value known beforehand. -/
theorem pushes (v : Lua.Value) : Runs S (Vm.Has base k) (quiet (Lua.Stack.push 0 v)) fun _ => Vm.Has base (k + 1) :=
  quiet_call (.push v)

theorem type (i : Int) : Runs S P (perform env (.main m) (.type i)) fun v vm =>
    P vm ∧ (Binding.Api.intOf v = 4 → ∃ s, vm.at (int32 i) = .str s) :=
  .read_bind .generation fun _ => .bind (.typeCode_string _) fun _ => .pure fun _ h => h

theorem typeName (tag : Int) : Reads (perform env ⟨m, t⟩ (.typeName tag)) := by
  refine .bind .generation fun g => ?_
  dsimp only
  split
  · exact .pure _
  · exact .pure _

theorem toBoolean (i : Int) : Reads (perform env ⟨m, t⟩ (.toBoolean i)) :=
  .bind .generation fun _ => .bind (.bind (.value t _) fun _ => .pure _) fun _ => .pure _

theorem toNumber (i : Int) : Reads (perform env ⟨m, t⟩ (.toNumber i)) :=
  .bind .generation fun _ => .bind (.number t _) fun _ => .pure _

theorem isInteger (i : Int) : Reads (perform env ⟨m, t⟩ (.isInteger i)) :=
  .bind .generation fun _ => .bind (.isInteger t _) fun _ => .pure _

theorem toInteger (i : Int) : Reads (perform env ⟨m, t⟩ (.toInteger i)) :=
  .bind .generation fun _ => .bind (.integer t _) fun _ => .pure _

theorem toLString {i : Int} {R : Vm → Prop}
    (h : Runs S P (Lua.Stack.text? t (int32 i) : M World _) fun _ => R) :
    Runs S P (perform env ⟨m, t⟩ (.toLString i)) fun _ => R := by
  refine .read_bind .generation fun g => .bind h fun r => ?_
  split
  · exact .pure fun _ h => h
  · exact .pure fun _ h => h

theorem pushNil : Runs S (Vm.Has base k) (perform env (.main m) .pushNil) fun _ => Vm.Has base (k + 1) :=
  .read_bind .generation fun _ => pushes _

theorem pushNumber (x : Value) (hx : checkArguments (.pushNumber x) = .ok ()) :
    Runs S (Vm.Has base k) (perform env (.main m) (.pushNumber x)) fun _ => Vm.Has base (k + 1) := by
  refine .read_bind .generation fun g => ?_
  dsimp only
  replace hx : (doubleArgument x).map (fun _ => ()) = .ok () := hx
  cases e : doubleArgument x with
  | ok y => exact pushes _
  | error f =>
    rw [e] at hx
    cases hx

theorem pushInteger (n : Value) (hn : checkArguments (.pushInteger n) = .ok ()) :
    Runs S (Vm.Has base k) (perform env (.main m) (.pushInteger n)) fun _ => Vm.Has base (k + 1) := by
  refine .read_bind .generation fun g => ?_
  dsimp only
  replace hn : (integerArgument n).map (fun _ => ()) = .ok () := hn
  cases e : integerArgument n with
  | ok y => exact pushes _
  | error f =>
    rw [e] at hn
    cases hn

theorem pushLString (s : ByteArray) :
    Runs S (Vm.Has base k) (perform env (.main m) (.pushLString s)) fun _ => Vm.Has base (k + 1) :=
  .read_bind .generation fun _ => pushes _

theorem pushBoolean (b : Bool) :
    Runs S (Vm.Has base k) (perform env (.main m) (.pushBoolean b)) fun _ => Vm.Has base (k + 1) :=
  .read_bind .generation fun _ => pushes _

/-- Giving a function to a machine leaves the stack alone. -/
theorem given (f : Lua.Native) : Runs S (Vm.Has base k) (given m f) fun _ => Vm.Has base k := by
  refine .bind (Q := fun _ => Vm.Has base k) ⟨fun s h => h⟩ fun _ => ?_
  constructor
  intro s h
  unfold M.native
  by_cases hg : s.vm.generation == .v51
  · simp only [hg, if_true]
    exact h
  · simp only [hg]
    exact h

theorem pushCClosure (f : Value) (hf : checkArguments (.pushCClosure f) = .ok ()) :
    Runs S (Vm.Has base k) (perform env (.main m) (.pushCClosure f)) fun _ => Vm.Has base (k + 1) := by
  refine .read_bind .generation fun g => ?_
  dsimp only
  replace hf : (functionArgument f).map (fun _ => ()) = .ok () := hf
  cases e : functionArgument f with
  | ok y => exact quiet_call (.bind (given y) fun v => .push v)
  | error f =>
    rw [e] at hf
    cases hf

theorem rawGetI [Ways env S] (i n : Int) :
    Runs S (Vm.Has base k) (perform env (.main m) (.rawGetI i n)) fun _ => Vm.Has base (k + 1) :=
  .read_bind .generation fun _ => quiet_call
    (.bind (.tableAt _ (Ways.fault env _ (by decide))) fun a => .read_bind (.table a) fun _ => .push _)

theorem loadString (source : ByteArray) :
    Runs S (Vm.Has base k) (perform env (.main m) (.loadString source)) fun _ => Vm.Has base (k + 1) :=
  .read_bind .generation fun _ => .bind (.loadText _) fun _ => .pure fun _ h => h

theorem loadFile (path : ByteArray) :
    Runs S (Vm.Has base k) (perform env (.main m) (.loadFile path)) fun _ => Vm.Has base (k + 1) :=
  .read_bind .generation fun _ => .bind (.load (.compileFile _ _)) fun _ => .pure fun _ h => h

theorem noted (e : Event) : Runs S P (note e) fun _ => P := ⟨fun _ h => h⟩

theorem ref [Ways env S] (i : Int) (hk : 1 ≤ k) :
    Runs S (Vm.Has base k) (perform env (.main m) (.ref i)) fun _ => Vm.Has base (k - 1) :=
  .read_bind .generation fun _ => .bind
    (.read_bind (.value 0 _) fun _ => .bind (.pin hk (Ways.fault env _ (by decide))) fun _ =>
      .bind (noted _) fun _ => .pure fun _ h => h)
    fun _ => .pure fun _ h => h

theorem next [Ways env S] {i : Int} (hi : int32 i = -2) :
    Runs S (Vm.Walks base) (perform env (.main m) (.next i)) fun more vm =>
      if Binding.Api.intOf more = 0 then vm.Has base 1 else vm.Walked base := by
  refine .read_bind .generation fun _ => .bind (Q := fun more vm => if more then vm.Walked base else vm.Has base 1) ?_ fun more => ?_
  · rw [hi]
    exact .next (Ways.fault env _ (by decide))
  · refine .pure fun vm h => ?_
    cases more with
    | false => exact h
    | true => exact h

theorem dropValue {i : Int} (hi : int32 i = -2) :
    Runs S (Vm.Walked base) (perform env (.main m) (.setTop i)) fun _ => Vm.Walks base := by
  refine .read_bind .generation fun _ => quiet_call ?_
  rw [hi]
  exact .dropValue _

theorem startWalk : Runs S (Vm.Has base 1) (perform env (.main m) .pushNil) fun _ => Vm.Walks base :=
  .read_bind .generation fun _ => quiet_call .startWalk

/-- A protected call leaves one value at least if it fails or was asked for one. -/
theorem pcall [Ways env S] (n j : Int) (hn : n.toNat + 1 ≤ k) :
    Runs S (Vm.Has base k) (perform env (.main m) (.pcall n j 0)) fun status vm =>
      vm.Has base (k - (n.toNat + 1)) ∧ (1 ≤ j → vm.Has base (k - (n.toNat + 1) + 1)) ∧
        (Binding.Api.intOf status ≠ 0 → vm.Has base (k - (n.toNat + 1) + 1)) := by
  refine .read_bind .generation fun g => ?_
  refine .bind (Q := fun handler vm => vm.Has base k ∧ handler = none) (.pure fun _ h => ⟨h, rfl⟩) fun handler => ?_
  refine .of_fact ?_
  rintro rfl
  refine .bind (.protectedCall hn fun f args s e s' he => ?_) fun status => .pure ?_
  · have hq : Quits env e := attempt_quits m f args s e s' he
    exact Ways.quits e hq
  · rintro vm ⟨low, asked, failed⟩
    refine ⟨low, fun hj => asked ?_, fun hs => failed ?_⟩
    · rw [if_neg (by omega), Option.getD_some]
      omega
    · rintro rfl
      exact hs rfl

/-- A collection calls finalizers and keeps the stack as it is. -/
theorem gc {p : Array Lua.Value → Prop} :
    Runs (fun _ => True) (fun vm => p vm.stack) (perform env (.main m) .gc) fun _ vm => p vm.stack := by
  have calls := Lua.Machine.services_callPlain_steady (runner env m) 0
  exact .read_bind .generation fun _ =>
    .bind (.onThread_steady (Lua.M.collect_within calls) fun _ _ _ _ => trivial) fun _ =>
      .bind (noted _) fun _ => .pure fun _ h => h

theorem requireF (name : ByteArray) (f : Value) (isGlobal : Bool)
    (hf : checkArguments (.requireF name f isGlobal) = .ok ()) :
    Runs (fun _ => True) (Vm.Has base k) (perform env (.main m) (.requireF name f isGlobal)) fun _ => Vm.Has base (k + 1) := by
  refine .read_bind .generation fun g => ?_
  dsimp only
  replace hf : (functionArgument f).map (fun _ => ()) = .ok () := hf
  cases e : functionArgument f with
  | ok y => exact quiet_call (.bind (given y) fun v => .require _ _ _)
  | error f =>
    rw [e] at hf
    cases hf

end Perform

/-! ## Calls on other machines -/

/-- An action on a machine that leaves all the others alone. -/
structure Apart {α : Type} (S : Signal → Prop) (act : M World α) : Prop where
  after : ∀ s, match act s with
    | .ok _ s' => s'.host.machines = s.host.machines
    | .error e _ => S e

namespace Apart

variable {α β : Type}

@[grind ←] theorem bind {act : M World α} {next : α → M World β} (h : Apart S act) (k : ∀ a, Apart S (next a)) :
    Apart S (act >>= next) := by
  constructor
  intro s
  have ha := h.after s
  simp only [Bind.bind, EStateM.bind]
  cases e : act s with
  | ok a t =>
    rw [e] at ha
    have hk := (k a).after t
    dsimp only at ha ⊢
    rwa [ha] at hk
  | error x t =>
    rw [e] at ha
    exact ha

@[grind ←] theorem read {act : M World α} (h : Reads act) : Apart S act := by
  constructor
  intro s
  obtain ⟨a, ha⟩ := h.after s
  rw [ha]

@[grind ←] theorem modifyVm (f : Vm → Vm) : Apart S (M.modifyVm f) := ⟨fun _ => rfl⟩

@[grind ←] theorem pure (a : α) : Apart S (Pure.pure a : M World α) := read (.pure a)

@[grind ←] theorem fault (f : Fault) (h : S (.fault f)) : Apart S (M.fault f : M World α) := ⟨fun _ => h⟩

@[grind ←] theorem noted (e : Event) : Apart S (note e) := ⟨fun _ => rfl⟩

@[grind ←] theorem modifyThread (t : Nat) (f : Lua.Thread → Lua.Thread) : Apart S (M.modifyThread t f) := modifyVm _

@[grind ←] theorem setContents (t : Nat) (vs : Array Lua.Value) : Apart S (Lua.Stack.setContents t vs) :=
  modifyThread t _

@[grind ←] theorem push (t : Nat) (v : Lua.Value) : Apart S (Lua.Stack.push t v) := modifyThread t _

@[grind ←] theorem pop (t : Nat) : Apart S (Lua.Stack.pop t) :=
  bind (read (.contents t)) fun _ => bind (setContents t _) fun _ => pure _

@[grind ←] theorem text? (t : Nat) (i : Int) : Apart S (Lua.Stack.text? t i) := by
  unfold Lua.Stack.text?
  refine bind (read .generation) fun g => bind (read (.contents t)) fun vs => bind (read (.value t i)) fun v => ?_
  grind

theorem tableAt (t : Nat) (i : Int) (h : S (.fault .badIndex)) : Apart S (Lua.Stack.tableAt t i) := by
  unfold Lua.Stack.tableAt
  refine bind (read (.value t i)) fun v => ?_
  split
  · exact pure _
  · exact fault _ h

theorem load (name source : ByteArray) (globals : Lua.Value) : Apart S (M.load name source globals) := by
  unfold M.load
  refine bind (read .generation) fun g => ?_
  split
  · exact pure _
  · split
    · exact pure _
    · exact bind ⟨fun _ => rfl⟩ fun c => bind ⟨fun _ => rfl⟩ fun f => pure _

theorem loadText (t : Nat) (source : ByteArray) : Apart S (Lua.Stack.loadText t source) := by
  refine bind (read .globals) fun _ => bind (load _ _ _) fun r => ?_
  split
  · exact bind (push t _) fun _ => pure _
  · exact bind (push t _) fun _ => pure _

theorem setRegistryEntry (n : Int64) (v : Lua.Value) : Apart S (Lua.Stack.setRegistryEntry n v) :=
  bind (read .vm) fun _ => modifyVm _

theorem registryEntry (n : Int64) : Apart S (Lua.Stack.registryEntry n) :=
  bind (read .vm) fun _ => bind (read (.table _)) fun _ => pure _

theorem freeSlot : Apart S (Lua.Stack.freeSlot : M World Int64) := by
  unfold Lua.Stack.freeSlot
  refine bind (read .generation) fun g => bind (registryEntry _) fun head => ?_
  split
  · split
    · exact bind (setRegistryEntry _ _) fun _ => pure _
    · exact pure _
  · exact pure _

theorem occupy (v : Lua.Value) (free : Int64) (h : S (.fault .registryFull)) : Apart S (Lua.Stack.occupy v free) := by
  unfold Lua.Stack.occupy
  split
  · refine bind (read .vm) fun vm => bind (read (.table _)) fun t => ?_
    dsimp only
    split
    · exact bind (fault _ h) fun _ => bind (setRegistryEntry _ _) fun _ => pure _
    · exact bind (setRegistryEntry _ _) fun _ => pure _
  · exact bind (read .generation) fun g => bind (registryEntry _) fun next => bind (setRegistryEntry _ _) fun _ =>
      bind (setRegistryEntry _ _) fun _ => pure _

theorem pin (t : Nat) (h : S (.fault .registryFull)) : Apart S (Lua.Stack.pin t) := by
  unfold Lua.Stack.pin
  refine bind (pop t) fun v => ?_
  split
  · exact pure _
  · exact bind freeSlot fun free => occupy v free h

/-- The calls of the interface that leave all other machines alone. -/
def Bare : Call → Prop
  | .loadString _ | .type _ | .typeName _ | .toLString _ | .ref _ | .rawGetI .. | .pushLString _ | .pushNil => True
  | _ => False

theorem perform [Ways env S] (h : Handle) {c : Call} (hc : Bare c) : Apart S (perform env h c) := by
  cases c with
  | loadString source =>
    exact bind (read .generation) fun _ => bind (loadText _ _) fun _ => pure _
  | type i => exact bind (read .generation) fun _ => bind (read (.typeCode _ _)) fun _ => pure _
  | typeName tag =>
    refine bind (read .generation) fun _ => ?_
    dsimp only
    split
    · exact pure _
    · exact pure _
  | toLString i =>
    refine bind (read .generation) fun _ => bind (text? _ _) fun r => ?_
    split
    · exact pure _
    · exact pure _
  | ref i =>
    exact bind (read .generation) fun _ => bind (bind (read (.value _ _)) fun _ =>
      bind (pin _ (Ways.fault env _ (by decide))) fun _ => bind (noted _) fun _ => pure _) fun _ => pure _
  | rawGetI i n =>
    exact bind (read .generation) fun _ => bind (bind (tableAt _ _ (Ways.fault env _ (by decide))) fun _ =>
      bind (read (.table _)) fun _ => push _ _) fun _ => pure _
  | pushLString s => exact bind (read .generation) fun _ => bind (push _ _) fun _ => pure _
  | pushNil => exact bind (read .generation) fun _ => bind (push _ _) fun _ => pure _
  | _ => exact hc.elim

end Apart
end LuaHost.Host
