import LuaHost.Host.State
import LuaHost.Proofs.Neutral.Calls

set_option autoImplicit false

/-!
# Triples of host operations

The triples of calls carried over to operations of the host. Each says as well what an operation leaves
that fails: the base of the stack, for one, whatever it had put above it, which a guard then takes away.
-/

namespace LuaHost.Host

open Lua (M Vm Runs Reads Signal Fault)
open Binding (Call Program Runtime)

variable {env : Env} {S : Signal → Prop} {m : Nat} {α β : Type}
  {E P : Vm → Prop} {Q : α → Vm → Prop}

/-- Machine `m` is open and `P` holds of it. -/
def On (m : Nat) (P : Vm → Prop) (w : World) : Prop := ∃ vm, w.machines.get m = .open vm ∧ P vm

theorem On.imp {Q : Vm → Prop} {w : World} (h : On m P w) (hq : ∀ vm, P vm → Q vm) : On m Q w := by
  obtain ⟨vm, ho, hp⟩ := h
  exact ⟨vm, ho, hq vm hp⟩

theorem On.of_eq {w w' : World} (h : On m P w) (hw : w'.machines.get m = w.machines.get m) : On m P w' := by
  obtain ⟨vm, ho, hp⟩ := h
  exact ⟨vm, hw.trans ho, hp⟩

/-- From a world in which `P` holds of machine `m` an operation comes back with `Q`, fails with `E`, or ends
by a signal of `S`. -/
structure Triple (env : Env) (S : Signal → Prop) (m : Nat) (E : Vm → Prop) (P : Vm → Prop) (act : H α)
    (Q : α → Vm → Prop) : Prop where
  after : ∀ w, On m P w → match act env w with
    | .ok a w' => On m (Q a) w'
    | .error (.failure _) w' => On m E w'
    | .error (.signal e) _ => S e

/-- An operation that touches no machine. -/
structure Aside (env : Env) (S : Signal → Prop) (act : H α) : Prop where
  after : ∀ w, match act env w with
    | .ok _ w' => w'.machines = w.machines
    | .error (.failure _) w' => w'.machines = w.machines
    | .error (.signal e) _ => S e

namespace Aside

theorem pure (a : α) : Aside env S (Pure.pure a : H α) := ⟨fun _ => rfl⟩

theorem bind {act : H α} {next : α → H β} (h : Aside env S act) (k : ∀ a, Aside env S (next a)) :
    Aside env S (act >>= next) := by
  constructor
  intro w
  have ha := h.after w
  simp only [Bind.bind, ReaderT.bind, EStateM.bind]
  cases e : act env w with
  | ok a w' =>
    rw [e] at ha
    have hk := (k a).after w'
    dsimp only at ha ⊢
    rwa [ha] at hk
  | error x w' =>
    rw [e] at ha
    cases x with
    | failure f => exact ha
    | signal s => exact ha

theorem get : Aside env S (MonadState.get : H World) := ⟨fun _ => rfl⟩

theorem modifyGet (f : World → α × World) (h : ∀ w, (f w).2.machines = w.machines) :
    Aside env S (MonadState.modifyGet f : H α) := ⟨fun w => h w⟩

theorem modify (f : World → World) (h : ∀ w, (f w).machines = w.machines) :
    Aside env S (modify f : H Unit) := ⟨fun w => h w⟩

theorem fail (f : Failure) : Aside env S (H.fail f : H α) := ⟨fun _ => rfl⟩

theorem ofExcept (r : Except Failure α) : Aside env S (H.ofExcept r) := by
  cases r with
  | ok a => exact pure a
  | error f => exact fail f

theorem runtime (n : Nat) : Aside env S (H.runtime n) := bind get fun _ => pure _

theorem report (reporter : Nat) (code : Int) (message : Text) (cause : Option String) :
    Aside env S (H.report reporter code message cause) := by
  have raise (raised : Option Text) : Aside env S (H.raise raised) := by
    cases raised with
    | some t => exact fail _
    | none => exact pure _
  constructor
  intro w
  let r := (w.reporters.get reporter).handle ⟨code, message, cause⟩
  exact (raise r.raised).after
    { w with reporters := w.reporters.put reporter r.handler, reports := w.reports ++ r.events }

theorem debug (parts : List Text) : Aside env S (H.debug parts) := modify _ fun _ => rfl

end Aside

namespace Triple

theorem of_aside {act : H α} (h : Aside env S act) (hp : ∀ vm, P vm → E vm) :
    Triple env S m E P act fun _ => P := by
  constructor
  intro w hw
  have ha := h.after w
  cases e : act env w with
  | ok a w' =>
    rw [e] at ha
    exact hw.of_eq (congrArg (Pool.get · m) ha)
  | error x w' =>
    rw [e] at ha
    cases x with
    | failure f => exact (hw.of_eq (congrArg (Pool.get · m) ha)).imp hp
    | signal s => exact ha

theorem pure {a : α} (h : ∀ vm, P vm → Q a vm) : Triple env S m E P (Pure.pure a : H α) Q :=
  ⟨fun _ hw => hw.imp h⟩

theorem bind {act : H α} {next : α → H β} {R : β → Vm → Prop} (h : Triple env S m E P act Q)
    (k : ∀ a, Triple env S m E (Q a) (next a) R) : Triple env S m E P (act >>= next) R := by
  constructor
  intro w hw
  have ha := h.after w hw
  simp only [Bind.bind, ReaderT.bind, EStateM.bind]
  cases e : act env w with
  | ok a w' =>
    rw [e] at ha
    exact (k a).after w' ha
  | error x w' =>
    rw [e] at ha
    cases x with
    | failure f => exact ha
    | signal s => exact ha

theorem conseq {act : H α} {P' : Vm → Prop} {Q' : α → Vm → Prop} (h : Triple env S m E P act Q)
    (hp : ∀ vm, P' vm → P vm) (hq : ∀ a vm, Q a vm → Q' a vm) : Triple env S m E P' act Q' := by
  constructor
  intro w hw
  have ha := h.after w (hw.imp hp)
  cases e : act env w with
  | ok a w' =>
    rw [e] at ha
    exact On.imp ha (hq a)
  | error x w' =>
    rw [e] at ha
    cases x with
    | failure f => exact ha
    | signal s => exact ha

theorem pre {act : H α} {P' : Vm → Prop} (hp : ∀ vm, P' vm → P vm) (h : Triple env S m E P act Q) :
    Triple env S m E P' act Q := h.conseq hp fun _ _ h => h

theorem discard {act : H α} {R : Vm → Prop} (h : Triple env S m E P act fun _ => R) :
    Triple env S m E P (discard act) fun _ => R := by
  constructor
  intro w hw
  have ha := h.after w hw
  simp only [Functor.discard, Functor.mapConst, EStateM.map, Function.comp_apply]
  cases e : act env w with
  | ok a w' =>
    rw [e] at ha
    exact ha
  | error x w' =>
    rw [e] at ha
    cases x with
    | failure f => exact ha
    | signal s => exact ha

/-- Ending by more signals. -/
theorem mono {act : H α} {T : Signal → Prop} (h : Triple env S m E P act Q) (hT : ∀ e, S e → T e) :
    Triple env T m E P act Q := by
  constructor
  intro w hw
  have ha := h.after w hw
  cases e : act env w with
  | ok a w' =>
    rw [e] at ha
    exact ha
  | error x w' =>
    rw [e] at ha
    cases x with
    | failure f => exact ha
    | signal s => exact hT s ha

end Triple

/-! ## Calls -/

theorem execute_eq (r : Runtime) (h : Handle) {c : Call} (hn : c ≠ .newState) (hc : c ≠ .close) (w : World) :
    execute r (some h) c env w = match checkArguments c with
      | .ok () => H.onMachine h.machine (unprotected (perform env h c)) env w
      | .error f => .error (.failure f) w := by
  have asked : (read : H Env) env w = .ok env w := rfl
  unfold execute
  cases c <;> first | exact absurd rfl hn | exact absurd rfl hc | skip
  all_goals
    dsimp only
    simp only [Bind.bind, ReaderT.bind, EStateM.bind]
    generalize checkArguments _ = r
    cases r with
    | error f => rfl
    | ok u =>
      simp only [H.ofExcept, Pure.pure, ReaderT.pure, EStateM.pure, asked]
      split
      · next e => exact e.symm
      · next e => exact e.symm

theorem unprotected_ok {act : M World Value} {s t : Lua.Sys World} {v : Value} (h : act s = .ok v t) :
    unprotected act s = .ok v t := by
  unfold unprotected
  simp only [h]

/-- An error that escapes from a call ends the operation one way or the other. -/
theorem unprotected_error (env : Env) [Ways env S] {act : M World Value} {s t : Lua.Sys World} {e : Signal}
    (h : act s = .error e t) (he : S e) : ∃ e', unprotected act s = .error e' t ∧ S e' := by
  have lost (hf : ∀ f, e ≠ .fault f) : S (.fault .unprotectedError) :=
    (Ways.unawaited env e he).resolve_left fun ⟨f, h⟩ => hf f h
  unfold unprotected
  simp only [h]
  cases e with
  | fault f => exact ⟨_, rfl, he⟩
  | error status v =>
    by_cases hi : (s.vm.natives != 0) = true
    · exact ⟨_, if_pos hi, he⟩
    · exact ⟨_, if_neg hi, lost fun f hf => nomatch hf⟩
  | unwinding status v =>
    by_cases hi : (s.vm.natives != 0) = true
    · exact ⟨_, if_pos hi, he⟩
    · exact ⟨_, if_neg hi, lost fun f hf => nomatch hf⟩

theorem runs_unprotected (env : Env) [Ways env S] {Q : Value → Vm → Prop} {act : M World Value}
    (h : Runs S P act Q) : Runs S P (unprotected act) Q := by
  constructor
  intro s hs
  have ha := h.after s hs
  cases e : act s with
  | ok a t =>
    rw [e] at ha
    rw [unprotected_ok e]
    exact ha
  | error x t =>
    rw [e] at ha
    obtain ⟨y, hy, hS⟩ := unprotected_error env e ha
    rw [hy]
    exact hS

theorem apart_unprotected (env : Env) [Ways env S] {act : M World Value} (h : Apart S act) :
    Apart S (unprotected act) := by
  constructor
  intro s
  have ha := h.after s
  cases e : act s with
  | ok a t =>
    rw [e] at ha
    rw [unprotected_ok e]
    exact ha
  | error x t =>
    rw [e] at ha
    obtain ⟨y, hy, hS⟩ := unprotected_error env e ha
    rw [hy]
    exact hS

namespace Triple

/-- An action on the machine itself. -/
theorem onMachine {act : M World α} (h : Runs S P act Q) : Triple env S m E P (H.onMachine m act) Q := by
  constructor
  rintro w ⟨vm, ho, hvm⟩
  have ha := h.after ⟨vm, { w with machines := w.machines.put m .busy }⟩ hvm
  simp only [H.onMachine, ho] at ha ⊢
  cases e : act ⟨vm, { w with machines := w.machines.put m .busy }⟩ with
  | ok v s =>
    rw [e] at ha
    exact ⟨s.vm, Pool.get_put_self _ _ _, ha⟩
  | error x s =>
    rw [e] at ha
    exact ha

/-- A call on a thread of the machine. -/
theorem executeOn [Ways env S] (r : Runtime) (h : Handle) {c : Call} {Q : Value → Vm → Prop} (hn : c ≠ .newState)
    (hc : c ≠ .close) (hp : ∀ vm, P vm → E vm)
    (run : checkArguments c = .ok () → Runs S P (perform env h c) Q) :
    Triple env S h.machine E P (Host.execute r (some h) c) Q := by
  constructor
  intro w hw
  rw [execute_eq r _ hn hc]
  cases e : checkArguments c with
  | error f => exact hw.imp hp
  | ok u => exact (onMachine (runs_unprotected env (run e))).after w hw

theorem execute [Ways env S] (r : Runtime) {c : Call} {Q : Value → Vm → Prop} (hn : c ≠ .newState) (hc : c ≠ .close)
    (hp : ∀ vm, P vm → E vm) (h : checkArguments c = .ok () → Runs S P (perform env (.main m) c) Q) :
    Triple env S m E P (Host.execute r (some (.main m)) c) Q := executeOn r (.main m) hn hc hp h

/-- A call on another machine that leaves this one alone. -/
theorem elsewhere [Ways env S] {n : Nat} (hn : m ≠ n) (r : Runtime) {c : Call} (hc : Apart.Bare c)
    (hp : ∀ vm, P vm → E vm) : Triple env S m E P (Host.execute r (some (.main n)) c) fun _ => P := by
  constructor
  intro w hw
  have bare_ne {d : Call} (hd : ¬ Apart.Bare d) : c ≠ d := fun h => hd (h ▸ hc)
  rw [execute_eq r _ (bare_ne id) (bare_ne id)]
  cases checkArguments c with
  | error f => exact hw.imp hp
  | ok u =>
    cases ho : w.machines.get n with
    | busy =>
      simp only [H.onMachine, Handle.main, ho]
      exact Ways.fault env _ (by decide)
    | closed =>
      simp only [H.onMachine, Handle.main, ho]
      exact Ways.fault env _ (by decide)
    | «open» vm =>
      have kept (s : Lua.Sys World) (hs : s.host.machines = w.machines.put n .busy) :
          On m P { s.host with machines := s.host.machines.put n (.open s.vm) } := by
        refine hw.of_eq ?_
        rw [hs, Pool.get_put_ne _ hn, Pool.get_put_ne _ hn]
      have apart : Apart S (perform env (.main n) c) := Apart.perform _ hc
      have ha := (apart_unprotected env apart).after ⟨vm, { w with machines := w.machines.put n .busy }⟩
      simp only [H.onMachine, Handle.main, ho] at ha ⊢
      cases e : Host.unprotected (perform env ⟨n, 0⟩ c) ⟨vm, { w with machines := w.machines.put n .busy }⟩ with
      | ok v s =>
        rw [e] at ha
        exact kept s ha
      | error x s =>
        rw [e] at ha
        exact ha

theorem nowhere [Ways env S] (r : Runtime) {c : Call} {Q : Value → Vm → Prop} (hc : c ≠ .newState) :
    Triple env S m E P (Host.execute r none c) Q := by
  constructor
  intro w _
  unfold Host.execute
  cases c <;> first | exact absurd rfl hc | exact Ways.fault env _ (by decide)

end Triple

end LuaHost.Host
