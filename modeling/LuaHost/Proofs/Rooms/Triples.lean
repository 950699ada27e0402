import LuaHost.Proofs.Rooms.Worlds

set_option autoImplicit false

/-!
# Room in operations of the host

An operation on a thread is given with what holds of the thread before it, after it, and where it fails. By a
signal it ends in a settled world. An operation that touches no thread is calm: it goes with every state of
every thread.
-/

namespace LuaHost.Host

open Lua (M Vm Room Thread Covers Reads Sys)
open Binding (Call Program Runtime)

variable {env : Env} {L : Layout} {h : Handle} {α β : Type} {F F' G T T' : Thread → Prop}
  {U : α → Thread → Prop} {Q : Prop}

/-- From a world in which `T` holds of a thread an operation comes back where `U` holds of it, fails where `F`
does, or ends by a signal in a settled world. -/
structure Affords (env : Env) (L : Layout) (h : Handle) (F T : Thread → Prop) (act : H α)
    (U : α → Thread → Prop) : Prop where
  after : ∀ w, w.Works L h T → match act env w with
    | .ok a w' => w'.Works L h (U a)
    | .error (.failure _) w' => w'.Works L h F
    | .error (.signal _) w' => w'.Settled L

/-- No registry has outlived its machine. -/
def World.Housed (w : World) : Prop := ∀ id m, (w.registries.get id).machine = some m → w.Open m

/-- An operation that leaves all threads and registries as they are and ends by no signal. It fails only
if `Q` holds. -/
structure Calm (env : Env) (Q : Prop) (act : H α) : Prop where
  after : ∀ w, w.Housed → match act env w with
    | .ok _ w' => w.Similar w'
    | .error (.failure _) w' => w.Similar w' ∧ Q
    | .error (.signal _) _ => False

theorem World.Similar.housed {w w' : World} (similar : w.Similar w') (housed : w.Housed) : w'.Housed :=
  fun id m hm => (similar.opened m).mpr (housed id m (similar.registry id ▸ hm))

namespace Calm

theorem pure (a : α) : Calm env Q (Pure.pure a : H α) := ⟨fun w _ => .refl w⟩

theorem bind {act : H α} {next : α → H β} (h : Calm env Q act) (k : ∀ a, Calm env Q (next a)) :
    Calm env Q (act >>= next) := by
  constructor
  intro w hw
  have ha := h.after w hw
  simp only [Bind.bind, ReaderT.bind, EStateM.bind]
  cases e : act env w with
  | ok a w₁ =>
    rw [e] at ha
    have hk := (k a).after w₁ (ha.housed hw)
    dsimp only at ha ⊢
    cases e₁ : next a env w₁ with
    | ok b w₂ =>
      rw [e₁] at hk
      exact ha.trans hk
    | error x w₂ =>
      rw [e₁] at hk
      cases x with
      | failure f => exact ⟨ha.trans hk.1, hk.2⟩
      | signal s => exact hk
  | error x w₁ =>
    rw [e] at ha
    cases x with
    | failure f => exact ha
    | signal s => exact ha

theorem get : Calm env Q (MonadState.get : H World) := ⟨fun w _ => .refl w⟩

theorem modifyGet (f : World → α × World) (h : ∀ w : World, w.Similar (f w).2) :
    Calm env Q (MonadState.modifyGet f : H α) := ⟨fun w _ => h w⟩

theorem modify (f : World → World) (h : ∀ w : World, w.Similar (f w)) : Calm env Q (modify f : H Unit) := ⟨fun w _ => h w⟩

theorem fail (f : Failure) : Calm env True (H.fail f : H α) := ⟨fun w _ => ⟨.refl w, trivial⟩⟩

theorem ofExcept (r : Except Failure α) : Calm env True (H.ofExcept r) := by
  cases r with
  | ok a => exact pure a
  | error f => exact fail f

theorem runtime (n : Nat) : Calm env Q (H.runtime n) := bind get fun _ => pure _

theorem report (reporter : Nat) (code : Int) (message : Text) (cause : Option String) :
    Calm env True (H.report reporter code message cause) := by
  constructor
  intro w hw
  let r := (w.reporters.get reporter).handle ⟨code, message, cause⟩
  let told : World := { w with reporters := w.reporters.put reporter r.handler, reports := w.reports ++ r.events }
  have similar : w.Similar told := .of_eq rfl rfl rfl rfl
  have raises : H.report reporter code message cause env w = H.raise r.raised env told := rfl
  rw [raises]
  cases r.raised with
  | none => exact similar
  | some t => exact ⟨similar, trivial⟩

/-- A failure that is dropped. -/
theorem dropped {act : H Unit} (h : Calm env True act) : Calm env Q (H.catch_ act fun _ => Pure.pure ()) := by
  constructor
  intro w hw
  have ha := h.after w hw
  simp only [H.catch_]
  cases e : act env w with
  | ok a w' =>
    rw [e] at ha
    exact ha
  | error x w' =>
    rw [e] at ha
    cases x with
    | failure f => exact ha.1
    | signal s => exact ha

end Calm

namespace Affords

theorem pure {a : α} (hT : ∀ th, T th → U a th) : Affords env L h F T (Pure.pure a : H α) U :=
  ⟨fun _ hw => hw.mono hT⟩

theorem bind {act : H α} {next : α → H β} {V : β → Thread → Prop} (ha : Affords env L h F T act U)
    (k : ∀ a, Affords env L h F (U a) (next a) V) : Affords env L h F T (act >>= next) V := by
  constructor
  intro w hw
  have hact := ha.after w hw
  simp only [Bind.bind, ReaderT.bind, EStateM.bind]
  cases e : act env w with
  | ok a w' =>
    rw [e] at hact
    exact (k a).after w' hact
  | error x w' =>
    rw [e] at hact
    cases x with
    | failure f => exact hact
    | signal s => exact hact

theorem conseq {act : H α} {U' : α → Thread → Prop} (ha : Affords env L h F T act U) (hT : ∀ th, T' th → T th)
    (hF : ∀ th, F th → F' th) (hU : ∀ a th, U a th → U' a th) : Affords env L h F' T' act U' := by
  constructor
  intro w hw
  have hact := ha.after w (hw.mono hT)
  cases e : act env w with
  | ok a w' =>
    rw [e] at hact
    exact hact.mono (hU a)
  | error x w' =>
    rw [e] at hact
    cases x with
    | failure f => exact hact.mono hF
    | signal s => exact hact

theorem pre {act : H α} (hT : ∀ th, T' th → T th) (ha : Affords env L h F T act U) : Affords env L h F T' act U :=
  ha.conseq hT (fun _ h => h) fun _ _ h => h

theorem post {act : H α} {U' : α → Thread → Prop} (ha : Affords env L h F T act U) (hU : ∀ a th, U a th → U' a th) :
    Affords env L h F T act U' := ha.conseq (fun _ h => h) (fun _ h => h) hU

theorem discard {act : H α} {V : Thread → Prop} (ha : Affords env L h F T act fun _ => V) :
    Affords env L h F T (discard act) fun _ => V := by
  constructor
  intro w hw
  have hact := ha.after w hw
  simp only [Functor.discard, Functor.mapConst, EStateM.map, Function.comp_apply]
  cases e : act env w with
  | ok a w' =>
    rw [e] at hact
    exact hact
  | error x w' =>
    rw [e] at hact
    cases x with
    | failure f => exact hact
    | signal s => exact hact

theorem of_exists {ι : Type} {Ts : ι → Thread → Prop} {act : H α} (ha : ∀ i, Affords env L h F (Ts i) act U) :
    Affords env L h F (fun th => ∃ i, Ts i th) act U := by
  constructor
  rintro w ⟨vm, there, around⟩
  obtain ⟨i, hi⟩ := around.here
  exact (ha i).after w ⟨vm, there, hi, around.others, around.host⟩

theorem of_fact {P : Prop} {act : H α} (ha : P → Affords env L h F T act U) :
    Affords env L h F (fun th => T th ∧ P) act U := by
  constructor
  rintro w ⟨vm, there, around⟩
  exact (ha around.here.2).after w ⟨vm, there, around.here.1, around.others, around.host⟩

/-- The machine of a thread on which something works is open. -/
theorem of_opened {act : H α} (ha : L.opened h.machine → Affords env L h F T act U) : Affords env L h F T act U := by
  constructor
  rintro w ⟨vm, there, around⟩
  exact (ha around.host.opened).after w ⟨vm, there, around⟩

/-- A thread that is ready holds some values, with room for one more. -/
theorem at_depth {act : H α} (ha : ∀ n, Affords env L h F (Thread.Holds (·.Promises n 1) n) act U) :
    Affords env L h F Thread.Ready act U := pre (fun _ ready => ⟨_, ready.holds⟩) (of_exists ha)

theorem calm {act : H α} (ha : Calm env Q act) (hF : Q → ∀ th, T th → F th) : Affords env L h F T act fun _ => T := by
  constructor
  intro w hw
  have hact := ha.after w hw.housed
  cases e : act env w with
  | ok a w' =>
    rw [e] at hact
    exact hact.works hw
  | error x w' =>
    rw [e] at hact
    cases x with
    | failure f => exact (hact.1.works hw).mono (hF hact.2)
    | signal s => exact hact.elim

theorem catch_ {act : H α} {handler : Failure → H α} (ha : Affords env L h G T act U)
    (k : ∀ f, Affords env L h F G (handler f) U) : Affords env L h F T (H.catch_ act handler) U := by
  constructor
  intro w hw
  have hact := ha.after w hw
  simp only [H.catch_]
  cases e : act env w with
  | ok a w' =>
    rw [e] at hact
    exact hact
  | error x w' =>
    rw [e] at hact
    cases x with
    | failure f => exact (k f).after w' hact
    | signal s => exact hact

/-- What runs at the end runs after a failure as well. -/
theorem finally_ {act : H α} {last : H Unit} {V : α → Thread → Prop} (ha : Affords env L h F' T act U)
    (returned : ∀ a, Affords env L h F (U a) last fun _ => V a) (failed : Affords env L h F F' last fun _ => F) :
    Affords env L h F T (H.finally_ act last) V := by
  constructor
  intro w hw
  have hact := ha.after w hw
  simp only [H.finally_]
  cases e : act env w with
  | ok a w₁ =>
    rw [e] at hact
    have hlast := (returned a).after w₁ hact
    dsimp only
    cases e₁ : last env w₁ with
    | ok u w₂ =>
      rw [e₁] at hlast
      exact hlast
    | error x w₂ =>
      rw [e₁] at hlast
      cases x with
      | failure f => exact hlast
      | signal s => exact hlast
  | error x w₁ =>
    rw [e] at hact
    cases x with
    | signal s => exact hact
    | failure f =>
      have hlast := failed.after w₁ hact
      dsimp only
      cases e₁ : last env w₁ with
      | ok u w₂ =>
        rw [e₁] at hlast
        exact hlast
      | error y w₂ =>
        rw [e₁] at hlast
        cases y with
        | failure f => exact hlast
        | signal s => exact hlast

/-! ## Calls -/

/-- An action on the machine of the thread. -/
theorem onMachine {act : M World α} (ha : Covers (World.Lacks L h.machine) h.thread T act U) :
    Affords env L h F T (H.onMachine h.machine act) U := by
  constructor
  rintro w ⟨vm, there, around⟩
  have hact := ha.after ⟨vm, { w with machines := w.machines.put h.machine .busy }⟩
    ⟨around.here, around.others, World.lacks_put.mpr around.host⟩
  simp only [H.onMachine, there]
  cases e : act ⟨vm, { w with machines := w.machines.put h.machine .busy }⟩ with
  | ok a s =>
    rw [e] at hact
    exact ⟨s.vm, Pool.get_put_self _ _ _, hact.here, hact.others, World.lacks_put.mpr hact.host⟩
  | error x s =>
    rw [e] at hact
    exact hact.2 _ hact.1

theorem unprotected {act : M World Value} {t m : Nat} {U : Value → Thread → Prop} (ha : Covers (World.Lacks L m) t T act U) :
    Covers (World.Lacks L m) t T (Host.unprotected act) U := by
  constructor
  intro s hs
  have hact := ha.after s hs
  cases e : act s with
  | ok a s' =>
    rw [e] at hact
    rw [unprotected_ok e]
    exact hact
  | error x s' =>
    rw [e] at hact
    obtain ⟨y, hy⟩ := unprotected_throws e
    rw [hy]
    exact hact

/-- A call on the thread. -/
theorem execute (r : Runtime) {c : Call} {U : Value → Thread → Prop} (hn : c ≠ .newState) (hc : c ≠ .close)
    (hF : checkArguments c = .ok () ∨ ∀ th, T th → F th)
    (run : checkArguments c = .ok () → Covers (World.Lacks L h.machine) h.thread T (perform env h c) U) :
    Affords env L h F T (Host.execute r (some h) c) U := by
  constructor
  intro w hw
  rw [execute_eq r h hn hc]
  cases e : checkArguments c with
  | error f => exact hw.mono (hF.resolve_left fun ok => nomatch ok.symm.trans e)
  | ok u => exact (onMachine (unprotected (run e))).after w hw

end Affords
end LuaHost.Host
