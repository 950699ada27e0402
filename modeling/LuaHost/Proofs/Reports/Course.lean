import LuaHost.Proofs.Reports.Words

set_option autoImplicit false

/-!
# What an operation does on its own

An operation loads and calls, and each attempt has a status; it may look at what a value is, and it may
report. Its course is the list of these deeds, in order, as the operation is put together. All else that
it does is hushed, and what functions of the environment report while an attempt runs is part of the
attempt.
-/

namespace LuaHost.Host

open Lua (M Vm Generation)
open Binding (Program Runtime Api.intOf)

inductive Deed where
  /-- a load or a protected call: its status, the value that it left on top, and the text of this value as
  the interface gives it -/
  | attempted (phase : Phase) (status : Int) (left : Option Lua.Value) (text : Option Text)
  /-- a look at the value in which an entry is to be set, while references have these slots -/
  | parent (v : Option Lua.Value) (slot : Nat → Int)
  | reported (code : Int) (message : Text)

/-- The deed that an attempt is, by the machine that it leaves. -/
def attemptOn (phase : Phase) (w : World) (n : Nat) (t : Handle) (vm : Vm) (status : Int) : Deed :=
  .attempted phase status (vm.top? t.thread) (textOf (w.runtimes.get n) vm.generation (vm.top? t.thread))

/-- The runs of an operation that come back, with what they give and their deeds. -/
inductive Course (env : Env) : {α : Type} → H α → World → α → List Deed → World → Prop
  | hushed {α : Type} {act : H α} {a : α} {w w' : World} (h : Hushed act) (run : act env w = .ok a w') :
    Course env act w a [] w'
  | attempt {phase : Phase} {p : Runtime → Program Value} {n : Nat} {r : Runtime} {t : Handle} {vm : Vm} {status : Value}
    {w w' : World} (hp : Attempt phase p) (hr : w.runtimes.get n = r)
    (run : runProgram r (some t) (p r) env w = .ok status w') (hm : w'.machines.get t.machine = .open vm) :
    Course env (runProgram r (some t) (p r)) w status [attemptOn phase w' n t vm (Api.intOf status)] w'
  | look {α : Type} {act : H α} {a : α} {ds : List Deed} {t : Handle} {vm : Vm} {w w' : World}
    (hm : w.machines.get t.machine = .open vm) (h : Course env act w a ds w') :
    Course env act w a (.parent (vm.top? t.thread) (H.slotOf w) :: ds) w'
  | report {reporter : Nat} {code : Int} {message : Text} {w w' : World}
    (run : H.report reporter code message none env w = .ok () w') :
    Course env (H.report reporter code message none) w () [.reported code message] w'
  | bind {α β : Type} {act : H α} {next : α → H β} {a : α} {b : β} {ds es : List Deed} {w w₁ w' : World}
    (h : Course env act w a ds w₁) (k : Course env (next a) w₁ b es w') : Course env (act >>= next) w b (ds ++ es) w'
  | finally_ {α : Type} {act : H α} {after : H Unit} {a : α} {ds : List Deed} {w w₁ w' : World}
    (h : Course env act w a ds w₁) (hushed : Hushed after) (run : after env w₁ = .ok () w') :
    Course env (H.finally_ act after) w a ds w'

variable {env : Env} {α β : Type} {w w₁ w' : World} {ds : List Deed}

theorem Course.runs {act : H α} {a : α} (h : Course env act w a ds w') : act env w = .ok a w' := by
  induction h with
  | hushed _ run | report run => exact run
  | attempt _ _ run _ => exact run
  | look _ _ ih => exact ih
  | bind _ _ ih ihk => rw [bind_ok ih, ihk]
  | finally_ _ _ run ih =>
    unfold H.finally_
    rw [ih]
    dsimp only
    rw [run]

/-- An operation of whose runs from a world `q` holds. -/
structure Does (env : Env) (w : World) (act : H α) (q : α → List Deed → World → Prop) : Prop where
  course : ∀ a w', act env w = .ok a w' → ∃ ds, Course env act w a ds w' ∧ q a ds w'

namespace Does

variable {act : H α} {q r : α → List Deed → World → Prop}

theorem imp (h : Does env w act r) (hi : ∀ a ds w', r a ds w' → q a ds w') : Does env w act q where
  course a w' run := by
    obtain ⟨ds, course, hr⟩ := h.course a w' run
    exact ⟨ds, course, hi a ds w' hr⟩

theorem hushed (h : Hushed act) (hq : ∀ a w', act env w = .ok a w' → q a [] w') : Does env w act q where
  course a w' run := ⟨[], .hushed h run, hq a w' run⟩

theorem pure {a : α} (h : q a [] w) : Does env w (Pure.pure a) q :=
  hushed (.pure a) fun b w' run => by
    cases run
    exact h

theorem bind {next : α → H β} {p : β → List Deed → World → Prop} (h : Does env w act q)
    (k : ∀ a ds w₁, q a ds w₁ → Does env w₁ (next a) fun b es w' => p b (ds ++ es) w') : Does env w (act >>= next) p where
  course b w' run := by
    obtain ⟨a, w₁, first, second⟩ := of_bind_ok run
    obtain ⟨ds, course, hq⟩ := h.course a w₁ first
    obtain ⟨es, onward, hp⟩ := (k a ds w₁ hq).course b w' second
    exact ⟨ds ++ es, .bind course onward, hp⟩

theorem hushed_bind {next : α → H β} {p : β → List Deed → World → Prop} (h : Hushed act)
    (k : ∀ a w₁, act env w = .ok a w₁ → Does env w₁ (next a) p) : Does env w (act >>= next) p :=
  bind (q := fun a ds w₁ => act env w = .ok a w₁ ∧ ds = []) (hushed h fun _ _ run => ⟨run, rfl⟩) fun a ds w₁ hq => by
    obtain ⟨run, rfl⟩ := hq
    exact k a w₁ run

theorem look {t : Handle} {vm : Vm} (hm : w.machines.get t.machine = .open vm)
    (h : Does env w act fun a ds w' => q a (.parent (vm.top? t.thread) (H.slotOf w) :: ds) w') : Does env w act q where
  course a w' run := by
    obtain ⟨ds, course, hq⟩ := h.course a w' run
    exact ⟨_, .look hm course, hq⟩

theorem report (reporter : Nat) (code : Int) (message : Text) :
    Does env w (H.report reporter code message none) fun _ ds _ => ds = [.reported code message] where
  course _ _ run := ⟨_, .report run, rfl⟩

/-- An attempt has a thread and leaves its machine open, with a value on top if it fails. -/
theorem attempt {phase : Phase} {p : Runtime → Program Value} {n : Nat} {r : Runtime} {l : Option Handle}
    (hp : Attempt phase p) (hr : w.runtimes.get n = r) :
    Does env w (runProgram r l (p r)) fun status ds w' => ∃ t vm, l = some t ∧ w'.machines.get t.machine = .open vm ∧
      ds = [attemptOn phase w' n t vm (Api.intOf status)] ∧ (Api.intOf status ≠ 0 → (vm.top? t.thread).isSome) where
  course status w' run := by
    obtain ⟨t, vm, rfl, hm, leaves⟩ := hp.leaves run
    exact ⟨_, .attempt hp hr run hm, t, vm, rfl, hm, rfl, leaves⟩

theorem attemptWith {phase : Phase} {p : Runtime → Program Value} (hp : Attempt phase p) (n : Nat) (l : Option Handle) :
    Does env w (runWith n l p) fun status ds w' => ∃ t vm, l = some t ∧ w'.machines.get t.machine = .open vm ∧
      ds = [attemptOn phase w' n t vm (Api.intOf status)] ∧ (Api.intOf status ≠ 0 → (vm.top? t.thread).isSome) :=
  hushed_bind (.runtime n) fun r w₁ run => by
    cases run
    exact attempt hp rfl

/-- Reporting the value on top of a stack. -/
theorem reportTop {n : Nat} {t : Handle} {vm : Vm} (hm : w.machines.get t.machine = .open vm) (reporter : Nat) (code : Int) :
    Does env w (Host.reportTop reporter code n (some t)) fun _ ds _ => ds =
      [.reported code (wordsFor (textOf (w.runtimes.get n) vm.generation (vm.top? t.thread)) (vm.top? t.thread))] := by
  refine hushed_bind (.runWith n _ Mute.topMessage) fun message w₁ run => ?_
  rw [← runWith_topMessage hm run]
  exact report reporter code message

/-- What a guard does is not heard. -/
theorem guarded {n : Nat} {l : Option Handle} {p : α → List Deed → Prop} (h : ∀ w₁, Does env w₁ act fun a ds _ => p a ds) :
    Does env w (Host.guarded n l act) fun a ds _ => p a ds := by
  cases l with
  | none => exact h w
  | some t =>
    refine hushed_bind (.runWith n _ fun _ => Mute.getTop) fun depth w₁ _ => ⟨fun a w' run => ?_⟩
    have whole := run
    unfold H.finally_ at run
    cases done : act env w₁ with
    | error e w₂ =>
      rw [done] at run
      cases e with
      | signal x => cases run
      | failure f =>
        dsimp only at run
        split at run <;> cases run
    | ok b w₂ =>
      rw [done] at run
      dsimp only at run
      split at run
      · next u w₃ restored =>
        cases run
        obtain ⟨ds, course, hp⟩ := (h w₁).course a w₂ done
        exact ⟨ds, .finally_ course (.runWith n _ fun _ => Mute.setTop _) restored, hp⟩
      · cases run

end Does

/-! ## Deeds that succeed, and failures -/

/-- An attempt that succeeds. -/
def Deed.Fine : Deed → Prop
  | .attempted _ status _ _ => status = 0
  | _ => False

def Fine (ds : List Deed) : Prop := ∀ d ∈ ds, d.Fine

/-- All succeeds but the last attempt, of which there is one report. -/
def Blamed (ds : List Deed) : Prop :=
  ∃ before phase status v text, ds = before ++ [.attempted phase status (some v) text, .reported status (wordsFor text (some v))] ∧
    Fine before ∧ status ≠ 0

variable {es : List Deed}

theorem fine_nil : Fine [] := nofun

theorem fine_attempt {phase : Phase} {left : Option Lua.Value} {text : Option Text} : Fine [.attempted phase 0 left text] :=
  List.forall_mem_singleton.mpr rfl

theorem Fine.append (h : Fine ds) (k : Fine es) : Fine (ds ++ es) := fun d hd =>
  (List.mem_append.mp hd).elim (h d) (k d)

theorem Fine.blamed (h : Fine ds) (k : Blamed es) : Blamed (ds ++ es) := by
  obtain ⟨before, phase, status, v, text, rfl, fine, failed⟩ := k
  exact ⟨ds ++ before, phase, status, v, text, (List.append_assoc ..).symm, h.append fine, failed⟩

theorem codeOf_ok (r : Runtime) : codeOf r .ok = 0 := rfl

/-- After an attempt: a failure is reported and ends the operation, and otherwise it goes on. -/
theorem Does.unlessFailed {phase : Phase} {n : Nat} {t : Handle} {vm : Vm} (hm : w.machines.get t.machine = .open vm)
    {status : Int} (leaves : status ≠ 0 → (vm.top? t.thread).isSome) {rt : Runtime} {reporter : Nat} {x : α} {rest : H α}
    {q : α → List Deed → World → Prop} (blamed : ∀ ds w', Blamed ds → q x ds w')
    (fine : status = 0 → Does env w rest fun b es w' => q b (attemptOn phase w n t vm status :: es) w') :
    Does env w (if (status != codeOf rt .ok) = true then Host.reportTop reporter status n (some t) >>= fun _ => Pure.pure x else rest)
      fun b es w' => q b (attemptOn phase w n t vm status :: es) w' := by
  rw [codeOf_ok]
  by_cases failed : status = 0
  · rw [if_neg (by rw [failed]; exact Bool.false_ne_true)]
    exact fine failed
  · rw [if_pos (bne_iff_ne.mpr failed)]
    refine bind (reportTop hm reporter status) fun _ ds w₁ hd => pure ?_
    rw [List.append_nil, hd]
    obtain ⟨v, hv⟩ := Option.isSome_iff_exists.mp (leaves failed)
    refine blamed _ w₁ ⟨[], phase, status, v, textOf (w.runtimes.get n) vm.generation (some v), ?_, fine_nil, failed⟩
    rw [attemptOn, hv]
    rfl

end LuaHost.Host
