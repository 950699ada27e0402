import LuaHost.Proofs.Entries.Chunks
import LuaHost.Proofs.Moves.Slots

set_option autoImplicit false

/-!
# Calls on the main stack, exactly

Calls that push, look and take leave everything of a machine but its stack as it was, and so does a
protected call of a function that comes back, apart from what the function does to the tables.
-/

namespace LuaHost.Lua

/-! ## Machines that differ in nothing but the course of their threads -/

structure Vm.Alike (vm vm' : Vm) : Prop where
  generation : vm'.generation = vm.generation
  registry : vm'.registry = vm.registry
  globals : vm'.globals = vm.globals
  tables : vm'.tables = vm.tables
  size : vm.closures.size ≤ vm'.closures.size
  closure : ∀ a, a < vm.closures.size → vm'.closures.get a = vm.closures.get a

theorem Vm.Alike.refl (vm : Vm) : vm.Alike vm := ⟨rfl, rfl, rfl, rfl, Nat.le_refl _, fun _ _ => rfl⟩

theorem Vm.Alike.trans {a b c : Vm} (h : a.Alike b) (k : b.Alike c) : a.Alike c where
  generation := k.generation.trans h.generation
  registry := k.registry.trans h.registry
  globals := k.globals.trans h.globals
  tables := k.tables.trans h.tables
  size := Nat.le_trans h.size k.size
  closure := fun a ha => (k.closure a (Nat.lt_of_lt_of_le ha h.size)).trans (h.closure a ha)

/-- Machines that are alike, and of which both or neither had a program write the registry itself. -/
structure Vm.Akin (vm vm' : Vm) : Prop extends vm.Alike vm' where
  breached : vm'.breached = vm.breached

theorem Vm.Akin.refl (vm : Vm) : vm.Akin vm := ⟨.refl vm, rfl⟩

theorem Vm.Akin.trans {a b c : Vm} (h : a.Akin b) (k : b.Akin c) : a.Akin c :=
  ⟨h.toAlike.trans k.toAlike, k.breached.trans h.breached⟩

/-- Nothing depends on which thread runs, how many calls are in progress and what the threads hold. -/
theorem Vm.Akin.course {vm vm' : Vm} (h : vm.Akin vm') (running natives : Nat) (threads : Pool Thread) :
    vm.Akin { vm' with running, natives, threads } :=
  ⟨⟨h.generation, h.registry, h.globals, h.tables, h.size, h.closure⟩, h.breached⟩

/-- Nor on the variables of functions. -/
theorem Vm.Akin.cells {vm vm' : Vm} (h : vm.Akin vm') (cells : Pool Value) : vm.Akin { vm' with cells } :=
  ⟨⟨h.generation, h.registry, h.globals, h.tables, h.size, h.closure⟩, h.breached⟩

theorem Vm.Akin.assign {vm vm' : Vm} (h : vm.Akin vm') (a : Nat) (key v : Value) {k : Key} (hk : key.key? = some k) :
    (vm.assign a key v hk).Akin (vm'.assign a key v hk) :=
  ⟨⟨h.generation, h.registry, h.globals, by simp only [Vm.assign, h.tables, h.generation], h.size, h.closure⟩,
    by simp only [Vm.assign, h.breached, h.registry]⟩

/-- A machine whose main stack has become another one. -/
structure Vm.Stacks (vm : Vm) (stack : Array Value) (vm' : Vm) : Prop extends vm.Akin vm' where
  natives : vm'.natives = vm.natives
  stack : vm'.stack = stack

theorem Vm.Stacks.refl (vm : Vm) : vm.Stacks vm.stack vm := ⟨.refl vm, rfl, rfl⟩

theorem Vm.Stacks.trans {a b c : Vm} {xs ys : Array Value} (h : a.Stacks xs b) (k : b.Stacks ys c) : a.Stacks ys c :=
  ⟨h.toAkin.trans k.toAkin, k.natives.trans h.natives, k.stack⟩

theorem Vm.stacks_withThread (vm : Vm) (f : Thread → Thread) {stack : Array Value} (h : (f (vm.threads.get 0)).stack = stack) :
    vm.Stacks stack (vm.withThread f) :=
  ⟨(Vm.Akin.refl vm).course _ _ _, rfl, (Vm.stack_withThread vm f).trans h⟩

/-- The value at a place counted from the top. -/
theorem Vm.at_below {vm : Vm} {base : Array Value} {v : Value} {above : List Value} (h : vm.stack = base ++ (v :: above).toArray)
    (short : above.length < 9999) : vm.at (-((above.length + 1 : Nat) : Int)) = v := by
  have size : vm.stack.size = base.size + (above.length + 1) := by simp [h]
  have place := Runs.place_neg (g := vm.generation) (Nat.succ_pos above.length) (size ▸ Nat.le_add_left _ _) (by omega)
  unfold Vm.at
  rw [place, size, Nat.add_sub_cancel, h]
  simp

variable {σ α β : Type}

/-! ## Actions that come back -/

/-- An action that comes back and changes nothing but the machine. -/
def Gives (s : Sys σ) (act : M σ α) (q : α → Vm → Prop) : Prop := ∃ a vm, act s = .ok a { s with vm } ∧ q a vm

namespace Gives

variable {s : Sys σ} {q : α → Vm → Prop}

theorem pure {a : α} (h : q a s.vm) : Gives s (Pure.pure a : M σ α) q := ⟨a, s.vm, rfl, h⟩

theorem bind {act : M σ α} {next : α → M σ β} {r : β → Vm → Prop} (h : Gives s act q)
    (k : ∀ a vm, q a vm → Gives { s with vm } (next a) r) : Gives s (act >>= next) r := by
  obtain ⟨a, vm, run, hq⟩ := h
  obtain ⟨b, vm', run', hr⟩ := k a vm hq
  refine ⟨b, vm', ?_, hr⟩
  simp only [Bind.bind, EStateM.bind, run]
  exact run'

theorem imp {act : M σ α} {r : α → Vm → Prop} (h : Gives s act q) (hi : ∀ a vm, q a vm → r a vm) : Gives s act r := by
  obtain ⟨a, vm, run, hq⟩ := h
  exact ⟨a, vm, run, hi a vm hq⟩

theorem modifyThread (f : Thread → Thread) {stack : Array Value} (h : (f (s.vm.threads.get 0)).stack = stack) :
    Gives s (M.modifyThread 0 f) fun _ vm => s.vm.Stacks stack vm :=
  ⟨(), s.vm.withThread f, rfl, s.vm.stacks_withThread f h⟩

theorem push (v : Value) : Gives s (Stack.push 0 v) fun _ vm => s.vm.Stacks (s.vm.stack.push v) vm := modifyThread _ rfl

theorem pushAll (vs : List Value) : Gives s (Stack.pushAll 0 vs) fun _ vm => s.vm.Stacks (s.vm.stack ++ vs.toArray) vm := by
  unfold Stack.pushAll
  induction vs generalizing s with
  | nil => exact pure (by rw [Array.append_empty]; exact .refl _)
  | cons v vs ih =>
    refine bind (push v) fun _ vm first => imp ih fun _ vm' rest => first.trans ?_
    have stack : vm.stack ++ vs.toArray = s.vm.stack ++ (v :: vs).toArray := by simp [first.stack]
    rwa [stack] at rest

/-- Taking what is above a base. -/
theorem popAll {base : Array Value} {vs : List Value} (h : s.vm.stack = base ++ vs.toArray) :
    Gives s (Stack.popAll 0 vs.length) fun us vm => us = vs ∧ s.vm.Stacks base vm := by
  have size : s.vm.stack.size - vs.length = base.size + 0 := by simp [h]
  refine ⟨_, _, rfl, ?_, s.vm.stacks_withThread _ ?_⟩
  · change (s.vm.stack.extract (s.vm.stack.size - vs.length) s.vm.stack.size).toList = vs
    rw [size, h]
    simp
  · change s.vm.stack.shrink (s.vm.stack.size - vs.length) = base
    rw [size, h, shrink_append, Array.extract_zero, Array.append_empty]

theorem pop {base : Array Value} {v : Value} (h : s.vm.stack = base.push v) :
    Gives s (Stack.pop 0) fun u vm => u = v ∧ s.vm.Stacks base vm := by
  refine ⟨_, _, rfl, ?_, s.vm.stacks_withThread _ ?_⟩
  · change s.vm.stack.back?.getD .nil = v
    rw [h, Array.back?_push, Option.getD_some]
  · change s.vm.stack.pop = base
    rw [h, Array.pop_push]

theorem checkRoom (asked n : Int) : Gives s (Stack.checkRoom 0 asked n) fun _ vm => s.vm.Stacks s.vm.stack vm := by
  unfold Stack.checkRoom
  refine bind (q := fun _ vm => vm = s.vm) ⟨_, _, rfl, rfl⟩ ?_
  rintro g _ rfl
  refine bind (q := fun _ vm => vm = s.vm) ⟨_, _, rfl, rfl⟩ ?_
  rintro size _ rfl
  exact bind (modifyThread _ rfl) fun _ vm h => pure h

/-- An action on the main thread, whatever thread runs. -/
theorem onThread {act : M σ α} (h : ∀ vm, s.vm.Stacks s.vm.stack vm → vm.running = 0 → Gives { s with vm } act q)
    (hq : ∀ a vm running, q a vm → q a { vm with running }) : Gives s (Stack.onThread 0 act) q := by
  unfold Stack.onThread
  refine bind (q := fun v vm => v = s.vm ∧ vm = s.vm) ⟨_, _, rfl, rfl, rfl⟩ ?_
  rintro _ _ ⟨rfl, rfl⟩
  dsimp only
  by_cases main : s.vm.running = 0
  · rw [if_pos (beq_iff_eq.mpr main)]
    exact h s.vm (.refl _) main
  · rw [if_neg fun eq => main (beq_iff_eq.mp eq)]
    obtain ⟨a, vm, run, held⟩ := h { s.vm with running := 0 } ⟨(Vm.Akin.refl s.vm).course _ _ _, rfl, rfl⟩ rfl
    refine ⟨a, { vm with running := s.vm.running }, ?_, hq a vm _ held⟩
    simp only [M.modifyVm, Bind.bind, EStateM.bind, run]

end Gives

/-! ## Protected calls -/

open Stack (Attempt)

/-- How a function that is called from outside on the main thread, without a message handler, ends: what
whoever awaits it gets is as `P` says, and the machine is like the target then. -/
def Machine.Ends (run : Machine → M σ Outcome) (s : Sys σ) (f : Value) (args : List Value) (P : Attempt (List Value) → Prop)
    (target : Vm) : Prop :=
  ∀ vm stack saved konts, s.vm.Akin vm → (vm.threads.get 0).handler = none → ∃ r vm', P r ∧ target.Akin vm' ∧
    run ⟨0, .outside (s.vm.natives + 1), .apply f args (.native (.outside (s.vm.natives + 1))),
      .nativeStart stack saved :: konts⟩ { s with vm } = match r with
        | .done vs => .ok (.returned vs) { s with vm := vm' }
        | .failed status v => .error (.unwinding status v) { s with vm := vm' }

/-- Little enough is going on for one more call to begin. -/
def Vm.Shallow (vm : Vm) : Prop := vm.natives < nativeLimit + 20

instance (vm : Vm) : Decidable vm.Shallow := inferInstanceAs (Decidable (_ < _))

theorem Vm.Shallow.of_natives {vm vm' : Vm} (h : vm.Shallow) (same : vm'.natives = vm.natives) : vm'.Shallow :=
  Nat.lt_of_le_of_lt (Nat.le_of_eq same) h

/-- What comes of a call that would begin while too many are in progress. -/
def tooDeep : Attempt (List Value) := .failed .errErr (Value.ofString "error in error handling")

/-- What a call comes to, and what the machine is like then. -/
structure Vm.Attempted (vm : Vm) (P : Attempt (List Value) → Prop) (target : Vm) (r : Attempt (List Value)) (vm' : Vm) : Prop where
  natives : vm'.natives = vm.natives
  outcome : if vm.Shallow then P r ∧ target.Akin vm' else r = tooDeep ∧ vm.Akin vm'

namespace Vm.Attempted

variable {a b c : Vm} {P : Attempt (List Value) → Prop} {target : Vm} {r : Attempt (List Value)}

/-- Whatever else the machine does that changes nothing. -/
theorem after (h : a.Attempted P target r b) (k : b.Akin c) (natives : c.natives = b.natives) : a.Attempted P target r c := by
  refine ⟨natives.trans h.natives, ?_⟩
  have outcome := h.outcome
  split at outcome
  · next shallow => rw [if_pos shallow]; exact outcome.imp_right fun like => like.trans k
  · next deep => rw [if_neg deep]; exact outcome.imp_right fun like => like.trans k

/-- A call comes to the same on a machine that is like this one and has as many calls in progress. -/
theorem before (h : a.Akin b) (same : b.natives = a.natives) (k : b.Attempted P target r c) : a.Attempted P target r c := by
  refine ⟨k.natives.trans same, ?_⟩
  have outcome := k.outcome
  split at outcome
  · next shallow => rw [if_pos (shallow.of_natives same.symm)]; exact outcome
  · next deep =>
    rw [if_neg fun shallow => deep (Vm.Shallow.of_natives shallow same)]
    exact outcome.imp_right fun like => h.trans like

end Vm.Attempted

/-- What a protected call leaves on the stack, with its status. -/
def leftBy (n : Nat) : Attempt (List Value) → Status × List Value
  | .done vs => (.ok, adjust n vs)
  | .failed status v => (status, [v])

section Calls

variable {run : Machine → M σ Outcome} {s : Sys σ} {f : Value} {args : List Value} {P : Attempt (List Value) → Prop} {target : Vm}

theorem attempt_gives (main : s.vm.running = 0) (ends : Machine.Ends run s f args P target) :
    Gives s (Stack.attempt (Machine.nested run (some none) f args)) fun r vm =>
      s.vm.Attempted P target r vm ∧ vm.stack = s.vm.stack := by
  let before := s.vm.threads.get 0
  let begun : Vm := { s.vm with
    running := 0, natives := s.vm.natives + 1
    threads := s.vm.threads.modify 0 fun th =>
      { th with konts := .nativeStart before.stack before.handler :: before.konts, stack := #[], handler := none } }
  have restored (vm : Vm) (threads : Pool Thread) (h : threads = vm.threads.modify 0 fun th =>
      { th with konts := before.konts, stack := before.stack, room := before.room, handler := before.handler }) :
      ({ vm with running := 0, natives := s.vm.natives, threads } : Vm).stack = s.vm.stack := by
    rw [h, Vm.stack]
    dsimp only
    rw [Pool.get_modify_self]
    rfl
  unfold Stack.attempt Machine.nested
  by_cases shallow : s.vm.Shallow
  · have fits : ¬ nativeLimit + 20 < s.vm.natives + 1 := Nat.not_lt.mpr shallow
    have quiet : (begun.threads.get 0).handler = none := by rw [Pool.get_modify_self]
    obtain ⟨r, vm, held, like, ran⟩ := ends begun before.stack before.handler before.konts ((Vm.Akin.refl s.vm).course _ _ _) quiet
    refine ⟨r, { vm with running := 0, natives := s.vm.natives, threads := _ }, ?_, ⟨rfl, ?_⟩, restored vm _ rfl⟩
    · cases r with
      | done vs =>
        simp only [M.vm, M.thread, M.modifyVm, Bind.bind, EStateM.bind, main, fits, if_false, begun, before] at ran ⊢
        rw [Option.getD_some, ran]
        rfl
      | failed status v =>
        simp only [M.vm, M.thread, M.modifyVm, Bind.bind, EStateM.bind, main, fits, if_false, begun, before] at ran ⊢
        rw [Option.getD_some, ran]
        rfl
    · rw [if_pos shallow]
      exact ⟨held, like.course _ _ _⟩
  · have full : nativeLimit + 20 < s.vm.natives + 1 := Nat.lt_succ_of_le (Nat.not_lt.mp shallow)
    refine ⟨tooDeep, { begun with running := 0, natives := s.vm.natives, threads := _ }, ?_, ⟨rfl, ?_⟩, restored begun _ rfl⟩
    · simp only [M.vm, M.thread, M.modifyVm, Bind.bind, EStateM.bind, main, full, if_true]
      rfl
    · rw [if_neg shallow]
      exact ⟨rfl, (Vm.Akin.refl s.vm).course _ _ _⟩

/-- A protected call puts what it leaves in the place of the function and its arguments. -/
theorem protectedCall_gives {base : Array Value} (hs : s.vm.stack = base ++ (f :: args).toArray)
    (ends : Machine.Ends run s f args P target) (n : Nat) :
    Gives s (Stack.protectedCall run 0 args.length (some n) none) fun status vm =>
      ∃ r, s.vm.Attempted P target r vm ∧ status = (leftBy n r).1 ∧ vm.stack = base ++ (leftBy n r).2.toArray := by
  have below : s.vm.stack = base.push f ++ args.toArray := by simp [hs]
  refine .bind (.popAll below) ?_
  rintro _ vm ⟨rfl, popped⟩
  refine .bind (.pop popped.stack) ?_
  rintro _ vm₁ ⟨rfl, first⟩
  have taken := popped.trans first
  refine .bind (q := fun r vm => s.vm.Attempted P target r vm ∧ vm.stack = base) (.onThread (fun vm₂ same main => ?_) ?_) ?_
  · have here := taken.trans same
    have natives : vm₂.natives = s.vm.natives := here.natives
    have again : Machine.Ends run { s with vm := vm₂ } _ _ P target := fun vm stack saved konts like => by
      rw [natives]
      exact ends vm stack saved konts (here.toAkin.trans like)
    exact (attempt_gives main again).imp fun r vm₃ h =>
      ⟨.before here.toAkin natives h.1, h.2.trans (here.stack.trans first.stack)⟩
  · rintro r vm running ⟨attempted, stack⟩
    exact ⟨attempted.after ((Vm.Akin.refl vm).course running vm.natives vm.threads) rfl, stack⟩
  · rintro r vm₂ ⟨attempted, stack⟩
    cases r with
    | done vs =>
      refine .bind (.pushAll _) fun _ vm₃ pushed => .pure ⟨_, attempted.after pushed.toAkin pushed.natives, rfl, ?_⟩
      exact pushed.stack.trans (congrArg (· ++ _) stack)
    | failed status v =>
      refine .bind (.push v) fun _ vm₃ pushed => .pure ⟨_, attempted.after pushed.toAkin pushed.natives, rfl, ?_⟩
      rw [pushed.stack, stack]
      exact Array.toList_inj.mp (by simp [leftBy])

end Calls

/-! ## The accessor chunks -/

section Accessors

variable {natives : Natives σ} {s : Sys σ} {f : Func} {address b : Nat} {cells : Array Nat} {chunk n₀ n₁ n₂ : ByteArray}
  {l₀ l₁ : Nat} {key v : Value} (fuel : Nat) (plain : (s.vm.tables.get b).metatable = none) (inside : address < s.vm.closures.size)
  (hc : s.vm.closures.get address = .lua f cells chunk)

include plain inside hc

theorem index_ends (hf : f.Names 2 (indexing n₀ n₁ l₀ l₁)) :
    Machine.Ends (Machine.run natives (fuel + 22)) s (.closure address) [.table b, key]
      (· = .done [(s.vm.tables.get b).getValue key]) s.vm := by
  intro vm stack saved konts like quiet
  have closure : vm.closures.get address = .lua f cells chunk := (like.closure address inside).trans hc
  obtain ⟨pool, ran⟩ := Machine.run_index natives 0 (.outside (s.vm.natives + 1)) konts (s := { s with vm })
    (by rw [like.tables]; exact plain) hf closure rfl stack saved (fuel + 4)
  exact ⟨.done [(vm.tables.get b).getValue key], { vm with cells := pool }, by rw [like.tables], like.cells pool, ran⟩

theorem assign_ends (hf : f.Names 3 (assigning n₀ n₁ n₂ l₀ l₁)) {k : Key} (hk : key.key? = some k) :
    Machine.Ends (Machine.run natives (fuel + 22)) s (.closure address) [.table b, key, v] (· = .done []) (s.vm.assign b key v hk) := by
  intro vm stack saved konts like quiet
  have closure : vm.closures.get address = .lua f cells chunk := (like.closure address inside).trans hc
  obtain ⟨pool, ran⟩ := Machine.run_assign natives 0 (.outside (s.vm.natives + 1)) konts (s := { s with vm }) (v := v)
    (by rw [like.tables]; exact plain) hk hf closure rfl stack saved fuel
  exact ⟨_, ({ vm with cells := pool } : Vm).assign b key v hk, rfl, (like.cells pool).assign b key v hk, ran⟩

/-- Assigning under nil or NaN fails and changes nothing. -/
theorem assign_ends_badKey (hf : f.Names 3 (assigning n₀ n₁ n₂ l₀ l₁)) (hk : key.key? = none) :
    Machine.Ends (Machine.run natives (fuel + 22)) s (.closure address) [.table b, key, v]
      (fun r => ∃ message, r = .failed .errRun (.str message)) s.vm := by
  intro vm stack saved konts like quiet
  have closure : vm.closures.get address = .lua f cells chunk := (like.closure address inside).trans hc
  obtain ⟨pool, message, ran⟩ := Machine.run_assign_badKey natives 0 (.outside (s.vm.natives + 1)) konts (s := { s with vm }) (v := v)
    (by rw [like.tables]; exact plain) hk hf closure rfl quiet stack saved (fuel + 2)
  exact ⟨_, { vm with cells := pool }, ⟨message, rfl⟩, like.cells pool, ran⟩

end Accessors

end LuaHost.Lua
