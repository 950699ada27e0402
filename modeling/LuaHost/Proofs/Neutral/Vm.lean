import LuaHost.Proofs.Frame.Machine

set_option autoImplicit false

/-!
# Values above a base of the main stack

A lower bound is enough: an operation that never takes more than it has put on the stack leaves what
was there. A triple says what an action needs of a machine and what it leaves; it also says by which
signals the action may end, since nothing is said of the machine then.
-/

namespace LuaHost.Lua

/-- The stack of the main thread. -/
def Vm.stack (vm : Vm) : Array Value := (vm.threads.get 0).stack

/-- The main stack has at least `k` values above those of `base`. -/
def Vm.Has (base : Array Value) (k : Nat) (vm : Vm) : Prop :=
  ∃ ext, vm.stack = base ++ ext ∧ k ≤ ext.size

theorem Vm.Has.weaken {base : Array Value} {k j : Nat} {vm : Vm} (h : vm.Has base k) (hj : j ≤ k) :
    vm.Has base j := by
  obtain ⟨ext, he, hk⟩ := h
  exact ⟨ext, he, Nat.le_trans hj hk⟩

theorem Vm.Has.of_stack {base : Array Value} {k : Nat} {vm vm' : Vm} (h : vm.Has base k)
    (hs : vm'.stack = vm.stack) : vm'.Has base k := by
  obtain ⟨ext, he, hk⟩ := h
  exact ⟨ext, hs.trans he, hk⟩

/-- A machine with its main thread changed. -/
def Vm.withThread (vm : Vm) (f : Thread → Thread) : Vm := { vm with threads := vm.threads.modify 0 f }

@[simp] theorem Vm.stack_withThread (vm : Vm) (f : Thread → Thread) :
    (vm.withThread f).stack = (f (vm.threads.get 0)).stack := by
  rw [Vm.stack, Vm.withThread, Pool.get_modify_self]

@[simp] theorem Vm.tables_withThread (vm : Vm) (f : Thread → Thread) : (vm.withThread f).tables = vm.tables := rfl

/-- The value that an index of the main stack denotes. -/
def Vm.at (vm : Vm) (i : Int) : Value :=
  match Stack.place vm.generation vm.stack.size i with
  | .slot n => (vm.stack[n]?).getD .nil
  | .registry => .table vm.registry
  | .globals => .table vm.globals
  | .absent => .nil

variable {σ α β : Type} {S : Signal → Prop}

/-- On a machine of which `P` holds an action comes back with `Q`, or ends by a signal of `S`. -/
structure Runs (S : Signal → Prop) (P : Vm → Prop) (act : M σ α) (Q : α → Vm → Prop) : Prop where
  after : ∀ s, P s.vm → match act s with
    | .ok a s' => Q a s'.vm
    | .error e _ => S e

/-- An action that changes nothing. -/
structure Reads (act : M σ α) : Prop where
  after : ∀ s, ∃ a, act s = .ok a s

namespace Reads

@[grind ←] theorem pure (a : α) : Reads (Pure.pure a : M σ α) := ⟨fun _ => ⟨a, rfl⟩⟩

@[grind ←] theorem bind {act : M σ α} {next : α → M σ β} (h : Reads act) (k : ∀ a, Reads (next a)) :
    Reads (act >>= next) := by
  constructor
  intro s
  obtain ⟨a, ha⟩ := h.after s
  obtain ⟨b, hb⟩ := (k a).after s
  refine ⟨b, ?_⟩
  simp only [Bind.bind, EStateM.bind, ha]
  exact hb

@[grind ←] theorem generation : Reads (M.generation : M σ Generation) := ⟨fun _ => ⟨_, rfl⟩⟩

@[grind ←] theorem vm : Reads (M.vm : M σ Vm) := ⟨fun _ => ⟨_, rfl⟩⟩

@[grind ←] theorem table (a : Nat) : Reads (M.table a : M σ Table) := ⟨fun _ => ⟨_, rfl⟩⟩

@[grind ←] theorem thread (t : Nat) : Reads (M.thread t : M σ Thread) := ⟨fun _ => ⟨_, rfl⟩⟩

@[grind ←] theorem contents (t : Nat) : Reads (Stack.contents t : M σ (Array Value)) := by
  unfold Stack.contents
  grind

@[grind ←] theorem value? (t : Nat) (i : Int) : Reads (Stack.value? t i : M σ (Option Value)) := by
  unfold Stack.value?
  grind

@[grind ←] theorem value (t : Nat) (i : Int) : Reads (Stack.value t i : M σ Value) := by
  unfold Stack.value
  grind

@[grind ←] theorem size (t : Nat) : Reads (Stack.size t : M σ Nat) := by
  unfold Stack.size
  grind

@[grind ←] theorem typeCode (t : Nat) (i : Int) : Reads (Stack.typeCode t i : M σ Int) := by
  unfold Stack.typeCode
  grind

@[grind ←] theorem number (t : Nat) (i : Int) : Reads (Stack.number t i : M σ Float) := by
  unfold Stack.number
  grind

@[grind ←] theorem integer (t : Nat) (i : Int) : Reads (Stack.integer t i : M σ Int) := by
  unfold Stack.integer
  grind

@[grind ←] theorem isInteger (t : Nat) (i : Int) : Reads (Stack.isInteger t i : M σ Bool) := by
  unfold Stack.isInteger
  grind

@[grind ←] theorem globals : Reads (Stack.globals : M σ Value) := by
  unfold Stack.globals
  grind

end Reads

theorem Stack.value_eq (i : Int) (s : Sys σ) : Stack.value 0 i s = .ok (s.vm.at i) s := by
  unfold Stack.value Stack.value? Vm.at Vm.stack
  simp only [Stack.contents, M.thread, M.generation, Bind.bind, EStateM.bind, Pure.pure, EStateM.pure]
  cases Stack.place s.vm.generation (s.vm.threads.get 0).stack.size i with
  | slot n => rfl
  | registry => rfl
  | globals => rfl
  | absent => rfl

theorem Stack.pop_eq (s : Sys σ) :
    ∃ vm, Stack.pop 0 s = .ok (s.vm.stack.back?.getD .nil) { s with vm } ∧ vm.stack = s.vm.stack.pop ∧
      vm.tables = s.vm.tables := ⟨_, rfl, Vm.stack_withThread _ _, rfl⟩

namespace Runs

variable {P : Vm → Prop} {Q : α → Vm → Prop}

theorem pure {a : α} (h : ∀ vm, P vm → Q a vm) : Runs S P (Pure.pure a : M σ α) Q := ⟨fun s hs => h s.vm hs⟩

theorem bind {act : M σ α} {next : α → M σ β} {R : β → Vm → Prop} (h : Runs S P act Q)
    (k : ∀ a, Runs S (Q a) (next a) R) : Runs S P (act >>= next) R := by
  constructor
  intro s hs
  have ha := h.after s hs
  simp only [Bind.bind, EStateM.bind]
  cases e : act s with
  | ok a t =>
    rw [e] at ha
    exact (k a).after t ha
  | error x t =>
    rw [e] at ha
    exact ha

theorem conseq {act : M σ α} {P' : Vm → Prop} {Q' : α → Vm → Prop} (h : Runs S P act Q) (hp : ∀ vm, P' vm → P vm)
    (hq : ∀ a vm, Q a vm → Q' a vm) : Runs S P' act Q' := by
  constructor
  intro s hs
  have ha := h.after s (hp _ hs)
  cases e : act s with
  | ok a t =>
    rw [e] at ha
    exact hq a _ ha
  | error x t =>
    rw [e] at ha
    exact ha

/-- A fact that has nothing to do with the machine. -/
theorem of_fact {act : M σ α} {φ : Prop} (h : φ → Runs S P act Q) : Runs S (fun vm => P vm ∧ φ) act Q :=
  ⟨fun s hs => (h hs.2).after s hs.1⟩

theorem read {act : M σ α} (h : Reads act) : Runs S P act fun _ => P := by
  constructor
  intro s hs
  obtain ⟨a, ha⟩ := h.after s
  rw [ha]
  exact hs

/-- After a reading action only the rest matters. -/
theorem read_bind {act : M σ α} {next : α → M σ β} {R : β → Vm → Prop} (h : Reads act)
    (k : ∀ a, Runs S P (next a) R) : Runs S P (act >>= next) R := bind (read h) k

theorem fault {f : Fault} (h : S (.fault f)) : Runs S P (M.fault f : M σ α) Q := ⟨fun _ _ => h⟩

theorem modifyVm {f : Vm → Vm} {Q : Unit → Vm → Prop} (h : ∀ vm, P vm → Q () (f vm)) :
    Runs S P (M.modifyVm f : M σ Unit) Q := ⟨fun s hs => h s.vm hs⟩

/-- A change of the main thread. -/
theorem modifyThread {f : Thread → Thread} {Q : Unit → Vm → Prop} (h : ∀ vm, P vm → Q () (vm.withThread f)) :
    Runs S P (M.modifyThread 0 f : M σ Unit) Q := modifyVm h

end Runs

/-! ## Operations on the stack -/

section Effects

variable {base : Array Value} {k : Nat}

theorem Vm.Has.push {vm vm' : Vm} {v : Value} (h : vm.Has base k) (hs : vm'.stack = vm.stack.push v) :
    vm'.Has base (k + 1) := by
  obtain ⟨ext, he, hk⟩ := h
  refine ⟨ext.push v, ?_, ?_⟩
  · rw [hs, he, Array.append_push]
  · rw [Array.size_push]
    exact Nat.succ_le_succ hk

theorem shrink_append (base ext : Array Value) (n : Nat) :
    (base ++ ext).shrink (base.size + n) = base ++ ext.extract 0 n := by
  rw [Array.shrink_eq_take, Array.take_eq_extract, Array.extract_append, Nat.zero_sub, Nat.add_sub_cancel_left,
    Array.extract_eq_self_of_le (Nat.le_add_right _ _)]

/-- Taking values from the top takes them from those above the base. -/
theorem Vm.Has.shrink {vm vm' : Vm} {n : Nat} (h : vm.Has base k) (hn : n ≤ k)
    (hs : vm'.stack = vm.stack.shrink (vm.stack.size - n)) : vm'.Has base (k - n) := by
  obtain ⟨ext, he, hk⟩ := h
  have hsize : (base ++ ext).size - n = base.size + (ext.size - n) := by
    rw [Array.size_append]
    omega
  refine ⟨ext.extract 0 (ext.size - n), ?_, ?_⟩
  · rw [hs, he, hsize, shrink_append]
  · rw [Array.size_extract]
    omega

namespace Runs

theorem push (v : Value) : Runs S (Vm.Has base k) (Stack.push 0 v : M σ Unit) fun _ => Vm.Has base (k + 1) :=
  modifyThread fun _ h => h.push (Vm.stack_withThread _ _)

theorem pushAll (vs : List Value) : Runs S (Vm.Has base k) (Stack.pushAll 0 vs : M σ Unit) fun _ =>
    Vm.Has base (k + vs.length) := by
  unfold Stack.pushAll
  induction vs generalizing k with
  | nil => exact .pure fun _ h => h
  | cons v rest ih =>
    refine bind (push v) fun _ => ih.conseq (fun _ h => h) fun _ _ h => h.weaken ?_
    simp only [List.length_cons]
    omega

/-- What `contents` gives is the stack. -/
theorem contents_bind {P : Vm → Prop} {next : Array Value → M σ β} {R : β → Vm → Prop}
    (h : ∀ vs, Runs S (fun vm => P vm ∧ vm.stack = vs) (next vs) R) :
    Runs S P (Stack.contents 0 >>= next) R := ⟨fun s hs => (h s.vm.stack).after s ⟨hs, rfl⟩⟩

theorem popAll (n : Nat) (hn : n ≤ k) :
    Runs S (Vm.Has base k) (Stack.popAll 0 n : M σ (List Value)) fun _ => Vm.Has base (k - n) := by
  unfold Stack.popAll
  refine contents_bind fun vs => bind (Q := fun _ => Vm.Has base (k - n)) (modifyThread ?_) fun _ => .pure fun _ h => h
  rintro vm ⟨h, rfl⟩
  exact h.shrink hn (Vm.stack_withThread _ _)

theorem pop (hk : 1 ≤ k) : Runs S (Vm.Has base k) (Stack.pop 0 : M σ Value) fun _ => Vm.Has base (k - 1) := by
  unfold Stack.pop
  refine contents_bind fun vs => bind (Q := fun _ => Vm.Has base (k - 1)) (modifyThread ?_) fun _ => .pure fun _ h => h
  rintro vm ⟨h, rfl⟩
  refine h.shrink hk ((Vm.stack_withThread _ _).trans ?_)
  rw [Array.shrink_eq_take, Array.take_eq_extract]
  exact (Array.extract_eq_pop rfl).symm

/-- Removing values that are above the base. -/
theorem setTop (n : Nat) (asked : Int) (hn : n ≤ k) :
    Runs S (Vm.Has base k) (Stack.setTop 0 asked (-(n : Int) - 1) : M σ Unit) fun _ => Vm.Has base (k - n) := by
  unfold Stack.setTop
  refine contents_bind fun vs => ?_
  dsimp only
  have hneg : ¬ (0 : Int) ≤ -(n : Int) - 1 := by omega
  rw [if_neg hneg]
  constructor
  rintro s ⟨h, rfl⟩
  have hsize : n ≤ s.vm.stack.size := by
    obtain ⟨ext, he, hk⟩ := h
    rw [he, Array.size_append]
    omega
  have hnat : (s.vm.stack.size : Int) + (-(n : Int) - 1) + 1 = ((s.vm.stack.size - n : Nat) : Int) := by omega
  rw [hnat, if_neg (by omega)]
  refine h.shrink hn ((Vm.stack_withThread _ _).trans ?_)
  rw [Int.toNat_natCast, Stack.resize, if_pos (Nat.sub_le _ _)]

/-- Going back to the depth of the base leaves the base. -/
theorem setTop_base {n : Int} (asked : Int) (hn : n = base.size) :
    Runs S (Vm.Has base 0) (Stack.setTop 0 asked n : M σ Unit) fun _ vm => vm.stack = base := by
  unfold Stack.setTop
  refine contents_bind fun vs => ?_
  dsimp only
  have hpos : (0 : Int) ≤ n := by omega
  rw [if_pos hpos, if_neg (by omega)]
  refine modifyThread ?_
  rintro vm ⟨⟨ext, he, -⟩, rfl⟩
  have hsize : base.size ≤ (base ++ ext).size := by
    rw [Array.size_append]
    exact Nat.le_add_right _ _
  rw [Vm.stack_withThread, he, hn, Int.toNat_natCast, Stack.resize, if_pos hsize]
  have h := shrink_append base ext 0
  rwa [Array.extract_zero, Array.append_empty] at h

theorem checkRoom (asked n : Int) :
    Runs S (Vm.Has base k) (Stack.checkRoom 0 asked n : M σ Bool) fun _ => Vm.Has base k := by
  unfold Stack.checkRoom
  exact read_bind .generation fun g => read_bind (.size 0) fun size =>
    bind (modifyThread fun _ h => h.of_stack (Vm.stack_withThread _ _)) fun _ => .pure fun _ h => h

/-! ### Texts in place -/

theorem place_neg {g : Generation} {size n : Nat} (h : 0 < n) (hs : n ≤ size) (hn : n < 10000) :
    Stack.place g size (-(n : Int)) = .slot (size - n) := by
  have h1 : ¬ (0 : Int) < -(n : Int) := by omega
  have h2 : (-(n : Int) == Stack.registryIndex g) = false := by
    unfold Stack.registryIndex
    split
    · exact beq_false_of_ne (by omega)
    · exact beq_false_of_ne (by omega)
  have h3 : (-(n : Int) == Stack.globalsIndex || -(n : Int) == -10001) = false := by
    rw [Bool.or_eq_false_iff]
    exact ⟨beq_false_of_ne (by unfold Stack.globalsIndex; omega), beq_false_of_ne (by omega)⟩
  have h4 : -(n : Int) < 0 ∧ -(size : Int) ≤ -(n : Int) := by omega
  have h5 : ((size : Int) + -(n : Int)).toNat = size - n := by omega
  unfold Stack.place
  simp only [h1, h2, h3, h4, h5, if_false, if_true, Bool.and_false, Bool.false_eq_true, and_self]

/-- Reading the top value as a text may change it, and nothing below. -/
theorem textTop (hk : 1 ≤ k) :
    Runs S (Vm.Has base k) (Stack.text? 0 (-1) : M σ (Option ByteArray)) fun _ => Vm.Has base k := by
  unfold Stack.text?
  refine read_bind .generation fun g => contents_bind fun vs => ?_
  refine Runs.conseq (P := fun vm => vm.Has base k ∧ vm.stack = vs) ?_ (fun _ h => h) fun _ _ h => h
  refine read_bind (.value 0 (-1)) fun v => ?_
  split
  · exact .pure fun _ h => h.1
  · next text _ =>
    split
    · exact .pure fun _ h => h.1
    · next n _ hp _ =>
      refine bind (Q := fun _ => Vm.Has base k) (modifyThread ?_) fun _ => .pure fun _ h => h
      rintro vm ⟨⟨ext, he, hk'⟩, rfl⟩
      have hsize : vm.stack.size = base.size + ext.size := by rw [he, Array.size_append]
      have hn := (place_neg (g := g) Nat.one_pos (by omega : 1 ≤ vm.stack.size) (by decide)).symm.trans hp
      injection hn with hn
      refine ⟨ext.setIfInBounds (n - base.size) (.str text), ?_, ?_⟩
      · rw [Vm.stack_withThread, he, Array.setIfInBounds_append_right (by omega)]
      · rwa [Array.size_setIfInBounds]
    · exact .pure fun _ h => h.1

/-- Reading a string as a text changes nothing. -/
theorem textAt {P : Vm → Prop} {i : Int} (h : ∀ vm, P vm → ∃ s, vm.at i = .str s) :
    Runs S P (Stack.text? 0 i : M σ (Option ByteArray)) fun _ => P := by
  unfold Stack.text?
  refine read_bind .generation fun g => read_bind (.contents 0) fun vs => ?_
  constructor
  intro s hs
  obtain ⟨text, ht⟩ := h s.vm hs
  simp only [Bind.bind, EStateM.bind, Stack.value_eq, ht, Arith.text?]
  exact hs

theorem typeCode_string {P : Vm → Prop} (i : Int) :
    Runs S P (Stack.typeCode 0 i : M σ Int) fun tag vm => P vm ∧ (tag = 4 → ∃ s, vm.at i = .str s) := by
  constructor
  intro s hs
  have hv := Stack.value_eq i s
  unfold Stack.value at hv
  unfold Stack.typeCode
  obtain ⟨v, ht⟩ := (Reads.value? 0 i).after s
  simp only [Bind.bind, EStateM.bind, ht, Pure.pure, EStateM.pure] at hv ⊢
  cases v with
  | none => exact ⟨hs, fun h => absurd h (by decide)⟩
  | some v =>
    injection hv with hv
    refine ⟨hs, fun h => ?_⟩
    rw [← hv]
    cases v with
    | str text => exact ⟨text, rfl⟩
    | nil => cases h
    | bool b => cases h
    | int n => cases h
    | float x => cases h
    | table a => cases h
    | closure a => cases h
    | native f n => cases h
    | userdata a => cases h
    | thread t => cases h

end Runs
end Effects

end LuaHost.Lua
