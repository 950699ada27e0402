import LuaHost.Proofs.Neutral.Vm

set_option autoImplicit false

/-!
# Evaluation from the main stack

Nothing is assumed of the native functions that an evaluation runs: they may change any thread. A nested
run gives the thread that it runs on its stack back, so the calls that evaluate something change the
main stack only as they say.
-/

namespace LuaHost.Lua

variable {σ α β : Type}

/-- While thread `t` runs, its stack and the room on it stay. -/
def Frame.steady (σ : Type) (t : Nat) : Frame σ where
  rel s s' := s.vm.running = t → s'.vm.running = t ∧
    (s'.vm.threads.get t).stack = (s.vm.threads.get t).stack ∧ (s'.vm.threads.get t).room = (s.vm.threads.get t).room
  ends _ := True
  refl _ h := ⟨h, rfl, rfl⟩
  trans h k r := ⟨(k (h r).1).1, (k (h r).1).2.1.trans (h r).2.1, (k (h r).1).2.2.trans (h r).2.2⟩
  quiet s vm h r := ⟨h.running.trans r, by rw [h.threads], by rw [h.threads]⟩
  error _ _ := trivial
  unwinding _ _ := trivial
  fault _ _ := trivial

theorem Machine.nested_steady (run : Machine → M σ Outcome) (handler : Option (Option Value)) (f : Value)
    (args : List Value) (t : Nat) : Within (.steady σ t) (Machine.nested run handler f args) := by
  constructor
  intro s
  unfold Machine.nested
  simp only [M.vm, M.thread, M.modifyVm, Bind.bind, EStateM.bind]
  split
  · next outcome u _ =>
    cases outcome with
    | returned vs => exact fun r => ⟨r, by simp [r]⟩
    | yielded vs konts => exact fun r => ⟨r, by simp [r]⟩
  · exact ⟨fun r => ⟨r, by simp [r]⟩, trivial⟩

/-- The calls of a machine keep the stack of the thread that runs. -/
theorem Machine.services_call_steady (run : Machine → M σ Outcome) (t : Nat) (f : Value) (args : List Value) :
    Within (.steady σ t) ((Machine.services run).call f args) := nested_steady run none f args t

theorem Machine.services_callPlain_steady (run : Machine → M σ Outcome) (t : Nat) (f : Value) (args : List Value) :
    Within (.steady σ t) ((Machine.services run).callPlain f args) := nested_steady run (some none) f args t

theorem Stack.attempt_steady {act : M σ α} {t : Nat} (h : Within (.steady σ t) act) :
    Within (.steady σ t) (Stack.attempt act) := by
  constructor
  intro s
  unfold Stack.attempt
  refine h.outcome s ?_ ?_
  · intro a u hu
    exact hu
  · intro e u hu _
    cases e with
    | error status v => exact hu
    | unwinding status v => exact hu
    | fault f => exact ⟨hu, trivial⟩

theorem length_adjust (n : Nat) (vs : List Value) : (adjust n vs).length = n := by
  induction n generalizing vs with
  | zero => rfl
  | succ n ih =>
    cases vs with
    | nil => exact congrArg (· + 1) (ih [])
    | cons v rest => exact congrArg (· + 1) (ih rest)

variable {S : Signal → Prop} {base : Array Value} {k : Nat}

namespace Runs

/-- A steady action keeps the stack of the main thread while that runs. -/
theorem steady {act : M σ α} {p : Array Value → Prop} (h : Within (.steady σ 0) act)
    (hS : ∀ s e s', act s = .error e s' → S e) :
    Runs S (fun vm => p vm.stack ∧ vm.running = 0) act fun _ vm => p vm.stack ∧ vm.running = 0 := by
  constructor
  rintro s ⟨hp, hr⟩
  have hw := h.after s
  cases e : act s with
  | ok a u =>
    rw [e] at hw
    refine ⟨?_, (hw hr).1⟩
    rw [Vm.stack, (hw hr).2.1]
    exact hp
  | error x u => exact hS _ _ _ e

/-- An action carried out on the main thread, whatever thread the machine runs. -/
theorem onThread {act : M σ α} {p q : Array Value → Prop}
    (h : Runs S (fun vm => p vm.stack ∧ vm.running = 0) act fun _ vm => q vm.stack) :
    Runs S (fun vm => p vm.stack) (Stack.onThread 0 act) fun _ vm => q vm.stack := by
  constructor
  intro s hs
  unfold Stack.onThread
  simp only [M.vm, Bind.bind, EStateM.bind]
  by_cases hr : s.vm.running = 0
  · simp only [hr, beq_self_eq_true, if_true]
    exact h.after s ⟨hs, hr⟩
  · simp only [beq_iff_eq, hr, if_false, M.modifyVm, EStateM.bind]
    have hw := h.after { s with vm := { s.vm with running := 0 } } ⟨hs, rfl⟩
    generalize ({ s with vm := { s.vm with running := 0 } } : Sys σ) = u at hw ⊢
    cases e : act u with
    | ok a v =>
      rw [e] at hw
      exact hw
    | error x v =>
      rw [e] at hw
      exact hw

/-- A steady action on the main thread keeps its stack. -/
theorem onThread_steady {act : M σ α} {p : Array Value → Prop} (h : Within (.steady σ 0) act)
    (hS : ∀ s e s', act s = .error e s' → S e) :
    Runs S (fun vm => p vm.stack) (Stack.onThread 0 act) fun _ vm => p vm.stack :=
  onThread ((steady h hS).conseq (fun _ h => h) fun _ _ h => h.1)

/-- At least `k` values above `base`, said of the stack itself. -/
def above (base : Array Value) (k : Nat) (stack : Array Value) : Prop := ∃ ext, stack = base ++ ext ∧ k ≤ ext.size

/-- The results of a call are left on top, as many as were asked for. -/
theorem leaveResults (results : Option Nat) (vs : List Value) :
    Runs S (Vm.Has base k) (Stack.leaveResults 0 results vs : M σ Unit) fun _ vm =>
      vm.Has base k ∧ (1 ≤ results.getD 0 → vm.Has base (k + results.getD 0)) := by
  unfold Stack.leaveResults
  cases results with
  | none =>
    refine bind (Q := fun _ => Vm.Has base k) (modifyThread fun vm h => h.of_stack (Vm.stack_withThread _ _)) fun _ => ?_
    refine (pushAll vs).conseq (fun _ h => h) fun _ _ h => ⟨h.weaken (Nat.le_add_right _ _), fun hr => ?_⟩
    cases hr
  | some n =>
    refine (pushAll _).conseq (fun _ h => h) fun _ _ h => ?_
    rw [length_adjust] at h
    exact ⟨h.weaken (Nat.le_add_right _ _), fun _ => h⟩

/-- A protected call takes the function and its arguments and leaves what was asked for, or one error. -/
theorem protectedCall {run : Machine → M σ Outcome} {n : Nat} {results : Option Nat}
    (hn : n + 1 ≤ k) (hS : ∀ f args s e s', Stack.attempt (Machine.nested run (some none) f args) s = .error e s' → S e) :
    Runs S (Vm.Has base k) (Stack.protectedCall run 0 n results none) fun status vm =>
      vm.Has base (k - (n + 1)) ∧ (1 ≤ results.getD 0 → vm.Has base (k - (n + 1) + 1)) ∧
        (status ≠ .ok → vm.Has base (k - (n + 1) + 1)) := by
  unfold Stack.protectedCall
  refine bind (popAll n (by omega)) fun args => bind (pop (by omega)) fun f => ?_
  have attempted := Stack.attempt_steady (Machine.nested_steady run (some none) f args 0)
  refine bind (Q := fun _ => Vm.Has base (k - n - 1)) (onThread_steady (p := above base (k - n - 1)) attempted (hS f args)) fun r => ?_
  rw [Nat.sub_sub]
  cases r with
  | done vs =>
    refine bind (leaveResults results vs) fun _ => .pure fun vm h => ?_
    exact ⟨h.1, fun hr => (h.2 hr).weaken (by omega), fun h => absurd rfl h⟩
  | failed status v =>
    exact bind (push v) fun _ => .pure fun vm h => ⟨h.weaken (Nat.le_succ _), fun _ => h, fun _ => h⟩

theorem load {act : M σ (Except (Status × ByteArray) Value)} (h : Runs S (Vm.Has base k) act fun _ => Vm.Has base k) :
    Runs S (Vm.Has base k) (Stack.load 0 act) fun _ => Vm.Has base (k + 1) := by
  unfold Stack.load
  refine bind h fun r => ?_
  split
  · exact bind (push _) fun _ => .pure fun _ h => h
  · exact bind (push _) fun _ => .pure fun _ h => h

/-- Compiling raises nothing. -/
theorem compile (name source : ByteArray) (globals : Value) :
    Runs S (Vm.Has base k) (M.load name source globals : M σ _) fun _ => Vm.Has base k := by
  unfold M.load
  refine read_bind .generation fun g => ?_
  split
  · exact .pure fun _ h => h
  · split
    · exact .pure fun _ h => h
    · exact bind (Q := fun _ => Vm.Has base k) ⟨fun _ h => h⟩ fun c =>
        bind (Q := fun _ => Vm.Has base k) ⟨fun _ h => h⟩ fun f => .pure fun _ h => h

theorem compileFile (files : Base.Files σ) (path : ByteArray) :
    Runs S (Vm.Has base k) (Base.loadPath files path : M σ _) fun _ => Vm.Has base k := by
  unfold Base.loadPath
  refine read_bind .generation fun g => read_bind ⟨fun _ => ⟨_, rfl⟩⟩ fun s => ?_
  split
  · exact .pure fun _ h => h
  · exact bind (Q := fun _ => Vm.Has base k) ⟨fun _ h => h⟩ fun v => compile _ _ _

theorem loadText (source : ByteArray) :
    Runs S (Vm.Has base k) (Stack.loadText 0 source : M σ Status) fun _ => Vm.Has base (k + 1) :=
  read_bind .globals fun _ => load (compile _ _ _)

theorem tableAt {P : Vm → Prop} (i : Int) (hS : S (.fault .badIndex)) :
    Runs S P (Stack.tableAt 0 i : M σ Nat) fun _ => P := by
  unfold Stack.tableAt
  refine read_bind (.value 0 i) fun v => ?_
  split
  · exact .pure fun _ h => h
  · exact fault hS

theorem setRegistryEntry (n : Int64) (v : Value) :
    Runs S (Vm.Has base k) (Stack.setRegistryEntry n v : M σ Unit) fun _ => Vm.Has base k :=
  read_bind .vm fun _ => modifyVm fun _ h => h

theorem registryEntry (n : Int64) : Runs S (Vm.Has base k) (Stack.registryEntry n : M σ Value) fun _ => Vm.Has base k :=
  read_bind .vm fun _ => read_bind (.table _) fun _ => .pure fun _ h => h

theorem freeSlot : Runs S (Vm.Has base k) (Stack.freeSlot : M σ Int64) fun _ => Vm.Has base k := by
  unfold Stack.freeSlot
  refine read_bind .generation fun g => bind (registryEntry _) fun head => ?_
  split
  · split
    · exact bind (setRegistryEntry _ _) fun _ => .pure fun _ h => h
    · exact .pure fun _ h => h
  · exact .pure fun _ h => h

theorem occupy (v : Value) (free : Int64) (hS : S (.fault .registryFull)) :
    Runs S (Vm.Has base k) (Stack.occupy v free : M σ Int) fun _ => Vm.Has base k := by
  unfold Stack.occupy
  split
  · refine read_bind .vm fun vm => read_bind (.table _) fun t => ?_
    dsimp only
    split
    · exact bind (Q := fun _ => Vm.Has base k) (fault hS) fun _ => bind (setRegistryEntry _ _) fun _ => .pure fun _ h => h
    · exact bind (setRegistryEntry _ _) fun _ => .pure fun _ h => h
  · exact read_bind .generation fun g => bind (registryEntry _) fun next => bind (setRegistryEntry _ _) fun _ =>
      bind (setRegistryEntry _ _) fun _ => .pure fun _ h => h

theorem pin (hk : 1 ≤ k) (hS : S (.fault .registryFull)) :
    Runs S (Vm.Has base k) (Stack.pin 0 : M σ Int) fun _ => Vm.Has base (k - 1) := by
  unfold Stack.pin
  refine bind (pop hk) fun v => ?_
  split
  · exact .pure fun _ h => h
  · exact bind freeSlot fun free => occupy v free hS

/-- Registering a module calls what opens it, and metamethods; none of them is awaited. -/
theorem require {run : Machine → M σ Outcome} (name : ByteArray) (opening : Value) (isGlobal : Bool) :
    Runs (fun _ => True) (Vm.Has base k) (Stack.require (Machine.services run) 0 name opening isGlobal)
      fun _ => Vm.Has base (k + 1) := by
  have calls := Machine.services_call_steady run 0
  have quietly {β : Type} {act : M σ β} {j : Nat} (h : Within (.steady σ 0) act) :
      Runs (fun _ => True) (fun vm => vm.Has base j ∧ vm.running = 0) act fun _ vm => vm.Has base j ∧ vm.running = 0 :=
    steady (p := above base j) h fun _ _ _ _ => trivial
  have finish (v : Value) : Runs (fun _ => True) (fun vm => vm.Has base k ∧ vm.running = 0) (do
      Stack.push 0 v
      if isGlobal then M.setEntry (Machine.services run) (← Stack.globals) (.str name) v : M σ Unit)
      fun _ vm => vm.Has base (k + 1) := by
    refine bind (Q := fun _ vm => vm.Has base (k + 1) ∧ vm.running = 0)
      (modifyThread fun vm h => ⟨h.1.push (Vm.stack_withThread _ _), h.2⟩) fun _ => ?_
    split
    · exact read_bind .globals fun _ => (quietly (M.setEntry_within calls _ _ _)).conseq (fun _ h => h) fun _ _ h => h.1
    · exact .pure fun _ h => h.1
  have opened (known : Value) : Runs (fun _ => True) (fun vm => vm.Has base k ∧ vm.running = 0) (do
      let v ← if known.truthy then Pure.pure known
        else do
          let v := first (← (Machine.services run).call opening [.str name])
          M.setEntry (Machine.services run) (.table (← Packages.loaded)) (.str name) v
          Pure.pure v
      Stack.push 0 v
      if isGlobal then M.setEntry (Machine.services run) (← Stack.globals) (.str name) v : M σ Unit)
      fun _ vm => vm.Has base (k + 1) := by
    dsimp only
    split
    · exact bind (quietly (.pure _)) finish
    · exact bind (quietly (calls _ _)) fun _ => bind (quietly Packages.loaded_within) fun _ =>
        bind (quietly (M.setEntry_within calls _ _ _)) fun _ => bind (quietly (.pure _)) finish
  unfold Stack.require
  refine onThread (p := above base k) (q := above base (k + 1)) (bind (quietly .generation) fun g => bind (quietly Packages.loaded_within) fun loaded => ?_)
  dsimp only
  split
  · exact bind (quietly (M.getEntry_within calls _ _)) opened
  · exact bind (quietly (.pure _)) opened

end Runs

/-! ## Traversal -/

namespace Table

theorem after_mem {es : List Entry} {e : Entry} (h : e ∈ es) : ∃ rest, after e.key es = some rest := by
  induction es with
  | nil => cases h
  | cons d rest ih =>
    unfold after
    split
    · exact ⟨rest, rfl⟩
    · next hd =>
      cases h with
      | head => exact absurd rfl hd
      | tail _ h => exact ih h

theorem mem_of_after {es rest : List Entry} {k : Key} (h : after k es = some rest) {e : Entry} (he : e ∈ rest) :
    e ∈ es := by
  induction es with
  | nil => cases h
  | cons d ds ih =>
    unfold after at h
    split at h
    · injection h with h
      exact .tail _ (h ▸ he)
    · exact .tail _ (ih h)

theorem firstPresent_mem {es : List Entry} {e : Entry} (h : firstPresent es = some e) : e ∈ es := by
  induction es with
  | nil => cases h
  | cons d ds ih =>
    unfold firstPresent at h
    split at h
    · exact .tail _ (ih h)
    · injection h with h
      exact h ▸ .head _

/-- The traversal goes on from every key that it has shown: the key is there, present or not, and what
comes next is an entry. -/
theorem next_shown {t : Table} {key : Value} (h : key = .nil ∨ ∃ e ∈ t.entries, e.shown = key) :
    ∃ r, t.next key.key? = some r ∧ ∀ e, r = some e → e ∈ t.entries := by
  cases h with
  | inl h =>
    subst h
    exact ⟨firstPresent t.entries, rfl, fun e he => firstPresent_mem he⟩
  | inr h =>
    obtain ⟨e, he, rfl⟩ := h
    obtain ⟨rest, hr⟩ := after_mem he
    refine ⟨firstPresent rest, ?_, fun d hd => mem_of_after hr (firstPresent_mem hd)⟩
    rw [e.keyed]
    simp only [Table.next, hr, Option.map_some]

end Table

/-- A key of a table lies on top of it, or nil, or there is no table; all above the base. -/
def Vm.Walks (base : Array Value) (vm : Vm) : Prop :=
  ∃ ext t key, vm.stack = ((base ++ ext).push t).push key ∧
    ∀ a, t = .table a → key = .nil ∨ ∃ e ∈ (vm.tables.get a).entries, e.shown = key

/-- As `Walks`, with one value on top. -/
def Vm.Walked (base : Array Value) (vm : Vm) : Prop :=
  ∃ ext t key v, vm.stack = (((base ++ ext).push t).push key).push v ∧
    ∀ a, t = .table a → key = .nil ∨ ∃ e ∈ (vm.tables.get a).entries, e.shown = key

theorem Vm.Walks.has {vm : Vm} (h : vm.Walks base) : vm.Has base 1 := by
  obtain ⟨ext, t, key, hs, -⟩ := h
  refine ⟨(ext.push t).push key, ?_, ?_⟩
  · rw [hs, Array.append_push, Array.append_push]
  · rw [Array.size_push]
    exact Nat.le_add_left 1 _

theorem Vm.Walked.has {vm : Vm} (h : vm.Walked base) : vm.Has base 1 := by
  obtain ⟨ext, t, key, v, hs, -⟩ := h
  refine ⟨((ext.push t).push key).push v, ?_, ?_⟩
  · rw [hs, Array.append_push, Array.append_push, Array.append_push]
  · rw [Array.size_push]
    exact Nat.le_add_left 1 _

theorem Vm.at_second (vm : Vm) {below : Array Value} {v w : Value} (h : vm.stack = (below.push v).push w) :
    vm.at (-2) = v := by
  have hsize : vm.stack.size = below.size + 2 := by simp [h]
  have hp : Stack.place vm.generation vm.stack.size (-2) = .slot below.size := by
    have hp : Stack.place vm.generation vm.stack.size (-(2 : Nat)) = .slot (vm.stack.size - 2) :=
      Runs.place_neg Nat.two_pos (by omega) (by decide)
    rw [hsize, Nat.add_sub_cancel] at hp
    rw [hsize]
    exact hp
  have hw : below.size ≠ (below.push v).size := by
    rw [Array.size_push]
    omega
  unfold Vm.at
  rw [hp, h]
  dsimp only
  rw [Array.getElem?_push, if_neg hw, Array.getElem?_push_size, Option.getD_some]

namespace Runs

theorem startWalk : Runs S (Vm.Has base 1) (Stack.push 0 .nil : M σ Unit) fun _ => Vm.Walks base := by
  refine modifyThread fun vm h => ?_
  obtain ⟨ext, he, hk⟩ := h
  have hext : ext = ext.pop.push ext.back! := Array.eq_push_pop_back!_of_size_ne_zero (by omega)
  refine ⟨ext.pop, ext.back!, .nil, ?_, fun _ _ => .inl rfl⟩
  rw [Vm.stack_withThread]
  change vm.stack.push .nil = _
  rw [he]
  exact congrArg (·.push .nil) ((congrArg (base ++ ·) hext).trans Array.append_push)

/-- Taking the value of an entry off leaves its key, from which the traversal goes on. -/
theorem dropValue (asked : Int) : Runs S (Vm.Walked base) (Stack.setTop 0 asked (-2) : M σ Unit) fun _ => Vm.Walks base := by
  unfold Stack.setTop
  refine contents_bind fun vs => ?_
  dsimp only
  rw [if_neg (by decide : ¬ (0 : Int) ≤ -2)]
  constructor
  rintro s ⟨⟨ext, t, key, v, hs, hk⟩, rfl⟩
  have hsize : s.vm.stack.size - 1 = (((base ++ ext).push t).push key).size := by
    rw [hs, Array.size_push, Nat.add_sub_cancel]
  have hpos : 1 ≤ s.vm.stack.size := by
    rw [hs, Array.size_push]
    omega
  have hn : (s.vm.stack.size : Int) + -2 + 1 = ((s.vm.stack.size - 1 : Nat) : Int) := by omega
  rw [hn, if_neg (by omega)]
  refine ⟨ext, t, key, (Vm.stack_withThread _ _).trans ?_, hk⟩
  rw [Int.toNat_natCast, Stack.resize, if_pos (Nat.sub_le _ _), Array.shrink_eq_take, Array.take_eq_extract, hsize, hs,
    Array.extract_push_of_le (Nat.le_refl _), Array.extract_size]

/-- A step of the traversal cannot raise. -/
theorem next (hS : S (.fault .badIndex)) :
    Runs S (Vm.Walks base) (Stack.next 0 (-2) : M σ Bool) fun more vm =>
      if more then vm.Walked base else vm.Has base 1 := by
  constructor
  rintro s ⟨ext, t, key, hs, hk⟩
  have ht := Stack.value_eq (-2) s
  rw [s.vm.at_second hs] at ht
  unfold Stack.next Stack.tableAt
  simp only [Bind.bind, EStateM.bind, ht]
  cases t with
  | table a =>
    have key_top : s.vm.stack.back?.getD .nil = key := by simp [hs]
    obtain ⟨vm, hpop, hstack, htables⟩ := Stack.pop_eq s
    rw [key_top] at hpop
    rw [hs, Array.pop_push] at hstack
    obtain ⟨r, hr, hm⟩ := Table.next_shown (hk a rfl)
    simp only [Pure.pure, EStateM.pure, hpop, Base.nextEntry, M.table, Bind.bind, EStateM.bind, htables, hr]
    cases r with
    | none => exact ⟨ext.push (.table a), hstack.trans Array.append_push.symm, by simp⟩
    | some e =>
      have shown : Runs S (fun v => v.stack = (base ++ ext).push (.table a) ∧ v.tables = s.vm.tables)
          (do Stack.push 0 e.shown; Stack.push 0 e.value; return true : M σ Bool)
          fun more vm => if more then vm.Walked base else vm.Has base 1 := by
        refine bind (Q := fun _ v => v.stack = ((base ++ ext).push (.table a)).push e.shown ∧ v.tables = s.vm.tables)
          (modifyThread fun v h => ⟨?_, h.2⟩) fun _ => ?_
        · rw [← h.1]
          exact Vm.stack_withThread _ _
        refine bind (Q := fun _ => Vm.Walked base) (modifyThread fun v h => ?_) fun _ => .pure fun _ h => h
        refine ⟨ext, .table a, e.shown, e.value, ?_, fun b hb => .inr ⟨e, ?_, rfl⟩⟩
        · rw [← h.1]
          exact Vm.stack_withThread _ _
        · injection hb with hb
          rw [Vm.tables_withThread, h.2, ← hb]
          exact hm e rfl
      exact shown.after { s with vm } ⟨hstack, htables⟩
  | _ => exact hS

end Runs
end LuaHost.Lua
