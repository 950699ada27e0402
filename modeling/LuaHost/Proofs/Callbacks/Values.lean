import LuaHost.Proofs.Entries.Calls

set_option autoImplicit false

/-!
# Values that cross, exactly

What a value on a stack becomes for the host, and what a value of the host becomes on a stack: data is
copied, in both directions, and changes nothing else.
-/

namespace LuaHost.Lua

variable {σ : Type}

/-- The stack of a thread. -/
def Vm.stackOf (vm : Vm) (t : Nat) : Array Value := (vm.threads.get t).stack

@[simp] theorem Vm.stackOf_pushed (vm : Vm) (t : Nat) (v : Value) : (vm.pushed t v).stackOf t = (vm.stackOf t).push v := by
  rw [Vm.stackOf, Vm.pushed]
  dsimp only
  rw [Pool.get_modify_self]
  rfl

theorem Vm.top_pushed (vm : Vm) (t : Nat) (v : Value) : (vm.pushed t v).top t = v := by
  rw [Vm.top, ← Vm.top?, Vm.top?_pushed, Option.getD_some]

namespace Stack

/-- The value at a place counted from the bottom. -/
theorem value?_at {t k : Nat} {s : Sys σ} {v : Value} (hv : (s.vm.stackOf t)[k]? = some v) :
    value? t ((k + 1 : Nat) : Int) s = .ok (some v) s := by
  obtain ⟨bound, found⟩ := Array.getElem?_eq_some_iff.mp hv
  have positive : (0 : Int) < ((k + 1 : Nat) : Int) := Int.natCast_pos.mpr (Nat.succ_pos k)
  have within : ((k + 1 : Nat) : Int) ≤ ((s.vm.stackOf t).size : Int) := Int.ofNat_le.mpr bound
  have here : place s.vm.generation (s.vm.stackOf t).size ((k + 1 : Nat) : Int) = .slot k := by
    rw [place, if_pos positive, if_pos within, Int.toNat_natCast, Nat.add_sub_cancel]
  unfold value?
  simp only [contents, M.thread, M.generation, Bind.bind, EStateM.bind, Pure.pure, EStateM.pure]
  rw [Vm.stackOf] at here hv
  rw [here]
  dsimp only
  rw [hv]
  rfl

theorem freeSlot_threads {s u : Sys σ} {free : Int64} (h : freeSlot s = .ok free u) : u.vm.threads = s.vm.threads := by
  unfold freeSlot at h
  simp only [M.generation, Bind.bind, EStateM.bind, registryEntry_eq] at h
  cases entry : s.vm.entry (freeListSlot s.vm.generation) with
  | nil =>
    rw [entry] at h
    dsimp only at h
    split at h
    · cases h
      rfl
    · cases h
      rfl
  | _ =>
    rw [entry] at h
    cases h
    rfl

theorem occupy_threads {s u : Sys σ} {v : Value} {free : Int64} {slot : Int} (h : occupy v free s = .ok slot u) :
    u.vm.threads = s.vm.threads := by
  unfold occupy at h
  split at h
  · simp only [M.vm, M.table, Bind.bind, EStateM.bind] at h
    split at h
    · cases h
    · cases h
      rfl
  · cases h
    rfl

/-- Pinning takes one value from the stack. -/
theorem pin_stack {t : Nat} {s u : Sys σ} {slot : Int} (h : pin t s = .ok slot u) : u.vm.stackOf t = (s.vm.stackOf t).pop := by
  let popped : Sys σ :=
    { s with vm := { s.vm with threads := s.vm.threads.modify t fun th => { th with stack := (s.vm.stackOf t).pop } } }
  have taken : pop t s = .ok (s.vm.top t) popped := rfl
  have stack : (popped.vm.threads.get t).stack = (s.vm.stackOf t).pop := by
    dsimp only [popped]
    rw [Pool.get_modify_self]
  unfold pin at h
  simp only [Bind.bind, EStateM.bind, taken] at h
  by_cases nil : (s.vm.top t).isNil = true
  · rw [if_pos nil] at h
    have same : popped = u := (EStateM.Result.ok.inj h).2
    exact same ▸ stack
  · rw [if_neg nil] at h
    simp only [EStateM.bind] at h
    cases found : freeSlot popped with
    | ok free w =>
      rw [found] at h
      rw [Vm.stackOf, occupy_threads h, freeSlot_threads found]
      exact stack
    | error e w =>
      rw [found] at h
      cases h

end Stack
end LuaHost.Lua

namespace LuaHost.Host

open Lua (M Vm Generation)
open Binding (Call Program Runtime)

variable {env : Env} {w : World} {vm : Vm} {t : Handle} {α : Type}

/-! ## Calls that change nothing, and calls that push -/

/-- A program of one call that changes nothing. -/
theorem runWith_asks (runtime : Nat) {c : Runtime → Call} (f : Value → α) {a : Value} (hn : ∀ r, c r ≠ .newState)
    (hc : ∀ r, c r ≠ .close) (ha : ∀ r, checkArguments (c r) = .ok ()) (hm : w.machines.get t.machine = .open vm)
    (asks : perform env t (c (w.runtimes.get runtime)) (taken w t.machine vm) = .ok a (taken w t.machine vm)) :
    runWith runtime (some t) (fun r => .ask (c r) fun v => .done (f v)) env w = .ok (f a) w := by
  rw [runWith_call, execute_ok (hn _) (hc _) (ha _) hm asks, putBack_taken hm]

/-- A program of one call that pushes a value. -/
theorem runWith_pushes (runtime : Nat) {c : Runtime → Call} {v : Lua.Value} (hn : ∀ r, c r ≠ .newState)
    (hc : ∀ r, c r ≠ .close) (ha : ∀ r, checkArguments (c r) = .ok ()) (hm : w.machines.get t.machine = .open vm)
    (pushes : perform env t (c (w.runtimes.get runtime)) (taken w t.machine vm) =
      .ok .none { taken w t.machine vm with vm := vm.pushed t.thread v }) :
    runWith runtime (some t) (fun r => .ask (c r) fun _ => .done ()) env w = .ok () (w.pushed t vm v) := by
  rw [runWith_call, execute_ok (hn _) (hc _) (ha _) hm pushes, putBack_with]
  rfl

namespace Perform

/-! ### Asking about a value -/

section Asking

variable {s : Lua.Sys World} {i : Int} {v : Lua.Value} (found : Lua.Stack.value? t.thread (int32 i) s = .ok (some v) s)

include found

theorem value_found : Lua.Stack.value t.thread (int32 i) s = .ok v s := by
  unfold Lua.Stack.value
  simp only [Bind.bind, EStateM.bind, found]
  rfl

theorem type_found : perform env t (.type i) s = .ok (.int v.tag.code) s := by
  unfold perform
  simp only [answerInt, Lua.Stack.typeCode, M.generation, Bind.bind, EStateM.bind, found]
  rfl

theorem truth_found : perform env t (.toBoolean i) s = .ok (.int (if v.truthy then 1 else 0)) s := by
  unfold perform
  simp only [answerBool, M.generation, Bind.bind, EStateM.bind, value_found found]
  rfl

theorem number_found : perform env t (.toNumber i) s =
    .ok (.float ((Lua.Arith.toFloat? s.vm.generation v).getD 0.0)) s := by
  unfold perform
  simp only [Lua.Stack.number, M.generation, Bind.bind, EStateM.bind, value_found found]
  rfl

theorem isInteger_found : perform env t (.isInteger i) s = .ok (.int (match v with | .int _ => 1 | _ => 0)) s := by
  unfold perform
  simp only [answerBool, Lua.Stack.isInteger, M.generation, Bind.bind, EStateM.bind, value_found found]
  cases v <;> rfl

theorem integer_found (integers : s.vm.generation.hasIntegers = true) : perform env t (.toInteger i) s =
    .ok (.int (((Lua.Arith.toInt? s.vm.generation v).map Int64.toInt).getD 0)) s := by
  unfold perform
  simp only [answerInt, Lua.Stack.integer, M.generation, Bind.bind, EStateM.bind, value_found found, integers, if_true]
  rfl

/-- Copying a value to the top of the stack. -/
theorem copy_found : perform env t (.pushValue i) s = .ok .none { s with vm := s.vm.pushed t.thread v } := by
  unfold perform
  simp only [quiet, M.generation, Bind.bind, EStateM.bind, value_found found, Lua.Stack.push_eq]
  rfl

end Asking

theorem text_found {s : Lua.Sys World} {i : Int} {b : ByteArray}
    (found : Lua.Stack.value? t.thread (int32 i) s = .ok (some (.str b)) s) :
    perform env t (.toLString i) s = .ok (.bytes b) s := by
  unfold perform
  simp only [Lua.Stack.text?, Lua.Stack.contents, M.thread, M.generation, Bind.bind, EStateM.bind, Pure.pure, EStateM.pure,
    value_found found]
  rfl

/-- A call that pins comes back if the value is pinned. -/
theorem ref_pinned {s u : Lua.Sys World} {i : Int} {a : Value} (run : perform env t (.ref i) s = .ok a u) :
    ∃ slot s', Lua.Stack.pin t.thread s = .ok slot s' ∧ u.vm = s'.vm ∧ a = .int slot := by
  unfold perform at run
  simp only [answerInt, M.generation, Bind.bind, EStateM.bind, value_top] at run
  cases pinned : Lua.Stack.pin t.thread s with
  | ok slot s' =>
    rw [pinned] at run
    cases run
    exact ⟨slot, s', rfl, rfl, rfl⟩
  | error e s' =>
    rw [pinned] at run
    cases run

/-- A value that is pinned is taken from the stack. -/
theorem ref_stack {s u : Lua.Sys World} {i : Int} {a : Value} (run : perform env t (.ref i) s = .ok a u) :
    u.vm.stackOf t.thread = (s.vm.stackOf t.thread).pop := by
  obtain ⟨slot, s', pinned, same, -⟩ := ref_pinned run
  rw [same, Lua.Stack.pin_stack pinned]

end Perform

/-- The top of a stack is pinned for a new reference, unless no slot is left. -/
theorem pinTop_open (env : Env) (registry : Nat) (hm : w.machines.get t.machine = .open vm) :
    (∃ slot vm', vm.Pins (vm.top t.thread) slot vm' ∧ vm'.stackOf t.thread = (vm.stackOf t.thread).pop ∧
        Registry.pinTop registry (some t) env w =
          .ok w.references.size (w.referenced t.machine vm' registry (vm.top t.thread) slot)) ∨
      ∃ w', Registry.pinTop registry (some t) env w = .error (.signal (.fault .registryFull)) w' := by
  let r := w.runtimes.get (w.registries.get registry).runtime
  have asked := runWith_call (w := w) env (w.registries.get registry).runtime (some t) (fun r => .ref r.registryIndex) id
  have run : Registry.pinTop registry (some t) env w =
      (runWith (w.registries.get registry).runtime (some t) Binding.Api.ref >>= fun slot =>
        MonadState.modifyGet fun w =>
          (w.references.size, { w with references := w.references.add ⟨registry, Binding.Api.intOf slot⟩ }) : H Nat) env w := rfl
  rw [run]
  change runWith (w.registries.get registry).runtime (some t) Binding.Api.ref env w = _ at asked
  obtain ⟨slot, vm', pins, performed⟩ | ⟨vm', -, performed⟩ := Perform.pins env t r.registryIndex (taken w t.machine vm)
  · rw [execute_ok (c := .ref _) nofun nofun rfl hm performed, putBack_noted] at asked
    rw [bind_ok asked]
    exact .inl ⟨slot, vm', pins, Perform.ref_stack performed, rfl⟩
  · rw [execute_fault (c := .ref _) nofun nofun rfl hm performed] at asked
    rw [bind_error asked]
    exact .inr ⟨_, rfl⟩

/-! ## Data for the host -/

/-- The host's copy of a value of a machine, if it needs no reference. -/
def copied (r : Runtime) : Lua.Value → Option Value
  | .nil => some .none
  | .bool b => some (.bool b)
  | .int n => some (if r.generation.hasIntegers then .int n.toInt else .float (Double.ofInt n.toInt))
  | .float x => some (.float x)
  | .str b => some (if r.hidesTexts then .none else .text (Text.ofUtf8 b))
  | .table _ | .closure _ | .native _ _ | .userdata _ | .thread _ => none

section Receiving

variable {runtime : Nat} {i : Int} {v : Lua.Value} (hm : w.machines.get t.machine = .open vm)
  (hg : (w.runtimes.get runtime).generation = vm.generation)
  (found : Lua.Stack.value? t.thread (int32 i) (taken w t.machine vm) = .ok (some v) (taken w t.machine vm))

include hm found

theorem runWith_typeAt : runWith runtime (some t) (fun _ => Binding.Api.type i) env w = .ok (.int v.tag.code) w :=
  runWith_asks runtime id (fun _ => nofun) (fun _ => nofun) (fun _ => rfl) hm (Perform.type_found found)

theorem runWith_booleanAt : runWith runtime (some t) (fun _ => Binding.Api.toBoolean i) env w = .ok v.truthy w := by
  refine Eq.trans (runWith_asks (c := fun _ => .toBoolean i) runtime Value.truthy (fun _ => nofun) (fun _ => nofun)
    (fun _ => rfl) hm (Perform.truth_found found)) (congrArg (EStateM.Result.ok · w) ?_)
  cases v.truthy <;> rfl

theorem runWith_numberAt : runWith runtime (some t) (fun _ => Binding.Api.toNumber i) env w =
    .ok (.float ((Lua.Arith.toFloat? vm.generation v).getD 0.0)) w :=
  runWith_asks runtime id (fun _ => nofun) (fun _ => nofun) (fun _ => rfl) hm (Perform.number_found found)

theorem runWith_textAt {b : ByteArray} (hs : v = .str b) :
    runWith runtime (some t) (fun r => Binding.Api.toText r i) env w =
      .ok (if (w.runtimes.get runtime).hidesTexts then none else some (Text.ofUtf8 b)) w := by
  subst hs
  change runProgram (w.runtimes.get runtime) (some t) (Binding.Api.toText (w.runtimes.get runtime) i) env w = _
  generalize w.runtimes.get runtime = r
  unfold Binding.Api.toText
  split
  · rfl
  · exact bind_ok (execute_ok (c := .toLString i) nofun nofun rfl hm (Perform.text_found found) |>.trans
      (congrArg _ (putBack_taken hm)))

theorem runWith_isIntegerAt : runWith runtime (some t) (fun r => Binding.Api.isInteger r i) env w =
    .ok ((w.runtimes.get runtime).generation.hasIntegers && v matches .int _) w := by
  change runProgram (w.runtimes.get runtime) (some t) (Binding.Api.isInteger (w.runtimes.get runtime) i) env w = _
  generalize w.runtimes.get runtime = r
  unfold Binding.Api.isInteger
  cases r.generation.hasIntegers with
  | false => rfl
  | true =>
    refine (bind_ok (execute_ok (c := .isInteger i) nofun nofun rfl hm (Perform.isInteger_found found) |>.trans
      (congrArg _ (putBack_taken hm)))).trans ?_
    cases v <;> rfl

theorem runWith_integerAt {n : Int64} (hv : v = .int n) (integers : vm.generation.hasIntegers = true)
    (hg : (w.runtimes.get runtime).generation = vm.generation) :
    runWith runtime (some t) (fun r => Binding.Api.toInteger r i) env w = .ok (.int n.toInt) w := by
  change runProgram (w.runtimes.get runtime) (some t) (Binding.Api.toInteger (w.runtimes.get runtime) i) env w = _
  unfold Binding.Api.toInteger
  have newer : ¬ ((w.runtimes.get runtime).generation == .v51) = true := by
    rw [hg]
    rintro old
    rw [beq_iff_eq.mp old] at integers
    cases integers
  rw [if_neg newer]
  refine bind_ok (execute_ok (c := .toInteger i) nofun nofun rfl hm (Perform.integer_found found integers) |>.trans
    (congrArg _ (putBack_taken hm))) |>.trans ?_
  rw [hv]
  rfl

include hg in
theorem toHost_copied {a : Value} (registry : Option Nat) (copy : copied (w.runtimes.get runtime) v = some a) :
    toHost runtime (some t) i registry env w = .ok a w := by
  unfold toHost
  rw [bind_ok (runWith_typeAt hm found)]
  cases v with
  | nil =>
    cases copy
    rfl
  | bool b =>
    cases copy
    exact bind_ok (runWith_booleanAt hm found)
  | int n =>
    refine (bind_ok (runWith_isIntegerAt hm found)).trans ?_
    unfold copied at copy
    cases integers : (w.runtimes.get runtime).generation.hasIntegers with
    | true =>
      rw [integers] at copy
      cases copy
      exact runWith_integerAt hm found rfl (hg ▸ integers) hg
    | false =>
      rw [integers] at copy
      cases copy
      exact runWith_numberAt hm found
  | float x =>
    cases copy
    refine (bind_ok (runWith_isIntegerAt hm found)).trans ?_
    rw [Bool.and_false]
    exact runWith_numberAt hm found
  | str b =>
    cases copy
    refine (bind_ok (runWith_textAt hm found rfl)).trans ?_
    split <;> rfl
  | _ => cases copy

variable (env runtime) in
theorem runWith_copyAt :
    runWith runtime (some t) (fun _ => Binding.Api.pushValue i) env w = .ok () (w.pushed t vm v) :=
  runWith_pushes (c := fun _ => .pushValue i) runtime (fun _ => nofun) (fun _ => nofun) (fun _ => rfl) hm
    (Perform.copy_found found)

variable (env) in
/-- A value that cannot be copied is pinned, unless no slot is left. -/
theorem toHost_pinned (registry : Nat) (copy : copied (w.runtimes.get runtime) v = none) :
    (∃ slot vm', (vm.pushed t.thread v).Pins v slot vm' ∧ vm'.stackOf t.thread = vm.stackOf t.thread ∧
        toHost runtime (some t) i (some registry) env w =
          .ok (.reference w.references.size) (w.referenced t.machine vm' registry v slot)) ∨
      ∃ w', toHost runtime (some t) i (some registry) env w = .error (.signal (.fault .registryFull)) w' := by
  have run : toHost runtime (some t) i (some registry) env w =
      (runWith runtime (some t) (fun _ => Binding.Api.pushValue i) >>= fun _ =>
        Registry.pinTop registry (some t) >>= fun id => Pure.pure (Value.reference id) : H Value) env w := by
    unfold toHost
    rw [bind_ok (runWith_typeAt hm found)]
    cases v <;> first | rfl | cases copy
  have opened : (w.pushed t vm v).machines.get t.machine = .open (vm.pushed t.thread v) := Pool.get_put_self _ _ _
  rw [run, bind_ok (runWith_copyAt env runtime hm found)]
  obtain ⟨slot, vm', pins, stack, pinned⟩ | ⟨w', failed⟩ := pinTop_open env registry opened
  · rw [Lua.Vm.top_pushed] at pins pinned
    rw [Lua.Vm.stackOf_pushed, Array.pop_push] at stack
    rw [bind_ok pinned]
    refine .inl ⟨slot, vm', pins, stack, ?_⟩
    simp only [World.referenced, World.pushed, Pool.put_put]
    rfl
  · rw [bind_error failed]
    exact .inr ⟨w', rfl⟩

end Receiving

/-! ## Data for a machine -/

/-- The copy of a value of the host on a stack, if it is data that can be pushed. -/
def sent (g : Generation) : Value → Option Lua.Value
  | .none => some .nil
  | .bool b => some (.bool b)
  | .int n =>
    if leastInteger ≤ n ∧ n ≤ greatestInteger then some (Lua.Value.ofInt g n) else (floatOfInt n).toOption.map .float
  | .float x => some (.float x)
  | .text s => (sourceBytes (.text s)).toOption.map .str
  | .bytes b => (sourceBytes (.bytes b)).toOption.map .str
  | .byteArray b => (sourceBytes (.byteArray b)).toOption.map .str
  | _ => none

theorem int64_small {n : Int} (h : leastInteger ≤ n ∧ n ≤ greatestInteger) : int64 n = n := by
  unfold int64 leastInteger greatestInteger at *
  rw [Int.bmod_def]
  omega

section Sending

variable (runtime : Nat) (registry : Option Nat) (hm : w.machines.get t.machine = .open vm)

include hm

theorem runWith_pushNumber (x : Float) :
    runWith runtime (some t) (fun _ => Binding.Api.pushNumber (.float x)) env w = .ok () (w.pushed t vm (.float x)) :=
  runWith_pushes (c := fun _ => .pushNumber (.float x)) runtime (fun _ => nofun) (fun _ => nofun) (fun _ => rfl) hm rfl

theorem runWith_pushInteger {n : Int} (small : leastInteger ≤ n ∧ n ≤ greatestInteger) :
    runWith runtime (some t) (fun _ => Binding.Api.pushInteger (.int n)) env w =
      .ok () (w.pushed t vm (Lua.Value.ofInt vm.generation n)) := by
  have same := int64_small small
  refine runWith_pushes (c := fun _ => .pushInteger (.int n)) runtime (fun _ => nofun) (fun _ => nofun) (fun _ => rfl) hm ?_
  have performed : perform env t (.pushInteger (.int n)) (taken w t.machine vm) =
      .ok .none { taken w t.machine vm with vm := vm.pushed t.thread (Lua.Value.ofInt vm.generation (int64 n)) } := rfl
  rwa [same] at performed

theorem runWith_pushString {v : Value} {b : ByteArray} (bytes : sourceBytes v = .ok b) :
    runWith runtime (some t) (fun _ => Binding.Api.pushString v) env w = .ok () (w.pushed t vm (.str b)) := by
  have run : (fun _ => Binding.Api.pushString v : Runtime → Program Unit) = fun _ => .ask (.pushLString b) fun _ => .done () := by
    funext r
    unfold Binding.Api.pushString
    rw [bytes]
    rfl
  rw [run]
  exact runWith_pushes (c := fun _ => .pushLString b) runtime (fun _ => nofun) (fun _ => nofun) (fun _ => rfl) hm rfl

/-- Data is pushed as its copy, whether the registry at hand has a machine or not. -/
theorem pushHost_sent {v : Value} {u : Lua.Value} (data : sent vm.generation v = some u) :
    pushHost runtime (some t) v registry env w = .ok () (w.pushed t vm u) := by
  have bytes {v : Value} (h : (sourceBytes v).toOption.map Lua.Value.str = some u) :
      runWith runtime (some t) (fun _ => Binding.Api.pushString v) env w = .ok () (w.pushed t vm u) := by
    cases source : sourceBytes v with
    | error e =>
      rw [source] at h
      cases h
    | ok b =>
      rw [source] at h
      cases h
      exact runWith_pushString runtime hm source
  cases v with
  | none =>
    cases data
    exact runWith_pushes (c := fun _ => .pushNil) runtime (fun _ => nofun) (fun _ => nofun) (fun _ => rfl) hm rfl
  | bool b =>
    cases data
    exact runWith_pushes (c := fun _ => .pushBoolean b) runtime (fun _ => nofun) (fun _ => nofun) (fun _ => rfl) hm rfl
  | int n =>
    replace data : (if leastInteger ≤ n ∧ n ≤ greatestInteger then some (Lua.Value.ofInt vm.generation n)
        else (floatOfInt n).toOption.map .float) = some u := data
    unfold pushHost
    dsimp only
    by_cases small : leastInteger ≤ n ∧ n ≤ greatestInteger
    · rw [if_pos small] at data ⊢
      cases data
      exact runWith_pushInteger runtime hm small
    · rw [if_neg small] at data ⊢
      cases double : floatOfInt n with
      | error e =>
        rw [double] at data
        cases data
      | ok x =>
        rw [double] at data
        cases data
        exact runWith_pushNumber runtime hm x
  | float x =>
    cases data
    exact runWith_pushNumber runtime hm x
  | text s => exact bytes data
  | bytes b => exact bytes data
  | byteArray b => exact bytes data
  | _ => cases data

end Sending

end LuaHost.Host
