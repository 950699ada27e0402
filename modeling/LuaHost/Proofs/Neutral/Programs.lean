import LuaHost.Proofs.Neutral.Triples

set_option autoImplicit false

/-!
# Programs above a base

What the programs of calls need on the main stack and leave there. A program on another machine makes
only bare calls, which leave this one alone.
-/

namespace LuaHost.Host

open Lua (M Vm Runs Reads Signal Fault)
open Binding (Call Program Runtime)

variable {env : Env} {S : Signal → Prop} {m t : Nat} {base : Array Lua.Value} {k : Nat} {α β : Type}
  {E P : Vm → Prop} {Q : α → Vm → Prop}

theorem has_zero {vm : Vm} (h : vm.Has base k) : vm.Has base 0 := h.weaken (Nat.zero_le k)

namespace Triple

theorem ask {r : Runtime} {l : Option Handle} {c : Call} {next : Value → Program α} {R : Value → Vm → Prop}
    (h : Triple env S m E P (Host.execute r l c) R)
    (k : ∀ v, Triple env S m E (R v) (runProgram r l (next v)) Q) :
    Triple env S m E P (runProgram r l (.ask c next)) Q := bind h k

theorem call_bind {r : Runtime} {l : Option Handle} {c : Call} {next : Value → Program α} {R : Value → Vm → Prop}
    (h : Triple env S m E P (Host.execute r l c) R)
    (k : ∀ v, Triple env S m E (R v) (runProgram r l (next v)) Q) :
    Triple env S m E P (runProgram r l (Program.call c >>= next)) Q := ask h k

/-- Programs one after another. -/
theorem andThen {r : Runtime} {l : Option Handle} {p : Program β} {next : β → Program α} {R : β → Vm → Prop}
    (h : Triple env S m E P (runProgram r l p) R) (k : ∀ b, Triple env S m E (R b) (runProgram r l (next b)) Q) :
    Triple env S m E P (runProgram r l (p >>= next)) Q := by
  rw [runProgram_bind]
  exact bind h k

/-- A program that makes one call and gives its answer. -/
theorem call {r : Runtime} {l : Option Handle} {c : Call} {Q : Value → Vm → Prop}
    (h : Triple env S m E P (Host.execute r l c) Q) :
    Triple env S m E P (runProgram r l (Program.call c)) Q := ask h fun _ => pure fun _ h => h

/-- A program that makes one call and goes on with a value that its answer decides. -/
theorem call_map {r : Runtime} {l : Option Handle} {c : Call} {f : Value → α} {R : Value → Vm → Prop}
    (h : Triple env S m E P (Host.execute r l c) R) (hq : ∀ v vm, R v vm → Q (f v) vm) :
    Triple env S m E P (runProgram r l (.ask c fun v => .done (f v))) Q := ask h fun v => pure (hq v)

theorem fail (f : Failure) (hp : ∀ vm, P vm → E vm) : Triple env S m E P (H.fail f : H α) Q :=
  ⟨fun _ hw => hw.imp hp⟩

/-- What a program does under every runtime it does under the one of that number. -/
theorem runWith {runtime : Nat} {l : Option Handle} {p : Runtime → Program α} (hp : ∀ vm, P vm → E vm)
    (h : ∀ r, Triple env S m E P (runProgram r l (p r)) Q) :
    Triple env S m E P (runWith runtime l p) Q := bind (of_aside (Aside.runtime _) hp) h

/-- A conversion in a program. -/
theorem convert {r : Runtime} {l : Option Handle} {x : Except Failure β} {next : β → Program α}
    (hp : ∀ vm, P vm → E vm) (h : ∀ b, Triple env S m E P (runProgram r l (next b)) Q) :
    Triple env S m E P (runProgram r l (Program.ofExcept x >>= next)) Q := by
  cases x with
  | ok b => exact h b
  | error f => exact fail f hp

theorem nameBytes {r : Runtime} {l : Option Handle} (v : Value) (hp : ∀ vm, P vm → E vm) :
    Triple env S m E P (runProgram r l (Binding.Api.nameBytes v)) fun _ => P := by
  unfold Binding.Api.nameBytes
  split
  · next t =>
    cases Host.encode t with
    | ok b => exact pure fun _ h => h
    | error f => exact fail f hp
  · exact fail _ hp

variable [Ways env S]

/-! ### Programs on the main stack -/

variable (r : Runtime)

theorem getTop (hp : ∀ vm, P vm → E vm) :
    Triple env S m E P (runProgram r (some (.main m)) Binding.Api.getTop) fun v vm =>
      P vm ∧ v = .int vm.stack.size := call (execute r nofun nofun hp fun _ => Perform.getTop)

theorem pop {n : Nat} (hn : n ≤ k) (hs : n < 0x80000000) :
    Triple env S m (Vm.Has base 0) (Vm.Has base k) (runProgram r (some (.main m)) (Binding.Api.pop n)) fun _ => Vm.Has base (k - n) := by
  have hi : int32 (-(n : Int) - 1) = -(n : Int) - 1 := by
    unfold int32
    rw [Int.bmod_eq_of_le (by omega) (by omega)]
  exact call_map (execute r nofun nofun (fun _ => has_zero) fun _ => Perform.setTop n hi hn) fun _ _ h => h

theorem setTop_base {n : Int} (hn : n = base.size) (hs : base.size < 0x80000000) :
    Triple env S m (Vm.Has base 0) (Vm.Has base 0) (runProgram r (some (.main m)) (Binding.Api.setTop n)) fun _ vm => vm.stack = base := by
  have hi : int32 n = base.size := by
    unfold int32
    rw [Int.bmod_eq_of_le (by omega) (by omega), hn]
  exact call_map (execute r nofun nofun (fun _ h => h) fun _ => Perform.setTop_base hi) fun _ _ h => h

theorem checkStack (n : Int) :
    Triple env S m (Vm.Has base 0) (Vm.Has base k) (runProgram r (some (.main m)) (Binding.Api.checkStack n)) fun _ => Vm.Has base k :=
  call_map (execute r nofun nofun (fun _ => has_zero) fun _ => Perform.checkStack n) fun _ _ h => h

theorem pushValue (i : Int) :
    Triple env S m (Vm.Has base 0) (Vm.Has base k) (runProgram r (some (.main m)) (Binding.Api.pushValue i)) fun _ =>
      Vm.Has base (k + 1) :=
  call_map (execute r nofun nofun (fun _ => has_zero) fun _ => Perform.pushValue i) fun _ _ h => h

theorem type (i : Int) (hp : ∀ vm, P vm → E vm) :
    Triple env S m E P (runProgram r (some (.main m)) (Binding.Api.type i)) fun v vm =>
      P vm ∧ (Binding.Api.intOf v = 4 → ∃ s, vm.at (int32 i) = .str s) :=
  call (execute r nofun nofun hp fun _ => Perform.type i)

/-- A call that only reads. -/
theorem reads {c : Call} (hn : c ≠ .newState) (hc : c ≠ .close) (hp : ∀ vm, P vm → E vm)
    (h : Reads (perform env ⟨m, t⟩ c)) :
    Triple env S m E P (Host.execute r (some ⟨m, t⟩) c) fun _ => P :=
  executeOn r ⟨m, t⟩ hn hc hp fun _ => .read h

theorem typeName (tag : Int) (hp : ∀ vm, P vm → E vm) :
    Triple env S m E P (runProgram r (some ⟨m, t⟩) (Binding.Api.typeName tag)) fun _ => P := by
  unfold Binding.Api.typeName
  refine call_bind (reads r nofun nofun hp (Perform.typeName tag)) fun v => ?_
  split
  · split
    · exact pure fun _ h => h
    · split
      · exact pure fun _ h => h
      · exact fail _ hp
  · exact pure fun _ h => h

theorem toNumber (i : Int) (hp : ∀ vm, P vm → E vm) :
    Triple env S m E P (runProgram r (some ⟨m, t⟩) (Binding.Api.toNumber i)) fun _ => P :=
  call (reads r nofun nofun hp (Perform.toNumber i))

theorem toBoolean (i : Int) (hp : ∀ vm, P vm → E vm) :
    Triple env S m E P (runProgram r (some ⟨m, t⟩) (Binding.Api.toBoolean i)) fun _ => P :=
  call_map (reads r nofun nofun hp (Perform.toBoolean i)) fun _ _ h => h

theorem isInteger (i : Int) (hp : ∀ vm, P vm → E vm) :
    Triple env S m E P (runProgram r (some ⟨m, t⟩) (Binding.Api.isInteger r i)) fun _ => P := by
  unfold Binding.Api.isInteger
  split
  · exact call_map (reads r nofun nofun hp (Perform.isInteger i)) fun _ _ h => h
  · exact pure fun _ h => h

theorem toInteger (i : Int) (hp : ∀ vm, P vm → E vm) :
    Triple env S m E P (runProgram r (some ⟨m, t⟩) (Binding.Api.toInteger r i)) fun _ => P := by
  unfold Binding.Api.toInteger
  split
  · exact call_bind (reads r nofun nofun hp (Perform.toNumber i)) fun v => convert hp fun n => pure fun _ h => h
  · exact call (reads r nofun nofun hp (Perform.toInteger i))

theorem toText {i : Int} (hp : ∀ vm, P vm → E vm)
    (h : Runs S P (Lua.Stack.text? t (int32 i) : M World _) fun _ => P) :
    Triple env S m E P (runProgram r (some ⟨m, t⟩) (Binding.Api.toText r i)) fun _ => P := by
  unfold Binding.Api.toText
  split
  · exact pure fun _ h => h
  · refine call_bind (executeOn r ⟨m, t⟩ nofun nofun hp fun _ => Perform.toLString h) fun v => ?_
    split
    · exact pure fun _ h => h
    · exact pure fun _ h => h

/-- The value on top as a text. -/
theorem topText (hk : 1 ≤ k) :
    Triple env S m (Vm.Has base 0) (Vm.Has base k) (runProgram r (some (.main m)) (Binding.Api.toText r (-1))) fun _ => Vm.Has base k :=
  toText r (fun _ => has_zero) (Runs.textTop hk)

theorem pushNil :
    Triple env S m (Vm.Has base 0) (Vm.Has base k) (runProgram r (some (.main m)) Binding.Api.pushNil) fun _ => Vm.Has base (k + 1) :=
  call_map (execute r nofun nofun (fun _ => has_zero) fun _ => Perform.pushNil) fun _ _ h => h

theorem pushNumber (x : Value) :
    Triple env S m (Vm.Has base 0) (Vm.Has base k) (runProgram r (some (.main m)) (Binding.Api.pushNumber x)) fun _ =>
      Vm.Has base (k + 1) :=
  call_map (execute r nofun nofun (fun _ => has_zero) (Perform.pushNumber x)) fun _ _ h => h

theorem pushInteger (n : Value) :
    Triple env S m (Vm.Has base 0) (Vm.Has base k) (runProgram r (some (.main m)) (Binding.Api.pushInteger n)) fun _ =>
      Vm.Has base (k + 1) :=
  call_map (execute r nofun nofun (fun _ => has_zero) (Perform.pushInteger n)) fun _ _ h => h

theorem pushBoolean (v : Value) :
    Triple env S m (Vm.Has base 0) (Vm.Has base k) (runProgram r (some (.main m)) (Binding.Api.pushBoolean v)) fun _ =>
      Vm.Has base (k + 1) :=
  call_map (execute r nofun nofun (fun _ => has_zero) fun _ => Perform.pushBoolean _) fun _ _ h => h

theorem pushString (v : Value) :
    Triple env S m (Vm.Has base 0) (Vm.Has base k) (runProgram r (some (.main m)) (Binding.Api.pushString v)) fun _ =>
      Vm.Has base (k + 1) :=
  convert (fun _ => has_zero) fun s =>
    call_map (execute r nofun nofun (fun _ => has_zero) fun _ => Perform.pushLString s) fun _ _ h => h

theorem pushCFunction (f : Value) :
    Triple env S m (Vm.Has base 0) (Vm.Has base k) (runProgram r (some (.main m)) (Binding.Api.pushCFunction f)) fun _ =>
      Vm.Has base (k + 1) :=
  call_map (execute r nofun nofun (fun _ => has_zero) (Perform.pushCClosure f)) fun _ _ h => h

theorem pushGlobals :
    Triple env S m (Vm.Has base 0) (Vm.Has base k) (runProgram r (some (.main m)) (Binding.Api.pushGlobals r)) fun _ =>
      Vm.Has base (k + 1) := by
  unfold Binding.Api.pushGlobals
  split
  · exact call_map (execute r nofun nofun (fun _ => has_zero) fun _ => Perform.pushValue _) fun _ _ h => h
  · exact call_map (execute r nofun nofun (fun _ => has_zero) fun _ => Perform.rawGetI _ _) fun _ _ h => h

theorem pushRef (slot : Int) :
    Triple env S m (Vm.Has base 0) (Vm.Has base k) (runProgram r (some (.main m)) (Binding.Api.pushRef r slot)) fun _ =>
      Vm.Has base (k + 1) :=
  ask (execute r nofun nofun (fun _ => has_zero) fun _ => Perform.rawGetI _ _) fun _ =>
    (type r (-1) fun _ => has_zero).conseq (fun _ h => h) fun _ _ h => h.1

theorem ref (hk : 1 ≤ k) :
    Triple env S m (Vm.Has base 0) (Vm.Has base k) (runProgram r (some (.main m)) (Binding.Api.ref r)) fun _ => Vm.Has base (k - 1) :=
  call (execute r nofun nofun (fun _ => has_zero) fun _ => Perform.ref _ hk)

theorem startWalk :
    Triple env S m (Vm.Has base 0) (Vm.Has base 1) (runProgram r (some (.main m)) Binding.Api.pushNil) fun _ => Vm.Walks base :=
  call_map (execute r nofun nofun (fun _ => has_zero) fun _ => Perform.startWalk) fun _ _ h => h

theorem next :
    Triple env S m (Vm.Has base 0) (Vm.Walks base) (runProgram r (some (.main m)) (Binding.Api.next (-2))) fun more vm =>
      if Binding.Api.intOf more = 0 then vm.Has base 1 else vm.Walked base :=
  call (execute r nofun nofun (fun _ h => has_zero h.has) fun _ => Perform.next (by decide))

theorem dropValue :
    Triple env S m (Vm.Has base 0) (Vm.Walked base) (runProgram r (some (.main m)) (Binding.Api.pop 1)) fun _ => Vm.Walks base :=
  call_map (execute r nofun nofun (fun _ h => has_zero h.has) fun _ => Perform.dropValue (by decide)) fun _ _ h => h

/-- A broken loader leaves a message like a real one. -/
theorem break_ (b : Binding.Breakage) :
    Triple env S m (Vm.Has base 0) (Vm.Has base k) (runProgram r (some (.main m)) (Binding.Api.break_ b)) fun _ => Vm.Has base (k + 1) := by
  unfold Binding.Api.break_
  split
  · exact andThen (pushString r _) fun _ => pure fun _ h => h
  · exact andThen (pushNil r) fun _ => pure fun _ h => h

theorem loadString (source : Value) :
    Triple env S m (Vm.Has base 0) (Vm.Has base k) (runProgram r (some (.main m)) (Binding.Api.loadString r source)) fun _ =>
      Vm.Has base (k + 1) := by
  unfold Binding.Api.loadString
  split
  · exact break_ r _
  · exact convert (fun _ => has_zero) fun s =>
      call (execute r nofun nofun (fun _ => has_zero) fun _ => Perform.loadString s)

theorem loadFile (path : Value) :
    Triple env S m (Vm.Has base 0) (Vm.Has base k) (runProgram r (some (.main m)) (Binding.Api.loadFile r path)) fun _ =>
      Vm.Has base (k + 1) := by
  unfold Binding.Api.loadFile
  split
  · exact break_ r _
  · exact convert (fun _ => has_zero) fun p =>
      call (execute r nofun nofun (fun _ => has_zero) fun _ => Perform.loadFile p)

/-- A protected call of a function with `n` arguments. -/
theorem pcall (n : Nat) (j : Int) (hn : n + 1 ≤ k) :
    Triple env S m (Vm.Has base 0) (Vm.Has base k) (runProgram r (some (.main m)) (Binding.Api.pcall n j 0)) fun status vm =>
      vm.Has base (k - (n + 1)) ∧ (1 ≤ j → vm.Has base (k - (n + 1) + 1)) ∧
        (Binding.Api.intOf status ≠ 0 → vm.Has base (k - (n + 1) + 1)) :=
  call (execute r nofun nofun (fun _ => has_zero) fun _ => Perform.pcall n j hn)

theorem doString (source : Value) :
    Triple env S m (Vm.Has base 0) (Vm.Has base 0) (runProgram r (some (.main m)) (Binding.Api.doString r source)) fun status vm =>
      vm.Has base 0 ∧ (Binding.Api.intOf status ≠ 0 → vm.Has base 1) := by
  unfold Binding.Api.doString
  refine andThen (loadString r source) fun status => ?_
  split
  · exact pure fun _ h => ⟨has_zero h, fun _ => h⟩
  · exact (pcall r 0 _ (Nat.le_refl _)).conseq (fun _ h => h) fun _ _ h => ⟨h.1, h.2.2⟩

/-- Registering a module, which may end by any signal. -/
theorem requireF (name opening : Value) (isGlobal : Bool) :
    Triple env (fun _ => True) m (Vm.Has base 0) (Vm.Has base k)
      (runProgram r (some (.main m)) (Binding.Api.requireF r name opening isGlobal)) fun _ => Vm.Has base (k + 1) := by
  unfold Binding.Api.requireF
  refine andThen (nameBytes _ fun _ => has_zero) fun n => ?_
  split
  · exact fail _ fun _ => has_zero
  · exact call_map (execute r nofun nofun (fun _ => has_zero) (Perform.requireF n opening isGlobal)) fun _ _ h => h

/-! ### Programs on whatever machine -/

theorem bare_toText (i : Int) : (Binding.Api.toText r i).All Apart.Bare := by
  unfold Binding.Api.toText
  split
  · exact trivial
  · refine ⟨trivial, fun v => ?_⟩
    cases v <;> exact trivial

theorem bare_typeName (tag : Int) : (Binding.Api.typeName tag).All Apart.Bare := by
  unfold Binding.Api.typeName
  refine Program.All.bind ⟨trivial, fun _ => trivial⟩ fun v => ?_
  split
  · split
    · exact trivial
    · split
      · exact trivial
      · exact trivial
  · exact trivial

theorem bare_loadString (source : Value) : (Binding.Api.loadString r source).All Apart.Bare := by
  unfold Binding.Api.loadString
  split
  · unfold Binding.Api.break_
    split
    · exact Program.All.bind (Program.All.convert fun s => ⟨trivial, fun _ => trivial⟩) fun _ => trivial
    · exact ⟨trivial, fun _ => trivial⟩
  · exact Program.All.convert fun s => ⟨trivial, fun _ => trivial⟩

theorem bare_pushRef (slot : Int) : (Binding.Api.pushRef r slot).All Apart.Bare :=
  ⟨trivial, fun _ => ⟨trivial, fun _ => trivial⟩⟩

theorem bare_ref : (Binding.Api.ref r).All Apart.Bare := ⟨trivial, fun _ => trivial⟩

theorem bare_topMessage : (topMessage r).All Apart.Bare := by
  unfold topMessage
  refine Program.All.bind (bare_toText r _) fun t => ?_
  split
  · exact trivial
  · exact Program.All.bind ⟨trivial, fun _ => trivial⟩ fun _ => Program.All.bind (bare_typeName _) fun _ => trivial

/-- A program of bare calls leaves machine `m` alone on every other machine, and on none. -/
theorem bare {l : Option Nat} (hl : l ≠ some m) {p : Program α} (hb : p.All Apart.Bare) (hp : ∀ vm, P vm → E vm) :
    Triple env S m E P (runProgram r (l.map Handle.main) p) fun _ => P := by
  induction p with
  | done a => exact pure fun _ h => h
  | fail f => exact fail f hp
  | ask c next ih =>
    refine ask ?_ fun v => ih v (hb.2 v)
    cases l with
    | none => exact nowhere r fun h => (h ▸ hb.1 : Apart.Bare .newState)
    | some n => exact elsewhere (fun h => hl (congrArg some h.symm)) r hb.1 hp

end Triple
end LuaHost.Host
