import LuaHost.Proofs.Rooms.Calls

set_option autoImplicit false

/-!
# Room that programs of calls take

What the programs of calls need on the stack of a thread, and what they leave there. Some convert what they are
given first, and may fail before they have touched the stack.
-/

namespace LuaHost.Host.Affords

open Lua (M Room Thread Covers Reads)
open Binding (Call Program Runtime)

variable {env : Env} {L : Layout} {h : Handle} {α β : Type} {F T : Thread → Prop} {U : α → Thread → Prop}
  {R : Room → Prop} {n k low : Nat}

theorem ask {r : Runtime} {l : Option Handle} {c : Call} {next : Value → Program α} {V : Value → Thread → Prop}
    (hc : Affords env L h F T (Host.execute r l c) V) (k : ∀ v, Affords env L h F (V v) (runProgram r l (next v)) U) :
    Affords env L h F T (runProgram r l (.ask c next)) U := bind hc k

theorem call_bind {r : Runtime} {l : Option Handle} {c : Call} {next : Value → Program α} {V : Value → Thread → Prop}
    (hc : Affords env L h F T (Host.execute r l c) V) (k : ∀ v, Affords env L h F (V v) (runProgram r l (next v)) U) :
    Affords env L h F T (runProgram r l (Program.call c >>= next)) U := ask hc k

/-- Programs one after another. -/
theorem andThen {r : Runtime} {l : Option Handle} {p : Program β} {next : β → Program α} {V : β → Thread → Prop}
    (hp : Affords env L h F T (runProgram r l p) V) (k : ∀ b, Affords env L h F (V b) (runProgram r l (next b)) U) :
    Affords env L h F T (runProgram r l (p >>= next)) U := by
  rw [runProgram_bind]
  exact bind hp k

/-- A program that makes one call and gives its answer. -/
theorem call {r : Runtime} {l : Option Handle} {c : Call} {U : Value → Thread → Prop}
    (hc : Affords env L h F T (Host.execute r l c) U) : Affords env L h F T (runProgram r l (Program.call c)) U :=
  ask hc fun _ => pure fun _ h => h

/-- A program that makes one call and goes on with a value that its answer decides. -/
theorem call_map {r : Runtime} {l : Option Handle} {c : Call} {f : Value → α} {V : Thread → Prop}
    (hc : Affords env L h F T (Host.execute r l c) fun _ => V) :
    Affords env L h F T (runProgram r l (.ask c fun v => .done (f v))) fun _ => V := ask hc fun _ => pure fun _ h => h

/-- What a program does under every runtime it does under the one of that number. -/
theorem runWith {runtime : Nat} {l : Option Handle} {p : Runtime → Program α}
    (hp : ∀ r, Affords env L h F T (runProgram r l (p r)) U) : Affords env L h F T (Host.runWith runtime l p) U :=
  bind (calm (Calm.runtime (Q := False) _) False.elim) hp

theorem fail (f : Failure) (hF : ∀ th, T th → F th) : Affords env L h F T (H.fail f : H α) U :=
  ⟨fun _ hw => hw.mono hF⟩

/-- A conversion in a program. -/
theorem convert {r : Runtime} {l : Option Handle} {x : Except Failure β} {next : β → Program α} (hF : ∀ th, T th → F th)
    (hx : ∀ b, Affords env L h F T (runProgram r l (next b)) U) :
    Affords env L h F T (runProgram r l (Program.ofExcept x >>= next)) U := by
  cases x with
  | ok b => exact hx b
  | error f => exact fail f hF

variable (r : Runtime)

/-- A call that only looks at the machine. -/
theorem reads {c : Call} (hn : c ≠ .newState) (hc : c ≠ .close) (ok : checkArguments c = .ok ())
    (looks : Reads (perform env h c)) : Affords env L h F T (Host.execute r (some h) c) fun _ => T :=
  execute r hn hc (.inl ok) fun _ => .read looks

/-- A call that pushes one value. -/
theorem pushes {c : Call} (hc : Pushes c) (hF : checkArguments c = .ok () ∨ ∀ th, th.Holds R n → F th)
    (hR : ∀ r, R r → r.Promises n 1) :
    Affords env L h F (Thread.Holds R n) (Host.execute r (some h) c) fun _ => Thread.Holds R (n + 1) := by
  have other {d : Call} (hd : ¬ Pushes d) : c ≠ d := fun same => hd (same ▸ hc)
  exact execute r (other id) (other id) hF fun ok => Perform.covers_pushes hc ok hR

theorem getTop : Affords env L h F (Thread.Holds R n) (runProgram r (some h) Binding.Api.getTop) fun v th =>
    th.Holds R n ∧ v = .int n := call (execute r nofun nofun (.inl rfl) fun _ => Perform.covers_getTop)

theorem setTop : Affords env L h F (Thread.Stands low) (runProgram r (some h) (Binding.Api.setTop low)) fun _ =>
    Thread.Ready := call_map (execute r nofun nofun (.inl rfl) fun _ => Perform.covers_setTop)

theorem checkStack (asked : Nat) (keeps : Room.Keeps n R) :
    Affords env L h F (Thread.Holds R n) (runProgram r (some h) (Binding.Api.checkStack asked)) fun _ =>
      Thread.Holds (fun r => R r ∧ r.Promises n asked) n :=
  call_map (execute r nofun nofun (.inl rfl) fun _ => Perform.covers_checkStack asked keeps)

theorem type (i : Int) : Affords env L h F T (runProgram r (some h) (Binding.Api.type i)) fun _ => T :=
  call (reads r nofun nofun rfl (.bind .generation fun _ => .bind (.typeCode _ _) fun _ => .pure _))

theorem typeName (tag : Int) (hF : ∀ th, T th → F th) :
    Affords env L h F T (runProgram r (some h) (Binding.Api.typeName tag)) fun _ => T := by
  unfold Binding.Api.typeName
  refine call_bind (reads r nofun nofun rfl (Perform.typeName tag)) fun v => ?_
  split
  · split
    · exact pure fun _ h => h
    · split
      · exact pure fun _ h => h
      · exact fail _ hF
  · exact pure fun _ h => h

theorem toNumber (i : Int) : Affords env L h F T (runProgram r (some h) (Binding.Api.toNumber i)) fun _ => T :=
  call (reads r nofun nofun rfl (Perform.toNumber i))

theorem toBoolean (i : Int) : Affords env L h F T (runProgram r (some h) (Binding.Api.toBoolean i)) fun _ => T :=
  call_map (reads r nofun nofun rfl (Perform.toBoolean i))

theorem isInteger (i : Int) : Affords env L h F T (runProgram r (some h) (Binding.Api.isInteger r i)) fun _ => T := by
  unfold Binding.Api.isInteger
  split
  · exact call_map (reads r nofun nofun rfl (Perform.isInteger i))
  · exact pure fun _ h => h

theorem toInteger (i : Int) (hF : ∀ th, T th → F th) :
    Affords env L h F T (runProgram r (some h) (Binding.Api.toInteger r i)) fun _ => T := by
  unfold Binding.Api.toInteger
  split
  · exact andThen (toNumber r i) fun v => convert hF fun n => pure fun _ h => h
  · exact call (reads r nofun nofun rfl (Perform.toInteger i))

theorem toText (i : Int) : Affords env L h F (Thread.Holds R n) (runProgram r (some h) (Binding.Api.toText r i)) fun _ =>
    Thread.Holds R n := by
  unfold Binding.Api.toText
  split
  · exact pure fun _ h => h
  · refine call_bind (execute r nofun nofun (.inl rfl) fun _ => Perform.covers_toLString i) fun v => ?_
    split
    · exact pure fun _ h => h
    · exact pure fun _ h => h

section

variable (hR : ∀ r, R r → r.Promises n 1)

include hR

theorem pushValue (i : Int) : Affords env L h F (Thread.Holds R n) (runProgram r (some h) (Binding.Api.pushValue i))
    fun _ => Thread.Holds R (n + 1) := call_map (pushes r trivial (.inl rfl) hR)

theorem pushNil : Affords env L h F (Thread.Holds R n) (runProgram r (some h) Binding.Api.pushNil)
    fun _ => Thread.Holds R (n + 1) := call_map (pushes r trivial (.inl rfl) hR)

theorem pushBoolean (v : Value) : Affords env L h F (Thread.Holds R n) (runProgram r (some h) (Binding.Api.pushBoolean v))
    fun _ => Thread.Holds R (n + 1) := call_map (pushes r trivial (.inl rfl) hR)

theorem pushGlobals : Affords env L h F (Thread.Holds R n) (runProgram r (some h) (Binding.Api.pushGlobals r))
    fun _ => Thread.Holds R (n + 1) := by
  unfold Binding.Api.pushGlobals
  split
  · exact call_map (pushes r trivial (.inl rfl) hR)
  · exact call_map (pushes r trivial (.inl rfl) hR)

theorem pushRef (slot : Int) : Affords env L h F (Thread.Holds R n) (runProgram r (some h) (Binding.Api.pushRef r slot))
    fun _ => Thread.Holds R (n + 1) := ask (pushes r trivial (.inl rfl) hR) fun _ => type r (-1)

theorem ref : Affords env L h F (Thread.Holds R (n + 1)) (runProgram r (some h) (Binding.Api.ref r))
    fun _ => Thread.Holds R n := call (execute r nofun nofun (.inl rfl) fun _ => Perform.covers_ref _ hR)

variable (hF : ∀ th, th.Holds R n → F th)

include hF

theorem pushNumber (x : Value) : Affords env L h F (Thread.Holds R n) (runProgram r (some h) (Binding.Api.pushNumber x))
    fun _ => Thread.Holds R (n + 1) := call_map (pushes r trivial (.inr hF) hR)

theorem pushInteger (x : Value) : Affords env L h F (Thread.Holds R n) (runProgram r (some h) (Binding.Api.pushInteger x))
    fun _ => Thread.Holds R (n + 1) := call_map (pushes r trivial (.inr hF) hR)

theorem pushString (v : Value) : Affords env L h F (Thread.Holds R n) (runProgram r (some h) (Binding.Api.pushString v))
    fun _ => Thread.Holds R (n + 1) := convert hF fun _ => call_map (pushes r trivial (.inl rfl) hR)

theorem pushCFunction (f : Value) : Affords env L h F (Thread.Holds R n) (runProgram r (some h) (Binding.Api.pushCFunction f))
    fun _ => Thread.Holds R (n + 1) := call_map (pushes r trivial (.inr hF) hR)

/-- A broken loader leaves a message like a real one. -/
theorem break_ (b : Binding.Breakage) : Affords env L h F (Thread.Holds R n) (runProgram r (some h) (Binding.Api.break_ b))
    fun _ => Thread.Holds R (n + 1) := by
  unfold Binding.Api.break_
  split
  · exact andThen (pushString r hR hF _) fun _ => pure fun _ h => h
  · exact andThen (pushNil r hR) fun _ => pure fun _ h => h

theorem loadString (source : Value) : Affords env L h F (Thread.Holds R n) (runProgram r (some h) (Binding.Api.loadString r source))
    fun _ => Thread.Holds R (n + 1) := by
  unfold Binding.Api.loadString
  split
  · exact break_ r hR hF _
  · exact convert hF fun s => call (pushes r trivial (.inl rfl) hR)

end

/-- A protected call of a function with `k` arguments. -/
theorem pcall (sparing : env.Sparing L) {results : Int} (below : ∀ r, R r → r.Promises n 1)
    (wanted : ∀ r, R r → r.Promises n results.toNat) (fills : ∀ r e, R r → R (r.fill e)) :
    Affords env L h F (Thread.Holds R (n + k + 1)) (runProgram r (some h) (Binding.Api.pcall k results 0)) fun status th =>
      ∃ j, (Binding.Api.intOf status ≠ 0 → j = 1) ∧ (0 ≤ results → j = results.toNat ∨ j = 1) ∧
        th.Holds (fun r => R r ∧ (results < 0 → r.Promises n 2 → r.Promises (n + j) 1)) (n + j) :=
  of_opened fun opened => call (execute r nofun nofun (.inl rfl) fun _ => Perform.covers_pcall sparing opened below wanted fills)

end LuaHost.Host.Affords
