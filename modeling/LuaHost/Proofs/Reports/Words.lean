import LuaHost.Proofs.Reports.Calls

set_option autoImplicit false

/-!
# Attempts and the words for what they leave

A load or a protected call has a status. When it fails it leaves a value on top of the stack, and what is
said of the failure is the text of this value, or names its type.
-/

namespace LuaHost.Host

open Lua (M Vm Generation)
open Binding (Program Runtime Api.intOf)

inductive Phase where
  | load
  | call

/-- The programs whose status tells of failures. -/
inductive Attempt : Phase → (Runtime → Program Value) → Prop
  | file (path : Value) : Attempt .load fun r => Binding.Api.loadFile r path
  | source (text : Value) : Attempt .load fun r => Binding.Api.loadString r text
  | call (arguments results : Int) : Attempt .call fun _ => Binding.Api.pcall arguments results 0

/-- The text that the interface gives for a value: that of a string or a number. -/
def textOf (r : Runtime) (g : Generation) (v : Option Lua.Value) : Option Text :=
  if r.hidesTexts then none else (Lua.Arith.text? g (v.getD .nil)).map Text.ofUtf8

/-- The name of the type of a value. -/
def kindOf : Option Lua.Value → Text
  | some v => v.typeName
  | none => "no value"

/-- The words for an error value. -/
def wordsFor (text : Option Text) (v : Option Lua.Value) : Text :=
  text.getD (("(error object is a " : Text) ++ kindOf v ++ (" value)" : Text))

variable {env : Env} {w w' : World}

/-! ## The value on top -/

/-- Reading the text of the top value changes at most that value. -/
theorem text?_top (t : Nat) (s : Lua.Sys World) :
    ∃ s', Lua.Stack.text? t (-1) s = .ok (Lua.Arith.text? s.vm.generation (s.vm.top t)) s' ∧
      (Lua.Arith.text? s.vm.generation (s.vm.top t) = none → s' = s) := by
  unfold Lua.Stack.text?
  simp only [Lua.Stack.contents, M.thread, M.generation, Bind.bind, EStateM.bind, Pure.pure, EStateM.pure, value_top]
  cases Lua.Arith.text? s.vm.generation (s.vm.top t) with
  | none => exact ⟨s, rfl, fun _ => rfl⟩
  | some b =>
    generalize s.vm.top t = v
    generalize Lua.Stack.place _ _ _ = place
    cases v <;> cases place <;> exact ⟨_, rfl, fun none => by cases none⟩

/-- The answer to a call for the text of the top value. -/
theorem Perform.toLString_top {h : Handle} {s s' : Lua.Sys World} {r : Option ByteArray}
    (read : Lua.Stack.text? h.thread (-1) s = .ok r s') :
    perform env h (.toLString (-1)) s = .ok ((r.map Value.bytes).getD .none) s' := by
  have index : int32 (-1) = -1 := by decide
  unfold perform
  simp only [M.generation, Bind.bind, EStateM.bind, index, read]
  cases r with
  | none => rfl
  | some b => rfl

/-- The name of a type, or of a place without a value. -/
theorem Perform.typeName_kind (h : Handle) (v : Option Lua.Value) (s : Lua.Sys World) :
    perform env h (.typeName (tagOf v)) s = .ok (.bytes (match v with
      | some v => v.tag.name.toUTF8
      | none => "no value".toUTF8)) s := by
  cases v with
  | none => rfl
  | some v =>
    change perform env h (.typeName v.tag.code) s = .ok (.bytes v.tag.name.toUTF8) s
    cases v.tag <;> rfl

theorem typeName_named {r : Runtime} {t : Handle} (v : Option Lua.Value) {name : Text}
    (run : runProgram r (some t) (Binding.Api.typeName (tagOf v)) env w = .ok name w') : name = kindOf v := by
  unfold Binding.Api.typeName at run
  rw [runProgram_bind] at run
  obtain ⟨b, w₁, asked, rest⟩ := of_bind_ok run
  obtain ⟨b', w₂, performed, done⟩ := of_asks (c := .typeName (tagOf v)) asked
  cases done
  obtain ⟨vm', s, hm', answered, rfl⟩ := of_execute_ok (c := .typeName _) nofun nofun performed
  cases answered.symm.trans (Perform.typeName_kind t v (taken w t.machine vm'))
  cases v with
  | none =>
    cases rest
    rfl
  | some v =>
    change name = Text.ofString v.tag.name
    dsimp only at rest
    cases h : v.tag <;> rw [h] at rest <;> cases rest <;> rfl

section Top

variable {n : Nat} {t : Handle} {vm : Vm} (hm : w.machines.get t.machine = .open vm)

include hm

theorem runWith_toText {x : Option Text} (run : runWith n (some t) (fun r => Binding.Api.toText r (-1)) env w = .ok x w') :
    x = textOf (w.runtimes.get n) vm.generation (vm.top? t.thread) ∧ (x = none → w' = w) := by
  change runProgram (w.runtimes.get n) (some t) (Binding.Api.toText (w.runtimes.get n) (-1)) env w = .ok x w' at run
  generalize w.runtimes.get n = r at run ⊢
  unfold Binding.Api.toText at run
  unfold textOf
  cases hides : r.hidesTexts with
  | true =>
    rw [hides] at run
    cases run
    exact ⟨rfl, fun _ => rfl⟩
  | false =>
    rw [hides, if_neg Bool.false_ne_true, runProgram_bind] at run
    obtain ⟨v, w₁, asked, rest⟩ := of_bind_ok run
    obtain ⟨v', w₂, performed, done⟩ := of_asks (c := .toLString (-1)) asked
    cases done
    obtain ⟨vm', s, hm', answered, rfl⟩ := of_execute_ok (c := .toLString _) nofun nofun performed
    cases hm.symm.trans hm'
    obtain ⟨s', read, same⟩ := text?_top t.thread (taken w t.machine vm)
    have answer := answered.symm.trans (Perform.toLString_top read)
    obtain ⟨rfl, rfl⟩ : v = ((Lua.Arith.text? vm.generation (vm.top t.thread)).map Value.bytes).getD .none ∧ s = s' := by
      cases answer
      exact ⟨rfl, rfl⟩
    change x = (Lua.Arith.text? vm.generation (vm.top t.thread)).map Text.ofUtf8 ∧ _
    change Lua.Arith.text? vm.generation (vm.top t.thread) = none → _ at same
    cases text : Lua.Arith.text? vm.generation (vm.top t.thread) with
    | none =>
      rw [text] at rest
      cases rest
      refine ⟨rfl, fun _ => ?_⟩
      rw [same text, putBack_taken hm]
    | some b =>
      rw [text] at rest
      cases rest
      exact ⟨rfl, nofun⟩

/-- Asking for the type of the top value. -/
theorem runWith_type {tag : Value} (run : runWith n (some t) (fun _ => Binding.Api.type (-1)) env w = .ok tag w') :
    tag = .int (tagOf (vm.top? t.thread)) ∧ w' = w := by
  change runProgram (w.runtimes.get n) (some t) (Binding.Api.type (-1)) env w = .ok tag w' at run
  obtain ⟨v, w₁, asked, done⟩ := of_asks (c := .type (-1)) run
  cases done
  obtain ⟨vm', s, hm', answered, rfl⟩ := of_execute_ok (c := .type _) nofun nofun asked
  cases hm.symm.trans hm'
  have answer := answered.symm.trans (Perform.type_top t (taken w t.machine vm))
  cases answer
  exact ⟨rfl, putBack_taken hm⟩

/-- The words for the top value, as they are reported. -/
theorem runWith_topMessage {message : Text} (run : runWith n (some t) topMessage env w = .ok message w') :
    message = wordsFor (textOf (w.runtimes.get n) vm.generation (vm.top? t.thread)) (vm.top? t.thread) := by
  change runProgram (w.runtimes.get n) (some t) (topMessage (w.runtimes.get n)) env w = .ok message w' at run
  unfold topMessage at run
  rw [runProgram_bind] at run
  obtain ⟨x, w₁, read, rest⟩ := of_bind_ok run
  obtain ⟨text, same⟩ := runWith_toText (n := n) hm read
  rw [← text]
  cases x with
  | some x =>
    cases rest
    rfl
  | none =>
    cases same rfl
    dsimp only at rest
    rw [runProgram_bind] at rest
    obtain ⟨tag, w₂, asked, rest⟩ := of_bind_ok rest
    obtain ⟨rfl, rfl⟩ := runWith_type (n := n) hm asked
    rw [runProgram_bind] at rest
    obtain ⟨name, w₃, named, rest⟩ := of_bind_ok rest
    cases typeName_named (vm.top? t.thread) named
    cases rest
    rfl

end Top

/-! ## Attempts -/

/-- A sequence of actions that comes back is one of each that do. -/
theorem of_bind {α β : Type} {act : M World α} {next : α → M World β} {b : β} {s s' : Lua.Sys World}
    (run : (act >>= next) s = .ok b s') : ∃ a s₁, act s = .ok a s₁ ∧ next a s₁ = .ok b s' := by
  simp only [Bind.bind, EStateM.bind] at run
  cases e : act s with
  | ok a s₁ =>
    rw [e] at run
    exact ⟨a, s₁, rfl, run⟩
  | error x s₁ =>
    rw [e] at run
    cases run

/-- Compiling leaves a value. -/
theorem load_leaves {t : Nat} {chunk : M World (Except (Lua.Status × ByteArray) Lua.Value)} {s s' : Lua.Sys World}
    {status : Lua.Status} (run : Lua.Stack.load t chunk s = .ok status s') : (s'.vm.top? t).isSome := by
  obtain ⟨r, s₁, -, rest⟩ := of_bind run
  cases r with
  | ok f =>
    cases rest
    exact Option.isSome_of_eq_some (Lua.Vm.top?_pushed s₁.vm t f)
  | error r =>
    cases rest
    exact Option.isSome_of_eq_some (Lua.Vm.top?_pushed s₁.vm t (.str r.2))

/-- A protected call that fails leaves a value. -/
theorem protectedCall_leaves {run : Lua.Machine → M World Lua.Outcome} {t a : Nat} {k : Option Nat} {handler : Option Lua.Value}
    {s s' : Lua.Sys World} {status : Lua.Status} (called : Lua.Stack.protectedCall run t a k handler s = .ok status s')
    (failed : status ≠ .ok) : (s'.vm.top? t).isSome := by
  obtain ⟨args, s₁, -, called⟩ := of_bind called
  obtain ⟨f, s₂, -, called⟩ := of_bind called
  obtain ⟨outcome, s₃, -, called⟩ := of_bind called
  cases outcome with
  | done vs =>
    obtain ⟨u, s₄, -, called⟩ := of_bind called
    cases called
    exact absurd rfl failed
  | failed st v =>
    cases called
    exact Option.isSome_of_eq_some (Lua.Vm.top?_pushed s₃.vm t v)

/-- Compiling a source is not heard. -/
theorem loadString_unheard {r : Runtime} {l : Option Handle} {source status : Value}
    (run : runProgram r l (Binding.Api.loadString r source) env w = .ok status w') : w.Unheard w' := by
  refine runProgram_unheard ?_ run
  unfold Binding.Api.loadString
  split
  · exact Mute.break_ _
  · exact .convert fun _ => ⟨trivial, fun _ => trivial⟩

section Leaves

variable {r : Runtime} {l : Option Handle} {status : Value}

/-- An open machine, with a value on top of the thread of a handle if `failed`. -/
def World.Leaves (w : World) (l : Option Handle) (failed : Prop) : Prop :=
  ∃ t vm, l = some t ∧ w.machines.get t.machine = .open vm ∧ (failed → (vm.top? t.thread).isSome)

theorem World.Leaves.imp {p q : Prop} (h : w.Leaves l p) (hi : q → p) : w.Leaves l q := by
  obtain ⟨t, vm, ht, hm, leaves⟩ := h
  exact ⟨t, vm, ht, hm, fun hq => leaves (hi hq)⟩

/-- A call of a machine that, if `failed`, leaves a value. -/
theorem execute_leaves {failed : Prop} {c : Binding.Call} {v : Value} (hn : c ≠ .newState) (hc : c ≠ .close)
    (leaves : ∀ t s s', perform env t c s = .ok v s' → failed → (s'.vm.top? t.thread).isSome)
    (run : execute r l c env w = .ok v w') : w'.Leaves l failed := by
  cases l with
  | none =>
    rw [execute_none r hn] at run
    cases run
  | some t =>
    obtain ⟨vm, s, -, performed, rfl⟩ := of_execute_ok hn hc run
    exact ⟨t, s.vm, rfl, putBack_get s _, leaves t _ _ performed⟩

theorem break_leaves {b : Binding.Breakage} (run : runProgram r l (Binding.Api.break_ b) env w = .ok status w') :
    w'.Leaves l True := by
  have pushes {c : Binding.Call} {v : Value} {u : Lua.Value} (h : ∀ t (s : Lua.Sys World), perform env t c s =
      .ok .none { s with vm := s.vm.pushed t.thread u }) (t : Handle) (s s' : Lua.Sys World)
      (run : perform env t c s = .ok v s') (_ : True) : (s'.vm.top? t.thread).isSome := by
    cases run.symm.trans (h t s)
    exact Option.isSome_of_eq_some (Lua.Vm.top?_pushed _ _ _)
  unfold Binding.Api.break_ at run
  cases hm : b.message with
  | none =>
    rw [hm] at run
    dsimp only at run
    rw [runProgram_bind] at run
    obtain ⟨u, w₁, pushed, rest⟩ := of_bind_ok run
    cases rest
    obtain ⟨v, w₂, performed, done⟩ := of_asks (c := .pushNil) pushed
    cases done
    exact execute_leaves (c := .pushNil) nofun nofun (pushes fun _ _ => rfl) performed
  | some m =>
    rw [hm] at run
    dsimp only at run
    rw [runProgram_bind] at run
    obtain ⟨u, w₁, pushed, rest⟩ := of_bind_ok run
    cases rest
    unfold Binding.Api.pushString at pushed
    cases hb : sourceBytes (.text m) with
    | error f =>
      rw [hb] at pushed
      cases pushed
    | ok bytes =>
      rw [hb] at pushed
      obtain ⟨v, w₂, performed, done⟩ := of_asks (c := .pushLString bytes) pushed
      cases done
      exact execute_leaves (c := .pushLString _) nofun nofun (pushes fun _ _ => rfl) performed

/-- An attempt leaves its machine open, and a value on top if it fails. -/
theorem Attempt.leaves {phase : Phase} {p : Runtime → Program Value} (h : Attempt phase p)
    (run : runProgram r l (p r) env w = .ok status w') : w'.Leaves l (Api.intOf status ≠ 0) := by
  cases h with
  | file path =>
    unfold Binding.Api.loadFile at run
    dsimp only at run
    cases hb : r.brokenFiles with
    | some b =>
      rw [hb] at run
      exact (break_leaves run).imp fun _ => trivial
    | none =>
      rw [hb] at run
      cases hp : pathBytes path with
      | error f =>
        rw [hp] at run
        cases run
      | ok bytes =>
        rw [hp] at run
        obtain ⟨v, w₁, performed, done⟩ := of_asks (c := .loadFile bytes) run
        cases done
        refine execute_leaves (c := .loadFile bytes) nofun nofun (fun t s s' loaded _ => ?_) performed
        obtain ⟨g, s₁, -, loaded⟩ := of_bind loaded
        obtain ⟨st, s₂, loaded, answered⟩ := of_bind loaded
        cases answered
        exact load_leaves loaded
  | source text =>
    unfold Binding.Api.loadString at run
    dsimp only at run
    cases hb : r.brokenChunks with
    | some b =>
      rw [hb] at run
      exact (break_leaves run).imp fun _ => trivial
    | none =>
      rw [hb] at run
      cases hp : sourceBytes text with
      | error f =>
        rw [hp] at run
        cases run
      | ok bytes =>
        rw [hp] at run
        obtain ⟨v, w₁, performed, done⟩ := of_asks (c := .loadString bytes) run
        cases done
        refine execute_leaves (c := .loadString bytes) nofun nofun (fun t s s' loaded _ => ?_) performed
        obtain ⟨g, s₁, -, loaded⟩ := of_bind loaded
        obtain ⟨st, s₂, loaded, answered⟩ := of_bind loaded
        obtain ⟨globals, s₃, -, loaded⟩ := of_bind loaded
        cases answered
        exact load_leaves loaded
  | call a k =>
    obtain ⟨v, w₁, performed, done⟩ := of_asks (c := .pcall a k 0) run
    cases done
    refine execute_leaves (c := .pcall _ _ _) nofun nofun (fun t s s' called failed => ?_) performed
    obtain ⟨g, s₁, first, called⟩ := of_bind called
    cases first
    obtain ⟨handler, s₂, -, called⟩ := of_bind called
    obtain ⟨st, s₃, tried, answered⟩ := of_bind called
    cases answered
    refine protectedCall_leaves tried fun ok => failed ?_
    rw [ok]
    cases s.vm.generation <;> rfl

end Leaves

end LuaHost.Host
