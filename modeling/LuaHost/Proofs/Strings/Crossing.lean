import LuaHost.Proofs.Callbacks.Values
import LuaHost.Proofs.Reports.Words
import LuaHost.Proofs.Strings.Cuts

set_option autoImplicit false

/-!
# How strings reach a machine

Two ways lead from a string of the host into a machine. What is pushed, as a name, a key, a value or an argument,
is passed with its length and arrives whole. A source, a path and the name under which a module is registered end
at their first NUL: an operation cannot tell them from what comes before that NUL, and a success is the success of
just that.
-/

namespace LuaHost.Lua

variable {σ α : Type}

/-- The status with which an attempt ended. -/
def Stack.Attempt.status : Stack.Attempt α → Status
  | .done _ => .ok
  | .failed status _ => status

/-- A source that compiles does so as a whole. -/
theorem M.load_whole {name source : ByteArray} {globals v : Value} {s s' : Sys σ}
    (run : M.load name source globals s = .ok (.ok v) s') : ∃ f a c, Tree.ofSource s.vm.generation source = .ok f ∧
      v = .closure a ∧ s'.host = s.host ∧ s'.vm.closures.get a = .lua f #[c] name := by
  unfold M.load at run
  simp only [M.generation, Bind.bind, EStateM.bind] at run
  split at run
  · cases run
  · cases parsed : Tree.ofSource s.vm.generation source with
    | error e =>
      rw [parsed] at run
      cases run
    | ok f =>
      rw [parsed] at run
      cases run
      exact ⟨f, s.vm.closures.size, s.vm.cells.size, rfl, rfl, rfl, Pool.get_add_self _ _⟩

/-- A source that does not compile gives a status that says so. -/
theorem M.load_refused {name source : ByteArray} {globals : Value} {e : Status × ByteArray} {s s' : Sys σ}
    (run : M.load name source globals s = .ok (.error e) s') : e.1 ≠ .ok := by
  unfold M.load at run
  simp only [M.generation, Bind.bind, EStateM.bind] at run
  split at run
  · cases run
    exact Status.noConfusion
  · cases parsed : Tree.ofSource s.vm.generation source with
    | error f =>
      rw [parsed] at run
      cases run
      dsimp only
      split <;> exact Status.noConfusion
    | ok f =>
      rw [parsed] at run
      cases run

end LuaHost.Lua

namespace LuaHost.Host

open Lua (M Vm Generation)
open Binding (Call Program Runtime Api.intOf)

variable {env : Env} {w w' : World} {α : Type}

/-! ## Strings without a length -/

/-- A call whose strings without a length end at their first NUL. -/
def cutCall : Call → Call
  | .setField i k => .setField i (upToNul k)
  | .getField i k => .getField i (upToNul k)
  | .getGlobal n => .getGlobal (upToNul n)
  | .setGlobal n => .setGlobal (upToNul n)
  | .loadString s => .loadString (upToNul s)
  | .loadFile p => .loadFile (upToNul p)
  | .requireF n f isGlobal => .requireF (upToNul n) f isGlobal
  | c => c

theorem execute_cutCall (r : Runtime) (l : Option Handle) (c : Call) : execute r l (cutCall c) = execute r l c := by
  have carried (env : Env) (h : Handle) : perform env h (cutCall c) = perform env h c := by
    cases c <;> unfold perform cutCall <;> simp only [upToNul_upToNul]
  have checked : checkArguments (cutCall c) = checkArguments c := by
    cases c <;> rfl
  by_cases plain : c = .newState ∨ c = .close
  · obtain rfl | rfl := plain <;> rfl
  · obtain ⟨hn, hc⟩ := not_or.mp plain
    have hn' : cutCall c ≠ .newState := by
      cases c <;> first | exact hn | exact Call.noConfusion
    have hc' : cutCall c ≠ .close := by
      cases c <;> first | exact hc | exact Call.noConfusion
    funext env w
    cases l with
    | none => rw [execute_none r hn, execute_none r hn']
    | some h => rw [execute_eq r h hn hc, execute_eq r h hn' hc', carried, checked]

/-- Calls that differ only behind a NUL are one call. -/
theorem runProgram_cut {r : Runtime} {l : Option Handle} {c d : Call} (same : cutCall c = cutCall d)
    (next : Value → Program α) : runProgram r l (.ask c next) = runProgram r l (.ask d next) := by
  have one : execute r l c = execute r l d := by
    rw [← execute_cutCall r l c, ← execute_cutCall r l d, same]
  unfold runProgram
  rw [one]

section Sources

variable {r : Runtime} {l : Option Handle} {v : Value} {b : ByteArray}

theorem loadString_cut (str : v.IsString) (bytes : sourceBytes v = .ok b) :
    runProgram r l (Binding.Api.loadString r v) = runProgram r l (Binding.Api.loadString r v.untilNul) := by
  unfold Binding.Api.loadString
  split
  · rfl
  · rw [bytes, sourceBytes_untilNul str bytes]
    exact runProgram_cut (c := .loadString b) (d := .loadString (upToNul b)) (congrArg Call.loadString (upToNul_upToNul b).symm) _

theorem loadFile_cut (bytes : pathBytes v = .ok b) :
    runProgram r l (Binding.Api.loadFile r v) = runProgram r l (Binding.Api.loadFile r v.untilNul) := by
  unfold Binding.Api.loadFile
  split
  · rfl
  · rw [bytes, pathBytes_untilNul bytes]
    exact runProgram_cut (c := .loadFile b) (d := .loadFile (upToNul b)) (congrArg Call.loadFile (upToNul_upToNul b).symm) _

theorem requireF_cut {name : Text} (bytes : encode name = .ok b) (f : Value) (isGlobal : Bool) :
    runProgram r l (Binding.Api.requireF r (.text name) f isGlobal) =
      runProgram r l (Binding.Api.requireF r (.text name.untilNul) f isGlobal) := by
  have asks {n : Text} {c : ByteArray} (h : encode n = .ok c) : Binding.Api.requireF r (.text n) f isGlobal =
      if r.generation == .v51 then .fail (.type "'NoneType' object is not callable")
      else .ask (.requireF c f isGlobal) fun _ => .done () := by
    unfold Binding.Api.requireF Binding.Api.nameBytes
    dsimp only
    rw [h]
    change (if _ then _ else _) = _
    split <;> rfl
  rw [asks bytes, asks (encode_untilNul bytes)]
  split
  · rfl
  · exact runProgram_cut (c := .requireF b f isGlobal) (d := .requireF (upToNul b) f isGlobal)
      (congrArg (Call.requireF · f isGlobal) (upToNul_upToNul b).symm) _

end Sources

/-! ## Operations -/

namespace State

variable (s : State) {v : Value} {b : ByteArray}

theorem execute_cut (str : v.IsString) (bytes : sourceBytes v = .ok b) : s.execute v = s.execute v.untilNul := by
  have one (l : Option Handle) : runWith s.runtime l (fun r => Binding.Api.doString r v) =
      runWith s.runtime l fun r => Binding.Api.doString r v.untilNul := by
    unfold runWith Binding.Api.doString
    simp only [runProgram_bind, loadString_cut str bytes]
  unfold execute
  simp only [one]

theorem loadFile_cut (bytes : pathBytes v = .ok b) (shown : Text) : s.loadFile v shown = s.loadFile v.untilNul shown := by
  have one (l : Option Handle) : runWith s.runtime l (fun r => Binding.Api.loadFile r v) =
      runWith s.runtime l fun r => Binding.Api.loadFile r v.untilNul := by
    unfold runWith
    simp only [Host.loadFile_cut bytes]
  unfold loadFile
  simp only [one]

/-- Where modules are registered by one call, a name ends at its first NUL. -/
theorem openLib_cut {name : Text} (bytes : encode name = .ok b) (loader : Loader)
    (registers : (w.runtimes.get s.runtime).registers = true) :
    s.openLib (.text name) loader env w = s.openLib (.text name.untilNul) loader env w := by
  have one {rt : Runtime} (h : rt.registers = true) (f : Lua.Native) :
      s.register rt (.text name) f = s.register rt (.text name.untilNul) f := by
    have call (l : Option Handle) : runWith s.runtime l (fun r => Binding.Api.requireF r (.text name) (.pointer f) true) =
        runWith s.runtime l fun r => Binding.Api.requireF r (.text name.untilNul) (.pointer f) true := by
      unfold runWith
      simp only [requireF_cut bytes]
    unfold register
    simp only [if_pos h, call]
  unfold openLib
  split
  · rfl
  · change (loader.function s.registry >>= fun f => s.register (w.runtimes.get s.runtime) (.text name) f) env w =
      (loader.function s.registry >>= fun f => s.register (w.runtimes.get s.runtime) (.text name.untilNul) f) env w
    simp only [one registers]

end State

/-! ## What a success says -/

/-- The whole of a source has been compiled under a name on a machine of a world, and its function has been called
without arguments, with success. -/
def Completed (env : Env) (w : World) (m : Nat) (g : Generation) (name source : ByteArray) : Prop :=
  ∃ f a c s r s', Lua.Tree.ofSource g source = .ok f ∧ s.host = { w with machines := w.machines.put m .busy } ∧
    s.vm.closures.get a = .lua f #[c] name ∧ r.status = .ok ∧
    Lua.Stack.attempt (Lua.Machine.nested (runner env m) (some none) (.closure a) []) s = .ok r s'

section Successes

variable {m : Nat} {vm : Vm}

/-- A load that goes well leaves a function on top. -/
theorem of_load_ok {chunk : M World (Except (Lua.Status × ByteArray) Lua.Value)} {s s' : Lua.Sys World}
    (run : Lua.Stack.load 0 chunk s = .ok .ok s') (sound : ∀ e s₁, chunk s = .ok (.error e) s₁ → e.1 ≠ .ok) :
    ∃ v s₁, chunk s = .ok (.ok v) s₁ ∧ s' = { s₁ with vm := s₁.vm.pushed 0 v } := by
  obtain ⟨r, s₁, made, rest⟩ := of_bind run
  cases r with
  | ok v =>
    cases rest
    exact ⟨v, s₁, made, rfl⟩
  | error e =>
    have status : e.1 = .ok := (EStateM.Result.ok.inj rest).1
    exact absurd status (sound e s₁ made)

/-- An action on a thread that comes back has been carried out on a machine that runs that thread. -/
theorem of_onThread {t : Nat} {act : M World α} {a : α} {s s' : Lua.Sys World}
    (run : Lua.Stack.onThread t act s = .ok a s') :
    ∃ u u', u.host = s.host ∧ u.vm.closures = s.vm.closures ∧ act u = .ok a u' := by
  obtain ⟨vm, s₁, read, run⟩ := of_bind run
  cases read
  dsimp only at run
  split at run
  · exact ⟨s, s', rfl, rfl, run⟩
  · obtain ⟨_, s₂, moved, run⟩ := of_bind run
    cases moved
    dsimp only at run
    split at run
    · next b u' done =>
      split at run
      · cases run
        exact ⟨⟨{ s.vm with running := t }, s.host⟩, u', rfl, rfl, done⟩
      · cases run
    · split at run <;> cases run

/-- A call without arguments calls the value on top; its success is that of this call. -/
theorem of_protectedCall_ok {run : Lua.Machine → M World Lua.Outcome} {s s' : Lua.Sys World}
    (called : Lua.Stack.protectedCall run 0 0 none none s = .ok .ok s') :
    ∃ u r u', u.host = s.host ∧ u.vm.closures = s.vm.closures ∧ r.status = .ok ∧
      Lua.Stack.attempt (Lua.Machine.nested run (some none) (s.vm.top 0) []) u = .ok r u' := by
  obtain ⟨args, s₁, took, called⟩ := of_bind called
  obtain ⟨f, s₂, popped, called⟩ := of_bind called
  obtain ⟨r, s₃, ran, called⟩ := of_bind called
  have stack : s₁.vm.stackOf 0 = s.vm.stackOf 0 := by
    cases took
    rw [Lua.Vm.stackOf]
    dsimp only
    rw [Pool.get_modify_self]
    change (s.vm.stackOf 0).shrink ((s.vm.stackOf 0).size - 0) = s.vm.stackOf 0
    simp
  have empty : args = [] := by
    cases took
    simp
  have top : f = s.vm.top 0 := by
    cases popped
    change (s₁.vm.stackOf 0).back?.getD .nil = _
    rw [stack]
    rfl
  have host : s₂.host = s.host := by
    cases took
    cases popped
    rfl
  have closures : s₂.vm.closures = s.vm.closures := by
    cases took
    cases popped
    rfl
  have success : r.status = .ok := by
    cases r with
    | done vs => rfl
    | failed status v =>
      cases called
      rfl
  obtain ⟨u, u', hu, hc, done⟩ := of_onThread ran
  rw [empty, top] at done
  exact ⟨u, r, u', hu.trans host, hc.trans closures, success, done⟩

/-- A program is run in a guard: what it gives is what the guard gives. -/
theorem of_guarded_ok {n : Nat} {t : Handle} {act : H α} {a : α} (hm : w.machines.get t.machine = .open vm)
    (run : guarded n (some t) act env w = .ok a w') : ∃ w₁, act env w = .ok a w₁ := by
  obtain ⟨depth, w₀, asked, run⟩ := of_bind_ok run
  rw [runWith_getTop env n hm] at asked
  cases asked
  dsimp only at run
  unfold H.finally_ at run
  cases done : act env w with
  | ok b w₁ =>
    simp only [done] at run
    split at run
    · cases run
      exact ⟨w₁, rfl⟩
    · cases run
  | error e w₁ =>
    simp only [done] at run
    cases e with
    | failure f =>
      dsimp only at run
      split at run <;> cases run
    | signal e => cases run

section Loading

variable {r : Runtime} {c : Call} (chunk : M World (Except (Lua.Status × ByteArray) Lua.Value)) {w₁ : World}
  {status : Value} (hm : w.machines.get m = .open vm) (hn : c ≠ .newState) (hc : c ≠ .close)
  (performs : perform env (.main m) c (taken w m vm) =
    (do return .int ((← Lua.Stack.load 0 chunk).code vm.generation) : M World Value) (taken w m vm))
  (sound : ∀ e s₁, chunk (taken w m vm) = .ok (.error e) s₁ → e.1 ≠ .ok)

include hm hn hc performs sound

/-- A chunk that is loaded with success is on top of the main stack. -/
theorem of_loads (loads : execute r (some (.main m)) c env w = .ok status w₁) (loaded : Api.intOf status = 0) :
    ∃ v s, chunk (taken w m vm) = .ok (.ok v) s ∧ w₁ = putBack { s with vm := s.vm.pushed 0 v } m := by
  obtain ⟨vm', s, hm', performed, rfl⟩ := of_execute_ok hn hc loads
  obtain rfl : vm = vm' := Slot.open.inj (hm.symm.trans hm')
  change perform env (.main m) c (taken w m vm) = _ at performed
  rw [performs] at performed
  obtain ⟨st, s₁, ran, done⟩ := of_bind performed
  cases done
  obtain rfl : st = .ok := Lua.Status.eq_ok_of_code loaded
  obtain ⟨v, s₂, made, rfl⟩ := of_load_ok ran sound
  exact ⟨v, s₂, made, rfl⟩

end Loading

/-- A function that has been loaded whole, and then called with success. -/
theorem completed_of_called {r : Runtime} {name source : ByteArray} {w₁ : World} {s₁ : Lua.Sys World} {v : Lua.Value}
    {called : Value} (load : M.load name source (.table vm.globals) (taken w m vm) = .ok (.ok v) s₁)
    (calls : execute r (some (.main m)) (.pcall 0 Binding.allResults 0) env (putBack { s₁ with vm := s₁.vm.pushed 0 v } m) =
      .ok called w₁) (succeeded : Api.intOf called = 0) : Completed env w m vm.generation name source := by
  obtain ⟨f, a, cell, parsed, rfl, host, closure⟩ := Lua.M.load_whole load
  obtain ⟨vm₁, s₃, hm₁, performed, rfl⟩ := of_execute_ok (c := .pcall 0 Binding.allResults 0) Call.noConfusion Call.noConfusion calls
  cases (putBack_get _ m).symm.trans hm₁
  obtain ⟨g, s₄, read, performed⟩ := of_bind performed
  cases read
  obtain ⟨handler, s₄, read, performed⟩ := of_bind performed
  cases read
  obtain ⟨st, s₄, ran, done⟩ := of_bind performed
  cases done
  obtain rfl : st = .ok := Lua.Status.eq_ok_of_code succeeded
  obtain ⟨u, r, u', hu, hc, success, done⟩ := of_protectedCall_ok ran
  refine ⟨f, a, cell, u, r, u', parsed, ?_, ?_, success, ?_⟩
  · rw [hu]
    simp only [taken, putBack, Handle.main, Pool.put_put, host]
  · rw [hc]
    exact closure
  · rw [← Lua.Vm.top_pushed s₁.vm 0 (.closure a)]
    exact done

variable {s : State} (hs : s.machine = some m) (hm : w.machines.get m = .open vm)

include hs hm

/-- A source that is run with success has been compiled and called as a whole, up to its first NUL. -/
theorem execute_completed {v : Value} {b : ByteArray} (bytes : sourceBytes v = .ok b)
    (intact : (w.runtimes.get s.runtime).brokenChunks = none) (run : s.execute v env w = .ok true w') :
    Completed env w m vm.generation (upToNul b) (upToNul b) := by
  have guards : s.execute v env w = guarded s.runtime (some (.main m)) (do
      let status := Api.intOf (← runWith s.runtime (some (.main m)) fun r => Binding.Api.doString r v)
      if status != codeOf (w.runtimes.get s.runtime) .ok then
        reportTop s.reporter status s.runtime (some (.main m))
        return false
      return true) env w := by
    unfold State.execute State.handle
    rw [hs]
    rfl
  rw [guards] at run
  obtain ⟨w₁, run⟩ := of_guarded_ok hm run
  obtain ⟨status, w₂, ran, rest⟩ := of_bind_ok run
  have zero : Api.intOf status = 0 := by
    by_contra failed
    have stop : (Api.intOf status != codeOf (w.runtimes.get s.runtime) .ok) = true := bne_iff_ne.mpr failed
    dsimp only at rest
    rw [if_pos stop] at rest
    obtain ⟨_, w₃, -, rest⟩ := of_bind_ok rest
    cases rest
  change runProgram (w.runtimes.get s.runtime) (some (.main m)) (Binding.Api.doString (w.runtimes.get s.runtime) v) env w = _ at ran
  unfold Binding.Api.doString Binding.Api.loadString at ran
  rw [intact, bytes, runProgram_bind] at ran
  obtain ⟨first, w₃, loads, ran⟩ := of_bind_ok ran
  obtain ⟨first, w₃, loads, done⟩ := of_asks (c := .loadString b) loads
  cases done
  by_cases loaded : Api.intOf first = 0
  · have go : ¬ (Api.intOf first != (w.runtimes.get s.runtime).code .ok) = true := fun h => bne_iff_ne.mp h loaded
    rw [if_neg go] at ran
    obtain ⟨called, w₄, calls, done⟩ := of_asks (c := .pcall 0 Binding.allResults 0) ran
    cases done
    obtain ⟨f, s₁, made, rfl⟩ := of_loads (c := .loadString b)
      (M.load (upToNul b) (upToNul b) (.table vm.globals)) hm Call.noConfusion Call.noConfusion rfl
      (fun e s₁ failed => Lua.M.load_refused failed) loads loaded
    exact completed_of_called made calls zero
  · have stop : (Api.intOf first != (w.runtimes.get s.runtime).code .ok) = true := bne_iff_ne.mpr loaded
    rw [if_pos stop] at ran
    cases ran
    exact absurd zero loaded

/-- A file that is run with success is the one at the path up to its first NUL, compiled and called as a whole. -/
theorem loadFile_completed {path : Value} {p : ByteArray} {shown : Text} (bytes : pathBytes path = .ok p)
    (intact : (w.runtimes.get s.runtime).brokenFiles = none) (run : s.loadFile path shown env w = .ok true w') :
    ∃ content, w.files.read (upToNul p) = .ok content ∧
      Completed env w m vm.generation (Lua.bytesOf "@" ++ upToNul p) (Lua.Base.fileText vm.generation content) := by
  unfold State.loadFile State.handle at run
  rw [hs] at run
  dsimp only [Option.map_some, Option.isNone_some] at run
  rw [if_neg Bool.false_ne_true] at run
  obtain ⟨rt, w₀, read, run⟩ := of_bind_ok run
  cases read
  obtain ⟨w₁, run⟩ := of_guarded_ok hm run
  obtain ⟨status, w₂, loads, run⟩ := of_bind_ok run
  -- a failure never gives true
  have reported {n : Nat} {l : Option Handle} {code : Int} {fallback : Text} {w w' : World} : ¬ (do
      let message ← runWith n l fun r => Binding.Api.toText r (-1)
      H.report s.reporter code (message.getD fallback) none
      return false : H Bool) env w = .ok true w' := by
    intro run
    obtain ⟨message, w₁, -, run⟩ := of_bind_ok run
    obtain ⟨_, w₂, -, run⟩ := of_bind_ok run
    cases run
  split at run
  · split at run
    · exact (reported run).elim
    · split at run
      · exact (reported run).elim
      · split at run
        · exact (reported run).elim
        · obtain ⟨_, w₃, -, run⟩ := of_bind_ok run
          cases run
  · next loaded =>
    replace loaded : Api.intOf status = 0 := Decidable.byContradiction fun failed => loaded (bne_iff_ne.mpr failed)
    obtain ⟨called, w₃, calls, run⟩ := of_bind_ok run
    split at run
    · next succeeded =>
      change runProgram (w.runtimes.get s.runtime) _ (Binding.Api.loadFile (w.runtimes.get s.runtime) path) env w = _ at loads
      unfold Binding.Api.loadFile at loads
      rw [intact, bytes] at loads
      obtain ⟨first, w₄, loads, done⟩ := of_asks (c := .loadFile p) loads
      cases done
      change runProgram (w₂.runtimes.get s.runtime) (some (.main m)) (Binding.Api.pcall 0 Binding.allResults 0) env w₂ = _ at calls
      obtain ⟨answer, w₄, calls, done⟩ := of_asks (c := .pcall 0 Binding.allResults 0) calls
      cases done
      cases opened : w.files.read (upToNul p) with
      | error e =>
        have refuses : Lua.Base.loadPath (fun w : World => w.files) (upToNul p) (taken w m vm) =
            .ok (.error (.errFile, Lua.Base.openFailure (upToNul p) e)) (taken w m vm) := by
          unfold Lua.Base.loadPath
          have found : (taken w m vm).host.files.read (upToNul p) = .error e := opened
          simp only [M.generation, Bind.bind, EStateM.bind, get, getThe, MonadStateOf.get]
          delta EStateM.get
          simp only [found]
          rfl
        obtain ⟨f, s₁, made, -⟩ := of_loads (c := .loadFile p) _ hm Call.noConfusion Call.noConfusion rfl
          (fun e s₁ failed => by cases failed.symm.trans refuses; exact Lua.Status.noConfusion) loads loaded
        cases made.symm.trans refuses
      | ok content =>
        have compiles : Lua.Base.loadPath (fun w : World => w.files) (upToNul p) (taken w m vm) =
            M.load (Lua.bytesOf "@" ++ upToNul p) (Lua.Base.fileText vm.generation content) (.table vm.globals) (taken w m vm) := by
          unfold Lua.Base.loadPath
          have found : (taken w m vm).host.files.read (upToNul p) = .ok content := opened
          simp only [M.generation, Bind.bind, EStateM.bind, get, getThe, MonadStateOf.get]
          delta EStateM.get
          simp only [found]
          rfl
        obtain ⟨f, s₁, made, rfl⟩ := of_loads (c := .loadFile p) _ hm Call.noConfusion Call.noConfusion rfl
          (fun e s₁ failed => Lua.M.load_refused (compiles.symm.trans failed)) loads loaded
        exact ⟨content, rfl, completed_of_called (compiles.symm.trans made) calls (beq_iff_eq.mp succeeded)⟩
    · exact (reported run).elim

end Successes

/-! ## The law -/

section Pushes

variable {m : Nat} {vm : Vm}

theorem sent_string {g : Generation} {v : Value} {b : ByteArray} (str : v.IsString) (bytes : sourceBytes v = .ok b) :
    sent g v = some (.str b) := by
  cases v with
  | text | bytes | byteArray =>
    unfold sent
    dsimp only
    rw [bytes]
    rfl
  | _ => exact str.elim

/-- Strings are pushed one above the other, each with all its bytes. -/
theorem pushAll_strings {s : Selector} {args : List Value} {bs : List ByteArray} (hs : s.machine = some m)
    (hm : w.machines.get m = .open vm)
    (each : List.Forall₂ (fun v b => v.IsString ∧ sourceBytes v = .ok b) args bs) :
    ∃ vm', s.pushAll args env w = .ok () (w.put m vm') ∧
      vm'.stackOf 0 = vm.stackOf 0 ++ (bs.map Lua.Value.str).toArray := by
  induction each generalizing w vm with
  | nil =>
    refine ⟨vm, ?_, by simp⟩
    rw [World.put_self hm]
    rfl
  | @cons v b args bs string rest ih =>
    have pushed : pushHost s.runtime s.handle v (some s.registry) env w = .ok () (w.put m (vm.pushed 0 (.str b))) := by
      rw [Selector.handle, hs]
      exact pushHost_sent (t := .main m) s.runtime (some s.registry) hm (sent_string string.1 string.2)
    obtain ⟨vm', others, stack⟩ := ih (w := w.put m (vm.pushed 0 (.str b))) (World.get_put _ _ _)
    refine ⟨vm', ?_, ?_⟩
    · unfold Selector.pushAll
      rw [bind_ok pushed, others, World.put_put]
    · rw [stack, Lua.Vm.stackOf_pushed]
      simp

end Pushes

/-- What reaches a machine of strings of the host: `v` with the bytes `b`, a path with the bytes `p`, and the name of a
module. -/
structure Crossing (env : Env) (w : World) (m : Nat) (vm : Vm) (s : State) (v path : Value) (name : Text)
    (b p : ByteArray) : Prop where
  /-- pushed as a name, key, value, argument or result -/
  pushed : ∀ thread runtime registry,
    pushHost runtime (some ⟨m, thread⟩) v registry env w = .ok () (w.pushed ⟨m, thread⟩ vm (.str b))
  /-- pushed for the function that opens a module -/
  named : ∀ thread runtime,
    runWith runtime (some ⟨m, thread⟩) (fun _ => Binding.Api.pushString v) env w = .ok () (w.pushed ⟨m, thread⟩ vm (.str b))
  arguments : ∀ sel args bs, Selector.machine sel = some m →
    List.Forall₂ (fun v b => v.IsString ∧ sourceBytes v = .ok b) args bs →
      ∃ vm', sel.pushAll args env w = .ok () (w.put m vm') ∧
        vm'.stackOf 0 = vm.stackOf 0 ++ (bs.map Lua.Value.str).toArray
  source : s.execute v = s.execute v.untilNul
  executed : ∀ w', s.execute v env w = .ok true w' → Completed env w m vm.generation (upToNul b) (upToNul b)
  file : ∀ shown, s.loadFile path shown = s.loadFile path.untilNul shown
  loaded : ∀ shown w', s.loadFile path shown env w = .ok true w' → ∃ content, w.files.read (upToNul p) = .ok content ∧
    Completed env w m vm.generation (Lua.bytesOf "@" ++ upToNul p) (Lua.Base.fileText vm.generation content)
  registered : (w.runtimes.get s.runtime).registers = true → ∀ loader,
    s.openLib (.text name) loader env w = s.openLib (.text name.untilNul) loader env w
  /-- only a string without NUL is left whole where it has no length -/
  whole : upToNul b = b ↔ (0 : UInt8) ∉ b.data.toList
  cut : (0 : UInt8) ∈ b.data.toList → ∃ rest, b.data.toList = (upToNul b).data.toList ++ 0 :: rest

/-- What is pushed arrives whole. A source, a path and the name of a module that is registered by one call end at
their first NUL, and a success is that of what comes before it, compiled and called as a whole. -/
theorem strings_cross {m : Nat} {vm : Vm} {s : State} {v path : Value} {name : Text} {b p n : ByteArray}
    (hs : s.machine = some m) (hm : w.machines.get m = .open vm) (str : v.IsString) (bytes : sourceBytes v = .ok b)
    (pathed : pathBytes path = .ok p) (named : encode name = .ok n)
    (chunks : (w.runtimes.get s.runtime).brokenChunks = none) (files : (w.runtimes.get s.runtime).brokenFiles = none) :
    Crossing env w m vm s v path name b p where
  pushed thread runtime registry := pushHost_sent (t := ⟨m, thread⟩) runtime registry hm (sent_string str bytes)
  named thread runtime := runWith_pushString (t := ⟨m, thread⟩) runtime hm bytes
  arguments _ _ _ onMachine each := pushAll_strings onMachine hm each
  source := s.execute_cut str bytes
  executed _ run := execute_completed hs hm bytes chunks run
  file shown := s.loadFile_cut pathed shown
  loaded _ _ run := loadFile_completed hs hm pathed files run
  registered registers loader := s.openLib_cut named loader registers
  whole := upToNul_eq_self
  cut := upToNul_cut

/-- A world with one machine on which nothing has run. -/
def lonely : World := { Session.start .v54 with machines := Pool.empty.put 0 (.open (Lua.Stack.newMachine .v54)) }

/-- A source that ends, for the machine, before its second line. -/
theorem strings_cross_commented : ∃ b p n, sourceBytes (.text "x = 1 --\x00\ny = 2") = .ok b ∧
    pathBytes (.text "a.lua\x00b") = .ok p ∧ encode "m\x00n" = .ok n ∧ upToNul b = "x = 1 --".toUTF8 ∧
      upToNul p = "a.lua".toUTF8 ∧ upToNul n = "m".toUTF8 ∧
      Crossing Env.full lonely 0 (Lua.Stack.newMachine .v54) ⟨some 0, true, .default, 0, 0, 0⟩
        (.text "x = 1 --\x00\ny = 2") (.text "a.lua\x00b") "m\x00n" b p :=
  ⟨_, _, _, rfl, rfl, rfl, by decide +kernel, by decide +kernel, by decide +kernel,
    strings_cross (n := ⟨#[109, 0, 110]⟩) rfl (Pool.get_put_self _ _ _) trivial rfl rfl rfl rfl rfl⟩

end LuaHost.Host
