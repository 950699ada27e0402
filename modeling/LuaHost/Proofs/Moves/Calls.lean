import LuaHost.Proofs.Moves.Machine
import LuaHost.Proofs.Neutral.Triples

set_option autoImplicit false

/-!
# Calls that use slots or give functions

What pinning, releasing, loading and giving a function do to the world, exactly. A machine that is not
open answers every call by a fault.
-/

namespace LuaHost.Host

open Lua (M Vm Within Signal)
open Binding (Call Program Runtime)

variable {env : Env} {α : Type} {m : Nat} {w : World} {vm : Vm}

/-! ## Actions on a machine -/

/-- A machine taken out of the world. -/
def taken (w : World) (m : Nat) (vm : Vm) : Lua.Sys World := ⟨vm, { w with machines := w.machines.put m .busy }⟩

theorem putBack_taken (hm : w.machines.get m = .open vm) : putBack (taken w m vm) m = w := putBack_busy hm

theorem onMachine_ok {act : M World α} {a : α} {s : Lua.Sys World} (hm : w.machines.get m = .open vm)
    (h : act (taken w m vm) = .ok a s) : H.onMachine m act env w = .ok a (putBack s m) := by
  simp only [H.onMachine, hm]
  rw [← taken, h]
  rfl

theorem onMachine_error {act : M World α} {e : Signal} {s : Lua.Sys World} (hm : w.machines.get m = .open vm)
    (h : act (taken w m vm) = .error e s) : H.onMachine m act env w = .error (.signal e) (putBack s m) := by
  simp only [H.onMachine, hm]
  rw [← taken, h]
  rfl

theorem onMachine_final (act : M World α) (hm : w.machines.get m = .open vm) :
    final (H.onMachine m act env w) = putBack (final (act (taken w m vm))) m := by
  cases h : act (taken w m vm) with
  | ok a s => rw [onMachine_ok hm h, final, final]
  | error e s => rw [onMachine_error hm h, final, final]

theorem onMachine_closed (act : M World α) (hm : ¬ w.Open m) :
    H.onMachine m act env w = .error (.signal (.fault .closedHandle)) w := by
  unfold H.onMachine
  split
  · next vm h => exact absurd ⟨vm, h⟩ hm
  · rfl

/-- What holds after an action on a machine, whether it is open or not. -/
theorem onMachine_moves {act : M World α} (h : ∀ vm, w.machines.get m = .open vm →
    Moves w (putBack (final (act (taken w m vm))) m)) : Moves w (final (H.onMachine m act env w)) := by
  by_cases hm : w.Open m
  · obtain ⟨vm, hm⟩ := hm
    rw [onMachine_final act hm]
    exact h vm hm
  · rw [onMachine_closed act hm]
    exact .refl

/-- What throws without protection throws, perhaps something else. -/
theorem unprotected_throws {act : M World Value} {s t : Lua.Sys World} {e : Signal} (h : act s = .error e t) :
    ∃ e', unprotected act s = .error e' t := by
  unfold unprotected
  rw [h]
  cases e with
  | fault f => exact ⟨_, rfl⟩
  | error status v =>
    dsimp only
    split
    · exact ⟨_, rfl⟩
    · exact ⟨_, rfl⟩
  | unwinding status v =>
    dsimp only
    split
    · exact ⟨_, rfl⟩
    · exact ⟨_, rfl⟩

theorem final_unprotected (act : M World Value) (s : Lua.Sys World) : final (unprotected act s) = final (act s) := by
  cases h : act s with
  | ok v t =>
    rw [unprotected_ok h]
  | error e t =>
    obtain ⟨e', he⟩ := unprotected_throws h
    rw [he]
    rfl

/-- A call that comes back changes the world as it changes the machine. -/
theorem execute_ok {r : Runtime} {h : Handle} {c : Call} {v : Value} {s : Lua.Sys World} (hn : c ≠ .newState)
    (hc : c ≠ .close) (ha : checkArguments c = .ok ()) (hm : w.machines.get h.machine = .open vm)
    (hp : perform env h c (taken w h.machine vm) = .ok v s) :
    execute r (some h) c env w = .ok v (putBack s h.machine) := by
  rw [execute_eq r h hn hc, ha]
  exact onMachine_ok hm (unprotected_ok hp)

theorem execute_fault {r : Runtime} {h : Handle} {c : Call} {f : Lua.Fault} {s : Lua.Sys World} (hn : c ≠ .newState)
    (hc : c ≠ .close) (ha : checkArguments c = .ok ()) (hm : w.machines.get h.machine = .open vm)
    (hp : perform env h c (taken w h.machine vm) = .error (.fault f) s) :
    execute r (some h) c env w = .error (.signal (.fault f)) (putBack s h.machine) := by
  rw [execute_eq r h hn hc, ha]
  refine onMachine_error hm ?_
  unfold unprotected
  simp only [hp]

/-- A call on a machine that is not open. -/
theorem execute_closed (r : Runtime) {h : Handle} {c : Call} (hn : c ≠ .newState) (hc : c ≠ .close)
    (ha : checkArguments c = .ok ()) (hm : ¬ w.Open h.machine) :
    execute r (some h) c env w = .error (.signal (.fault .closedHandle)) w := by
  rw [execute_eq r h hn hc, ha]
  exact onMachine_closed _ hm

theorem execute_none (r : Runtime) {c : Call} (hn : c ≠ .newState) :
    execute r none c env w = .error (.signal (.fault .nullHandle)) w := by
  unfold execute
  cases c <;> first | exact absurd rfl hn | rfl

/-- A call that has come back was carried out on an open machine. -/
theorem of_execute_ok {r : Runtime} {h : Handle} {c : Call} {v : Value} {w' : World} (hn : c ≠ .newState)
    (hc : c ≠ .close) (run : execute r (some h) c env w = .ok v w') :
    ∃ vm s, w.machines.get h.machine = .open vm ∧ perform env h c (taken w h.machine vm) = .ok v s ∧
      w' = putBack s h.machine := by
  rw [execute_eq r h hn hc] at run
  cases ha : checkArguments c with
  | error f =>
    rw [ha] at run
    cases run
  | ok u =>
    rw [ha] at run
    by_cases hm : w.Open h.machine
    · obtain ⟨vm, hm⟩ := hm
      cases hp : perform env h c (taken w h.machine vm) with
      | ok v' s =>
        dsimp only at run
        rw [onMachine_ok hm (unprotected_ok hp)] at run
        cases run
        exact ⟨vm, s, hm, hp, rfl⟩
      | error e s =>
        obtain ⟨e', he⟩ := unprotected_throws hp
        dsimp only at run
        rw [onMachine_error hm he] at run
        cases run
    · dsimp only at run
      rw [onMachine_closed _ hm] at run
      cases run

theorem execute_moves {r : Runtime} {h : Handle} {c : Call} (hn : c ≠ .newState) (hc : c ≠ .close)
    (hp : ∀ vm, w.machines.get h.machine = .open vm →
      Moves w (putBack (final (perform env h c (taken w h.machine vm))) h.machine)) :
    Moves w (final (execute r (some h) c env w)) := by
  rw [execute_eq r h hn hc]
  cases checkArguments c with
  | error f => exact .refl
  | ok _ =>
    refine onMachine_moves fun vm hm => ?_
    rw [final_unprotected]
    exact hp vm hm

/-! ## Slots -/

theorem value?_top (t : Nat) (s : Lua.Sys World) :
    Lua.Stack.value? t (-1) s = .ok (s.vm.top? t) s := by
  unfold Lua.Stack.value? Lua.Vm.top?
  simp only [Lua.Stack.contents, M.thread, M.generation, Bind.bind, EStateM.bind, Pure.pure, EStateM.pure]
  generalize (s.vm.threads.get t).stack = vs
  by_cases hs : vs.size = 0
  · have place : Lua.Stack.place s.vm.generation vs.size (-1) = .absent := by
      rw [hs]
      cases s.vm.generation <;> rfl
    have empty : vs = #[] := Array.eq_empty_of_size_eq_zero hs
    rw [place, empty]
    rfl
  · have place : Lua.Stack.place s.vm.generation vs.size (-1) = .slot (vs.size - 1) :=
      Lua.Runs.place_neg Nat.one_pos (Nat.one_le_iff_ne_zero.mpr hs) (by decide)
    rw [place]
    simp only [EStateM.pure, Array.back?_eq_getElem?]

theorem value_top (t : Nat) (s : Lua.Sys World) : Lua.Stack.value t (-1) s = .ok (s.vm.top t) s := by
  unfold Lua.Stack.value
  simp only [Bind.bind, EStateM.bind, value?_top]
  rfl

/-- The number of the type of a value that may be missing. -/
def tagOf : Option Lua.Value → Int
  | some v => v.tag.code
  | none => -1

namespace Perform

/-- Asking for the type of the top value changes nothing. -/
theorem type_top (h : Handle) (s : Lua.Sys World) :
    perform env h (.type (-1)) s = .ok (.int (tagOf (s.vm.top? h.thread))) s := by
  have index : int32 (-1) = -1 := by decide
  unfold perform
  simp only [answerInt, Lua.Stack.typeCode, M.generation, Bind.bind, EStateM.bind, index, value?_top]
  cases s.vm.top? h.thread with
  | none => rfl
  | some v => rfl

/-- Pinning the top of a stack. -/
theorem pins (env : Env) (h : Handle) (i : Int) (s : Lua.Sys World) :
    (∃ slot vm, s.vm.Pins (s.vm.top h.thread) slot vm ∧ perform env h (.ref i) s = .ok (.int slot)
        ⟨vm, { s.host with journal := .pinned h.machine (s.vm.top h.thread) slot :: s.host.journal }⟩) ∨
      ∃ vm, s.vm.Edits (· = Lua.Stack.freeListSlot s.vm.generation) vm ∧
        perform env h (.ref i) s = .error (.fault .registryFull) { s with vm } := by
  have run (r : EStateM.Result Signal (Lua.Sys World) Int) (hr : Lua.Stack.pin h.thread s = r) :
      perform env h (.ref i) s = match r with
        | .ok slot t => .ok (.int slot) { t with
            host := { t.host with journal := .pinned h.machine (s.vm.top h.thread) slot :: t.host.journal } }
        | .error e t => .error e t := by
    unfold perform
    simp only [answerInt, M.generation, Bind.bind, EStateM.bind, value_top, hr]
    cases r with
    | ok slot t => rfl
    | error e t => rfl
  obtain ⟨slot, vm, hp, pins⟩ | ⟨vm, hp, edits⟩ := Lua.Stack.pin_pins h.thread s
  · exact .inl ⟨slot, vm, pins, run _ hp⟩
  · exact .inr ⟨vm, edits, run _ hp⟩

/-- Releasing a slot. -/
theorem unpins (env : Env) (h : Handle) (i slot : Int) (s : Lua.Sys World) :
    ∃ vm, (s.vm.Unpins (int32 slot) vm ∧ vm.threads = s.vm.threads) ∧ perform env h (.unref i slot) s = .ok .none
      ⟨vm, { s.host with journal := .unpinned h.machine (int32 slot) :: s.host.journal }⟩ := by
  obtain ⟨vm, hp, unpins⟩ := Lua.Stack.unpin_unpins (int32 slot) s
  refine ⟨vm, unpins, ?_⟩
  unfold perform
  simp only [quiet, M.generation, Bind.bind, EStateM.bind, hp]
  rfl

/-! ### Functions -/

theorem give_putBack (m : Nat) (f : Lua.Native) (s : Lua.Sys World) :
    (putBack s m).give m f = putBack { s with host := s.host.give m f } m := by
  cases f with
  | foreign id =>
    unfold World.give putBack
    dsimp only
    split
    · rfl
    · rfl
  | _ => rfl

/-- A function that a machine may have is given to it, and something runs with it. -/
theorem gives {m : Nat} {f : Lua.Native} {next : Lua.Value → M World Unit} (h : ∀ v, Within (along m) (next v))
    (s : Lua.Sys World) (hs : (putBack s m).Sound) (hf : (putBack s m).Grants m f) :
    Moves (putBack s m) (putBack (final ((quiet (Host.given m f >>= next)) s)) m) := by
  have gave : Move (putBack s m) (putBack { s with host := s.host.give m f } m) := by
    rw [← give_putBack]
    exact .gave ⟨s.vm, putBack_get s m⟩ hf
  have rest : Within (along m) (quiet (M.native f >>= next)) := .bind (.bind (.native f) h) fun _ => .pure _
  exact gave.moves.trans (moves_of_within rest _ (gave.sound hs))

/-- A call that gives a function to the machine. -/
theorem pushCClosure_moves (h : Handle) (f : Lua.Native) (s : Lua.Sys World) (hs : (putBack s h.machine).Sound)
    (hf : (putBack s h.machine).Grants h.machine f) :
    Moves (putBack s h.machine) (putBack (final (perform env h (.pushCClosure (.pointer f)) s)) h.machine) := by
  have run : perform env h (.pushCClosure (.pointer f)) s =
      quiet (Host.given h.machine f >>= fun v => Lua.Stack.push h.thread v) s := rfl
  rw [run]
  exact gives (fun v => Lua.Stack.push_within _ v) s hs hf

theorem requireF_moves (he : env.Follows) (h : Handle) (name : ByteArray) (f : Lua.Native) (isGlobal : Bool)
    (s : Lua.Sys World) (hs : (putBack s h.machine).Sound) (hf : (putBack s h.machine).Grants h.machine f) :
    Moves (putBack s h.machine) (putBack (final (perform env h (.requireF name (.pointer f) isGlobal) s)) h.machine) := by
  have services := Lua.Machine.services_within (Lua.Machine.run_within (he h.machine) stepLimit)
  have run : perform env h (.requireF name (.pointer f) isGlobal) s =
      quiet (Host.given h.machine f >>= fun v =>
        Lua.Stack.require (Host.services env h.machine) h.thread (upToNul name) v isGlobal) s := rfl
  rw [run]
  exact gives (fun v => Lua.Stack.require_within services _ _ v _) s hs hf

/-! ### Chunks -/

/-- Compiling leaves the function of the chunk on top, or fails. -/
theorem loads (env : Env) (h : Handle) (bytes : ByteArray) (s : Lua.Sys World) :
    ∃ status vm, perform env h (.loadString bytes) s = .ok (.int status) { s with vm } ∧
      (status = 0 → vm.Compiled (upToNul bytes) (vm.top h.thread)) := by
  obtain ⟨status, vm, hl, hc⟩ := Lua.Stack.loadText_compiles h.thread (upToNul bytes) s
  refine ⟨status.code s.vm.generation, vm, ?_, fun hs => hc (Lua.Status.eq_ok_of_code hs)⟩
  unfold perform
  simp only [M.generation, Bind.bind, EStateM.bind, hl]
  rfl

end Perform

end LuaHost.Host
