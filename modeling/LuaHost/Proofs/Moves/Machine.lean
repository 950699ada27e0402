import LuaHost.Proofs.Links.Lockstep
import LuaHost.Proofs.Moves.Basic

set_option autoImplicit false

/-!
# Moves of a machine that runs

While a machine runs, its state is with it and not in the world. Put back at every moment, it shows the
moves that the world makes. An ordinary call is within the frame of these moves; the calls that use slots
or give functions are followed to the end.
-/

namespace LuaHost.Host

open Lua (M Vm Within Tied)
open Binding (Call)

/-- The state that an action ends in, however it ends. -/
def final {ε σ α : Type} : EStateM.Result ε σ α → σ
  | .ok _ s => s
  | .error _ s => s

/-- The world with machine `m` put back. -/
def putBack (s : Lua.Sys World) (m : Nat) : World := { s.host with machines := s.host.machines.put m (.open s.vm) }

theorem putBack_get (s : Lua.Sys World) (m : Nat) : (putBack s m).machines.get m = .open s.vm := Pool.get_put_self _ _ _

/-- A machine taken out of the world and put back. -/
theorem putBack_busy {w : World} {m : Nat} {vm : Vm} (hm : w.machines.get m = .open vm) :
    putBack ⟨vm, { w with machines := w.machines.put m .busy }⟩ m = w := by
  have hsize : m < w.machines.size := World.Open.lt_size ⟨vm, hm⟩
  have same : w.machines.put m (.open vm) = w.machines := by
    rw [← hm]
    exact Pool.put_get _ hsize
  rw [putBack]
  dsimp only
  rw [Pool.put_put, same]

theorem put_putBack (s : Lua.Sys World) (m : Nat) (slot : Slot) :
    (putBack s m).machines.put m slot = s.host.machines.put m slot := Pool.put_put _ _ _ _

theorem putBack_step (s : Lua.Sys World) (m : Nat) (vm : Vm) (h : s.vm.Private vm) :
    Move (putBack s m) (putBack { s with vm } m) := by
  have step := Move.step (putBack_get s m) h
  rwa [put_putBack] at step

/-- Running machine `m` the world makes moves, if it was sound. -/
def along (m : Nat) : Lua.Frame World where
  rel s s' := (putBack s m).Sound → Moves (putBack s m) (putBack s' m)
  ends _ := True
  refl _ _ := .refl
  trans h k hs := (h hs).trans (k ((h hs).sound hs))
  quiet s vm h _ := (putBack_step s m vm h.keeps).moves
  error _ _ := trivial
  unwinding _ _ := trivial
  fault _ _ := trivial

instance (m : Nat) : (along m).Threaded := ⟨fun s vm h _ => (putBack_step s m vm h).moves⟩

theorem moves_of_within {m : Nat} {α : Type} {act : M World α} (h : Within (along m) act) (s : Lua.Sys World)
    (hs : (putBack s m).Sound) : Moves (putBack s m) (putBack (final (act s)) m) := by
  refine h.outcome s ?_ ?_
  · intro a t ht
    exact ht hs
  · intro e t ht _
    exact ht hs

/-- The functions of an environment make moves only. -/
def Env.Follows (env : Env) : Prop := ∀ m, (env.natives m).Within (along m)

/-! ## Calls -/

theorem note_within {m : Nat} {e : Event} (h : ∀ w, Move w { w with journal := e :: w.journal }) :
    Within (along m) (note e) := by
  constructor
  intro s _
  exact (h (putBack s m)).moves

variable {env : Env}

/-- An ordinary call is tied to itself by every link that ties the functions of the environments. -/
theorem perform_tied {L : Lua.Link World World} [L.Threaded] {env env' : Env} (h : Handle)
    (hn : L.Natives (env.natives h.machine) (env'.natives h.machine)) (hf : L.Files World.files World.files)
    (hg : Tied L (note (.collected h.machine)) (note (.collected h.machine))) {c : Call} (hc : Ordinary c) :
    Tied L (perform env h c) (perform env' h c) := by
  have runs := Lua.Machine.run_tied hn stepLimit
  have services := Lua.Machine.services_tied runs
  have answerInt {act act' : M World Int} (h' : Tied L act act') : Tied L (answerInt act) (answerInt act') :=
    .bind h' fun _ => .pure _
  have answerBool {act act' : M World Bool} (h' : Tied L act act') : Tied L (answerBool act) (answerBool act') :=
    .bind h' fun _ => .pure _
  have quiet {act act' : M World Unit} (h' : Tied L act act') : Tied L (quiet act) (quiet act') :=
    .bind h' fun _ => .pure _
  have code {g : Lua.Generation} {act act' : M World Lua.Status} (h' : Tied L act act') :
      Tied L (do return .int ((← act).code g) : M World Value) (do return .int ((← act').code g)) :=
    .bind h' fun _ => .pure _
  refine .bind .generation fun g => ?_
  cases c with
  | newState | close | ref | unref | pushCClosure | requireF => exact hc.elim
  | openLibs => exact quiet Lua.Library.openAll_tied
  | getTop => exact answerInt (.bind (Lua.Stack.size_tied _) fun _ => .pure _)
  | setTop i => exact quiet (Lua.Stack.setTop_tied _ _ _)
  | checkStack n => exact answerBool (Lua.Stack.checkRoom_tied _ _ _)
  | pushValue i => exact quiet (.bind (Lua.Stack.value_tied _ _) fun _ => Lua.Stack.push_tied _ _)
  | type i => exact answerInt (Lua.Stack.typeCode_tied _ _)
  | typeName tag =>
    dsimp only
    split
    · exact .pure _
    · exact .pure _
  | toLString i =>
    refine .bind (Lua.Stack.text?_tied _ _) fun r => ?_
    split
    · exact .pure _
    · exact .pure _
  | toBoolean i => exact answerBool (.bind (Lua.Stack.value_tied _ _) fun _ => .pure _)
  | next i => exact answerBool (Lua.Stack.next_tied _ _)
  | pushNil => exact quiet (Lua.Stack.push_tied _ _)
  | pushNumber x =>
    dsimp only
    split
    · exact quiet (Lua.Stack.push_tied _ _)
    · exact .pure _
  | pushInteger n =>
    dsimp only
    split
    · exact quiet (Lua.Stack.push_tied _ _)
    · exact .pure _
  | pushLString s => exact quiet (Lua.Stack.push_tied _ _)
  | pushBoolean b => exact quiet (Lua.Stack.push_tied _ _)
  | createTable a b => exact quiet (.bind (.newTable _) fun _ => Lua.Stack.push_tied _ _)
  | setField i k => exact quiet (Lua.Stack.setEntry_tied services _ _ _)
  | setTable i =>
    exact quiet (.bind (Lua.Stack.value_tied _ _) fun _ => .bind (Lua.Stack.value_tied _ _) fun _ =>
      .bind (Lua.Stack.value_tied _ _) fun _ =>
        .bind (Lua.Stack.onThread_tied (Lua.M.setEntry_tied services.call _ _ _) _) fun _ =>
          .discard (Lua.Stack.popAll_tied _ _))
  | loadString s => exact code (Lua.Stack.loadText_tied _ _)
  | getField i k => exact quiet (Lua.Stack.getEntry_tied services _ _ _)
  | getTable i =>
    exact quiet (.bind (Lua.Stack.value_tied _ _) fun _ => .bind (Lua.Stack.pop_tied _) fun _ =>
      .bind (Lua.Stack.onThread_tied (Lua.M.getEntry_tied services.call _ _) _) fun _ => Lua.Stack.push_tied _ _)
  | rawGetI i n =>
    exact quiet (.bind (Lua.Stack.tableAt_tied _ _) fun _ => .bind (.table _) fun _ => Lua.Stack.push_tied _ _)
  | toNumber i => exact .bind (Lua.Stack.number_tied _ _) fun _ => .pure _
  | pcall n k e =>
    have attempt (handler : Option Lua.Value) := Lua.Stack.protectedCall_tied runs h.thread n.toNat
      (if k < 0 then none else some k.toNat) handler
    dsimp only
    split
    · exact .bind (.pure _) fun handler => .bind (attempt handler) fun _ => .pure _
    · exact .bind (Lua.Stack.value?_tied _ _) fun handler => .bind (attempt handler) fun _ => .pure _
  | loadFile p => exact code (Lua.Stack.load_tied (Lua.Base.loadPath_tied hf _) _)
  | gc =>
    exact .bind (Lua.Stack.onThread_tied (Lua.M.collect_tied services.callPlain) _) fun _ =>
      .bind hg fun _ => .pure _
  | getGlobal n =>
    exact quiet (.bind Lua.Stack.globals_tied fun _ =>
      .bind (Lua.Stack.onThread_tied (Lua.M.getEntry_tied services.call _ _) _) fun _ => Lua.Stack.push_tied _ _)
  | setGlobal n =>
    exact quiet (.bind Lua.Stack.globals_tied fun _ => .bind (Lua.Stack.value_tied _ _) fun _ =>
      .bind (Lua.Stack.onThread_tied (Lua.M.setEntry_tied services.call _ _ _) _) fun _ =>
        .discard (Lua.Stack.pop_tied _))
  | isInteger i => exact answerBool (Lua.Stack.isInteger_tied _ _)
  | toInteger i => exact answerInt (Lua.Stack.integer_tied _ _)

/-- Any call is tied to itself by a link that ties what the host writes down and what it gives to the machine. -/
theorem perform_whole {L : Lua.Link World World} [L.Whole] {env env' : Env} (h : Handle)
    (hn : L.Natives (env.natives h.machine) (env'.natives h.machine)) (hf : L.Files World.files World.files)
    (noted : ∀ e, Tied L (note e) (note e)) (handed : ∀ f, Tied L (given h.machine f) (given h.machine f)) (c : Call) :
    Tied L (perform env h c) (perform env' h c) := by
  have services := Lua.Machine.services_tied (Lua.Machine.run_tied hn stepLimit)
  have quiet {act act' : M World Unit} (h' : Tied L act act') : Tied L (quiet act) (quiet act') :=
    .bind h' fun _ => .pure _
  by_cases hc : Ordinary c
  · exact perform_tied h hn hf (noted _) hc
  refine .bind .generation fun g => ?_
  cases c with
  | newState => exact .pure _
  | close =>
    exact .bind (noted _) fun _ => .bind (Lua.Stack.onThread_tied (Lua.M.finalizeAll_tied services.callPlain) _)
      fun _ => .pure _
  | ref n =>
    exact .bind (.bind (Lua.Stack.value_tied _ _) fun v => .bind (Lua.Stack.pin_tied _) fun slot =>
      .bind (noted _) fun _ => .pure _) fun _ => .pure _
  | unref n slot => exact quiet (.bind (Lua.Stack.unpin_tied _) fun _ => noted _)
  | pushCClosure f =>
    dsimp only
    split
    · exact quiet (.bind (handed _) fun _ => Lua.Stack.push_tied _ _)
    · exact .pure _
  | requireF n f isGlobal =>
    dsimp only
    split
    · exact quiet (.bind (handed _) fun _ => Lua.Stack.require_tied services _ _ _ _)
    · exact .pure _
  | _ => exact absurd trivial hc

/-- An error that no protected call awaits ends two hosts alike. -/
theorem unprotected_inStep {R : World → World → Prop} {act act' : M World Value} (h : Lua.InStep R act act') :
    Lua.InStep R (unprotected act) (unprotected act') := by
  intro vm w w' related
  have after := h vm w w' related
  unfold unprotected
  dsimp only
  generalize act ⟨vm, w⟩ = result at after ⊢
  generalize act' ⟨vm, w'⟩ = result' at after ⊢
  cases after with
  | ok related => exact .ok related
  | @error e vm w w' related =>
    cases e with
    | fault f => exact .error related
    | error status v =>
      dsimp only
      split
      · exact .error related
      · exact .error related
    | unwinding status v =>
      dsimp only
      split
      · exact .error related
      · exact .error related

/-- An ordinary call keeps to every frame to which the functions of the environment keep. -/
theorem perform_frame {F : Lua.Frame World} [F.Threaded] (h : Handle) (hn : (env.natives h.machine).Within F)
    (hg : Within F (note (.collected h.machine))) {c : Call} (hc : Ordinary c) : Within F (perform env h c) :=
  (perform_tied h hn.natives (Lua.Link.ofFrame_files _) hg.tied hc).within

theorem perform_within (he : env.Follows) (h : Handle) {c : Call} (hc : Ordinary c) :
    Within (along h.machine) (perform env h c) :=
  perform_frame h (he h.machine) (note_within fun _ => .collected _) hc

end LuaHost.Host
