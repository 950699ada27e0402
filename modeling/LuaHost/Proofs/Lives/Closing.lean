import LuaHost.Proofs.Lives.Lawful

set_option autoImplicit false

/-!
# Closing

A state that closes goes one of three ways: it has no machine, it only borrows one, or it collects, closes
its registry and then the machine it owns. Either it comes back so or the machine throws across the host.
-/

namespace LuaHost.Host

open Lua (M Vm Within Signal Generation)
open Binding (Call Program Runtime)

variable {g : Generation} {env : Env} {w w' : World} {α β : Type}

/-! ## Registries -/

/-- Gives back the slots of chunks. -/
def unpinChunks (runtime m : Nat) (chunks : List (Text × Int)) : H Unit :=
  chunks.forM fun (_, slot) => runWith runtime (some (.main m)) fun rt => Binding.Api.unref rt slot

theorem unpinChunks_frees (env : Env) (runtime m : Nat) (chunks : List (Text × Int)) (w : World) :
    (∃ w', unpinChunks runtime m chunks env w = .ok () w' ∧ Frees m (chunks.map Prod.snd) w w') ∨
      ∃ e w', unpinChunks runtime m chunks env w = .error (.signal e) w' := by
  induction chunks generalizing w with
  | nil => exact .inl ⟨w, rfl, .nil w⟩
  | cons chunk rest ih =>
    have run : unpinChunks runtime m (chunk :: rest) env w =
        ((runWith runtime (some (.main m)) fun rt => Binding.Api.unref rt chunk.2) >>= fun _ =>
          unpinChunks runtime m rest : H Unit) env w := rfl
    rw [run]
    obtain ⟨vm, vm', hm, unpins, ok⟩ | ⟨e, error⟩ := runWith_unref env runtime (.main m) chunk.2 w
    · rw [bind_ok ok]
      obtain ⟨w', done, frees⟩ | ⟨e, w', error⟩ := ih { w with
        machines := w.machines.put m (.open vm'), journal := .unpinned m (int32 chunk.2) :: w.journal }
      · exact .inl ⟨w', done, .cons hm unpins frees⟩
      · exact .inr ⟨e, w', error⟩
    · exact .inr ⟨e, w, bind_error error⟩

/-- A registry that closes gives back the slots of its chunks, if it still has a machine. -/
theorem closeRegistry_dismissal (env : Env) (id : Nat) (w : World) :
    (∃ w', Registry.close id env w = .ok () w' ∧ Dismissal w id w') ∨
      ∃ e w', Registry.close id env w = .error (.signal e) w' := by
  let r := w.registries.get id
  let dismiss : H Unit := Registry.modify id fun r => { r with chunks := [], machine := none }
  have run : Registry.close id env w =
      (if r.machine.isSome then
        (r.chunks.forM fun (_, slot) => runWith r.runtime r.handle fun rt => Binding.Api.unref rt slot) >>= fun _ => dismiss
      else dismiss) env w := rfl
  rw [run]
  cases hm : r.machine with
  | none => exact .inl ⟨w.dismiss id, rfl, .idle hm⟩
  | some m =>
    rw [Option.isSome_some, if_pos rfl, Registry.handle, hm]
    change (∃ w', (unpinChunks r.runtime m r.chunks >>= fun _ => dismiss) env w = .ok () w' ∧ _) ∨
      ∃ e w', (unpinChunks r.runtime m r.chunks >>= fun _ => dismiss) env w = .error (.signal e) w'
    obtain ⟨w', done, frees⟩ | ⟨e, w', error⟩ := unpinChunks_frees env r.runtime m r.chunks w
    · exact .inl ⟨w'.dismiss id, bind_ok done, .freed hm frees⟩
    · exact .inr ⟨e, w', bind_error error⟩

/-! ## Machines -/

/-- A call on an open machine comes back or throws. -/
theorem execute_cases (env : Env) (r : Runtime) (h : Handle) (c : Call) {vm : Vm} (hn : c ≠ .newState) (hc : c ≠ .close)
    (ha : checkArguments c = .ok ()) (hm : w.machines.get h.machine = .open vm) :
    (∃ v s, perform env h c (taken w h.machine vm) = .ok v s ∧ execute r (some h) c env w = .ok v (putBack s h.machine)) ∨
      ∃ e w', execute r (some h) c env w = .error (.signal e) w' := by
  cases hp : perform env h c (taken w h.machine vm) with
  | ok v s => exact .inl ⟨v, s, rfl, execute_ok hn hc ha hm hp⟩
  | error e s =>
    obtain ⟨e', he⟩ := unprotected_throws hp
    refine .inr ⟨e', putBack s h.machine, ?_⟩
    rw [execute_eq r h hn hc, ha]
    exact onMachine_error hm he

/-- Collecting is written down when it is done. -/
theorem Perform.collects (he : env.Follows) {h : Handle} {s t : Lua.Sys World} (hs : (putBack s h.machine).Sound) {v : Value}
    (run : perform env h .gc s = .ok v t) : ∃ es, t.host.journal = .collected h.machine :: (es ++ s.host.journal) := by
  have whole : perform env h .gc s =
      match Lua.Stack.onThread h.thread (M.collect (services env h.machine).callPlain) s with
      | .ok _ t => .ok (.int 0) { t with host := { t.host with journal := .collected h.machine :: t.host.journal } }
      | .error e t => .error e t := by
    unfold perform
    simp only [M.generation, Bind.bind, EStateM.bind]
    cases Lua.Stack.onThread h.thread (M.collect (services env h.machine).callPlain) s with
    | ok _ t => rfl
    | error e t => rfl
  have services := Lua.Machine.services_within (Lua.Machine.run_within (he h.machine) stepLimit)
  have finalizes : Within (along h.machine)
      (Lua.Stack.onThread h.thread (M.collect (Host.services env h.machine).callPlain)) :=
    Lua.Stack.onThread_within (M.collect_within services.callPlain) _
  have moves := moves_of_within finalizes s hs
  rw [whole] at run
  cases ended : Lua.Stack.onThread h.thread (M.collect (Host.services env h.machine).callPlain) s with
  | ok _ u =>
    rw [ended] at run moves
    cases run
    obtain ⟨es, he, -⟩ := moves.continues.journal
    exact ⟨es, congrArg _ he⟩
  | error e u =>
    rw [ended] at run
    cases run

/-- Collecting is one call. -/
theorem collect_run (env : Env) (w : World) {s : State} {m : Nat} (hm : s.machine = some m) : s.collect env w =
    match execute (w.runtimes.get s.runtime) (some (.main m)) .gc env w with
    | .ok _ w' => .ok () w'
    | .error e w' => .error e w' := by
  have called := runWith_call (w := w) env s.runtime (some (.main m)) (fun _ => .gc) id
  unfold State.collect State.handle
  rw [hm]
  simp only [Option.isSome_some, if_true, Option.map_some, Functor.discard, Functor.mapConst, EStateM.map, Function.comp_apply]
  change runWith s.runtime (some (.main m)) (fun _ => Binding.Api.collect) env w = _ at called
  rw [called]
  cases execute (w.runtimes.get s.runtime) (some (.main m)) .gc env w with
  | ok v w' => rfl
  | error e w' => rfl

/-- A state collects the garbage of its machine: the collection is the last thing done. -/
theorem collect_last (he : env.Follows) (hs : w.Sound) {s : State} {m : Nat} (hm : s.machine = some m) :
    (∃ w' es, s.collect env w = .ok () w' ∧ Moves w w' ∧ w'.journal = .collected m :: (es ++ w.journal)) ∨
      ∃ e w', s.collect env w = .error (.signal e) w' := by
  have moves : Moves w (final (s.collect env w)) := (Leads.collect s).after he hs w .refl
  have run := collect_run env w hm
  by_cases ho : w.Open m
  · obtain ⟨vm, hv⟩ := ho
    obtain ⟨v, t, hp, ok⟩ | ⟨e, w', error⟩ := execute_cases env (w.runtimes.get s.runtime) (.main m) .gc
      nofun nofun rfl hv
    · rw [ok] at run
      rw [run] at moves
      have same : putBack (taken w m vm) (Handle.main m).machine = w := putBack_taken hv
      obtain ⟨es, last⟩ := Perform.collects he (same.symm ▸ hs) hp
      exact .inl ⟨putBack t m, es, run, moves, last⟩
    · rw [error] at run
      exact .inr ⟨e, w', run⟩
  · rw [execute_closed (c := .gc) _ nofun nofun rfl ho] at run
    exact .inr ⟨_, _, run⟩

/-- Closing a machine is written down first; then finalizers run. -/
theorem Perform.closes (he : env.Follows) (h : Handle) (s : Lua.Sys World) (hs : (putBack s h.machine).Sound) :
    Moves ((putBack s h.machine).noteEnd h.machine) (putBack (final (perform env h .close s)) h.machine) := by
  let noted : Lua.Sys World := { s with host := { s.host with journal := .closed h.machine :: s.host.journal } }
  have services := Lua.Machine.services_within (Lua.Machine.run_within (he h.machine) stepLimit)
  have finalizes : Within (along h.machine) (do
      Lua.Stack.onThread 0 (M.finalizeAll (Host.services env h.machine).callPlain)
      return Value.none : M World Value) :=
    .bind (Lua.Stack.onThread_within (M.finalizeAll_within services.callPlain) _) fun _ => .pure _
  exact moves_of_within finalizes noted ⟨hs.runtimes, hs.routines, hs.given, hs.states, hs.stored⟩

/-- Closing a machine is one call, after which it is no more. -/
theorem close_run (env : Env) (w : World) (runtime m : Nat) :
    runWith runtime (some (.main m)) (fun _ => Binding.Api.close) env w =
      match H.onMachine m (unprotected (perform env (.main m) .close)) env w with
      | .ok _ w' => .ok () { w' with machines := w'.machines.put m .closed }
      | .error e w' => .error e w' := by
  have run := runWith_call (w := w) env runtime (some (.main m)) (fun _ => .close) fun _ => ()
  have whole : execute (w.runtimes.get runtime) (some (.main m)) .close env w =
      (H.onMachine m (unprotected (perform env (.main m) .close)) >>= fun v => (do
        modify fun w => { w with machines := w.machines.put m .closed }
        return v : H Value)) env w := rfl
  rw [whole] at run
  refine Eq.trans run ?_
  cases ended : H.onMachine m (unprotected (perform env (.main m) .close)) env w with
  | ok v w' =>
    rw [bind_ok ended]
    rfl
  | error e w' => rw [bind_error ended]

/-- A machine that is closed has run its finalizers, or it throws. -/
theorem closeMachine (he : env.Follows) (hs : w.Sound) (runtime m : Nat) :
    (∃ w', runWith runtime (some (.main m)) (fun _ => Binding.Api.close) env w =
        .ok () { w' with machines := w'.machines.put m .closed } ∧ Moves (w.noteEnd m) w') ∨
      ∃ e w', runWith runtime (some (.main m)) (fun _ => Binding.Api.close) env w = .error (.signal e) w' := by
  have run := close_run env w runtime m
  by_cases ho : w.Open m
  · obtain ⟨vm, hv⟩ := ho
    have same : putBack (taken w m vm) (Handle.main m).machine = w := putBack_taken hv
    have moves := Perform.closes he (.main m) (taken w m vm) (same.symm ▸ hs)
    rw [same] at moves
    cases hp : unprotected (perform env (.main m) .close) (taken w m vm) with
    | ok v s =>
      rw [onMachine_ok hv hp] at run
      have ends := final_unprotected (perform env (.main m) .close) (taken w m vm)
      rw [hp, final] at ends
      rw [← ends] at moves
      exact .inl ⟨_, run, moves⟩
    | error e s =>
      rw [onMachine_error hv hp] at run
      exact .inr ⟨_, _, run⟩
  · rw [onMachine_closed _ ho] at run
    exact .inr ⟨_, _, run⟩

/-! ## States -/

/-- What closing a state does: nothing if it has no machine; a state that borrows its machine lets it go;
an owner collects, closes its registry, and then the machine. -/
inductive Closing (w : World) (id : Nat) : World → Prop where
  | idle (h : (w.states.get id).machine = none) : Closing w id w
  | borrower {w' : World} {m : Nat} (hm : (w.states.get id).machine = some m) (ho : (w.states.get id).isOwner = false)
    (hd : Dismissal w (w.states.get id).registry w') :
    Closing w id { w' with states := w'.states.modify id fun s => { s with machine := none } }
  | owner {w₁ w₂ w₃ : World} {m : Nat} (h : w.Owns id m) (hc : Moves w w₁)
    (hl : ∃ es, w₁.journal = .collected m :: (es ++ w.journal))
    (hd : Dismissal w₁ (w.states.get id).registry w₂) (hm : Moves (w₂.noteEnd m) w₃) : Closing w id (w₃.bury id m)

/-- The rest of closing an owner, after it has collected. -/
def endMachine (s : State) (id m : Nat) : H Unit := do
  Registry.close s.registry
  runWith s.runtime s.handle fun _ => Binding.Api.close
  State.releaseMachine m
  modify fun w => { w with states := w.states.modify id fun s => { s with machine := none } }

theorem endMachine_cases (he : env.Follows) (hl : w.Lawful g) {s : State} {m : Nat} (hm : s.machine = some m) (id : Nat) :
    (∃ w₂ w₃, endMachine s id m env w = .ok () (w₃.bury id m) ∧ Dismissal w s.registry w₂ ∧ Moves (w₂.noteEnd m) w₃) ∨
      ∃ e w', endMachine s id m env w = .error (.signal e) w' := by
  have handle : s.handle = some (.main m) := congrArg (Option.map Handle.main) hm
  unfold endMachine
  rw [handle]
  obtain ⟨w₂, done, hd⟩ | ⟨e, w', error⟩ := closeRegistry_dismissal env s.registry w
  · rw [bind_ok done]
    obtain ⟨w₃, closed, moves⟩ | ⟨e, w', error⟩ := closeMachine he (hd.lawful hl).toSound s.runtime m
    · exact .inl ⟨w₂, w₃, bind_ok closed, hd, moves⟩
    · exact .inr ⟨e, w', bind_error error⟩
  · exact .inr ⟨e, w', bind_error error⟩

/-- Closing goes by what a state has. -/
theorem closeState_run (env : Env) (w : World) (id : Nat) : State.close id env w = (
    let s := w.states.get id
    match s.machine with
    | none => Pure.pure ()
    | some m =>
      if s.isOwner then H.debug ["State closing", s.shown] >>= fun _ => s.collect >>= fun _ => endMachine s id m
      else Registry.close s.registry >>= fun _ =>
        modify fun w => { w with states := w.states.modify id fun s => { s with machine := none } } : H Unit) env w := by
  change (match (w.states.get id).machine with
    | none => Pure.pure ()
    | some m => _ : H Unit) env w = _
  dsimp only
  cases (w.states.get id).machine with
  | none => rfl
  | some m =>
    dsimp only
    split
    · rfl
    · rfl

/-- An owner says that it closes, and collects. -/
theorem closeOwner_run (env : Env) {id m : Nat} (h : w.Owns id m) : ∃ w₀, w.Beside w₀ ∧
    State.close id env w = ((w.states.get id).collect >>= fun _ => endMachine (w.states.get id) id m : H Unit) env w₀ := by
  rw [closeState_run]
  dsimp only
  rw [h.1]
  dsimp only
  rw [if_pos h.2]
  obtain ⟨w₀, quiet, beside⟩ : ∃ w₀, H.debug ["State closing", (w.states.get id).shown] env w = .ok () w₀ ∧ w.Beside w₀ :=
    ⟨_, rfl, rfl, rfl, rfl, rfl, rfl, rfl, rfl, rfl, rfl, rfl⟩
  exact ⟨w₀, beside, bind_ok quiet⟩

/-- A state without a machine has nothing to close. -/
theorem close_idle (env : Env) {id : Nat} (h : (w.states.get id).machine = none) : State.close id env w = .ok () w := by
  rw [closeState_run]
  dsimp only
  rw [h]
  rfl

theorem close_closing (he : env.Follows) (hl : w.Lawful g) (id : Nat) :
    (∃ w', State.close id env w = .ok () w' ∧ Closing w id w') ∨
      ∃ e w', State.close id env w = .error (.signal e) w' := by
  let s := w.states.get id
  cases hm : s.machine with
  | none => exact .inl ⟨w, close_idle env hm, .idle hm⟩
  | some m =>
    cases ho : s.isOwner with
    | false =>
      rw [closeState_run]
      dsimp only
      rw [hm]
      dsimp only
      rw [ho, if_neg Bool.false_ne_true]
      obtain ⟨w', done, hd⟩ | ⟨e, w', error⟩ := closeRegistry_dismissal env s.registry w
      · exact .inl ⟨_, bind_ok done, .borrower hm ho hd⟩
      · exact .inr ⟨e, w', bind_error error⟩
    | true =>
      obtain ⟨w₀, beside, run⟩ := closeOwner_run env (⟨hm, ho⟩ : w.Owns id m)
      have quietly : Moves w w₀ := (Move.beside beside).moves
      rw [run]
      obtain ⟨w₁, es, collected, moves, last⟩ | ⟨e, w', error⟩ := collect_last he (quietly.sound hl.toSound) hm
      · rw [bind_ok collected]
        have first : Moves w w₁ := quietly.trans moves
        obtain ⟨w₂, w₃, ended, hd, moved⟩ | ⟨e, w', error⟩ := endMachine_cases he (first.lawful hl) hm id
        · exact .inl ⟨_, ended, .owner ⟨hm, ho⟩ first ⟨es, beside.journal ▸ last⟩ hd moved⟩
        · exact .inr ⟨e, w', error⟩
      · exact .inr ⟨e, w', bind_error error⟩

/-! ## Stages of closing -/

theorem World.machineOf_dismiss (w : World) (registry : Nat) : (w.dismiss registry).machineOf registry = none := by
  unfold World.machineOf World.dismiss
  dsimp only
  rw [Pool.get_modify_self]

namespace Dismissal

variable {registry : Nat}

theorem gone (h : Dismissal w registry w') : w'.machineOf registry = none := by
  cases h with
  | idle _ => exact w.machineOf_dismiss registry
  | freed _ _ => exact World.machineOf_dismiss _ registry

theorem states (h : Dismissal w registry w') : w'.states = w.states := by
  cases h with
  | idle _ => rfl
  | freed _ hf =>
    obtain ⟨machines, journal, rfl⟩ := hf.apart.rest
    rfl

/-- Only slots of the registry's machine are given back. -/
theorem journal (h : Dismissal w registry w') {m : Nat} (hp : w.Pairs m registry) :
    ∃ es, w'.journal = es ++ w.journal ∧ ∀ e ∈ es, ∃ slot, e = .unpinned m slot := by
  cases h with
  | idle _ => exact ⟨[], rfl, nofun⟩
  | @freed w' n hm hf =>
    have same : n = m := by
      cases hp.2 with
      | inl none => exact nomatch hm.symm.trans none
      | inr some =>
        cases hm.symm.trans some
        rfl
    subst same
    obtain ⟨es, he, hes⟩ := hf.apart.journal
    exact ⟨es, he, hes⟩

end Dismissal

namespace Closing

/-- Closing is a run of stages. -/
theorem stages {id : Nat} (h : Closing w id w') (hl : w.Lawful g) : Stages g w w' := by
  cases h with
  | idle _ => exact .refl
  | @borrower w' m hm ho hd =>
    refine Quiets.stages ((Quiet.dismissed hd).quiets.tail (.left (.inl ?_)))
    rw [hd.states]
    exact ho
  | @owner w₁ w₂ w₃ m h hc hj hd hm =>
    obtain ⟨older, hj⟩ := hj
    have owned : w₂.Owns id m := by
      rw [World.Owns, hd.states, hc.continues.states]
      exact h
    have collected : CollectedLast m w₂.journal := by
      obtain ⟨es, he, hes⟩ := hd.journal (hc.continues.pairs (hl.states id m h.1))
      exact ⟨es, older ++ w.journal, by rw [he, hj], hes⟩
    exact (Quiets.stages (hc.quiets.tail (.dismissed hd))).tail (.ended owned collected hm)

/-- A state that has closed has no machine. -/
theorem gone {id : Nat} (h : Closing w id w') : (w'.states.get id).machine = none := by
  cases h with
  | idle h => exact h
  | borrower _ _ _ =>
    dsimp only
    rw [Pool.get_modify_self]
  | owner _ _ _ _ _ =>
    unfold World.bury
    dsimp only
    rw [Pool.get_modify_self]

/-- A state that had a machine has closed its registry too. -/
theorem registry_gone {id m : Nat} (h : Closing w id w') (hm : (w.states.get id).machine = some m) :
    w'.machineOf (w.states.get id).registry = none := by
  cases h with
  | idle free => exact nomatch free.symm.trans hm
  | borrower _ _ hd => exact hd.gone
  | owner _ _ _ hd moves => exact (moves.continues.machineOf _).trans hd.gone

/-- An owner drops all that was kept for its machine. -/
theorem drops {id m : Nat} (h : Closing w id w') (owns : w.Owns id m) (f : Lua.Native) : ¬ w'.Keeps m f := by
  cases h with
  | idle free => exact nomatch free.symm.trans owns.1
  | borrower _ borrows _ => exact nomatch owns.2.symm.trans borrows
  | owner owns' _ _ _ _ =>
    cases owns.1.symm.trans owns'.1
    rintro ⟨fs, hfs, -⟩
    exact absurd rfl (bne_iff_ne.mp (List.mem_filter.mp hfs).2)

/-- An owner collects, and then nothing is done to its machine until it is closed but slots given back. -/
theorem collected {id m : Nat} (h : Closing w id w') (owns : w.Owns id m) (hl : w.Lawful g) :
    ∃ later slots es, w'.journal = later ++ .closed m :: (slots ++ .collected m :: (es ++ w.journal)) ∧
      ∀ e ∈ slots, ∃ slot, e = .unpinned m slot := by
  cases h with
  | idle free => exact nomatch free.symm.trans owns.1
  | borrower _ borrows _ => exact nomatch owns.2.symm.trans borrows
  | owner owns' hc hj hd hm =>
    cases owns.1.symm.trans owns'.1
    obtain ⟨es, hj⟩ := hj
    obtain ⟨slots, hs, hslots⟩ := hd.journal (hc.continues.pairs (hl.states id m owns.1))
    obtain ⟨later, hlater, -⟩ := hm.continues.journal
    exact ⟨later, slots, es, by rw [World.bury, hlater, World.noteEnd, hs, hj], hslots⟩

/-- Other states stay as they are. -/
theorem others {id : Nat} (h : Closing w id w') {n : Nat} (hn : n ≠ id) : w'.states.get n = w.states.get n := by
  cases h with
  | idle h => rfl
  | borrower _ _ hd =>
    dsimp only
    rw [Pool.get_modify_ne _ hn, hd.states]
  | owner _ hc _ hd hm =>
    unfold World.bury
    dsimp only
    rw [Pool.get_modify_ne _ hn, hm.continues.states, World.noteEnd, hd.states, hc.continues.states]

end Closing
end LuaHost.Host
