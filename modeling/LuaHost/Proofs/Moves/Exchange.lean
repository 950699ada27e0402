import LuaHost.Host.Registry
import LuaHost.Proofs.Moves.Leads

set_option autoImplicit false

/-!
# Moves of registries and values

A registry pins and releases values, compiles chunks and makes functions by moves. What crosses between
host and machine crosses by moves too.
-/

namespace LuaHost.Host

open Lua (M Vm Within Signal)
open Binding (Call Program Runtime)

variable {base w : World} {α β : Type}

variable {env : Env}

/-! ## Slots -/

/-- A machine with another state, and one more event. -/
theorem putBack_noted (w : World) (m : Nat) (vm vm' : Vm) (e : Event) :
    putBack ⟨vm', { (taken w m vm).host with journal := e :: (taken w m vm).host.journal }⟩ m =
      { w with machines := w.machines.put m (.open vm'), journal := e :: w.journal } := by
  simp only [putBack, taken, Pool.put_put]

/-- What a program of one call does, under the runtime of that number. -/
theorem runWith_call (env : Env) (runtime : Nat) (l : Option Handle) (c : Runtime → Call) (f : Value → α) :
    runWith runtime l (fun r => .ask (c r) fun v => .done (f v)) env w =
      match execute (w.runtimes.get runtime) l (c (w.runtimes.get runtime)) env w with
      | .ok v w' => .ok (f v) w'
      | .error e w' => .error e w' := by
  change (execute (w.runtimes.get runtime) l (c (w.runtimes.get runtime)) >>= fun v => Pure.pure (f v) : H α) env w = _
  cases run : execute (w.runtimes.get runtime) l (c (w.runtimes.get runtime)) env w with
  | ok v w' => exact bind_ok run
  | error e w' => exact bind_error run

/-- Pinning the top of a stack, if it comes back. -/
theorem runWith_ref (env : Env) (runtime : Nat) (l : Option Handle) (w : World) :
    (∃ h vm slot vm', l = some h ∧ w.machines.get h.machine = .open vm ∧ vm.Pins (vm.top h.thread) slot vm' ∧
        runWith runtime l Binding.Api.ref env w = .ok (.int slot)
          { w with
            machines := w.machines.put h.machine (.open vm')
            journal := .pinned h.machine (vm.top h.thread) slot :: w.journal }) ∨
      ∃ e w', runWith runtime l Binding.Api.ref env w = .error (.signal e) w' ∧ Moves w w' := by
  have run := runWith_call (w := w) env runtime l (fun r => .ref r.registryIndex) id
  change runWith runtime l Binding.Api.ref env w = _ at run
  generalize w.runtimes.get runtime = r at run
  cases l with
  | none =>
    rw [execute_none (c := .ref _) r nofun] at run
    exact .inr ⟨_, w, run, .refl⟩
  | some h =>
    by_cases hm : w.Open h.machine
    · obtain ⟨vm, hm⟩ := hm
      obtain ⟨slot, vm', pins, hp⟩ | ⟨vm', edits, hp⟩ := Perform.pins env h r.registryIndex (taken w h.machine vm)
      · rw [execute_ok (c := .ref _) nofun nofun rfl hm hp, putBack_noted] at run
        exact .inl ⟨h, vm, slot, vm', rfl, hm, pins, run⟩
      · rw [execute_fault (c := .ref _) nofun nofun rfl hm hp] at run
        refine .inr ⟨_, _, run, Move.moves ?_⟩
        have moved := Move.refused hm edits
        rwa [← Pool.put_put w.machines h.machine .busy] at moved
    · rw [execute_closed (c := .ref _) r nofun nofun rfl hm] at run
      exact .inr ⟨_, w, run, .refl⟩

/-- Releasing a slot of an open machine. -/
theorem runWith_unref_open (env : Env) (runtime : Nat) {h : Handle} (slot : Int) {vm : Vm}
    (hm : w.machines.get h.machine = .open vm) :
    ∃ vm', (vm.Unpins (int32 slot) vm' ∧ vm'.threads = vm.threads) ∧
      runWith runtime (some h) (fun rt => Binding.Api.unref rt slot) env w = .ok ()
        { w with
          machines := w.machines.put h.machine (.open vm')
          journal := .unpinned h.machine (int32 slot) :: w.journal } := by
  have run := runWith_call (w := w) env runtime (some h) (fun r => .unref r.registryIndex slot) fun _ => ()
  change runWith runtime (some h) (fun rt => Binding.Api.unref rt slot) env w = _ at run
  obtain ⟨vm', unpins, hp⟩ := Perform.unpins env h (w.runtimes.get runtime).registryIndex slot (taken w h.machine vm)
  rw [execute_ok (c := .unref _ _) nofun nofun rfl hm hp, putBack_noted] at run
  exact ⟨vm', unpins, run⟩

/-- Releasing a slot, if it comes back. -/
theorem runWith_unref (env : Env) (runtime : Nat) (h : Handle) (slot : Int) (w : World) :
    (∃ vm vm', w.machines.get h.machine = .open vm ∧ vm.Unpins (int32 slot) vm' ∧
        runWith runtime (some h) (fun rt => Binding.Api.unref rt slot) env w = .ok ()
          { w with
            machines := w.machines.put h.machine (.open vm')
            journal := .unpinned h.machine (int32 slot) :: w.journal }) ∨
      ∃ e, runWith runtime (some h) (fun rt => Binding.Api.unref rt slot) env w = .error (.signal e) w := by
  by_cases hm : w.Open h.machine
  · obtain ⟨vm, hm⟩ := hm
    obtain ⟨vm', ⟨unpins, -⟩, run⟩ := runWith_unref_open env runtime slot hm
    exact .inl ⟨vm, vm', hm, unpins, run⟩
  · have run := runWith_call (w := w) env runtime (some h) (fun r => .unref r.registryIndex slot) fun _ => ()
    rw [execute_closed (c := .unref _ _) _ nofun nofun rfl hm] at run
    exact .inr ⟨_, run⟩

/-- A broken loader gives its status, whatever it leaves. -/
theorem break_status {r : Runtime} {l : Option Handle} {b : Binding.Breakage} {status : Value} {w' : World}
    (run : runProgram r l (Binding.Api.break_ b) env w = .ok status w') : status = .int b.status := by
  have last (p : Program Unit) (h : runProgram r l (p >>= fun _ => Pure.pure (Value.int b.status)) env w = .ok status w') :
      status = .int b.status := by
    rw [runProgram_bind] at h
    cases e : runProgram r l p env w with
    | ok u w'' =>
      rw [bind_ok e] at h
      cases h
      rfl
    | error x w'' =>
      rw [bind_error e] at h
      cases h
  unfold Binding.Api.break_ at run
  cases hm : b.message with
  | some t =>
    rw [hm] at run
    exact last _ run
  | none =>
    rw [hm] at run
    exact last _ run

/-- Loading the text of a chunk leaves its function on top of the stack, if it succeeds. -/
theorem runWith_loadString (he : env.Follows) (hs : w.Sound) (runtime : Nat) (l : Option Handle) (source : Text) :
    Moves w (final (runWith runtime l (fun rt => Binding.Api.loadString rt (.text source)) env w)) ∧
      ∀ status w', runWith runtime l (fun rt => Binding.Api.loadString rt (.text source)) env w = .ok status w' →
        Binding.Api.intOf status = 0 →
        ∃ h vm, l = some h ∧ w'.machines.get h.machine = .open vm ∧ CompiledFrom vm source (vm.top h.thread) := by
  have moves : Moves w (final (runWith runtime l (fun rt => Binding.Api.loadString rt (.text source)) env w)) :=
    (Leads.runWith runtime l fun r => Ordinary.loadString r _).after he hs w .refl
  refine ⟨moves, fun status w' run zero => ?_⟩
  have honest := hs.runtimes runtime
  change runProgram (w.runtimes.get runtime) l (Binding.Api.loadString (w.runtimes.get runtime) (.text source)) env w = _
    at run
  generalize w.runtimes.get runtime = r at run honest
  unfold Binding.Api.loadString at run
  cases hb : r.brokenChunks with
  | some b =>
    rw [hb] at run
    rw [break_status run] at zero
    exact absurd zero (honest b hb)
  | none =>
    rw [hb] at run
    cases bytes : encode source with
    | error f =>
      simp only [sourceBytes, bytes] at run
      cases run
    | ok bytes' =>
      simp only [sourceBytes, bytes] at run
      replace run : execute r l (.loadString bytes') env w = .ok status w' := by
        change (execute r l (.loadString bytes') >>= Pure.pure) env w = _ at run
        rwa [bind_pure] at run
      cases l with
      | none =>
        rw [execute_none r (c := .loadString _) nofun] at run
        cases run
      | some h =>
        by_cases hm : w.Open h.machine
        · obtain ⟨vm, hm⟩ := hm
          obtain ⟨n, vm', hp, compiled⟩ := Perform.loads env h bytes' (taken w h.machine vm)
          rw [execute_ok (c := .loadString _) nofun nofun rfl hm hp] at run
          cases run
          exact ⟨h, vm', rfl, putBack_get _ _, bytes', bytes, compiled zero⟩
        · rw [execute_closed (c := .loadString _) r nofun nofun rfl hm] at run
          cases run

namespace Leads

/-! ## Registries -/

theorem registry (id : Nat) : Leads env base (Registry.get id) := bind get fun _ => pure _

/-- A registry goes with the machine that it had at first. -/
theorem bind_registry (id : Nat) {next : Registry → H β}
    (k : ∀ r, r.machine = base.machineOf id → Leads env base (next r)) :
    Leads env base (Registry.get id >>= next) := by
  constructor
  intro he hs w hw
  exact (k (w.registries.get id) (hw.continues.machineOf id)).after he hs w hw

/-- Pinning the top of a stack of the registry's machine. -/
theorem pinTop (id : Nat) (l : Option Handle) (hl : ∀ h, l = some h → base.Pairs h.machine id) :
    Leads env base (Registry.pinTop id l) := by
  constructor
  intro he hs w hw
  have pairs (h : Handle) (hh : (l <|> Registry.handle (w.registries.get id)) = some h) : w.Pairs h.machine id := by
    cases l with
    | some h' =>
      cases hh
      exact hw.continues.pairs (hl h rfl)
    | none =>
      obtain ⟨m, hm, rfl⟩ := Option.map_eq_some_iff.mp hh
      exact ⟨World.lt_size_of_machineOf hm, .inr hm⟩
  have run : Registry.pinTop id l env w =
      (Host.runWith (w.registries.get id).runtime (l <|> Registry.handle (w.registries.get id)) Binding.Api.ref >>= fun slot =>
        MonadState.modifyGet fun w =>
          (w.references.size, { w with references := w.references.add ⟨id, Binding.Api.intOf slot⟩ }) : H Nat) env w := rfl
  rw [run]
  obtain ⟨h, vm, slot, vm', hh, hm, pins, ok⟩ | ⟨e, w', error, moved⟩ := runWith_ref env
    (w.registries.get id).runtime (l <|> Registry.handle (w.registries.get id)) w
  · rw [bind_ok ok]
    exact hw.tail (.referenced hm (pairs h hh) pins)
  · rw [bind_error error]
    exact hw.trans moved


/-- Pushing what is in a slot. -/
theorem registryPush (id : Nat) (slot : Int) (l : Option Handle) : Leads env base (Registry.push id slot l) := by
  unfold Registry.push
  refine bind (registry id) fun r => ?_
  have rest : Leads env base (Functor.discard (Host.runWith r.runtime (l <|> r.handle) fun rt => Binding.Api.pushRef rt slot)) :=
    discard (runWith _ _ fun rt => Mute.pushRef rt slot)
  dsimp only
  split
  · exact bind (fail _) fun _ => rest
  · exact rest

theorem referencePush (id : Nat) (l : Option Handle) : Leads env base (Reference.push id l) :=
  bind (bind get fun _ => pure _) fun _ => registryPush _ _ _

/-- Notes that a reference holds no slot any more. -/
def forgetReference (id : Nat) : H Unit := MonadState.modifyGet fun w =>
  ((), { w with references := w.references.modify id fun r => { r with slot := Binding.noReference } })

/-- A reference gives its slot back, or has none to give. -/
theorem release (id : Nat) : Leads env base (Reference.release id) := by
  refine of_moves fun he w hs hw => ?_
  have run : Reference.release id env w =
      (if (w.references.get id).holds then
        Registry.unpin (w.references.get id).registry (w.references.get id).slot >>= fun _ => forgetReference id
      else forgetReference id) env w := rfl
  have forgets (h : (w.references.get id).holds = false ∨ w.machineOf (w.references.get id).registry = none) :
      Moves w (final (forgetReference id env w)) := (Move.forgotten h).moves
  rw [run]
  cases holds : (w.references.get id).holds with
  | false => exact forgets (.inl holds)
  | true =>
    generalize hr : w.references.get id = r at holds forgets
    have unpin : Registry.unpin r.registry r.slot env w =
        (if (w.registries.get r.registry).machine.isSome then
          Host.runWith (w.registries.get r.registry).runtime (Registry.handle (w.registries.get r.registry)) fun rt =>
            Binding.Api.unref rt r.slot
        else Pure.pure ()) env w := rfl
    rw [if_pos rfl]
    cases hm : (w.registries.get r.registry).machine with
    | none =>
      rw [hm] at unpin
      have idle : Registry.unpin r.registry r.slot env w = .ok () w := unpin
      rw [bind_ok idle]
      exact forgets (.inr hm)
    | some m =>
      rw [Registry.handle, hm] at unpin
      obtain ⟨vm, vm', ho, unpins, ok⟩ | ⟨e, error⟩ := runWith_unref env (w.registries.get r.registry).runtime (.main m) r.slot w
      · rw [bind_ok (unpin.trans ok)]
        exact Move.moves (hr ▸ .released ho (hr.symm ▸ holds) (hr.symm ▸ hm) (hr.symm ▸ unpins))
      · rw [bind_error (unpin.trans error)]
        exact .refl

/-- Pins the function of a chunk that has just been compiled, notes its slot, and goes on. -/
def cacheChunk (id : Nat) (r : Registry) (source : Text) (next : Int → H α) : H α := do
  let slot ← Host.runWith r.runtime r.handle Binding.Api.ref
  Registry.modify id fun r => { r with chunks := r.chunks ++ [(source, Binding.Api.intOf slot)] }
  next (Binding.Api.intOf slot)

/-- After a chunk was compiled its function is on top, and pinning it caches the chunk. -/
theorem cacheChunk_moves {id : Nat} {r : Registry} {source : Text} {next : Int → H α}
    (hn : ∀ slot, Leads env base (next slot)) (he : env.Follows) (hs : base.Sound) (hw : Moves base w) {m : Nat} {vm : Vm}
    (hr : r.handle = some (.main m)) (hm : w.machineOf id = some m) (ho : w.machines.get m = .open vm)
    (hc : CompiledFrom vm source (vm.top 0)) : Moves base (final (cacheChunk id r source next env w)) := by
  unfold cacheChunk
  rw [hr]
  obtain ⟨h, vm', slot, vm'', hh, hv, pins, ok⟩ | ⟨e, w', error, moved⟩ := runWith_ref env r.runtime (some (.main m)) w
  · cases hh
    cases ho.symm.trans hv
    rw [bind_ok ok]
    exact (hn slot).after he hs _ (hw.tail (.cached ho hm hc pins))
  · rw [bind_error error]
    exact hw.trans moved

theorem reportTop (reporter : Nat) (code : Int) (runtime : Nat) (l : Option Handle) :
    Leads env base (reportTop reporter code runtime l) :=
  bind (runWith _ _ Mute.topMessage) fun _ => report _ _ _ _

/-- A chunk is compiled and its function pinned, unless the registry has it. -/
theorem pushChunk_eq (env : Env) (w : World) (id : Nat) (source : Text) {r : Registry} (hr : w.registries.get id = r) :
    Registry.pushChunk id source env w =
      (match (r.chunks.find? fun (s, _) => s == source).map (·.2) with
      | some slot => do
        Functor.discard (Host.runWith r.runtime r.handle fun rt => Binding.Api.pushRef rt slot)
        return true
      | none => do
        let status ← Host.runWith r.runtime r.handle fun rt => Binding.Api.loadString rt (.text source)
        if Binding.Api.intOf status != codeOf (w.runtimes.get r.runtime) .ok then do
          Host.reportTop r.reporter (Binding.Api.intOf status) r.runtime r.handle
          return false
        else cacheChunk id r source fun slot => do
          Functor.discard (Host.runWith r.runtime r.handle fun rt => Binding.Api.pushRef rt slot)
          return true : H Bool) env w := by
  subst hr
  rfl

theorem pushChunk (id : Nat) (source : Text) : Leads env base (Registry.pushChunk id source) := by
  refine of_moves fun he w hs hw => ?_
  generalize hr : w.registries.get id = r
  have pushed (slot : Int) : Leads env w (do
      Functor.discard (Host.runWith r.runtime r.handle fun rt => Binding.Api.pushRef rt slot)
      return true) := bind (discard (runWith _ _ fun rt => Mute.pushRef rt slot)) fun _ => pure _
  rw [pushChunk_eq env w id source hr]
  generalize Option.map _ _ = cached
  cases cached with
  | some slot => exact (pushed slot).after he hs w .refl
  | none =>
    dsimp only
    obtain ⟨moves, compiled⟩ := runWith_loadString he hs r.runtime r.handle source
    cases load : Host.runWith r.runtime r.handle (fun rt => Binding.Api.loadString rt (.text source)) env w with
    | error e w' =>
      rw [load] at moves
      rw [bind_error load]
      exact moves
    | ok status w' =>
      rw [load, final] at moves
      rw [bind_ok load]
      split
      · exact (bind (reportTop _ _ _ _) fun _ => pure _).after he hs w' moves
      · next fine =>
        have zero : Binding.Api.intOf status = 0 := by
          rw [bne_iff_ne, Decidable.not_not] at fine
          exact fine
        obtain ⟨h, vm, hh, ho, hc⟩ := compiled status w' load zero
        obtain ⟨m, hm, rfl⟩ := Option.map_eq_some_iff.mp hh
        have home : w'.machineOf id = some m := by
          rw [moves.continues.machineOf, World.machineOf, hr]
          exact hm
        exact cacheChunk_moves pushed he hs moves hh home ho hc


end Leads

/-! ## Functions -/

namespace World

theorem keeps_keep (w : World) (m : Nat) (f : Lua.Native) : (w.keep m f).Keeps m f := by
  unfold keep Keeps
  dsimp only
  split
  · next entry h =>
    have found := List.find?_some h
    refine ⟨entry.2 ++ [f], List.mem_map.mpr ⟨entry, List.mem_of_find?_eq_some h, ?_⟩, List.mem_append_right _ (List.mem_singleton_self _)⟩
    simp only [beq_iff_eq.mp found, beq_self_eq_true, if_true]
  · exact ⟨[f], List.mem_append_right _ (List.mem_singleton_self _), List.mem_singleton_self _⟩

/-- What was kept stays kept. -/
theorem Keeps.keep {w : World} {m : Nat} {f : Lua.Native} (h : w.Keeps m f) (n : Nat) (g : Lua.Native) :
    (w.keep n g).Keeps m f := by
  obtain ⟨fs, hfs, hf⟩ := h
  unfold World.keep Keeps
  dsimp only
  split
  · by_cases hn : (m == n) = true
    · refine ⟨fs ++ [g], List.mem_map.mpr ⟨(m, fs), hfs, ?_⟩, List.mem_append_left _ hf⟩
      simp only [hn, if_true]
    · refine ⟨fs, List.mem_map.mpr ⟨(m, fs), hfs, ?_⟩, hf⟩
      simp only [hn, if_false, Bool.false_eq_true]
  · exact ⟨fs, List.mem_append_left _ hfs, hf⟩

end World

/-- A function that was made through a registry, if it was made by the host at all. -/
def World.MadeBy (w : World) (registry : Nat) (f : Lua.Native) : Prop :=
  ∀ n, f = .foreign n → n < w.foreigns.size ∧ (w.foreigns.get n).registry = registry ∧
    (w.foreigns.get n).home = w.machineOf registry

theorem keep_eq (env : Env) (id : Nat) (f : Lua.Native) (w : World) :
    Registry.keep id f env w = (match w.machineOf id with
      | none => Pure.pure ()
      | some m => MonadState.modifyGet fun w => ((), w.keep m f) : H Unit) env w := rfl

/-- A function made through a registry and kept there may be given to the machine of the registry. -/
theorem keep_grants (env : Env) (id : Nat) {f : Lua.Native} {w : World} (h : w.MadeBy id f) :
    ∃ w', Registry.keep id f env w = .ok () w' ∧ Moves w w' ∧ ∀ m, w.Pairs m id → w'.Grants m f := by
  have run := keep_eq env id f w
  cases hm : w.machineOf id with
  | none =>
    rw [hm] at run
    refine ⟨w, run, .refl, fun m hp n hn => ?_⟩
    obtain ⟨size, registry, home⟩ := h n hn
    refine ⟨size, ?_, fun hh => ?_⟩
    · rwa [registry]
    · rw [home, hm] at hh
      cases hh
  | some k =>
    rw [hm] at run
    have kept : Move w (w.keep k f) := .kept fun n hn => ⟨(h n hn).1, (h n hn).2.2.trans hm⟩
    refine ⟨w.keep k f, run, kept.moves, fun m hp n hn => ?_⟩
    obtain ⟨size, registry, home⟩ := h n hn
    refine ⟨size, ?_, fun hh => ?_⟩
    · change w.Pairs m (w.foreigns.get n).registry
      rwa [registry]
    · cases (home.symm.trans hh).symm.trans hm
      exact World.keeps_keep _ _ _

/-- A function made through a registry may be given to the machine of the registry. -/
theorem wrap_grants (env : Env) (id : Nat) {routine : Routine} (h : routine.Local) (w : World) :
    ∃ f w', Registry.wrap id routine env w = .ok f w' ∧ Moves w w' ∧ ∀ m, w.Pairs m id → w'.Grants m f := by
  let made : Foreign := ⟨routine, false, (w.registries.get id).runtime, id, (w.registries.get id).reporter, w.machineOf id, []⟩
  let w₁ : World := { w with foreigns := w.foreigns.add made }
  have first : Move w w₁ := .made h false id
  have by_ : w₁.MadeBy id (.foreign w.foreigns.size) := by
    rintro n ⟨⟩
    refine ⟨Nat.lt_of_lt_of_eq (Nat.lt_succ_self _) (Pool.size_add _ _).symm, ?_, ?_⟩
    · exact congrArg Foreign.registry (Pool.get_add_self _ _)
    · exact congrArg Foreign.home (Pool.get_add_self _ _)
  obtain ⟨w₂, ok, moves, grants⟩ := keep_grants env id by_
  have run : Registry.wrap id routine env w =
      (Registry.keep id (.foreign w.foreigns.size) >>= fun _ => Pure.pure (.foreign w.foreigns.size) : H Lua.Native) env w₁ := rfl
  exact ⟨_, w₂, run.trans (bind_ok ok), moves.head first, fun m hp => grants m (first.continues.pairs hp)⟩

/-- What was kept stays kept while the world makes moves. -/
theorem Move.keeps {w w' : World} (h : Move w w') {m : Nat} {f : Lua.Native} (hk : w.Keeps m f) : w'.Keeps m f := by
  have same (ht : w'.trampolines = w.trampolines) : w'.Keeps m f := by rwa [World.Keeps, ht]
  cases h with
  | beside h => exact same h.trampolines
  | kept _ => exact hk.keep _ _
  | @gave n g _ _ =>
    obtain ⟨foreigns, he⟩ := World.give_eq w n g
    rw [he]
    exact hk
  | _ => exact same rfl

theorem Moves.keeps {w w' : World} (h : Moves w w') {m : Nat} {f : Lua.Native} (hk : w.Keeps m f) : w'.Keeps m f := by
  induction h with
  | refl => exact hk
  | tail _ h ih => exact h.keeps ih

/-- A function that may be given to a machine may be given to it later too. -/
theorem Moves.grants {w w' : World} (h : Moves w w') {m : Nat} {f : Lua.Native} (hg : w.Grants m f) : w'.Grants m f := by
  intro id hf
  obtain ⟨hn, hp, hk⟩ := hg id hf
  obtain ⟨registry, home⟩ := h.continues.foreign id hn
  refine ⟨Nat.lt_of_lt_of_le hn h.continues.foreigns, ?_, fun hm => h.keeps (hk (home.symm.trans hm))⟩
  rw [registry]
  exact h.continues.pairs hp

theorem Routine.local_callback (f : Callback) : (Routine.callback f).Local := trivial

namespace Leads

/-- A call that gives a function to a machine that may have it. -/
theorem giveFunction {f : Lua.Native} (runtime : Nat) (l : Option Handle)
    (h : ∀ t, l = some t → base.Grants t.machine f) :
    Leads env base (Host.runWith runtime l fun _ => Binding.Api.pushCFunction (.pointer f)) := by
  refine bind (Leads.runtime _) fun r => program (P := (· = .pushCClosure (.pointer f))) ?_ ⟨rfl, fun _ => trivial⟩
  rintro c rfl
  refine of_moves fun he w hs hw => ?_
  cases l with
  | none =>
    rw [execute_none (c := .pushCClosure _) _ nofun]
    exact .refl
  | some t =>
    refine execute_moves nofun nofun fun vm hm => ?_
    have moves := @Perform.pushCClosure_moves env t f (taken w t.machine vm)
    rw [putBack_taken hm] at moves
    exact moves hs (hw.grants (h t rfl))

/-- A routine becomes a function of the machine that calls for it. -/
theorem pushWrapped {routine : Routine} (hr : routine.Local) (runtime : Nat) (l : Option Handle) (registry : Option Nat)
    (hp : ∀ id t, registry = some id → l = some t → base.Pairs t.machine id) :
    Leads env base (pushHost.wrapped runtime l registry routine) := by
  unfold pushHost.wrapped
  cases registry with
  | none => exact fail _
  | some id =>
    refine of_moves fun he w hs hw => ?_
    obtain ⟨f, w', ok, moves, grants⟩ := wrap_grants env id hr w
    dsimp only
    rw [bind_ok ok]
    exact moves.trans <| (giveFunction _ _ fun t ht => grants _ (hw.continues.pairs (hp id t rfl ht))).after he
      (moves.sound hs) w' .refl

/-- A value of the host crosses to a machine. -/
theorem pushHost (runtime : Nat) (l : Option Handle) (v : Value) (registry : Option Nat)
    (hp : ∀ id t, registry = some id → l = some t → base.Pairs t.machine id) :
    Leads env base (pushHost runtime l v registry) := by
  unfold Host.pushHost
  cases v with
  | none => exact runWith _ _ fun _ => Mute.pushNil
  | bool b => exact runWith _ _ fun _ => Mute.pushBoolean _
  | int n =>
    dsimp only
    split
    · exact runWith _ _ fun _ => Mute.pushInteger _
    · exact bind (ofExcept _) fun x => runWith _ _ fun _ => Mute.pushNumber _
  | float x => exact runWith _ _ fun _ => Mute.pushNumber _
  | text t => exact runWith _ _ fun _ => Mute.pushString _
  | bytes b => exact runWith _ _ fun _ => Mute.pushString _
  | byteArray b => exact runWith _ _ fun _ => Mute.pushString _
  | reference id => exact referencePush id l
  | callable f => exact pushWrapped (Routine.local_callback f) _ _ _ hp
  | pointer f => exact pushWrapped (Routine.local_callback _) _ _ _ hp
  | tuple | list | set | dict | other => exact fail _

/-- A value of a machine crosses to the host. -/
theorem toHost (runtime : Nat) (l : Option Handle) (i : Int) (registry : Option Nat)
    (hp : ∀ id t, registry = some id → l = some t → base.Pairs t.machine id) :
    Leads env base (toHost runtime l i registry) := by
  unfold Host.toHost
  refine bind (runWith _ _ fun _ => Mute.type i) fun tag => ?_
  dsimp only
  split
  · exact pure _
  split
  · exact bind (runWith _ _ fun _ => Mute.toBoolean i) fun _ => pure _
  split
  · refine bind (runWith _ _ fun r => Mute.isInteger r i) fun isInt => ?_
    split
    · exact runWith _ _ fun r => Mute.toInteger r i
    · exact runWith _ _ fun _ => Mute.toNumber i
  split
  · exact bind (runWith _ _ fun r => Mute.toText r i) fun _ => pure _
  split
  · exact bind (runWith _ _ fun _ => Mute.typeName _) fun _ => fail _
  · next id =>
    exact bind (runWith _ _ fun _ => Mute.pushValue i) fun _ =>
      bind (pinTop id l fun t ht => hp id t rfl ht) fun _ => pure _

end Leads
end LuaHost.Host
