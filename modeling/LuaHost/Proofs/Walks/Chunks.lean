import LuaHost.Proofs.Walks.Outcomes

set_option autoImplicit false

/-!
# Chunks and values that are pushed

What a walk pushes besides the values that it finds: the function of a chunk, which the registry compiles
and pins the first time, and the values of the host.
-/

namespace LuaHost.Host

open Lua (M Vm Generation)

variable {g : Generation} {env : Env} {w w' : World} {vm vm' : Vm} {m registry runtime : Nat} {α β : Type}

/-! ## Places -/

/-- A walk has come to a world, with some stack on machine `m`. -/
structure World.Comes (g : Generation) (m registry : Nat) (w : World) (stack : Array Lua.Value) (w' : World) : Prop
    extends w.Treads g m registry w' where
  stack : ∃ vm', w'.machines.get m = .open vm' ∧ vm'.stack = stack

/-- A walk has ended early, by a report. -/
def World.Fails (g : Generation) (m registry : Nat) (w w' : World) : Prop := ∃ w₁, w.Treads g m registry w₁ ∧ w₁.Tells w'

theorem World.Stirs.treads (h : w.Stirs m w') (hm : w.machines.get m = .open vm) : w.Treads g m registry w' := by
  obtain ⟨vm', rfl, akin, natives⟩ := h vm hm
  exact .put hm akin natives

/-- What is reported after the stack has changed. -/
theorem World.Stirs.fails (h : w.Stirs m w') (hm : w.machines.get m = .open vm) {w'' : World}
    (told : ∃ w₁, w'.Stirs m w₁ ∧ w₁.Tells w'') : w.Fails g m registry w'' := by
  obtain ⟨w₁, moved, tells⟩ := told
  exact ⟨w₁, (h.trans moved).treads hm, tells⟩

namespace World.Comes

variable {xs ys : Array Lua.Value}

theorem put (hm : w.machines.get m = .open vm) (h : vm.Stacks xs vm') : w.Comes g m registry xs (w.put m vm') :=
  ⟨.put hm h.toAkin h.natives, vm', World.get_put _ _ _, h.stack⟩

theorem trans {a b c : World} (h : a.Comes g m registry xs b) (k : b.Comes g m registry ys c) : a.Comes g m registry ys c :=
  ⟨h.toTreads.trans k.toTreads, k.stack⟩

end World.Comes

theorem World.Treads.fails {a b c : World} (h : a.Treads g m registry b) (k : b.Fails g m registry c) : a.Fails g m registry c := by
  obtain ⟨w₁, treads, tells⟩ := k
  exact ⟨w₁, h.trans treads, tells⟩

/-! ## Values of the host -/

theorem Pushed.treads {v : Value} {u : Lua.Value} {id : Nat} (h : Pushed id (.main m) vm w v u w')
    (hm : w.machines.get m = .open vm) (moves : Moves w w') : w.Comes g m registry (vm.stack.push u) w' := by
  have pushed (u : Lua.Value) : w.Comes g m registry (vm.stack.push u) (w.pushed (.main m) vm u) :=
    .put hm ⟨(Lua.Vm.Akin.refl vm).course _ _ _, rfl, vm.stackOf_pushed 0 u⟩
  have level := h.level hm
  cases h with
  | data _ => exact pushed u
  | reference _ => exact pushed _
  | @function _ routine n vm' hv akin natives stack =>
    refine ⟨⟨moves, ?_, fun k hk => ?_, ⟨[], ?_⟩, fun k _ => ?_, level.functions, fun v hv => ?_⟩, vm', World.get_put _ _ _, stack⟩
    · obtain ⟨machines, foreigns, trampolines, he⟩ := level.rest
      exact ⟨machines, w.registries, foreigns, trampolines, w.journal, he⟩
    · refine (Pool.get_put_ne _ hk _).trans ?_
      rw [World.machines_give, World.machines_made]
    · obtain ⟨machines, foreigns, trampolines, he⟩ := level.rest
      rw [he, List.append_nil]
    · obtain ⟨machines, foreigns, trampolines, he⟩ := level.rest
      rw [he]
    · cases hm.symm.trans hv
      exact ⟨vm', World.get_put _ _ _, .of_akin akin natives⟩

/-! ## Chunks -/

/-- Pinning the top of a stack, unless no slot is left. -/
theorem runWith_pin (env : Env) (runtime : Nat) {t : Handle} (hm : w.machines.get t.machine = .open vm) :
    (∃ slot vm', vm.Pins (vm.top t.thread) slot vm' ∧
        vm.Spares (fun n => n = Lua.Stack.freeListSlot vm.generation ∨ n = Int64.ofInt slot) vm' ∧
        vm'.stackOf t.thread = (vm.stackOf t.thread).pop ∧ runWith runtime (some t) Binding.Api.ref env w = .ok (.int slot)
          { w with machines := w.machines.put t.machine (.open vm'), journal := .pinned t.machine (vm.top t.thread) slot :: w.journal }) ∨
      ∃ w', runWith runtime (some t) Binding.Api.ref env w = .error (.signal (.fault .registryFull)) w' := by
  let r := w.runtimes.get runtime
  have asked := runWith_call (w := w) env runtime (some t) (fun r => .ref r.registryIndex) id
  change runWith runtime (some t) Binding.Api.ref env w = _ at asked
  obtain ⟨slot, vm', pins, performed⟩ | ⟨vm', -, performed⟩ := Perform.pins env t r.registryIndex (taken w t.machine vm)
  · rw [execute_ok (c := .ref _) nofun nofun rfl hm performed, putBack_noted] at asked
    obtain ⟨_, s', pinned, same, number⟩ := Perform.ref_pinned performed
    cases number
    have spares := Lua.Stack.pin_spares pinned
    rw [← same] at spares
    exact .inl ⟨slot, vm', pins, spares, Perform.ref_stack performed, asked⟩
  · rw [execute_fault (c := .ref _) nofun nofun rfl hm performed] at asked
    exact .inr ⟨_, asked⟩

/-- A chunk that is compiled is held by the registry from then on. -/
theorem World.treads_cached {source : Text} {v : Lua.Value} {slot : Int} (hm : w.machines.get m = .open vm)
    (home : w.machineOf registry = some m) (hg : vm.generation = g) (compiled : CompiledFrom vm source v) (pins : vm.Pins v slot vm')
    (spares : vm.Spares (fun n => n = Lua.Stack.freeListSlot vm.generation ∨ n = Int64.ofInt slot) vm') :
    w.Treads g m registry (w.cached m vm' registry source v slot) where
  moves := Move.moves (.cached hm home compiled pins)
  rest := ⟨_, _, _, _, _, rfl⟩
  others := fun n hn => Pool.get_put_ne _ hn _
  chunks := by
    refine ⟨[(source, slot)], ?_⟩
    rw [World.cached, Pool.get_modify_self]
  registries := fun id hid => Pool.get_modify_ne _ hid _
  functions := fun _ hk => ⟨hk, rfl⟩
  opened := fun v hv => by
    cases hm.symm.trans hv
    refine ⟨vm', Pool.get_put_self _ _ _, spares.mono fun n hn => hn.imp (fun head => head.trans (congrArg _ hg)) fun same => ?_⟩
    refine ⟨(w.registries.get registry).chunks.length, source, slot, Nat.le_refl _, ?_, same⟩
    rw [World.cached, Pool.get_modify_self]
    exact List.getElem?_concat_length

theorem slight_break (b : Binding.Breakage) : (Binding.Api.break_ b).All Slight := by
  unfold Binding.Api.break_
  split
  · exact Binding.Program.All.bind (.convert fun _ => ⟨trivial, fun _ => trivial⟩) fun _ => trivial
  · exact Binding.Program.All.bind ⟨trivial, fun _ => trivial⟩ fun _ => trivial

/-- A runtime compiles a text: it has not been made to fail, and the text is a chunk of its generation. -/
def Compiles (r : Binding.Runtime) (source : Text) : Prop := r.brokenChunks = none ∧ Lua.Loads r.generation (sourceOf source)

/-- The accessor chunks are chunks of every generation. -/
theorem compiles_accessor {r : Binding.Runtime} (whole : r.brokenChunks = none) {source : Text}
    (accessor : source = Selector.indexChunk ∨ source = Selector.assignChunk) : Compiles r source := by
  refine ⟨whole, ?_⟩
  obtain rfl | rfl := accessor
  · obtain ⟨f, -, -, -, -, compiled, -⟩ := indexChunk_compiles r.generation
    exact ⟨by decide +kernel, f, compiled⟩
  · obtain ⟨f, -, -, -, -, -, compiled, -⟩ := assignChunk_compiles r.generation
    exact ⟨by decide +kernel, f, compiled⟩

/-- Loading a text changes the stack, and makes a function if it succeeds, which is on top then. -/
theorem runWith_loads (env : Env) (sound : w.Sound) (hm : w.machines.get m = .open vm) {runtime : Nat}
    (generation : (w.runtimes.get runtime).generation = vm.generation) {source : Text} {bytes : ByteArray}
    (encoded : encode source = .ok bytes) :
    Ended (fun status w' => w.Stirs m w' ∧ (Binding.Api.intOf status = 0 →
        ∃ f vm', w' = w.put m vm' ∧ vm.Stacks (vm.stack.push f) vm' ∧ CompiledFrom vm' source f) ∧
        (Compiles (w.runtimes.get runtime) source → Binding.Api.intOf status = 0))
      (fun _ w' => w.Stirs m w' ∧ ¬ Compiles (w.runtimes.get runtime) source)
      (runWith runtime (some (.main m)) (fun rt => Binding.Api.loadString rt (.text source)) env w) := by
  change Ended _ _ (runProgram (w.runtimes.get runtime) (some (.main m)) (Binding.Api.loadString (w.runtimes.get runtime) (.text source)) env w)
  have honest := sound.runtimes runtime
  generalize w.runtimes.get runtime = r at honest generation
  unfold Binding.Api.loadString
  cases broken : r.brokenChunks with
  | some b =>
    have slight := runProgram_slight env r (slight_break b) hm
    cases run : runProgram r (some (.main m)) (Binding.Api.break_ b) env w with
    | ok status w' =>
      rw [run] at slight
      cases slight with
      | back stirs =>
        cases break_status run
        exact .back ⟨stirs, fun zero => absurd zero (honest b broken), fun compiles => nomatch broken.symm.trans compiles.1⟩
    | error e w' =>
      rw [run] at slight
      cases slight with
      | raised stirs => exact .raised ⟨stirs, fun compiles => nomatch broken.symm.trans compiles.1⟩
      | full => exact .full
  | none =>
    have gives : Lua.Gives (taken w m vm) (perform env (.main m) (.loadString bytes)) fun status vm' =>
        ∃ f, vm.Stacks (vm.stack.push f) vm' ∧ (Binding.Api.intOf status = 0 → vm'.Compiled (upToNul bytes) f) ∧
          (Lua.Loads vm.generation (upToNul bytes) → Binding.Api.intOf status = 0) := by
      refine .bind (q := fun g vm' => g = vm.generation ∧ vm' = vm) ⟨_, _, rfl, rfl, rfl⟩ ?_
      rintro _ _ ⟨rfl, rfl⟩
      refine .bind (.loadText (upToNul bytes)) fun status vm' h => ?_
      obtain ⟨f, atop, compiled, fine⟩ := h
      exact .pure ⟨f, atop, fun zero => compiled (Lua.Status.eq_ok_of_code zero), fun loads => fine loads ▸ rfl⟩
    obtain ⟨status, vm', run, f, atop, compiled, fine⟩ := execute_gives env (r := r) (t := .main m) (c := .loadString bytes) nofun nofun rfl hm gives
    have loaded : runProgram r (some (.main m)) (Binding.Program.ofExcept (sourceBytes (.text source)) >>= fun s =>
        Binding.Program.call (.loadString s)) env w = .ok status (w.put m vm') := by
      simp only [sourceBytes, encoded]
      change (execute r (some (.main m)) (.loadString bytes) >>= Pure.pure) env w = _
      rw [bind_ok run]
      rfl
    dsimp only
    rw [loaded]
    have source_eq : sourceOf source = upToNul bytes := by rw [sourceOf, encoded]
    refine .back ⟨.put hm atop.toAkin atop.natives, fun zero => ⟨f, vm', rfl, atop, bytes, encoded, compiled zero⟩, fun compiles => fine ?_⟩
    have loads := compiles.2
    rwa [source_eq, generation] at loads

/-- What is in a slot is pushed. -/
theorem pushSlot (env : Env) (runtime : Nat) (hm : w.machines.get m = .open vm) (hg : (w.runtimes.get runtime).generation = vm.generation) (slot : Int) :
    (do discard (runWith runtime (some (.main m)) fun rt => Binding.Api.pushRef rt slot); return true : H Bool) env w =
      .ok true (w.put m (vm.pushed 0 (vm.entry (Int64.ofInt (conveyed vm.generation slot))))) := by
  obtain ⟨tag, pushed⟩ := @runWith_pushRef env w vm runtime (.main m) slot hm hg
  exact bind_ok (discard_ok pushed)

theorem World.Comes.pushed (hm : w.machines.get m = .open vm) (v : Lua.Value) :
    w.Comes g m registry (vm.stack.push v) (w.put m (vm.pushed 0 v)) :=
  .put hm ⟨(Lua.Vm.Akin.refl vm).course _ _ _, rfl, vm.stackOf_pushed 0 v⟩

section Chunks

variable (ready : w.Ready g) (hm : w.machines.get m = .open vm) (fine : vm.breached = false) (home : w.machineOf registry = some m)

include ready hm fine home

/-- A slot that a registry holds for a chunk has the function of the chunk. -/
theorem World.Ready.chunk {source : Text} {slot : Int} (held : (source, slot) ∈ (w.registries.get registry).chunks) :
    conveyed vm.generation slot = slot ∧ CompiledFrom vm source (vm.entry (Int64.ofInt slot)) := by
  obtain ⟨i, found⟩ := List.mem_iff_getElem?.mp held
  have taken := ready.assigned.taken m slot (some source) (.chunk registry i) ⟨source, rfl, home, found⟩
  obtain ⟨v, -, backed⟩ := taken.backed
  have backed := backed vm hm
  rw [backed.entry fine, ready.lawful.generations m vm hm]
  exact ⟨taken.proper.exact, backed.compiled source rfl⟩

omit ready fine in
/-- The function of a chunk that has just been compiled is pinned, and pushed again. -/
theorem cacheChunk_yields (env : Env) (generation : (w.runtimes.get runtime).generation = vm.generation) (hg : vm.generation = g) {r : Registry}
    (same : r.runtime = runtime) (handle : r.handle = some (.main m)) {source : Text} (compiled : CompiledFrom vm source (vm.top 0)) :
    Yields g env w (Leads.cacheChunk registry r source fun slot => do
        discard (runWith r.runtime r.handle fun rt => Binding.Api.pushRef rt slot)
        return true)
      (fun pushed w' => pushed = true ∧ ∃ vm', w.Comes g m registry (vm.stack.pop.push (vm.top 0)) w' ∧ w'.machines.get m = .open vm' ∧
        CompiledFrom vm' source (vm.top 0))
      fun _ _ => False := by
  subst same
  unfold Leads.cacheChunk
  rw [handle]
  intro hr
  obtain ⟨slot, vm₁, pins, spares, popped, pinned⟩ | ⟨w', full⟩ := runWith_pin env r.runtime (t := .main m) hm
  · have opened : (w.cached m vm₁ registry source (vm.top 0) slot).machines.get m = .open vm₁ := Pool.get_put_self _ _ _
    have again := pushSlot (w := w.cached m vm₁ registry source (vm.top 0) slot) env r.runtime opened
      (generation.trans pins.edits.generation.symm) slot
    rw [bind_ok pinned] at hr ⊢
    change Reliable g (final ((do discard (runWith r.runtime (some (.main m)) fun rt => Binding.Api.pushRef rt slot); return true : H Bool)
      env (w.cached m vm₁ registry source (vm.top 0) slot))).journal at hr
    change Ended _ _ ((do discard (runWith r.runtime (some (.main m)) fun rt => Binding.Api.pushRef rt slot); return true : H Bool)
      env (w.cached m vm₁ registry source (vm.top 0) slot))
    rw [again] at hr ⊢
    obtain ⟨a, f, c, closure, -⟩ := compiled.choose_spec.2
    have present : vm.top 0 ≠ .nil := closure ▸ nofun
    have proper := hr.1 (closure ▸ rfl)
    have there : vm₁.entry (Int64.ofInt (conveyed vm₁.generation slot)) = vm.top 0 := by
      rw [pins.edits.generation, hg, proper.1.exact]
      exact pins.pinned present
    rw [there]
    have comes : World.Comes g m registry _ (vm₁.stack.push (vm.top 0)) _ := .pushed opened (vm.top 0)
    have stack : vm₁.stack = vm.stack.pop := popped
    rw [stack] at comes
    refine .back ⟨rfl, _, ⟨(World.treads_cached hm home hg compiled pins spares).trans comes.toTreads, comes.stack⟩,
      World.get_put _ _ _, ?_⟩
    exact compiled.of_closures pins.edits.generation (Nat.le_of_eq (by rw [← pins.edits.closures]; rfl))
      fun a _ => congrArg (fun closures => closures.get a) pins.edits.closures
  · rw [bind_error full]
    exact .full

/-- The function of a chunk is pushed, from the slot that the registry holds for it or from a new one. Otherwise
this is reported. -/
theorem pushChunk_yields (env : Env) {source : Text} {bytes : ByteArray} (encoded : encode source = .ok bytes) :
    Yields g env w (Registry.pushChunk registry source)
      (fun pushed w' => if pushed then ∃ f vm', w.Comes g m registry (vm.stack.push f) w' ∧ w'.machines.get m = .open vm' ∧
        CompiledFrom vm' source f else w.Fails g m registry w' ∧ ¬ Compiles (w.runtimes.get (w.registries.get registry).runtime) source)
      fun _ w' => w.Fails g m registry w' ∧ ¬ Compiles (w.runtimes.get (w.registries.get registry).runtime) source := by
  let r := w.registries.get registry
  have handle : r.handle = some (.main m) := congrArg (Option.map Handle.main) home
  have runtime : (w.runtimes.get r.runtime).generation = vm.generation := ready.generation hm registry
  refine .of_eq (Leads.pushChunk_eq env w registry source (r := r) rfl) ?_
  rw [handle]
  split
  · next slot cached =>
    obtain ⟨⟨text, slot⟩, found, rfl⟩ := Option.map_eq_some_iff.mp cached
    have same : text = source := beq_iff_eq.mp (List.find?_some (p := fun c : Text × Int => c.1 == source) found)
    subst same
    obtain ⟨exact_, compiled⟩ := ready.chunk hm fine home (List.mem_of_find?_eq_some found)
    refine .of_ok (pushSlot env _ hm runtime slot) ?_
    rw [exact_]
    exact ⟨_, _, .pushed hm _, World.get_put _ _ _, compiled⟩
  · refine .onward (runWith_loads env ready.lawful.toSound hm runtime encoded) ?_ fun _ w₁ failed => ⟨⟨w₁, failed.1.treads hm, .refl _⟩, failed.2⟩
    rintro status w₁ ⟨stirs, good, sure⟩
    by_cases zero : Binding.Api.intOf status = 0
    · obtain ⟨f, vm₁, rfl, atop, compiled⟩ := good zero
      have fine' : ¬ (Binding.Api.intOf status != codeOf (w.runtimes.get r.runtime) .ok) = true := by
        rw [bne_iff_ne, Decidable.not_not]
        exact zero
      rw [if_neg fine']
      have first : w.Treads g m registry (w.put m vm₁) := stirs.treads hm
      have top : vm₁.top 0 = f := by
        change vm₁.stack.back?.getD .nil = f
        rw [atop.stack, Array.back?_push, Option.getD_some]
      have popped : vm₁.stack.pop = vm.stack := by rw [atop.stack, Array.pop_push]
      have hg : vm₁.generation = g := atop.generation.trans (ready.lawful.generations m vm hm)
      have generation := runtime.trans atop.generation.symm
      rw [← handle]
      refine (cacheChunk_yields (World.get_put w m vm₁) home env generation hg rfl handle
        (top ▸ compiled)).imp ?_ fun _ _ => False.elim
      rintro _ w' ⟨rfl, vm', comes, hm', compiled'⟩
      rw [popped, top] at comes
      rw [top] at compiled'
      exact ⟨f, vm', ⟨first.trans comes.toTreads, comes.stack⟩, hm', compiled'⟩
    · have bad : (Binding.Api.intOf status != codeOf (w.runtimes.get r.runtime) .ok) = true := bne_iff_ne.mpr zero
      obtain ⟨vm₁, rfl, akin, natives⟩ := stirs vm hm
      rw [if_pos bad]
      exact .onward (reportTop_tells env (World.get_put w m vm₁) _ _ _)
        (fun _ _ told => .of_ok rfl ⟨stirs.fails hm told, fun compiles => zero (sure compiles)⟩)
        fun _ _ told => ⟨stirs.fails hm told, fun compiles => zero (sure compiles)⟩

end Chunks

end LuaHost.Host
