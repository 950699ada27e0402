import LuaHost.Proofs.Lives.Selectors
import LuaHost.Proofs.Walks.Chunks

set_option autoImplicit false

/-!
# Steps of a walk

The small steps by which a selector walks: room is made, the globals, a copy, a value of the host or the function of an accessor chunk
are pushed. None of them runs any program, and after each the selector can take the next one.
-/

namespace LuaHost.Host

open Lua (M Vm Generation)

variable {g : Generation} {env : Env} {w w' : World} {vm vm' : Vm} {m registry runtime : Nat} {base : Array Lua.Value}

theorem runWith_room (env : Env) (runtime : Nat) (n : Int) (hm : w.machines.get m = .open vm) :
    ∃ a vm', runWith runtime (some (.main m)) (fun _ => Binding.Api.checkStack n) env w = .ok a (w.put m vm') ∧ vm.Stacks vm.stack vm' := by
  have gives : Lua.Gives (taken w m vm) (perform env (.main m) (.checkStack n)) fun _ vm' => vm.Stacks vm.stack vm' := by
    refine .bind (q := fun _ vm' => vm' = vm) ⟨_, _, rfl, rfl⟩ ?_
    rintro _ _ rfl
    exact .bind (.checkRoom _ _) fun _ _ h => .pure h
  obtain ⟨v, vm', run, h⟩ := runWith_gives env runtime (c := fun _ => .checkStack n) Value.truthy (fun _ => nofun) (fun _ => nofun)
    (fun _ => rfl) hm gives
  exact ⟨_, vm', run, h⟩

/-- Data can be pushed. -/
theorem Refuses.of_sent {v : Value} {u : Lua.Value} (hm : w.machines.get m = .open vm) (data : sent vm.generation v = some u) (e : Failure) :
    ¬ Refuses w v e := fun refused => by
  have raised := refused.error 0 (some (.main m)) none Env.full
  rw [pushHost_sent (t := .main m) 0 none hm data] at raised
  cases raised

/-- A selector of machine `m` in a world where it can take a step: no program has written numbered entries of the registry. -/
structure Selector.Poised (g : Generation) (m : Nat) (s : Selector) (w : World) (vm : Vm) : Prop where
  ready : w.Ready g
  machine : s.machine = some m
  home : w.machineOf s.registry = some m
  goes : s.Goes w
  generation : (w.runtimes.get s.runtime).generation = g
  opened : w.machines.get m = .open vm
  fine : vm.breached = false

namespace Selector

variable {s : Selector}

namespace Poised

variable (h : s.Poised g m w vm)

include h

theorem handle : s.handle = some (.main m) := by rw [Selector.handle, h.machine, Option.map_some]

theorem vm_generation : vm.generation = g := h.ready.lawful.generations m vm h.opened

theorem pairs : w.Pairs m s.registry := h.goes m h.machine

/-- Whatever happens meanwhile, the selector can go on if no program has written numbered entries of the registry. -/
theorem moved (moves : Moves w w') (hr : Reliable g w'.journal) (hm' : w'.machines.get m = .open vm') (fine : vm'.breached = false) :
    s.Poised g m w' vm' where
  ready := h.ready.moved moves hr
  machine := h.machine
  home := (moves.continues.machineOf _).trans h.home
  goes := fun n hn => moves.continues.pairs (h.goes n hn)
  generation := by rw [moves.continues.runtimes, h.generation]
  opened := hm'
  fine := fine

end Poised

/-- Steps of the selector have come to another world, where it can take the next, with some stack. -/
structure Paces (g : Generation) (m : Nat) (s : Selector) (w : World) (vm : Vm) (stack : Array Lua.Value) (w' : World) (vm' : Vm) : Prop
    extends s.Poised g m w' vm' where
  comes : w.Comes g m s.registry stack w'
  stack : vm'.stack = stack
  spares : vm.Spares (w.Books g s.registry w') vm'

/-- Where steps come to, the selector can take the next. -/
theorem Poised.come (h : s.Poised g m w vm) {stack : Array Lua.Value} (comes : w.Comes g m s.registry stack w') (hr : Reliable g w'.journal) :
    ∃ vm', s.Paces g m w vm stack w' vm' := by
  obtain ⟨vm', hm', there⟩ := comes.stack
  obtain ⟨vm₁, hm₁, spares⟩ := comes.opened vm h.opened
  cases hm₁.symm.trans hm'
  exact ⟨vm', h.moved comes.moves hr hm' (spares.breached.trans h.fine), comes, there, spares⟩

namespace Paces

variable {stack : Array Lua.Value} (pace : s.Paces g m w vm stack w' vm')

include pace

theorem trans (h : s.Poised g m w vm) {xs : Array Lua.Value} {w'' : World} {vm'' : Vm} (next : s.Paces g m w' vm' xs w'' vm'') :
    s.Paces g m w vm xs w'' vm'' := by
  obtain ⟨vm₁, hm₁, spares⟩ := (pace.comes.trans next.comes).opened vm h.opened
  cases hm₁.symm.trans next.opened
  exact ⟨next.toPoised, pace.comes.trans next.comes, next.stack, spares⟩

theorem compiled {source : Text} {f : Lua.Value} (h : CompiledFrom vm source f) : CompiledFrom vm' source f :=
  h.of_closures pace.spares.generation pace.spares.size pace.spares.closure

/-- What values are in the world that was come to, they were before. -/
theorem denotes (ready : w.Ready g) {w'' : World} {v : Value} {u : Lua.Value} (h : Denotes g m w' w'' v u) : Denotes g m w w'' v u :=
  h.earlier (pace.comes.moves.carries ready.lawful ready.assigned pace.ready.reliable) pace.comes.references
    pace.comes.moves.continues.machineOf

end Paces

namespace Poised

variable (h : s.Poised g m w vm)

include h

/-- Making room. -/
theorem room (env : Env) (n : Int) : ∃ w' vm', discard (runWith s.runtime s.handle fun _ => Binding.Api.checkStack n) env w = .ok () w' ∧
    s.Paces g m w vm vm.stack w' vm' := by
  obtain ⟨_, vm', run, room⟩ := runWith_room env s.runtime n h.opened
  obtain ⟨vm₁, pace⟩ := h.come (.put h.opened room) h.ready.reliable
  rw [h.handle]
  exact ⟨_, vm₁, discard_ok run, pace⟩

/-- Pushing the table of the globals. -/
theorem globals (env : Env) : ∃ w' vm', runWith s.runtime s.handle Binding.Api.pushGlobals env w = .ok () w' ∧
    s.Paces g m w vm (vm.stack.push vm.globalTable) w' vm' := by
  have run := runWith_globals env (t := .main m) h.opened (h.generation.trans h.vm_generation.symm)
  obtain ⟨vm₁, pace⟩ := h.come (.pushed h.opened vm.globalTable) h.ready.reliable
  rw [h.handle]
  exact ⟨_, vm₁, run, pace⟩

/-- Pushing nil. -/
theorem nothing (env : Env) : ∃ w' vm', runWith s.runtime s.handle (fun _ => Binding.Api.pushNil) env w = .ok () w' ∧
    s.Paces g m w vm (vm.stack.push .nil) w' vm' := by
  obtain ⟨vm₁, pace⟩ := h.come (.pushed h.opened .nil) h.ready.reliable
  rw [h.handle]
  exact ⟨_, vm₁, runWith_pushes (t := .main m) (c := fun _ => .pushNil) s.runtime (fun _ => nofun) (fun _ => nofun) (fun _ => rfl) h.opened rfl,
    pace⟩

/-- Pushing a copy of the value below the top. -/
theorem copy (env : Env) {v f : Lua.Value} (hs : vm.stack = base ++ [v, f].toArray) :
    ∃ w' vm', runWith s.runtime s.handle (fun _ => Binding.Api.pushValue (-2)) env w = .ok () w' ∧
      s.Paces g m w vm (vm.stack.push v) w' vm' := by
  have found : Lua.Stack.value? 0 (int32 (-2)) (taken w m vm) = .ok (some v) (taken w m vm) :=
    Lua.Stack.value?_below (s := taken w m vm) hs (by decide : 1 < 9999)
  obtain ⟨vm₁, pace⟩ := h.come (.pushed h.opened v) h.ready.reliable
  rw [h.handle]
  exact ⟨_, vm₁, runWith_copyAt env s.runtime (t := .main m) h.opened found, pace⟩

/-- Pushing a value of the host, which may be refused. -/
theorem host (he : env.Follows) (v : Value) :
    (∃ u w' vm', pushHost s.runtime s.handle v (some s.registry) env w = .ok () w' ∧ s.Paces g m w vm (vm.stack.push u) w' vm' ∧
        Denotes g m w w' v u) ∨
      ∃ e, pushHost s.runtime s.handle v (some s.registry) env w = .error (.failure e) w ∧ Refuses w v e := by
  have leads : Leads env w (pushHost s.runtime s.handle v (some s.registry)) := .pushHost _ _ _ _ (Leads.selector_pairs h.goes)
  have moves := leads.after he h.ready.lawful.toSound w .refl
  rw [h.handle] at moves ⊢
  obtain ⟨u, w', pushed, run⟩ | ⟨e, refused⟩ := pushHost_pushed (t := .main m) env s.runtime s.registry v h.opened
    (h.ready.generation h.opened)
  · rw [run] at moves
    have comes : w.Comes g m s.registry (vm.stack.push u) w' := pushed.treads h.opened moves
    have journal : w'.journal = w.journal := by
      obtain ⟨_, _, _, rest⟩ := (pushed.level h.opened).rest
      rw [rest]
    obtain ⟨vm₁, pace⟩ := h.come comes (journal ▸ h.ready.reliable)
    exact .inl ⟨u, w', vm₁, run, pace, pushed.denotes h.vm_generation (h.ready.recalls h.opened h.fine _)⟩
  · exact .inr ⟨e, refused.error _ _ _ _, refused⟩

/-- Pushing the function of an accessor chunk. -/
theorem chunk (env : Env) {source : Text} (accessor : source = indexChunk ∨ source = assignChunk) :
    Yields g env w (Registry.pushChunk s.registry source)
      (fun pushed w' => if pushed then ∃ f vm', s.Paces g m w vm (vm.stack.push f) w' vm' ∧ CompiledFrom vm' source f
        else w.Fails g m s.registry w' ∧ ¬ Compiles (w.runtimes.get (w.registries.get s.registry).runtime) source)
      fun _ w' => w.Fails g m s.registry w' ∧ ¬ Compiles (w.runtimes.get (w.registries.get s.registry).runtime) source := by
  obtain ⟨bytes, encoded⟩ := accessor_bytes accessor
  intro hr
  have first := pushChunk_yields h.ready h.opened h.fine h.home env encoded hr
  cases run : Registry.pushChunk s.registry source env w with
  | error e w' =>
    rw [run] at first
    cases first with
    | raised failed => exact .raised failed
    | full => exact .full
  | ok pushed w' =>
    rw [run] at first hr
    cases first with | back came => ?_
    refine .back ?_
    cases pushed with
    | false => exact came
    | true =>
      obtain ⟨f, vm', comes, hm', compiled⟩ := came
      obtain ⟨vm₁, pace⟩ := h.come comes hr
      cases hm'.symm.trans pace.opened
      exact ⟨f, vm', pace, compiled⟩

end Poised

end Selector

end LuaHost.Host
