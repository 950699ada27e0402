import LuaHost.Proofs.Callbacks.Balance

set_option autoImplicit false

/-!
# Results that reach a thread

A value that is offered to a thread is pushed, or refused with an error that changes nothing. Pushing
changes no slot and no reference, and what it comes to hold is what the value holds.
-/

namespace LuaHost.Host

open Lua (M Vm Generation)
open Binding (Runtime)

variable {env : Env} {w w' : World} {vm : Vm} {f : Foreign} {t : Handle} {m registry : Nat}

/-! ## What holds a reference -/

/-- Whether something other than an operation in progress holds a reference. -/
def World.anchored (w : World) (id : Nat) : Bool :=
  w.stored.any (fun (_, s) => s.references.contains id) || (referencesOfAll w.kept).contains id || w.trampolineReferences.contains id

theorem World.holds_eq (w : World) (id : Nat) : w.holds id = (w.anchored id || w.inFlight.any (·.contains id)) := by
  unfold World.holds World.anchored
  ac_rfl

theorem World.mem_trampolineReferences {id : Nat} :
    id ∈ w.trampolineReferences ↔ ∃ n k, w.Keeps n (.foreign k) ∧ id ∈ (w.foreigns.get k).routine.references := by
  unfold World.trampolineReferences World.Keeps
  simp only [List.mem_flatMap, Prod.exists]
  constructor
  · rintro ⟨n, fs, hfs, f, hf, hid⟩
    cases f with
    | foreign k => exact ⟨n, k, ⟨fs, hfs, hf⟩, hid⟩
    | _ => cases hid
  · rintro ⟨n, k, ⟨fs, hfs, hf⟩, hid⟩
    exact ⟨n, fs, hfs, _, hf, hid⟩

/-- Nothing has changed but machines, of which none was closed, and the functions of the host; all that has come to be held is among
some references. -/
structure World.Level (ids : List Nat) (w w' : World) : Prop where
  rest : ∃ machines foreigns trampolines, w' = { w with machines, foreigns, trampolines }
  opened : ∀ n vm, w.machines.get n = .open vm → ∃ vm', w'.machines.get n = .open vm' ∧ vm.Alike vm'
  functions : ∀ k, k < w.foreigns.size → k < w'.foreigns.size ∧ (w'.foreigns.get k).routine = (w.foreigns.get k).routine
  held : ∀ id ∈ w.trampolineReferences, id ∈ w'.trampolineReferences
  only : ∀ id ∈ w'.trampolineReferences, id ∈ w.trampolineReferences ∨ id ∈ ids

namespace World.Level

variable {ids : List Nat}

theorem refl (w : World) : w.Level [] w :=
  ⟨⟨_, _, _, rfl⟩, fun _ vm hm => ⟨vm, hm, .refl vm⟩, fun _ hk => ⟨hk, rfl⟩, fun _ h => h, fun _ => .inl⟩

theorem trans {a b c : World} {more : List Nat} (h : a.Level ids b) (k : b.Level more c) : a.Level (ids ++ more) c where
  rest := by
    obtain ⟨_, _, _, rfl⟩ := h.rest
    obtain ⟨machines, foreigns, trampolines, rfl⟩ := k.rest
    exact ⟨machines, foreigns, trampolines, rfl⟩
  opened := fun n vm hm => by
    obtain ⟨vm₁, hm₁, alike⟩ := h.opened n vm hm
    obtain ⟨vm₂, hm₂, alike'⟩ := k.opened n vm₁ hm₁
    exact ⟨vm₂, hm₂, alike.trans alike'⟩
  functions := fun n hn => by
    obtain ⟨hn₁, same⟩ := h.functions n hn
    obtain ⟨hn₂, same'⟩ := k.functions n hn₁
    exact ⟨hn₂, same'.trans same⟩
  held := fun id hid => k.held id (h.held id hid)
  only := fun id hid => by
    obtain old | new := k.only id hid
    · exact (h.only id old).imp_right (List.mem_append_left _)
    · exact .inr (List.mem_append_right _ new)

theorem mono {more : List Nat} (h : w.Level ids w') (among : ∀ id ∈ ids, id ∈ more) : w.Level more w' :=
  ⟨h.rest, h.opened, h.functions, h.held, fun id hid => (h.only id hid).imp_right (among id)⟩

/-- A machine that has another state. -/
theorem put (hm : w.machines.get m = .open vm) {vm' : Vm} (alike : vm.Alike vm') : w.Level [] (w.put m vm') := by
  refine ⟨⟨_, _, _, rfl⟩, fun n v hv => ?_, fun _ hk => ⟨hk, rfl⟩, fun _ h => h, fun _ => .inl⟩
  by_cases same : n = m
  · subst same
    cases hm.symm.trans hv
    exact ⟨vm', World.get_put _ _ _, alike⟩
  · exact ⟨v, (Pool.get_put_ne _ same _).trans hv, .refl v⟩

theorem anchored (h : w.Level ids w') {id : Nat} (hid : w.anchored id = true) : w'.anchored id = true := by
  obtain ⟨machines, foreigns, trampolines, rfl⟩ := h.rest
  have held := h.held id
  simp only [World.anchored, Bool.or_eq_true, List.contains_iff_mem] at hid ⊢
  exact hid.imp_right held

theorem inReach (h : w.Level ids w') {id : Nat} (reach : w.InReach id) : w'.InReach id := by
  have opened := h.opened
  obtain ⟨machines, foreigns, trampolines, rfl⟩ := h.rest
  intro hh n home
  obtain ⟨vm, hm⟩ := reach hh n home
  exact (opened n vm hm).imp fun _ h => h.1

/-- What is held by things in progress anyway is all that can come to be held. -/
theorem holds_iff (h : w.Level ids w') (inFlight : ∀ id ∈ ids, w.holds id = true) (id : Nat) : w'.holds id = true ↔ w.holds id = true := by
  obtain ⟨machines, foreigns, trampolines, rfl⟩ := h.rest
  constructor
  · intro hid
    by_cases new : id ∈ ids
    · exact inFlight id new
    · have only := h.only id
      simp only [World.holds, Bool.or_eq_true, List.contains_iff_mem] at hid ⊢
      exact hid.imp_right fun ht => (only ht).resolve_right new
  · have held := h.held id
    intro hid
    simp only [World.holds, Bool.or_eq_true, List.contains_iff_mem] at hid ⊢
    exact hid.imp_right held

end World.Level

/-! ## Functions of the host -/

/-- The routine of a value that is pushed as a function. -/
def Value.routine? : Value → Option Routine
  | .callable c => some (.callback c)
  | .pointer f => some (.callback (.named "" (.const (.pointer f))))
  | _ => .none

/-- A world with a function more, made through a registry. -/
def World.added (w : World) (registry : Nat) (routine : Routine) : World :=
  { w with
    foreigns := w.foreigns.add ⟨routine, false, (w.registries.get registry).runtime, registry,
      (w.registries.get registry).reporter, w.machineOf registry, []⟩ }

/-- The function is kept if the registry has a machine. -/
def World.made (w : World) (registry : Nat) (routine : Routine) : World :=
  match w.machineOf registry with
  | none => w.added registry routine
  | some m => (w.added registry routine).keep m (.foreign w.foreigns.size)

theorem wrap_made (routine : Routine) :
    Registry.wrap registry routine env w = .ok (.foreign w.foreigns.size) (w.made registry routine) := by
  have run : Registry.wrap registry routine env w =
      (Registry.keep registry (.foreign w.foreigns.size) >>= fun _ => Pure.pure (.foreign w.foreigns.size) : H Lua.Native) env
        (w.added registry routine) := rfl
  have keep : Registry.keep registry (.foreign w.foreigns.size) env (w.added registry routine) =
      (match w.machineOf registry with
        | none => Pure.pure ()
        | some m => MonadState.modifyGet fun w' => ((), w'.keep m (.foreign w.foreigns.size)) : H Unit) env
          (w.added registry routine) := rfl
  have kept : Registry.keep registry (.foreign w.foreigns.size) env (w.added registry routine) = .ok () (w.made registry routine) := by
    rw [keep, World.made]
    cases w.machineOf registry <;> rfl
  rw [run, bind_ok kept]
  rfl

/-- What a machine keeps besides, when it keeps a function. -/
theorem World.keeps_of_keep {n m : Nat} {f f' : Lua.Native} (h : (w.keep m f).Keeps n f') : w.Keeps n f' ∨ f' = f := by
  obtain ⟨fs, hfs, hf⟩ := h
  unfold World.keep at hfs
  dsimp only at hfs
  split at hfs
  · obtain ⟨⟨k, gs⟩, hgs, same⟩ := List.mem_map.mp hfs
    dsimp only at same
    split at same
    · cases same
      obtain old | new := List.mem_append.mp hf
      · exact .inl ⟨gs, hgs, old⟩
      · exact .inr (List.mem_singleton.mp new)
    · cases same
      exact .inl ⟨fs, hgs, hf⟩
  · obtain old | new := List.mem_append.mp hfs
    · exact .inl ⟨fs, old, hf⟩
    · cases List.mem_singleton.mp new
      exact .inr (List.mem_singleton.mp hf)

section Made

variable (routine : Routine) {id : Nat}

theorem World.routine_added (k : Nat) : ((w.added registry routine).foreigns.get k).routine =
    if k = w.foreigns.size then routine else (w.foreigns.get k).routine := by
  unfold World.added
  dsimp only
  by_cases h : k = w.foreigns.size
  · rw [if_pos h, h, Pool.get_add_self]
  · rw [if_neg h, Pool.get_add_ne _ h]

theorem World.foreigns_made : (w.made registry routine).foreigns = (w.added registry routine).foreigns := by
  unfold World.made
  split <;> rfl

theorem World.machines_made : (w.made registry routine).machines = w.machines := by
  unfold World.made
  split <;> rfl

theorem World.machines_give (f : Lua.Native) : (w.give m f).machines = w.machines := by
  obtain ⟨foreigns, he⟩ := w.give_eq m f
  rw [he]

theorem World.size_give (w : World) (m : Nat) (f : Lua.Native) : w.foreigns.size ≤ (w.give m f).foreigns.size := by
  unfold World.give
  split
  · split
    · exact Nat.le_refl _
    · exact Pool.size_le_size_modify _ _ _
  · exact Nat.le_refl _

theorem World.keeps_made {n : Nat} {f : Lua.Native} (h : w.Keeps n f) : (w.made registry routine).Keeps n f := by
  unfold World.made
  split
  · exact h
  · exact Keeps.keep h _ _

theorem World.keeps_of_made {n : Nat} {f : Lua.Native} (h : (w.made registry routine).Keeps n f) :
    w.Keeps n f ∨ f = .foreign w.foreigns.size := by
  unfold World.made at h
  split at h
  · exact .inl h
  · exact World.keeps_of_keep h

/-- Nothing but the references of its routine comes to be held by a function that is made. -/
theorem World.level_made : w.Level routine.references (w.made registry routine) where
  rest := by
    unfold World.made
    split
    · exact ⟨_, _, _, rfl⟩
    · exact ⟨_, _, _, rfl⟩
  opened := fun _ vm hm => by
    refine ⟨vm, ?_, .refl vm⟩
    unfold World.made
    split
    · exact hm
    · exact hm
  functions := fun k hk => by
    rw [World.foreigns_made, World.routine_added, if_neg (Nat.ne_of_lt hk)]
    exact ⟨Nat.lt_of_lt_of_eq (Nat.lt_succ_of_lt hk) (Pool.size_add _ _).symm, rfl⟩
  held := fun id hid => by
    obtain ⟨n, k, keeps, hk⟩ := World.mem_trampolineReferences.mp hid
    refine World.mem_trampolineReferences.mpr ⟨n, k, World.keeps_made routine keeps, ?_⟩
    rw [World.foreigns_made, World.routine_added]
    split
    · next same =>
      rw [same, Pool.get_of_size_le _ (Nat.le_refl _)] at hk
      cases hk
    · exact hk
  only := fun id hid => by
    obtain ⟨n, k, keeps, hk⟩ := World.mem_trampolineReferences.mp hid
    rw [World.foreigns_made, World.routine_added] at hk
    split at hk
    · exact .inr hk
    · next other =>
      refine .inl (World.mem_trampolineReferences.mpr ⟨n, k, (World.keeps_of_made routine keeps).resolve_right ?_, hk⟩)
      rintro ⟨⟩
      exact other rfl

theorem World.level_give (f : Lua.Native) : w.Level [] (w.give m f) := by
  have same := w.foreign_give m f
  have size := w.size_give m f
  obtain ⟨foreigns, he⟩ := w.give_eq m f
  rw [he] at same size ⊢
  refine ⟨⟨_, _, _, rfl⟩, fun _ vm hm => ⟨vm, hm, .refl vm⟩, fun k hk => ⟨Nat.lt_of_lt_of_le hk size, (same k).1⟩, fun id hid => ?_,
    fun id hid => .inl ?_⟩
  · obtain ⟨n, k, keeps, hk⟩ := World.mem_trampolineReferences.mp hid
    exact World.mem_trampolineReferences.mpr ⟨n, k, keeps, (same k).1 ▸ hk⟩
  · obtain ⟨n, k, keeps, hk⟩ := World.mem_trampolineReferences.mp hid
    exact World.mem_trampolineReferences.mpr ⟨n, k, keeps, (same k).1 ▸ hk⟩

end Made

/-! ## What is pushed -/

/-- A function is given to a machine and becomes one of its values. -/
theorem given_runs (m : Nat) (f : Lua.Native) (s : Lua.Sys World) :
    ∃ n vm', s.vm.Akin vm' ∧ vm'.natives = s.vm.natives ∧ vm'.threads = s.vm.threads ∧
      Host.given m f s = .ok (.native f n) ⟨vm', s.host.give m f⟩ := by
  have run : Host.given m f s = M.native f ⟨s.vm, s.host.give m f⟩ := rfl
  rw [run]
  unfold M.native
  split
  · exact ⟨_, { s.vm with nextIdentity := s.vm.nextIdentity + 1 }, ⟨⟨rfl, rfl, rfl, rfl, Nat.le_refl _, fun _ _ => rfl⟩, rfl⟩, rfl,
      rfl, rfl⟩
  · exact ⟨0, s.vm, .refl _, rfl, rfl, rfl⟩

theorem Perform.pushCClosure_pointer (f : Lua.Native) (s : Lua.Sys World) :
    ∃ n vm', s.vm.Akin vm' ∧ vm'.natives = s.vm.natives ∧ vm'.stackOf t.thread = (s.vm.stackOf t.thread).push (.native f n) ∧
      perform env t (.pushCClosure (.pointer f)) s = .ok .none ⟨vm', s.host.give t.machine f⟩ := by
  have run : perform env t (.pushCClosure (.pointer f)) s =
      quiet (Host.given t.machine f >>= fun v => Lua.Stack.push t.thread v) s := rfl
  obtain ⟨n, vm', akin, natives, threads, given⟩ := given_runs t.machine f s
  refine ⟨n, vm'.pushed t.thread (.native f n), akin.course _ _ _, natives, ?_, ?_⟩
  · rw [Lua.Vm.stackOf_pushed, Lua.Vm.stackOf, threads, Lua.Vm.stackOf]
  · rw [run]
    simp only [quiet, Bind.bind, EStateM.bind, given, Lua.Stack.push_eq]
    rfl

/-- A function is given to a machine and pushed. -/
theorem runWith_pushFunction (env : Env) (runtime : Nat) (f : Lua.Native) (hm : w.machines.get t.machine = .open vm) :
    ∃ n vm', vm.Akin vm' ∧ vm'.natives = vm.natives ∧ vm'.stackOf t.thread = (vm.stackOf t.thread).push (.native f n) ∧
      runWith runtime (some t) (fun _ => Binding.Api.pushCFunction (.pointer f)) env w =
        .ok () ((w.give t.machine f).put t.machine vm') := by
  have asked := runWith_call (w := w) env runtime (some t) (fun _ => .pushCClosure (.pointer f)) fun _ => ()
  change runWith runtime (some t) (fun _ => Binding.Api.pushCFunction (.pointer f)) env w = _ at asked
  obtain ⟨n, vm', akin, natives, stack, performed⟩ := @Perform.pushCClosure_pointer env t f (taken w t.machine vm)
  have back : putBack ⟨vm', (taken w t.machine vm).host.give t.machine f⟩ t.machine = (w.give t.machine f).put t.machine vm' := by
    have given := Perform.give_putBack t.machine f (⟨vm', (taken w t.machine vm).host⟩ : Lua.Sys World)
    rw [← given]
    have first : putBack (⟨vm', (taken w t.machine vm).host⟩ : Lua.Sys World) t.machine = w.put t.machine vm' :=
      putBack_with w t.machine vm vm'
    rw [first]
    cases f with
    | foreign id =>
      unfold World.give World.put
      dsimp only
      split <;> rfl
    | _ => rfl
  rw [execute_ok (c := .pushCClosure _) nofun nofun rfl hm performed, back] at asked
  exact ⟨n, vm', akin, natives, stack, asked⟩

/-- A value of the host is pushed on a thread as a value of its machine. -/
inductive Pushed (registry : Nat) (t : Handle) (vm : Vm) (w : World) : Value → Lua.Value → World → Prop where
  | data {v : Value} {u : Lua.Value} (copy : sent vm.generation v = some u) : Pushed registry t vm w v u (w.pushed t vm u)
  | reference {id m : Nat} (home : w.machineOf (w.references.get id).registry = some m) :
    Pushed registry t vm w (.reference id) (vm.entry (Int64.ofInt (conveyed vm.generation (w.references.get id).slot)))
      (w.pushed t vm (vm.entry (Int64.ofInt (conveyed vm.generation (w.references.get id).slot))))
  | function {v : Value} {routine : Routine} {n : Nat} {vm' : Vm} (hv : v.routine? = some routine) (akin : vm.Akin vm')
    (natives : vm'.natives = vm.natives)
    (stack : vm'.stackOf t.thread = (vm.stackOf t.thread).push (.native (.foreign w.foreigns.size) n)) :
    Pushed registry t vm w v (.native (.foreign w.foreigns.size) n)
      (((w.made registry routine).give t.machine (.foreign w.foreigns.size)).put t.machine vm')

theorem alike_pushed (vm : Vm) (t : Nat) (u : Lua.Value) : vm.Alike (vm.pushed t u) :=
  ⟨rfl, rfl, rfl, rfl, Nat.le_refl _, fun _ _ => rfl⟩

namespace Pushed

variable {v : Value} {u : Lua.Value}

theorem routine_references {routine : Routine} (hv : v.routine? = some routine) : routine.references = v.references := by
  cases v <;> cases hv <;> rfl

theorem level (h : Pushed registry t vm w v u w') (hm : w.machines.get t.machine = .open vm) : w.Level v.references w' := by
  have put (u : Lua.Value) : w.Level v.references (w.pushed t vm u) :=
    (World.Level.put hm (alike_pushed vm t.thread u)).mono nofun
  cases h with
  | data _ => exact put u
  | reference _ => exact put _
  | @function _ routine n vm' hv akin _ _ =>
    have made : w.Level routine.references (w.made registry routine) := World.level_made routine
    have given := made.trans (World.level_give (m := t.machine) (.foreign w.foreigns.size))
    have opened : ((w.made registry routine).give t.machine (.foreign w.foreigns.size)).machines.get t.machine = .open vm := by
      rw [World.machines_give, World.machines_made]
      exact hm
    rw [← routine_references hv]
    exact (given.trans (World.Level.put opened akin.toAlike)).mono fun id hid => by
      rwa [List.append_nil, List.append_nil] at hid

end Pushed

/-- A value that is no reference and no function and cannot be copied is refused, with an error that depends on
nothing but the value. -/
theorem pushHost_refused {g : Generation} {v : Value} (copy : sent g v = none) (routine : v.routine? = none)
    (other : ∀ id, v ≠ .reference id) : ∃ e, ∀ runtime l registry env w,
      pushHost runtime l v registry env w = .error (.failure e) w := by
  have bytes {v : Value} (h : (sourceBytes v).toOption.map Lua.Value.str = none) : ∃ e, ∀ runtime l env w,
      runWith runtime l (fun _ => Binding.Api.pushString v) env w = .error (.failure e) w := by
    cases source : sourceBytes v with
    | ok b =>
      rw [source] at h
      cases h
    | error e =>
      refine ⟨e, fun runtime l env w => ?_⟩
      unfold Binding.Api.pushString
      rw [source]
      rfl
  cases v with
  | none | bool | float => cases copy
  | int n =>
    replace copy : (if leastInteger ≤ n ∧ n ≤ greatestInteger then some (Lua.Value.ofInt g n)
        else (floatOfInt n).toOption.map .float) = none := copy
    unfold pushHost
    dsimp only
    by_cases small : leastInteger ≤ n ∧ n ≤ greatestInteger
    · rw [if_pos small] at copy
      cases copy
    · rw [if_neg small] at copy
      cases double : floatOfInt n with
      | ok x =>
        rw [double] at copy
        cases copy
      | error e => exact ⟨e, fun _ _ _ _ _ => by rw [if_neg small]; rfl⟩
  | text s => exact (bytes copy).imp fun e h runtime l _ env w => h runtime l env w
  | bytes b => exact (bytes (v := .bytes b) copy).imp fun e h runtime l _ env w => h runtime l env w
  | byteArray b => exact (bytes (v := .byteArray b) copy).imp fun e h runtime l _ env w => h runtime l env w
  | reference id => exact absurd rfl (other id)
  | callable | pointer => cases routine
  | tuple | list | set | dict | other => exact ⟨_, fun _ _ _ _ _ => rfl⟩

/-- What is raised for a reference whose registry has been closed. -/
def refusal : Failure := .raised "LuaStateClosed" "registry reference used after its State was closed"

/-- A value cannot be pushed: a reference whose registry has been closed, or a value that never can be. -/
inductive Refuses (w : World) : Value → Failure → Prop where
  | closed {id : Nat} (home : w.machineOf (w.references.get id).registry = none) :
    Refuses w (.reference id) refusal
  | unfit {v : Value} {e : Failure} (other : ∀ id, v ≠ .reference id) (h : ∀ runtime l registry env w,
      pushHost runtime l v registry env w = .error (.failure e) w) : Refuses w v e

namespace Refuses

variable {v : Value} {e : Failure}

theorem error (h : Refuses w v e) (runtime : Nat) (l : Option Handle) (registry : Option Nat) (env : Env) :
    pushHost runtime l v registry env w = .error (.failure e) w := by
  cases h with
  | closed home => exact pushHost_closed runtime registry l home
  | unfit _ h => exact h runtime l registry env w

theorem of_same (h : Refuses w v e) (same : ∀ id, w'.machineOf (w'.references.get id).registry = w.machineOf (w.references.get id).registry) :
    Refuses w' v e := by
  cases h with
  | closed home => exact .closed ((same _).trans home)
  | unfit other h => exact .unfit other h

theorem reference_iff {id : Nat} :
    Refuses w (.reference id) e ↔ w.machineOf (w.references.get id).registry = none ∧ e = refusal := by
  constructor
  · intro h
    cases h with
    | closed home => exact ⟨home, rfl⟩
    | unfit other _ => exact absurd rfl (other id)
  · rintro ⟨home, rfl⟩
    exact .closed home

end Refuses

/-- A value that is offered is pushed, or refused. -/
theorem pushHost_pushed (env : Env) (runtime registry : Nat) (v : Value) (hm : w.machines.get t.machine = .open vm)
    (hg : ∀ id, (w.runtimes.get (w.registries.get id).runtime).generation = vm.generation) :
    (∃ u w', Pushed registry t vm w v u w' ∧ pushHost runtime (some t) v (some registry) env w = .ok () w') ∨
      ∃ e, Refuses w v e := by
  have wrapped {v : Value} {routine : Routine} (hv : v.routine? = some routine) :
      ∃ u w', Pushed registry t vm w v u w' ∧
        pushHost.wrapped runtime (some t) (some registry) routine env w = .ok () w' := by
    obtain ⟨n, vm', akin, natives, stack, pushed⟩ := runWith_pushFunction (w := w.made registry routine) env runtime
      (.foreign w.foreigns.size) (by rw [World.machines_made]; exact hm)
    exact ⟨_, _, .function hv akin natives stack, (bind_ok (wrap_made routine)).trans pushed⟩
  cases copy : sent vm.generation v with
  | some u => exact .inl ⟨u, _, .data copy, pushHost_sent runtime _ hm copy⟩
  | none =>
    cases routine : v.routine? with
    | some r =>
      refine .inl ?_
      cases v <;> cases routine
      · exact wrapped rfl
      · exact wrapped rfl
    | none =>
      cases v with
      | reference id =>
        cases home : w.machineOf (w.references.get id).registry with
        | none => exact .inr ⟨_, .closed home⟩
        | some n => exact .inl ⟨_, _, .reference home, pushHost_entry _ _ home hm (hg _)⟩
      | _ => exact .inr ((pushHost_refused copy routine nofun).imp fun e h => .unfit nofun h)

/-- Values are pushed one after another, none of which is refused. -/
inductive PushedAll (registry : Nat) (t : Handle) : World → List Value → List Lua.Value → World → Prop where
  | nil (w : World) : PushedAll registry t w [] [] w
  | cons {w w₁ w' : World} {vm : Vm} {v : Value} {u : Lua.Value} {vs : List Value} {us : List Lua.Value}
    (hm : w.machines.get t.machine = .open vm) (h : Pushed registry t vm w v u w₁) (free : ∀ e, ¬ Refuses w v e)
    (rest : PushedAll registry t w₁ vs us w') : PushedAll registry t w (v :: vs) (u :: us) w'

theorem PushedAll.level {vs : List Value} {us : List Lua.Value} (h : PushedAll registry t w vs us w') :
    w.Level (referencesOfAll vs) w' := by
  induction h with
  | nil w => exact .refl w
  | cons hm h _ _ ih => exact (h.level hm).trans ih

theorem pushResults_cons (f : Foreign) (k : Nat) (v : Value) (vs : List Value) :
    pushResults f t k (v :: vs) =
      (H.catch_ (do pushHost f.runtime (some t) v (some f.registry); return none) (fun e => return some e) >>= fun pushed =>
        match pushed with
        | some e => return some (k, e)
        | none => pushResults f t (k + 1) vs : H (Option (Nat × Failure))) := rfl

/-- Results are pushed up to the first that is refused. -/
theorem pushResults_pushed (env : Env) (f : Foreign) (k : Nat) (vs : List Value) (hm : w.machines.get t.machine = .open vm)
    (hg : ∀ id, (w.runtimes.get (w.registries.get id).runtime).generation = vm.generation) :
    (∃ us w', PushedAll f.registry t w vs us w' ∧ pushResults f t k vs env w = .ok none w') ∨
      ∃ before v after us e w', vs = before ++ v :: after ∧ PushedAll f.registry t w before us w' ∧ Refuses w' v e ∧
        pushResults f t k vs env w = .ok (some (k + before.length, e)) w' := by
  induction vs generalizing w vm k with
  | nil => exact .inl ⟨[], w, .nil w, rfl⟩
  | cons v vs ih =>
    obtain ⟨u, w₁, pushed, done⟩ | ⟨e, refused⟩ := pushHost_pushed env f.runtime f.registry v hm hg
    · have free (e : Failure) (refused : Refuses w v e) : False := by
        cases done.symm.trans (refused.error f.runtime (some t) (some f.registry) env)
      have caught : H.catch_ (do pushHost f.runtime (some t) v (some f.registry); return none) (fun e => return some e) env w =
          .ok (none : Option Failure) w₁ := by
        rw [H.catch_, bind_ok done]
        rfl
      have level := pushed.level hm
      obtain ⟨vm₁, hm₁, alike⟩ := level.opened _ vm hm
      have hg₁ : ∀ id, (w₁.runtimes.get (w₁.registries.get id).runtime).generation = vm₁.generation := by
        obtain ⟨_, _, _, rfl⟩ := level.rest
        exact fun id => (hg id).trans alike.generation.symm
      rw [pushResults_cons, bind_ok caught]
      obtain ⟨us, w', rest, run⟩ | ⟨before, v', after, us, e, w', rfl, rest, refused, run⟩ := ih (k + 1) hm₁ hg₁
      · exact .inl ⟨u :: us, w', .cons hm pushed free rest, run⟩
      · refine .inr ⟨v :: before, v', after, u :: us, e, w', rfl, .cons hm pushed free rest, refused, run.trans ?_⟩
        rw [List.length_cons, Nat.add_assoc, Nat.add_comm 1]
    · have caught : H.catch_ (do pushHost f.runtime (some t) v (some f.registry); return none) (fun e => return some e) env w =
          .ok (some e) w := by
        rw [H.catch_, bind_error (refused.error f.runtime (some t) (some f.registry) env)]
        rfl
      rw [pushResults_cons, bind_ok caught]
      exact .inr ⟨[], v, vs, [], e, w, rfl, .nil w, refused, rfl⟩

end LuaHost.Host
