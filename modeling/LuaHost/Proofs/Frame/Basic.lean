import LuaHost.Lua.Library.Arguments
import LuaHost.Lua.Collector

set_option autoImplicit false

/-!
# Frames

What an evaluation may do to its machine, whatever program it runs. A frame is a reflexive and transitive
relation between systems that holds across every private step: it is then enough that the native
functions from outside keep to it. Each function of the machine gets one lemma that it is within every
frame, and none of its callers opens it again.
-/

namespace LuaHost.Lua

/-- A table after steps that keep its numbered entries and give it no metatable. -/
structure Table.Keeps (t t' : Table) : Prop where
  metatable : t'.metatable = t.metatable
  reserved : t'.reserved = t.reserved
  get_int : ∀ n, t'.get (.int n) = t.get (.int n)

namespace Table.Keeps

theorem refl (t : Table) : t.Keeps t := ⟨rfl, rfl, fun _ => rfl⟩

theorem trans {t u v : Table} (h : t.Keeps u) (k : u.Keeps v) : t.Keeps v :=
  ⟨k.metatable.trans h.metatable, k.reserved.trans h.reserved, fun n => (k.get_int n).trans (h.get_int n)⟩

theorem set (t : Table) (k : Key) (shown value : Value) (hk : shown.key? = some k) (h : k.isInt = false) :
    t.Keeps (t.set k shown value hk) := by
  refine ⟨rfl, rfl, fun n => ?_⟩
  apply get_set_ne
  rintro rfl
  cases h

@[grind ←] theorem setString (t : Table) (s : String) (value : Value) : t.Keeps (t.setString s value) :=
  set t _ _ _ rfl rfl

end Table.Keeps

/-- What every step of a machine keeps: the generation, where the registry is, the functions made, and,
while nothing noted a breach, the numbered entries of the registry's table. -/
structure Vm.Private (vm vm' : Vm) : Prop where
  generation : vm'.generation = vm.generation
  registry : vm'.registry = vm.registry
  breached : vm.breached = true → vm'.breached = true
  tables : vm.tables.size ≤ vm'.tables.size
  closures : vm.closures.size ≤ vm'.closures.size
  closure : ∀ a, a < vm.closures.size → vm'.closures.get a = vm.closures.get a
  entries : vm'.breached = false → vm.registry < vm.tables.size →
    (vm.tables.get vm.registry).metatable = none →
    (vm.tables.get vm.registry).Keeps (vm'.tables.get vm.registry)

namespace Vm.Private

theorem refl (vm : Vm) : vm.Private vm :=
  ⟨rfl, rfl, id, Nat.le_refl _, Nat.le_refl _, fun _ _ => rfl, fun _ _ _ => .refl _⟩

theorem trans {a b c : Vm} (h : a.Private b) (k : b.Private c) : a.Private c where
  generation := k.generation.trans h.generation
  registry := k.registry.trans h.registry
  breached := fun hb => k.breached (h.breached hb)
  tables := Nat.le_trans h.tables k.tables
  closures := Nat.le_trans h.closures k.closures
  closure := fun n hn => (k.closure n (Nat.lt_of_lt_of_le hn h.closures)).trans (h.closure n hn)
  entries := by
    intro hc hr hm
    have hb : b.breached = false := by
      cases hbb : b.breached with
      | false => rfl
      | true => rw [k.breached hbb] at hc; cases hc
    have first := h.entries hb hr hm
    have second := k.entries hc
    rw [h.registry] at second
    exact first.trans (second (Nat.lt_of_lt_of_le hr h.tables) (first.metatable.trans hm))

@[grind ←] theorem of_eq {vm vm' : Vm} (hg : vm'.generation = vm.generation) (hr : vm'.registry = vm.registry)
    (hb : vm'.breached = vm.breached) (ht : vm'.tables = vm.tables) (hc : vm'.closures = vm.closures) :
    vm.Private vm' := by
  refine ⟨hg, hr, fun h => hb.trans h, ?_, ?_, fun a _ => by rw [hc], fun _ _ _ => ?_⟩
  · exact Nat.le_of_eq (by rw [ht])
  · exact Nat.le_of_eq (by rw [hc])
  · rw [ht]; exact .refl _

theorem modifyTable (vm : Vm) (a : Nat) (f : Table → Table) (h : ∀ t : Table, t.Keeps (f t)) :
    vm.Private { vm with tables := vm.tables.modify a f } := by
  refine ⟨rfl, rfl, id, ?_, Nat.le_refl _, fun _ _ => rfl, fun _ _ _ => ?_⟩
  · exact Pool.size_le_size_modify _ _ _
  · change (vm.tables.get vm.registry).Keeps ((vm.tables.modify a f).get vm.registry)
    by_cases ha : vm.registry = a
    · rw [ha, Pool.get_modify_self]
      exact h _
    · rw [Pool.get_modify_ne _ ha]
      exact .refl _

/-- A change of one table that keeps its numbered entries unless it is noted as a breach. -/
theorem modifyNoted (vm : Vm) (a : Nat) (f : Table → Table) (noted : Bool)
    (h : noted = false → a = vm.registry → ∀ t : Table, t.Keeps (f t)) :
    vm.Private { vm with tables := vm.tables.modify a f, breached := vm.breached || noted } := by
  refine ⟨rfl, rfl, ?_, ?_, Nat.le_refl _, fun _ _ => rfl, fun hb _ _ => ?_⟩
  · intro hb
    simp [hb]
  · exact Pool.size_le_size_modify _ _ _
  · change (vm.tables.get vm.registry).Keeps ((vm.tables.modify a f).get vm.registry)
    have hn : noted = false := (Bool.or_eq_false_iff.mp hb).2
    by_cases ha : vm.registry = a
    · rw [ha, Pool.get_modify_self]
      exact h hn ha.symm _
    · rw [Pool.get_modify_ne _ ha]
      exact .refl _

theorem addTable (vm : Vm) (t : Table) : vm.Private { vm with tables := vm.tables.add t } := by
  refine ⟨rfl, rfl, id, ?_, Nat.le_refl _, fun _ _ => rfl, fun _ hr _ => ?_⟩
  · change vm.tables.size ≤ (vm.tables.add t).size
    rw [Pool.size_add]
    exact Nat.le_succ _
  · change (vm.tables.get vm.registry).Keeps ((vm.tables.add t).get vm.registry)
    rw [Pool.get_add_ne _ (Nat.ne_of_lt hr)]
    exact .refl _

theorem addClosure (vm : Vm) (c : Closure) : vm.Private { vm with closures := vm.closures.add c } := by
  refine ⟨rfl, rfl, id, Nat.le_refl _, ?_, fun a ha => ?_, fun _ _ _ => .refl _⟩
  · change vm.closures.size ≤ (vm.closures.add c).size
    rw [Pool.size_add]
    exact Nat.le_succ _
  · exact Pool.get_add_ne _ (Nat.ne_of_lt ha) c

/-- A table without a metatable is not weak, so a collection keeps it. -/
theorem clearWeak (vm : Vm) (m : Marks) (values keys : Bool) : vm.Private (clearWeak vm m values keys) := by
  refine ⟨rfl, rfl, id, ?_, Nat.le_refl _, fun _ _ => rfl, fun _ hr hm => ?_⟩
  · exact Nat.le_of_eq (Pool.size_map _ _).symm
  · have hw : weakness vm (vm.tables.get vm.registry) = ⟨false, false⟩ := by
      unfold weakness
      rw [hm]
    change (vm.tables.get vm.registry).Keeps ((vm.tables.map _).get vm.registry)
    rw [Pool.get_map _ _ hr]
    simp only [hw, Bool.false_and, Bool.or_self, Bool.false_eq_true, if_false]
    exact .refl _

@[grind ←] theorem sweep (vm : Vm) : vm.Private vm.sweep := by
  unfold Vm.sweep
  refine (clearWeak vm (markAll vm (roots vm) (.none vm)) true false).trans ?_
  dsimp only
  refine .trans ?_ (clearWeak _ _ true true)
  exact .of_eq rfl rfl rfl rfl rfl

end Vm.Private

/-- A private step that leaves the threads alone. -/
structure Vm.Quiet (vm vm' : Vm) : Prop where
  keeps : vm.Private vm'
  threads : vm'.threads = vm.threads
  running : vm'.running = vm.running

@[grind ←] theorem Vm.Quiet.of_eq {vm vm' : Vm} (hg : vm'.generation = vm.generation)
    (hr : vm'.registry = vm.registry) (hb : vm'.breached = vm.breached) (ht : vm'.tables = vm.tables)
    (hc : vm'.closures = vm.closures) (hs : vm'.threads = vm.threads) (hn : vm'.running = vm.running) :
    vm.Quiet vm' := ⟨.of_eq hg hr hb ht hc, hs, hn⟩

@[grind ←] theorem Vm.Quiet.sweep (vm : Vm) : vm.Quiet vm.sweep := ⟨.sweep vm, rfl, rfl⟩

/-- The function that runs on a thread may push one more value, and none was ever pushed that had no room. -/
structure Thread.Ready (th : Thread) : Prop where
  covered : th.overdrawn = false
  least : minimumRoom ≤ th.room.count
  allows : th.room.allows th.stack.size = true

namespace Thread.Ready

/-- A stack of fewer values than any function has room for. -/
theorem of_small {th : Thread} (covered : th.overdrawn = false) (least : minimumRoom ≤ th.room.count)
    (small : th.stack.size < minimumRoom) : th.Ready := by
  refine ⟨covered, least, ?_⟩
  unfold Room.allows
  rw [decide_eq_true (Nat.lt_of_lt_of_le small least), Bool.true_or]

/-- A new thread, with the function that it will run. -/
theorem fresh (f : Value) : Thread.Ready { Thread.fresh with stack := #[f] } :=
  .of_small rfl (Nat.le_refl _) (show 1 < minimumRoom by decide)

variable {before th th' : Thread}

theorem of_same (h : th.Ready) (stack : th'.stack = th.stack) (room : th'.room = th.room)
    (overdrawn : th'.overdrawn = th.overdrawn) : th'.Ready :=
  ⟨overdrawn.trans h.covered, room ▸ h.least, room ▸ stack ▸ h.allows⟩

/-- A thread that gets another stack, of few values. -/
theorem restack (h : th.Ready) (small : th'.stack.size < minimumRoom) (room : th'.room = th.room)
    (overdrawn : th'.overdrawn = th.overdrawn) : th'.Ready :=
  .of_small (overdrawn.trans h.covered) (room ▸ h.least) small

/-- A thread that is given back the stack and the room it had. -/
theorem back (had : before.Ready) (h : th.Ready) (stack : th'.stack = before.stack) (room : th'.room = before.room)
    (overdrawn : th'.overdrawn = th.overdrawn) : th'.Ready :=
  ⟨overdrawn.trans h.covered, room ▸ had.least, room ▸ stack ▸ had.allows⟩

end Thread.Ready

/-- Whatever runs on a thread of the machine may push one more value there. -/
def Vm.Ready (vm : Vm) : Prop := ∀ t, (vm.threads.get t).Ready

/-- A private step that leaves ready threads ready. -/
structure Vm.Sparing (vm vm' : Vm) : Prop where
  keeps : vm.Private vm'
  ready : vm.Ready → vm'.Ready

namespace Vm.Sparing

theorem of_eq {vm vm' : Vm} (hg : vm'.generation = vm.generation) (hr : vm'.registry = vm.registry)
    (hb : vm'.breached = vm.breached) (ht : vm'.tables = vm.tables) (hc : vm'.closures = vm.closures)
    (hs : vm.Ready → vm'.Ready) : vm.Sparing vm' := ⟨.of_eq hg hr hb ht hc, hs⟩

theorem ready_modify {threads : Pool Thread} {t : Nat} {f : Thread → Thread} (h : ∀ u, (threads.get u).Ready)
    (hf : (threads.get t).Ready → (f (threads.get t)).Ready) (u : Nat) : ((threads.modify t f).get u).Ready := by
  by_cases hu : u = t
  · rw [hu, Pool.get_modify_self]
    exact hf (h t)
  · rw [Pool.get_modify_ne _ hu]
    exact h u

/-- A change of one thread that leaves it ready. -/
theorem modifyThread (vm : Vm) (t : Nat) (f : Thread → Thread) (h : ∀ th : Thread, th.Ready → (f th).Ready) :
    vm.Sparing { vm with threads := vm.threads.modify t f } :=
  .of_eq rfl rfl rfl rfl rfl fun ready => ready_modify ready (h _)

theorem addThread (vm : Vm) (th : Thread) (h : th.Ready) : vm.Sparing { vm with threads := vm.threads.add th } := by
  refine .of_eq rfl rfl rfl rfl rfl fun ready u => ?_
  by_cases hu : u = vm.threads.size
  · rw [hu, Pool.get_add_self]
    exact h
  · rw [Pool.get_add_ne _ hu]
    exact ready u

end Vm.Sparing

/-- A private step after which threads are ready that were ready both `before` and now. -/
structure Vm.Lends (before vm vm' : Vm) : Prop where
  keeps : vm.Private vm'
  ready : before.Ready → vm.Ready → vm'.Ready

/-- A relation between systems that every quiet step of a machine keeps to, and the signals that may end
one. -/
structure Frame (σ : Type) where
  rel : Sys σ → Sys σ → Prop
  ends : Signal → Prop
  refl : ∀ s, rel s s
  trans : ∀ {s t u}, rel s t → rel t u → rel s u
  quiet : ∀ (s : Sys σ) (vm : Vm), s.vm.Quiet vm → rel s { s with vm }
  error : ∀ status v, ends (.error status v)
  unwinding : ∀ status v, ends (.unwinding status v)
  fault : ∀ f, f ≠ .unprotectedError → ends (.fault f)

variable {σ α β : Type}

/-- A frame that holds across changes of the threads as well. -/
class Frame.Threaded (F : Frame σ) : Prop where
  own : ∀ (s : Sys σ) (vm : Vm), s.vm.Private vm → F.rel s { s with vm }

/-- What a frame promises of one outcome. -/
def Frame.After (F : Frame σ) (s : Sys σ) : EStateM.Result Signal (Sys σ) α → Prop
  | .ok _ s' => F.rel s s'
  | .error e s' => F.rel s s' ∧ F.ends e

theorem Frame.After.of_rel {F : Frame σ} {s t : Sys σ} {r : EStateM.Result Signal (Sys σ) α}
    (k : F.After t r) (h : F.rel s t) : F.After s r := by
  cases r with
  | ok a u => exact F.trans h k
  | error e u => exact ⟨F.trans h k.1, k.2⟩

/-- An action that keeps to a frame however it ends. A structure, so that no unifier runs the action to
see whether it does. -/
structure Within (F : Frame σ) (act : M σ α) : Prop where
  after : ∀ s, F.After s (act s)

namespace Within

variable {F : Frame σ}

@[elab_as_elim] theorem outcome {act : M σ α} {motive : EStateM.Result Signal (Sys σ) α → Prop}
    (h : Within F act) (s : Sys σ) (ok : ∀ a t, F.rel s t → motive (.ok a t))
    (error : ∀ e t, F.rel s t → F.ends e → motive (.error e t)) : motive (act s) := by
  have hs := h.after s
  cases e : act s with
  | ok a t =>
    rw [e] at hs
    exact ok a t hs
  | error x t =>
    rw [e] at hs
    exact error x t hs.1 hs.2

@[grind ←] theorem pure (a : α) : Within F (Pure.pure a : M σ α) := ⟨fun s => F.refl s⟩

@[grind ←] theorem bind {act : M σ α} {next : α → M σ β} (h : Within F act)
    (k : ∀ a, Within F (next a)) : Within F (act >>= next) := by
  constructor
  intro s
  simp only [Bind.bind, EStateM.bind]
  refine h.outcome s ?_ ?_
  · intro a t ht
    exact ((k a).after t).of_rel ht
  · intro e t ht he
    exact ⟨ht, he⟩

@[grind ←] theorem fault (f : Fault) (h : f ≠ .unprotectedError) :
    Within F (M.fault f : M σ α) := ⟨fun s => ⟨F.refl s, F.fault _ h⟩⟩

@[grind ←] theorem throw_fault (f : Fault) (h : f ≠ .unprotectedError) :
    Within F (throw (.fault f) : M σ α) := ⟨fun s => ⟨F.refl s, F.fault _ h⟩⟩

@[grind ←] theorem generation : Within F (M.generation : M σ Generation) := ⟨fun s => F.refl s⟩

@[grind ←] theorem table (a : Nat) : Within F (M.table a : M σ Table) := ⟨fun s => F.refl s⟩

@[grind ←] theorem native (f : Native) : Within F (M.native f : M σ Value) := by
  constructor
  intro s
  simp only [M.native]
  by_cases h : s.vm.generation == .v51
  · simp only [h, if_true]
    exact F.quiet s _ (.of_eq rfl rfl rfl rfl rfl rfl rfl)
  · simp only [h]
    exact F.refl s

variable [F.Threaded]

@[grind ←] theorem modifyAny (f : Vm → Vm) (h : ∀ vm : Vm, vm.Private (f vm)) :
    Within F (M.modifyVm f : M σ Unit) := ⟨fun s => Frame.Threaded.own s _ (h s.vm)⟩

end Within

structure Services.Within (F : Frame σ) (services : Services σ) : Prop where
  call : ∀ f args, Lua.Within F (services.call f args)
  callPlain : ∀ f args, Lua.Within F (services.callPlain f args)
  resume : ∀ co args, Lua.Within F (services.resume co args)

def Natives.Within (F : Frame σ) (natives : Natives σ) : Prop :=
  ∀ services, services.Within F → ∀ f upvalues args, Lua.Within F (natives services f upvalues args)

attribute [grind ←] Services.Within.call Services.Within.callPlain Services.Within.resume

end LuaHost.Lua
