import Mathlib.Logic.Relation
import LuaHost.Host.Trampoline
import LuaHost.Proofs.Moves.Slots

set_option autoImplicit false

/-!
# Moves

What a world does while operations and the functions of machines run, one step after another: a machine
goes on by a private step, a value is pinned and referenced, a slot is given back, a function is made,
kept and given to a machine. Whatever runs, the world makes moves only; what every move keeps, every
operation keeps. States, registries and machines come and go by other steps.
-/

namespace LuaHost.Host

open Lua (Vm)

/-! ## Local routines -/

/-- The calls that neither make nor close a machine, nor use its slots, nor give it a function. -/
def Ordinary : Binding.Call → Prop
  | .newState | .close | .ref _ | .unref _ _ | .pushCClosure _ | .requireF _ _ _ => False
  | _ => True

/-- The ordinary calls that neither compile nor run a program of the machine. -/
def Mute : Binding.Call → Prop
  | .loadString _ | .loadFile _ => False
  | .pcall .. | .gc | .getField .. | .getTable _ | .setField .. | .setTable _ | .getGlobal _ | .setGlobal _ => False
  | c => Ordinary c

/-- A kind of calls to which the mute ones belong. -/
class Wide (P : Binding.Call → Prop) : Prop where
  mute : ∀ c, Mute c → P c

instance : Wide Mute := ⟨fun _ h => h⟩

instance : Wide Ordinary where
  mute c h := by
    cases c <;> first | exact h | exact h.elim

/-- A routine that makes ordinary calls only; a callback makes none. -/
def Routine.Local : Routine → Prop
  | .raw calls _ _ => ∀ c ∈ calls, ∃ name method, c = .plain name method ∧ ∀ r, (method.program r).All Ordinary
  | .callback _ => True

/-! ## Worlds -/

/-- The machine of which a registry pins values, while it has one. -/
def World.machineOf (w : World) (registry : Nat) : Option Nat := (w.registries.get registry).machine

/-- A registry that has been made pins values of a machine, or of none any more. -/
def World.Pairs (w : World) (m : Nat) (registry : Nat) : Prop :=
  registry < w.registries.size ∧ (w.machineOf registry = none ∨ w.machineOf registry = some m)

def World.Open (w : World) (m : Nat) : Prop := ∃ vm, w.machines.get m = .open vm

/-- A function is kept for a machine. -/
def World.Keeps (w : World) (m : Nat) (f : Lua.Native) : Prop := ∃ fs, (m, fs) ∈ w.trampolines ∧ f ∈ fs

/-- A function may be given to a machine: it was made through a registry that goes with the machine, and
is kept if that registry still had the machine. -/
def World.Grants (w : World) (m : Nat) (f : Lua.Native) : Prop :=
  ∀ id, f = .foreign id → id < w.foreigns.size ∧ w.Pairs m (w.foreigns.get id).registry ∧
    ((w.foreigns.get id).home = some m → w.Keeps m f)

/-- A value is the function of a chunk's text. -/
def CompiledFrom (vm : Vm) (source : Text) (v : Lua.Value) : Prop :=
  ∃ bytes, encode source = .ok bytes ∧ vm.Compiled (upToNul bytes) v

/-- Nothing that a slot or a function of a machine depends on has changed. -/
structure World.Beside (w w' : World) : Prop where
  machines : w'.machines = w.machines
  runtimes : w'.runtimes = w.runtimes
  registries : w'.registries = w.registries
  references : w'.references = w.references
  foreigns : w'.foreigns = w.foreigns
  trampolines : w'.trampolines = w.trampolines
  states : w'.states = w.states
  names : w'.names = w.names
  stored : w'.stored = w.stored
  journal : w'.journal = w.journal

inductive Move (w : World) : World → Prop where
  | step {m : Nat} {vm vm' : Vm} (hm : w.machines.get m = .open vm) (h : vm.Private vm') :
    Move w { w with machines := w.machines.put m (.open vm') }
  /-- no slot was left -/
  | refused {m : Nat} {vm vm' : Vm} (hm : w.machines.get m = .open vm)
    (h : vm.Edits (· = Lua.Stack.freeListSlot vm.generation) vm') :
    Move w { w with machines := w.machines.put m (.open vm') }
  | beside {w' : World} (h : w.Beside w') : Move w w'
  | collected (m : Nat) : Move w { w with journal := .collected m :: w.journal }
  | entered {m id : Nat} (hm : w.Open m) (h : m ∈ (w.foreigns.get id).machines) :
    Move w { w with journal := .entered m id (w.isKept m (.foreign id)) :: w.journal }
  | referenced {m registry : Nat} {vm vm' : Vm} {v : Lua.Value} {slot : Int} (hm : w.machines.get m = .open vm)
    (hr : w.Pairs m registry) (h : vm.Pins v slot vm') :
    Move w
      { w with
        machines := w.machines.put m (.open vm'), references := w.references.add ⟨registry, slot⟩
        journal := .pinned m v slot :: w.journal }
  | cached {m registry : Nat} {vm vm' : Vm} {source : Text} {v : Lua.Value} {slot : Int}
    (hm : w.machines.get m = .open vm) (hr : w.machineOf registry = some m) (hv : CompiledFrom vm source v)
    (h : vm.Pins v slot vm') :
    Move w
      { w with
        machines := w.machines.put m (.open vm')
        registries := w.registries.modify registry fun r => { r with chunks := r.chunks ++ [(source, slot)] }
        journal := .pinned m v slot :: w.journal }
  | released {m id : Nat} {vm vm' : Vm} (hm : w.machines.get m = .open vm) (hh : (w.references.get id).holds = true)
    (hr : w.machineOf (w.references.get id).registry = some m)
    (h : vm.Unpins (int32 (w.references.get id).slot) vm') :
    Move w
      { w with
        machines := w.machines.put m (.open vm')
        references := w.references.modify id fun r => { r with slot := Binding.noReference }
        journal := .unpinned m (int32 (w.references.get id).slot) :: w.journal }
  /-- a reference that pins nothing any more, or nothing that could be released -/
  | forgotten {id : Nat}
    (h : (w.references.get id).holds = false ∨ w.machineOf (w.references.get id).registry = none) :
    Move w { w with references := w.references.modify id fun r => { r with slot := Binding.noReference } }
  | made {routine : Routine} (h : routine.Local) (isDirect : Bool) (registry : Nat) :
    Move w
      { w with
        foreigns := w.foreigns.add ⟨routine, isDirect, (w.registries.get registry).runtime, registry,
          (w.registries.get registry).reporter, w.machineOf registry, []⟩ }
  | kept {m : Nat} {f : Lua.Native}
    (h : ∀ id, f = .foreign id → id < w.foreigns.size ∧ (w.foreigns.get id).home = some m) : Move w (w.keep m f)
  | gave {m : Nat} {f : Lua.Native} (hm : w.Open m) (h : w.Grants m f) : Move w (w.give m f)

abbrev Moves : World → World → Prop := Relation.ReflTransGen Move

theorem Move.moves {w w' : World} (h : Move w w') : Moves w w' := .single h

/-! ## What every move keeps -/

/-- An event that is neither the beginning nor the end of a machine. -/
def Event.Inner : Event → Prop
  | .created _ | .closed _ => False
  | _ => True

structure World.Continues (w w' : World) : Prop where
  runtimes : w'.runtimes = w.runtimes
  states : w'.states = w.states
  names : w'.names = w.names
  stored : w'.stored = w.stored
  registries : w'.registries.size = w.registries.size
  machineOf : ∀ r, w'.machineOf r = w.machineOf r
  machines : w'.machines.size = w.machines.size
  opened : ∀ m, w.Open m → w'.Open m
  closed : ∀ m, ¬ w.Open m → w'.machines.get m = w.machines.get m
  foreigns : w.foreigns.size ≤ w'.foreigns.size
  foreign : ∀ id, id < w.foreigns.size →
    (w'.foreigns.get id).registry = (w.foreigns.get id).registry ∧ (w'.foreigns.get id).home = (w.foreigns.get id).home
  journal : ∃ es, w'.journal = es ++ w.journal ∧ ∀ e ∈ es, e.Inner

namespace World

theorem Continues.refl (w : World) : w.Continues w :=
  ⟨rfl, rfl, rfl, rfl, rfl, fun _ => rfl, rfl, fun _ h => h, fun _ _ => rfl, Nat.le_refl _, fun _ _ => ⟨rfl, rfl⟩,
    [], rfl, nofun⟩

theorem Continues.trans {a b c : World} (h : a.Continues b) (k : b.Continues c) : a.Continues c where
  runtimes := k.runtimes.trans h.runtimes
  states := k.states.trans h.states
  names := k.names.trans h.names
  stored := k.stored.trans h.stored
  registries := k.registries.trans h.registries
  machineOf := fun r => (k.machineOf r).trans (h.machineOf r)
  machines := k.machines.trans h.machines
  opened := fun m hm => k.opened m (h.opened m hm)
  closed := by
    intro m hm
    have first := h.closed m hm
    refine (k.closed m ?_).trans first
    rintro ⟨vm, hv⟩
    exact hm ⟨vm, first.symm.trans hv⟩
  foreigns := Nat.le_trans h.foreigns k.foreigns
  foreign := by
    intro id hid
    obtain ⟨hr, hh⟩ := h.foreign id hid
    obtain ⟨kr, kh⟩ := k.foreign id (Nat.lt_of_lt_of_le hid h.foreigns)
    exact ⟨kr.trans hr, kh.trans hh⟩
  journal := by
    obtain ⟨es, he, hes⟩ := h.journal
    obtain ⟨ds, hd, hds⟩ := k.journal
    refine ⟨ds ++ es, by rw [hd, he, List.append_assoc], fun e hmem => ?_⟩
    cases List.mem_append.mp hmem with
    | inl h => exact hds e h
    | inr h => exact hes e h

theorem Continues.of_eq {w w' : World} (hm : w'.machines = w.machines) (hr : w'.runtimes = w.runtimes)
    (hg : w'.registries = w.registries) (hf : w'.foreigns = w.foreigns) (hs : w'.states = w.states)
    (hn : w'.names = w.names) (hd : w'.stored = w.stored) (es : List Event) (hj : w'.journal = es ++ w.journal)
    (hes : ∀ e ∈ es, e.Inner) : w.Continues w' where
  runtimes := hr
  states := hs
  names := hn
  stored := hd
  registries := by rw [hg]
  machineOf := fun r => by rw [World.machineOf, World.machineOf, hg]
  machines := by rw [hm]
  opened := fun m h => by rwa [World.Open, hm]
  closed := fun m _ => by rw [hm]
  foreigns := Nat.le_of_eq (by rw [hf])
  foreign := fun id _ => by rw [hf]; exact ⟨rfl, rfl⟩
  journal := ⟨es, hj, hes⟩

theorem Open.lt_size {w : World} {m : Nat} (h : w.Open m) : m < w.machines.size := by
  obtain ⟨vm, hv⟩ := h
  apply Nat.lt_of_not_le
  intro hle
  rw [Pool.get_of_size_le _ hle] at hv
  cases hv

/-- A machine that stays open, whatever else stays. -/
theorem Continues.put {w : World} {m : Nat} {vm : Vm} (hm : w.machines.get m = .open vm) (vm' : Vm) :
    w.Continues { w with machines := w.machines.put m (.open vm') } := by
  have hm : w.Open m := ⟨vm, hm⟩
  refine ⟨rfl, rfl, rfl, rfl, rfl, fun _ => rfl, ?_, fun n hn => ?_, fun n hn => ?_, Nat.le_refl _,
    fun _ _ => ⟨rfl, rfl⟩, [], rfl, nofun⟩
  · exact Pool.size_put _ hm.lt_size _
  · by_cases h : n = m
    · exact ⟨vm', by rw [h]; exact Pool.get_put_self _ _ _⟩
    · obtain ⟨v, hv⟩ := hn
      exact ⟨v, (Pool.get_put_ne _ h _).trans hv⟩
  · have h : n ≠ m := fun h => hn (h ▸ hm)
    exact Pool.get_put_ne _ h _

/-- No machine opens and none closes. -/
theorem Continues.open_iff {w w' : World} (h : w.Continues w') (m : Nat) : w'.Open m ↔ w.Open m := by
  refine ⟨fun ho => Classical.byContradiction fun hc => hc ?_, h.opened m⟩
  obtain ⟨vm, hv⟩ := ho
  exact ⟨vm, (h.closed m hc).symm.trans hv⟩

theorem machineOf_modify (w : World) (registry : Nat) (f : Registry → Registry) (hf : ∀ r, (f r).machine = r.machine)
    (r : Nat) : { w with registries := w.registries.modify registry f }.machineOf r = w.machineOf r := by
  unfold World.machineOf
  by_cases h : r = registry
  · rw [h]
    dsimp only
    rw [Pool.get_modify_self, hf]
  · dsimp only
    rw [Pool.get_modify_ne _ h]

/-- A journal that grows by one event. -/
theorem Continues.note (w : World) {e : Event} (he : e.Inner) : w.Continues { w with journal := e :: w.journal } :=
  .of_eq rfl rfl rfl rfl rfl rfl rfl [e] rfl fun d hd => by
    rw [List.mem_singleton] at hd
    rwa [hd]

theorem Continues.addForeign (w : World) (f : Foreign) : w.Continues { w with foreigns := w.foreigns.add f } := by
  refine ⟨rfl, rfl, rfl, rfl, rfl, fun _ => rfl, rfl, fun _ h => h, fun _ _ => rfl, ?_, fun n hn => ?_, [], rfl, nofun⟩
  · exact Nat.le_trans (Nat.le_succ _) (Nat.le_of_eq (Pool.size_add _ _).symm)
  · dsimp only
    rw [Pool.get_add_ne _ (Nat.ne_of_lt hn)]
    exact ⟨rfl, rfl⟩

theorem Continues.modifyRegistry (w : World) (registry : Nat) (f : Registry → Registry)
    (hr : registry < w.registries.size) (hf : ∀ r, (f r).machine = r.machine) :
    w.Continues { w with registries := w.registries.modify registry f } :=
  ⟨rfl, rfl, rfl, rfl, Pool.size_modify _ hr _, machineOf_modify w registry f hf, rfl, fun _ h => h, fun _ _ => rfl,
    Nat.le_refl _, fun _ _ => ⟨rfl, rfl⟩, [], rfl, nofun⟩

/-! ### Giving functions -/

theorem give_eq (w : World) (m : Nat) (f : Lua.Native) : ∃ foreigns, w.give m f = { w with foreigns } := by
  unfold give
  cases f with
  | foreign id =>
    dsimp only
    split
    · exact ⟨_, rfl⟩
    · exact ⟨_, rfl⟩
  | _ => exact ⟨_, rfl⟩

/-- A function that has been made stays what it is. -/
theorem foreign_give (w : World) (m : Nat) (f : Lua.Native) (id : Nat) :
    ((w.give m f).foreigns.get id).routine = (w.foreigns.get id).routine ∧
      ((w.give m f).foreigns.get id).registry = (w.foreigns.get id).registry ∧
      ((w.give m f).foreigns.get id).home = (w.foreigns.get id).home := by
  unfold give
  cases f with
  | foreign n =>
    dsimp only
    split
    · exact ⟨rfl, rfl, rfl⟩
    · by_cases h : id = n
      · rw [h]
        dsimp only
        rw [Pool.get_modify_self]
        exact ⟨rfl, rfl, rfl⟩
      · dsimp only
        rw [Pool.get_modify_ne _ h]
        exact ⟨rfl, rfl, rfl⟩
  | _ => exact ⟨rfl, rfl, rfl⟩

theorem mem_machines_give {w : World} {m : Nat} {f : Lua.Native} {id n : Nat}
    (h : n ∈ ((w.give m f).foreigns.get id).machines) :
    n ∈ (w.foreigns.get id).machines ∨ (f = .foreign id ∧ n = m) := by
  unfold give at h
  cases f with
  | foreign k =>
    dsimp only at h
    split at h
    · exact .inl h
    · by_cases hk : id = k
      · rw [hk] at h ⊢
        dsimp only at h
        rw [Pool.get_modify_self] at h
        cases h with
        | head => exact .inr ⟨rfl, rfl⟩
        | tail _ h => exact .inl h
      · dsimp only at h
        rw [Pool.get_modify_ne _ hk] at h
        exact .inl h
  | _ => exact .inl h

theorem Continues.give (w : World) (m : Nat) (f : Lua.Native) (h : ∀ id, f = .foreign id → id < w.foreigns.size) :
    w.Continues (w.give m f) := by
  have size : w.foreigns.size ≤ (w.give m f).foreigns.size := by
    unfold World.give
    cases f with
    | foreign id =>
      dsimp only
      split
      · exact Nat.le_refl _
      · exact Nat.le_of_eq (Pool.size_modify _ (h id rfl) _).symm
    | _ => exact Nat.le_refl _
  have same := foreign_give w m f
  obtain ⟨foreigns, he⟩ := give_eq w m f
  rw [he] at size same ⊢
  exact ⟨rfl, rfl, rfl, rfl, rfl, fun _ => rfl, rfl, fun _ h => h, fun _ _ => rfl, size, fun id _ => (same id).2, [],
    rfl, nofun⟩

/-- A registry with a machine has been made. -/
theorem lt_size_of_machineOf {w : World} {registry m : Nat} (h : w.machineOf registry = some m) :
    registry < w.registries.size := by
  apply Nat.lt_of_not_le
  intro hle
  rw [machineOf, Pool.get_of_size_le _ hle] at h
  cases h

end World

theorem Move.continues {w w' : World} (h : Move w w') : w.Continues w' := by
  cases h with
  | step hm _ => exact .put hm _
  | refused hm _ => exact .put hm _
  | beside h => exact .of_eq h.machines h.runtimes h.registries h.foreigns h.states h.names h.stored [] h.journal nofun
  | collected m => exact .note w trivial
  | entered _ _ => exact .note w trivial
  | referenced hm _ _ =>
    exact (World.Continues.put hm _).trans (.of_eq rfl rfl rfl rfl rfl rfl rfl [_] rfl fun e he => by
      rw [List.mem_singleton.mp he]
      trivial)
  | @cached _ registry _ vm' source _ slot hm hr _ _ =>
    have lists := World.Continues.modifyRegistry _ registry (fun r => { r with chunks := r.chunks ++ [(source, slot)] })
      (World.lt_size_of_machineOf hr) fun _ => rfl
    have machine := World.Continues.put hm vm'
    refine ⟨rfl, rfl, rfl, rfl, lists.registries, lists.machineOf, machine.machines, machine.opened, machine.closed,
      Nat.le_refl _, fun _ _ => ⟨rfl, rfl⟩, [_], rfl, fun e he => ?_⟩
    rw [List.mem_singleton.mp he]
    trivial
  | released hm _ _ _ =>
    exact (World.Continues.put hm _).trans (.of_eq rfl rfl rfl rfl rfl rfl rfl [_] rfl fun e he => by
      rw [List.mem_singleton.mp he]
      trivial)
  | forgotten _ => exact .of_eq rfl rfl rfl rfl rfl rfl rfl [] rfl nofun
  | made _ _ _ => exact .addForeign w _
  | kept _ => exact .of_eq rfl rfl rfl rfl rfl rfl rfl [] rfl nofun
  | gave _ h => exact .give w _ _ fun id hf => (h id hf).1

theorem Moves.continues {w w' : World} (h : Moves w w') : w.Continues w' := by
  induction h with
  | refl => exact .refl w
  | tail _ h ih => exact ih.trans h.continues

/-! ## Sound worlds -/

/-- Loading under a runtime gives a function or fails. -/
def Honest (r : Binding.Runtime) : Prop := ∀ b, r.brokenChunks = some b → b.status ≠ 0

/-- Functions, states and kept selectors go with registries of their own machines. -/
structure World.Sound (w : World) : Prop where
  runtimes : ∀ n, Honest (w.runtimes.get n)
  routines : ∀ id, (w.foreigns.get id).routine.Local
  given : ∀ id m, m ∈ (w.foreigns.get id).machines → w.Pairs m (w.foreigns.get id).registry
  states : ∀ id m, (w.states.get id).machine = some m → w.Pairs m (w.states.get id).registry
  stored : ∀ name s m, (name, Stored.selector s) ∈ w.stored → s.machine = some m → w.Pairs m s.registry

namespace World

theorem Continues.pairs {w w' : World} (h : w.Continues w') {m registry : Nat} (hp : w.Pairs m registry) :
    w'.Pairs m registry := by
  rw [Pairs, h.machineOf, h.registries]
  exact hp

theorem Continues.sound {w w' : World} (h : w.Continues w') (hs : w.Sound)
    (routines : ∀ id, (w'.foreigns.get id).routine.Local)
    (given : ∀ id m, m ∈ (w'.foreigns.get id).machines → w'.Pairs m (w'.foreigns.get id).registry) : w'.Sound where
  runtimes := fun n => by rw [h.runtimes]; exact hs.runtimes n
  routines := routines
  given := given
  states := fun id m hm => by
    rw [h.states] at hm ⊢
    exact h.pairs (hs.states id m hm)
  stored := fun name s m hmem hm => by
    rw [h.stored] at hmem
    exact h.pairs (hs.stored name s m hmem hm)

end World

theorem Move.sound {w w' : World} (h : Move w w') (hs : w.Sound) : w'.Sound := by
  have hc := h.continues
  have same (hf : w'.foreigns = w.foreigns) : w'.Sound := by
    refine hc.sound hs (fun id => ?_) fun id m hm => ?_
    · rw [hf]
      exact hs.routines id
    · rw [hf] at hm ⊢
      exact hc.pairs (hs.given id m hm)
  cases h with
  | beside h => exact same h.foreigns
  | @made routine hl isDirect registry =>
    refine hc.sound hs (fun id => ?_) fun id m hm => ?_
    · by_cases h : id = w.foreigns.size
      · rw [h]
        dsimp only
        rw [Pool.get_add_self]
        exact hl
      · dsimp only
        rw [Pool.get_add_ne _ h]
        exact hs.routines id
    · by_cases h : id = w.foreigns.size
      · rw [h] at hm
        dsimp only at hm
        rw [Pool.get_add_self] at hm
        cases hm
      · dsimp only at hm ⊢
        rw [Pool.get_add_ne _ h] at hm ⊢
        exact hs.given id m hm
  | @gave m f _ h =>
    refine hc.sound hs (fun id => ?_) fun id n hn => ?_
    · rw [(World.foreign_give w m f id).1]
      exact hs.routines id
    · rw [(World.foreign_give w m f id).2.1]
      cases World.mem_machines_give hn with
      | inl hn => exact hc.pairs (hs.given id n hn)
      | inr hn =>
        obtain ⟨hf, rfl⟩ := hn
        exact hc.pairs (h id hf).2.1
  | _ => exact same rfl

theorem Moves.sound {w w' : World} (h : Moves w w') (hs : w.Sound) : w'.Sound := by
  induction h with
  | refl => exact hs
  | tail _ h ih => exact h.sound ih

end LuaHost.Host
