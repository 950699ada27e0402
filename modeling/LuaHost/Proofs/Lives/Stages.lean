import LuaHost.Proofs.Moves.Operations

set_option autoImplicit false

/-!
# Stages of a world

What a world does beyond moves: machines and states come and go, registries close, names and kept things
change. Each stage keeps what the moves keep: functions, states and kept selectors go with registries of
their own machines, and all machines are of one generation.
-/

namespace LuaHost.Host

open Lua (Vm Generation)

/-- A state owns a machine. -/
def World.Owns (w : World) (id m : Nat) : Prop := (w.states.get id).machine = some m ∧ (w.states.get id).isOwner = true

/-- The slots that a registry gives back, one after another. -/
inductive Frees (m : Nat) : List Int → World → World → Prop where
  | nil (w : World) : Frees m [] w w
  | cons {w w' : World} {vm vm' : Vm} {slot : Int} {slots : List Int} (hm : w.machines.get m = .open vm)
    (h : vm.Unpins (int32 slot) vm')
    (rest : Frees m slots
      { w with machines := w.machines.put m (.open vm'), journal := .unpinned m (int32 slot) :: w.journal } w') :
    Frees m (slot :: slots) w w'

/-- A world in which a registry has no machine and no chunks any more. -/
def World.dismiss (w : World) (registry : Nat) : World :=
  { w with registries := w.registries.modify registry fun r => { r with chunks := [], machine := none } }

/-- A registry closes. -/
inductive Dismissal (w : World) (registry : Nat) : World → Prop where
  | idle (h : w.machineOf registry = none) : Dismissal w registry (w.dismiss registry)
  | freed {w' : World} {m : Nat} (h : w.machineOf registry = some m)
    (hf : Frees m ((w.registries.get registry).chunks.map Prod.snd) w w') : Dismissal w registry (w'.dismiss registry)

/-- A world with one more state and its registry. -/
def World.join (w : World) (machine : Option Nat) (isOwner : Bool) (config : Config) (runtime reporter : Nat) : World :=
  { w with
    registries := w.registries.add ⟨runtime, machine, reporter, []⟩
    states := w.states.add ⟨machine, isOwner, config, runtime, reporter, w.registries.size⟩ }

/-- One more machine, in its first state. -/
def World.bear (w : World) (g : Generation) : World :=
  { w with
    machines := w.machines.add (.open (Lua.Stack.newMachine g)), journal := .created w.machines.size :: w.journal }

/-- A world in which the end of machine `m` has been written down. -/
def World.noteEnd (w : World) (m : Nat) : World := { w with journal := .closed m :: w.journal }

/-- Machine `m` is gone, and so is what was kept for it; the state that had it has none. -/
def World.bury (w : World) (id m : Nat) : World :=
  { w with
    machines := w.machines.put m .closed
    trampolines := w.trampolines.filter fun (n, _) => n != m
    states := w.states.modify id fun s => { s with machine := none } }

/-- Nothing but the reporters, the names, the runtimes and what is kept or written down has changed. -/
structure World.Around (w w' : World) : Prop where
  machines : w'.machines = w.machines
  registries : w'.registries = w.registries
  references : w'.references = w.references
  foreigns : w'.foreigns = w.foreigns
  trampolines : w'.trampolines = w.trampolines
  states : w'.states = w.states
  journal : w'.journal = w.journal
  generation : ∀ n, (w'.runtimes.get n).generation = (w.runtimes.get n).generation
  honest : ∀ n, Honest (w.runtimes.get n) → Honest (w'.runtimes.get n)
  stored : ∀ name s, (name, Stored.selector s) ∈ w'.stored →
    (∃ name, (name, Stored.selector s) ∈ w.stored) ∨ ∀ m, s.machine = some m → w.Pairs m s.registry

/-- The machine of one state becomes that of another one, which had none; the first state gets a registry
of its own. -/
structure World.Hands (w : World) (source target : Nat) (w' : World) : Prop where
  apart : source ≠ target
  free : (w.states.get target).machine = none
  machines : w'.machines = w.machines
  runtimes : w'.runtimes = w.runtimes
  references : w'.references = w.references
  foreigns : w'.foreigns = w.foreigns
  trampolines : w'.trampolines = w.trampolines
  stored : w'.stored = w.stored
  journal : w'.journal = w.journal
  registries : ∃ reporter, w'.registries = w.registries.add ⟨(w.states.get source).runtime, none, reporter, []⟩
  machine : (w'.states.get target).machine = (w.states.get source).machine
  isOwner : (w'.states.get target).isOwner = (w.states.get source).isOwner
  runtime : (w'.states.get target).runtime = (w.states.get source).runtime
  registry : (w'.states.get target).registry = (w.states.get source).registry
  left : (w'.states.get source).machine = none
  leftRuntime : (w'.states.get source).runtime = (w.states.get source).runtime
  others : ∀ id, id ≠ source → id ≠ target → w'.states.get id = w.states.get id

/-- The latest that was done to machine `m` is a collection, but for slots given back. -/
def CollectedLast (m : Nat) (journal : List Event) : Prop :=
  ∃ es rest, journal = es ++ .collected m :: rest ∧ ∀ e ∈ es, ∃ slot, e = .unpinned m slot

/-- What a world does while no machine ends. -/
inductive Quiet (g : Generation) (w : World) : World → Prop where
  | moves {w' : World} (h : Moves w w') : Quiet g w w'
  | around {w' : World} (h : w.Around w') : Quiet g w w'
  | born {w' : World} (h : Moves (w.bear g) w') (config : Config) {runtime : Nat} (hr : runtime < 2) (reporter : Nat) :
    Quiet g w (w'.join (some w.machines.size) true config runtime reporter)
  | attached (machine : Option Nat) (config : Config) {runtime : Nat} (hr : runtime < 2) (reporter : Nat) :
    Quiet g w (w.join machine false config runtime reporter)
  | dismissed {w' : World} {registry : Nat} (h : Dismissal w registry w') : Quiet g w w'
  | left {id : Nat} (h : (w.states.get id).isOwner = false ∨ (w.states.get id).machine = none) :
    Quiet g w { w with states := w.states.modify id fun s => { s with machine := none } }
  | handed {w' : World} {source target : Nat} (h : w.Hands source target w') : Quiet g w w'

/-- A machine ends when its owner closes it, after it has collected. -/
inductive Stage (g : Generation) (w : World) : World → Prop where
  | quiet {w' : World} (h : Quiet g w w') : Stage g w w'
  | ended {w' : World} {id m : Nat} (h : w.Owns id m) (hc : CollectedLast m w.journal)
    (hm : Moves (w.noteEnd m) w') : Stage g w (w'.bury id m)

abbrev Quiets (g : Generation) : World → World → Prop := Relation.ReflTransGen (Quiet g)

abbrev Stages (g : Generation) : World → World → Prop := Relation.ReflTransGen (Stage g)

variable {g : Generation} {w w' : World}

theorem Quiet.quiets (h : Quiet g w w') : Quiets g w w' := .single h

theorem Moves.quiets (h : Moves w w') : Quiets g w w' := .single (.moves h)

theorem Quiets.stages (h : Quiets g w w') : Stages g w w' := Relation.ReflTransGen.mono (fun _ _ h => Stage.quiet h) _ _ h

end LuaHost.Host
