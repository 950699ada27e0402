import LuaHost.Proofs.Moves.Exchange
import LuaHost.Proofs.Rooms.Programs

set_option autoImplicit false

/-!
# Room that the exchange of values takes

A value that crosses into a machine takes the room of one value. One that crosses out of it takes none in the
end, but a reference needs room for a copy on the way.
-/

namespace LuaHost.Host

open Lua (M Room Thread)
open Binding (Call Program Runtime)

variable {env : Env} {L : Layout} {h : Handle} {m : Nat} {F T : Thread → Prop} {R : Room → Prop} {n k low : Nat} {Q : Prop}
  {runtime : Nat}

namespace Calm

theorem registry (id : Nat) : Calm env Q (Registry.get id) := bind get fun _ => pure _

theorem reference (id : Nat) : Calm env Q (Reference.get id) := bind get fun _ => pure _

theorem keep (id : Nat) (f : Lua.Native) : Calm env Q (Registry.keep id f) := by
  refine bind (registry id) fun x => ?_
  split
  · exact pure _
  · exact modifyGet _ fun _ => .of_eq rfl rfl rfl rfl

/-- A function made of a callback converts what it is given. -/
theorem foreign (id : Nat) (f : Callback) (isDirect : Bool) : Calm env Q (Registry.foreign id (.callback f) isDirect) := by
  refine bind (registry id) fun x => modifyGet _ fun w => ⟨fun _ => .same _, fun _ => rfl, rfl, fun k tame => ?_⟩
  by_cases new : k = w.foreigns.size
  · subst new
    dsimp only
    rw [Pool.get_add_self]
    exact nofun
  · dsimp only
    rwa [Pool.get_add_ne _ new]

theorem wrap (id : Nat) (f : Callback) : Calm env Q (Registry.wrap id (.callback f)) :=
  bind (foreign id f false) fun g => bind (keep id g) fun _ => pure g

theorem unpin (id : Nat) (slot : Int) : Calm env Q (Registry.unpin id slot) := by
  constructor
  intro w housed
  have looked : Registry.unpin id slot env w = (if (w.registries.get id).machine.isSome then
      runWith (w.registries.get id).runtime (w.registries.get id).handle fun rt => Binding.Api.unref rt slot else Pure.pure ()) env w := rfl
  rw [looked]
  cases hm : (w.registries.get id).machine with
  | none => exact .refl w
  | some m =>
    obtain ⟨vm, there⟩ := housed id m hm
    have handle : (w.registries.get id).handle = some (.main m) := by
      unfold Registry.handle
      rw [hm]
      rfl
    obtain ⟨vm', ⟨-, threads⟩, ran⟩ := runWith_unref_open env (w.registries.get id).runtime (h := .main m) slot there
    rw [handle, Option.isSome_some, if_pos rfl, ran]
    refine ⟨fun n => ?_, fun _ => rfl, rfl, fun _ h => h⟩
    by_cases same : n = m
    · subst same
      rw [there]
      simp only [Handle.main, Pool.get_put_self]
      exact .open threads
    · simp only [Handle.main, Pool.get_put_ne _ same]
      exact .same _

/-- What a registry has compiled is no matter of where it belongs. -/
theorem remember (id : Nat) (f : Registry → Registry) (h : ∀ x, (f x).machine = x.machine) : Calm env Q (Registry.modify id f) := by
  refine modifyGet _ fun w => ⟨fun _ => .same _, fun k => ?_, rfl, fun _ h => h⟩
  by_cases same : k = id
  · subst same
    simp only [Pool.get_modify_self, h]
  · simp only [Pool.get_modify_ne _ same]

theorem release (id : Nat) : Calm env Q (Reference.release id) := by
  refine bind (reference id) fun x => ?_
  have forgotten : Calm env Q (MonadState.modifyGet fun w : World =>
      ((), { w with references := w.references.modify id fun r => { r with slot := Binding.noReference } })) :=
    modifyGet _ fun _ => .of_eq rfl rfl rfl rfl
  dsimp only
  split
  · exact bind (unpin _ _) fun _ => forgotten
  · exact forgotten

end Calm

namespace Affords

/-- The machine that a registry has is the one it belongs to. -/
theorem registry (id : Nat) : Affords env L h F T (Registry.get id) fun x th =>
    T th ∧ ∀ n, x.machine = some n → L.home id = some n := by
  constructor
  rintro w ⟨vm, there, around⟩
  have put := around.host _ (World.newMachine_ready .v51)
  exact ⟨vm, there, ⟨around.here, fun n hn => (put.registry id n hn).1⟩, around.others, around.host⟩

/-- The registry of a machine works on that machine, or on none. -/
theorem own {id : Nat} {x : Registry} (home : ∀ n, x.machine = some n → L.home id = some n) (agrees : L.Agrees id (some m)) :
    x.handle = none ∨ x.handle = some (.main m) := by
  unfold Registry.handle
  cases e : x.machine with
  | none => exact .inl rfl
  | some n => exact .inr (by rw [agrees m n rfl (home n e)]; rfl)

/-- A program that makes a call before it comes back. -/
def Asks {α : Type} : Program α → Prop
  | .done _ => False
  | .fail _ => True
  | .ask c _ => c ≠ .newState

/-- On no machine such a program ends by a fault. -/
theorem nowhere {α : Type} {p : Program α} (r : Runtime) {U : α → Thread → Prop} (asks : Asks p) (hF : ∀ th, T th → F th)
    (hT : ∀ th, T th → th.Ready) : Affords env L h F T (runProgram r none p) U := by
  cases p with
  | done a => exact asks.elim
  | fail f => exact fail f hF
  | ask c next =>
    have ends (w : World) : runProgram r none (.ask c next) env w = .error (.signal (.fault .nullHandle)) w := by
      cases c <;> first | exact absurd rfl asks | rfl
    constructor
    intro w hw
    rw [ends]
    exact hw.settled hT

theorem Asks.bind {α β : Type} {p : Program α} {next : α → Program β} (h : Asks p) : Asks (p >>= next) := by
  cases p with
  | done a => exact h.elim
  | fail f => exact trivial
  | ask c rest => exact h

theorem asks_pushString (v : Value) : Asks (Binding.Api.pushString v) := by
  unfold Binding.Api.pushString
  cases sourceBytes v with
  | ok s => exact nofun
  | error f => exact trivial

theorem asks_loadString (r : Runtime) (source : Value) : Asks (Binding.Api.loadString r source) := by
  unfold Binding.Api.loadString
  split
  · unfold Binding.Api.break_
    split
    · exact (asks_pushString _).bind
    · exact Asks.bind (p := Binding.Api.pushNil) nofun
  · cases sourceBytes source with
    | ok s => exact nofun
    | error f => exact trivial

section

variable (hR : ∀ r, R r → r.Promises n 1)

include hR

theorem pinTop (id : Nat) : Affords env L h F (Thread.Holds R (n + 1)) (Registry.pinTop id (some h)) fun _ => Thread.Holds R n :=
  bind (calm (Calm.registry (Q := False) id) False.elim) fun _ => bind (runWith fun r => ref r hR) fun _ =>
    calm (Calm.modifyGet (Q := False) _ fun _ => .of_eq rfl rfl rfl rfl) False.elim

variable (hF : ∀ th, th.Holds R n → F th)

include hF

theorem push (id : Nat) (slot : Int) : Affords env L h F (Thread.Holds R n) (Registry.push id slot (some h)) fun _ =>
    Thread.Holds R (n + 1) := by
  refine bind (calm (Calm.registry (Q := False) id) False.elim) fun x => ?_
  have pushed {rt : Nat} : Affords env L h F (Thread.Holds R n)
      (Functor.discard (Host.runWith rt (some h) fun rt => Binding.Api.pushRef rt slot)) fun _ => Thread.Holds R (n + 1) :=
    discard (runWith fun r => pushRef r hR slot)
  dsimp only
  split
  · exact bind (U := fun _ => Thread.Holds R n) (fail _ hF) fun _ => pushed
  · exact pushed

/-- Only a value that cannot be copied is pushed once more, to be pinned. -/
theorem toHost (i : Int) (registry : Option Nat) :
    Affords env L h F (Thread.Holds R n) (Host.toHost runtime (some h) i registry) fun _ => Thread.Holds R n := by
  unfold Host.toHost
  refine bind (runWith fun r => type r i) fun tag => ?_
  dsimp only
  split
  · exact pure fun _ h => h
  split
  · exact bind (runWith fun r => toBoolean r i) fun _ => pure fun _ h => h
  split
  · refine bind (runWith fun r => isInteger r i) fun isInt => ?_
    split
    · exact runWith fun r => toInteger r i hF
    · exact runWith fun r => toNumber r i
  split
  · exact bind (runWith fun r => toText r i) fun _ => pure fun _ h => h
  · cases registry with
    | none => exact bind (runWith fun r => typeName r _ hF) fun _ => fail _ hF
    | some id => exact bind (runWith fun r => pushValue r hR i) fun _ => bind (pinTop hR id) fun _ => pure fun _ h => h

/-- Whatever a value is, it is pushed as one value or not at all. -/
theorem pushHost (v : Value) (registry : Option Nat) :
    Affords env L h F (Thread.Holds R n) (Host.pushHost runtime (some h) v registry) fun _ => Thread.Holds R (n + 1) := by
  have wrapped (f : Callback) : Affords env L h F (Thread.Holds R n)
      (Host.pushHost.wrapped runtime (some h) registry (.callback f)) fun _ => Thread.Holds R (n + 1) := by
    unfold Host.pushHost.wrapped
    split
    · exact fail _ hF
    · exact bind (calm (Calm.wrap (Q := False) _ _) False.elim) fun f => runWith fun r => pushCFunction r hR hF _
  unfold Host.pushHost
  cases v with
  | none => exact runWith fun r => pushNil r hR
  | bool b => exact runWith fun r => pushBoolean r hR _
  | int n =>
    dsimp only
    split
    · exact runWith fun r => pushInteger r hR hF _
    · exact bind (calm (Calm.ofExcept _) fun _ => hF) fun _ => runWith fun r => pushNumber r hR hF _
  | float x => exact runWith fun r => pushNumber r hR hF _
  | text t => exact runWith fun r => pushString r hR hF _
  | bytes b => exact runWith fun r => pushString r hR hF _
  | byteArray b => exact runWith fun r => pushString r hR hF _
  | reference id => exact bind (calm (Calm.reference (Q := False) id) False.elim) fun _ => push hR hF _ _
  | callable f => exact wrapped _
  | pointer f => exact wrapped _
  | tuple vs => exact fail _ hF
  | list vs => exact fail _ hF
  | set vs => exact fail _ hF
  | dict es => exact fail _ hF
  | other kind shown quoted => exact fail _ hF

end

theorem topMessage (r : Runtime) (hF : ∀ th, th.Holds R n → F th) :
    Affords env L h F (Thread.Holds R n) (runProgram r (some h) (Host.topMessage r)) fun _ => Thread.Holds R n := by
  unfold Host.topMessage
  refine andThen (toText r _) fun t => ?_
  split
  · exact pure fun _ h => h
  · exact andThen (type r _) fun _ => andThen (typeName r _ hF) fun _ => pure fun _ h => h

theorem reportTop (reporter : Nat) (code : Int) (hF : ∀ th, th.Holds R n → F th) :
    Affords env L h F (Thread.Holds R n) (Host.reportTop reporter code runtime (some h)) fun _ => Thread.Holds R n :=
  bind (runWith fun r => topMessage r hF) fun _ => calm (Calm.report _ _ _ _) fun _ => hF

/-- The function of a chunk is pushed where it is wanted, on the machine of the registry. -/
theorem pushChunk {id : Nat} (agrees : L.Agrees id (some m)) (source : Text) (hR : ∀ r, R r → r.Promises n 1)
    (hF : ∀ th, th.Holds R n → F th) (hF' : ∀ th, th.Holds R (n + 1) → F th) :
    Affords env L (.main m) F (Thread.Holds R n) (Registry.pushChunk id source) fun _ => Thread.Holds R (n + 1) := by
  refine bind (registry id) fun x => of_fact fun home => bind (calm (Calm.runtime (Q := False) _) False.elim) fun rt => ?_
  have missing {α : Type} {p : Runtime → Program α} {U : α → Thread → Prop} (asks : ∀ r, Asks (p r)) :
      Affords env L (.main m) F (Thread.Holds R n) (Host.runWith x.runtime none p) U :=
    runWith fun r => nowhere r (asks r) hF fun _ h => h.ready hR
  have pushed (slot : Int) : Affords env L (.main m) F (Thread.Holds R n)
      (Functor.discard (Host.runWith x.runtime x.handle fun rt => Binding.Api.pushRef rt slot)) fun _ =>
        Thread.Holds R (n + 1) := by
    refine discard ?_
    obtain gone | there := own home agrees
    · rw [gone]
      exact missing fun _ => nofun
    · rw [there]
      exact runWith fun r => pushRef r hR slot
  have loaded : Affords env L (.main m) F (Thread.Holds R n)
      (Host.runWith x.runtime x.handle fun rt => Binding.Api.loadString rt (.text source)) fun _ th =>
        x.handle = some (.main m) ∧ th.Holds R (n + 1) := by
    obtain gone | there := own home agrees
    · rw [gone]
      exact missing fun r => asks_loadString r _
    · rw [there]
      exact (runWith fun r => loadString r hR hF _).post fun _ _ h => ⟨rfl, h⟩
  dsimp only
  split
  · exact bind (pushed _) fun _ => pure fun _ h => h
  · refine bind loaded fun status => pre (fun _ h => ⟨h.2, h.1⟩) (of_fact fun there => ?_)
    rw [there] at pushed ⊢
    split
    · exact bind (reportTop _ _ hF') fun _ => pure fun _ h => h
    · exact bind (runWith fun r => ref r hR) fun slot =>
        bind (calm (Calm.remember (Q := False) _ _ fun _ => rfl) False.elim) fun _ => bind (pushed _) fun _ => pure fun _ h => h

/-- Pinning on the machine of the registry. -/
theorem pinTop_own {id : Nat} (agrees : L.Agrees id (some m)) (hR : ∀ r, R r → r.Promises n 1)
    (hR' : ∀ r, R r → r.Promises (n + 1) 1) (hF : ∀ th, th.Holds R (n + 1) → F th) :
    Affords env L (.main m) F (Thread.Holds R (n + 1)) (Registry.pinTop id none) fun _ => Thread.Holds R n := by
  refine bind (registry id) fun x => of_fact fun home => bind (U := fun _ => Thread.Holds R n) ?_ fun slot =>
    calm (Calm.modifyGet (Q := False) _ fun _ => .of_eq rfl rfl rfl rfl) False.elim
  change Affords env L (.main m) F (Thread.Holds R (n + 1)) (Host.runWith x.runtime x.handle Binding.Api.ref) _
  obtain gone | there := own home agrees
  · rw [gone]
    exact runWith fun r => nowhere r nofun hF fun _ h => h.ready hR'
  · rw [there]
    exact runWith fun r => ref r hR

end Affords
end LuaHost.Host
