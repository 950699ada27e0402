import LuaHost.Proofs.Rooms.Triples

set_option autoImplicit false

/-!
# Room that the calls of the interface take

A call pushes one value or none, unless it calls a function: then it gives back the room of the function and
its arguments, and takes that of the results.
-/

namespace LuaHost.Host

open Lua (M Vm Room Thread Covers Reads Within Sys)
open Binding (Call Program Runtime)

/-- The functions of an environment leave the threads of a world ready that are. -/
def Env.Sparing (env : Env) (L : Layout) : Prop :=
  ∀ m, L.opened m → (env.natives m).Within (.ready (World.Lacks L m))

variable {env : Env} {L : Layout} {m t : Nat} {α β : Type} {T : Thread → Prop} {R : Room → Prop} {n k low : Nat}

theorem Env.Sparing.runner (sparing : env.Sparing L) (opened : L.opened m) (c : Lua.Machine) :
    Within (.ready (World.Lacks L m)) (runner env m c) :=
  (Lua.Machine.run_tied (sparing m opened).natives stepLimit c).within

/-- What the host writes down beside its machines. -/
theorem Covers.tell (f : World → World) (similar : ∀ w : World, w.Similar (f w)) :
    Covers (World.Lacks L m) t T (fun s => .ok () { s with host := f s.host } : M World Unit) fun _ => T :=
  ⟨fun s hs => ⟨hs.here, hs.others, (similar s.host).lacks hs.host⟩⟩

theorem Covers.note (e : Event) : Covers (World.Lacks L m) t T (note e) fun _ => T :=
  Covers.tell (fun w => { w with journal := e :: w.journal }) fun _ => .of_eq rfl rfl rfl rfl

theorem World.similar_give (w : World) (m : Nat) (f : Lua.Native) : w.Similar (w.give m f) := by
  unfold World.give
  split
  · next id =>
    split
    · exact .refl w
    · refine ⟨fun _ => .same _, fun _ => rfl, rfl, fun k tame => ?_⟩
      by_cases same : k = id
      · subst same
        simp only [Pool.get_modify_self]
        exact tame
      · simp only [Pool.get_modify_ne _ same]
        exact tame
  · exact .refl w

theorem Covers.given (f : Lua.Native) : Covers (World.Lacks L m) t T (given m f) fun _ => T := by
  refine .bind (Covers.tell (fun w => w.give m f) fun w => w.similar_give m f) fun _ => ⟨fun s hs => ?_⟩
  unfold M.native
  by_cases oldest : s.vm.generation == .v51
  · simp only [oldest, if_true]
    exact hs.of_still (u := ⟨{ s.vm with nextIdentity := s.vm.nextIdentity + 1 }, s.host⟩) rfl hs.host
  · simp only [oldest]
    exact hs

theorem Covers.quiet {act : M World Unit} {V : Thread → Prop} (h : Covers (World.Lacks L m) t T act fun _ => V) :
    Covers (World.Lacks L m) t T (quiet act) fun _ => V := .bind h fun _ => .pure fun _ h => h

/-- The calls that push one value. -/
def Pushes : Call → Prop
  | .pushValue _ | .pushNil | .pushNumber _ | .pushInteger _ | .pushLString _ | .pushBoolean _ | .pushCClosure _
  | .rawGetI .. | .loadString _ => True
  | _ => False

namespace Perform

theorem covers_pushes {c : Call} (hc : Pushes c) (ok : checkArguments c = .ok ()) (hR : ∀ r, R r → r.Promises n 1) :
    Covers (World.Lacks L m) t (Thread.Holds R n) (perform env ⟨m, t⟩ c) fun _ => Thread.Holds R (n + 1) := by
  have known (v : Lua.Value) : Covers (World.Lacks L m) t (Thread.Holds R n) (quiet (Lua.Stack.push t v)) fun _ =>
      Thread.Holds R (n + 1) := Covers.quiet (.push v hR)
  cases c <;> first | exact hc.elim | refine .read_bind .generation fun g => ?_
  case pushValue i => exact Covers.quiet (.read_bind (.value t _) fun v => .push v hR)
  case pushNil => exact known _
  case pushLString s => exact known _
  case pushBoolean b => exact known _
  case pushNumber x =>
    replace ok : (doubleArgument x).map (fun _ => ()) = .ok () := ok
    dsimp only
    cases e : doubleArgument x with
    | ok y => exact known _
    | error f =>
      rw [e] at ok
      cases ok
  case pushInteger x =>
    replace ok : (integerArgument x).map (fun _ => ()) = .ok () := ok
    dsimp only
    cases e : integerArgument x with
    | ok y => exact known _
    | error f =>
      rw [e] at ok
      cases ok
  case pushCClosure f =>
    replace ok : (functionArgument f).map (fun _ => ()) = .ok () := ok
    dsimp only
    cases e : functionArgument f with
    | ok y => exact Covers.quiet (.bind (Covers.given y) fun v => .push v hR)
    | error f =>
      rw [e] at ok
      cases ok
  case rawGetI i k =>
    exact Covers.quiet (.bind (.tableAt _ fun _ h => h.ready hR) fun a => .read_bind (.table a) fun _ => .push _ hR)
  case loadString s => exact .bind (.loadText _ hR) fun _ => .pure fun _ h => h

theorem covers_getTop :
    Covers (World.Lacks L m) t (Thread.Holds R n) (perform env ⟨m, t⟩ .getTop) fun v th => th.Holds R n ∧ v = .int n :=
  .read_bind .generation fun _ => .bind (U := fun (top : Int) th => th.Holds R n ∧ top = n)
    (.sized (.pure fun _ h => ⟨h, rfl⟩)) fun _ => .pure fun _ h => ⟨h.1, congrArg Value.int h.2⟩

theorem covers_setTop : Covers (World.Lacks L m) t (Thread.Stands low) (perform env ⟨m, t⟩ (.setTop low)) fun _ => Thread.Ready := by
  refine .read_bind .generation fun _ => Covers.quiet (.setTop ?_)
  by_cases small : low < Room.beyond
  · exact .inl (int32_small small)
  · exact .inr (Nat.le_of_not_lt small)

theorem covers_checkStack (asked : Nat) (keeps : Room.Keeps n R) :
    Covers (World.Lacks L m) t (Thread.Holds R n) (perform env ⟨m, t⟩ (.checkStack asked)) fun _ =>
      Thread.Holds (fun r => R r ∧ r.Promises n asked) n :=
  .read_bind .generation fun _ => .bind (.checkRoom keeps) fun _ => .pure fun _ h => h

theorem covers_toLString (i : Int) :
    Covers (World.Lacks L m) t (Thread.Holds R n) (perform env ⟨m, t⟩ (.toLString i)) fun _ => Thread.Holds R n := by
  refine .read_bind .generation fun g => .bind (.text? _) fun r => ?_
  split
  · exact .pure fun _ h => h
  · exact .pure fun _ h => h

theorem covers_ref (i : Int) (hR : ∀ r, R r → r.Promises n 1) :
    Covers (World.Lacks L m) t (Thread.Holds R (n + 1)) (perform env ⟨m, t⟩ (.ref i)) fun _ => Thread.Holds R n :=
  .read_bind .generation fun _ => .bind (.read_bind (.value t _) fun _ => .bind (.pin hR) fun _ =>
    .bind (Covers.note _) fun _ => .pure fun _ h => h) fun _ => .pure fun _ h => h

/-- A protected call leaves one value if it fails; if not, as many as were wanted, or all. -/
theorem covers_pcall (sparing : env.Sparing L) (opened : L.opened m) {results : Int} (below : ∀ r, R r → r.Promises n 1)
    (wanted : ∀ r, R r → r.Promises n results.toNat) (fills : ∀ r e, R r → R (r.fill e)) :
    Covers (World.Lacks L m) t (Thread.Holds R (n + k + 1)) (perform env ⟨m, t⟩ (.pcall k results 0)) fun status th =>
      ∃ j, (Binding.Api.intOf status ≠ 0 → j = 1) ∧ (0 ≤ results → j = results.toNat ∨ j = 1) ∧
        th.Holds (fun r => R r ∧ (results < 0 → r.Promises n 2 → r.Promises (n + j) 1)) (n + j) := by
  refine .read_bind .generation fun g => .bind (U := fun _ => Thread.Holds R (n + k + 1)) (.pure fun _ h => h) fun handler => ?_
  have asked : ∀ j, (if results < 0 then none else some results.toNat) = some j → j = results.toNat := by
    intro j hj
    split at hj
    · cases hj
    · exact (Option.some.inj hj).symm
  refine .bind (.protectedCall handler (sparing.runner opened) below (fun j hj => (asked j hj) ▸ wanted) fills) fun status =>
    .pure ?_
  rintro th ⟨j, failed, exactly, holds⟩
  refine ⟨j, fun hs => failed ?_, fun positive => exactly _ (if_neg (Int.not_lt.mpr positive)), holds.imp fun r hr => ⟨hr.1, fun all => ?_⟩⟩
  · rintro rfl
    exact hs rfl
  · exact hr.2 (if_pos all)

end Perform
end LuaHost.Host
