import LuaHost.Host.Trampoline
import LuaHost.Proofs.Rooms.Operations

set_option autoImplicit false

/-!
# Room that functions of the host take

A function of the host that a machine calls converts its arguments on the stack that they lie on, and asks for
the room of its results. What it does in between may use any machine, the one that called it too.
-/

namespace LuaHost.Host

open Lua (M Room Thread Covers Within Link Sys)
open Binding (Program Runtime)

variable {env : Env} {L : Layout} {h : Handle} {m : Nat} {α β : Type} {F T : Thread → Prop} {U : α → Thread → Prop}
  {R : Room → Prop} {n k : Nat} {Q : Prop}

namespace Calm

theorem dropAll (ids : List Nat) : Calm env Q (Host.dropAll ids) := by
  induction ids with
  | nil => exact pure _
  | cons id rest ih =>
    unfold Host.dropAll
    refine bind get fun w => ?_
    dsimp only
    split
    · exact bind (dropped (release id)) fun _ => ih
    · exact ih

theorem recordCall (name : Text) (vs : List Value) : Calm env Q (Host.recordCall name vs) :=
  modify _ fun _ => .of_eq rfl rfl rfl rfl

theorem stateNamed (name : Text) : Calm env True (Host.stateNamed name) := by
  refine bind get fun w => ?_
  split
  · exact pure _
  · exact fail _

theorem construct (c : Class) (args : List Value) : Calm env True (c.construct args) := by
  refine bind get fun w => ?_
  split
  all_goals first | exact pure _ | exact fail _ | exact bind (ofExcept _) fun _ => pure _

theorem reportFailure (f : Foreign) (e : Failure) : Calm env True (Host.reportFailure f e) :=
  bind (runtime _) fun _ => bind (report _ _ _ _) fun _ => pure _

end Calm

/-! ## Between arguments and results -/

namespace Spares

/-- The registry of a state goes with its machine. -/
theorem state_bind {id : Nat} {next : State → H α} (ha : ∀ s : State, L.Agrees s.registry s.machine → Spares env L (next s)) :
    Spares env L (State.get id >>= next) := ⟨fun w hw => (ha _ (hw.state id)).after w hw⟩

theorem affords {act : H α} (ha : Spares env L act) : Affords env L h Thread.Ready Thread.Ready act fun _ => Thread.Ready := by
  refine .of_opened fun opened => ⟨fun w hw => ?_⟩
  have hact := ha.after w (hw.settled fun _ h => h)
  cases e : act env w with
  | ok a w' =>
    rw [e] at hact
    exact hact.works opened
  | error x w' =>
    rw [e] at hact
    cases x with
    | failure f => exact hact.works opened
    | signal s => exact hact

variable (sparing : env.Sparing L)

include sparing

theorem execute (s : State) (source : Value) : Spares env L (s.execute source) := by
  cases hm : s.machine with
  | some m => exact State.execute_spares hm sparing source
  | none =>
    unfold State.execute
    rw [hm]
    exact pure _

section

variable {s : Selector} (agrees : L.Agrees s.registry s.machine)

include agrees

theorem exists_ : Spares env L s.exists_ := by
  cases hm : s.machine with
  | some m => exact s.exists_spares hm (hm ▸ agrees) sparing
  | none =>
    unfold Selector.exists_
    rw [hm]
    exact pure _

theorem get : Spares env L s.get := by
  cases hm : s.machine with
  | some m => exact s.get_spares hm (hm ▸ agrees) sparing
  | none =>
    unfold Selector.get
    rw [hm]
    exact pure _

theorem ref : Spares env L s.ref := by
  cases hm : s.machine with
  | some m => exact s.ref_spares hm (hm ▸ agrees) sparing
  | none =>
    unfold Selector.ref
    rw [hm]
    exact pure _

theorem set (v : Value) : Spares env L (s.set v) := by
  cases hm : s.machine with
  | some m => exact s.set_spares hm (hm ▸ agrees) sparing v
  | none =>
    unfold Selector.set
    rw [hm]
    exact pure _

theorem call (args : List Value) : Spares env L (s.call args) := by
  cases hm : s.machine with
  | some m => exact s.call_spares hm (hm ▸ agrees) sparing args
  | none =>
    unfold Selector.call
    rw [hm]
    exact pure _

end

theorem mainSelector_bind {path : List Value} {next : Selector → H α}
    (ha : ∀ s : Selector, L.Agrees s.registry s.machine → Spares env L (next s)) : Spares env L (mainSelector path >>= next) := by
  unfold mainSelector
  rw [bind_assoc]
  refine .bind (calm (Calm.stateNamed _)) fun id => ?_
  rw [bind_assoc]
  exact state_bind fun s agrees => ha _ agrees

/-- What a callback does, whichever machine calls it. -/
theorem callback (f : Callback) (args : List Value) : Spares env L (f.run args) := by
  unfold Callback.run
  cases f with
  | construct c => exact calm (Calm.construct c args)
  | named name action =>
    refine bind (calm (Calm.recordCall (Q := False) _ _)) fun _ => ?_
    cases action with
    | echo => exact pure _
    | reverse => exact pure _
    | count => exact pure _
    | first => exact pure _
    | const v => exact pure _
    | nothing => exact pure _
    | keep => exact bind (calm (Calm.modify (Q := False) _ fun _ => .of_eq rfl rfl rfl rfl)) fun _ => pure _
    | raise kind message => exact calm (Calm.fail _)
    | execute state source =>
      exact bind (calm (Calm.stateNamed _)) fun id => state_bind fun s _ => bind (execute sparing s source) fun _ => pure _
    | get path => exact mainSelector_bind sparing fun s agrees => get sparing agrees
    | call path => exact mainSelector_bind sparing fun s agrees => call sparing agrees args
    | set path =>
      cases args with
      | nil => exact calm (Calm.fail _)
      | cons v rest =>
        exact mainSelector_bind sparing fun s agrees => bind (set sparing agrees v) fun _ => pure _

end Spares

/-! ## Calls of functions -/

/-- A thread that is ready once `n` results have been taken from it, as far as they are counted. -/
def HandsOver (n : Int) (th : Thread) : Prop := ∃ k, th.Holds (·.Promises (k - (int32 n).toNat) 1) k

theorem handsOver_none {th : Thread} (ready : th.Ready) : HandsOver 0 th := ⟨_, ready.holds⟩

/-- More results than there are numbers for come to lie where nothing is promised. -/
theorem handsOver_all {th : Thread} {len : Nat} (holds : th.Holds (·.Promises n 1) (n + len)) : HandsOver len th := by
  refine ⟨n + len, holds.imp fun r hr => ?_⟩
  by_cases small : len < Room.beyond
  · rw [int32_small small, Int.toNat_natCast, Nat.add_sub_cancel]
    exact hr
  · have far : Room.beyond ≤ n + len - (int32 len).toNat := by
      unfold Room.beyond at small ⊢
      unfold int32
      rw [Int.bmod_def]
      omega
    exact .inl (Room.lapsed_iff.mpr (.inl far))

namespace Affords

theorem holding {ids : List Nat} {act : H α} (ha : Affords env L h F T act U) : Affords env L h F T (Host.holding ids act) U := by
  have held (f : World → List (List Nat)) {F T : Thread → Prop} :
      Affords env L h F T (modify fun w => { w with inFlight := f w } : H Unit) fun _ => T :=
    calm (Calm.modify (Q := False) _ fun _ => .of_eq rfl rfl rfl rfl) False.elim
  exact bind (held fun w => ids :: w.inFlight) fun _ =>
    finally_ ha (fun _ => held fun w => w.inFlight.drop 1) (held fun w => w.inFlight.drop 1)

theorem arguments (f : Foreign) (count : Nat) (i : Int) (hR : ∀ r, R r → r.Promises n 1) (hF : ∀ th, th.Holds R n → F th) :
    Affords env L h F (Thread.Holds R n) (Host.arguments f h count i) fun _ => Thread.Holds R n := by
  induction count generalizing i with
  | zero => exact pure fun _ h => h
  | succ count ih =>
    unfold Host.arguments
    exact bind (toHost hR hF _ _) fun v => bind (ih _) fun vs => pure fun _ h => h

/-- The parts of a result are pushed into room that was asked for; one that fails leaves some of it. -/
theorem pushResults (f : Foreign) (j : Nat) (vs : List Value) (hR : ∀ r, R r → r.Promises n vs.length) :
    Affords env L h F (Thread.Holds R n) (Host.pushResults f h j vs) fun failed th =>
      if failed.isSome then th.Ready else th.Holds R (n + vs.length) := by
  induction vs generalizing j n with
  | nil => exact pure fun _ h => h
  | cons v rest ih =>
    rw [List.length_cons, Nat.add_comm rest.length] at hR
    have one (r : Room) (hr : R r) : r.Promises n 1 := (hR r hr).weaken (Nat.le_add_right _ _)
    unfold Host.pushResults
    refine bind (U := fun failed th => if failed.isSome then th.Ready else th.Holds R (n + 1))
      (catch_ (bind (pushHost one (fun _ h => h) _ _) fun _ => pure fun _ h => h) fun e => pure fun _ h => h.ready one) fun pushed => ?_
    cases pushed with
    | some e => exact pure fun _ h => h
    | none =>
      refine (ih (n := n + 1) (j + 1) fun r hr => (hR r hr).deeper).post fun failed th h => ?_
      rwa [List.length_cons, Nat.add_comm rest.length, ← Nat.add_assoc]

theorem giveUp (f : Foreign) (e : Failure) (ids : List Nat) :
    Affords env L h Thread.Ready Thread.Ready (Host.giveUp f e ids) fun _ => Thread.Ready :=
  finally_ (discard (calm (Calm.reportFailure f e) fun _ _ h => h)) (fun _ => calm (Calm.dropAll (Q := False) ids) False.elim)
    (calm (Calm.dropAll (Q := False) ids) False.elim)

theorem giveResults (f : Foreign) (argIds : List Nat) (result : Value) :
    Affords env L h F (Thread.Holds (·.Promises n 1) n) (Host.giveResults f h argIds result) fun failed th =>
      if failed.isSome then th.Ready else th.Holds (·.Promises n 1) (n + (resultList result).length) := by
  refine holding (bind (calm (Calm.dropAll (Q := False) _) False.elim) fun _ => ?_)
  have asked : Affords env L h F (Thread.Holds (·.Promises n 1) n) (do
      Functor.discard (Host.runWith f.runtime (some h) fun _ => Binding.Api.checkStack (resultList result).length)
      Host.pushResults f h 0 (resultList result)) fun failed th =>
        if failed.isSome then th.Ready else th.Holds (·.Promises n 1) (n + (resultList result).length) := by
    refine bind (discard (runWith fun r => checkStack r _ (Room.Keeps.promises (Nat.le_refl n)))) fun _ => ?_
    refine (pushResults f 0 _ fun r hr => hr.2).post fun failed th h => ?_
    cases failed with
    | some e => exact h
    | none => exact Thread.Holds.imp h fun r hr => hr.1
  cases result with
  | none => exact pure fun _ h => h
  | _ => exact asked

theorem finish (f : Foreign) (argIds : List Nat) (result : Except Failure Value) :
    Affords env L h Thread.Ready Thread.Ready (Host.finish f h argIds result) HandsOver := by
  cases result with
  | error e => exact bind (giveUp f e _) fun _ => pure fun _ => handsOver_none
  | ok result =>
    refine at_depth fun n => bind (giveResults f argIds result) fun failed => ?_
    cases failed with
    | some at_ => exact bind (giveUp f at_.2 _) fun _ => pure fun _ => handsOver_none
    | none => exact bind (calm (Calm.dropAll (Q := False) _) False.elim) fun _ => pure fun _ => handsOver_all

/-- A call of a function that converts values: whatever it does in between, its results have room. -/
theorem callHost {f : Foreign} {act : List Value → H Value} (acts : ∀ args, Spares env L (act args)) :
    Affords env L h Thread.Ready Thread.Ready (Host.callHost f act h) HandsOver := by
  refine at_depth fun n => bind (runWith fun r => getTop r) fun count => of_fact fun _ => ?_
  have ready (th : Thread) (holds : th.Holds (·.Promises n 1) n) : th.Ready := holds.ready fun _ h => h
  refine bind (arguments f _ 1 (fun _ h => h) ready) fun args => pre ready ?_
  have tried : Affords env L h Thread.Ready Thread.Ready (Host.attempt (act args)) fun _ => Thread.Ready :=
    catch_ (bind (acts args).affords fun _ => pure fun _ h => h) fun _ => pure fun _ h => h
  exact bind (holding tried) fun result => finish f _ result

theorem foreign (sparing : env.Sparing L) {f : Foreign} (tame : f.Tame) :
    Affords env L h Thread.Ready Thread.Ready (f.call h) HandsOver := by
  unfold Foreign.call
  cases e : f.routine with
  | callback callback => exact callHost (Spares.callback sparing callback)
  | raw calls result raises =>
    obtain ⟨rfl, rfl⟩ := tame _ _ _ e
    refine catch_ (G := Thread.Ready) (bind (U := fun _ => Thread.Ready) (pure fun _ h => h) fun _ => ?_) fun e => ?_
    · cases raises with
      | some x => exact fail _ fun _ h => h
      | none =>
        dsimp only
        split
        · exact pure fun _ => handsOver_none
        · exact pure fun _ => handsOver_none
    · split
      · exact pure fun _ => handsOver_none
      · exact (bind (calm (Calm.runtime (Q := False) _) False.elim) fun _ => bind (calm (Calm.report _ _ _ _) fun _ _ h => h) fun _ =>
          pure fun _ => handsOver_none)

end Affords

/-- A function of the host, called by a machine, leaves its results there. -/
theorem Covers.inMachine {t : Nat} {act : H Int} (ha : Affords env L ⟨m, t⟩ Thread.Ready Thread.Ready act HandsOver) :
    Covers (World.Lacks L m) t Thread.Ready (H.inMachine env m act 0) HandsOver := by
  constructor
  intro s hs
  have opened : L.opened m := hs.host.opened
  let w : World := { s.host with machines := s.host.machines.put m (.open s.vm) }
  have works : w.Works L ⟨m, t⟩ Thread.Ready :=
    ⟨s.vm, Pool.get_put_self _ _ _, hs.here, hs.others, World.lacks_put.mpr hs.host⟩
  have hact := ha.after w works
  unfold H.inMachine
  dsimp only
  cases e : act env w with
  | ok n w' =>
    rw [e] at hact
    obtain ⟨vm, there, around⟩ := hact
    simp only [there]
    exact ⟨around.here, around.others, World.lacks_put.mpr around.host⟩
  | error x w' =>
    rw [e] at hact
    cases x with
    | failure f =>
      obtain ⟨vm, there, around⟩ := hact
      simp only [there]
      exact ⟨handsOver_none around.here, around.others, World.lacks_put.mpr around.host⟩
    | signal x =>
      obtain ⟨vm, there⟩ := (hact.opened m).mpr opened
      simp only [there]
      exact ⟨hact.ready m vm there, World.lacks_put.mpr (hact.lacks opened)⟩

theorem Covers.within {t : Nat} {K : World → Prop} {act : M World α} (ha : Covers K t Thread.Ready act fun _ => Thread.Ready) :
    Within (.ready K) act := by
  constructor
  intro s
  have hact (ready : s.vm.Ready ∧ K s.host) := ha.after s (.of_ready ready.1 ready.2 t)
  cases e : act s with
  | ok a s' =>
    rw [e] at hact
    exact fun ready => ⟨(hact ready).ready fun _ h => h, (hact ready).host⟩
  | error x s' =>
    rw [e] at hact
    exact ⟨hact, trivial⟩

/-- The functions of the host, to whatever depth they and machines call each other, leave all threads ready. -/
theorem nativesTo_sparing (depth : Nat) : Env.Sparing ⟨nativesTo depth⟩ L := by
  induction depth with
  | zero => exact fun m _ services _ f upvalues args => .throw_fault _ (by decide)
  | succ depth ih =>
    intro m opened services hs f upvalues args
    have library (g : Lua.Native) : Within (.ready (World.Lacks L m))
        (Lua.Library.apply (fun w : World => w.files) services g upvalues args) :=
      (Lua.Library.apply_tied hs.serves (Link.ofFrame_files _) g upvalues args).within
    unfold nativesTo
    cases f with
    | foreign id =>
      have called (t : Nat) (host : World) (tame : (host.foreigns.get id).Tame) :
          Covers (World.Lacks L m) t Thread.Ready (do
            if !(host.foreigns.get id).machines.contains m then M.fault .strayFunction
            note (.entered m id (host.isKept m (.foreign id)))
            let n ← H.inMachine ⟨nativesTo depth⟩ m ((host.foreigns.get id).call ⟨m, t⟩) 0
            Lua.Stack.popAll t (int32 n).toNat) fun _ => Thread.Ready := by
        have ran : Covers (World.Lacks L m) t Thread.Ready (do
            note (.entered m id (host.isKept m (.foreign id)))
            let n ← H.inMachine ⟨nativesTo depth⟩ m ((host.foreigns.get id).call ⟨m, t⟩) 0
            Lua.Stack.popAll t (int32 n).toNat) fun _ => Thread.Ready := by
          refine .bind (Covers.note _) fun _ => .bind (Covers.inMachine (.foreign ih tame)) fun n => ?_
          constructor
          intro s hs
          obtain ⟨k, holds⟩ := hs.here
          exact ((Covers.popAll _).conseq (fun _ h => h) fun _ th h => h.ready fun _ hr => hr).after s ⟨holds, hs.others, hs.host⟩
        split
        · exact .bind (U := fun _ => Thread.Ready) (.fault _ fun _ h => h) fun _ => ran
        · exact ran
      constructor
      intro s
      by_cases ready : s.vm.Ready ∧ World.Lacks L m s.host
      · have tame : (s.host.foreigns.get id).Tame := (ready.2 _ (World.newMachine_ready .v51)).tame id
        exact (Covers.within (called s.vm.running s.host tame)).after s
      · unfold Lua.Frame.After
        split
        · exact fun h => absurd h ready
        · exact ⟨fun h => absurd h ready, trivial⟩
    | _ => exact library _

end LuaHost.Host
