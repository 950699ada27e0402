import LuaHost.Proofs.Walks.Echoes
import LuaHost.Proofs.Lives.Sessions

set_option autoImplicit false

/-!
# All arguments and all results

What calls carry, in both directions: a selector hands its arguments to the function that it finds, and collects
what the function gives; a callback receives what a program hands it, and the program what the callback gives; and what
goes through a callback that gives its arguments back comes back as it came.
-/

namespace LuaHost.Host

open Lua (Generation Machine Sys Caller)

/-- Calls carry all arguments and all results, in order. -/
theorem calls_marshal {g : Generation} :
    (∀ {env : Env} {m : Nat} {s : Selector} {w w₁ : World} {vm vm₁ : Lua.Vm} {base : Array Lua.Value} {f : Lua.Value} {args : List Value},
      env.Follows → s.Finds g env m w vm base f w₁ vm₁ → (∀ v ∈ args, ∀ e, ¬ Refuses w₁ v e) →
      ∃ us w₂ vm₂, Selector.Handed g m w₁ vm₁ base args us w₂ vm₂ ∧
        ∀ rs s₃, Machine.outside (runner env m) f us (taken w₂ m vm₂) = .ok (.done rs) s₃ → base.size + rs.length < 0x80000000 →
          Yields g env w (s.call args) (s.Collects m (w.runtimes.get s.runtime) rs) fun _ _ => False) ∧
    (∀ {m k : Nat} {fn : Callback} {c : Machine} {caller : Caller} {args : List Lua.Value} {s : Sys World} (depth : Nat)
      (services : Lua.Services World), Calling g m k fn c caller args s →
      (∃ s', Machine.step (nativesTo (depth + 1) m) services c s = .error (.fault .registryFull) s') ∨
        ∃ as pins w₁, Received (s.host.foreigns.get k) ⟨m, s.vm.running⟩ (World.entering m k (c.within caller args s)) args as pins w₁ ∧
          ∀ outcome w₂, attempt (fn.run as) ⟨nativesTo depth⟩ (w₁.flying (pins.map Pin.id)) = .ok outcome w₂ →
            (∀ n ∈ pins.map Pin.id, w₂.landed.InReach n) →
            (∀ r, outcome = .ok r → ∀ n ∈ r.references, w₂.landed.holds n = true ∨ w₂.landed.InReach n) →
            ∃ us w' vm', Machine.step (nativesTo (depth + 1) m) services c s =
                .ok (.inl { c.entered caller with ctl := .values us }) (taken w' m vm') ∧
              (w₂.landed.Ready g → (∀ vm, w₂.machines.get m = .open vm → vm.breached = false) →
                (∀ r, outcome = .ok r → (resultList r).length < 0x80000000) →
                Receives g (s.host.foreigns.get k) m w₂.landed outcome us w')) ∧
    ∀ {m k n depth : Nat} {s : Selector} {w w₁ : World} {vm vm₁ : Lua.Vm} {base : Array Lua.Value} {args : List Value},
      s.Finds g ⟨nativesTo (depth + 1)⟩ m w vm base (.native (.foreign k) n) w₁ vm₁ → (∀ v ∈ args, ∀ e, ¬ Refuses w₁ v e) →
      w₁.Echoes m k → (w.runtimes.get s.runtime).hidesTexts = (w.runtimes.get (w₁.foreigns.get k).runtime).hidesTexts →
      vm₁.natives + 1 < Lua.nativeLimit → base.size + args.length < 0x80000000 →
      ∃ us w₂, List.Forall₂ (Denotes g m w₁ w₂) args us ∧
        Yields g ⟨nativesTo (depth + 1)⟩ w (s.call args) (s.Collects m (w.runtimes.get s.runtime) us) fun _ _ => False := by
  refine ⟨fun he finds pushable => ?_, fun depth services calling => ?_, fun finds pushable echoes texts few small => ?_⟩
  · obtain ⟨us, w₂, vm₂, handed, gives, -⟩ := Selector.call_gives he finds pushable
    exact ⟨us, w₂, vm₂, handed, fun rs s₃ ran short => (gives rs s₃ ran).2 short⟩
  · obtain full | ⟨as, pins, w₁, received, -, goes⟩ := calling.calls depth services
    · exact .inl full
    refine .inr ⟨as, pins, w₁, received, fun outcome w₂ ran reach results => ?_⟩
    obtain ⟨us, w', vm₁, vm₂, stepped, -, -, -, -, receives⟩ := (goes outcome w₂ ran).2 reach results
    exact ⟨us, w', vm₂, stepped, receives⟩
  · exact Selector.call_echoes finds pushable echoes texts few small

/-- A session in which a callback that gives its arguments back is a global. -/
def answering : List Session.Step :=
  [⟨"s", none, .new none none .create true⟩, ⟨"s", none, .set (.path [.text "f"]) (.callable (.named "f" .echo)) false⟩]

def answeringWorld : World := Session.runAll (Session.start .v54) answering

def answeringPlace : Selector := (answeringWorld.states.get 0).select (.text "f") []

/-- The world in which the callback is on top of the stack. -/
def answeringFound : World := final (answeringPlace.push answeringPlace.chain Env.full answeringWorld)

/-- Whether a lookup has found something. -/
def finds : EStateM.Result Stop World (Option Int) → Bool
  | .ok (some _) _ => true
  | _ => false

theorem found_of_finds {r : EStateM.Result Stop World (Option Int)} (h : finds r = true) : ∃ tag, r = .ok (some tag) (final r) := by
  unfold finds at h
  split at h
  · exact ⟨_, rfl⟩
  · cases h

/-- Whether a routine gives its arguments back. -/
def Routine.isEcho : Routine → Bool
  | .callback (.named _ .echo) => true
  | _ => false

theorem Routine.echo_of_isEcho {r : Routine} (h : r.isEcho = true) : ∃ name, r = .callback (.named name .echo) := by
  unfold Routine.isEcho at h
  split at h
  · exact ⟨_, rfl⟩
  · cases h

/-- Whether the function of the host that was made first is on top of the main stack, above one value. -/
def topsForeign (vm : Lua.Vm) : Bool :=
  match vm.stack.toList with
  | [_, .native (.foreign 0) _] => true
  | _ => false

theorem top_of_topsForeign {vm : Lua.Vm} (h : topsForeign vm = true) : ∃ (base : Array Lua.Value) (n : Nat), base.size = 1 ∧ vm.stack = base.push (.native (.foreign 0) n) := by
  unfold topsForeign at h
  split at h
  · next a n same => exact ⟨#[a], n, rfl, Array.toList_inj.mp same⟩
  · cases h

/-- A number and no value go through it. -/
theorem calls_marshal_answering : ∃ us w₂ v w', List.Forall₂ (Denotes .v54 0 answeringFound w₂) [.int 1, .none] us ∧
    answeringPlace.call [.int 1, .none] Env.full answeringWorld = .ok v w' ∧
    answeringPlace.Collects 0 (answeringWorld.runtimes.get answeringPlace.runtime) us v w' := by
  have plain : ∀ s ∈ answering, s.command.Plain := by
    intro s hs
    simp only [answering, List.mem_cons, List.not_mem_nil, or_false] at hs
    obtain rfl | rfl := hs <;> trivial
  have reached : Session.Reached .v54 answeringWorld := Session.Runs.refl.runAll plain (by decide +kernel)
  have stages := Session.reached_stages reached
  obtain ⟨tag, found⟩ := found_of_finds (by decide +kernel : finds (answeringPlace.push answeringPlace.chain Env.full answeringWorld) = true)
  obtain ⟨vm, hm, small⟩ := World.open_of_shows (by decide +kernel :
    answeringWorld.shows 0 (fun vm => decide (vm.stack.size < 0x80000000)) = true)
  obtain ⟨vm₁, hm₁, fit⟩ := World.open_of_shows (by decide +kernel : answeringFound.shows 0 (fun vm => topsForeign vm && !vm.breached &&
    decide (vm.natives + 1 < Lua.nativeLimit)) = true)
  simp only [Bool.and_eq_true, Bool.not_eq_true', decide_eq_true_eq] at fit
  obtain ⟨⟨top, fine⟩, few⟩ := fit
  obtain ⟨base, n, one, top⟩ := top_of_topsForeign top
  have finds : answeringPlace.Finds .v54 Env.full 0 answeringWorld vm base (.native (.foreign 0) n) answeringFound vm₁ :=
    ⟨stages, by decide +kernel, State.Goes.select ((Session.reached_lawful reached).toSound.goes 0) (.text "f") [], by decide +kernel, hm,
      of_decide_eq_true small, ⟨tag, found⟩, hm₁, top, fine, by decide +kernel⟩
  have echoes : answeringFound.Echoes 0 0 := ⟨Routine.echo_of_isEcho (by decide +kernel), by decide +kernel, by decide +kernel⟩
  have pushable : ∀ v ∈ [Value.int 1, Value.none], ∀ e, ¬ Refuses answeringFound v e := by
    intro v hv
    simp only [List.mem_cons, List.not_mem_nil, or_false] at hv
    obtain rfl | rfl := hv
    · exact Refuses.of_sent hm₁ rfl
    · exact Refuses.of_sent hm₁ rfl
  obtain ⟨us, w₂, denotes, yields⟩ := calls_marshal.2.2 finds pushable echoes (by decide +kernel) few (by rw [one]; decide)
  obtain ⟨v, w', run⟩ := Session.ok_of_succeeds (by decide +kernel :
    Session.succeeds (answeringPlace.call [.int 1, .none] Env.full answeringWorld) = true)
  have ended := yields (by decide +kernel)
  change Ended _ _ (answeringPlace.call [.int 1, .none] Env.full answeringWorld) at ended
  rw [run] at ended
  cases ended with
  | back collects => exact ⟨us, w₂, v, w', denotes, run, collects⟩

end LuaHost.Host
