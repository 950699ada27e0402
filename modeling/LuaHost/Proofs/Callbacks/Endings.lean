import LuaHost.Proofs.Callbacks.Phases

set_option autoImplicit false

/-!
# How a call ends

A call whose function came back lets the arguments go, pushes the results up to the first that is refused, and
lets the results go. If one was refused, or if the function raised, this is told of, and the call gives nothing.
-/

namespace LuaHost.Host

open Lua (Vm Generation)

variable {env : Env} {w w' : World} {vm : Vm} {f : Foreign} {t : Handle} {ids : List Nat}

/-! ## Errors that are told of -/

/-- What a reporter makes of an error of a call. -/
def Foreign.telling (f : Foreign) (w : World) (e : Failure) : Handler.Result :=
  (w.reporters.get f.reporter).handle ⟨codeOf (w.runtimes.get f.runtime) .errRun, e.text, some e.kind⟩

/-- How a call ends in a world after an error was told of: without results, or with what the reporter raised. -/
def Foreign.ending (f : Foreign) (w : World) (e : Failure) {α : Type} (a : α) (w' : World) : EStateM.Result Stop World α :=
  match (f.telling w e).raised with
  | none => .ok a w'
  | some t => .error (.failure (.raised "RuntimeError" t)) w'

/-- A world in which a reporter has been told of an error. -/
def World.told (w : World) (f : Foreign) (e : Failure) : World :=
  { w with
    reporters := w.reporters.put f.reporter (f.telling w e).handler
    reports := w.reports ++ (f.telling w e).events }

theorem World.keeping_told (w : World) (f : Foreign) (e : Failure) : w.Keeping (w.told f e) :=
  ⟨⟨rfl, rfl, rfl, rfl, rfl, rfl, rfl, rfl, rfl, rfl⟩, rfl, fun _ h => h⟩

theorem reportFailure_told (f : Foreign) (e : Failure) : reportFailure f e env w = f.ending w e 0 (w.told f e) := by
  have run : reportFailure f e env w = (H.raise (f.telling w e).raised >>= fun _ => Pure.pure 0 : H Int) env (w.told f e) := rfl
  rw [run, Foreign.ending]
  cases (f.telling w e).raised <;> rfl

/-- After an error was told of, references are let go, even if the reporter raises. -/
theorem giveUp_told {e : Failure} {ids : List Nat} (dropped : dropAll ids env (w.told f e) = .ok () w') :
    giveUp f e ids env w = f.ending w e () w' := by
  have told := @reportFailure_told env w f e
  unfold giveUp H.finally_
  unfold Foreign.ending at told ⊢
  cases raised : (f.telling w e).raised with
  | none =>
    rw [raised] at told
    simp only [discard_ok told, dropped]
  | some t =>
    rw [raised] at told
    simp only [discard_error told, dropped]

theorem Foreign.ending_bind {α β : Type} {act : H α} {e : Failure} {a : α} {b : β} (run : act env w = f.ending w e a w') :
    (act >>= fun _ => pure b : H β) env w = f.ending w e b w' := by
  unfold Foreign.ending at run ⊢
  cases raised : (f.telling w e).raised with
  | none =>
    rw [raised] at run
    exact bind_ok run
  | some t =>
    rw [raised] at run
    exact bind_error run

/-! ## Results that are given -/

theorem referencesOfAll_resultList (r : Value) : referencesOfAll (resultList r) = r.references := by
  cases r <;> first | rfl | exact List.append_nil _

theorem mem_releaseOrder {id : Nat} {vs : List Value} {last : Option Nat} : id ∈ releaseOrder vs last ↔ id ∈ referencesOfAll vs := by
  cases last with
  | none => exact List.mem_reverse
  | some k =>
    rw [releaseOrder, List.mem_append, List.mem_reverse, mem_referencesOfAll, mem_referencesOfAll]
    constructor
    · rintro (⟨v, hv, hid⟩ | hid)
      · exact ⟨v, List.mem_of_mem_eraseIdx hv, hid⟩
      · cases found : vs[k]? with
        | none =>
          rw [found] at hid
          cases hid
        | some v =>
          rw [found] at hid
          exact ⟨v, List.mem_of_getElem? found, hid⟩
    · rintro ⟨v, hv, hid⟩
      obtain ⟨i, hi⟩ := List.mem_iff_getElem?.mp hv
      by_cases same : i = k
      · rw [same] at hi
        rw [hi]
        exact .inr hid
      · exact .inl ⟨v, List.mem_eraseIdx_iff_getElem?.mpr ⟨i, same, hi⟩, hid⟩

/-- The place and the error of the first result that is refused, after those before it have been pushed. -/
inductive Stops (w : World) (vs : List Value) : List Value → Option (Nat × Failure) → Prop where
  | never : Stops w vs vs none
  | refused {before after : List Value} {v : Value} {e : Failure} (parts : vs = before ++ v :: after) (h : Refuses w v e) :
    Stops w vs before (some (before.length, e))

theorem Stops.among {vs before : List Value} {stop : Option (Nat × Failure)} (h : Stops w vs before stop) :
    ∀ v ∈ before, v ∈ vs := by
  cases h with
  | never => exact fun _ hv => hv
  | refused parts _ => exact fun _ hv => parts ▸ List.mem_append_left _ hv

theorem Stops.imp {vs before : List Value} {stop : Option (Nat × Failure)} (h : Stops w vs before stop)
    (refuses : ∀ v e, Refuses w v e → Refuses w' v e) : Stops w' vs before stop := by
  cases h with
  | never => exact .never
  | refused parts h => exact .refused parts (refuses _ _ h)

/-- The arguments are let go while the results are held, and then the results are pushed. -/
theorem giveResults_pushed (f : Foreign) {argIds : List Nat} {r : Value} (dropped : dropAll argIds.reverse env (w.flying r.references) = .ok () w')
    (hm : w'.machines.get t.machine = .open vm)
    (hg : ∀ id, (w'.runtimes.get (w'.registries.get id).runtime).generation = vm.generation) :
    ∃ vm' before us stop w'', vm.Alike vm' ∧ vm'.stackOf t.thread = vm.stackOf t.thread ∧
      PushedAll f.registry t (w'.put t.machine vm') before us w'' ∧ Stops w'' (resultList r) before stop ∧
      giveResults f t argIds r env w = .ok stop w''.landed := by
  have pushes (vm' : Vm) (alike : vm.Alike vm') : ∃ before us stop w'', PushedAll f.registry t (w'.put t.machine vm') before us w'' ∧
      Stops w'' (resultList r) before stop ∧ pushResults f t 0 (resultList r) env (w'.put t.machine vm') = .ok stop w'' := by
    obtain ⟨us, w'', all, pushed⟩ | ⟨before, v, after, us, e, w'', parts, all, refused, pushed⟩ :=
      pushResults_pushed env f 0 (resultList r) (World.get_put w' t.machine vm') fun id => (hg id).trans alike.generation.symm
    · exact ⟨_, us, none, w'', all, .never, pushed⟩
    · refine ⟨before, us, _, w'', all, .refused parts refused, pushed.trans ?_⟩
      rw [Nat.zero_add]
  have run : giveResults f t argIds r env w = holding (referencesOfAll (resultList r)) (do
      dropAll argIds.reverse
      if r.isNone then return none
      discard <| runWith f.runtime (some t) fun _ => Binding.Api.checkStack (resultList r).length
      pushResults f t 0 (resultList r)) env w := rfl
  rw [← referencesOfAll_resultList] at dropped
  have body {stop : Option (Nat × Failure)} {w'' : World} (rest : (do
      if r.isNone then return none
      discard <| runWith f.runtime (some t) fun _ => Binding.Api.checkStack (resultList r).length
      pushResults f t 0 (resultList r) : H (Option (Nat × Failure))) env w' = .ok stop w'') :
      giveResults f t argIds r env w = .ok stop w''.landed := run.trans (holding_ok ((bind_ok dropped).trans rest))
  cases isNone : r.isNone with
  | true =>
    obtain ⟨before, us, stop, w'', all, stops, pushed⟩ := pushes vm (.refl vm)
    refine ⟨vm, before, us, stop, w'', .refl vm, rfl, all, stops, body ?_⟩
    rw [World.put_self hm] at pushed
    rw [if_pos isNone]
    cases r <;> cases isNone
    exact pushed
  | false =>
    obtain ⟨_, vm', roomy, alike, stack⟩ := runWith_checkStack env f.runtime (resultList r).length hm
    obtain ⟨before, us, stop, w'', all, stops, pushed⟩ := pushes vm' alike
    refine ⟨vm', before, us, stop, w'', alike, stack, all, stops, body ?_⟩
    rw [isNone, if_neg Bool.false_ne_true]
    exact (bind_ok (discard_ok roomy)).trans pushed

/-! ## Endings -/

/-- An operation came back or raised, and left a world behind. -/
def Ends {α : Type} (r : EStateM.Result Stop World α) (w : World) : Prop :=
  (∃ a, r = .ok a w) ∨ ∃ e, r = .error (.failure e) w

theorem Foreign.ends_ending {α : Type} {e : Failure} {a : α} : Ends (f.ending w e a w') w' := by
  unfold Foreign.ending
  split
  · exact .inl ⟨a, rfl⟩
  · exact .inr ⟨_, rfl⟩

/-- Results are given: the arguments are let go while the results are held, and results are pushed up to the
first that is refused. -/
inductive Giving (f : Foreign) (t : Handle) (ids : List Nat) (w : World) (r : Value) :
    List Value → List Lua.Value → Option (Nat × Failure) → World → Prop where
  | intro {w₁ w₂ : World} {vm₁ vm₂ : Vm} {before : List Value} {us : List Lua.Value} {stop : Option (Nat × Failure)}
    (drops : Drops ids.reverse (w.flying r.references) w₁) (hm : w₁.machines.get t.machine = .open vm₁)
    (alike : vm₁.Alike vm₂) (stack : vm₂.stackOf t.thread = vm₁.stackOf t.thread)
    (pushed : PushedAll f.registry t (w₁.put t.machine vm₂) before us w₂) (stops : Stops w₂ (resultList r) before stop) :
    Giving f t ids w r before us stop w₂

/-- A call finishes: its results have been given, or an error was told of; and then references are let go. -/
inductive Finish (f : Foreign) (t : Handle) (ids : List Nat) (w : World) :
    Except Failure Value → EStateM.Result Stop World Int → World → Prop where
  | raised {e : Failure} {w' : World} (drops : Drops ids.reverse (w.told f e) w') :
    Finish f t ids w (.error e) (f.ending w e 0 w') w'
  | given {r : Value} {before : List Value} {us : List Lua.Value} {last : Option Nat} {w₁ w' : World}
    (h : Giving f t ids w r before us none w₁) (drops : Drops (releaseOrder (resultList r) last) w₁.landed w') :
    Finish f t ids w (.ok r) (.ok (resultList r).length w') w'
  | stopped {r : Value} {before : List Value} {us : List Lua.Value} {k : Nat} {e : Failure} {w₁ w' : World}
    (h : Giving f t ids w r before us (some (k, e)) w₁)
    (drops : Drops (releaseOrder (resultList r) (some k)) (w₁.landed.told f e) w') :
    Finish f t ids w (.ok r) (f.ending w₁.landed e 0 w') w'

namespace Giving

variable {r : Value} {before : List Value} {us : List Lua.Value} {stop : Option (Nat × Failure)}

/-- What is left of giving after the arguments have been let go. -/
theorem level {w₁ w₂ : World} {vm₁ vm₂ : Vm} (hm : w₁.machines.get t.machine = .open vm₁) (alike : vm₁.Alike vm₂)
    (pushed : PushedAll f.registry t (w₁.put t.machine vm₂) before us w₂) (stops : Stops w₂ (resultList r) before stop) :
    w₁.Level r.references w₂ :=
  ((World.Level.put hm alike).trans pushed.level).mono fun id hid => by
    -- the results that are pushed hold no more than what is in flight
    obtain ⟨v, hv, hid⟩ := mem_referencesOfAll.mp hid
    exact referencesOfAll_resultList r ▸ mem_referencesOfAll.mpr ⟨v, stops.among v hv, hid⟩

theorem onward (h : Giving f t ids w r before us stop w') : w.Onward w'.landed := by
  cases h with
  | intro drops hm alike _ pushed stops => exact (drops.trims.onward.trans (level hm alike pushed stops).onward).land

theorem inReach (h : Giving f t ids w r before us stop w') {id : Nat} (reach : w.InReach id) : w'.landed.InReach id := by
  cases h with
  | intro drops hm alike _ pushed stops =>
    have reach' : (w.flying r.references).InReach id := reach
    exact (level hm alike pushed stops).inReach (drops.trims.inReach reach')

end Giving

section Running

variable (env) (f) (hm : w.machines.get t.machine = .open vm)
  (hg : ∀ id, (w.runtimes.get (w.registries.get id).runtime).generation = vm.generation) (args : ∀ id ∈ ids, w.InReach id)

include hm hg args

theorem giveResults_runs (r : Value) : ∃ before us stop w', Giving f t ids w r before us stop w' ∧
    giveResults f t ids r env w = .ok stop w'.landed := by
  have args' : ∀ id ∈ ids, (w.flying r.references).InReach id := args
  obtain ⟨w₁, dropped, drops⟩ := dropAll_drops env fun id hid => .inr (args' id (List.mem_reverse.mp hid))
  obtain ⟨vm₁, hm₁, still⟩ := drops.trims.opened _ vm hm
  have runtimes (id : Nat) : (w₁.runtimes.get (w₁.registries.get id).runtime).generation = vm₁.generation := by
    rw [drops.trims.onward.runtimes, drops.trims.onward.registries, still.generation]
    exact hg id
  obtain ⟨vm₂, before, us, stop, w₂, alike, stack, pushed, stops, given⟩ := giveResults_pushed f dropped hm₁ runtimes
  exact ⟨before, us, stop, w₂, .intro drops hm₁ alike stack pushed stops, given⟩

/-- A call finishes, with an error at most if the reporter raises. -/
theorem finish_runs {outcome : Except Failure Value}
    (results : ∀ r, outcome = .ok r → ∀ id ∈ r.references, w.holds id = true ∨ w.InReach id) :
    ∃ w', Finish f t ids w outcome (finish f t ids outcome env w) w' := by
  cases outcome with
  | error e =>
    have args' : ∀ id ∈ ids, (w.told f e).InReach id := args
    obtain ⟨w', dropped, drops⟩ := dropAll_drops env fun id hid => .inr (args' id (List.mem_reverse.mp hid))
    have run : finish f t ids (.error e) env w = f.ending w e 0 w' := Foreign.ending_bind (giveUp_told dropped)
    exact ⟨w', run ▸ .raised drops⟩
  | ok r =>
    obtain ⟨before, us, stop, w₁, giving, given⟩ := giveResults_runs env f hm hg args r
    have reach (last : Option Nat) : ∀ id ∈ releaseOrder (resultList r) last, w₁.landed.holds id = true ∨ w₁.landed.InReach id :=
      fun id hid => (results r rfl id (referencesOfAll_resultList r ▸ mem_releaseOrder.mp hid)).imp giving.onward.holds giving.inReach
    cases stop with
    | some stop =>
      obtain ⟨k, e⟩ := stop
      have reach' : ∀ id ∈ releaseOrder (resultList r) (some k), (w₁.landed.told f e).holds id = true ∨
          (w₁.landed.told f e).InReach id := reach (some k)
      obtain ⟨w', dropped, drops⟩ := dropAll_drops env reach'
      have run : finish f t ids (.ok r) env w = f.ending w₁.landed e 0 w' :=
        (bind_ok given).trans (Foreign.ending_bind (giveUp_told dropped))
      exact ⟨w', run ▸ .stopped giving drops⟩
    | none =>
      obtain ⟨w', dropped, drops⟩ := dropAll_drops env (reach (if (resultList r).isEmpty then none else some ((resultList r).length - 1)))
      have run : finish f t ids (.ok r) env w = .ok (resultList r).length w' := (bind_ok given).trans (bind_ok dropped)
      exact ⟨w', run ▸ .given giving drops⟩

end Running

theorem Finish.ends {outcome : Except Failure Value} {result : EStateM.Result Stop World Int} (h : Finish f t ids w outcome result w') :
    Ends result w' := by
  cases h with
  | given => exact .inl ⟨_, rfl⟩
  | raised | stopped => exact Foreign.ends_ending

theorem Finish.onward {outcome : Except Failure Value} {result : EStateM.Result Stop World Int} (h : Finish f t ids w outcome result w') :
    w.Onward w' := by
  cases h with
  | @raised e _ drops => exact (w.keeping_told f e).onward.trans drops.trims.onward
  | given h drops => exact h.onward.trans drops.trims.onward
  | @stopped _ _ _ _ e w₁ _ h drops => exact h.onward.trans ((w₁.landed.keeping_told f e).onward.trans drops.trims.onward)

end LuaHost.Host
