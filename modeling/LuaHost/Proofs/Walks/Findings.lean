import LuaHost.Proofs.Walks.Assignments
import LuaHost.Proofs.Walks.Lookups

set_option autoImplicit false

/-!
# What selectors find

Getting gives what the value that the keys lead to is for the host, asking tells whether it is not nil, and pinning makes
a reference that denotes it. An error of a lookup is reported, once, and nothing is found.
-/

namespace LuaHost.Host

open Lua (M Vm Generation)

variable {g : Generation} {env : Env} {w w' : World} {vm vm' : Vm} {m registry : Nat} {base : Array Lua.Value} {α β : Type}

/-! ## Guards -/

/-- How a guarded operation ends, by how what it guards ends: the stack is set back, unless all ends. -/
inductive Settles (m : Nat) : EStateM.Result Stop World α → EStateM.Result Stop World α → Prop where
  | back {a : α} {w w' : World} (stirs : w.Stirs m w') : Settles m (.ok a w) (.ok a w')
  | raised {e : Failure} {w w' : World} (stirs : w.Stirs m w') : Settles m (.error (.failure e) w) (.error (.failure e) w')
  | thrown (x : Lua.Signal) (w : World) : Settles m (.error (.signal x) w) (.error (.signal x) w)

theorem World.Stirs.unbreached (h : w.Stirs m w') (opened : w.Open m) (fine : w'.Unbreached m) : w.Unbreached m := by
  obtain ⟨vm, hm⟩ := opened
  obtain ⟨vm', rfl, akin, -⟩ := h vm hm
  exact (Move.akin hm akin).unbreached fine

theorem Settles.unbreached {r r' : EStateM.Result Stop World α} (h : Settles m r r') (opened : (final r).Open m)
    (fine : (final r').Unbreached m) : (final r).Unbreached m := by
  cases h with
  | back stirs => exact stirs.unbreached opened fine
  | raised stirs => exact stirs.unbreached opened fine
  | thrown => exact fine

section Guarded

variable {runtime : Nat} {act : H α} {R : EStateM.Result Stop World α → Prop} (hm : w.machines.get m = .open vm)
  (small : vm.stack.size < 0x80000000) (he : env.Follows) (sound : w.Sound) (leads : Leads env w act)

include hm small he sound leads

theorem guarded_settled (runtime : Nat) : Settles m (act env w) (guarded runtime (some (.main m)) act env w) := by
  have opened := (leads.after he sound w .refl).continues.opened m ⟨vm, hm⟩
  cases run : act env w with
  | ok a w₁ =>
    rw [run] at opened
    obtain ⟨w', guards, stirs⟩ := guarded_settles runtime hm small run opened
    rw [guards]
    exact .back stirs
  | error x w₁ =>
    rw [run] at opened
    cases x with
    | failure e =>
      obtain ⟨w', guards, stirs⟩ := guarded_raises runtime hm small run opened
      rw [guards]
      exact .raised stirs
    | signal x =>
      rw [guarded_throws hm run]
      exact .thrown x w₁

theorem guarded_turns (h : Turns g env m w act R) :
    Turns g env m w (guarded runtime (some (.main m)) act) fun r => ∃ r₀, R r₀ ∧ Settles m r₀ r := by
  intro hr fine
  rw [guarded_journal hm small he sound leads] at hr
  have settled := guarded_settled hm small he sound leads runtime
  have opened := (leads.after he sound w .refl).continues.opened m ⟨vm, hm⟩
  exact ⟨act env w, h hr (settled.unbreached opened fine), settled⟩

end Guarded

/-! ## What is found -/

/-- A value has been pinned for a new reference, which denotes it; or no slot was left. -/
inductive Pinned (g : Generation) (m : Nat) (v : Lua.Value) (w : World) : EStateM.Result Stop World Value → Prop where
  | done {w' : World} (moves : Moves w w') (references : w'.references.size = w.references.size + 1)
    (denotes : Denotes g m w' w' (.reference w.references.size) v) : Pinned g m v w (.ok (.reference w.references.size) w')
  | full (w' : World) : Pinned g m v w (.error (.signal (.fault .registryFull)) w')

/-- What a value is for the host: a copy, or a reference. -/
def Converted (g : Generation) (m : Nat) (r : Binding.Runtime) (v : Lua.Value) (w : World) (result : EStateM.Result Stop World Value) : Prop :=
  match copied r v with
  | some a => result = .ok a w
  | none => Pinned g m v w result

namespace Selector

variable {s : Selector}

/-- How an operation ends that follows keys first, by what that comes to: with what is made of the value, with a report, or with
an exception. -/
inductive Answers (g : Generation) (env : Env) (m : Nat) (s : Selector) (nothing : α)
    (P : Lua.Value → World → EStateM.Result Stop World α → Prop) : Sought → World → EStateM.Result Stop World α → Prop where
  | found {v : Lua.Value} {w w' : World} {r : EStateM.Result Stop World α} (treads : w.Treads g m s.registry w') (h : P v w' r) :
    Answers g env m s nothing P (.found v) w r
  | told {status : Lua.Status} {v : Lua.Value} {w w' : World} (tells : s.Tells g env m status v w (.ok () w')) :
    Answers g env m s nothing P (.failed status v) w (.ok nothing w')
  | raised {status : Lua.Status} {v : Lua.Value} {e : Failure} {w w' : World} (tells : s.Tells g env m status v w (.error (.failure e) w')) :
    Answers g env m s nothing P (.failed status v) w (.error (.failure e) w')
  | refused (e : Failure) {w w' : World} (treads : w.Treads g m s.registry w') :
    Answers g env m s nothing P (.refused e) w (.error (.failure e) w')
  | lost (f : Lua.Fault) (w : World) : Answers g env m s nothing P (.lost f) w (.error (.signal (.fault f)) w)

/-- An operation follows the keys of the selector from the globals, each once, and ends by what that comes to. -/
def Resolves (g : Generation) (env : Env) (m : Nat) (s : Selector) (a : Nat) (nothing : α)
    (P : Lua.Value → World → EStateM.Result Stop World α → Prop) (w : World) (r : EStateM.Result Stop World α) : Prop :=
  ∃ w₁ sought w₂ r₀, w.Treads g m s.registry w₁ ∧ w₁.Seeks g env m s.registry (.table a) s.chain sought w₂ ∧
    s.Answers g env m nothing P sought w₂ r₀ ∧ Settles m r₀ r

variable (he : env.Follows)

include he

/-- What an operation does with what is found. -/
theorem guard_turns (whole : s.Whole w) (h : s.Poised g m w vm) {a : Nat} (globals : vm.globalTable = .table a)
    (small : vm.stack.size < 0x80000000) {nothing : α} (next : Int → H α) {P : Lua.Value → World → EStateM.Result Stop World α → Prop}
    (leads : ∀ tag w', Moves w w' → Leads env w' (next tag))
    (last : ∀ v w' vm' (base : Array Lua.Value), Moves w w' → s.Poised g m w' vm' → vm'.stack = base.push v →
      Turns g env m w' (next v.tag.code) (P v w')) :
    Turns g env m w (s.guard (s.push s.chain >>= fun found => match found with
      | none => Pure.pure nothing
      | some tag => next tag)) (s.Resolves g env m a nothing P w) := by
  have sound : w.Sound := h.ready.lawful.toSound
  have on (found : Option Int) (w' : World) (moves : Moves w w') : Leads env w' (match found with
      | none => Pure.pure nothing
      | some tag => next tag) := by
    cases found with
    | none => exact .pure _
    | some tag => exact leads tag w' moves
  have body : Turns g env m w (s.push s.chain >>= fun found => match found with
      | none => Pure.pure nothing
      | some tag => next tag) fun r => ∃ w₁ sought w₂, w.Treads g m s.registry w₁ ∧ w₁.Seeks g env m s.registry (.table a) s.chain sought w₂ ∧
        s.Answers g env m nothing P sought w₂ r := by
    refine .bind he sound (.selectorPush h.goes _) (push_turns he whole h globals s.chain) on ?_ ?_
    · rintro x w' ⟨w₁, treads, sought, w₂, seeks, ends⟩
      refine ⟨w₁, sought, w₂, treads, seeks, ?_⟩
      cases ends with
      | raised tells => exact .raised tells
      | refused e treads => exact .refused e treads
      | lost f => exact .lost f w'
    · rintro found w' moves hr fine ⟨w₁, treads, sought, w₂, seeks, ends⟩
      cases ends with
      | told tells => exact .of_ended ⟨w₁, _, w₂, treads, seeks, .told tells⟩
      | @found v _ _ between comes =>
        obtain ⟨vm', hm', stack⟩ := comes.stack
        exact (last v w' vm' _ moves (h.moved moves hr hm' (fine vm' hm')) stack).imp fun r held => ⟨w₁, _, w₂, treads, seeks, .found comes.toTreads held⟩
  unfold guard
  rw [h.handle]
  refine (guarded_turns h.opened small he sound ?_ body).imp ?_
  · exact .bind (.selectorPush h.goes _) fun found => on found w .refl
  · rintro r ⟨r₀, ⟨w₁, sought, w₂, treads, seeks, answers⟩, settles⟩
    exact ⟨w₁, sought, w₂, r₀, treads, seeks, answers, settles⟩

end Selector

/-! ## Pinning -/

/-- A new reference denotes the value that was pinned for it. -/
theorem pinned_denotes {v : Lua.Value} {slot : Int} (home : w.machineOf registry = some m) (pins : vm.Pins v slot vm')
    (hr : Reliable g (w.referenced m vm' registry v slot).journal) :
    Denotes g m (w.referenced m vm' registry v slot) (w.referenced m vm' registry v slot) (.reference w.references.size) v := by
  let w' := w.referenced m vm' registry v slot
  have reference : w'.references.get w.references.size = ⟨registry, slot⟩ := Pool.get_add_self _ _
  have there : w'.machineOf (w'.references.get w.references.size).registry = some m := by
    rw [reference]
    exact home
  cases nil : v.isNil with
  | true =>
    obtain rfl := Lua.Value.eq_nil_of_isNil nil
    refine .released there ?_
    rw [reference, pins.nil rfl]
    rfl
  | false =>
    have proper : ProperSlot g slot := (hr.1 nil).1
    refine .pinned there (reference ▸ holds_of_proper proper) ?_
    rw [reference]
    exact allocated_pinned nil

namespace Selector.Poised

variable {s : Selector} (h : s.Poised g m w vm)

include h

theorem pinned_referenced {vm₁ vm' : Vm} {v : Lua.Value} {slot : Int} (akin : vm.Akin vm₁) (pins : vm₁.Pins v slot vm')
    (hr : Reliable g (w.referenced m vm' s.registry v slot).journal) :
    Pinned g m v w (.ok (.reference w.references.size) (w.referenced m vm' s.registry v slot)) := by
  have first : Move w (w.put m vm₁) := .akin h.opened akin
  have second : Move (w.put m vm₁) ((w.put m vm₁).referenced m vm' s.registry v slot) :=
    .referenced (World.get_put _ _ _) (first.moves.continues.pairs h.pairs) pins
  have same : (w.put m vm₁).referenced m vm' s.registry v slot = w.referenced m vm' s.registry v slot := by
    simp only [World.referenced, World.put, Pool.put_put]
  exact .done (first.moves.trans (same ▸ second.moves)) (Pool.size_add _ _) (pinned_denotes h.home pins hr)

/-- The value on top is copied to the host, or pinned for a new reference; or no slot is left for it. -/
theorem toHost_cases (env : Env) {v : Lua.Value} (hs : vm.stack = base.push v) :
    (∃ a, copied (w.runtimes.get s.runtime) v = some a ∧ toHost s.runtime s.handle (-1) (some s.registry) env w = .ok a w) ∨
      copied (w.runtimes.get s.runtime) v = none ∧ ((∃ slot vm', (vm.pushed 0 v).Pins v slot vm' ∧
          toHost s.runtime s.handle (-1) (some s.registry) env w = .ok (.reference w.references.size) (w.referenced m vm' s.registry v slot)) ∨
        ∃ w', toHost s.runtime s.handle (-1) (some s.registry) env w = .error (.signal (.fault .registryFull)) w') := by
  have found : Lua.Stack.value? 0 (int32 (-1)) (taken w m vm) = .ok (some v) (taken w m vm) :=
    Lua.Stack.value?_below (s := taken w m vm) (hs.trans Array.push_eq_append) (by decide : 0 < 9999)
  have generation : (w.runtimes.get s.runtime).generation = vm.generation := h.generation.trans h.vm_generation.symm
  rw [h.handle]
  cases copy : copied (w.runtimes.get s.runtime) v with
  | some a => exact .inl ⟨a, rfl, toHost_copied (t := .main m) h.opened generation found (some s.registry) copy⟩
  | none =>
    refine .inr ⟨rfl, ?_⟩
    obtain ⟨slot, vm', pins, -, run⟩ | full := toHost_pinned (t := .main m) env h.opened found s.registry copy
    · exact .inl ⟨slot, vm', pins, run⟩
    · exact .inr full

theorem toHost_turns (env : Env) {v : Lua.Value} (hs : vm.stack = base.push v) :
    Turns g env m w (toHost s.runtime s.handle (-1) (some s.registry)) (Converted g m (w.runtimes.get s.runtime) v w) := by
  intro hr _
  unfold Converted
  obtain ⟨a, copy, run⟩ | ⟨copy, ⟨slot, vm', pins, run⟩ | ⟨w', full⟩⟩ := h.toHost_cases env hs
  · rw [copy]
    exact run
  · rw [run] at hr
    rw [copy, run]
    exact h.pinned_referenced ((Lua.Vm.Akin.refl vm).course _ _ _) pins hr
  · rw [copy, full]
    exact .full w'

theorem pin_turns (env : Env) {v : Lua.Value} (hs : vm.stack = base.push v) :
    Turns g env m w (do return .reference (← Registry.pinTop s.registry none)) (Pinned g m v w) := by
  obtain rfl : vm.top 0 = v := by
    change vm.stack.back?.getD .nil = v
    rw [hs, Array.back?_push, Option.getD_some]
  have own : Registry.pinTop s.registry none env w = Registry.pinTop s.registry (some (.main m)) env w := by
    have handle : (w.registries.get s.registry).handle = some (.main m) := congrArg (Option.map Handle.main) h.home
    change (runWith _ (none <|> (w.registries.get s.registry).handle) _ >>= _ : H Nat) env w = _
    rw [handle]
    rfl
  intro hr _
  obtain ⟨slot, vm', pins, -, run⟩ | ⟨w', full⟩ := pinTop_open (t := .main m) env s.registry h.opened
  · rw [bind_ok (own.trans run)] at hr ⊢
    exact h.pinned_referenced (.refl vm) pins hr
  · rw [bind_error (own.trans full)]
    exact .full w'

end Selector.Poised

namespace Selector

variable {s : Selector}

/-! ## Getting, asking and pinning -/

section Operations

variable (he : env.Follows) (whole : s.Whole w) (h : s.Poised g m w vm) {a : Nat} (globals : vm.globalTable = .table a)
  (small : vm.stack.size < 0x80000000)

include he whole h globals small

theorem get_turns : Turns g env m w s.get (s.Resolves g env m a .none (Converted g m (w.runtimes.get s.runtime)) w) := by
  unfold get
  rw [h.machine]
  refine guard_turns he whole h globals small (fun _ => toHost s.runtime s.handle (-1) (some s.registry)) (fun _ w' moves => ?_)
    fun v w' vm' base moves poised stack => ?_
  · exact .toHost _ _ _ _ (Leads.selector_pairs fun n hn => moves.continues.pairs (h.goes n hn))
  · rw [← moves.continues.runtimes]
    exact poised.toHost_turns env stack

theorem exists_turns : Turns g env m w s.exists_ (s.Resolves g env m a false (fun v w r => r = .ok (!v.isNil) w) w) := by
  unfold exists_
  rw [h.machine]
  refine guard_turns he whole h globals small (fun tag => Pure.pure (tag != 0)) (fun _ _ _ => .pure _)
    fun v w' vm' base _ _ _ => .of_ended ?_
  cases v <;> rfl

theorem ref_turns : Turns g env m w s.ref (s.Resolves g env m a .none (Pinned g m) w) := by
  unfold ref
  rw [h.machine]
  refine guard_turns he whole h globals small (fun _ => do return Value.reference (← Registry.pinTop s.registry none))
    (fun _ _ _ => .bind (.pinTop _ _ nofun) fun _ => .pure _) fun v w' vm' base _ poised stack => poised.pin_turns env stack

end Operations

/-- Where a selector of a reachable world can take steps. -/
theorem poised_of_stages (h₀ : Stages g (Session.start g) w) (hr : Reliable g w.journal) (machine : s.machine = some m)
    (goes : s.Goes w) (home : w.machineOf s.registry = some m) (runtime : s.runtime < 2) (hm : w.machines.get m = .open vm)
    (fine : vm.breached = false) : s.Poised g m w vm := by
  have lawful : w.Lawful g := Stages.lawful h₀ (Session.start_lawful g)
  exact ⟨⟨lawful, (Stages.carries h₀ (Session.start_lawful g) (start_assigned g) hr).assigned, hr⟩, machine, home, goes,
    lawful.generation _ runtime, hm, fine⟩

/-- Getting, asking and pinning follow the keys of a selector from the globals: each key is looked up once, in order, as the language
looks it up, with the functions of metatables; nothing is looked up in a value that is no table. What is found is converted, is asked
whether it is not nil, or is pinned for a new reference that denotes it. An error of a lookup is reported, once, and nothing is found;
a key that cannot be pushed raises when it is reached, and no later key is looked up.

This is said of operations at whose end no program has written numbered entries of the registry, while pinning gives free slots. -/
theorem keys_followed {a : Nat} (he : env.Follows) (h₀ : Stages g (Session.start g) w) (machine : s.machine = some m) (goes : s.Goes w)
    (home : w.machineOf s.registry = some m) (runtime : s.runtime < 2) (unbroken : w.Unbroken) (hm : w.machines.get m = .open vm)
    (globals : vm.globalTable = .table a) (small : vm.stack.size < 0x80000000) :
    Turns g env m w s.get (s.Resolves g env m a .none (Converted g m (w.runtimes.get s.runtime)) w) ∧
      Turns g env m w s.exists_ (s.Resolves g env m a false (fun v w r => r = .ok (!v.isNil) w) w) ∧
      Turns g env m w s.ref (s.Resolves g env m a .none (Pinned g m) w) := by
  have lawful : w.Lawful g := Stages.lawful h₀ (Session.start_lawful g)
  have whole : s.Whole w := unbroken _ (lawful.registryRuntime s.registry)
  have poised {β : Type} {act : H β} (leads : Leads env w act) (hr : Reliable g (final (act env w)).journal)
      (fine : (final (act env w)).Unbreached m) : s.Poised g m w vm := by
    have moves := leads.after he lawful.toSound w .refl
    obtain ⟨es, journal, -⟩ := moves.continues.journal
    exact poised_of_stages h₀ (.of_append (journal ▸ hr)) machine goes home runtime hm (Moves.unbreached moves fine vm hm)
  refine ⟨fun hr fine => ?_, fun hr fine => ?_, fun hr fine => ?_⟩
  · exact get_turns he whole (poised (.selectorGet goes) hr fine) globals small hr fine
  · exact exists_turns he whole (poised (.exists_ goes) hr fine) globals small hr fine
  · exact ref_turns he whole (poised (.ref goes) hr fine) globals small hr fine

/-- A session with a table whose missing entries a function answers. -/
def answering : List Session.Step :=
  [⟨"s", none, .new (some true) none .create true⟩,
    ⟨"s", none, .execute (.text "t = setmetatable({}, {__index = function(_, k) return k .. k end})")⟩]

def answeringWorld : World := Session.runAll (Session.start .v54) answering

/-- The place under a text in the table. -/
def answeringPlace : Selector := (answeringWorld.states.get 0).select (.text "t") [.text "x"]

/-- Whether an outcome is this text. -/
def speaks (t : Text) : EStateM.Result Stop World Value → Bool
  | .ok (.text t') _ => t == t'
  | _ => false

theorem ok_of_speaks {t : Text} {r : EStateM.Result Stop World Value} (h : speaks t r = true) : r = .ok (.text t) (final r) := by
  unfold speaks at h
  split at h
  · rw [beq_iff_eq.mp h, final]
  · cases h

/-- The function of a metatable answers. -/
theorem keys_followed_answered : ∃ w' vm a, answeringWorld.machines.get 0 = .open vm ∧ vm.globalTable = .table a ∧
    answeringPlace.get Env.full answeringWorld = .ok (.text "xx") w' ∧
    answeringPlace.Resolves .v54 Env.full 0 a .none (Converted .v54 0 (answeringWorld.runtimes.get answeringPlace.runtime)) answeringWorld
      (.ok (.text "xx") w') := by
  have plain : ∀ s ∈ answering, s.command.Plain := by
    intro s hs
    simp only [answering, List.mem_cons, List.not_mem_nil, or_false] at hs
    obtain rfl | rfl := hs <;> trivial
  have reached : Session.Reached .v54 answeringWorld := Session.Runs.refl.runAll plain (by decide +kernel)
  obtain ⟨shown, machine, home, runtime, unbroken⟩ : answeringWorld.shows 0 (fun vm => decide (vm.stack.size < 0x80000000 ∧ vm.globalTable.tag.code = 5)) = true ∧
      answeringPlace.machine = some 0 ∧ answeringWorld.machineOf answeringPlace.registry = some 0 ∧ answeringPlace.runtime < 2 ∧
      answeringWorld.Unbroken := by decide +kernel
  obtain ⟨vm, hm, fit⟩ := World.open_of_shows shown
  obtain ⟨small, table⟩ := of_decide_eq_true fit
  obtain ⟨a, globals⟩ := Lua.Value.table_of_code table
  have goes : answeringPlace.Goes answeringWorld :=
    State.Goes.select ((Session.reached_lawful reached).toSound.goes 0) (.text "t") [.text "x"]
  have ends : speaks "xx" (answeringPlace.get Env.full answeringWorld) = true ∧
      Reliable .v54 (final (answeringPlace.get Env.full answeringWorld)).journal ∧
      (final (answeringPlace.get Env.full answeringWorld)).shows 0 (fun vm => !vm.breached) = true := by decide +kernel
  obtain ⟨w', run, reliable, left⟩ : ∃ w', answeringPlace.get Env.full answeringWorld = .ok (.text "xx") w' ∧ Reliable .v54 w'.journal ∧
      w'.shows 0 (fun vm => !vm.breached) = true := ⟨_, ok_of_speaks ends.1, ends.2⟩
  have fine : w'.Unbreached 0 := by
    obtain ⟨vm', hm', fine⟩ := World.open_of_shows left
    intro vm hm
    cases hm.symm.trans hm'
    exact Bool.not_eq_true' _ |>.mp fine
  have followed := (keys_followed Env.full_follows (Session.reached_stages reached) machine goes home runtime unbroken hm globals small).1
  rw [Turns, run] at followed
  exact ⟨w', vm, a, hm, globals, run, followed reliable fine⟩

/-- The session of a slot and a global, after the global has been looked for and a program has put another function into the slot of
the chunk that looks up. -/
def replacedWorld : World :=
  let w := Session.runAll (Session.start .v54) showing
  Session.runAll (final ((globalY w).get Env.full w)) [⟨"s", none, .execute (.text "r[4] = function() return 42 end")⟩]

/-- Whether an outcome is this number. -/
def counts (n : Int) : EStateM.Result Stop World Value → Bool
  | .ok (.int n') _ => n == n'
  | _ => false

theorem ok_of_counts {n : Int} {r : EStateM.Result Stop World Value} (h : counts n r = true) : r = .ok (.int n) (final r) := by
  unfold counts at h
  split at h
  · rw [beq_iff_eq.mp h, final]
  · cases h

/-- What a program has put into the slot answers, where the globals have nothing. -/
theorem get_answers_slot : ∃ vm w, replacedWorld.machines.get 0 = .open vm ∧ vm.Plain ∧
    vm.child vm.globalTable (.str (Lua.bytesOf "y")) = .nil ∧
    (globalY replacedWorld).get Env.full replacedWorld = .ok (.int 42) w := by
  obtain ⟨vm, hm, fit⟩ := World.open_of_shows (by decide +kernel : replacedWorld.shows 0 (fun vm =>
    decide vm.Plain && (vm.child vm.globalTable (.str (Lua.bytesOf "y"))).isNil) = true)
  obtain ⟨bare, absent⟩ := Bool.and_eq_true_iff.mp fit
  exact ⟨vm, _, hm, of_decide_eq_true bare, Lua.Value.eq_nil_of_isNil absent, ok_of_counts (by decide +kernel)⟩

end Selector

end LuaHost.Host
