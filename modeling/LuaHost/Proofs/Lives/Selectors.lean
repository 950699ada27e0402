import LuaHost.Proofs.Entries.Calls
import LuaHost.Proofs.Lives.Trampolines

set_option autoImplicit false

/-!
# Selectors of states that have closed

A selector keeps the machine that its state had when it was made. One that a closed state makes has none,
and no operation on it does anything. One that was made before still has the machine, though its registry
has let it go: if the machine is open because the state only borrowed it, every operation comes to a call
without a machine.
-/

namespace LuaHost.Host

open Lua (M Vm Gives Generation)
open Binding (Call Program Runtime)

variable {g : Generation} {env : Env} {w w' : World} {vm : Vm} {m : Nat} {α β : Type}

/-- What can be done with a selector. -/
inductive Use where
  | get
  | exists_
  | ref
  | set (v : Value)
  | call (args : List Value)

namespace Use

def run (s : Selector) : Use → H Value
  | get => s.get
  | exists_ => do return .bool (← s.exists_)
  | ref => s.ref
  | set v => do return .bool (← s.set v)
  | call args => s.call args

/-- What an operation answers where there is nothing to work on. -/
def nothing : Use → Value
  | exists_ | set _ => .bool false
  | get | ref | call _ => .none

end Use

/-! ## Selectors without a machine -/

/-- Without a machine, an operation changes nothing and reports nothing. -/
theorem Use.run_inert {s : Selector} (hs : s.machine = none) (u : Use) (env : Env) (w : World) :
    u.run s env w = .ok u.nothing w := by
  have none : s.machine.isNone = true := hs ▸ rfl
  cases u with
  | get =>
    change (if s.machine.isNone then Pure.pure .none else _ : H Value) env w = _
    rw [if_pos none]
    rfl
  | exists_ =>
    have run : s.exists_ env w = .ok false w := by
      change (if s.machine.isNone then Pure.pure false else _ : H Bool) env w = _
      rw [if_pos none]
      rfl
    exact bind_ok run
  | ref =>
    change (if s.machine.isNone then Pure.pure .none else _ : H Value) env w = _
    rw [if_pos none]
    rfl
  | set v =>
    have run : s.set v env w = .ok false w := by
      change (if s.machine.isNone then Pure.pure false else _ : H Bool) env w = _
      rw [if_pos none]
      rfl
    exact bind_ok run
  | call args =>
    change (if s.machine.isNone then Pure.pure .none else _ : H Value) env w = _
    rw [if_pos none]
    rfl

/-! ## Selectors whose registry has no machine -/

/-- An operation that comes to a call without a machine, and has changed nothing but machine `m` until then. -/
def Strands (env : Env) (m : Nat) (w : World) (act : H α) : Prop :=
  ∃ vm, act env w = .error (.signal (.fault .nullHandle)) (w.put m vm)

namespace Strands

theorem bind {act : H α} {next : α → H β} (h : Strands env m w act) : Strands env m w (act >>= next) := by
  obtain ⟨vm, run⟩ := h
  exact ⟨vm, bind_error run⟩

/-- Whatever has changed the machine before. -/
theorem after {act : H α} {next : α → H β} {a : α} (run : act env w = .ok a (w.put m vm))
    (h : Strands env m (w.put m vm) (next a)) : Strands env m w (act >>= next) := by
  obtain ⟨vm', stranded⟩ := h
  exact ⟨vm', (bind_ok run).trans (stranded.trans (congrArg _ (World.put_put w m vm vm')))⟩

theorem runtime {n : Nat} {next : Runtime → H α} (h : Strands env m w (next (w.runtimes.get n))) :
    Strands env m w (H.runtime n >>= next) := h

/-- A guard does nothing more. -/
theorem guarded {act : H α} {runtime : Nat} (hm : w.machines.get m = .open vm) (h : Strands env m w act) :
    Strands env m w (guarded runtime (some (.main m)) act) := by
  obtain ⟨vm', run⟩ := h
  refine ⟨vm', (bind_ok (runWith_getTop (t := .main m) env runtime hm)).trans ?_⟩
  unfold H.finally_
  rw [run]

end Strands

/-- The texts of the accessors have bytes. -/
theorem accessor_bytes {source : Text} (h : source = Selector.indexChunk ∨ source = Selector.assignChunk) :
    ∃ bytes, encode source = .ok bytes := by
  obtain rfl | rfl := h
  · exact ⟨_, rfl⟩
  · exact ⟨_, rfl⟩

/-- No runtime has been made to refuse chunks. -/
def World.Unbroken (w : World) : Prop := ∀ n, n < 2 → (w.runtimes.get n).brokenChunks = none

instance (w : World) : Decidable w.Unbroken := inferInstanceAs (Decidable (∀ n, n < 2 → _))

/-- A registry without a machine does not come to push an accessor. -/
theorem pushChunk_strands {id : Nat} {source : Text} (hm : w.machines.get m = .open vm) (gone : w.machineOf id = none)
    (intact : (w.runtimes.get (w.registries.get id).runtime).brokenChunks = none)
    (h : source = Selector.indexChunk ∨ source = Selector.assignChunk) : Strands env m w (Registry.pushChunk id source) := by
  refine ⟨vm, ?_⟩
  rw [World.put_self hm]
  let r := w.registries.get id
  have handle : r.handle = none := congrArg (Option.map Handle.main) gone
  rw [Leads.pushChunk_eq env w id source (r := r) rfl]
  generalize Option.map _ _ = cached
  cases cached with
  | some slot =>
    refine bind_error ?_
    have none : runWith r.runtime r.handle (fun rt => Binding.Api.pushRef rt slot) env w =
        .error (.signal (.fault .nullHandle)) w := by
      rw [handle]
      let rt := w.runtimes.get r.runtime
      change (execute rt none (.rawGetI rt.registryIndex slot) >>= fun v =>
        runProgram rt none (.ask (.type (-1)) .done) : H Value) env w = _
      exact bind_error (execute_none (c := .rawGetI _ _) _ (by simp))
    simp only [Functor.discard, Functor.mapConst, EStateM.map, Function.comp_apply]
    exact none ▸ rfl
  | none =>
    refine bind_error ?_
    obtain ⟨bytes, encoded⟩ := accessor_bytes h
    change runProgram (w.runtimes.get r.runtime) r.handle
      (Binding.Api.loadString (w.runtimes.get r.runtime) (.text source)) env w = _
    rw [handle]
    unfold Binding.Api.loadString
    rw [intact]
    simp only [sourceBytes, encoded]
    exact bind_error (execute_none (c := .loadString _) _ (by simp))

namespace Selector

variable {s : Selector} (machine : s.machine = some m) (gone : w.machineOf s.registry = none)
  (intact : (w.runtimes.get (w.registries.get s.registry).runtime).brokenChunks = none)

section Accessors

include machine gone intact

/-- What every operation does first with the table on top of the stack. -/
theorem accessor_strands {n : Int} {source : Text} {next : Bool → H α} (hm : w.machines.get m = .open vm)
    (h : source = indexChunk ∨ source = assignChunk) : Strands env m w (do
      discard <| runWith s.runtime s.handle fun _ => Binding.Api.checkStack n
      let ready ← Registry.pushChunk s.registry source
      next ready) := by
  have handle : s.handle = some (.main m) := congrArg (Option.map Handle.main) machine
  rw [handle]
  obtain ⟨_, vm', roomy, -⟩ := runWith_checkStack (t := .main m) env s.runtime n hm
  exact .after (discard_ok roomy) (.bind (pushChunk_strands (World.get_put w m vm') gone intact h))

theorem pushEntry_strands (key : Value) (hm : w.machines.get m = .open vm) : Strands env m w (s.pushEntry key) :=
  accessor_strands machine gone intact hm (.inl rfl)

end Accessors

variable (lawful : w.Lawful g) (bounded : s.runtime < 2)

include machine lawful bounded

/-- The table of the globals comes first. -/
theorem push_reaches (env : Env) (keys : List Value) (hm : w.machines.get m = .open vm) :
    ∃ vm', s.push keys env w = s.pushKeys 5 keys env (w.put m vm') := by
  have handle : s.handle = some (.main m) := congrArg (Option.map Handle.main) machine
  have same : (w.runtimes.get s.runtime).generation = vm.generation :=
    (lawful.generation _ bounded).trans (lawful.generations _ _ hm).symm
  obtain ⟨vm', run⟩ := runWith_pushGlobals env (t := .main m) s.runtime hm same
  refine ⟨vm', ?_⟩
  unfold push
  rw [handle]
  exact bind_ok run

include gone intact

theorem push_strands {key : Value} {keys : List Value} (hm : w.machines.get m = .open vm) :
    Strands env m w (s.push (key :: keys)) := by
  obtain ⟨vm', reaches⟩ := push_reaches machine lawful bounded env (key :: keys) hm
  have gone' : (w.put m vm').machineOf s.registry = none := gone
  have intact' : ((w.put m vm').runtimes.get ((w.put m vm').registries.get s.registry).runtime).brokenChunks = none := intact
  obtain ⟨vm'', run⟩ : Strands env m (w.put m vm') (s.pushKeys 5 (key :: keys)) :=
    .bind (pushEntry_strands machine gone' intact' key (World.get_put w m vm'))
  exact ⟨vm'', reaches.trans (run.trans (congrArg _ (World.put_put w m vm' vm'')))⟩

/-- An operation does not get further than to its first accessor. -/
theorem use_strands (hm : w.machines.get m = .open vm) (u : Use) : Strands env m w (u.run s) := by
  have some_ : ¬ s.machine.isNone = true := by
    rw [machine]
    exact Bool.false_ne_true
  have handle : s.handle = some (.main m) := congrArg (Option.map Handle.main) machine
  have guarded {α : Type} {act : H α} (h : Strands env m w act) : Strands env m w (s.guard act) := by
    unfold guard
    rw [handle]
    exact .guarded hm h
  have reach {α : Type} {next : Option Int → H α} : Strands env m w (s.guard (s.push s.chain >>= next)) :=
    guarded (.bind (push_strands machine gone intact lawful bounded hm))
  cases u with
  | get =>
    unfold Use.run get
    rw [if_neg some_]
    exact reach
  | exists_ =>
    unfold Use.run exists_
    rw [if_neg some_]
    exact .bind reach
  | ref =>
    unfold Use.run ref
    rw [if_neg some_]
    exact reach
  | set v =>
    change Strands env m w ((if s.machine.isNone then Pure.pure false
      else H.runtime s.runtime >>= fun rt => s.guard (s.push s.chain.dropLast >>= _) : H Bool) >>= _)
    rw [if_neg some_]
    refine .bind (.runtime (guarded ?_))
    cases parent : s.chain.dropLast with
    | cons key keys => exact .bind (push_strands machine gone intact lawful bounded hm)
    | nil =>
      obtain ⟨vm', reaches⟩ := push_reaches machine lawful bounded env [] hm
      have gone' : (w.put m vm').machineOf s.registry = none := gone
      have intact' : ((w.put m vm').runtimes.get ((w.put m vm').registries.get s.registry).runtime).brokenChunks = none := intact
      exact .after reaches (accessor_strands machine gone' intact' (World.get_put w m vm') (.inr rfl))
  | call args =>
    change Strands env m w (if s.machine.isNone then Pure.pure .none
      else H.runtime s.runtime >>= fun rt => s.guard (s.push s.chain >>= _) : H Value)
    rw [if_neg some_]
    exact .runtime reach

omit gone intact lawful bounded in
/-- On a closed machine an operation does not get further than to the first look at its stack. -/
theorem use_closed (closed : ¬ w.Open m) (u : Use) :
    u.run s env w = .error (.signal (.fault .closedHandle)) w := by
  have some_ : ¬ s.machine.isNone = true := by
    rw [machine]
    exact Bool.false_ne_true
  have handle : s.handle = some (.main m) := congrArg (Option.map Handle.main) machine
  have guarded {α : Type} (act : H α) : s.guard act env w = .error (.signal (.fault .closedHandle)) w := by
    have asked := runWith_call (w := w) env s.runtime (some (.main m)) (fun _ => .getTop) id
    rw [execute_closed (c := .getTop) _ nofun nofun rfl closed] at asked
    unfold guard
    rw [handle]
    exact bind_error asked
  cases u with
  | get =>
    unfold Use.run get
    rw [if_neg some_]
    exact guarded _
  | exists_ =>
    unfold Use.run exists_
    rw [if_neg some_]
    exact bind_error (guarded _)
  | ref =>
    unfold Use.run ref
    rw [if_neg some_]
    exact guarded _
  | set v =>
    change ((if s.machine.isNone then Pure.pure false
      else H.runtime s.runtime >>= fun rt => s.guard (s.push s.chain.dropLast >>= _) : H Bool) >>= _) env w = _
    rw [if_neg some_]
    exact bind_error (guarded _)
  | call args =>
    change (if s.machine.isNone then Pure.pure .none
      else H.runtime s.runtime >>= fun rt => s.guard (s.push s.chain >>= _) : H Value) env w = _
    rw [if_neg some_]
    exact guarded _

end Selector

/-! ## Registries that stay without a machine -/

theorem World.Loosens.refl (w : World) : w.Loosens w := ⟨Nat.le_refl _, fun _ _ => .inl rfl⟩

theorem World.Loosens.trans {a b c : World} (h : a.Loosens b) (k : b.Loosens c) : a.Loosens c where
  size := Nat.le_trans h.size k.size
  machineOf := by
    intro r hr
    cases k.machineOf r (Nat.lt_of_lt_of_le hr h.size) with
    | inl same => rw [same]; exact h.machineOf r hr
    | inr none => exact .inr none

theorem World.Loosens.of_registries (h : w'.registries = w.registries) : w.Loosens w' :=
  ⟨Nat.le_of_eq (by rw [h]), fun r _ => .inl (by rw [World.machineOf, World.machineOf, h])⟩

theorem World.Continues.loosens (h : w.Continues w') : w.Loosens w' :=
  ⟨Nat.le_of_eq h.registries.symm, fun r _ => .inl (h.machineOf r)⟩

theorem Dismissal.loosens {registry : Nat} (h : Dismissal w registry w') : w.Loosens w' := by
  cases h with
  | idle _ => exact w.loosens_dismiss
  | @freed w' m _ hf =>
    have freed : w.Loosens w' := by
      obtain ⟨machines, journal, rfl⟩ := hf.apart.rest
      exact .of_registries rfl
    exact freed.trans w'.loosens_dismiss

theorem Quiet.loosens (h : Quiet g w w') : w.Loosens w' := by
  cases h with
  | moves h => exact h.continues.loosens
  | around h => exact .of_registries h.registries
  | born h _ _ _ =>
    have bears : w.Loosens (w.bear g) := .of_registries rfl
    exact (bears.trans h.continues.loosens).trans (.add rfl)
  | attached _ _ _ _ => exact .add rfl
  | dismissed h => exact h.loosens
  | left _ => exact .of_registries rfl
  | handed h =>
    obtain ⟨reporter, registries⟩ := h.registries
    exact .add registries

/-- No stage gives a registry a machine. -/
theorem Stage.loosens (h : Stage g w w') : w.Loosens w' := by
  cases h with
  | quiet h => exact h.loosens
  | @ended w' _ m _ _ hm =>
    have notes : w.Loosens (w.noteEnd m) := .of_registries rfl
    exact (notes.trans hm.continues.loosens).trans (.of_registries rfl)

theorem Stages.loosens (h : Stages g w w') : w.Loosens w' := by
  induction h with
  | refl => exact .refl _
  | tail _ h ih => exact ih.trans h.loosens

/-! ## Selectors after a close -/

/-- The selectors that a closed state gives, and all that are chained from them, never do anything, and
report nothing. Of those that the state gave while it had a machine, none is inert: as long as the machine
is open, because the state only borrowed it, every operation ends at a call without a machine, before any
report; when the machine is closed, it ends at the first look at its stack. -/
theorem selectors_after_close {w₀ w₁ : World} {id : Nat} (reached : Session.Reached g w₀)
    (closes : State.close id Env.full w₀ = .ok () w₁) (later : Session.Runs w₁ w) (unbroken : w.Unbroken) (env : Env)
    (name : Value) (path keys : List Value) (u : Use) :
    u.run (((w₁.states.get id).select name path).extend keys) env w = .ok u.nothing w ∧
      ∀ m, (w₀.states.get id).machine = some m →
        (w.Open m → ∃ vm, u.run (((w₀.states.get id).select name path).extend keys) env w =
          .error (.signal (.fault .nullHandle)) (w.put m vm)) ∧
        (¬ w.Open m → u.run (((w₀.states.get id).select name path).extend keys) env w =
          .error (.signal (.fault .closedHandle)) w) := by
  have lawful₀ := Session.reached_lawful reached
  obtain ⟨w', done, closing⟩ | ⟨e, w', error⟩ := close_closing Env.full_follows lawful₀ id
  · cases done.symm.trans closes
    have lawful₁ : w₁.Lawful g := Stages.lawful (closing.stages lawful₀) lawful₀
    have stages : Stages g w₁ w := later.stages lawful₁
    refine ⟨Use.run_inert closing.gone u env w, fun m hm => ⟨?_, ?_⟩⟩
    · rintro ⟨vm, hv⟩
      have made : (w₀.states.get id).registry < w₁.registries.size :=
        Nat.lt_of_lt_of_le (lawful₀.states id m hm).1 (Stages.loosens (closing.stages lawful₀)).size
      have gone : w.machineOf (w₀.states.get id).registry = none := by
        cases (Stages.loosens stages).machineOf _ made with
        | inl same => exact same.trans (closing.registry_gone hm)
        | inr none => exact none
      have lawful : w.Lawful g := Stages.lawful stages lawful₁
      exact Selector.use_strands hm gone (unbroken _ (lawful.registryRuntime _)) lawful (lawful₀.stateRuntime id) hv u
    · exact fun closed => Selector.use_closed hm closed u
  · exact nomatch error.symm.trans closes

/-- A state that borrows the machine of another one. -/
def lent : List Session.Step :=
  [⟨"s", none, .new none none .create true⟩, ⟨"b", none, .new none none (.borrow (some "s")) true⟩]

def lentWorld : World := Session.runAll (Session.start .v54) lent

/-- Looking up a global with a selector of the state that has only borrowed the machine. -/
theorem selectors_after_close_lent : ∃ w₁, State.close 1 Env.full lentWorld = .ok () w₁ ∧ w₁.Open 0 ∧
    Use.get.run (((w₁.states.get 1).select (.text "x") []).extend []) Env.full w₁ = .ok .none w₁ ∧
    ∃ vm, Use.get.run (((lentWorld.states.get 1).select (.text "x") []).extend []) Env.full w₁ =
      .error (.signal (.fault .nullHandle)) (w₁.put 0 vm) := by
  have plain : ∀ s ∈ lent, s.command.Plain := by
    intro s hs
    simp only [lent, List.mem_cons, List.not_mem_nil, or_false] at hs
    obtain rfl | rfl := hs <;> trivial
  have reached : Session.Reached .v54 lentWorld := Session.Runs.refl.runAll plain (by decide +kernel)
  obtain ⟨⟨⟩, w₁, closes⟩ := Session.ok_of_succeeds
    (by decide +kernel : Session.succeeds (State.close 1 Env.full lentWorld) = true)
  have same : w₁ = final (State.close 1 Env.full lentWorld) := by
    rw [closes]
    rfl
  have opened : w₁.Open 0 := World.open_of_isOpen (same ▸ by decide +kernel)
  have unbroken : w₁.Unbroken := same ▸ by decide +kernel
  obtain ⟨inert, others⟩ := selectors_after_close reached closes .refl unbroken Env.full (.text "x") [] [] .get
  exact ⟨w₁, closes, opened, inert, (others 0 (by decide +kernel)).1 opened⟩

/-- A state that gives a selector, is moved from, and closes. -/
def closeMoved : List Session.Step :=
  [⟨"s", none, .new none none .create true⟩, ⟨"s", none, .execute (.text "x = 1")⟩, ⟨"s", none, .select (.path [.text "x"]) "p"⟩,
    ⟨"s", none, .move "t"⟩, ⟨"s", none, .close⟩]

/-- A selector of a closed state that is not inert: the machine has been moved to another state. -/
theorem selector_reads_moved :
    let w := Session.runAll (Session.start .v54) closeMoved
    (w.states.get 0).machine = none ∧
      answers (fun | .int n => n == 1 | _ => false) (Session.step w ⟨"s", none, .get (.kept "p" [])⟩).1 = true :=
  ⟨by decide +kernel, by decide +kernel⟩

end LuaHost.Host
