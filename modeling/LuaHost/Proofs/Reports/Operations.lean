import LuaHost.Proofs.Lives.Sessions
import LuaHost.Proofs.Reports.Course

set_option autoImplicit false

/-!
# Reports of the operations

Every operation that loads or calls reports its failure once, with the status and the words for what it
left, and ends at it: it gives false, or nothing. Each part of an operation either goes well or has
reported, and the rest of the operation neither drops nor repeats what a part has reported.
-/

namespace LuaHost.Host

open Lua (M Vm Generation)
open Binding (Program Runtime Api.intOf)

variable {env : Env} {α β : Type} {w w' : World} {ds es : List Deed}

/-- All went well and `fine`, or a failure has been reported and `failed`. -/
def Told (ds : List Deed) (fine failed : Prop) : Prop := Fine ds ∧ fine ∨ Blamed ds ∧ failed

theorem Told.after {p q : Prop} (h : Fine ds) (k : Told es p q) : Told (ds ++ es) p q :=
  k.imp (And.imp_left h.append) (And.imp_left h.blamed)

namespace Does

/-- What is known of the run itself. -/
theorem attend {act : H α} {q : α → List Deed → World → Prop} (h : Does env w act q) :
    Does env w act fun a ds w' => q a ds w' ∧ act env w = .ok a w' where
  course a w' run := by
    obtain ⟨ds, course, hq⟩ := h.course a w' run
    exact ⟨ds, course, hq, run⟩

/-- An operation that does nothing once its machine is gone. -/
theorem unlessClosed {machine : Option Nat} (live : machine.isSome) {x : α} {act : H α} {q : α → List Deed → World → Prop}
    (h : Does env w act q) : Does env w (if machine.isNone = true then Pure.pure x else act) q := by
  rwa [Option.isNone_eq_false_iff.mpr live, if_neg Bool.false_ne_true]

/-- A source is loaded and called; the call is not tried if the load fails. -/
theorem doString (n : Nat) (l : Option Handle) (source : Value) :
    Does env w (runWith n l fun r => Binding.Api.doString r source) fun status ds w' =>
      ∃ before phase t vm, l = some t ∧ w'.machines.get t.machine = .open vm ∧ Fine before ∧
        ds = before ++ [attemptOn phase w' n t vm (Api.intOf status)] ∧ (Api.intOf status ≠ 0 → (vm.top? t.thread).isSome) := by
  refine hushed_bind (.runtime n) fun r w₁ run => ?_
  cases run
  unfold Binding.Api.doString
  rw [runProgram_bind]
  refine bind (attempt (.source source) rfl).attend fun status ds w₂ done => ?_
  obtain ⟨⟨t, vm, ht, hm, rfl, leaves⟩, run⟩ := done
  split
  · refine pure ?_
    exact ⟨[], .load, t, vm, ht, hm, fine_nil, rfl, leaves⟩
  · next ok =>
    have zero : Api.intOf status = 0 := Decidable.byContradiction fun failed => ok (bne_iff_ne.mpr failed)
    have same := (loadString_unheard run).runtimes
    refine imp (attempt (n := n) (.call 0 Binding.allResults) (by rw [same])) fun status' es w' called => ?_
    obtain ⟨t', vm', ht', hm', rfl, leaves'⟩ := called
    rw [zero]
    exact ⟨_, .call, t', vm', ht', hm', fine_attempt, rfl, leaves'⟩

/-- A chunk that does not compile is reported. -/
theorem pushChunk (id : Nat) (source : Text) :
    Does env w (Registry.pushChunk id source) fun ok ds _ => Told ds (ok = true) (ok = false) := by
  unfold Registry.pushChunk
  refine hushed_bind (.registry id) fun r w₁ _ => hushed_bind (.runtime _) fun rt w₂ _ => ?_
  have pushed (n : Nat) (l : Option Handle) (slot : Int) :
      Hushed (Functor.discard (runWith n l fun rt => Binding.Api.pushRef rt slot)) :=
    .discard (.runWith n l fun rt => Mute.pushRef rt slot)
  dsimp only
  split
  · exact hushed_bind (pushed _ _ _) fun _ _ _ => pure (.inl ⟨fine_nil, rfl⟩)
  · refine bind (attemptWith (.source (.text source)) r.runtime r.handle) fun status ds w₃ done => ?_
    obtain ⟨t, vm, ht, hm, rfl, leaves⟩ := done
    rw [ht]
    refine unlessFailed hm leaves (q := fun ok ds _ => Told ds (ok = true) (ok = false)) (fun ds _ blamed => .inr ⟨blamed, rfl⟩) fun zero => ?_
    rw [zero]
    exact hushed_bind (.ref _ _) fun slot _ _ => hushed_bind (.modifyGet fun _ => ⟨⟨rfl, rfl, rfl⟩, rfl⟩) fun _ _ _ =>
      hushed_bind (pushed _ _ _) fun _ _ _ => pure (.inl ⟨fine_attempt, rfl⟩)

end Does

/-! ## The way of a selector -/

/-- The tag of the value on top of a selector's stack. -/
def Selector.Atop (s : Selector) (w : World) (tag : Int) : Prop :=
  ∃ t vm, s.handle = some t ∧ w.machines.get t.machine = .open vm ∧ tag = tagOf (vm.top? t.thread)

theorem runWith_pushNil {n : Nat} {l : Option Handle} (run : runWith n l (fun _ => Binding.Api.pushNil) env w = .ok () w') :
    ∃ t vm, l = some t ∧ w'.machines.get t.machine = .open vm ∧ vm.top? t.thread = some .nil := by
  change runProgram (w.runtimes.get n) l Binding.Api.pushNil env w = .ok () w' at run
  obtain ⟨v, w₁, performed, done⟩ := of_asks (c := .pushNil) run
  cases done
  cases l with
  | none =>
    rw [execute_none (c := .pushNil) _ nofun] at performed
    cases performed
  | some t =>
    obtain ⟨vm, s, -, pushed, rfl⟩ := of_execute_ok (c := .pushNil) nofun nofun performed
    have pushes : perform env t .pushNil (taken w t.machine vm) =
        .ok .none { taken w t.machine vm with vm := vm.pushed t.thread .nil } := rfl
    cases pushed.symm.trans pushes
    exact ⟨t, _, rfl, putBack_get _ _, Lua.Vm.top?_pushed _ _ _⟩

namespace Does

variable (s : Selector)

theorem pushEntry (key : Value) :
    Does env w (s.pushEntry key) fun tag ds w' => Told ds (∃ k, tag = some k ∧ s.Atop w' k) (tag = none) := by
  unfold Selector.pushEntry
  refine hushed_bind (.discard (.runWith _ _ fun _ => Mute.checkStack _)) fun _ w₁ _ => ?_
  refine bind (pushChunk s.registry _) fun ok ds w₂ told => ?_
  obtain ⟨fine, rfl⟩ | ⟨blamed, rfl⟩ := told
  · refine hushed_bind (.runWith _ _ fun _ => Mute.pushValue _) fun _ w₃ _ => ?_
    refine hushed_bind (.pushHost _ _ _ _) fun _ w₄ _ => ?_
    refine imp (r := fun tag es w' => Told es (∃ k, tag = some k ∧ s.Atop w' k) (tag = none)) ?_ fun _ _ _ => Told.after fine
    refine bind (attemptWith (.call 2 1) _ _) fun status ds w₅ done => ?_
    obtain ⟨t, vm, ht, hm, rfl, leaves⟩ := done
    refine hushed_bind (.runtime _) fun rt w₆ run => ?_
    cases run
    rw [ht]
    refine unlessFailed hm leaves (q := fun tag es w' => Told es (∃ k, tag = some k ∧ s.Atop w' k) (tag = none))
      (fun _ _ blamed => .inr ⟨blamed, rfl⟩) fun zero => ?_
    rw [zero]
    refine hushed_bind (.runWith _ _ fun _ => Mute.type _) fun tag w₇ asked => pure ?_
    obtain ⟨rfl, rfl⟩ := runWith_type hm asked
    exact .inl ⟨fine_attempt, _, rfl, t, vm, ht, hm, rfl⟩
  · exact pure (.inr ⟨by rwa [List.append_nil], rfl⟩)

theorem pushKeys (keys : List Value) (tag : Int) :
    Does env w (s.pushKeys tag keys) fun found ds w' =>
      Told ds (∃ k, found = some k ∧ (keys = [] ∧ k = tag ∧ w' = w ∨ s.Atop w' k)) (found = none) := by
  induction keys generalizing w tag with
  | nil => exact pure (.inl ⟨fine_nil, tag, rfl, .inl ⟨rfl, rfl, rfl⟩⟩)
  | cons key rest ih =>
    unfold Selector.pushKeys
    split
    · refine hushed_bind (.runWith _ _ fun _ => Mute.pushNil) fun _ w₁ run => pure (.inl ⟨fine_nil, 0, rfl, .inr ?_⟩)
      obtain ⟨t, vm, ht, hm, top⟩ := runWith_pushNil run
      exact ⟨t, vm, ht, hm, by rw [top]; rfl⟩
    · refine bind (pushEntry s key) fun found ds w₁ told => ?_
      obtain ⟨fine, k, rfl, atop⟩ | ⟨blamed, rfl⟩ := told
      · refine imp (ih k) fun found es w' told => Told.after fine (told.imp_left (And.imp_right ?_))
        rintro ⟨k', rfl, ⟨-, rfl, rfl⟩ | atop'⟩
        · exact ⟨k', rfl, .inr atop⟩
        · exact ⟨k', rfl, .inr atop'⟩
      · exact pure (.inr ⟨by rwa [List.append_nil], rfl⟩)

/-- The whole way; without keys nothing but the globals is pushed. -/
theorem push (keys : List Value) :
    Does env w (s.push keys) fun found ds w' =>
      Told ds (∃ k, found = some k ∧ (keys = [] ∧ k = 5 ∨ s.Atop w' k)) (found = none) := by
  refine hushed_bind (.runWith _ _ Mute.pushGlobals) fun _ w₁ _ => ?_
  refine imp (pushKeys s keys 5) fun found ds w' told => told.imp_left (And.imp_right ?_)
  rintro ⟨k, rfl, ⟨none, rfl, -⟩ | atop⟩
  · exact ⟨5, rfl, .inl ⟨none, rfl⟩⟩
  · exact ⟨k, rfl, .inr atop⟩

/-- A failure on the way is the failure of the operation; otherwise it goes on. -/
theorem along {keys : List Value} {x : α} {next : Int → H α} {q : α → List Deed → Prop}
    (blamed : ∀ ds, Blamed ds → q x ds)
    (fine : ∀ before k w₁, Fine before → (keys = [] ∧ k = 5 ∨ s.Atop w₁ k) →
      Does env w₁ (next k) fun b es _ => q b (before ++ es)) :
    Does env w (s.push keys >>= fun | none => Pure.pure x | some k => next k) fun b ds _ => q b ds := by
  refine bind (push s keys) fun found ds w₁ told => ?_
  obtain ⟨good, k, rfl, atop⟩ | ⟨bad, rfl⟩ := told
  · exact fine ds k w₁ good atop
  · exact pure (by rw [List.append_nil]; exact blamed ds bad)

theorem exists_ (live : s.machine.isSome) :
    Does env w s.exists_ fun found ds _ => Told ds True (found = false) := by
  unfold Selector.exists_
  refine unlessClosed live (guarded fun w₁ => ?_)
  refine along s (q := fun found ds => Told ds True (found = false)) (fun ds bad => .inr ⟨bad, rfl⟩) fun before k w₂ good _ => ?_
  exact pure (Told.after good (.inl ⟨fine_nil, trivial⟩))

theorem get (live : s.machine.isSome) : Does env w s.get fun v ds _ => Told ds True (v = .none) := by
  unfold Selector.get
  refine unlessClosed live (guarded fun w₁ => ?_)
  refine along s (q := fun (v : Value) ds => Told ds True (v = .none)) (fun ds bad => .inr ⟨bad, rfl⟩) fun before k w₂ good _ => ?_
  exact hushed (.toHost _ _ _ _) fun _ _ _ => Told.after good (.inl ⟨fine_nil, trivial⟩)

theorem ref (live : s.machine.isSome) : Does env w s.ref fun v ds _ => Told ds True (v = .none) := by
  unfold Selector.ref
  refine unlessClosed live (guarded fun w₁ => ?_)
  refine along s (q := fun (v : Value) ds => Told ds True (v = .none)) (fun ds bad => .inr ⟨bad, rfl⟩) fun before k w₂ good _ => ?_
  exact hushed_bind (.pinTop _ _) fun _ _ _ => pure (Told.after good (.inl ⟨fine_nil, trivial⟩))

theorem pushAll (vs : List Value) : Hushed (s.pushAll vs) := by
  induction vs with
  | nil => exact .pure _
  | cons v vs ih => exact .bind (.pushHost _ _ _ _) fun _ => ih

theorem results (n : Nat) (i : Int) : Hushed (s.results n i) := by
  induction n generalizing i with
  | zero => exact .pure _
  | succ n ih => exact .bind (.toHost _ _ _ _) fun _ => .bind (ih _) fun _ => .pure _

theorem call (args : List Value) (live : s.machine.isSome) :
    Does env w (s.call args) fun v ds _ => Told ds True (v = .none) := by
  unfold Selector.call
  refine unlessClosed live (hushed_bind (.runtime _) fun rt w₁ _ => guarded fun w₂ => ?_)
  refine along s (q := fun (v : Value) ds => Told ds True (v = .none)) (fun ds bad => .inr ⟨bad, rfl⟩) fun before k w₃ good _ => ?_
  refine imp (r := fun v ds _ => Told ds True (v = .none)) ?_ fun _ _ _ => Told.after good
  refine hushed_bind (.discard (.runWith _ _ fun _ => Mute.checkStack _)) fun _ w₄ _ => ?_
  refine hushed_bind (.runWith _ _ fun _ => Mute.getTop) fun base w₅ _ => ?_
  refine hushed_bind (pushAll s args) fun _ w₆ _ => ?_
  refine bind (attemptWith (.call _ _) _ _) fun status ds w₇ done => ?_
  obtain ⟨t, vm, ht, hm, rfl, leaves⟩ := done
  rw [ht]
  refine unlessFailed hm leaves (q := fun (v : Value) ds _ => Told ds True (v = .none))
    (fun _ _ blamed => .inr ⟨blamed, rfl⟩) fun zero => ?_
  rw [zero]
  refine hushed_bind (.runWith _ _ fun _ => Mute.getTop) fun top w₈ _ => ?_
  exact hushed_bind (results s _ _) fun _ _ _ => pure (.inl ⟨fine_attempt, trivial⟩)

theorem execute (s : State) (source : Value) (live : s.machine.isSome) :
    Does env w (s.execute source) fun done ds _ => Told ds (done = true) (done = false) := by
  unfold State.execute
  refine unlessClosed live (hushed_bind (.runtime _) fun rt w₁ _ => guarded fun w₂ => ?_)
  refine bind (doString _ _ _) fun status ds w₃ done => ?_
  obtain ⟨before, phase, t, vm, ht, hm, good, rfl, leaves⟩ := done
  refine imp (r := fun done es _ => Told (attemptOn phase w₃ s.runtime t vm (Api.intOf status) :: es) (done = true) (done = false))
    ?_ fun done es _ told => by rw [List.append_assoc]; exact told.after good
  rw [ht]
  refine unlessFailed hm leaves (q := fun done ds _ => Told ds (done = true) (done = false))
    (fun _ _ blamed => .inr ⟨blamed, rfl⟩) fun zero => ?_
  rw [zero]
  exact pure (.inl ⟨fine_attempt, rfl⟩)

end Does

/-! ## Assigning -/

theorem ofExcept_ok {r : Except Failure α} {a : α} (run : H.ofExcept r env w = .ok a w') : r = .ok a := by
  cases r with
  | ok b =>
    cases run
    rfl
  | error f => cases run

/-- The complaint that what leads to an entry is no table. -/
def complaint (way : Text) (v : Option Lua.Value) : Text :=
  ("cannot assign " : Text) ++ way ++ (": parent is a " : Text) ++ kindOf v ++ (" value" : Text)

/-- What is set is a global, or an entry of a table, or there is a complaint. -/
inductive Assigned (s : Selector) (code : Int) : Bool → List Deed → Prop
  | global {done : Bool} {ds : List Deed} (name : s.path = []) (told : Told ds (done = true) (done = false)) :
    Assigned s code done ds
  | astray {ds : List Deed} (blamed : Blamed ds) : Assigned s code false ds
  | entry {done : Bool} {before after : List Deed} {v : Option Lua.Value} {slot : Nat → Int} (fine : Fine before)
    (table : tagOf v = Lua.TypeTag.table.code) (told : Told after (done = true) (done = false)) :
    Assigned s code done (before ++ .parent v slot :: after)
  | refused {before : List Deed} {v : Option Lua.Value} {slot : Nat → Int} {way : Text} (fine : Fine before)
    (other : tagOf v ≠ Lua.TypeTag.table.code) (path : s.describe slot = .ok way) :
    Assigned s code false (before ++ [.parent v slot, .reported code (complaint way v)])

namespace Does

theorem assign (s : Selector) (v : Value) (rt : Runtime) :
    Does env w (do
      discard <| runWith s.runtime s.handle fun _ => Binding.Api.checkStack 4
      if !(← Registry.pushChunk s.registry Selector.assignChunk) then return false
      runWith s.runtime s.handle fun _ => Binding.Api.pushValue (-2)
      pushHost s.runtime s.handle (s.chain.getLastD .none) (some s.registry)
      pushHost s.runtime s.handle v (some s.registry)
      let status := Api.intOf (← runWith s.runtime s.handle fun _ => Binding.Api.pcall 3 0 0)
      if status != codeOf rt .ok then
        Host.reportTop s.reporter status s.runtime s.handle
        return false
      return true) fun done ds _ => Told ds (done = true) (done = false) := by
  refine hushed_bind (.discard (.runWith _ _ fun _ => Mute.checkStack _)) fun _ w₁ _ => ?_
  refine bind (pushChunk s.registry _) fun ok ds w₂ told => ?_
  obtain ⟨fine, rfl⟩ | ⟨blamed, rfl⟩ := told
  · refine imp (r := fun done es _ => Told es (done = true) (done = false)) ?_ fun _ _ _ => Told.after fine
    refine hushed_bind (.runWith _ _ fun _ => Mute.pushValue _) fun _ w₃ _ => ?_
    refine hushed_bind (.pushHost _ _ _ _) fun _ w₄ _ => hushed_bind (.pushHost _ _ _ _) fun _ w₅ _ => ?_
    refine bind (attemptWith (.call 3 0) _ _) fun status ds w₆ done => ?_
    obtain ⟨t, vm, ht, hm, rfl, leaves⟩ := done
    rw [ht]
    refine unlessFailed hm leaves (q := fun done ds _ => Told ds (done = true) (done = false))
      (fun _ _ blamed => .inr ⟨blamed, rfl⟩) fun zero => ?_
    rw [zero]
    exact pure (.inl ⟨fine_attempt, rfl⟩)
  · exact pure (.inr ⟨by rwa [List.append_nil], rfl⟩)

theorem set (s : Selector) (v : Value) (live : s.machine.isSome) :
    Does env w (s.set v) fun done ds _ => Assigned s (codeOf (w.runtimes.get s.runtime) .errRun) done ds := by
  unfold Selector.set
  refine unlessClosed live (hushed_bind (.runtime _) fun rt w₁ run => ?_)
  cases run
  refine guarded fun w₂ => ?_
  refine along s (fun ds bad => .astray bad) fun before k w₃ good atop => ?_
  obtain ⟨empty, rfl⟩ | ⟨t, vm, ht, hm, rfl⟩ := atop
  · rw [if_neg (by decide)]
    have name : s.path = [] := by
      cases h : s.path with
      | nil => rfl
      | cons key rest =>
        rw [Selector.chain, h] at empty
        cases empty
    exact imp (assign s v _) fun done es _ told => .global name (told.after good)
  · refine look hm ?_
    by_cases table : tagOf (vm.top? t.thread) = Lua.TypeTag.table.code
    · rw [table, if_neg (by decide)]
      exact imp (assign s v _) fun done es _ told => .entry good table told
    · rw [if_pos (bne_iff_ne.mpr (show tagOf (vm.top? t.thread) ≠ 5 from table))]
      refine hushed_bind .get fun w₄ w₅ same => ?_
      cases same
      refine hushed_bind (.ofExcept _) fun way w₆ described => ?_
      refine hushed_bind (.runWith _ _ fun _ => Mute.typeName _) fun kind w₇ named => ?_
      rw [ht] at named
      cases typeName_named (vm.top? t.thread) named
      refine bind (report _ _ _) fun _ ds w₈ reported => pure ?_
      cases reported
      refine .refused good table (ofExcept_ok described)

end Does

/-! ## Running a file -/

/-- What the report of a failed load says where the value left has no text; nothing is reported of a
status that is neither that of a fault in the program nor that of a file that cannot be read, unless all
of them are to be. -/
def fallback (rt : Runtime) (all : Bool) (status : Int) : Option Text :=
  if status = codeOf rt .errSyntax then some (": syntax error" : Text)
  else if status = codeOf rt .errFile then some (": file error" : Text)
  else if all then some (": load failed" : Text)
  else none

/-- A file is loaded and called, or one of the two failed. -/
inductive Loaded (rt : Runtime) (all : Bool) (shown : Text) : Bool → List Deed → Prop
  | done {ds : List Deed} (fine : Fine ds) : Loaded rt all shown true ds
  | load {status : Int} {left : Option Lua.Value} {text : Option Text} {f : Text} (failed : status ≠ 0)
    (instead : fallback rt all status = some f) :
    Loaded rt all shown false [.attempted .load status left text, .reported status (text.getD (shown ++ f))]
  | unreported {status : Int} {left : Option Lua.Value} {text : Option Text} (failed : status ≠ 0)
    (strange : fallback rt all status = none) : Loaded rt all shown false [.attempted .load status left text]
  | call {load : Deed} {status : Int} {left : Option Lua.Value} {text : Option Text} (fine : load.Fine) (failed : status ≠ 0) :
    Loaded rt all shown false
      [load, .attempted .call status left text, .reported status (text.getD (shown ++ (": dofile failed" : Text)))]

namespace Does

/-- Reporting the text of the value on top, or some words. -/
theorem words {n : Nat} {t : Handle} {vm : Vm} (hm : w.machines.get t.machine = .open vm) (reporter : Nat) (code : Int)
    (instead : Text) {q : Bool → List Deed → Prop}
    (h : q false [.reported code ((textOf (w.runtimes.get n) vm.generation (vm.top? t.thread)).getD instead)]) :
    Does env w (do
      let message ← runWith n (some t) fun r => Binding.Api.toText r (-1)
      H.report reporter code (message.getD instead) none
      return false) fun done ds _ => q done ds := by
  refine hushed_bind (.runWith _ _ fun r => Mute.toText r _) fun message w₁ read => ?_
  obtain ⟨rfl, -⟩ := runWith_toText hm read
  refine bind (report _ _ _) fun _ ds w₂ reported => pure ?_
  rwa [List.append_nil, reported]

theorem loadFile (s : State) (path : Value) (shown : Text) (live : s.machine.isSome) :
    Does env w (s.loadFile path shown) fun done ds _ =>
      Loaded (w.runtimes.get s.runtime) s.config.reportAllLoadErrors shown done ds := by
  unfold State.loadFile
  refine unlessClosed live (hushed_bind (.runtime _) fun rt w₁ run => ?_)
  cases run
  refine guarded fun w₂ => bind (attemptWith (.file path) _ _) fun status ds w₃ done => ?_
  obtain ⟨t, vm, ht, hm, rfl, leaves⟩ := done
  rw [ht, codeOf_ok]
  by_cases ok : Api.intOf status = 0
  · rw [ok, if_neg (by decide)]
    refine bind (attemptWith (.call 0 _) _ _) fun status' ds w₄ done => ?_
    obtain ⟨t', vm', ht', hm', rfl, -⟩ := done
    cases ht'
    by_cases ok' : Api.intOf status' = 0
    · rw [ok', if_pos (by decide)]
      exact pure (.done (.append fine_attempt fine_attempt))
    · rw [if_neg ((not_congr beq_iff_eq).mpr ok')]
      exact words hm' _ _ _ (.call rfl ok')
  · rw [if_pos (bne_iff_ne.mpr ok)]
    split
    · next syntax_ => exact words hm _ _ _ (.load ok (if_pos (beq_iff_eq.mp syntax_)))
    · next other =>
      replace other := (not_congr beq_iff_eq).mp other
      split
      · next file => exact words hm _ _ _ (.load ok (by rw [fallback, if_neg other, if_pos (beq_iff_eq.mp file)]))
      · next strange =>
        replace strange := (not_congr beq_iff_eq).mp strange
        split
        · next all => exact words hm _ _ _ (.load ok (by rw [fallback, if_neg other, if_neg strange, if_pos all]))
        · next all =>
          refine hushed_bind (.debug _) fun _ w₄ _ => pure (.unreported ok ?_)
          rw [fallback, if_neg other, if_neg strange, if_neg all]

end Does

/-! ## All of them -/

/-- The operations that load or call. -/
inductive Trial where
  | execute (s : State) (source : Value)
  | loadFile (s : State) (path : Value) (shown : Text)
  | exists_ (s : Selector)
  | get (s : Selector)
  | ref (s : Selector)
  | set (s : Selector) (v : Value)
  | call (s : Selector) (args : List Value)

namespace Trial

def run : Trial → H Value
  | execute s source => do return .bool (← s.execute source)
  | loadFile s path shown => do return .bool (← s.loadFile path shown)
  | exists_ s => do return .bool (← s.exists_)
  | get s => s.get
  | ref s => s.ref
  | set s v => do return .bool (← s.set v)
  | call s args => s.call args

def machine : Trial → Option Nat
  | execute s _ | loadFile s _ _ => s.machine
  | exists_ s | get s | ref s | set s _ | call s _ => s.machine

def runtime : Trial → Nat
  | execute s _ | loadFile s _ _ => s.runtime
  | exists_ s | get s | ref s | set s _ | call s _ => s.runtime

/-- What an operation gives goes with its deeds. -/
def Accounts (rt : Runtime) (ds : List Deed) : Trial → Value → Prop
  | execute _ _, v => ∃ done : Bool, v = .bool done ∧ Told ds (done = true) (done = false)
  | loadFile s _ shown, v => ∃ done : Bool, v = .bool done ∧ Loaded rt s.config.reportAllLoadErrors shown done ds
  | exists_ _, v => ∃ found : Bool, v = .bool found ∧ Told ds True (found = false)
  | get _, v | ref _, v | call _ _, v => Told ds True (v = .none)
  | set s _, v => ∃ done : Bool, v = .bool done ∧ Assigned s (codeOf rt .errRun) done ds

theorem does (op : Trial) (live : op.machine.isSome) :
    Does env w op.run fun v ds _ => op.Accounts (w.runtimes.get op.runtime) ds v := by
  have flag {act : H Bool} {q : Bool → List Deed → Prop} (h : Does env w act fun b ds _ => q b ds) :
      Does env w (do return Value.bool (← act)) fun (v : Value) ds _ => ∃ b : Bool, v = .bool b ∧ q b ds :=
    h.bind fun b ds _ hq => .pure ⟨b, rfl, by rwa [List.append_nil]⟩
  cases op with
  | execute s source => exact flag (.execute s source live)
  | loadFile s path shown => exact flag (.loadFile s path shown live)
  | exists_ s => exact flag (.exists_ s live)
  | get s => exact .get s live
  | ref s => exact .ref s live
  | set s v => exact flag (.set s v live)
  | call s args => exact .call s args live

end Trial

def Deed.isReport : Deed → Bool
  | .reported .. => true
  | _ => false

/-- How many reports there are among deeds. -/
def reports (ds : List Deed) : Nat := ds.countP Deed.isReport

theorem reports_append : reports (ds ++ es) = reports ds + reports es := List.countP_append

theorem Fine.reports_eq (h : Fine ds) : reports ds = 0 := by
  refine List.countP_eq_zero.mpr fun d hd => ?_
  cases d with
  | attempted | parent => exact Bool.false_ne_true
  | reported => exact (h _ hd).elim

theorem Blamed.reports_eq (h : Blamed ds) : reports ds = 1 := by
  obtain ⟨before, phase, status, v, text, rfl, fine, -⟩ := h
  rw [reports_append, fine.reports_eq]
  rfl

theorem Told.reports_le {p q : Prop} (h : Told ds p q) : reports ds ≤ 1 := by
  obtain ⟨fine, -⟩ | ⟨blamed, -⟩ := h
  · exact Nat.le_trans (Nat.le_of_eq fine.reports_eq) (Nat.zero_le 1)
  · exact Nat.le_of_eq blamed.reports_eq

theorem Assigned.reports_le {s : Selector} {code : Int} {done : Bool} (h : Assigned s code done ds) : reports ds ≤ 1 := by
  cases h with
  | global _ told => exact told.reports_le
  | astray blamed => exact Nat.le_of_eq blamed.reports_eq
  | @entry _ before after v slot fine _ told =>
    have one := told.reports_le
    rw [reports_append, fine.reports_eq, Nat.zero_add]
    exact one
  | refused fine =>
    rw [reports_append, fine.reports_eq]
    exact Nat.le_refl 1

theorem Loaded.reports_le {rt : Runtime} {all done : Bool} {shown : Text} (h : Loaded rt all shown done ds) : reports ds ≤ 1 := by
  cases h with
  | done fine => exact Nat.le_trans (Nat.le_of_eq fine.reports_eq) (Nat.zero_le 1)
  | load => exact Nat.le_refl 1
  | unreported => exact Nat.zero_le 1
  | @call load status left text fine =>
    have none : reports [load] = 0 := Fine.reports_eq (List.forall_mem_singleton.mpr fine)
    rw [← List.singleton_append, reports_append, none]
    exact Nat.le_refl 1

theorem Trial.Accounts.reports_le {rt : Runtime} {op : Trial} {v : Value} (h : op.Accounts rt ds v) : reports ds ≤ 1 := by
  cases op with
  | execute | exists_ =>
    obtain ⟨b, -, told⟩ := h
    exact told.reports_le
  | loadFile =>
    obtain ⟨b, -, loaded⟩ := h
    exact loaded.reports_le
  | set =>
    obtain ⟨b, -, assigned⟩ := h
    exact assigned.reports_le
  | get | ref | call => exact Told.reports_le h

/-- An operation that comes back, from any world in which its handle is live and whatever the machine and
the functions of the environment do, has attempted, looked and reported in some order; what it gives goes
with these deeds, and at most one of them is a report. -/
theorem failure_reported_once {op : Trial} {v : Value} (live : op.machine.isSome) (run : op.run env w = .ok v w') :
    ∃ ds, Course env op.run w v ds w' ∧ op.Accounts (w.runtimes.get op.runtime) ds v ∧ reports ds ≤ 1 := by
  obtain ⟨ds, course, accounts⟩ := (op.does live).course v w' run
  exact ⟨ds, course, accounts, accounts.reports_le⟩

/-- A source that raises nil. -/
def raising : Trial := .execute ((Session.begun .v54).states.get 0) (.text "error()")

theorem failure_reported_once_raising : ∃ v w' ds, raising.run Env.full (Session.begun .v54) = .ok v w' ∧
    Course Env.full raising.run (Session.begun .v54) v ds w' ∧
      raising.Accounts ((Session.begun .v54).runtimes.get raising.runtime) ds v ∧ reports ds ≤ 1 := by
  obtain ⟨v, w', run⟩ := Session.ok_of_succeeds
    (by decide +kernel : Session.succeeds (raising.run Env.full (Session.begun .v54)) = true)
  obtain ⟨ds, told⟩ := failure_reported_once (by decide +kernel) run
  exact ⟨v, w', ds, run, told⟩

end LuaHost.Host
