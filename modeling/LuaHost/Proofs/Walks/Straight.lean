import LuaHost.Proofs.Walks.Findings

set_option autoImplicit false

/-!
# Straight ways

A way that goes through tables without metatables, past the numbered entries of the registry, is followed without
fail: no program runs on it, nothing is reported, and what is at its end is what the machine has there.
-/

namespace LuaHost.Lua

/-- The way from a value through keys goes through tables without metatables, and passes no numbered entry of the
registry. -/
def Vm.Straight (vm : Vm) : Value → List Value → Prop
  | _, [] => True
  | .table a, k :: keys => (vm.tables.get a).metatable = none ∧ (∀ n, k.key? = some (.int n) → a ≠ vm.registry) ∧
    vm.Straight (vm.child (.table a) k) keys
  | _, _ :: _ => False

namespace Vm.Straight

variable {vm vm' : Vm} {v k : Value} {keys : List Value}

/-- A straight way with a key is one from a table. -/
theorem table (h : vm.Straight v (k :: keys)) : ∃ a, v = .table a := by
  cases v with
  | table a => exact ⟨a, rfl⟩
  | _ => exact h.elim

/-- A way is as straight, and leads to the same, if the tables that it passes have no other metatables and no other entries
where it goes. -/
theorem congr (h : vm.Straight v keys) (registry : vm'.registry = vm.registry)
    (metatable : ∀ a, (vm'.tables.get a).metatable = (vm.tables.get a).metatable)
    (entry : ∀ b j, vm.Passes b j v keys → (∀ n, j = .int n → b ≠ vm.registry) →
      (vm'.tables.get b).get j = (vm.tables.get b).get j) :
    vm'.Straight v keys ∧ vm'.reach v keys = vm.reach v keys := by
  induction keys generalizing v with
  | nil => exact ⟨trivial, rfl⟩
  | cons k keys ih =>
    obtain ⟨a, rfl⟩ := h.table
    obtain ⟨bare, apart, rest⟩ := h
    have first : vm'.child (.table a) k = vm.child (.table a) k := Vm.child_congr fun j hj =>
      entry a j (.inl ⟨rfl, hj⟩) fun n numbered => apart n (hj.trans (congrArg some numbered))
    obtain ⟨straight, reached⟩ := ih rest fun b j passes => entry b j (.inr passes)
    refine ⟨⟨(metatable a).trans bare, fun n hn => registry ▸ apart n hn, ?_⟩, ?_⟩
    · rw [first]
      exact straight
    · unfold Vm.reach at reached ⊢
      rw [List.foldl_cons, List.foldl_cons, first]
      exact reached

/-- What spares all but numbered entries of the registry spares the way. -/
theorem spared {p : Int64 → Prop} (h : vm.Straight v keys) (spares : vm.Spares p vm') :
    vm'.Straight v keys ∧ vm'.reach v keys = vm.reach v keys :=
  h.congr spares.registry spares.metatable fun _ _ _ apart => spares.entry _ _ fun ⟨same, n, numbered, _⟩ => apart n numbered same

theorem append {more : List Value} : vm.Straight v (keys ++ more) ↔ vm.Straight v keys ∧ vm.Straight (vm.reach v keys) more := by
  induction keys generalizing v with
  | nil => exact (iff_of_eq (true_and _)).symm
  | cons k keys ih =>
    cases v with
    | table a =>
      change _ ∧ _ ∧ vm.Straight _ (keys ++ more) ↔ (_ ∧ _ ∧ vm.Straight _ keys) ∧ _
      rw [ih, and_assoc, and_assoc]
      rfl
    | _ => exact (iff_of_eq (false_and _)).symm

end Vm.Straight
end LuaHost.Lua

namespace LuaHost.Host

open Lua (Vm Generation)

variable {g : Generation} {env : Env} {w w₀ w' : World} {vm vm' : Vm} {m registry : Nat} {base : Array Lua.Value} {α : Type}

/-- An operation that comes back as described, if pinning gives slots that are free; or no slot is left. -/
abbrev Surely (g : Generation) (env : Env) (w : World) (act : H α) (Q : α → World → Prop) : Prop :=
  Yields g env w act Q fun _ _ => False

/-! ## Keys that are certain -/

/-- A value of the host can be pushed on machine `m`, and is `u` there for certain. -/
structure World.Means (g : Generation) (m : Nat) (w : World) (v : Value) (u : Lua.Value) : Prop where
  passes : ∀ e, ¬ Refuses w v e
  only : ∀ w' u', Denotes g m w w' v u' → u' = u

namespace World.Means

variable {v : Value} {u : Lua.Value}

/-- Data are what they are sent as. -/
theorem data (hm : w.machines.get m = .open vm) (generation : vm.generation = g) (copy : sent g v = some u) : w.Means g m v u where
  passes := Refuses.of_sent hm (generation ▸ copy)
  only w' u' denotes := by
    cases denotes with
    | data copy' => exact Option.some_inj.mp (copy'.symm.trans copy)
    | pinned | released | elsewhere => cases copy
    | function hv =>
      cases v with
      | callable | pointer => cases copy
      | _ => cases hv

theorem reference {id : Nat} (home : w.machineOf (w.references.get id).registry = some m)
    (only : ∀ w' u', Denotes g m w w' (.reference id) u' → u' = u) : w.Means g m (.reference id) u where
  passes _ refused := nomatch (Refuses.reference_iff.mp refused).1.symm.trans home
  only := only

/-- A reference of the machine is what it pins. -/
theorem pinned {id : Nat} (home : w.machineOf (w.references.get id).registry = some m) (holds : (w.references.get id).holds = true)
    (taken : allocated m (w.references.get id).slot w.journal = some u) : w.Means g m (.reference id) u := by
  refine .reference home fun w' u' denotes => ?_
  cases denotes with
  | data copy => cases copy
  | pinned _ _ taken' => exact Option.some_inj.mp (taken'.symm.trans taken)
  | released _ none => exact absurd (none.symm.trans holds) Bool.false_ne_true
  | elsewhere home' other => exact absurd (Option.some_inj.mp (home'.symm.trans home)) other
  | function hv => cases hv

/-- What is certain stays certain while holders hold what they did. -/
theorem later (h : w.Means g m v u) (carries : w.Carries g w') (references : w'.references = w.references)
    (machineOf : ∀ r, w'.machineOf r = w.machineOf r) : w'.Means g m v u where
  passes e refused := h.passes e (refused.of_same fun id => by rw [machineOf, references])
  only _ _ denotes := h.only _ _ (denotes.earlier carries references machineOf)

end World.Means

/-! ## Selectors whose steps do not fail -/

/-- A selector in a world where its steps do not fail: accessor chunks compile, and one more call can begin. -/
structure Selector.Firm (g : Generation) (m : Nat) (s : Selector) (w : World) (vm : Vm) : Prop extends s.Poised g m w vm where
  whole : s.Whole w
  shallow : vm.Shallow

namespace Selector

variable {s : Selector}

theorem Firm.paced {stack : Array Lua.Value} (h : s.Firm g m w vm) (pace : s.Paces g m w vm stack w' vm') : s.Firm g m w' vm' :=
  ⟨pace.toPoised, h.whole.moved pace.comes.moves, h.shallow.of_natives pace.spares.natives⟩

theorem Paces.means {stack : Array Lua.Value} (pace : s.Paces g m w vm stack w' vm') (ready : w.Ready g) {v : Value} {u : Lua.Value}
    (h : w.Means g m v u) : w'.Means g m v u :=
  h.later (pace.comes.moves.carries ready.lawful ready.assigned pace.ready.reliable) pace.comes.references
    pace.comes.moves.continues.machineOf

/-- The function of an accessor chunk is pushed. -/
theorem chunk_surely (h : s.Firm g m w vm) (env : Env) {source : Text} (accessor : source = indexChunk ∨ source = assignChunk) :
    Surely g env w (Registry.pushChunk s.registry source) fun pushed w' =>
      pushed = true ∧ ∃ f vm', s.Paces g m w vm (vm.stack.push f) w' vm' ∧ CompiledFrom vm' source f := by
  have compiles := compiles_accessor h.whole accessor
  refine (h.chunk env accessor).imp (fun pushed w' came => ?_) fun _ _ failed => failed.2 compiles
  cases pushed with
  | false => exact absurd compiles came.2
  | true => exact ⟨rfl, came⟩

/-- What the table has at the key takes the place of both and of the function. -/
theorem fetch_surely (h : s.Firm g m w vm) (env : Env) {a : Nat} {f u : Lua.Value} (bare : (vm.tables.get a).metatable = none)
    (hs : vm.stack = base ++ [f, .table a, u].toArray) (compiled : CompiledFrom vm indexChunk f) :
    Surely g env w s.fetch fun found w' => found = some (vm.child (.table a) u).tag.code ∧
      w.Comes g m s.registry (base.push (vm.child (.table a) u)) w' := by
  obtain ⟨r, vm', called, attempted, stack⟩ := runWith_pcall env s.runtime h.opened hs (index_runs bare compiled) 1
  have outcome := attempted.outcome
  rw [if_pos h.shallow] at outcome
  obtain ⟨rfl, akin⟩ := outcome
  have top : Lua.Stack.value? 0 (int32 (-1)) (taken (w.put m vm') m vm') = .ok (some (vm.child (.table a) u)) (taken (w.put m vm') m vm') :=
    Lua.Stack.value?_below (s := taken (w.put m vm') m vm') stack (by decide : 0 < 9999)
  have good : ¬ (Binding.Api.intOf (.int ((Lua.leftBy 1 (.done [vm.child (.table a) u])).1.code vm.generation)) !=
      codeOf ((w.put m vm').runtimes.get s.runtime) .ok) = true := Bool.false_ne_true
  unfold fetch
  rw [h.handle]
  refine .after called (.runtime ?_)
  rw [if_neg good]
  refine .after (runWith_typeAt (t := .main m) (World.get_put w m vm') top) (.of_ok rfl ⟨rfl, .put h.opened ⟨akin, attempted.natives, ?_⟩⟩)
  rw [Array.push_eq_append]
  exact stack

variable (he : env.Follows)

include he

theorem lookUp_surely (h : s.Firm g m w vm) {a : Nat} {f u : Lua.Value} {key : Value} (straight : vm.Straight (.table a) [u])
    (means : w.Means g m key u) (hs : vm.stack = base ++ [.table a, f].toArray) (compiled : CompiledFrom vm indexChunk f) :
    Surely g env w (s.lookUp key) fun found w' => found = some (vm.child (.table a) u).tag.code ∧
      w.Comes g m s.registry ((base.push (.table a)).push (vm.child (.table a) u)) w' := by
  obtain ⟨w₁, vm₁, copied, first⟩ := h.copy env hs
  unfold lookUp
  refine .after copied ?_
  have means₁ := first.means h.ready means
  obtain ⟨u', w₂, vm₂, pushed, second, denotes⟩ | ⟨e, -, refused⟩ := first.toPoised.host he key
  · obtain rfl := means₁.only _ _ denotes
    refine .after pushed ?_
    have walk := first.trans h.toPoised second
    have stack : vm₂.stack = base.push (.table a) ++ [f, .table a, u'].toArray := by
      rw [walk.stack, first.stack, hs]
      simp
    obtain ⟨⟨bare, -⟩, same⟩ := straight.spared walk.spares
    have there : vm₂.child (.table a) u' = vm.child (.table a) u' := same
    refine (fetch_surely (h.paced walk) env bare stack (walk.compiled compiled)).imp (fun found w' came => ?_) fun _ _ => id
    rw [there] at came
    exact ⟨came.1, walk.comes.trans came.2⟩
  · exact absurd refused (means₁.passes e)

/-- A key is looked up in a table that is on top. -/
theorem pushEntry_surely (h : s.Firm g m w vm) {a : Nat} {u : Lua.Value} {key : Value} (straight : vm.Straight (.table a) [u])
    (means : w.Means g m key u) (hs : vm.stack = base.push (.table a)) :
    Surely g env w (s.pushEntry key) fun found w' => found = some (vm.child (.table a) u).tag.code ∧
      w.Comes g m s.registry (vm.stack.push (vm.child (.table a) u)) w' := by
  obtain ⟨w₁, vm₁, roomy, first⟩ := h.room env 4
  rw [pushEntry_eq]
  refine .after roomy (.bind he first.ready (.pushChunk _ _) (chunk_surely (h.paced first) env (.inl rfl)) (fun pushed w' moves => ?_)
    fun pushed w₂ _ _ came => ?_)
  · cases pushed with
    | false => exact .pure _
    | true => exact lookUp_leads (fun n hn => moves.continues.pairs (first.goes n hn)) key
  · obtain ⟨rfl, f, vm₂, second, compiled⟩ := came
    have walk := first.trans h.toPoised second
    have stack : vm₂.stack = base ++ [.table a, f].toArray := by
      rw [second.stack, first.stack, hs]
      exact Array.toList_inj.mp (by simp)
    obtain ⟨there, same⟩ := straight.spared walk.spares
    have child : vm₂.child (.table a) u = vm.child (.table a) u := same
    refine (lookUp_surely he (h.paced walk) there (walk.means h.ready means) stack compiled).imp (fun found w' found_ => ?_) fun _ _ => id
    rw [child, ← hs] at found_
    exact ⟨found_.1, walk.comes.trans found_.2⟩

/-- Keys are followed from the value on top. -/
theorem pushKeys_surely {keys : List Value} {us : List Lua.Value} (means : List.Forall₂ (w.Means g m) keys us) {v : Lua.Value} {tag : Int}
    (h : s.Firm g m w vm) (straight : vm.Straight v us) (hs : vm.stack = base.push v) (ht : tag = v.tag.code) :
    Surely g env w (s.pushKeys tag keys) fun found w' => found = some (vm.reach v us).tag.code ∧
      ∃ between, w.Comes g m s.registry ((base ++ between).push (vm.reach v us)) w' := by
  induction keys generalizing w vm base v tag us with
  | nil =>
    cases means
    subst ht
    exact .of_ok rfl ⟨rfl, #[], .refl w, vm, h.opened, by rw [Array.append_empty, hs]; rfl⟩
  | cons key keys ih =>
    cases means with | @cons _ u _ us first rest => ?_
    obtain ⟨a, rfl⟩ := straight.table
    have parts : vm.Straight (.table a) ([u] ++ us) := straight
    obtain ⟨here, onward⟩ := Vm.Straight.append.mp parts
    have five : ¬ (tag != 5) = true := by
      rw [ht]
      exact Bool.false_ne_true
    unfold pushKeys
    rw [if_neg five]
    refine .bind he h.ready (.pushEntry h.goes key) (pushEntry_surely he h here first hs) (fun found w' moves => ?_)
      fun found w₁ ready _ came => ?_
    · split
      · exact .pure _
      · exact .pushKeys (fun n hn => moves.continues.pairs (h.goes n hn)) _ _
    · obtain ⟨rfl, comes⟩ := came
      obtain ⟨vm₁, pace⟩ := h.come comes ready.reliable
      obtain ⟨straight₁, same⟩ := Vm.Straight.spared onward pace.spares
      have later : List.Forall₂ (w₁.Means g m) keys us := rest.imp fun _ _ => pace.means h.ready
      refine (ih later (h.paced pace) straight₁ pace.stack rfl).imp (fun found w' came => ?_) fun _ _ => id
      obtain ⟨rfl, between, comes'⟩ := came
      have reached : vm₁.reach (vm.child (.table a) u) us = vm.reach (.table a) (u :: us) := same
      refine ⟨congrArg (fun v : Lua.Value => some v.tag.code) reached, #[.table a] ++ between, ?_⟩
      rw [← Array.append_assoc, ← Array.push_eq_append, ← hs, ← reached]
      exact comes.trans comes'

/-- The keys are followed from the globals. -/
theorem push_surely {keys : List Value} {us : List Lua.Value} (means : List.Forall₂ (w.Means g m) keys us) {a : Nat} (h : s.Firm g m w vm)
    (globals : vm.globalTable = .table a) (straight : vm.Straight (.table a) us) :
    Surely g env w (s.push keys) fun found w' => found = some (vm.reach (.table a) us).tag.code ∧
      ∃ between, w.Comes g m s.registry ((vm.stack ++ between).push (vm.reach (.table a) us)) w' := by
  obtain ⟨w₁, vm₁, pushed, pace⟩ := h.globals env
  rw [globals] at pace
  obtain ⟨there, same⟩ := straight.spared pace.spares
  unfold push
  refine .after pushed ((pushKeys_surely he (means.imp fun _ _ => pace.means h.ready) (h.paced pace) there pace.stack rfl).imp
    (fun found w' came => ?_) fun _ _ => id)
  obtain ⟨rfl, between, comes⟩ := came
  rw [same] at comes ⊢
  exact ⟨rfl, between, pace.comes.trans comes⟩

end Selector

end LuaHost.Host
