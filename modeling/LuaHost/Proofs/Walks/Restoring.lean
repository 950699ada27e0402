import LuaHost.Proofs.Entries.Rounding
import LuaHost.Proofs.Walks.Echoes
import LuaHost.Proofs.Walks.Straight

set_option autoImplicit false

/-!
# What is assigned is read again

A value that has been assigned at the end of a straight way is what getting gives there: data as they were, but for texts
that were given as bytes and integers that are rounded; what a reference pins; a function that does what was assigned.
-/

namespace LuaHost.Lua

/-- A straight way to an entry that has been set, and is not passed before, is still one, and leads to what it has been set to. -/
theorem Vm.Writes.straight {p : Int64 → Prop} {vm vm' : Vm} {a : Nat} {j : Key} {x v k : Value} {us : List Value} (h : vm.Writes p a j x vm')
    (registry : vm'.registry = vm.registry) (straight : vm.Straight v (us ++ [k])) (parent : vm.reach v us = .table a)
    (hk : k.key? = some j) (apart : ¬ vm.Passes a j v us) : vm'.Straight v (us ++ [k]) ∧ vm'.reach v (us ++ [k]) = x := by
  obtain ⟨way, last⟩ := Vm.Straight.append.mp straight
  rw [parent] at last
  obtain ⟨bare, unnumbered, -⟩ := last
  obtain ⟨way', same⟩ := way.congr registry h.metatable fun b i passes spared =>
    h.others b i (fun ⟨hb, hi⟩ => apart (hb ▸ hi ▸ passes)) fun ⟨own, n, numbered, _⟩ => spared n numbered own
  refine ⟨Vm.Straight.append.mpr ⟨way', ?_⟩, ?_⟩
  · rw [same, parent]
    exact ⟨(h.metatable a).trans bare, fun n hn => registry ▸ unnumbered n hn, trivial⟩
  · have last : vm'.reach v (us ++ [k]) = vm'.child (vm'.reach v us) k := List.foldl_append
    rw [last, same, parent, Vm.child, Table.getValue, hk]
    exact h.entry

end LuaHost.Lua

namespace LuaHost.Host

open Lua (Vm Generation)
open Binding (Runtime)

variable {g : Generation} {env : Env} {w w₀ w' : World} {vm vm' : Vm} {m registry : Nat} {base : Array Lua.Value} {r : Runtime}

/-! ## Data -/

/-- What data are when they are read again. -/
inductive Conserved (g : Generation) : Value → Value → Prop where
  | none : Conserved g .none .none
  | bool (b : Bool) : Conserved g (.bool b) (.bool b)
  | text (t : Text) : Conserved g (.text t) (.text t)
  | bytes (b : ByteArray) : Conserved g (.bytes b) (.text (Text.ofUtf8 b))
  | byteArray (b : ByteArray) : Conserved g (.byteArray b) (.text (Text.ofUtf8 b))
  | float (x : Float) : Conserved g (.float x) (.float x)
  | integer {n : Int} (integers : g.hasIntegers = true) (fits : leastInteger ≤ n ∧ n ≤ greatestInteger) : Conserved g (.int n) (.int n)
  | nearest {n : Int} {x : Float} (other : g.hasIntegers = false ∨ ¬ (leastInteger ≤ n ∧ n ≤ greatestInteger)) (near : Double.Nearest n x) :
    Conserved g (.int n) (.float x)

/-- Data that can be sent are copied when they are read. -/
theorem conserved_of_sent {v : Value} {u : Lua.Value} (texts : r.hidesTexts = false) (scalar : ∀ t, v = .text t → t.Scalar)
    (data : sent r.generation v = some u) : ∃ a, copied r u = some a ∧ Conserved r.generation v a := by
  have string (b : ByteArray) : copied r (.str b) = some (.text (Text.ofUtf8 b)) := by
    simp only [copied, texts, Bool.false_eq_true, if_false]
  cases v with
  | none =>
    cases data
    exact ⟨_, rfl, .none⟩
  | bool b =>
    cases data
    exact ⟨_, rfl, .bool b⟩
  | float x =>
    cases data
    exact ⟨_, rfl, .float x⟩
  | text t =>
    obtain ⟨b, encoded, decoded⟩ := (scalar t rfl).roundTrip
    have same : sent r.generation (.text t) = some (.str b) := by
      simp only [sent, sourceBytes, encoded, Except.toOption, Option.map_some]
    cases same.symm.trans data
    exact ⟨_, (string b).trans (congrArg (some ∘ Value.text) decoded), .text t⟩
  | bytes b =>
    cases data
    exact ⟨_, string b, .bytes b⟩
  | byteArray b =>
    cases data
    exact ⟨_, string b, .byteArray b⟩
  | int n =>
    by_cases fits : leastInteger ≤ n ∧ n ≤ greatestInteger
    · rw [sent, if_pos fits] at data
      cases data
      have small : n.natAbs ≤ 2 ^ 63 := by
        unfold leastInteger greatestInteger at fits
        omega
      unfold Lua.Value.ofInt
      cases integers : r.generation.hasIntegers with
      | true =>
        have whole : (Int64.ofInt n).toInt = n := Int64.toInt_ofInt.trans (int64_small fits)
        refine ⟨.int n, ?_, .integer integers fits⟩
        simp only [copied, integers, if_true, whole]
      | false => exact ⟨_, rfl, .nearest (.inl integers) (Double.ofInt_nearest small)⟩
    · rw [sent, if_neg fits, floatOfInt] at data
      cases near : Double.ofInt? n with
      | none =>
        rw [near] at data
        cases data
      | some x =>
        rw [near] at data
        cases data
        exact ⟨_, rfl, .nearest (.inr fits) (Double.ofInt?_nearest near)⟩
  | _ => cases data

/-! ## Guards -/

/-- What is surely done above a stack is surely done under a guard, which sets the stack back. -/
theorem guarded_surely {α : Type} {act : H α} {P : α → World → Prop} (he : env.Follows) (hm : w.machines.get m = .open vm)
    (small : vm.stack.size < 0x80000000) (sound : w.Sound) (leads : Leads env w act) (runtime : Nat)
    (h : Surely g env w act fun a w' => ∃ vm' ext, w'.machines.get m = .open vm' ∧ vm'.stack = vm.stack ++ ext ∧ P a w') :
    Surely g env w (guarded runtime (some (.main m)) act) fun a w' =>
      ∃ w₁ vm₁ vm', w₁.machines.get m = .open vm₁ ∧ vm₁.Restacks vm.stack vm' ∧ w' = w₁.put m vm' ∧ P a w₁ := by
  intro hr
  have first := h (guarded_journal hm small he sound leads ▸ hr)
  cases run : act env w with
  | ok a w₁ =>
    rw [run] at first
    cases first with | back came => ?_
    obtain ⟨vm₁, ext, hm₁, above, done⟩ := came
    obtain ⟨vm', guards, restacks⟩ := guarded_ok runtime hm small hm₁ above run
    rw [guards]
    exact .back ⟨w₁, vm₁, vm', hm₁, restacks, rfl, done⟩
  | error x w₁ =>
    rw [run] at first
    cases first with
    | raised impossible => exact impossible.elim
    | full =>
      rw [guarded_throws hm run]
      exact .full

namespace Selector

variable {s : Selector}

/-! ## Assignments that do not fail -/

/-- The selector's steps have come to a world in which one entry has then been set, on some stack. -/
inductive Places (g : Generation) (m : Nat) (s : Selector) (w : World) (vm : Vm) (a : Nat) (k : Lua.Value) {j : Lua.Key} (hk : k.key? = some j)
    (v : Value) (base : Array Lua.Value) : World → Prop where
  | intro {stack : Array Lua.Value} {w₁ : World} {vm₁ vm' : Vm} {x : Lua.Value} (pace : s.Paces g m w vm stack w₁ vm₁)
    (denotes : Denotes g m w w₁ v x) (set : (vm₁.assign a k x hk).Akin vm') (natives : vm'.natives = vm₁.natives) (left : vm'.stack = base) :
    Places g m s w vm a k hk v base (w₁.put m vm')

section Placing

variable {a : Nat} {k : Lua.Value} {j : Lua.Key} {hk : k.key? = some j} {v : Value}

theorem Places.after {stack : Array Lua.Value} (h : s.Poised g m w vm) (pace : s.Paces g m w vm stack w₀ vm')
    (placed : s.Places g m w₀ vm' a k hk v base w') : s.Places g m w vm a k hk v base w' := by
  cases placed with
  | intro next denotes set natives left => exact .intro (pace.trans h next) (pace.denotes h.ready denotes) set natives left

/-- The entry is set. -/
theorem settle_surely (h : s.Firm g m w vm) (env : Env) (rt : Runtime) {f x : Lua.Value} (hk : k.key? = some j)
    (bare : (vm.tables.get a).metatable = none) (hs : vm.stack = base ++ [f, .table a, k, x].toArray) (compiled : CompiledFrom vm assignChunk f) :
    Surely g env w (s.settle rt) fun done w' => done = true ∧ ∃ vm', w' = w.put m vm' ∧ (vm.assign a k x hk).Akin vm' ∧
      vm'.natives = vm.natives ∧ vm'.stack = base := by
  obtain ⟨r, vm', called, attempted, stack⟩ := runWith_pcall env s.runtime h.opened hs (assign_runs hk bare compiled) 0
  have outcome := attempted.outcome
  rw [if_pos h.shallow] at outcome
  obtain ⟨rfl, akin⟩ := outcome
  have good : ¬ (Binding.Api.intOf (.int ((Lua.leftBy 0 (.done [])).1.code vm.generation)) != codeOf rt .ok) = true := Bool.false_ne_true
  unfold settle
  rw [h.handle]
  refine .after called ?_
  rw [if_neg good]
  exact .of_ok rfl ⟨rfl, vm', rfl, akin, attempted.natives, stack.trans Array.append_empty⟩

variable (he : env.Follows)

include he

theorem store_surely (h : s.Firm g m w vm) (rt : Runtime) {f : Lua.Value} (hk : k.key? = some j) (bare : (vm.tables.get a).metatable = none)
    (hs : vm.stack = base ++ [.table a, f].toArray) (compiled : CompiledFrom vm assignChunk f) (last : w.Means g m (s.chain.getLastD .none) k)
    (pushable : ∀ e, ¬ Refuses w v e) :
    Surely g env w (s.store rt v) fun done w' => done = true ∧ s.Places g m w vm a k hk v (base.push (.table a)) w' := by
  obtain ⟨w₁, vm₁, copied, first⟩ := h.copy env hs
  have last₁ := first.means h.ready last
  unfold store
  refine .after copied ?_
  obtain ⟨k', w₂, vm₂, pushed, second, key⟩ | ⟨e, -, refused⟩ := first.toPoised.host he (s.chain.getLastD .none)
  rotate_left
  · exact absurd refused (last₁.passes e)
  obtain rfl := last₁.only _ _ key
  have walk := first.trans h.toPoised second
  refine .after pushed ?_
  obtain ⟨x, w₃, vm₃, pushed, third, value⟩ | ⟨e, -, refused⟩ := walk.toPoised.host he v
  rotate_left
  · exact absurd (walk.comes.refuses.mp refused) (pushable e)
  have way := walk.trans h.toPoised third
  have stack : vm₃.stack = base.push (.table a) ++ [f, .table a, k', x].toArray := by
    rw [third.stack, second.stack, first.stack, hs]
    exact Array.toList_inj.mp (by simp)
  refine .after pushed ((settle_surely (h.paced way) env rt hk ((way.spares.metatable a).trans bare) stack (way.compiled compiled)).imp
    (fun done w' settled => ?_) fun _ _ => id)
  obtain ⟨rfl, vm', rfl, set, natives, left⟩ := settled
  exact ⟨rfl, .intro way (walk.denotes h.ready value) set natives left⟩

/-- The table that was found has the entry set. -/
theorem place_surely (h : s.Firm g m w vm) (rt : Runtime) (hk : k.key? = some j) (bare : (vm.tables.get a).metatable = none)
    (hs : vm.stack = base.push (.table a)) (last : w.Means g m (s.chain.getLastD .none) k) (pushable : ∀ e, ¬ Refuses w v e) :
    Surely g env w (s.place rt v (some (Lua.Value.table a).tag.code)) fun done w' => done = true ∧ s.Places g m w vm a k hk v (base.push (.table a)) w' := by
  have five : ¬ ((Lua.Value.table a).tag.code != 5) = true := Bool.false_ne_true
  obtain ⟨w₁, vm₁, roomy, first⟩ := h.room env 4
  unfold place
  dsimp only
  rw [if_neg five]
  refine .after roomy (.bind he first.ready (.pushChunk _ _) (chunk_surely (h.paced first) env (.inr rfl)) (fun pushed w' moves => ?_)
    fun pushed w₂ _ _ came => ?_)
  · cases pushed with
    | false => exact .pure _
    | true => exact store_leads (fun n hn => moves.continues.pairs (first.goes n hn)) rt v
  · obtain ⟨rfl, f, vm₂, second, compiled⟩ := came
    have way := first.trans h.toPoised second
    have stack : vm₂.stack = base ++ [.table a, f].toArray := by
      rw [second.stack, first.stack, hs]
      exact Array.toList_inj.mp (by simp)
    refine (store_surely he (h.paced way) rt hk ((way.spares.metatable a).trans bare) stack compiled (way.means h.ready last)
      fun e refused => pushable e (way.comes.refuses.mp refused)).imp (fun done w' stored => ?_) fun _ _ => id
    exact ⟨stored.1, stored.2.after h.toPoised way⟩

omit he in
theorem Places.opened {w' : World} (placed : s.Places g m w vm a k hk v base w') : ∃ vm', w'.machines.get m = .open vm' ∧ vm'.stack = base := by
  cases placed with
  | intro pace denotes set natives left => exact ⟨_, World.get_put _ _ _, left⟩

omit he in
theorem Places.restacked {vm₁ : Vm} {stack : Array Lua.Value} (placed : s.Places g m w vm a k hk v base w') (hm : w'.machines.get m = .open vm₁)
    (restacks : vm₁.Restacks stack vm') : s.Places g m w vm a k hk v stack (w'.put m vm') := by
  cases placed with
  | intro pace denotes set natives left =>
    cases (World.get_put _ _ _).symm.trans hm
    rw [World.put_put]
    exact .intro pace denotes (set.trans restacks.akin) (restacks.natives.trans natives) restacks.stack

/-- An assignment at the end of a straight way is made. -/
theorem set_surely (h : s.Firm g m w vm) {a₀ : Nat} (globals : vm.globalTable = .table a₀) (small : vm.stack.size < 0x80000000)
    (hk : k.key? = some j) {us : List Lua.Value} (keys : List.Forall₂ (w.Means g m) s.chain.dropLast us)
    (last : w.Means g m (s.chain.getLastD .none) k) (straight : vm.Straight (.table a₀) us) (parent : vm.reach (.table a₀) us = .table a)
    (bare : (vm.tables.get a).metatable = none) (pushable : ∀ e, ¬ Refuses w v e) :
    Surely g env w (s.set v) fun done w' => done = true ∧ s.Places g m w vm a k hk v vm.stack w' := by
  rw [set_eq h.machine]
  refine .runtime ?_
  unfold guard
  rw [h.handle]
  have goes {w' : World} (moves : Moves w w') : s.Goes w' := fun n hn => moves.continues.pairs (h.goes n hn)
  have body : Surely g env w (s.push s.chain.dropLast >>= s.place (w.runtimes.get s.runtime) v) fun done w' =>
      ∃ vm' ext, w'.machines.get m = .open vm' ∧ vm'.stack = vm.stack ++ ext ∧ done = true ∧
        ∃ left, s.Places g m w vm a k hk v left w' := by
    refine .bind he h.ready (.selectorPush h.goes s.chain.dropLast) (push_surely he keys h globals straight)
      (fun found w₁ moves => place_leads (goes moves) (w.runtimes.get s.runtime) v found) fun found w₁ ready _ came => ?_
    obtain ⟨rfl, between, comes⟩ := came
    rw [parent] at comes ⊢
    obtain ⟨vm₁, pace⟩ := h.come comes ready.reliable
    refine (place_surely he (h.paced pace) (w.runtimes.get s.runtime) hk ((pace.spares.metatable a).trans bare) pace.stack
      (pace.means h.ready last) fun e refused => pushable e (pace.comes.refuses.mp refused)).imp (fun done w' placed => ?_) fun _ _ => id
    obtain ⟨rfl, placed⟩ := placed
    have after := placed.after h.toPoised pace
    obtain ⟨vm', hm', left⟩ := after.opened
    exact ⟨vm', between.push (.table a), hm', left.trans Array.push_append, rfl, _, after⟩
  refine (guarded_surely he h.opened small h.ready.lawful.toSound ?_ s.runtime body).imp (fun done w' ended => ?_) fun _ _ => id
  · exact .bind (.selectorPush h.goes _) fun found => place_leads h.goes _ v found
  · obtain ⟨w₁, vm₁, vm', hm₁, restacks, rfl, rfl, left, placed⟩ := ended
    exact ⟨rfl, placed.restacked hm₁ restacks⟩

end Placing

/-! ## Getting that does not fail -/

/-- What a value of the machine is read as: a copy, or a reference that denotes it. -/
inductive Reads (g : Generation) (m : Nat) (r : Runtime) (u : Lua.Value) (w' : World) : Value → Prop where
  | copy {a : Value} (copy : copied r u = some a) : Reads g m r u w' a
  | reference {id : Nat} (object : copied r u = none) (denotes : Denotes g m w' w' (.reference id) u) : Reads g m r u w' (.reference id)

/-- Nothing has been reported since, and functions of the host are what they were. -/
structure Quiet (w w' : World) : Prop where
  reports : w'.reports = w.reports
  functions : ∀ k, k < w.foreigns.size → k < w'.foreigns.size ∧ (w'.foreigns.get k).routine = (w.foreigns.get k).routine

namespace Quiet

theorem of_treads (h : w.Treads g m registry w') : Quiet w w' := ⟨h.reports, h.functions⟩

theorem trans {a b c : World} (h : Quiet a b) (k : Quiet b c) : Quiet a c where
  reports := k.reports.trans h.reports
  functions := fun n hn => ⟨(k.functions n (h.functions n hn).1).1, (k.functions n (h.functions n hn).1).2.trans (h.functions n hn).2⟩

theorem stirs {w₁ : World} (h : Quiet w w₁) (opened : w₁.Open m) (stirs : w₁.Stirs m w') : Quiet w w' := by
  obtain ⟨vm, hm⟩ := opened
  obtain ⟨vm', rfl, -⟩ := stirs vm hm
  exact ⟨h.reports, h.functions⟩

end Quiet

theorem toHost_surely (h : s.Poised g m w vm) (env : Env) {u : Lua.Value} (hs : vm.stack = base.push u) :
    Surely g env w (toHost s.runtime s.handle (-1) (some s.registry)) fun read w' =>
      w'.Open m ∧ Quiet w w' ∧ Reads g m (w.runtimes.get s.runtime) u w' read := by
  intro hr
  obtain ⟨a, copy, run⟩ | ⟨copy, ⟨slot, vm', pins, run⟩ | ⟨w', full⟩⟩ := h.toHost_cases env hs
  · rw [run]
    exact .back ⟨⟨vm, h.opened⟩, ⟨rfl, fun _ hk => ⟨hk, rfl⟩⟩, .copy copy⟩
  · rw [run] at hr ⊢
    cases h.pinned_referenced ((Lua.Vm.Akin.refl vm).course _ _ _) pins hr with
    | done moves references denotes =>
      exact .back ⟨⟨vm', Pool.get_put_self _ _ _⟩, ⟨rfl, fun _ hk => ⟨hk, rfl⟩⟩, .reference copy denotes⟩
  · rw [full]
    exact .full

/-- Reads what has been found. -/
def extract (s : Selector) : Option Int → H Value
  | none => return .none
  | some _ => toHost s.runtime s.handle (-1) (some s.registry)

theorem get_eq (machine : s.machine = some m) : s.get = s.guard (s.push s.chain >>= s.extract) := by
  unfold get
  rw [machine]
  refine congrArg s.guard (congrArg (s.push s.chain >>= ·) (funext fun found => ?_))
  cases found <;> rfl

theorem extract_leads (goes : s.Goes w) (found : Option Int) : Leads env w (s.extract found) := by
  cases found with
  | none => exact .pure _
  | some tag => exact .toHost _ _ _ _ (Leads.selector_pairs goes)

theorem Reads.stirs {u : Lua.Value} {read : Value} {w₁ : World} (h : Reads g m r u w₁ read) (opened : w₁.Open m) (stirs : w₁.Stirs m w') :
    Reads g m r u w' read := by
  obtain ⟨vm, hm⟩ := opened
  obtain ⟨vm', rfl, -⟩ := stirs vm hm
  cases h with
  | copy copy => exact .copy copy
  | reference object denotes =>
    refine .reference object ?_
    cases denotes with
    | pinned home holds taken => exact .pinned home holds taken
    | released home none => exact .released home none
    | elsewhere home other => exact .elsewhere (w := w₁.put m vm') home other u
    | data copy => cases copy
    | function hv => cases hv

/-- What is at the end of a straight way is read. -/
theorem get_surely (he : env.Follows) (h : s.Firm g m w vm) {a : Nat} (globals : vm.globalTable = .table a) (small : vm.stack.size < 0x80000000)
    {us : List Lua.Value} (keys : List.Forall₂ (w.Means g m) s.chain us) (straight : vm.Straight (.table a) us) :
    Surely g env w s.get fun read w' => Quiet w w' ∧ Reads g m (w.runtimes.get s.runtime) (vm.reach (.table a) us) w' read := by
  have goes {w' : World} (moves : Moves w w') : s.Goes w' := fun n hn => moves.continues.pairs (h.goes n hn)
  have body : Surely g env w (s.push s.chain >>= s.extract) fun read w' =>
      w'.Open m ∧ Quiet w w' ∧ Reads g m (w.runtimes.get s.runtime) (vm.reach (.table a) us) w' read := by
    refine .bind he h.ready (.selectorPush h.goes _) (push_surely he keys h globals straight) (fun found w₁ moves => extract_leads (goes moves) found)
      fun found w₁ ready _ came => ?_
    obtain ⟨rfl, between, comes⟩ := came
    obtain ⟨vm₁, pace⟩ := h.come comes ready.reliable
    have read := toHost_surely pace.toPoised env pace.stack
    rw [comes.moves.continues.runtimes] at read
    refine read.imp (fun read w' came => ?_) fun _ _ => id
    exact ⟨came.1, (Quiet.of_treads comes.toTreads).trans came.2.1, came.2.2⟩
  rw [get_eq h.machine]
  unfold guard
  rw [h.handle]
  refine (guarded_yields h.opened small he h.ready.lawful.toSound ?_ body).imp (fun read w' ended => ?_) fun _ _ ended => ?_
  · exact .bind (.selectorPush h.goes _) fun found => extract_leads h.goes found
  · obtain ⟨w₁, ⟨opened, quiet, reads⟩, stirs⟩ := ended
    exact ⟨quiet.stirs opened stirs, reads.stirs opened stirs⟩
  · obtain ⟨_, impossible, -⟩ := ended
    exact impossible

/-! ## Reading what was assigned -/

/-- No chunk is kept in the slot of the globals, if that is not taken. -/
theorem not_books (assigned : w'.Assigned g) (home : w'.machineOf registry = some m)
    (free : allocated m Runtime.globalsSlot w'.journal = none) : ¬ w.Books g registry w' 2 := by
  rintro (head | ⟨i, text, slot, -, found, same⟩)
  · cases g <;> cases head
  · have taken := assigned.taken m slot (some text) (.chunk registry i) ⟨text, rfl, home, found⟩
    obtain ⟨v, pinned, -⟩ := taken.backed
    have two : slot = Runtime.globalsSlot := taken.proper.toInt_ofInt.symm.trans (congrArg Int64.toInt same.symm)
    rw [two, free] at pinned
    cases pinned

/-- What an assignment has come to, where the selector can go on. -/
structure Placed (g : Generation) (m : Nat) (s : Selector) (w : World) (vm : Vm) (a : Nat) (j : Lua.Key) (v : Value) (w' : World) (vm' : Vm)
    (x : Lua.Value) : Prop where
  firm : s.Firm g m w' vm'
  stack : vm'.stack = vm.stack
  denotes : Denotes g m w w' v x
  writes : vm.Writes (w.Books g s.registry w') a j x vm'
  registry : vm'.registry = vm.registry
  references : w'.references = w.references
  quiet : Quiet w w'
  globals : allocated m Runtime.globalsSlot w'.journal = none → vm'.globalTable = vm.globalTable

theorem Places.placed {a : Nat} {k : Lua.Value} {j : Lua.Key} {hk : k.key? = some j} {v : Value} (h : s.Firm g m w vm)
    (places : s.Places g m w vm a k hk v vm.stack w') (moves : Moves w w') (hr : Reliable g w'.journal)
    (unnumbered : ∀ n, j = .int n → a ≠ vm.registry) : ∃ vm' x, s.Placed g m w vm a j v w' vm' x := by
  cases places with
  | @intro stack w₁ vm₁ vm' x pace denotes set natives left =>
    have written : vm.Writes (w.Books g s.registry w₁) a j x vm' := .akin (.after pace.spares (.assign vm₁ a x hk)) set
    have registry : vm'.registry = vm.registry := set.registry.trans pace.spares.registry
    have fine : vm'.breached = false := by
      have numbered : (a == vm₁.registry && j.isInt) = false := by
        cases j with
        | int n =>
          rw [pace.spares.registry, beq_eq_false_iff_ne.mpr (unnumbered n rfl)]
          rfl
        | _ => exact Bool.and_false _
      refine set.breached.trans ?_
      change (vm₁.breached || (a == vm₁.registry && j.isInt)) = false
      rw [numbered, pace.fine]
      rfl
    have firm : s.Firm g m (w₁.put m vm') vm' := ⟨h.toPoised.moved moves hr (World.get_put _ _ _) fine, h.whole.moved moves,
      h.shallow.of_natives (natives.trans pace.spares.natives)⟩
    refine ⟨vm', x, firm, left, denotes.later fun k hk => ⟨hk, rfl⟩, written, registry, pace.comes.references,
      ⟨pace.comes.reports, pace.comes.functions⟩, fun free => ?_⟩
    have generation : vm'.generation = vm.generation := set.generation.trans pace.spares.generation
    have old : vm'.globals = vm.globals := set.globals.trans pace.spares.globals
    have two : vm'.entry 2 = vm.entry 2 := by
      unfold Lua.Vm.entry
      rw [registry]
      refine written.others _ _ (fun ⟨ha, hj⟩ => unnumbered 2 hj.symm ha.symm) ?_
      rintro ⟨-, n, same, named⟩
      cases same
      exact not_books (w := w) firm.ready.assigned firm.home free named
    rw [Lua.Vm.globalTable, Lua.Vm.globalTable, generation, old, two]

/-- What a value that was assigned is read as: data as they are conserved, which can be assigned again; what a reference pins, by a copy
or a reference; a reference to a function that does what was assigned. -/
inductive Restored (g : Generation) (m : Nat) (r : Runtime) (w w' : World) : Value → Value → Prop where
  | data {v read : Value} {u : Lua.Value} (conserved : Conserved g v read) (again : sent g read = some u) : Restored g m r w w' v read
  | pinned {id : Nat} {u : Lua.Value} {read : Value} (denotes : Denotes g m w w' (.reference id) u) (reads : Reads g m r u w' read) :
    Restored g m r w w' (.reference id) read
  | function {v : Value} {routine : Routine} {k n id : Nat} (hv : v.routine? = some routine) (made : k < w'.foreigns.size)
    (does : (w'.foreigns.get k).routine = routine) (denotes : Denotes g m w' w' (.reference id) (.native (.foreign k) n)) :
    Restored g m r w w' v (.reference id)

theorem Reads.restored {v read : Value} {x : Lua.Value} (texts : r.hidesTexts = false) (scalar : ∀ t, v = .text t → t.Scalar)
    (denotes : Denotes r.generation m w w' v x) (reads : Reads r.generation m r x w' read) : Restored r.generation m r w w' v read := by
  cases denotes with
  | data sent_ =>
    obtain ⟨a, copy, conserved⟩ := conserved_of_sent texts scalar sent_
    cases reads with
    | copy copy' =>
      cases copy.symm.trans copy'
      obtain ⟨u, again⟩ := sent_copied copy
      exact .data conserved again
    | reference object => cases copy.symm.trans object
  | pinned home holds taken => exact .pinned (.pinned home holds taken) reads
  | released home none => exact .pinned (.released home none) reads
  | elsewhere home other => exact .pinned (.elsewhere home other _) reads
  | function hv made does =>
    cases reads with
    | copy copy => cases copy
    | reference _ denotes => exact .function hv made does denotes

theorem forall₂_concat {α β : Type} {R : α → β → Prop} {xs : List α} {ys : List β} {y : β} (h : List.Forall₂ R xs (ys ++ [y])) (d : α) :
    List.Forall₂ R xs.dropLast ys ∧ R (xs.getLastD d) y := by
  induction ys generalizing xs d with
  | nil =>
    cases h with | cons first rest => ?_
    cases rest
    exact ⟨.nil, first⟩
  | cons z ys ih =>
    cases h with | @cons x _ xs _ first rest => ?_
    obtain ⟨front, last⟩ := ih rest x
    cases xs with
    | nil => cases ys <;> cases rest
    | cons x' xs => exact ⟨.cons first front, last⟩

/-- Setting and getting restores: an assignment at the end of a straight way succeeds, and what is read there then is what was
assigned, as `Restored` says; nothing is reported by either. The way is given by keys that are certain, goes through tables without
metatables, does not pass the entry that it ends at, and neither passes nor ends at a numbered entry of the registry. The value can be
pushed, and texts have no surrogates.

This is said of machines on which one more call can begin and whose registry's numbers have been left alone, while pinning gives free
slots other than that of the globals. -/
theorem set_get_restores {s : Selector} {a₀ a : Nat} {us : List Lua.Value} {k : Lua.Value} {j : Lua.Key} {v : Value} (he : env.Follows)
    (h₀ : Stages g (Session.start g) w) (machine : s.machine = some m) (goes : s.Goes w) (home : w.machineOf s.registry = some m)
    (runtime : s.runtime < 2) (unbroken : w.Unbroken) (texts : (w.runtimes.get s.runtime).hidesTexts = false)
    (hm : w.machines.get m = .open vm) (fine : vm.breached = false) (shallow : vm.Shallow) (small : vm.stack.size < 0x80000000)
    (globals : vm.globalTable = .table a₀) (means : List.Forall₂ (w.Means g m) s.chain (us ++ [k]))
    (straight : vm.Straight (.table a₀) (us ++ [k])) (parent : vm.reach (.table a₀) us = .table a) (hk : k.key? = some j)
    (apart : ¬ vm.Passes a j (.table a₀) us) (pushable : ∀ e, ¬ Refuses w v e) (scalar : ∀ t, v = .text t → t.Scalar) :
    Surely g env w (s.set v) fun done w₁ => done = true ∧ w₁.reports = w.reports ∧
      (allocated m Runtime.globalsSlot w₁.journal = none → Surely g env w₁ s.get fun read w₂ =>
        w₂.reports = w.reports ∧ Restored g m (w.runtimes.get s.runtime) w w₂ v read) := by
  have lawful : w.Lawful g := Stages.lawful h₀ (Session.start_lawful g)
  have moves := (Leads.set goes v).after he lawful.toSound w .refl
  intro hr
  obtain ⟨es, journal, -⟩ := moves.continues.journal
  have poised := poised_of_stages h₀ (.of_append (journal ▸ hr)) machine goes home runtime hm fine
  have firm : s.Firm g m w vm := ⟨poised, unbroken _ (lawful.registryRuntime s.registry), shallow⟩
  obtain ⟨keys, last⟩ := forall₂_concat means .none
  obtain ⟨way, ends⟩ := Vm.Straight.append.mp straight
  rw [parent] at ends
  obtain ⟨bare, unnumbered, -⟩ := ends
  have ended := set_surely he firm globals small hk keys last way parent bare pushable hr
  cases run : s.set v env w with
  | error x w₁ =>
    rw [run] at ended
    cases ended with
    | raised impossible => exact impossible.elim
    | full => exact .full
  | ok done w₁ =>
    rw [run] at ended moves hr
    replace moves : Moves w w₁ := moves
    cases ended with | back came => ?_
    obtain ⟨rfl, places⟩ := came
    obtain ⟨vm₁, x, placed⟩ := places.placed firm moves hr fun n same => unnumbered n (hk.trans (congrArg some same))
    refine .back ⟨rfl, placed.quiet.reports, fun free => ?_⟩
    obtain ⟨straight₁, reached⟩ := placed.writes.straight placed.registry straight parent hk apart
    have carries := moves.carries firm.ready.lawful firm.ready.assigned hr
    have means₁ := means.imp fun _ _ known => known.later carries placed.references moves.continues.machineOf
    have read := get_surely he placed.firm ((placed.globals free).trans globals) (placed.stack ▸ small) means₁ straight₁
    rw [reached, moves.continues.runtimes] at read
    refine read.imp (fun read w₂ came => ?_) fun _ _ => id
    obtain ⟨quiet, reads⟩ := came
    obtain rfl := poised.generation
    exact ⟨quiet.reports.trans placed.quiet.reports, reads.restored texts scalar (placed.denotes.later quiet.functions)⟩

/-- Whether there is a table among the globals that is not the globals, and neither is the registry. -/
def holdsTable (vm : Vm) : Bool :=
  match vm.globalTable with
  | .table a₀ =>
    match vm.child (.table a₀) (.str (Lua.bytesOf "t")) with
    | .table a => a₀ != vm.registry && a != vm.registry && a != a₀
    | _ => false
  | _ => false

theorem table_of_holdsTable (h : holdsTable vm = true) : ∃ a₀ a, vm.globalTable = .table a₀ ∧
    vm.child (.table a₀) (.str (Lua.bytesOf "t")) = .table a ∧ a₀ ≠ vm.registry ∧ a ≠ vm.registry ∧ a ≠ a₀ := by
  unfold holdsTable at h
  split at h
  · next a₀ globals =>
    split at h
    · next a there =>
      simp only [Bool.and_eq_true, bne_iff_ne] at h
      exact ⟨a₀, a, globals, there, h.1.1, h.1.2, h.2⟩
    · cases h
  · cases h

/-- Bytes that are no text are read as a text with a replacement. -/
theorem set_get_restores_nested : ∃ w₁ w₂, tabledPlace.set (.bytes ⟨#[0x78, 0xFF]⟩) Env.full tabledWorld = .ok true w₁ ∧
    tabledPlace.get Env.full w₁ = .ok (.text ⟨[0x78, 0xFFFD]⟩) w₂ ∧ w₂.reports = tabledWorld.reports ∧
    Restored .v54 0 (tabledWorld.runtimes.get tabledPlace.runtime) tabledWorld w₂ (.bytes ⟨#[0x78, 0xFF]⟩) (.text ⟨[0x78, 0xFFFD]⟩) := by
  have plain : ∀ s ∈ tabled, s.command.Plain := by
    intro s hs
    simp only [tabled, List.mem_cons, List.not_mem_nil, or_false] at hs
    obtain rfl | rfl := hs <;> trivial
  have reached : Session.Reached .v54 tabledWorld := Session.Runs.refl.runAll plain (by decide +kernel)
  obtain ⟨vm, hm, fit⟩ := World.open_of_shows (by decide +kernel : tabledWorld.shows 0 (fun vm =>
    !vm.breached && holdsTable vm && decide (vm.Plain ∧ vm.stack.size < 0x80000000 ∧ vm.Shallow)) = true)
  simp only [Bool.and_eq_true, Bool.not_eq_true', decide_eq_true_eq] at fit
  obtain ⟨⟨fine, holds⟩, bare, small, shallow⟩ := fit
  obtain ⟨a₀, a, globals, there, own, own', other⟩ := table_of_holdsTable holds
  have goes : tabledPlace.Goes tabledWorld :=
    State.Goes.select ((Session.reached_lawful reached).toSound.goes 0) (.text "t") [.int 2]
  obtain ⟨machine, home, runtime, unbroken, texts⟩ : tabledPlace.machine = some 0 ∧ tabledWorld.machineOf tabledPlace.registry = some 0 ∧
      tabledPlace.runtime < 2 ∧ tabledWorld.Unbroken ∧ (tabledWorld.runtimes.get tabledPlace.runtime).hidesTexts = false := by decide +kernel
  have generation : vm.generation = .v54 := (Session.reached_lawful reached).generations 0 vm hm
  have keys : List.Forall₂ (tabledWorld.Means .v54 0) tabledPlace.chain ([.str (Lua.bytesOf "t")] ++ [.int 2]) :=
    .cons (.data hm generation rfl) (.cons (.data hm generation rfl) .nil)
  have straight : vm.Straight (.table a₀) ([.str (Lua.bytesOf "t")] ++ [.int 2]) :=
    ⟨bare a₀, fun _ _ => own, there ▸ ⟨bare a, fun _ _ => own', trivial⟩⟩
  have apart : ¬ vm.Passes a (.int 2) (.table a₀) [.str (Lua.bytesOf "t")] := by
    rintro (⟨same, -⟩ | further)
    · exact other same.symm
    · rw [there] at further
      exact further
  have assigned : replies true (tabledPlace.set (.bytes ⟨#[0x78, 0xFF]⟩) Env.full tabledWorld) = true ∧
      Reliable .v54 (final (tabledPlace.set (.bytes ⟨#[0x78, 0xFF]⟩) Env.full tabledWorld)).journal ∧
      allocated 0 Runtime.globalsSlot (final (tabledPlace.set (.bytes ⟨#[0x78, 0xFF]⟩) Env.full tabledWorld)).journal = none := by
    decide +kernel
  have read : speaks ⟨[0x78, 0xFFFD]⟩ (tabledPlace.get Env.full (final (tabledPlace.set (.bytes ⟨#[0x78, 0xFF]⟩) Env.full tabledWorld))) = true ∧
      Reliable .v54 (final (tabledPlace.get Env.full (final (tabledPlace.set (.bytes ⟨#[0x78, 0xFF]⟩) Env.full tabledWorld)))).journal := by
    decide +kernel
  obtain ⟨w₁, set⟩ : ∃ w₁, tabledPlace.set (.bytes ⟨#[0x78, 0xFF]⟩) Env.full tabledWorld = .ok true w₁ := ⟨_, ok_of_replies assigned.1⟩
  rw [set, final] at assigned read
  have restores := set_get_restores (v := .bytes ⟨#[0x78, 0xFF]⟩) Env.full_follows (Session.reached_stages reached) machine goes home runtime
    unbroken texts hm fine shallow small globals keys straight there rfl apart
    (Refuses.of_sent hm rfl) (fun _ isText => by cases isText)
  have ended := restores (by rw [set]; exact assigned.2.1)
  rw [set] at ended
  cases ended with | back restored => ?_
  obtain ⟨-, -, reads⟩ := restored
  specialize reads assigned.2.2
  obtain ⟨w₂, get⟩ : ∃ w₂, tabledPlace.get Env.full w₁ = .ok (.text ⟨[0x78, 0xFFFD]⟩) w₂ := ⟨_, ok_of_speaks read.1⟩
  unfold Surely Yields at reads
  rw [get, final] at read reads
  cases reads read.2 with | back restored => ?_
  exact ⟨w₁, w₂, set, get, restored⟩

/-- The place of a slot of the registry that is among the globals. -/
def slotFour (w : World) : Selector := (w.states.get 0).select (.text "r") [.int 4]

def shownWorld : World := Session.runAll (Session.start .v54) showing

/-- Whether the registry is a global. -/
def showsRegistry (vm : Vm) : Bool :=
  match vm.child vm.globalTable (.str (Lua.bytesOf "r")) with
  | .table a => a == vm.registry
  | _ => false

theorem shown_of_showsRegistry (h : showsRegistry vm = true) : vm.child vm.globalTable (.str (Lua.bytesOf "r")) = .table vm.registry := by
  unfold showsRegistry at h
  split at h
  · next a there => rw [there, beq_iff_eq.mp h]
  · cases h

/-- Whether an outcome is nothing. -/
def isNothing : EStateM.Result Stop World Value → Bool
  | .ok .none _ => true
  | _ => false

theorem ok_of_isNothing {r : EStateM.Result Stop World Value} (h : isNothing r = true) : r = .ok .none (final r) := by
  unfold isNothing at h
  split at h
  · rfl
  · cases h

/-- A number that is assigned in a slot where a chunk is kept is not read again: it is called in the place of the chunk, which is
reported. -/
theorem set_get_loses_slot : ∃ vm w₁ w₂, shownWorld.machines.get 0 = .open vm ∧ vm.Plain ∧
    vm.child vm.globalTable (.str (Lua.bytesOf "r")) = .table vm.registry ∧ (slotFour shownWorld).set (.int 42) Env.full shownWorld = .ok true w₁ ∧
    (slotFour shownWorld).get Env.full w₁ = .ok .none w₂ ∧ w₂.reports.length = 1 := by
  obtain ⟨vm, hm, fit⟩ := World.open_of_shows (by decide +kernel : shownWorld.shows 0 (fun vm => decide vm.Plain && showsRegistry vm) = true)
  obtain ⟨bare, shown⟩ := Bool.and_eq_true_iff.mp fit
  exact ⟨vm, _, _, hm, of_decide_eq_true bare, shown_of_showsRegistry shown, ok_of_replies (by decide +kernel),
    ok_of_isNothing (by decide +kernel), by decide +kernel⟩

end Selector

end LuaHost.Host
