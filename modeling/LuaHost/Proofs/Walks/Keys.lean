import LuaHost.Proofs.Walks.Steps

set_option autoImplicit false

/-!
# Keys that are followed

A selector follows its keys from the globals. Each step finds what the machine has at the key, but for entries
of the registry that the walk itself has written; and past a value that is no table nothing is looked up.
-/

namespace LuaHost.Lua

/-! ## Ways through tables -/

/-- What a value has at a key: nothing, if it is no table. -/
def Vm.child (vm : Vm) : Value → Value → Value
  | .table a, k => (vm.tables.get a).getValue k
  | _, _ => .nil

/-- What a value leads to through keys. -/
def Vm.reach (vm : Vm) (v : Value) (keys : List Value) : Value := keys.foldl vm.child v

section Attempts

variable {vm vm' : Vm} {P : Stack.Attempt (List Value) → Prop} {r : Stack.Attempt (List Value)}

/-- A call that changes nothing leaves a machine as it was, whatever it comes to. -/
theorem Vm.Attempted.akin (h : vm.Attempted P vm r vm') : vm.Akin vm' := by
  have outcome := h.outcome
  split at outcome
  · exact outcome.2
  · exact outcome.2

/-- A call whose status is fine has come to what it should. -/
theorem Vm.Attempted.done {target : Vm} (h : vm.Attempted P target r vm') {n : Nat} (ok : (leftBy n r).1 = .ok) : P r ∧ target.Akin vm' := by
  have outcome := h.outcome
  split at outcome
  · exact outcome
  · obtain ⟨rfl, -⟩ := outcome
    cases ok

/-- A call that can only fail by not beginning changes nothing if it fails. -/
theorem Vm.Attempted.idle {target : Vm} (h : vm.Attempted P target r vm') {n : Nat} (bad : (leftBy n r).1 ≠ .ok)
    (sure : ∀ r, P r → (leftBy n r).1 = .ok) : vm.Akin vm' := by
  have outcome := h.outcome
  split at outcome
  · exact absurd (sure r outcome.1) bad
  · exact outcome.2

end Attempts

/-- Only tables have the number of tables for a type. -/
theorem Value.table_of_code {v : Value} (h : v.tag.code = 5) : ∃ a, v = .table a := by
  cases v with
  | table a => exact ⟨a, rfl⟩
  | _ => cases h

theorem Status.code_ne_zero {g : Generation} {status : Status} (h : status ≠ .ok) : status.code g ≠ 0 :=
  fun zero => h (Status.eq_ok_of_code zero)

/-- The way from a value through keys passes an entry. -/
def Vm.Passes (vm : Vm) (b : Nat) (j : Key) : Value → List Value → Prop
  | .table a, k :: keys => (a = b ∧ k.key? = some j) ∨ vm.Passes b j (vm.child (.table a) k) keys
  | _, _ => False

theorem Vm.child_congr {vm vm' : Vm} {a : Nat} {k : Value}
    (h : ∀ j, k.key? = some j → (vm'.tables.get a).get j = (vm.tables.get a).get j) :
    vm'.child (.table a) k = vm.child (.table a) k := by
  change Table.getValue _ k = Table.getValue _ k
  unfold Table.getValue
  cases hk : k.key? with
  | none => rfl
  | some j => exact h j hk

theorem Vm.reach_nowhere {vm : Vm} {v : Value} (h : ∀ a, v ≠ .table a) (k : Value) (keys : List Value) : vm.reach v (k :: keys) = .nil := by
  have start : vm.child v k = .nil := by
    cases v with
    | table a => exact absurd rfl (h a)
    | _ => rfl
  unfold Vm.reach
  rw [List.foldl_cons, start]
  induction keys with
  | nil => rfl
  | cons k keys ih => exact ih

/-- What is found in a table at a key: what the machine has there, unless the entry is one that `p` names. -/
def Vm.Shows (p : Int64 → Prop) (vm : Vm) (a : Nat) (k v : Value) : Prop :=
  v = vm.child (.table a) k ∨ ∃ j, k.key? = some j ∧ vm.Exempt p a j

theorem Vm.Shows.mono {p q : Int64 → Prop} {vm : Vm} {a : Nat} {k v : Value} (h : vm.Shows p a k v) (hpq : ∀ n, p n → q n) :
    vm.Shows q a k v := h.imp_right fun ⟨j, hk, table, n, hj, hn⟩ => ⟨j, hk, table, n, hj, hpq n hn⟩

theorem Vm.Shows.earlier {p q r : Int64 → Prop} {vm vm' : Vm} {a : Nat} {k v : Value} (h : vm'.Shows q a k v) (spares : vm.Spares p vm')
    (hp : ∀ n, p n → r n) (hq : ∀ n, q n → r n) : vm.Shows r a k v := by
  obtain rfl | ⟨j, hk, table, n, hj, hn⟩ := h
  · by_cases exempt : ∃ j, k.key? = some j ∧ vm.Exempt r a j
    · exact .inr exempt
    · refine .inl (Vm.child_congr fun j hj => spares.entry a j fun ⟨table, n, hn, named⟩ => ?_)
      exact exempt ⟨j, hj, table, n, hn, hp n named⟩
  · exact .inr ⟨j, hk, table.trans spares.registry, n, hj, hq n hn⟩

/-- A way leads to the same if the entries that it passes are the same. -/
theorem Vm.reach_congr {vm vm' : Vm} {v : Value} {keys : List Value}
    (h : ∀ b j, vm.Passes b j v keys → (vm'.tables.get b).get j = (vm.tables.get b).get j) : vm'.reach v keys = vm.reach v keys := by
  induction keys generalizing v with
  | nil => rfl
  | cons k keys ih =>
    by_cases table : ∃ a, v = .table a
    · obtain ⟨a, rfl⟩ := table
      have first : vm'.child (.table a) k = vm.child (.table a) k := Vm.child_congr fun j hj => h a j (.inl ⟨rfl, hj⟩)
      unfold Vm.reach
      rw [List.foldl_cons, List.foldl_cons, first]
      exact ih fun b j passes => h b j (.inr passes)
    · have nowhere (a : Nat) : v ≠ .table a := fun same => table ⟨a, same⟩
      rw [Vm.reach_nowhere nowhere, Vm.reach_nowhere nowhere]

end LuaHost.Lua

namespace LuaHost.Host

open Lua (M Vm Generation)

variable {g : Generation} {env : Env} {w w' : World} {vm vm' : Vm} {m registry runtime : Nat} {base : Array Lua.Value}

/-! ## Calls on the main stack -/

section Called

variable {P : Lua.Stack.Attempt (List Lua.Value) → Prop} {f : Lua.Value} {args : List Lua.Value} {target : Vm}

theorem Perform.pcall_gives {s : Lua.Sys World} (hs : s.vm.stack = base ++ (f :: args).toArray)
    (ends : Lua.Machine.Ends (runner env m) s f args P target) (n : Nat) :
    Lua.Gives s (perform env (.main m) (.pcall args.length n 0)) fun v vm => ∃ r, s.vm.Attempted P target r vm ∧
      v = .int ((Lua.leftBy n r).1.code s.vm.generation) ∧ vm.stack = base ++ (Lua.leftBy n r).2.toArray := by
  refine .bind (q := fun g vm => g = s.vm.generation ∧ vm = s.vm) ⟨_, _, rfl, rfl, rfl⟩ ?_
  rintro _ _ ⟨rfl, rfl⟩
  refine .bind (q := fun handler vm => handler = none ∧ vm = s.vm) ⟨_, _, rfl, rfl, rfl⟩ ?_
  rintro _ _ ⟨rfl, rfl⟩
  have wanted : (if (n : Int) < 0 then none else some (n : Int).toNat) = some n := by
    rw [if_neg (Int.not_lt.mpr (Int.natCast_nonneg n)), Int.toNat_natCast]
  rw [wanted, Int.toNat_natCast]
  refine .bind (Lua.protectedCall_gives hs ends n) ?_
  rintro status vm ⟨r, attempted, rfl, stack⟩
  exact .pure ⟨r, attempted, rfl, stack⟩

/-- A protected call leaves what it comes to in the place of the function and its arguments. -/
theorem runWith_pcall (env : Env) (runtime : Nat) (hm : w.machines.get m = .open vm) (hs : vm.stack = base ++ (f :: args).toArray)
    (ends : Lua.Machine.Ends (runner env m) (taken w m vm) f args P target) (n : Nat) :
    ∃ r vm', runWith runtime (some (.main m)) (fun _ => Binding.Api.pcall args.length n 0) env w =
        .ok (.int ((Lua.leftBy n r).1.code vm.generation)) (w.put m vm') ∧
      vm.Attempted P target r vm' ∧ vm'.stack = base ++ (Lua.leftBy n r).2.toArray := by
  obtain ⟨_, vm', run, r, attempted, rfl, stack⟩ := runWith_gives env runtime (c := fun _ => .pcall args.length n 0) id (fun _ => nofun)
    (fun _ => nofun) (fun _ => rfl) hm (Perform.pcall_gives (s := taken w m vm) hs ends n)
  exact ⟨r, vm', run, attempted, stack⟩

end Called

/-- Going on after a protected call, if its status is fine. Otherwise what it left is reported. -/
theorem status_on {β : Type} {status : Lua.Status} {generation : Generation} {rt : Binding.Runtime} {reporter : Nat} {a : β} {next : H β}
    {Q : β → World → Prop} {E : Failure → World → Prop} (hm : w.machines.get m = .open vm)
    (fine : status = .ok → Yields g env w next Q E) (lost : status ≠ .ok → ∀ w', (∃ w₁, w.Stirs m w₁ ∧ w₁.Tells w') → Q a w')
    (raised : status ≠ .ok → ∀ w', (∃ w₁, w.Stirs m w₁ ∧ w₁.Tells w') → ∀ e, E e w') :
    Yields g env w (if (Binding.Api.intOf (.int (status.code generation)) != codeOf rt .ok) = true then do
        reportTop reporter (Binding.Api.intOf (.int (status.code generation))) runtime (some (.main m))
        return a
      else next) Q E := by
  by_cases ok : status = .ok
  · have good : ¬ (Binding.Api.intOf (.int (status.code generation)) != codeOf rt .ok) = true := by
      rw [bne_iff_ne, Decidable.not_not, ok]
      rfl
    rw [if_neg good]
    exact fine ok
  · have bad : (Binding.Api.intOf (.int (status.code generation)) != codeOf rt .ok) = true :=
      bne_iff_ne.mpr (Lua.Status.code_ne_zero ok)
    rw [if_pos bad]
    exact .onward (reportTop_tells env hm _ _ _) (fun _ w' h => .of_ok rfl (lost ok w' h)) fun e w' h => raised ok w' h e

/-! ## One key -/

/-- A selector of machine `m` in a world where it can walk: there is no metatable, and nothing has been written into
numbered entries of the registry by programs. -/
structure Selector.Stands (g : Generation) (m : Nat) (s : Selector) (w : World) (vm : Vm) : Prop extends s.Poised g m w vm where
  plain : vm.Plain

namespace Selector

variable {s : Selector}

/-- A walk of the selector from a world has come to another one, where it can go on, with some stack. -/
structure Walks (g : Generation) (m : Nat) (s : Selector) (w : World) (vm : Vm) (stack : Array Lua.Value) (w' : World) (vm' : Vm) : Prop
    extends s.Paces g m w vm stack w' vm' where
  plain : vm'.Plain

theorem Paces.walks {stack : Array Lua.Value} (pace : s.Paces g m w vm stack w' vm') (plain : vm.Plain) : s.Walks g m w vm stack w' vm' :=
  ⟨pace, pace.spares.plain plain⟩

/-- Where a walk comes to, the selector can walk on. -/
theorem Stands.come (h : s.Stands g m w vm) {stack : Array Lua.Value} (comes : w.Comes g m s.registry stack w') (ready : w'.Ready g) :
    ∃ vm', s.Walks g m w vm stack w' vm' := by
  obtain ⟨vm', pace⟩ := h.toPoised.come comes ready.reliable
  exact ⟨vm', pace.walks h.plain⟩

namespace Walks

variable {stack : Array Lua.Value} (walk : s.Walks g m w vm stack w' vm')

include walk

theorem toStands : s.Stands g m w' vm' := ⟨walk.toPoised, walk.plain⟩

theorem trans (h : s.Stands g m w vm) {xs : Array Lua.Value} {w'' : World} {vm'' : Vm} (next : s.Walks g m w' vm' xs w'' vm'') :
    s.Walks g m w vm xs w'' vm'' :=
  (walk.toPaces.trans h.toPoised next.toPaces).walks h.plain

/-- What is found at a key was there before, unless the walk has written it. -/
theorem shows_ {w'' : World} (treads : w'.Treads g m s.registry w'') {a : Nat} {k v : Lua.Value}
    (h : vm'.Shows (w'.Books g s.registry w'') a k v) : vm.Shows (w.Books g s.registry w'') a k v :=
  h.earlier walk.spares (fun _ => treads.books_later) fun _ => walk.comes.books_earlier

end Walks

namespace Stands

section Steps

variable {β : Type} {next : Unit → H β} {Q : β → World → Prop} {E : Failure → World → Prop} (h : s.Stands g m w vm)

include h

/-- Going on after room has been made. -/
theorem room_on (n : Int) (k : ∀ w' vm', s.Walks g m w vm vm.stack w' vm' → Yields g env w' (next ()) Q E) :
    Yields g env w (discard (runWith s.runtime s.handle fun _ => Binding.Api.checkStack n) >>= next) Q E := by
  obtain ⟨w', vm', run, pace⟩ := h.room env n
  exact .after run (k w' vm' (pace.walks h.plain))

/-- Going on after a copy of the value below the top has been pushed. -/
theorem copy_on {v f : Lua.Value} (hs : vm.stack = base ++ [v, f].toArray)
    (k : ∀ w' vm', s.Walks g m w vm (vm.stack.push v) w' vm' → Yields g env w' (next ()) Q E) :
    Yields g env w (runWith s.runtime s.handle (fun _ => Binding.Api.pushValue (-2)) >>= next) Q E := by
  obtain ⟨w', vm', run, pace⟩ := h.copy env hs
  exact .after run (k w' vm' (pace.walks h.plain))

/-- Going on after a value of the host has been pushed, if it is not refused. -/
theorem host_on (he : env.Follows) (v : Value) (refused : ∀ e, Refuses w v e → E e w)
    (k : ∀ u w' vm', s.Walks g m w vm (vm.stack.push u) w' vm' → Denotes g m w w' v u → Yields g env w' (next ()) Q E) :
    Yields g env w (pushHost s.runtime s.handle v (some s.registry) >>= next) Q E := by
  obtain ⟨u, w', vm', run, pace, denotes⟩ | ⟨e, run, refuses⟩ := h.host he v
  · exact .after run (k u w' vm' (pace.walks h.plain) denotes)
  · exact .of_raised (bind_error run) (refused e refuses)

/-- Going on after the function of a chunk has been pushed, if that does not fail. -/
theorem chunk_on (he : env.Follows) {source : Text} (accessor : source = indexChunk ∨ source = assignChunk) {next : Bool → H β}
    (leads : ∀ pushed w', s.Goes w' → Leads env w' (next pushed)) (lost : ∀ w', w.Fails g m s.registry w' → Yields g env w' (next false) Q E)
    (failed : ∀ e w', w.Fails g m s.registry w' → E e w')
    (k : ∀ f w' vm', s.Walks g m w vm (vm.stack.push f) w' vm' → CompiledFrom vm' source f → Yields g env w' (next true) Q E) :
    Yields g env w (Registry.pushChunk s.registry source >>= next) Q E := by
  have first := (h.chunk env accessor).imp (fun _ _ h => h) fun e w' h => failed e w' h.1
  refine .bind he h.ready (.pushChunk _ _) first
    (fun pushed w' moves => leads pushed w' fun n hn => moves.continues.pairs (h.goes n hn)) fun pushed w' _ _ came => ?_
  cases pushed with
  | false => exact lost w' came.1
  | true =>
    obtain ⟨f, vm', pace, compiled⟩ := came
    exact k f w' vm' (pace.walks h.plain) compiled

end Steps

end Stands

/-- Calls the function of the index chunk, for the value and the key above it. -/
def fetch (s : Selector) : H (Option Int) := do
  let status := Binding.Api.intOf (← runWith s.runtime s.handle fun _ => Binding.Api.pcall 2 1 0)
  let rt ← H.runtime s.runtime
  if status != codeOf rt .ok then
    reportTop s.reporter status s.runtime s.handle
    return none
  return some (Binding.Api.intOf (← runWith s.runtime s.handle fun _ => Binding.Api.type (-1)))

/-- Looks a key up with the function that has been pushed. -/
def lookUp (s : Selector) (key : Value) : H (Option Int) := do
  runWith s.runtime s.handle fun _ => Binding.Api.pushValue (-2)
  pushHost s.runtime s.handle key (some s.registry)
  s.fetch

theorem pushEntry_eq (key : Value) : s.pushEntry key = (do
    discard (runWith s.runtime s.handle fun _ => Binding.Api.checkStack 4)
    if !(← Registry.pushChunk s.registry indexChunk) then return none
    s.lookUp key : H (Option Int)) := rfl

theorem fetch_leads (s : Selector) : Leads env w s.fetch := by
  refine .bind (.runWith _ _ fun _ => Ordinary.pcall _ _ _) fun status => .bind (.runtime _) fun rt => ?_
  split
  · exact .bind (.reportTop _ _ _ _) fun _ => .pure _
  · exact .bind (.runWith _ _ fun _ => Mute.type _) fun _ => .pure _

theorem lookUp_leads (goes : s.Goes w) (key : Value) : Leads env w (s.lookUp key) :=
  .bind (.runWith _ _ fun _ => Mute.pushValue _) fun _ => .bind (.pushHost _ _ _ _ (Leads.selector_pairs goes)) fun _ => s.fetch_leads

end Selector

/-- Where a walk along keys has come to: it was lost, and this was reported; or a value is on top of what was there and
of what lies between. -/
inductive World.Reaches (g : Generation) (m registry : Nat) (w : World) (stack : Array Lua.Value) (P : Lua.Value → World → Prop) :
    Option Int → World → Prop where
  | lost {w' : World} (fails : w.Fails g m registry w') : Reaches g m registry w stack P none w'
  | found {v : Lua.Value} {w' : World} (between : Array Lua.Value) (comes : w.Comes g m registry ((stack ++ between).push v) w') (h : P v w') :
    Reaches g m registry w stack P (some v.tag.code) w'

/-- What is reached from a world that a walk has come to. -/
theorem World.Reaches.after {xs ys : Array Lua.Value} {P Q : Lua.Value → World → Prop} {w₁ : World} {found : Option Int}
    (h : w₁.Reaches g m registry xs P found w') (treads : w.Treads g m registry w₁) (more : Array Lua.Value) (hs : xs = ys ++ more)
    (hq : ∀ v w', w₁.Treads g m registry w' → P v w' → Q v w') : w.Reaches g m registry ys Q found w' := by
  cases h with
  | lost fails => exact .lost (treads.fails fails)
  | @found v w' between comes hp =>
    refine .found (more ++ between) ⟨treads.trans comes.toTreads, ?_⟩ (hq v w' comes.toTreads hp)
    rw [← Array.append_assoc, ← hs]
    exact comes.stack

/-- The function of the index chunk gives what a table has at a key. -/
theorem index_runs {f u : Lua.Value} {a : Nat} (bare : (vm.tables.get a).metatable = none) (compiled : CompiledFrom vm Selector.indexChunk f) :
    Lua.Machine.Ends (runner env m) (taken w m vm) f [.table a, u] (· = .done [vm.child (.table a) u]) vm := by
  obtain ⟨bytes, encoded, address, f, c, rfl, inside, closure, made⟩ := compiled
  obtain ⟨f', n₀, n₁, l₀, l₁, made', names⟩ := indexChunk_compiles vm.generation
  have source : sourceOf Selector.indexChunk = upToNul bytes := by rw [sourceOf, encoded]
  rw [source] at made'
  cases made.symm.trans made'
  exact Lua.index_ends (s := taken w m vm) 399999978 bare inside closure names

namespace Selector

variable {s : Selector} (h : s.Stands g m w vm)

include h

/-- What the table has at the key takes the place of both and of the function. Otherwise this is reported. -/
theorem fetch_yields {a : Nat} {f u : Lua.Value} (hs : vm.stack = base ++ [f, .table a, u].toArray) (compiled : CompiledFrom vm indexChunk f) :
    Yields g env w s.fetch (w.Reaches g m s.registry base fun v _ => v = vm.child (.table a) u) fun _ => w.Fails g m s.registry := by
  obtain ⟨r, vm', called, attempted, stack⟩ := runWith_pcall env s.runtime h.opened hs (index_runs (h.plain a) compiled) 1
  have akin : vm.Akin vm' := attempted.akin
  have stirs : w.Stirs m (w.put m vm') := .put h.opened akin attempted.natives
  unfold fetch
  rw [h.handle]
  refine .after called (.runtime (status_on (World.get_put w m vm') (fun ok => ?_) (fun _ w' told => .lost (stirs.fails h.opened told))
    fun _ w' told _ => stirs.fails h.opened told))
  obtain ⟨rfl, -⟩ := attempted.done ok
  have top : Lua.Stack.value? 0 (int32 (-1)) (taken (w.put m vm') m vm') = .ok (some (vm.child (.table a) u)) (taken (w.put m vm') m vm') :=
    Lua.Stack.value?_below (s := taken (w.put m vm') m vm') stack (by decide : 0 < 9999)
  have comes : w.Comes g m s.registry ((base ++ #[]).push (vm.child (.table a) u)) (w.put m vm') :=
    .put h.opened ⟨akin, attempted.natives, by rw [Array.append_empty, Array.push_eq_append]; exact stack⟩
  exact .after (runWith_typeAt (t := .main m) (World.get_put w m vm') top) (.of_ok rfl (.found #[] comes rfl))

variable (he : env.Follows)

include he

theorem lookUp_yields {a : Nat} {f : Lua.Value} (hs : vm.stack = base ++ [.table a, f].toArray) (compiled : CompiledFrom vm indexChunk f)
    (key : Value) : Yields g env w (s.lookUp key)
      (w.Reaches g m s.registry (base.push (.table a)) fun v w' => ∃ u, Denotes g m w w' key u ∧ vm.Shows (w.Books g s.registry w') a u v)
      fun _ => w.Fails g m s.registry := by
  refine h.copy_on hs fun w₁ vm₁ first => first.toStands.host_on he key
    (fun _ _ => first.comes.fails ⟨w₁, .refl _, .refl _⟩) fun u w₂ vm₂ second denotes => ?_
  have walk := first.trans h second
  have stack : vm₂.stack = base.push (.table a) ++ [f, .table a, u].toArray := by
    rw [walk.stack, first.stack, hs]
    simp
  refine (fetch_yields walk.toStands stack (walk.compiled compiled)).imp (fun found w' reached => ?_) fun _ _ => walk.comes.fails
  refine reached.after walk.comes.toTreads #[] Array.append_empty.symm fun v w' treads here => ⟨u, ?_, ?_⟩
  · exact (first.denotes h.ready denotes).later treads.functions
  · exact walk.shows_ treads (.inl here)

/-- A key is looked up in a table that is on top. -/
theorem pushEntry_yields {a : Nat} (hs : vm.stack = base.push (.table a)) (key : Value) : Yields g env w (s.pushEntry key)
      (w.Reaches g m s.registry vm.stack fun v w' => ∃ u, Denotes g m w w' key u ∧ vm.Shows (w.Books g s.registry w') a u v)
      fun _ => w.Fails g m s.registry := by
  rw [pushEntry_eq]
  refine h.room_on 4 fun w₁ vm₁ first => first.toStands.chunk_on he (.inl rfl) (fun pushed w' goes => ?_)
    (fun w' fails => .of_ok rfl (.lost (first.comes.fails fails))) (fun _ w' => first.comes.fails) fun f w₂ vm₂ second compiled => ?_
  · cases pushed with
    | false => exact .pure _
    | true => exact lookUp_leads goes key
  have walk := first.trans h second
  have stack : vm₂.stack = base ++ [.table a, f].toArray := by
    rw [walk.stack, first.stack, hs]
    exact Array.toList_inj.mp (by simp)
  refine (lookUp_yields walk.toStands he stack compiled key).imp (fun found w' reached => ?_) fun _ _ => walk.comes.fails
  refine reached.after walk.comes.toTreads #[] (by rw [Array.append_empty, hs]) fun v w' treads here => ?_
  obtain ⟨u, denotes, there⟩ := here
  exact ⟨u, walk.denotes h.ready denotes, walk.shows_ treads there⟩

end Selector

/-! ## Chains of keys -/

/-- What a value leads to through keys of the host: at each table what is found there; and nil at once from a value
that is no table. -/
inductive World.Chain (g : Generation) (m registry : Nat) (w w' : World) (vm : Vm) : Lua.Value → List Value → Lua.Value → Prop where
  | here (v : Lua.Value) : Chain g m registry w w' vm v [] v
  | astray {v : Lua.Value} (h : ∀ a, v ≠ .table a) (key : Value) (keys : List Value) : Chain g m registry w w' vm v (key :: keys) .nil
  | entry {a : Nat} {key : Value} {u v v' : Lua.Value} {keys : List Value} (denotes : Denotes g m w w' key u)
    (there : vm.Shows (w.Books g registry w') a u v) (rest : Chain g m registry w w' vm v keys v') :
    Chain g m registry w w' vm (.table a) (key :: keys) v'

namespace World.Chain

variable {v v' : Lua.Value} {keys : List Value}

/-- A chain that ends at a table has been followed to its end. If it passes no entry that the walk has written, it leads where
it led before. -/
theorem reach (h : w.Chain g m registry w' vm v keys v') (ends : v' ≠ .nil) : ∃ us, List.Forall₂ (Denotes g m w w') keys us ∧
    ((∀ b j, vm.Passes b j v us → ¬ vm.Exempt (w.Books g registry w') b j) → vm.reach v us = v') := by
  induction h with
  | here v => exact ⟨[], .nil, fun _ => rfl⟩
  | astray => exact absurd rfl ends
  | @entry a key u v v' keys denotes there rest ih =>
    obtain ⟨us, all, leads⟩ := ih ends
    refine ⟨u :: us, .cons denotes all, fun apart => ?_⟩
    obtain rfl | ⟨j, hj, exempt⟩ := there
    · exact leads fun b j passes => apart b j (.inr passes)
    · exact absurd exempt (apart a j (.inl ⟨rfl, hj⟩))

end World.Chain

namespace Selector

variable {s : Selector}

/-- A chain that goes on from where a walk has come to. -/
theorem Walks.chain {stack : Array Lua.Value} {w'' : World} {v v' : Lua.Value} {keys : List Value} (ready : w.Ready g)
    (walk : s.Walks g m w vm stack w' vm') (treads : w'.Treads g m s.registry w'') (h : w'.Chain g m s.registry w'' vm' v keys v') :
    w.Chain g m s.registry w'' vm v keys v' := by
  induction h with
  | here v => exact .here v
  | astray h key keys => exact .astray h key keys
  | entry denotes there _ ih => exact .entry (walk.denotes ready denotes) (walk.shows_ treads there) ih

variable (he : env.Follows)

include he

/-- The keys of a chain are followed. -/
theorem pushKeys_yields {v : Lua.Value} {tag : Int} (h : s.Stands g m w vm) (hs : vm.stack = base.push v) (ht : tag = v.tag.code)
    (keys : List Value) : Yields g env w (s.pushKeys tag keys)
      (w.Reaches g m s.registry base fun v' w' => w.Chain g m s.registry w' vm v keys v')
      fun _ => w.Fails g m s.registry := by
  induction keys generalizing w vm base v tag with
  | nil =>
    subst ht
    exact .of_ok rfl (.found #[] ⟨.refl w, vm, h.opened, by rw [Array.append_empty, hs]⟩ (.here v))
  | cons key keys ih =>
    unfold pushKeys
    by_cases table : ∃ a, v = .table a
    · obtain ⟨a, rfl⟩ := table
      have five : ¬ (tag != 5) = true := by
        rw [ht]
        exact Bool.false_ne_true
      rw [if_neg five]
      refine .bind he h.ready (.pushEntry h.goes key) (pushEntry_yields h he hs key) (fun found w' moves => ?_) fun found w' ready moves reached => ?_
      · split
        · exact .pure _
        · exact .pushKeys (fun n hn => moves.continues.pairs (h.goes n hn)) _ _
      cases reached with
      | lost fails => exact .of_ok rfl (.lost fails)
      | @found v₁ _ between comes found =>
        obtain ⟨u, denotes, there⟩ := found
        obtain ⟨vm', walk⟩ := h.come comes ready
        refine (ih walk.toStands walk.stack rfl).imp (fun found w'' reached => ?_) fun _ _ => comes.fails
        refine reached.after comes.toTreads (#[.table a] ++ between) ?_ fun v' w₂ treads chain => ?_
        · rw [hs, Array.push_eq_append, Array.append_assoc]
        · exact .entry (denotes.later treads.functions) (there.mono fun _ => treads.books_later) (walk.chain h.ready treads chain)
    · have other : (tag != 5) = true := by
        rw [bne_iff_ne, ht]
        exact fun same => table (Lua.Value.table_of_code same)
      obtain ⟨w', vm', run, pace⟩ := h.nothing env
      have comes := pace.comes
      rw [hs, Array.push_eq_append (a := v)] at comes
      rw [if_pos other]
      exact .after run (.of_ok rfl (.found #[v] comes (.astray (fun a same => table ⟨a, same⟩) key keys)))

/-- The keys are followed from the globals, if these are a table. -/
theorem push_yields {a : Nat} (h : s.Stands g m w vm) (globals : vm.globalTable = .table a) (keys : List Value) :
    Yields g env w (s.push keys)
      (w.Reaches g m s.registry vm.stack fun v w' => w.Chain g m s.registry w' vm (.table a) keys v)
      fun _ => w.Fails g m s.registry := by
  obtain ⟨w₁, vm', pushed, pace⟩ := h.globals env
  have walk := pace.walks h.plain
  rw [globals] at walk
  unfold push
  refine .after pushed ((pushKeys_yields he walk.toStands walk.stack rfl keys).imp (fun found w' reached => ?_) fun _ _ => pace.comes.fails)
  exact reached.after pace.comes.toTreads #[] Array.append_empty.symm fun v w' treads => walk.chain h.ready treads

end Selector

end LuaHost.Host
