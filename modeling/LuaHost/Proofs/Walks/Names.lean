import LuaHost.Proofs.Walks.Stacks
import LuaHost.Session.Run

set_option autoImplicit false

/-!
# The names of the globals

The names are found by a traversal with the table, the key and the value of one entry on the stack: the
key that the traversal goes on from is the one that it was given, so it shows every entry once. It
leaves nothing behind.
-/

namespace LuaHost.Lua

/-! ## Traversal orders -/

namespace Table

/-- No two entries have one key. -/
def Distinct (t : Table) : Prop := (t.entries.map Entry.key).Nodup

instance (t : Table) : Decidable t.Distinct := inferInstanceAs (Decidable (List.Nodup _))

theorem mem_keys_assign {k j : Key} {shown v : Value} {hk : shown.key? = some k} {es : List Entry}
    (h : j ∈ (assign k shown v hk es).map Entry.key) : j = k ∨ j ∈ es.map Entry.key := by
  induction es with
  | nil =>
    unfold assign at h
    split at h
    · cases h
    · exact .inl (List.mem_singleton.mp h)
  | cons e es ih =>
    unfold assign at h
    split at h
    · exact .inr h
    · rcases List.mem_cons.mp h with rfl | h
      · exact .inr List.mem_cons_self
      · exact (ih h).imp_right (List.mem_cons_of_mem _)

/-- An assignment gives no key a second entry. -/
theorem Distinct.set {t : Table} (h : t.Distinct) (k : Key) (shown v : Value) (hk : shown.key? = some k) :
    (t.set k shown v hk).Distinct := by
  change ((assign k shown v hk t.entries).map Entry.key).Nodup
  replace h : (t.entries.map Entry.key).Nodup := h
  generalize t.entries = es at h ⊢
  induction es with
  | nil =>
    unfold assign
    split
    · exact List.nodup_nil
    · exact List.nodup_singleton _
  | cons e es ih =>
    obtain ⟨new, rest⟩ := List.nodup_cons.mp h
    unfold assign
    split
    · exact h
    · next other =>
      refine List.nodup_cons.mpr ⟨fun again => ?_, ih rest⟩
      exact (mem_keys_assign again).elim other new

theorem lookup_of_notMem {k : Key} {es : List Entry} (h : k ∉ es.map Entry.key) : lookup k es = .nil := by
  induction es with
  | nil => rfl
  | cons e es ih =>
    have other : e.key ≠ k := fun same => h (same ▸ List.mem_cons_self)
    unfold lookup
    rw [if_neg other]
    exact ih fun mem => h (List.mem_cons_of_mem _ mem)

theorem lookup_of_mem {e : Entry} {es : List Entry} (distinct : (es.map Entry.key).Nodup) (h : e ∈ es) :
    lookup e.key es = e.value := by
  induction es with
  | nil => cases h
  | cons d es ih =>
    obtain ⟨new, rest⟩ := List.nodup_cons.mp distinct
    unfold lookup
    rcases List.mem_cons.mp h with rfl | h
    · rw [if_pos rfl]
    · have other : d.key ≠ e.key := fun same => new (same ▸ List.mem_map_of_mem h)
      rw [if_neg other]
      exact ih rest h

/-- The present entries are the keys that have a value, each with its value. -/
theorem Distinct.mem_present {t : Table} (h : t.Distinct) (k : Key) (v : Value) :
    (∃ e ∈ t.present, e.key = k ∧ e.value = v) ↔ t.get k = v ∧ v ≠ .nil := by
  constructor
  · rintro ⟨e, mem, rfl, rfl⟩
    obtain ⟨mem, full⟩ := List.mem_filter.mp mem
    refine ⟨lookup_of_mem h mem, fun empty => ?_⟩
    rw [empty] at full
    cases full
  · rintro ⟨rfl, full⟩
    by_cases mem : k ∈ t.entries.map Entry.key
    · obtain ⟨e, there, rfl⟩ := List.mem_map.mp mem
      have value : t.get e.key = e.value := lookup_of_mem h there
      rw [value] at full ⊢
      refine ⟨e, List.mem_filter.mpr ⟨there, ?_⟩, rfl, rfl⟩
      cases v : e.value <;> first | rfl | exact absurd v full
    · exact absurd (lookup_of_notMem mem) full

theorem firstPresent_eq_none {es : List Entry} (h : firstPresent es = none) : es.filter (fun e => !e.value.isNil) = [] := by
  induction es with
  | nil => rfl
  | cons e es ih =>
    unfold firstPresent at h
    split at h
    · next empty =>
      rw [List.filter_cons_of_neg (by simp [empty])]
      exact ih h
    · cases h

theorem firstPresent_eq_some {es : List Entry} {e : Entry} (h : firstPresent es = some e) :
    ∃ skipped rest, es = skipped ++ e :: rest ∧
      es.filter (fun e => !e.value.isNil) = e :: rest.filter fun e => !e.value.isNil := by
  induction es with
  | nil => cases h
  | cons d es ih =>
    unfold firstPresent at h
    split at h
    · next empty =>
      obtain ⟨skipped, rest, rfl, present⟩ := ih h
      refine ⟨d :: skipped, rest, rfl, ?_⟩
      rw [List.filter_cons_of_neg (by simp [empty])]
      exact present
    · next full =>
      cases h
      exact ⟨[], es, rfl, List.filter_cons_of_pos (by simp [full])⟩

theorem after_append {before rest : List Entry} {e : Entry} (h : ((before ++ e :: rest).map Entry.key).Nodup) :
    after e.key (before ++ e :: rest) = some rest := by
  induction before with
  | nil => exact if_pos rfl
  | cons d before ih =>
    obtain ⟨new, distinct⟩ := List.nodup_cons.mp h
    have other : d.key ≠ e.key := fun same => new (same ▸ List.mem_map_of_mem (List.mem_append_right _ List.mem_cons_self))
    exact (if_neg other).trans (ih distinct)

end Table

section Steps

variable {σ : Type} {s : Sys σ}

/-- What a step of a traversal leaves above a table. -/
def shownAbove (below : Array Value) : Option Entry → Array Value
  | none => below
  | some e => (below.push e.shown).push e.value

/-- A step of a traversal: from the key on top to the entry that follows it. -/
theorem Gives.next {base : Array Value} {a : Nat} {key : Value} {found : Option Entry}
    (h : s.vm.stack = (base.push (.table a)).push key) (hn : (s.vm.tables.get a).next key.key? = some found) :
    Gives s (Stack.next 0 (-2)) fun more vm =>
      more = found.isSome ∧ s.vm.Restacks (shownAbove (base.push (.table a)) found) vm := by
  have table : Stack.tableAt 0 (-2) s = .ok a s := by
    unfold Stack.tableAt
    simp only [Bind.bind, EStateM.bind, Stack.value_eq, s.vm.at_second h]
    rfl
  let s' : Sys σ := { s with vm := s.vm.withThread fun th => { th with stack := s.vm.stack.pop } }
  have popped : Stack.pop 0 s = .ok key s' := by
    have top : s.vm.stack.back?.getD .nil = key := by rw [h, Array.back?_push, Option.getD_some]
    exact congrArg (EStateM.Result.ok · _) top
  have taken : s.vm.Restacks (base.push (.table a)) s'.vm :=
    .of_thread s.vm _ (s.vm.threads.get 0).overdrawn (by rw [h, Array.pop_push])
  have entry : Base.nextEntry a key s' = match found with
      | none => .ok [.nil] s'
      | some e => .ok [e.shown, e.value] s' := by
    unfold Base.nextEntry
    simp only [M.table, Bind.bind, EStateM.bind, taken.tables, hn]
    cases found <;> rfl
  unfold Stack.next
  simp only [Gives, Bind.bind, EStateM.bind, table, popped, entry]
  cases found with
  | none => exact ⟨_, _, rfl, rfl, taken⟩
  | some e =>
    have first := Vm.Restacks.pushed s'.vm e.shown
    have second := Vm.Restacks.pushed (s'.vm.pushed 0 e.shown) e.value
    rw [taken.stack] at first
    rw [first.stack] at second
    exact ⟨_, _, rfl, rfl, (taken.trans first).trans second⟩

end Steps

end LuaHost.Lua

namespace LuaHost.Host

open Lua (M Vm Gives Table)
open Binding (Call Program Runtime)

/-- The name of a key: a string as a text, a number as a double in its general form. -/
def keyName (r : Runtime) : Lua.Value → Option Text
  | .str b => some (if r.hidesTexts then Text.empty else Text.ofUtf8 b)
  | .int n => some (Number.general 6 (Double.ofInt n.toInt))
  | .float x => some (Number.general 6 x)
  | .nil | .bool _ | .table _ | .closure _ | .native _ _ | .userdata _ | .thread _ => none

variable {env : Env} {w : World} {vm : Vm} {m runtime : Nat} {base : Array Lua.Value} {v top : Lua.Value}

/-! ## One entry -/

section Entries

variable (env : Env) (runtime : Nat) (hm : w.machines.get m = .open vm)

include hm

theorem runWith_next {a : Nat} {key : Lua.Value} {found : Option Lua.Entry} (hs : vm.stack = (base.push (.table a)).push key)
    (hn : (vm.tables.get a).next key.key? = some found) :
    ∃ vm', runWith runtime (some (.main m)) (fun _ => Binding.Api.next (-2)) env w =
        .ok (.int (if found.isSome then 1 else 0)) (w.put m vm') ∧
      vm.Restacks (Lua.shownAbove (base.push (.table a)) found) vm' := by
  have gives : Gives (taken w m vm) (perform env (.main m) (.next (-2))) fun more vm' =>
      more = .int (if found.isSome then 1 else 0) ∧ vm.Restacks (Lua.shownAbove (base.push (.table a)) found) vm' := by
    unfold perform
    refine .bind (q := fun _ vm' => vm' = vm) ⟨_, _, rfl, rfl⟩ ?_
    rintro _ _ rfl
    exact .bind (Gives.next hs hn) fun more vm' h => .pure ⟨by rw [h.1], h.2⟩
  obtain ⟨more, vm', run, rfl, restacks⟩ := runWith_gives env runtime (c := fun _ => .next (-2)) id (fun _ => nofun)
    (fun _ => nofun) (fun _ => rfl) hm gives
  exact ⟨vm', run, restacks⟩

end Entries

/-! ## The traversal -/

/-- The name of a key below the top of the stack, found by its type. -/
theorem runWith_name (env : Env) {s : State} (hm : w.machines.get m = .open vm) (machine : s.machine = some m)
    (hs : vm.stack = (base.push v).push top) {α : Type} (next : List Text → H α) :
    (runWith s.runtime s.handle (fun _ => Binding.Api.type (-2)) >>= fun tag =>
      (if Binding.Api.intOf tag == 4 then
        runWith s.runtime s.handle (fun r => Binding.Api.toText r (-2)) >>= fun t => next [t.getD Text.empty]
      else if Binding.Api.intOf tag == 3 then
        runWith s.runtime s.handle (fun _ => Binding.Api.toNumber (-2)) >>= fun x => next [State.numberName x]
      else next []) : H α) env w = next (keyName (w.runtimes.get s.runtime) v).toList env w := by
  have found : Lua.Stack.value? (Handle.main m).thread (int32 (-2)) (taken w m vm) = .ok (some v) (taken w m vm) := by
    have below : vm.stack = base ++ [v, top].toArray := hs.trans (Array.toList_inj.mp (by simp))
    exact Lua.Stack.value?_below (s := taken w m vm) below (by decide : 1 < 9999)
  have handle : s.handle = some (.main m) := by rw [State.handle, machine, Option.map_some]
  have number (x : Float) (hx : Lua.Arith.toFloat? vm.generation v = some x) :
      runWith s.runtime (some (.main m)) (fun _ => Binding.Api.toNumber (-2)) env w = .ok (.float x) w := by
    refine (runWith_numberAt hm found).trans ?_
    rw [hx, Option.getD_some]
  rw [handle, bind_ok (runWith_typeAt hm found)]
  cases v with
  | str b =>
    refine (bind_ok (runWith_textAt hm found rfl)).trans ?_
    unfold keyName
    split <;> rfl
  | int n => exact bind_ok (number _ rfl)
  | float x => exact bind_ok (number _ rfl)
  | _ => rfl

theorem namesFrom_walks (env : Env) {s : State} (machine : s.machine = some m) {a : Nat} (before : List Lua.Entry) (fuel : Nat)
    (rest : List Lua.Entry) (enough : rest.length < fuel) {key : Lua.Value} (hm : w.machines.get m = .open vm)
    (hs : vm.stack = (base.push (.table a)).push key) (distinct : (vm.tables.get a).Distinct) (entries : (vm.tables.get a).entries = before ++ rest)
    (shown : (vm.tables.get a).next key.key? = some (Table.firstPresent rest)) :
    ∃ vm', s.namesFrom fuel env w =
        .ok ((rest.filter fun e => !e.value.isNil).filterMap fun e => keyName (w.runtimes.get s.runtime) e.shown) (w.put m vm') ∧
      vm.Restacks (base.push (.table a)) vm' := by
  have handle : s.handle = some (.main m) := by rw [State.handle, machine, Option.map_some]
  induction fuel generalizing w vm key before rest with
  | zero => exact absurd enough (Nat.not_lt_zero _)
  | succ fuel ih =>
    obtain ⟨vm₁, stepped, restacks⟩ := runWith_next env s.runtime hm hs shown
    unfold State.namesFrom
    rw [← handle] at stepped
    dsimp only
    rw [bind_ok stepped]
    cases first : Table.firstPresent rest with
    | none =>
      rw [first] at restacks
      rw [Table.firstPresent_eq_none first]
      exact ⟨vm₁, rfl, restacks⟩
    | some e =>
      rw [first] at restacks
      obtain ⟨skipped, rest', rfl, present⟩ := Table.firstPresent_eq_some first
      have named := runWith_name env (World.get_put w m vm₁) machine restacks.stack fun name =>
        runWith s.runtime s.handle (fun _ => Binding.Api.pop 1) >>= fun _ => s.namesFrom fuel >>= fun names =>
          (Pure.pure (name ++ names) : H (List Text))
      obtain ⟨vm₂, dropped, back⟩ := runWith_drop env s.runtime (World.get_put w m vm₁) restacks.stack
      rw [World.put_put, ← handle] at dropped
      have at_key := restacks.trans back
      have keys : ((before ++ skipped ++ e :: rest').map Lua.Entry.key).Nodup := by
        rw [List.append_assoc, ← entries]
        exact distinct
      have next : (vm.tables.get a).next e.shown.key? = some (Table.firstPresent rest') := by
        rw [e.keyed, Table.next, entries, ← List.append_assoc]
        exact congrArg (Option.map Table.firstPresent) (Table.after_append keys)
      rw [← at_key.tables] at next distinct entries
      obtain ⟨vm₃, names, ends⟩ := ih (before ++ skipped ++ [e]) rest' (by simp at enough; omega) (World.get_put w m vm₂)
        at_key.stack distinct (by simp [entries]) next
      rw [World.put_put] at names
      refine ⟨vm₃, named.trans ?_, at_key.trans ends⟩
      rw [bind_ok dropped, bind_ok names, present, List.filterMap_cons]
      change EStateM.Result.ok ((keyName (w.runtimes.get s.runtime) e.shown).toList ++ _) _ = _
      cases keyName (w.runtimes.get s.runtime) e.shown <;> rfl

theorem entryCount_top (env : Env) {a : Nat} (hm : w.machines.get m = .open vm) (hs : vm.stack = base.push (.table a)) :
    State.entryCount (.main m) (-1) env w = .ok (vm.tables.get a).entries.length w := by
  have below : vm.stack = base ++ [.table a].toArray := hs.trans (Array.toList_inj.mp (by simp))
  have top : vm.at (-1) = .table a := Lua.Vm.at_below below (by decide : 0 < 9999)
  have count : (do return (← M.table (← Lua.Stack.tableAt 0 (-1))).entries.length : M World Nat) (taken w m vm) =
      .ok (vm.tables.get a).entries.length (taken w m vm) := by
    unfold Lua.Stack.tableAt
    simp only [Bind.bind, EStateM.bind, Lua.Stack.value_eq]
    rw [show (taken w m vm).vm.at (-1) = .table a from top]
    rfl
  exact (onMachine_ok hm count).trans (congrArg _ (putBack_taken hm))

/-- The names of the globals are those of the present entries of the globals that have a string or a number
for a key, one name for each, in the order of the traversal. The entries are the keys that have a value,
and each is there once. Nothing of the machine changes: no entry of any table, no stack, no variable, so
no metamethod has run. That no key has two entries is what a traversal relies on. -/
theorem globalNames_enumerates (env : Env) {w : World} {vm : Vm} {m a : Nat} {s : State} (machine : s.machine = some m)
    (hm : w.machines.get m = .open vm) (hg : (w.runtimes.get s.runtime).generation = vm.generation)
    (small : vm.stack.size < 0x80000000) (globals : vm.globalTable = .table a) (distinct : (vm.tables.get a).Distinct) :
    (∃ overdrawn, s.globalNames env w =
      .ok ((vm.tables.get a).present.filterMap fun e => keyName (w.runtimes.get s.runtime) e.shown)
        (w.put m (vm.withThread fun th => { th with overdrawn }))) ∧
    ((vm.tables.get a).present.map Lua.Entry.key).Nodup ∧
    ∀ k v, (∃ e ∈ (vm.tables.get a).present, e.key = k ∧ e.value = v) ↔ (vm.tables.get a).get k = v ∧ v ≠ .nil := by
  have handle : s.handle = some (.main m) := by rw [State.handle, machine, Option.map_some]
  refine ⟨?_, List.Nodup.sublist (List.filter_sublist.map _) distinct, distinct.mem_present⟩
  have first := Lua.Vm.Restacks.pushed vm (.table a)
  have pushed : runWith s.runtime (some (.main m)) Binding.Api.pushGlobals env w = .ok () (w.put m (vm.pushed 0 (.table a))) := by
    rw [← globals]
    exact runWith_globals env (t := .main m) hm hg
  have count := entryCount_top env (World.get_put w m (vm.pushed 0 (.table a))) first.stack
  rw [first.tables] at count
  have second := first.trans (first.stack ▸ Lua.Vm.Restacks.pushed (vm.pushed 0 (.table a)) .nil)
  have started : runWith s.runtime (some (.main m)) (fun _ => Binding.Api.pushNil) env (w.put m (vm.pushed 0 (.table a))) =
      .ok () (w.put m ((vm.pushed 0 (.table a)).pushed 0 .nil)) :=
    (runWith_pushes (c := fun _ => .pushNil) s.runtime (fun _ => nofun) (fun _ => nofun) (fun _ => rfl)
      (World.get_put w m (vm.pushed 0 (.table a))) rfl).trans (congrArg _ (World.put_put w m _ _))
  obtain ⟨vm₁, names, walked⟩ := namesFrom_walks env machine [] ((vm.tables.get a).entries.length + 1)
    (vm.tables.get a).entries (Nat.lt_succ_self _) (World.get_put w m ((vm.pushed 0 (.table a)).pushed 0 .nil)) second.stack
    distinct rfl rfl
  have third := second.trans walked
  obtain ⟨vm₂, dropped, back⟩ := runWith_drop env s.runtime (World.get_put w m vm₁) third.stack
  have fourth := third.trans back
  simp only [World.put_put] at names dropped
  have body : (runWith s.runtime (some (.main m)) Binding.Api.pushGlobals >>= fun _ =>
      State.entryCount (.main m) (-1) >>= fun count =>
      runWith s.runtime (some (.main m)) (fun _ => Binding.Api.pushNil) >>= fun _ =>
      s.namesFrom (count + 1) >>= fun names =>
      runWith s.runtime (some (.main m)) (fun _ => Binding.Api.pop 1) >>= fun _ => Pure.pure names : H (List Text)) env w = 
      .ok ((vm.tables.get a).present.filterMap fun e => keyName (w.runtimes.get s.runtime) e.shown) (w.put m vm₂) := by
    rw [bind_ok pushed, bind_ok count, bind_ok started, bind_ok names, bind_ok dropped]
    rfl
  obtain ⟨vm₃, run, last⟩ := guarded_ok s.runtime hm small (World.get_put w m vm₂)
    (fourth.stack.trans Array.append_empty.symm) body
  obtain ⟨overdrawn, rfl⟩ := fourth.trans last
  refine ⟨overdrawn, ?_⟩
  unfold State.globalNames
  rw [handle]
  rw [World.put_put] at run
  refine run.trans (congrArg (fun vm => EStateM.Result.ok _ (w.put m vm)) ?_)
  simp only [Lua.Vm.withThread, Pool.modify_eq_put]
  rfl

/-- Globals with a metatable, and keys of several types: one is no text, and one entry is gone. -/
def mixedGlobals : Table :=
  ⟨[⟨.str "x".toUTF8, .str "x".toUTF8, .bool true, rfl⟩, ⟨.str ⟨#[0xFF]⟩, .str ⟨#[0xFF]⟩, .table 1, rfl⟩,
    ⟨.int 7, .int 7, .nil, rfl⟩, ⟨.int 8, .int 8, .table 1, rfl⟩, ⟨.bool true, .bool true, .int 1, rfl⟩], some 0, 0⟩

def mixedVm : Vm := { Lua.Stack.newMachine .v54 with tables := (Lua.Stack.newMachine .v54).tables.put 1 mixedGlobals }

def mixedWorld : World := { Session.start .v54 with machines := Pool.empty.put 0 (.open mixedVm) }

theorem globalNames_enumerates_mixed :
    (mixedWorld.machines.get 0 = .open mixedVm ∧ mixedVm.stack.size < 0x80000000 ∧ mixedVm.globalTable = .table 1 ∧
      (mixedVm.tables.get 1).Distinct) ∧
    (∃ overdrawn, State.globalNames ⟨some 0, true, .default, 0, 0, 0⟩ Env.full mixedWorld =
      .ok ((mixedVm.tables.get 1).present.filterMap fun e => keyName (mixedWorld.runtimes.get 0) e.shown)
        (mixedWorld.put 0 (mixedVm.withThread fun th => { th with overdrawn }))) ∧
    ((mixedVm.tables.get 1).present.map Lua.Entry.key).Nodup ∧
    ∀ k v, (∃ e ∈ (mixedVm.tables.get 1).present, e.key = k ∧ e.value = v) ↔ (mixedVm.tables.get 1).get k = v ∧ v ≠ .nil := by
  have hm : mixedWorld.machines.get 0 = .open mixedVm := Pool.get_put_self _ _ _
  have table : mixedVm.tables.get 1 = mixedGlobals := Pool.get_put_self _ _ _
  have distinct : (mixedVm.tables.get 1).Distinct := by
    rw [table]
    decide
  have small : mixedVm.stack.size < 0x80000000 := by decide
  have globals : mixedVm.globalTable = .table 1 := by rfl
  exact ⟨⟨hm, small, globals, distinct⟩, globalNames_enumerates Env.full rfl hm rfl small globals distinct⟩

end LuaHost.Host
