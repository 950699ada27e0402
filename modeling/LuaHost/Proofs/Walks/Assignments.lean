import LuaHost.Proofs.Walks.Keys

set_option autoImplicit false

/-!
# Assignments through selectors

An assignment sets one entry of one table, found by following all keys but the last. What else is written are the
numbered entries of the registry that the walk takes for the chunks that it compiles.
-/

namespace LuaHost.Lua

/-- One entry of one table has been set, and all others are as they were, but for numbered entries of the registry that
`p` names. -/
structure Vm.Writes (p : Int64 → Prop) (vm : Vm) (a : Nat) (j : Key) (x : Value) (vm' : Vm) : Prop where
  entry : (vm'.tables.get a).get j = x
  others : ∀ b i, ¬ (b = a ∧ i = j) → ¬ vm.Exempt p b i → (vm'.tables.get b).get i = (vm.tables.get b).get i
  metatable : ∀ b, (vm'.tables.get b).metatable = (vm.tables.get b).metatable

namespace Vm.Writes

variable {a b c : Vm} {p : Int64 → Prop} {n : Nat} {j : Key} {x : Value}

theorem assign (vm : Vm) {k : Value} (n : Nat) (x : Value) (hk : k.key? = some j) : vm.Writes p n j x (vm.assign n k x hk) where
  entry := by
    rw [Vm.assign, Pool.get_modify_self]
    exact Table.get_set_self _ _ _ _ _
  others := fun t i other _ => by
    by_cases same : t = n
    · subst same
      rw [Vm.assign, Pool.get_modify_self]
      exact Table.get_set_ne _ _ _ (fun hi => other ⟨rfl, hi⟩) _ _ _
    · rw [Vm.assign, Pool.get_modify_ne _ same]
  metatable := fun t => by
    by_cases same : t = n
    · subst same
      rw [Vm.assign, Pool.get_modify_self]
      rfl
    · rw [Vm.assign, Pool.get_modify_ne _ same]

theorem after (h : a.Spares p b) (k : b.Writes p n j x c) : a.Writes p n j x c where
  entry := k.entry
  others := fun t i other spared => by
    refine (k.others t i other fun ⟨ht, num, hi, hn⟩ => spared ⟨?_, num, hi, hn⟩).trans (h.entry t i spared)
    exact ht.trans h.registry
  metatable := fun t => (k.metatable t).trans (h.metatable t)

theorem akin (h : a.Writes p n j x b) (k : b.Akin c) : a.Writes p n j x c where
  entry := k.tables ▸ h.entry
  others := k.tables ▸ h.others
  metatable := k.tables ▸ h.metatable

/-- A way that does not pass the entry leads to the same. -/
theorem reach (h : a.Writes p n j x b) {v : Value} {keys : List Value}
    (apart : ∀ t i, a.Passes t i v keys → ¬ (t = n ∧ i = j) ∧ ¬ a.Exempt p t i) : b.reach v keys = a.reach v keys :=
  Vm.reach_congr fun t i passes => h.others t i (apart t i passes).1 (apart t i passes).2

end Vm.Writes

end LuaHost.Lua

namespace LuaHost.Host

open Lua (M Vm Generation)

variable {g : Generation} {env : Env} {w w' : World} {vm vm' : Vm} {m registry runtime : Nat} {base : Array Lua.Value}

/-! ## The parts of an assignment -/

namespace Selector

variable {s : Selector}

/-- Calls the function of the assign chunk, for the table, the key and the value above it. -/
def settle (s : Selector) (rt : Binding.Runtime) : H Bool := do
  let status := Binding.Api.intOf (← runWith s.runtime s.handle fun _ => Binding.Api.pcall 3 0 0)
  if status != codeOf rt .ok then
    reportTop s.reporter status s.runtime s.handle
    return false
  return true

/-- Assigns with the function that has been pushed. -/
def store (s : Selector) (rt : Binding.Runtime) (v : Value) : H Bool := do
  runWith s.runtime s.handle fun _ => Binding.Api.pushValue (-2)
  pushHost s.runtime s.handle (s.chain.getLastD .none) (some s.registry)
  pushHost s.runtime s.handle v (some s.registry)
  s.settle rt

/-- Reports that the value on top can have no entries. -/
def complain (s : Selector) (rt : Binding.Runtime) (tag : Int) : H Bool := do
  let w ← MonadState.get
  let way ← H.ofExcept (s.describe (H.slotOf w))
  let kind ← runWith s.runtime s.handle fun _ => Binding.Api.typeName tag
  H.report s.reporter (codeOf rt .errRun)
    (("cannot assign " : Text) ++ way ++ (": parent is a " : Text) ++ kind ++ (" value" : Text)) none
  return false

/-- Assigns to what has been found. -/
def place (s : Selector) (rt : Binding.Runtime) (v : Value) : Option Int → H Bool
  | none => return false
  | some tag =>
    if tag != 5 then s.complain rt tag
    else do
      discard (runWith s.runtime s.handle fun _ => Binding.Api.checkStack 4)
      if !(← Registry.pushChunk s.registry assignChunk) then return false
      s.store rt v

theorem set_eq (machine : s.machine = some m) (v : Value) :
    s.set v = (H.runtime s.runtime >>= fun rt => s.guard (s.push s.chain.dropLast >>= s.place rt v)) := by
  unfold set
  rw [machine]
  refine congrArg (H.runtime s.runtime >>= ·) (funext fun rt => ?_)
  refine congrArg s.guard (congrArg (s.push s.chain.dropLast >>= ·) (funext fun found => ?_))
  cases found with
  | none => rfl
  | some tag => 
    unfold place
    dsimp only
    split
    · rfl
    · rfl

theorem settle_leads (s : Selector) (rt : Binding.Runtime) : Leads env w (s.settle rt) := by
  refine .bind (.runWith _ _ fun _ => Ordinary.pcall _ _ _) fun status => ?_
  dsimp only
  split
  · exact .bind (.reportTop _ _ _ _) fun _ => .pure _
  · exact .pure _

theorem store_leads (goes : s.Goes w) (rt : Binding.Runtime) (v : Value) : Leads env w (s.store rt v) :=
  .bind (.runWith _ _ fun _ => Mute.pushValue _) fun _ => .bind (.pushHost _ _ _ _ (Leads.selector_pairs goes)) fun _ =>
    .bind (.pushHost _ _ _ _ (Leads.selector_pairs goes)) fun _ => s.settle_leads rt

theorem place_leads (goes : s.Goes w) (rt : Binding.Runtime) (v : Value) (found : Option Int) : Leads env w (s.place rt v found) := by
  cases found with
  | none => exact .pure _
  | some tag =>
    unfold place complain
    dsimp only
    split
    · exact .bind .get fun w => .bind (.ofExcept _) fun way => .bind (.runWith _ _ fun _ => Mute.typeName _) fun kind =>
        .bind (.report _ _ _ _) fun _ => .pure _
    · refine .bind (.discard (.runWith _ _ fun _ => Mute.checkStack _)) fun _ => .bind (.pushChunk _ _) fun pushed => ?_
      split
      · exact .pure _
      · exact store_leads goes rt v

end Selector

/-! ## What is written -/

/-- The function of the assign chunk sets an entry of a table. -/
theorem assign_runs {f k x : Lua.Value} {a : Nat} {j : Lua.Key} (hk : k.key? = some j) (bare : (vm.tables.get a).metatable = none)
    (compiled : CompiledFrom vm Selector.assignChunk f) :
    Lua.Machine.Ends (runner env m) (taken w m vm) f [.table a, k, x] (· = .done []) (vm.assign a k x hk) := by
  obtain ⟨bytes, encoded, address, f, c, rfl, inside, closure, made⟩ := compiled
  obtain ⟨f', n₀, n₁, n₂, l₀, l₁, made', names⟩ := assignChunk_compiles vm.generation
  have source : sourceOf Selector.assignChunk = upToNul bytes := by rw [sourceOf, encoded]
  rw [source] at made'
  cases made.symm.trans made'
  exact Lua.assign_ends (s := taken w m vm) 399999978 bare inside closure names hk

/-- Under nil or NaN it sets nothing. -/
theorem assign_refuses {f k x : Lua.Value} {a : Nat} (hk : k.key? = none) (plain : vm.Plain)
    (compiled : CompiledFrom vm Selector.assignChunk f) :
    Lua.Machine.Ends (runner env m) (taken w m vm) f [.table a, k, x] (fun r => ∃ message, r = .failed .errRun (.str message)) vm := by
  obtain ⟨bytes, encoded, address, f, c, rfl, inside, closure, made⟩ := compiled
  obtain ⟨f', n₀, n₁, n₂, l₀, l₁, made', names⟩ := assignChunk_compiles vm.generation
  have source : sourceOf Selector.assignChunk = upToNul bytes := by rw [sourceOf, encoded]
  rw [source] at made'
  cases made.symm.trans made'
  exact Lua.assign_ends_badKey (s := taken w m vm) 399999978 (plain a) inside closure names hk

/-- A walk has come to a world in which an entry of table `a` has been set then. -/
inductive World.Stores (g : Generation) (m registry : Nat) (w : World) (a : Nat) (key v : Value) : World → Prop where
  | intro {w₁ : World} {vm₁ vm' : Vm} {k x : Lua.Value} {j : Lua.Key} (treads : w.Treads g m registry w₁)
    (opened : w₁.machines.get m = .open vm₁) (hkey : Denotes g m w w₁ key k) (hv : Denotes g m w w₁ v x) (hk : k.key? = some j)
    (set : (vm₁.assign a k x hk).Akin vm') : Stores g m registry w a key v (w₁.put m vm')

/-- A chain leads to the same while more functions are made and more chunks are kept. -/
theorem World.Chain.later {w₁ : World} {t t' : Lua.Value} {keys : List Value} (h : w.Chain g m registry w₁ vm t keys t')
    (functions : ∀ k, k < w₁.foreigns.size → k < w'.foreigns.size ∧ (w'.foreigns.get k).routine = (w₁.foreigns.get k).routine)
    (books : ∀ n, w.Books g registry w₁ n → w.Books g registry w' n) : w.Chain g m registry w' vm t keys t' := by
  induction h with
  | here v => exact .here v
  | astray h key keys => exact .astray h key keys
  | entry denotes there _ ih => exact .entry (denotes.later functions) (there.mono books) ih

namespace World.Stores

variable {a : Nat} {key v : Value} (h : w.Stores g m registry a key v w')

include h

/-- A chain that was followed before leads to the same. -/
theorem chain {w₀ : World} {vm : Vm} {t t' : Lua.Value} {keys : List Value} (before : w₀.Chain g m registry w vm t keys t') :
    w₀.Chain g m registry w' vm t keys t' := by
  cases h with
  | intro treads => exact before.later treads.functions fun _ => treads.books_later

theorem stirs {w'' : World} (moved : w'.Stirs m w'') : w.Stores g m registry a key v w'' := by
  cases h with
  | intro treads opened hkey hv hk set =>
    obtain ⟨vm', rfl, akin, -⟩ := moved _ (World.get_put _ _ _)
    rw [World.put_put]
    exact .intro treads opened hkey hv hk (set.trans akin)

theorem opened : w'.Open m := by
  cases h with
  | intro => exact ⟨_, World.get_put _ _ _⟩

end World.Stores

theorem World.Fails.stirs {w₁ : World} (h : w.Fails g m registry w₁) (hm : w.machines.get m = .open vm) (moved : w₁.Stirs m w') :
    w.Fails g m registry w' := by
  obtain ⟨w₂, treads, tells⟩ := h
  obtain ⟨vm₂, hm₂, -⟩ := treads.opened vm hm
  obtain ⟨vm', rfl, akin, natives⟩ := moved vm₂ (tells.machines ▸ hm₂)
  exact ⟨w₂.put m vm', treads.trans (.put hm₂ akin natives), tells.put m vm'⟩

namespace Selector

variable {s : Selector}

/-- The entry is set, or nothing is and this is reported. -/
theorem settle_yields {w₀ : World} (walk : w₀.Treads g m s.registry w) (h : s.Stands g m w vm) {a : Nat} {f k x : Lua.Value}
    {key v : Value} (rt : Binding.Runtime) (hs : vm.stack = base ++ [f, .table a, k, x].toArray) (compiled : CompiledFrom vm assignChunk f)
    (hkey : Denotes g m w₀ w key k) (hv : Denotes g m w₀ w v x) :
    Yields g env w (s.settle rt)
      (fun done w' => if done then w₀.Stores g m s.registry a key v w' else w₀.Fails g m s.registry w')
      fun _ => w₀.Fails g m s.registry := by
  have fails {vm' : Vm} {w' : World} (akin : vm.Akin vm') (natives : vm'.natives = vm.natives)
      (told : ∃ w₁, (w.put m vm').Stirs m w₁ ∧ w₁.Tells w') : w₀.Fails g m s.registry w' :=
    walk.fails (World.Stirs.fails (.put h.opened akin natives) h.opened told)
  unfold settle
  rw [h.handle]
  cases hk : k.key? with
  | some j =>
    obtain ⟨r, vm', called, attempted, stack⟩ := runWith_pcall env s.runtime h.opened hs (assign_runs hk (h.plain a) compiled) 0
    have idle (bad : (Lua.leftBy 0 r).1 ≠ .ok) : vm.Akin vm' := attempted.idle bad fun _ same => same ▸ rfl
    refine .after called (status_on (World.get_put w m vm') (fun ok => ?_) (fun bad w' => fails (idle bad) attempted.natives)
      fun bad w' told _ => fails (idle bad) attempted.natives told)
    exact .of_ok rfl (.intro walk h.opened hkey hv hk (attempted.done ok).2)
  | none =>
    obtain ⟨r, vm', called, attempted, stack⟩ := runWith_pcall env s.runtime h.opened hs (assign_refuses hk h.plain compiled) 0
    refine .after called (status_on (World.get_put w m vm') (fun ok => ?_) (fun _ w' => fails attempted.akin attempted.natives)
      fun _ w' told _ => fails attempted.akin attempted.natives told)
    obtain ⟨⟨message, rfl⟩, -⟩ := attempted.done ok
    cases ok

theorem Walks.stores {stack : Array Lua.Value} {a : Nat} {key v : Value} {w'' : World} (ready : w.Ready g)
    (walk : s.Walks g m w vm stack w' vm') (h : w'.Stores g m s.registry a key v w'') : w.Stores g m s.registry a key v w'' := by
  cases h with
  | intro treads opened hkey hv hk set =>
    exact .intro (walk.comes.toTreads.trans treads) opened (walk.denotes ready hkey) (walk.denotes ready hv) hk set

variable (he : env.Follows)

include he

theorem store_yields (h : s.Stands g m w vm) {a : Nat} {f : Lua.Value} (hs : vm.stack = base ++ [.table a, f].toArray)
    (compiled : CompiledFrom vm assignChunk f) (rt : Binding.Runtime) (v : Value) :
    Yields g env w (s.store rt v)
      (fun done w' => if done then w.Stores g m s.registry a (s.chain.getLastD .none) v w' else w.Fails g m s.registry w')
      fun _ => w.Fails g m s.registry := by
  refine h.copy_on hs fun w₁ vm₁ first => first.toStands.host_on he _
    (fun _ _ => first.comes.fails ⟨w₁, .refl _, .refl _⟩) fun k w₂ vm₂ second key => ?_
  have walk := first.trans h second
  refine walk.toStands.host_on he v (fun _ _ => walk.comes.fails ⟨w₂, .refl _, .refl _⟩)
    fun x w₃ vm₃ third value => ?_
  have way := walk.trans h third
  have stack : vm₃.stack = base.push (.table a) ++ [f, .table a, k, x].toArray := by
    rw [third.stack, second.stack, first.stack, hs]
    exact Array.toList_inj.mp (by simp)
  have hkey : Denotes g m w w₃ (s.chain.getLastD .none) k := (first.denotes h.ready key).later third.comes.functions
  exact settle_yields way.comes.toTreads way.toStands rt stack (walk.trans h third |>.compiled compiled) hkey (walk.denotes h.ready value)

omit he in
/-- It is reported that what is on top can have no entries, or the words for that fail. -/
theorem complain_yields (h : s.Stands g m w vm) (rt : Binding.Runtime) (tag : Int) :
    Yields g env w (s.complain rt tag) (fun done w' => done = false ∧ w.Fails g m s.registry w') fun _ => w.Fails g m s.registry := by
  have unchanged : w.Fails g m s.registry w := ⟨w, .refl _, .refl _⟩
  have worded : Ended (fun _ w' => w' = w) (fun _ w' => w' = w) (H.ofExcept (s.describe (H.slotOf w)) env w) := by
    cases s.describe (H.slotOf w) with
    | ok way => exact .back rfl
    | error e => exact .raised rfl
  have named : Ended (fun _ => w.Stirs m) (fun _ => w.Stirs m)
      (runWith s.runtime (some (.main m)) (fun _ => Binding.Api.typeName tag) env w) :=
    runProgram_slight env (w.runtimes.get s.runtime) (slight_typeName tag) h.opened
  have got : (MonadState.get : H World) env w = .ok w w := rfl
  unfold complain
  rw [h.handle]
  refine .after got (.onward worded (fun way w₁ same => ?_) fun _ _ same => same ▸ unchanged)
  subst same
  refine .onward named (fun kind w₂ stirs => ?_)
    fun _ w₂ stirs => stirs.fails h.opened ⟨w₂, .refl _, .refl _⟩
  exact .onward (report_tells _ _ _ _) (fun _ w₃ tells => .of_ok rfl ⟨rfl, stirs.fails h.opened ⟨w₂, .refl _, tells⟩⟩)
    fun _ w₃ tells => stirs.fails h.opened ⟨w₂, .refl _, tells⟩

/-- What was found is assigned to, or this fails. -/
theorem place_yields (h : s.Stands g m w vm) (rt : Binding.Runtime) (v : Value) {w₁ : World} {found : Option Int} {origin : Lua.Value}
    {keys : List Value} (ready : w₁.Ready g)
    (reached : w.Reaches g m s.registry vm.stack (fun t w' => w.Chain g m s.registry w' vm origin keys t) found w₁) :
    Yields g env w₁ (s.place rt v found)
      (fun done w' => if done then ∃ a, w.Chain g m s.registry w' vm origin keys (.table a) ∧
        w.Stores g m s.registry a (s.chain.getLastD .none) v w' else w.Fails g m s.registry w')
      fun _ => w.Fails g m s.registry := by
  cases reached with
  | lost fails => exact .of_ok rfl fails
  | @found t _ between comes chain =>
    obtain ⟨vm₁, walk⟩ := h.come comes ready
    unfold place
    dsimp only
    by_cases table : ∃ a, t = .table a
    · obtain ⟨a, rfl⟩ := table
      have five : ¬ ((Lua.Value.table a).tag.code != 5) = true := Bool.false_ne_true
      rw [if_neg five]
      refine walk.toStands.room_on 4 fun w₂ vm₂ first => first.toStands.chunk_on he (.inr rfl) (fun pushed w' goes => ?_)
        (fun w' fails => .of_ok rfl (comes.fails (first.comes.fails fails))) (fun _ w' fails => comes.fails (first.comes.fails fails))
        fun f w₃ vm₃ second compiled => ?_
      · cases pushed with
        | false => exact .pure _
        | true => exact store_leads goes rt v
      have way := first.trans walk.toStands second
      have stack : vm₃.stack = (vm.stack ++ between) ++ [.table a, f].toArray := by
        rw [way.stack, first.stack, walk.stack]
        exact Array.toList_inj.mp (by simp)
      refine (store_yields he way.toStands stack compiled rt v).imp (fun done w' stored => ?_) fun _ w' fails =>
        comes.fails (way.comes.fails fails)
      cases done with
      | false => exact comes.fails (way.comes.fails stored)
      | true =>
        have stored' := way.stores walk.ready stored
        exact ⟨a, stored'.chain chain, walk.stores h.ready stored'⟩
    · have other : (t.tag.code != 5) = true := bne_iff_ne.mpr fun same => table (Lua.Value.table_of_code same)
      rw [if_pos other]
      refine (complain_yields walk.toStands rt t.tag.code).imp (fun done w' fails => ?_) fun _ _ => comes.fails
      obtain ⟨rfl, fails⟩ := fails
      exact comes.fails fails

/-- An assignment sets an entry of the table that all keys but the last lead to, or it fails. -/
theorem set_yields {a₀ : Nat} (h : s.Stands g m w vm) (globals : vm.globalTable = .table a₀) (small : vm.stack.size < 0x80000000) (v : Value) :
    Yields g env w (s.set v)
      (fun done w' => if done then ∃ a, w.Chain g m s.registry w' vm (.table a₀) s.chain.dropLast (.table a) ∧
        w.Stores g m s.registry a (s.chain.getLastD .none) v w' else w.Fails g m s.registry w')
      fun _ => w.Fails g m s.registry := by
  rw [set_eq h.machine]
  refine .runtime ?_
  unfold guard
  rw [h.handle]
  have goes {w' : World} (moves : Moves w w') : s.Goes w' := fun n hn => moves.continues.pairs (h.goes n hn)
  have body := Yields.bind he h.ready (.selectorPush h.goes s.chain.dropLast) (push_yields he h globals s.chain.dropLast)
    (fun found w₁ moves => place_leads (goes moves) (w.runtimes.get s.runtime) v found)
    fun found w₁ ready _ reached => place_yields he h (w.runtimes.get s.runtime) v ready reached
  refine (guarded_yields h.opened small he h.ready.lawful.toSound ?_ body).imp (fun done w' ended => ?_) fun _ w' failed => ?_
  · exact .bind (.selectorPush h.goes _) fun found => place_leads h.goes _ v found
  · obtain ⟨w₁, done', stirs⟩ := ended
    cases done with
    | false => exact World.Fails.stirs done' h.opened stirs
    | true =>
      obtain ⟨a, chain, stored⟩ := done'
      refine ⟨a, ?_, stored.stirs stirs⟩
      obtain ⟨vm₁, hm₁⟩ := stored.opened
      obtain ⟨vm', rfl, -⟩ := stirs vm₁ hm₁
      exact chain.later (fun k hk => ⟨hk, rfl⟩) fun _ hn => hn
  · obtain ⟨w₁, failed, stirs⟩ := failed
    exact World.Fails.stirs failed h.opened stirs

end Selector

/-! ## Assignments -/

/-- What an assignment has done to the tables. -/
theorem World.Stores.writes {a : Nat} {key v : Value} (h : w.Stores g m registry a key v w') (hm : w.machines.get m = .open vm) :
    ∃ k x j vm', Denotes g m w w' key k ∧ Denotes g m w w' v x ∧ k.key? = some j ∧ w'.machines.get m = .open vm' ∧
      (∀ n, n ≠ m → w'.machines.get n = w.machines.get n) ∧ vm.Writes (w.Books g registry w') a j x vm' := by
  cases h with
  | @intro w₁ vm₁ vm' k x j treads opened hkey hv hk set =>
    obtain ⟨vm₂, hm₂, spares⟩ := treads.opened vm hm
    cases hm₂.symm.trans opened
    have written : vm.Writes (w.Books g registry w₁) a j x vm' := .akin (.after spares (.assign vm₁ a x hk)) set
    exact ⟨k, x, j, vm', hkey.later fun k hk => ⟨hk, rfl⟩, hv.later fun k hk => ⟨hk, rfl⟩, hk, World.get_put _ _ _, fun n hn => (Pool.get_put_ne _ hn _).trans (treads.others n hn), written⟩

theorem World.Fails.spares (h : w.Fails g m registry w') (hm : w.machines.get m = .open vm) :
    ∃ vm', w'.machines.get m = .open vm' ∧ (∀ n, n ≠ m → w'.machines.get n = w.machines.get n) ∧
      vm.Spares (w.Books g registry w') vm' := by
  obtain ⟨w₁, treads, reporters, reports, rfl⟩ := h
  obtain ⟨vm₁, hm₁, spares⟩ := treads.opened vm hm
  exact ⟨vm₁, hm₁, treads.others, spares⟩

namespace Selector

/-- Where a selector of a reachable world can walk. -/
theorem stands_of_stages {s : Selector} (h₀ : Stages g (Session.start g) w) (hr : Reliable g w.journal) (machine : s.machine = some m)
    (goes : s.Goes w) (home : w.machineOf s.registry = some m) (runtime : s.runtime < 2) (hm : w.machines.get m = .open vm)
    (fine : vm.breached = false) (plain : vm.Plain) : s.Stands g m w vm := by
  have lawful : w.Lawful g := Stages.lawful h₀ (Session.start_lawful g)
  exact ⟨⟨⟨lawful, (Stages.carries h₀ (Session.start_lawful g) (start_assigned g) hr).assigned, hr⟩, machine, home, goes,
    lawful.generation _ runtime, hm, fine⟩, plain⟩

/-- An assignment that succeeds sets one entry: that of the last key, in the table that all other keys lead to from the
globals, to what the value is on the machine. All other entries of all tables are as before, and so is what any way
leads to that does not pass the entry. An assignment that fails changes no entry. Aside are the numbered entries of the
registry that are written for the chunks that are compiled, which is why a way through them is not spoken of.

This is said of machines without metatables whose registry's numbers have been left alone, while pinning gives free slots. -/
theorem set_writes_one {s : Selector} {a₀ : Nat} {v : Value} {done : Bool} (he : env.Follows) (h₀ : Stages g (Session.start g) w)
    (machine : s.machine = some m) (goes : s.Goes w) (home : w.machineOf s.registry = some m) (runtime : s.runtime < 2)
    (hm : w.machines.get m = .open vm) (fine : vm.breached = false) (plain : vm.Plain) (globals : vm.globalTable = .table a₀)
    (small : vm.stack.size < 0x80000000) (run : s.set v env w = .ok done w') (hr : Reliable g w'.journal) :
    ∃ vm', w'.machines.get m = .open vm' ∧ (∀ n, n ≠ m → w'.machines.get n = w.machines.get n) ∧
      (done = true → ∃ us k x a j, List.Forall₂ (Denotes g m w w') s.chain.dropLast us ∧
        Denotes g m w w' (s.chain.getLastD .none) k ∧ k.key? = some j ∧ Denotes g m w w' v x ∧
        ((∀ b i, vm.Passes b i (.table a₀) us → ¬ vm.Exempt (w.Books g s.registry w') b i) → vm.reach (.table a₀) us = .table a) ∧
        vm.Writes (w.Books g s.registry w') a j x vm' ∧
        ∀ t ks, (∀ b i, vm.Passes b i t ks → ¬ (b = a ∧ i = j) ∧ ¬ vm.Exempt (w.Books g s.registry w') b i) →
          vm'.reach t ks = vm.reach t ks) ∧
      (done = false → vm.Spares (w.Books g s.registry w') vm') := by
  have led := (Leads.set goes v).after he (Stages.lawful h₀ (Session.start_lawful g)).toSound w .refl
  rw [run] at led
  obtain ⟨es, journal, -⟩ := led.continues.journal
  have stands := stands_of_stages h₀ (.of_append (journal ▸ hr)) machine goes home runtime hm fine plain
  have ended := set_yields he stands globals small v (by rw [run]; exact hr)
  rw [run] at ended
  cases ended with | back ended => ?_
  cases done with
  | false =>
    obtain ⟨vm', hm', others, spares⟩ := World.Fails.spares ended hm
    exact ⟨vm', hm', others, nofun, fun _ => spares⟩
  | true =>
    obtain ⟨a, chain, stored⟩ := ended
    obtain ⟨us, keys, leads⟩ := chain.reach nofun
    obtain ⟨k, x, j, vm', hkey, hv, hk, hm', others, writes⟩ := stored.writes hm
    exact ⟨vm', hm', others, fun _ => ⟨us, k, x, a, j, keys, hkey, hk, hv, leads, writes, fun t ks => writes.reach⟩, nofun⟩

/-- Whether an outcome is this answer. -/
def replies (b : Bool) : EStateM.Result Stop World Bool → Bool
  | .ok a _ => a == b
  | .error .. => false

theorem ok_of_replies {b : Bool} {r : EStateM.Result Stop World Bool} (h : replies b r = true) : r = .ok b (final r) := by
  cases r with
  | ok a w => rw [beq_iff_eq.mp h, final]
  | error e w => cases h

/-- A session with a table among the globals. -/
def tabled : List Session.Step := [⟨"s", none, .new none none .create true⟩, ⟨"s", none, .execute (.text "t = {}")⟩]

def tabledWorld : World := Session.runAll (Session.start .v54) tabled

/-- The place under a number in the table. -/
def tabledPlace : Selector := (tabledWorld.states.get 0).select (.text "t") [.int 2]

/-- A text is assigned under a number in the table. -/
theorem set_writes_one_nested :
    ∃ w' vm a₀, tabledWorld.machines.get 0 = .open vm ∧ vm.globalTable = .table a₀ ∧
      tabledPlace.set (.text "x") Env.full tabledWorld = .ok true w' ∧
      ∃ vm' us k x a j, w'.machines.get 0 = .open vm' ∧ List.Forall₂ (Denotes .v54 0 tabledWorld w') tabledPlace.chain.dropLast us ∧
        Denotes .v54 0 tabledWorld w' (tabledPlace.chain.getLastD .none) k ∧ k.key? = some j ∧ Denotes .v54 0 tabledWorld w' (.text "x") x ∧
        vm.Writes (tabledWorld.Books .v54 tabledPlace.registry w') a j x vm' := by
  have plain : ∀ s ∈ tabled, s.command.Plain := by
    intro s hs
    simp only [tabled, List.mem_cons, List.not_mem_nil, or_false] at hs
    obtain rfl | rfl := hs <;> trivial
  have reached : Session.Reached .v54 tabledWorld := Session.Runs.refl.runAll plain (by decide +kernel)
  obtain ⟨vm, hm, fit⟩ := World.open_of_shows (by decide +kernel : tabledWorld.shows 0 (fun vm =>
    !vm.breached && decide (vm.Plain ∧ vm.stack.size < 0x80000000 ∧ vm.globalTable.tag.code = 5)) = true)
  obtain ⟨fine, fit⟩ := Bool.and_eq_true_iff.mp fit
  obtain ⟨bare, small, table⟩ := of_decide_eq_true fit
  obtain ⟨a₀, globals⟩ := Lua.Value.table_of_code table
  have goes : tabledPlace.Goes tabledWorld :=
    State.Goes.select ((Session.reached_lawful reached).toSound.goes 0) (.text "t") [.int 2]
  have machine : tabledPlace.machine = some 0 := by decide +kernel
  have home : tabledWorld.machineOf tabledPlace.registry = some 0 := by decide +kernel
  have runtime : tabledPlace.runtime < 2 := by decide +kernel
  obtain ⟨w', run, reliable⟩ : ∃ w', tabledPlace.set (.text "x") Env.full tabledWorld = .ok true w' ∧ Reliable .v54 w'.journal :=
    ⟨_, ok_of_replies (by decide +kernel), by decide +kernel⟩
  obtain ⟨vm', hm', -, written, -⟩ := set_writes_one Env.full_follows (Session.reached_stages reached) machine goes home runtime hm
    (Bool.not_eq_true' _ |>.mp fine) bare globals small run reliable
  obtain ⟨us, k, x, a, j, keys, hkey, hk, hv, -, writes, -⟩ := written rfl
  exact ⟨_, vm, a₀, hm, globals, run, vm', us, k, x, a, j, hm', keys, hkey, hk, hv, writes⟩

/-- A session without libraries whose globals have the table of the registry. -/
def showing : List Session.Step :=
  [⟨"s", none, .new (some false) none .create true⟩,
    ⟨"s", none, .api [.plain "pushvalue" (.pushValue (-1001000)), .plain "setglobal" (.setGlobal (.text "r"))]⟩]

/-- Two selectors of its state: a slot of the registry, and a global. -/
def slotFive (w : World) : Selector := (w.states.get 0).select (.text "r") [.int 5]

def globalY (w : World) : Selector := (w.states.get 0).select (.text "y") []

/-- The session after the slot has been looked for. -/
def showingWorld : World :=
  let w := Session.runAll (Session.start .v54) showing
  final ((slotFive w).exists_ Env.full w)

/-- An assignment changes another entry: that which the registry takes for the chunk that assigns. -/
theorem set_takes_slot : ∃ w vm, showingWorld.machines.get 0 = .open vm ∧ vm.Plain ∧
    (∃ w₁, (slotFive showingWorld).exists_ Env.full showingWorld = .ok false w₁) ∧
    (globalY showingWorld).set (.int 1) Env.full showingWorld = .ok true w ∧
    ∃ w₂, (slotFive w).exists_ Env.full w = .ok true w₂ := by
  obtain ⟨vm, hm, bare⟩ := World.open_of_shows (by decide +kernel : showingWorld.shows 0 (fun vm => decide vm.Plain) = true)
  exact ⟨_, vm, hm, of_decide_eq_true bare, ⟨_, ok_of_replies (by decide +kernel)⟩, ok_of_replies (by decide +kernel),
    _, ok_of_replies (by decide +kernel)⟩

end Selector

end LuaHost.Host
