import LuaHost.Proofs.Entries.Indexing
import LuaHost.Proofs.Reports.Words
import LuaHost.Proofs.Walks.Calls

set_option autoImplicit false

/-!
# Lookups along keys

A selector follows its keys by lookups, each of which may run functions of metatables. So what it comes to is what the
lookups come to that are made one after another, from the globals on: a value, the error of the first lookup that
raises one, or that of the first key that cannot be pushed. Between the lookups nothing runs.
-/

namespace LuaHost.Lua

open Stack (Attempt)

variable {σ : Type} {natives : Natives σ} {s : Sys σ}

/-! ## Lookups from outside -/

theorem Stack.onThread_congr {α : Type} {act act' : M σ α}
    (same : act { s with vm := { s.vm with running := 0 } } = act' { s with vm := { s.vm with running := 0 } }) :
    Stack.onThread 0 act s = Stack.onThread 0 act' s := by
  by_cases main : s.vm.running = 0
  · have here : { s with vm := { s.vm with running := 0 } } = s := by rw [← main]
    rw [Stack.onThread_eq _ main, Stack.onThread_eq _ main, ← here]
    exact same
  · cases ran : act { s with vm := { s.vm with running := 0 } } with
    | ok a u => rw [Stack.onThread_runs main ran, Stack.onThread_runs main (same ▸ ran)]
    | error x u => rw [Stack.onThread_fails main ran, Stack.onThread_fails main (same ▸ ran)]

/-- The value is the function of a site. -/
def Site.At (site : Site) (vm : Vm) (f : Value) : Prop :=
  ∃ address n₁ l₁, f = .closure address ∧ vm.closures.get address = .lua site.f site.cells site.chunk ∧
    site.f.Names 2 (indexing site.name n₁ site.line l₁)

/-- What comes of `obj[key]` when it is looked up from outside on the main thread, so that an error ends only the lookup. -/
def Machine.looks (natives : Natives σ) (fuel : Nat) (site : Site) (obj key : Value) : M σ (Attempt (List Value)) :=
  Machine.outside (Machine.lookUp natives fuel site obj key) .nil []

/-- A call of the function of a site is a lookup. -/
theorem Machine.outside_looks {site : Site} {f : Value} (there : site.At s.vm f) (obj key : Value) (fuel : Nat) :
    Machine.outside (Machine.run natives (fuel + 18)) f [obj, key] s = Machine.looks natives (fuel + 4) site obj key s := by
  obtain ⟨address, n₁, l₁, rfl, closure, names⟩ := there
  refine Stack.onThread_congr ?_
  let main : Sys σ := { s with vm := { s.vm with running := 0 } }
  have quiet : ((main.vm.begins (some none)).threads.get 0).handler = none := by
    rw [Vm.begins]
    dsimp only
    rw [Pool.get_modify_self]
    rfl
  have same : Machine.nested (Machine.run natives (fuel + 18)) (some none) (.closure address) [obj, key] main =
      Machine.nested (Machine.lookUp natives (fuel + 4) site obj key) (some none) .nil [] main :=
    nested_congr (run_lookUp (s := { main with vm := main.vm.begins (some none) }) names closure rfl 0 quiet _ _ _ obj key fuel)
  unfold Stack.attempt
  rw [same]

/-- The status of a call that keeps one result, and what it leaves: the first of what was given, or the error. -/
def Stack.Attempt.one : Attempt (List Value) → Status × Value
  | .done vs => (.ok, first vs)
  | .failed status v => (status, v)

theorem leftAs_one (r : Attempt (List Value)) : leftAs (some 1) r = (r.one.1, [r.one.2]) := by
  cases r with
  | done vs => cases vs <;> rfl
  | failed status v => rfl

/-- What comes of a call from outside is no error, unless it is the end of all. -/
theorem Machine.outside_faults {run : Machine → M σ Outcome} {f : Value} {args : List Value} {x : Signal} {s' : Sys σ}
    (h : Machine.outside run f args s = .error x s') : ∃ fault, x = .fault fault := by
  have attempts (s s' : Sys σ) (h : Stack.attempt (Machine.nested run (some none) f args) s = .error x s') : ∃ fault, x = .fault fault := by
    unfold Stack.attempt at h
    split at h <;> cases h
    exact ⟨_, rfl⟩
  unfold Machine.outside at h
  by_cases main : s.vm.running = 0
  · exact attempts s s' ((Stack.onThread_eq _ main).symm.trans h)
  · cases ran : Stack.attempt (Machine.nested run (some none) f args) { s with vm := { s.vm with running := 0 } } with
    | ok a u => cases (Stack.onThread_runs main ran).symm.trans h
    | error y u =>
      cases (Stack.onThread_fails main ran).symm.trans h
      exact attempts _ _ ran

end LuaHost.Lua

namespace LuaHost.Host

open Lua (M Vm Generation Site)
variable {g : Generation} {env : Env} {w w' : World} {vm vm' : Vm} {m registry : Nat} {base : Array Lua.Value} {α β : Type}

/-! ## Registries that programs have left alone -/

/-- No program has written numbered entries of the registry of machine `m`. -/
def World.Unbreached (m : Nat) (w : World) : Prop := ∀ vm, w.machines.get m = .open vm → vm.breached = false

theorem Move.unbreached (h : Move w w') (fine : w'.Unbreached m) : w.Unbreached m := by
  have put {n : Nat} {v v' : Vm} (hv : w.machines.get n = .open v) (once : v'.breached = false → v.breached = false)
      (fine : ∀ vm, (w.machines.put n (.open v')).get m = .open vm → vm.breached = false) : w.Unbreached m := by
    intro vm hm
    by_cases same : m = n
    · subst same
      cases hv.symm.trans hm
      exact once (fine v' (Pool.get_put_self _ _ _))
    · exact fine vm ((Pool.get_put_ne _ same _).trans hm)
  have kept {v v' : Vm} (h : v'.breached = v.breached) (fine : v'.breached = false) : v.breached = false := h.symm.trans fine
  cases h with
  | step hv h => exact put hv (fun fine => Bool.eq_false_iff.mpr fun breached => nomatch fine.symm.trans (h.breached breached)) fine
  | refused hv h => exact put hv (kept h.breached) fine
  | referenced hv _ h => exact put hv (kept h.edits.breached) fine
  | cached hv _ _ h => exact put hv (kept h.edits.breached) fine
  | released hv _ _ h => exact put hv (kept h.breached) fine
  | beside h => exact fun vm hm => fine vm (h.machines ▸ hm)
  | @gave n f _ _ =>
    obtain ⟨foreigns, he⟩ := World.give_eq w n f
    rw [he] at fine
    exact fine
  | _ => exact fine

theorem Moves.unbreached (h : Moves w w') (fine : w'.Unbreached m) : w.Unbreached m := by
  induction h with
  | refl => exact fine
  | tail _ h ih => exact ih (h.unbreached fine)

/-- How an operation ends, if pinning gives free slots and no program writes numbered entries of the registry until then. -/
def Turns (g : Generation) (env : Env) (m : Nat) (w : World) (act : H α) (R : EStateM.Result Stop World α → Prop) : Prop :=
  Reliable g (final (act env w)).journal → (final (act env w)).Unbreached m → R (act env w)

namespace Turns

variable {act : H α} {next : α → H β} {R S : EStateM.Result Stop World α → Prop} {T : EStateM.Result Stop World β → Prop}

theorem of_ended (h : R (act env w)) : Turns g env m w act R := fun _ _ => h

theorem imp (h : Turns g env m w act R) (k : ∀ r, R r → S r) : Turns g env m w act S := fun hr fine => k _ (h hr fine)

/-- An operation after one that is known to come back. -/
theorem after {a : α} (run : act env w = .ok a w') (h : Turns g env m w' (next a) T) : Turns g env m w (act >>= next) T := by
  unfold Turns
  rw [bind_ok run]
  exact h

theorem of_yields {Q : α → World → Prop} {E : Failure → World → Prop} (h : Yields g env w act Q E) : Turns g env m w act (Ended Q E) :=
  fun hr _ => h hr

/-- An operation after another. -/
theorem bind (he : env.Follows) (sound : w.Sound) (leads : Leads env w act) (h : Turns g env m w act R)
    (on : ∀ a w', Moves w w' → Leads env w' (next a)) (lost : ∀ x w', R (.error x w') → T (.error x w'))
    (k : ∀ a w', Moves w w' → Reliable g w'.journal → w'.Unbreached m → R (.ok a w') → Turns g env m w' (next a) T) :
    Turns g env m w (act >>= next) T := by
  intro hr fine
  have moves := leads.after he sound w .refl
  cases run : act env w with
  | ok a w' =>
    rw [run] at moves
    rw [bind_ok run] at hr fine ⊢
    have later := (on a w' moves).after he (moves.sound sound) w' .refl
    obtain ⟨es, journal, -⟩ := later.continues.journal
    have hr' : Reliable g w'.journal := .of_append (journal ▸ hr)
    have fine' : w'.Unbreached m := Moves.unbreached later fine
    have first := h (run ▸ hr') (run ▸ fine')
    rw [run] at first
    exact k a w' moves hr' fine' first hr fine
  | error x w' =>
    rw [bind_error run] at hr fine ⊢
    have first := h (run ▸ hr) (run ▸ fine)
    rw [run] at first
    exact lost x w' first

end Turns

/-! ## What is sought -/

/-- What following keys comes to: a value, an error of a lookup, a key that cannot be pushed, or the end of all. -/
inductive Sought where
  | found (v : Lua.Value)
  | failed (status : Lua.Status) (v : Lua.Value)
  | refused (e : Failure)
  | lost (f : Lua.Fault)

/-- The steps to the next lookup have come to a world where the key is `u` on the machine, and the site of the lookup is there. -/
structure World.Asks (g : Generation) (m registry : Nat) (w : World) (key : Value) (w₁ : World) (vm : Vm) (u : Lua.Value) (site : Site) :
    Prop where
  treads : w.Treads g m registry w₁
  opened : w₁.machines.get m = .open vm
  denotes : Denotes g m w w₁ key u
  site : ∃ f, CompiledFrom vm Selector.indexChunk f ∧ site.At vm f

/-- A lookup takes all steps of a machine but those by which its function comes to it. -/
def lookupLimit : Nat := stepLimit - 14

/-- What following keys from a value comes to, and in which world: each key is looked up once, in order, in what was found before;
nothing is looked up in a value that is no table, nor after a lookup has raised an error. -/
inductive World.Seeks (g : Generation) (env : Env) (m registry : Nat) : World → Lua.Value → List Value → Sought → World → Prop where
  | here (w : World) (v : Lua.Value) : Seeks g env m registry w v [] (.found v) w
  | astray (w : World) {v : Lua.Value} (h : ∀ a, v ≠ .table a) (key : Value) (keys : List Value) :
    Seeks g env m registry w v (key :: keys) (.found .nil) w
  | refused {w : World} {key : Value} {e : Failure} (refuses : Refuses w key e) (a : Nat) (keys : List Value) :
    Seeks g env m registry w (.table a) (key :: keys) (.refused e) w
  /-- no slot was left for the function that looks up -/
  | full (w w' : World) (a : Nat) (key : Value) (keys : List Value) :
    Seeks g env m registry w (.table a) (key :: keys) (.lost .registryFull) w'
  | looked {w w₁ w₂ w' : World} {vm : Vm} {a : Nat} {u v : Lua.Value} {key : Value} {keys : List Value} {site : Site}
    {r : Lua.Stack.Attempt (List Lua.Value)} {s : Lua.Sys World} {sought : Sought} (asks : w.Asks g m registry key w₁ vm u site)
    (look : Lua.Machine.looks (env.natives m) lookupLimit site (.table a) u (Host.taken w₁ m vm) = .ok r s) (found : r.one = (.ok, v))
    (after : (putBack s m).Treads g m registry w₂) (rest : Seeks g env m registry w₂ v keys sought w') :
    Seeks g env m registry w (.table a) (key :: keys) sought w'
  | failed {w w₁ : World} {vm : Vm} {a : Nat} {u v : Lua.Value} {key : Value} {site : Site} {status : Lua.Status}
    {r : Lua.Stack.Attempt (List Lua.Value)} {s : Lua.Sys World} (asks : w.Asks g m registry key w₁ vm u site)
    (look : Lua.Machine.looks (env.natives m) lookupLimit site (.table a) u (Host.taken w₁ m vm) = .ok r s) (bad : r.one = (status, v))
    (lost : status ≠ .ok) (keys : List Value) : Seeks g env m registry w (.table a) (key :: keys) (.failed status v) (putBack s m)
  | lost {w w₁ : World} {vm : Vm} {a : Nat} {u : Lua.Value} {key : Value} {site : Site} {fault : Lua.Fault} {s : Lua.Sys World}
    (asks : w.Asks g m registry key w₁ vm u site)
    (look : Lua.Machine.looks (env.natives m) lookupLimit site (.table a) u (Host.taken w₁ m vm) = .error (.fault fault) s)
    (keys : List Value) : Seeks g env m registry w (.table a) (key :: keys) (.lost fault) (putBack s m)

namespace World.Seeks

variable {w₁ w₂ : World} {a : Nat} {key : Value} {v : Lua.Value} {keys : List Value} {sought : Sought}

/-- Going on after the first key has been found. -/
theorem onward (h : w.Seeks g env m registry (.table a) [key] (.found v) w₁) (treads : w₁.Treads g m registry w₂)
    (rest : w₂.Seeks g env m registry v keys sought w') : w.Seeks g env m registry (.table a) (key :: keys) sought w' := by
  cases h with
  | astray _ other => exact absurd rfl (other a)
  | looked asks look found after last =>
    cases last with
    | here => exact .looked asks look found (after.trans treads) rest

/-- What ends at the first key ends whatever follows. -/
theorem ended (h : w.Seeks g env m registry (.table a) [key] sought w') (nothing : ∀ v, sought ≠ .found v) (keys : List Value) :
    w.Seeks g env m registry (.table a) (key :: keys) sought w' := by
  cases h with
  | astray _ other => exact absurd rfl (other a)
  | refused refuses => exact .refused refuses a keys
  | full => exact .full _ _ _ _ _
  | looked _ _ _ _ last =>
    cases last with
    | here => exact absurd rfl (nothing _)
  | failed asks look bad lost => exact .failed asks look bad lost keys
  | lost asks look => exact .lost asks look keys

end World.Seeks

/-! ## Reports of what is on top -/

section Reporting

variable {t : Handle} {r : Binding.Runtime} {n : Nat} (hm : w.machines.get t.machine = .open vm)

include hm

theorem runProgram_toText (env : Env) (r : Binding.Runtime) : ∃ x w', runProgram r (some t) (Binding.Api.toText r (-1)) env w = .ok x w' := by
  unfold Binding.Api.toText
  split
  · exact ⟨_, _, rfl⟩
  · obtain ⟨s', read, -⟩ := text?_top t.thread (taken w t.machine vm)
    have asked : execute r (some t) (.toLString (-1)) env w = _ := execute_ok nofun nofun rfl hm (Perform.toLString_top read)
    have run (next : Value → Binding.Program (Option Text)) : runProgram r (some t) (.ask (.toLString (-1)) next) env w =
        runProgram r (some t) (next _) env _ := bind_ok asked
    change ∃ x w', runProgram r (some t) (.ask (.toLString (-1)) _) env w = .ok x w'
    rw [run]
    cases Lua.Arith.text? _ _ <;> exact ⟨_, _, rfl⟩

theorem runProgram_typeName (env : Env) (r : Binding.Runtime) (v : Option Lua.Value) :
    runProgram r (some t) (Binding.Api.typeName (tagOf v)) env w = .ok (kindOf v) w := by
  have asked : execute r (some t) (.typeName (tagOf v)) env w = _ :=
    execute_ok nofun nofun rfl hm (Perform.typeName_kind t v (taken w t.machine vm))
  rw [putBack_taken hm] at asked
  refine (bind_ok asked).trans ?_
  cases v with
  | none => rfl
  | some v => cases h : v.tag <;> simp only [kindOf, Lua.Value.typeName, h] <;> rfl

theorem runProgram_type (env : Env) (r : Binding.Runtime) :
    runProgram r (some t) (Binding.Api.type (-1)) env w = .ok (.int (tagOf (vm.top? t.thread))) w := by
  have asked : execute r (some t) (.type (-1)) env w = _ := execute_ok nofun nofun rfl hm (Perform.type_top t (taken w t.machine vm))
  rw [putBack_taken hm] at asked
  exact (bind_ok asked).trans rfl

/-- There are words for any value on top. -/
theorem runWith_words (env : Env) (n : Nat) : ∃ w', runWith n (some t) topMessage env w =
    .ok (wordsFor (textOf (w.runtimes.get n) vm.generation (vm.top? t.thread)) (vm.top? t.thread)) w' := by
  obtain ⟨x, w₁, read⟩ := runProgram_toText hm env (w.runtimes.get n)
  obtain ⟨message, w', run⟩ : ∃ message w', runWith n (some t) topMessage env w = .ok message w' := by
    change ∃ message w', runProgram (w.runtimes.get n) (some t) (topMessage (w.runtimes.get n)) env w = .ok message w'
    unfold topMessage
    rw [runProgram_bind, bind_ok read]
    cases x with
    | some x => exact ⟨_, _, rfl⟩
    | none =>
      obtain rfl : w₁ = w := (runWith_toText (n := n) hm read).2 rfl
      dsimp only
      rw [runProgram_bind, bind_ok (runProgram_type hm env _), runProgram_bind]
      exact ⟨_, _, bind_ok (runProgram_typeName hm env _ (vm.top? t.thread))⟩
  exact ⟨w', runWith_topMessage hm run ▸ run⟩

end Reporting

/-- The value on top of the main stack is reported, in words that depend on it alone. -/
theorem reportTop_words {base : Array Lua.Value} {v : Lua.Value} (env : Env) (hm : w.machines.get m = .open vm) (hs : vm.stack = base.push v)
    (reporter : Nat) (code : Int) (runtime : Nat) :
    ∃ w₁, w.Stirs m w₁ ∧ reportTop reporter code runtime (some (.main m)) env w =
      H.report reporter code (wordsFor (textOf (w.runtimes.get runtime) vm.generation (some v)) (some v)) none env w₁ := by
  have top : vm.top? (Handle.main m).thread = some v := by
    change vm.stack.back? = some v
    rw [hs, Array.back?_push]
  obtain ⟨w₁, worded⟩ := runWith_words (t := .main m) hm env runtime
  rw [top] at worded
  have stirs := runProgram_slight env (w.runtimes.get runtime) (slight_topMessage (w.runtimes.get runtime)) hm
  change Ended _ _ (runWith runtime (some (.main m)) topMessage env w) at stirs
  rw [worded] at stirs
  cases stirs with | back stirs => exact ⟨w₁, stirs, bind_ok worded⟩

namespace Selector

variable {s : Selector}

/-- The error of a lookup is told of, once: its status and the words for its value. -/
def Tells (g : Generation) (env : Env) (m : Nat) (s : Selector) (status : Lua.Status) (v : Lua.Value) (w : World)
    (told : EStateM.Result Stop World Unit) : Prop :=
  ∃ w₁, w.Treads g m s.registry w₁ ∧
    told = H.report s.reporter (status.code g) (wordsFor (textOf (w.runtimes.get s.runtime) g (some v)) (some v)) none env w₁

/-- How following keys ends, by what it comes to: with the value on top and its type; or a report; or an exception. -/
inductive Ends (g : Generation) (env : Env) (m : Nat) (s : Selector) (stack : Array Lua.Value) :
    Sought → World → EStateM.Result Stop World (Option Int) → Prop where
  | found {v : Lua.Value} {w w' : World} (between : Array Lua.Value) (comes : w.Comes g m s.registry ((stack ++ between).push v) w') :
    Ends g env m s stack (.found v) w (.ok (some v.tag.code) w')
  | told {status : Lua.Status} {v : Lua.Value} {w w' : World} (tells : s.Tells g env m status v w (.ok () w')) :
    Ends g env m s stack (.failed status v) w (.ok none w')
  | raised {status : Lua.Status} {v : Lua.Value} {e : Failure} {w w' : World} (tells : s.Tells g env m status v w (.error (.failure e) w')) :
    Ends g env m s stack (.failed status v) w (.error (.failure e) w')
  | refused (e : Failure) {w w' : World} (treads : w.Treads g m s.registry w') : Ends g env m s stack (.refused e) w (.error (.failure e) w')
  | lost (f : Lua.Fault) (w : World) : Ends g env m s stack (.lost f) w (.error (.signal (.fault f)) w)

namespace Ends

variable {stack : Array Lua.Value} {sought : Sought} {r : EStateM.Result Stop World (Option Int)}

/-- What lies below is found below. -/
theorem below {more : Array Lua.Value} (h : s.Ends g env m (stack ++ more) sought w r) : s.Ends g env m stack sought w r := by
  cases h with
  | found between comes =>
    rw [Array.append_assoc] at comes
    exact .found _ comes
  | told tells => exact .told tells
  | raised tells => exact .raised tells
  | refused e treads => exact .refused e treads
  | lost f => exact .lost f w

/-- Where nothing has been found, it does not matter what the stack was. -/
theorem unfound {stack' : Array Lua.Value} (h : s.Ends g env m stack sought w r) (nothing : ∀ v, sought ≠ .found v) :
    s.Ends g env m stack' sought w r := by
  cases h with
  | found => exact absurd rfl (nothing _)
  | told tells => exact .told tells
  | raised tells => exact .raised tells
  | refused e treads => exact .refused e treads
  | lost f => exact .lost f w

end Ends

/-- Following keys from a world ends so. -/
def Pursues (g : Generation) (env : Env) (m : Nat) (s : Selector) (stack : Array Lua.Value) (w : World) (v : Lua.Value) (keys : List Value)
    (r : EStateM.Result Stop World (Option Int)) : Prop :=
  ∃ sought w', w.Seeks g env m s.registry v keys sought w' ∧ s.Ends g env m stack sought w' r

/-- The function of the index chunk is that of a site. -/
theorem site_of_compiled {f : Lua.Value} (compiled : CompiledFrom vm indexChunk f) : ∃ site : Site, site.At vm f := by
  obtain ⟨bytes, encoded, address, f, c, rfl, inside, closure, made⟩ := compiled
  obtain ⟨f', n₀, n₁, l₀, l₁, made', names⟩ := indexChunk_compiles vm.generation
  have source : sourceOf indexChunk = upToNul bytes := by rw [sourceOf, encoded]
  rw [source] at made'
  cases made.symm.trans made'
  exact ⟨⟨f, _, _, l₀, n₀⟩, address, n₁, l₁, rfl, closure, names⟩

theorem Tells.ends (env : Env) (stack : Array Lua.Value) (status : Lua.Status) (v : Lua.Value) {w₁ : World} (treads : w.Treads g m s.registry w₁) :
    s.Ends g env m stack (.failed status v) w ((H.report s.reporter (status.code g)
      (wordsFor (textOf (w.runtimes.get s.runtime) g (some v)) (some v)) none >>= fun _ => Pure.pure none : H (Option Int)) env w₁) := by
  let r := (w₁.reporters.get s.reporter).handle ⟨status.code g, wordsFor (textOf (w.runtimes.get s.runtime) g (some v)) (some v), none⟩
  let told : World := { w₁ with reporters := w₁.reporters.put s.reporter r.handler, reports := w₁.reports ++ r.events }
  have run : H.report s.reporter (status.code g) (wordsFor (textOf (w.runtimes.get s.runtime) g (some v)) (some v)) none env w₁ =
      H.raise r.raised env told := rfl
  cases raised : r.raised with
  | none =>
    rw [raised] at run
    rw [bind_ok run]
    exact .told ⟨w₁, treads, run.symm⟩
  | some t =>
    rw [raised] at run
    rw [bind_error run]
    exact .raised ⟨w₁, treads, run.symm⟩

/-- The lookup is made, and what comes of it takes the place of the function, the value and the key. -/
theorem fetch_turns (he : env.Follows) {w₀ : World} (treads : w₀.Treads g m s.registry w) (h : s.Poised g m w vm) {a : Nat} {f u : Lua.Value}
    {key : Value} (hs : vm.stack = base ++ [f, .table a, u].toArray) (compiled : CompiledFrom vm indexChunk f)
    (denotes : Denotes g m w₀ w key u) : s.Pursues g env m base w₀ (.table a) [key] (s.fetch env w) := by
  obtain ⟨vm₁, below, runs, fails⟩ := runWith_outside env s.runtime 1 h.opened hs
  have compiled₁ : CompiledFrom vm₁ indexChunk f := compiled.of_closures below.generation below.size below.closure
  obtain ⟨site, there⟩ := site_of_compiled compiled₁
  have stirred : w.Treads g m s.registry (w.put m vm₁) := .put h.opened below.toAkin below.natives
  have asks : w₀.Asks g m s.registry key (w.put m vm₁) vm₁ u site :=
    ⟨treads.trans stirred, World.get_put _ _ _, denotes.later stirred.functions, f, compiled₁, there⟩
  have away : taken (w.put m vm₁) m vm₁ = taken w m vm₁ := by simp only [taken, World.put, Pool.put_put]
  have looks : Lua.Machine.outside (runner env m) f [.table a, u] (taken w m vm₁) =
      Lua.Machine.looks (env.natives m) lookupLimit site (.table a) u (taken (w.put m vm₁) m vm₁) := by
    rw [away]
    exact Lua.Machine.outside_looks (s := taken w m vm₁) there (.table a) u 399999982
  unfold fetch
  rw [h.handle]
  cases ran : Lua.Machine.outside (runner env m) f [.table a, u] (taken w m vm₁) with
  | error x s' =>
    obtain ⟨fault, rfl⟩ := Lua.Machine.outside_faults ran
    have failed : runWith s.runtime (some (.main m)) (fun _ => Binding.Api.pcall 2 1 0) env w =
        .error (.signal (.fault fault)) (putBack s' m) := fails fault s' ran
    rw [bind_error failed]
    exact ⟨_, _, .lost asks (looks.symm.trans ran) [], .lost fault _⟩
  | ok r s' =>
    obtain ⟨vm', called, left⟩ := runs r s' ran
    have one : Lua.leftAs (wantedOf 1) r = (r.one.1, [r.one.2]) := Lua.leftAs_one r
    rw [one] at called left
    let w₂ : World := putBack { s' with vm := vm' } m
    replace called : runWith s.runtime (some (.main m)) (fun _ => Binding.Api.pcall 2 1 0) env w =
      .ok (.int (r.one.1.code vm.generation)) w₂ := called
    have hm₂ : w₂.machines.get m = .open vm' := putBack_get _ _
    have same : w₂ = (putBack s' m).put m vm' := by simp only [w₂, putBack, World.put, Pool.put_put]
    have onward : (putBack s' m).Treads g m s.registry w₂ := same ▸ .put (putBack_get s' m) left.toAkin left.natives
    have leads : Leads env w (runWith s.runtime (some (.main m)) fun _ => Binding.Api.pcall 2 1 0) :=
      .runWith _ _ fun _ => Ordinary.pcall _ _ _
    have moves := leads.after he h.ready.lawful.toSound w .refl
    rw [called] at moves
    have generation : vm'.generation = g := (moves.lawful h.ready.lawful).generations m vm' hm₂
    rw [bind_ok called]
    by_cases ok : r.one.1 = .ok
    · have good : ¬ (Binding.Api.intOf (.int (r.one.1.code vm.generation)) != codeOf (w₂.runtimes.get s.runtime) .ok) = true := by
        rw [bne_iff_ne, Decidable.not_not, ok]
        rfl
      have top : Lua.Stack.value? 0 (int32 (-1)) (taken w₂ m vm') = .ok (some r.one.2) (taken w₂ m vm') :=
        Lua.Stack.value?_below (s := taken w₂ m vm') left.stack (by decide : 0 < 9999)
      have typed : runWith s.runtime (some (.main m)) (fun _ => Binding.Api.type (-1)) env w₂ = .ok (.int r.one.2.tag.code) w₂ :=
        runWith_typeAt (t := .main m) hm₂ top
      have run : s.Pursues g env m base w₀ (.table a) [key] (.ok (some r.one.2.tag.code) w₂) := by
        refine ⟨.found r.one.2, w₂, .looked asks (looks.symm.trans ran) (Prod.ext ok rfl) onward (.here w₂ _), .found #[] ⟨.refl _, vm', hm₂, ?_⟩⟩
        rw [Array.append_empty, Array.push_eq_append]
        exact left.stack
      change s.Pursues g env m base w₀ (.table a) [key] ((if _ then _ else _ : H (Option Int)) env w₂)
      rw [if_neg good, bind_ok typed]
      exact run
    · have bad : (Binding.Api.intOf (.int (r.one.1.code vm.generation)) != codeOf (w₂.runtimes.get s.runtime) .ok) = true :=
        bne_iff_ne.mpr (Lua.Status.code_ne_zero ok)
      change s.Pursues g env m base w₀ (.table a) [key] ((if _ then _ else _ : H (Option Int)) env w₂)
      rw [if_pos bad]
      obtain ⟨w₃, stirs, words⟩ := reportTop_words env hm₂ (left.stack.trans Array.push_eq_append.symm) s.reporter
        (Binding.Api.intOf (.int (r.one.1.code vm.generation))) s.runtime
      refine ⟨.failed r.one.1 r.one.2, _, .failed asks (looks.symm.trans ran) rfl ok [], ?_⟩
      have tells := Tells.ends (s := s) env base r.one.1 r.one.2 (onward.trans (stirs.treads hm₂))
      rw [generation] at words
      rw [h.vm_generation] at words ⊢
      simp only [Bind.bind, ReaderT.bind, EStateM.bind] at tells ⊢
      rw [words]
      exact tells

/-- The runtime of the selector's registry has not been made to refuse chunks. -/
def Whole (s : Selector) (w : World) : Prop := (w.runtimes.get (w.registries.get s.registry).runtime).brokenChunks = none

theorem Whole.moved (h : s.Whole w) (moves : Moves w w') : s.Whole w' := by
  rw [Whole, moves.registryRuntime, moves.continues.runtimes]
  exact h

/-- The function of the index chunk is pushed, or no slot is left for it. -/
theorem chunk_turns (env : Env) (whole : s.Whole w) (h : s.Poised g m w vm) :
    Turns g env m w (Registry.pushChunk s.registry indexChunk) fun r =>
      (∃ f w' vm', r = .ok true w' ∧ s.Paces g m w vm (vm.stack.push f) w' vm' ∧ CompiledFrom vm' indexChunk f) ∨
        ∃ w', r = .error (.signal (.fault .registryFull)) w' := by
  have compiles := compiles_accessor whole (.inl rfl : indexChunk = indexChunk ∨ indexChunk = assignChunk)
  refine (Turns.of_yields (h.chunk env (.inl rfl))).imp fun r ended => ?_
  cases ended with
  | @back pushed w' came =>
    cases pushed with
    | false => exact absurd compiles came.2
    | true =>
      obtain ⟨f, vm', pace, compiled⟩ := came
      exact .inl ⟨f, w', vm', rfl, pace, compiled⟩
  | raised failed => exact absurd compiles failed.2
  | full => exact .inr ⟨_, rfl⟩

variable (he : env.Follows)

include he

theorem lookUp_turns {w₀ : World} {vm₀ : Vm} {stack : Array Lua.Value} (h : s.Poised g m w₀ vm₀) (pace : s.Paces g m w₀ vm₀ stack w vm) {a : Nat}
    {f : Lua.Value} (hs : vm.stack = base ++ [.table a, f].toArray) (compiled : CompiledFrom vm indexChunk f) (key : Value) :
    s.Pursues g env m (base.push (.table a)) w₀ (.table a) [key] (s.lookUp key env w) := by
  obtain ⟨w₁, vm₁, copied, first⟩ := pace.toPoised.copy env hs
  unfold lookUp
  rw [bind_ok copied]
  have walk := pace.trans h first
  obtain ⟨u, w₂, vm₂, pushed, second, denotes⟩ | ⟨e, refused, refuses⟩ := walk.toPoised.host he key
  · rw [bind_ok pushed]
    have way := walk.trans h second
    have stack : vm₂.stack = base.push (.table a) ++ [f, .table a, u].toArray := by
      rw [second.stack, first.stack, hs]
      simp
    exact fetch_turns he way.comes.toTreads way.toPoised stack (second.compiled (first.compiled compiled)) (walk.denotes h.ready denotes)
  · rw [bind_error refused]
    exact ⟨_, _, .refused (walk.comes.refuses.mp refuses) a [], .refused e walk.comes.toTreads⟩

/-- A key is looked up in the table on top. -/
theorem pushEntry_turns (whole : s.Whole w) (h : s.Poised g m w vm) {a : Nat} (hs : vm.stack = base.push (.table a)) (key : Value) :
    Turns g env m w (s.pushEntry key) (s.Pursues g env m vm.stack w (.table a) [key]) := by
  obtain ⟨w₁, vm₁, roomy, first⟩ := h.room env 4
  have sound : w₁.Sound := first.ready.lawful.toSound
  rw [pushEntry_eq]
  refine .after roomy (.bind he sound (.pushChunk _ _) (chunk_turns env (whole.moved first.comes.moves) first.toPoised)
    (fun pushed w' moves => ?_) (fun x w' ended => ?_) fun pushed w₂ moves _ _ ended => ?_)
  · cases pushed with
    | false => exact .pure _
    | true => exact lookUp_leads (fun n hn => moves.continues.pairs (first.goes n hn)) key
  · obtain ⟨_, _, _, none, -⟩ | ⟨w'', full⟩ := ended
    · cases none
    · cases full
      exact ⟨_, w', .full _ _ _ _ _, .lost _ _⟩
  · obtain ⟨f, w', vm₂, same, second, compiled⟩ | ⟨_, none⟩ := ended
    · cases same
      have stack : vm₂.stack = base ++ [.table a, f].toArray := by
        rw [second.stack, first.stack, hs]
        exact Array.toList_inj.mp (by simp)
      rw [hs]
      exact .of_ended (lookUp_turns he h (first.trans h second) stack compiled key)
    · cases none

/-- Keys are followed from the value on top. -/
theorem pushKeys_turns (whole : s.Whole w) {v : Lua.Value} {tag : Int} (h : s.Poised g m w vm) (hs : vm.stack = base.push v)
    (ht : tag = v.tag.code) (keys : List Value) :
    Turns g env m w (s.pushKeys tag keys) (s.Pursues g env m base w v keys) := by
  induction keys generalizing w vm base v tag with
  | nil =>
    subst ht
    exact .of_ended ⟨_, w, .here w v, .found #[] ⟨.refl w, vm, h.opened, by rw [Array.append_empty, hs]⟩⟩
  | cons key keys ih =>
    unfold pushKeys
    by_cases table : ∃ a, v = .table a
    · obtain ⟨a, rfl⟩ := table
      have five : ¬ (tag != 5) = true := by
        rw [ht]
        exact Bool.false_ne_true
      rw [if_neg five]
      refine .bind he h.ready.lawful.toSound (.pushEntry h.goes key) (pushEntry_turns he whole h hs key) (fun found w' moves => ?_)
        (fun x w' ended => ?_) fun found w₁ moves hr fine ended => ?_
      · split
        · exact .pure _
        · exact .pushKeys (fun n hn => moves.continues.pairs (h.goes n hn)) _ _
      · obtain ⟨sought, w'', seeks, ends⟩ := ended
        have nothing (v : Lua.Value) : sought ≠ .found v := by
          rintro rfl
          cases ends
        exact ⟨sought, w'', seeks.ended nothing keys, ends.unfound nothing⟩
      · obtain ⟨sought, w'', seeks, ends⟩ := ended
        cases ends with
        | told tells => exact .of_ended ⟨_, w'', seeks.ended nofun keys, .told tells⟩
        | @found v₁ _ _ between comes =>
          obtain ⟨vm₁, hm₁, stack⟩ := comes.stack
          have poised := h.moved moves hr hm₁ (fine vm₁ hm₁)
          refine (ih (whole.moved moves) poised stack rfl).imp fun r ⟨sought, w₂, seeks', ends⟩ => ?_
          rw [hs, Array.push_eq_append, Array.append_assoc] at ends
          exact ⟨sought, w₂, seeks.onward comes.toTreads seeks', ends.below⟩
    · have other : (tag != 5) = true := by
        rw [bne_iff_ne, ht]
        exact fun same => table (Lua.Value.table_of_code same)
      obtain ⟨w', vm', run, pace⟩ := h.nothing env
      have comes := pace.comes
      rw [hs, Array.push_eq_append (a := v)] at comes
      rw [if_pos other]
      exact .after run (.of_ended ⟨_, w, .astray w (fun a same => table ⟨a, same⟩) key keys, .found #[v] comes⟩)

/-- The keys are followed from the globals. -/
theorem push_turns (whole : s.Whole w) (h : s.Poised g m w vm) {a : Nat} (globals : vm.globalTable = .table a) (keys : List Value) :
    Turns g env m w (s.push keys) fun r => ∃ w₁, w.Treads g m s.registry w₁ ∧ s.Pursues g env m vm.stack w₁ (.table a) keys r := by
  obtain ⟨w₁, vm₁, pushed, pace⟩ := h.globals env
  rw [globals] at pace
  unfold push
  refine .after pushed ((pushKeys_turns he (whole.moved pace.comes.moves) pace.toPoised pace.stack rfl keys).imp fun r pursues => ?_)
  exact ⟨w₁, pace.comes.toTreads, pursues⟩

end Selector

end LuaHost.Host
