import LuaHost.Proofs.Openings.Registrations
import LuaHost.Proofs.Reports.Calls

set_option autoImplicit false

/-!
# Loaders

A loader makes calls on the thread that it is called on. One that makes a table, makes it the global of a name and
gives it does so in whatever world it is called.
-/

namespace LuaHost.Lua

variable {vm : Vm} {base : Array Value} {v : Value}

theorem Vm.stacks_pushed (vm : Vm) (v : Value) : vm.Stacks (vm.stack.push v) (vm.pushed 0 v) :=
  ⟨(Vm.Akin.refl vm).course _ _ _, rfl, vm.stackOf_pushed 0 v⟩

theorem Vm.Stacks.assign {vm vm' : Vm} {stack : Array Value} (h : vm.Stacks stack vm') (a : Nat) (key v : Value) {k : Key}
    (hk : key.key? = some k) : (vm.assign a key v hk).Stacks stack (vm'.assign a key v hk) :=
  ⟨h.toAkin.assign a key v hk, h.natives, h.stack⟩

theorem Vm.top_push (h : vm.stack = base.push v) : vm.top 0 = v := by
  change vm.stack.back?.getD .nil = v
  rw [h, Array.back?_push, Option.getD_some]

theorem Value.key?_str (text : ByteArray) : (Value.str text).key? = some (.str text) :=
  rfl

/-- A machine with a new table that has become a global. -/
def Vm.publishing (vm : Vm) (name : ByteArray) : Vm :=
  ({ vm with tables := vm.tables.add .empty } : Vm).assign vm.globals (.str name) (.table vm.tables.size) (Value.key?_str name)

theorem Vm.Akin.addTable {vm vm' : Vm} (h : vm.Akin vm') (t : Table) :
    ({ vm with tables := vm.tables.add t } : Vm).Akin { vm' with tables := vm'.tables.add t } :=
  ⟨⟨h.generation, h.registry, h.globals, by simp only [h.tables], h.size, h.closure⟩, h.breached⟩

end LuaHost.Lua

namespace LuaHost.Host

open Lua (M Vm Gives)
open Binding (Runtime Call Method Program)

variable {env : Env} {w w' : World} {vm vm' : Vm} {m l k : Nat} {name : Text} {bytes : ByteArray} {s : Lua.Sys World}
  {base : Array Lua.Value} {v : Lua.Value} {f : Foreign} {t : Handle} {calls : List RoutineCall} {result : Value}
  {raises : Option (String × Text)} {e : Failure}

/-! ## What a loader has done -/

def Event.enters (m k : Nat) : Event → Bool
  | .entered n i _ => n == m && i == k
  | _ => false

/-- How often a machine has called a function of the host. -/
def World.callsOf (w : World) (m k : Nat) : Nat := w.journal.countP (Event.enters m k)

/-- In one run on machine `vm` a loader has made a table the global of a name, and left it on top of the stack. The
other globals are as they were. -/
structure World.Publishes (w : World) (m k l : Nat) (vm : Vm) (name : ByteArray) (a : Nat) (w' : World) (vm' : Vm) : Prop where
  opened : w'.machines.get m = .open vm'
  given : vm'.stack.back? = some (.table a)
  globals : vm'.globals = vm.globals
  published : (vm'.tables.get vm.globals).get (.str name) = .table a
  others : ∀ j, j ≠ .str name → (vm'.tables.get vm.globals).get j = (vm.tables.get vm.globals).get j
  takes : vm'.Takes l
  silent : w'.reports = w.reports
  once : w'.callsOf m k = w.callsOf m k

/-! ## Calls -/

namespace Perform

/-- A new table is pushed. -/
theorem createTable_gives (env : Env) (m : Nat) (a b : Int) (s : Lua.Sys World) :
    Gives s (perform env (.main m) (.createTable a b)) fun _ vm =>
      ({ s.vm with tables := s.vm.tables.add .empty } : Vm).Stacks (s.vm.stack.push (.table s.vm.tables.size)) vm :=
  ⟨.none, _, rfl, Vm.stacks_pushed { s.vm with tables := s.vm.tables.add .empty } _⟩

theorem copyTop_gives (env : Env) (m : Nat) (hs : s.vm.stack = base.push v) :
    Gives s (perform env (.main m) (.pushValue (-1))) fun _ vm => s.vm.Stacks ((base.push v).push v) vm := by
  refine (copy env (.main m) (-1) s).imp fun _ vm h => ?_
  obtain ⟨u, value, rfl⟩ := h
  have top : Lua.Stack.value 0 (-1) s = .ok u s := value
  rw [value_top, Vm.top_push hs] at top
  cases top
  rw [← hs]
  exact s.vm.stacks_pushed v

/-- The top value becomes a global. -/
theorem setGlobal_gives (env : Env) (m : Nat) (n : ByteArray) (hs : s.vm.stack = base.push v)
    (bare : (s.vm.tables.get s.vm.globals).metatable = none) :
    Gives s (perform env (.main m) (.setGlobal n)) fun _ vm =>
      (s.vm.assign s.vm.globals (.str (upToNul n)) v rfl).Stacks base vm := by
  let target : Vm := s.vm.assign s.vm.globals (.str (upToNul n)) v rfl
  unfold perform
  refine .bind (q := fun _ vm => vm = s.vm) ⟨_, _, rfl, rfl⟩ ?_
  rintro g _ rfl
  refine .bind (q := fun _ vm => target.Stacks base vm) ?_ fun _ vm h => .pure h
  refine .bind (q := fun u vm => u = .table s.vm.globals ∧ vm = s.vm) ⟨_, _, rfl, rfl, rfl⟩ ?_
  rintro _ _ ⟨rfl, rfl⟩
  refine .bind (q := fun u vm => u = v ∧ vm = s.vm) ⟨_, _, value_top 0 s, Vm.top_push hs, rfl⟩ ?_
  rintro _ _ ⟨rfl, rfl⟩
  refine .bind (q := fun _ vm => target.Stacks s.vm.stack vm) (.onThread (fun vm h _ => ?_) fun _ _ _ h => ⟨h.course _ _ _, h.natives, h.stack⟩)
    fun _ vm h => ?_
  · have same : (vm.tables.get s.vm.globals).metatable = none := by rw [h.tables, bare]
    exact ⟨(), _, Lua.M.setEntry_plain (s := { s with vm }) (services env m) same _ _ rfl, h.assign _ _ _ _⟩
  · obtain ⟨u, vm', popped, -, restored⟩ := Gives.pop (s := { s with vm }) (h.stack.trans hs)
    refine ⟨(), vm', ?_, h.trans restored⟩
    change EStateM.map _ (Lua.Stack.pop 0) _ = _
    simp only [EStateM.map, popped]

end Perform

/-- One call of a routine, which is written down. -/
theorem RoutineCall.plain_runs (runtime : Nat) (shown : String) {method : Method} {c : Call} {q : Vm → Prop}
    (asks : method.program (w.runtimes.get runtime) = .ask c fun _ => .done .none) (hn : c ≠ .newState) (hc : c ≠ .close)
    (ha : checkArguments c = .ok ()) (hm : w.machines.get m = .open vm) (gives : Gives (taken w m vm) (perform env (.main m) c) fun _ => q) :
    ∃ w' vm', RoutineCall.run runtime (.main m) (.plain shown method) env w = .ok () w' ∧ w'.machines.get m = .open vm' ∧ q vm' ∧
      w.Unheard w' ∧ w'.journal = w.journal := by
  obtain ⟨v, vm', executed, held⟩ := execute_gives env (r := w.runtimes.get runtime) (t := .main m) hn hc ha hm gives
  have ran : runWith runtime (some (.main m)) method.program env w = .ok .none (w.put m vm') := by
    change runProgram (w.runtimes.get runtime) _ (method.program (w.runtimes.get runtime)) env w = _
    rw [asks]
    exact bind_ok executed
  exact ⟨_, vm', bind_ok ran, World.get_put w m vm', held, ⟨rfl, rfl, rfl⟩, rfl⟩

/-! ## Raw functions -/

/-- What a raw function does, before its error is told of. -/
def Foreign.raw (f : Foreign) (t : Handle) (calls : List RoutineCall) (result : Value) (raises : Option (String × Text)) : H Int := do
  runCalls f.runtime t calls
  match raises with
  | some (kind, message) => raiseFailure kind message
  | none => H.ofExcept (rawResult result)

theorem Foreign.call_raw (hr : f.routine = .raw calls result raises) (indirect : f.isDirect = false) :
    f.call t = H.catch_ (f.raw t calls result raises) fun e => reportFailure f e := by
  unfold Foreign.call Foreign.raw
  rw [hr, indirect]
  rfl

/-- A raw function that raises gives nothing, and its error is told of. -/
theorem Foreign.call_raised (hr : f.routine = .raw calls result raises) (indirect : f.isDirect = false)
    (raised : f.raw t calls result raises env w = .error (.failure e) w') : Gave (f.call t env w) 0 (w'.told f e) := by
  have told : f.call t env w = f.ending w' e 0 (w'.told f e) := by
    rw [Foreign.call_raw hr indirect, H.catch_, raised]
    exact reportFailure_told f e
  rw [told, Foreign.ending]
  cases (f.telling w' e).raised with
  | none => exact .inl rfl
  | some _ => exact .inr ⟨rfl, _, rfl⟩

/-- What makes a table, makes it the global of a name, and gives it. -/
def publisher (name : Text) : Routine :=
  .raw [.plain "createtable" (.createTable 0 0), .plain "pushvalue" (.pushValue (-1)), .plain "setglobal" (.setGlobal (.text name))]
    (.int 1) none

theorem setGlobal_asks {r : Runtime} (modern : r.generation ≠ .v51) (named : encode name = .ok bytes) :
    (Method.setGlobal (.text name)).program r = .ask (.setGlobal bytes) fun _ => .done .none := by
  have asks : Binding.Api.setGlobal r (.text name) = .ask (.setGlobal bytes) fun _ => .done () := by
    unfold Binding.Api.setGlobal Binding.Api.nameBytes
    dsimp only
    rw [named]
    change (if _ then _ else _) = _
    rw [if_neg (by simpa using modern)]
    rfl
  change Method.ofUnit (Binding.Api.setGlobal r (.text name)) = _
  rw [asks]
  rfl

theorem publisher_runs (env : Env) (modern : (w.runtimes.get f.runtime).generation ≠ .v51) (named : encode name = .ok bytes)
    (whole : upToNul bytes = bytes) (hm : w.machines.get m = .open vm') (akin : vm.Akin vm')
    (bare : (vm.tables.get vm.globals).metatable = none) (there : vm.globals ≠ vm.tables.size) (routine : f.routine = publisher name)
    (indirect : f.isDirect = false) :
    ∃ w₁ vm₁, f.call (.main m) env w = .ok 1 w₁ ∧ w₁.machines.get m = .open vm₁ ∧ (vm.publishing bytes).Akin vm₁ ∧
      vm₁.stack = vm'.stack.push (.table vm.tables.size) ∧ w.Unheard w₁ ∧ w₁.journal = w.journal := by
  have size : vm'.tables.size = vm.tables.size := by rw [akin.tables]
  obtain ⟨w₁, vm₁, made, hm₁, table, unheard₁, journal₁⟩ := RoutineCall.plain_runs f.runtime "createtable"
    (rfl : (Method.createTable 0 0).program _ = _) (by simp) (by simp) rfl hm (Perform.createTable_gives env m 0 0 (taken w m vm'))
  obtain ⟨w₂, vm₂, copied, hm₂, copy, unheard₂, journal₂⟩ := RoutineCall.plain_runs f.runtime "pushvalue"
    (rfl : (Method.pushValue (-1)).program _ = _) (by simp) (by simp) rfl hm₁ (Perform.copyTop_gives env m (s := taken w₁ m vm₁) table.stack)
  have akin₂ : ({ vm with tables := vm.tables.add .empty } : Vm).Akin vm₂ := (akin.addTable .empty).trans (table.toAkin.trans copy.toAkin)
  have plain : (vm₂.tables.get vm₂.globals).metatable = none := by
    rw [akin₂.tables, akin₂.globals]
    exact (congrArg Lua.Table.metatable (Pool.get_add_ne _ there _)).trans bare
  have modern₂ : (w₂.runtimes.get f.runtime).generation ≠ .v51 := by rwa [unheard₂.runtimes, unheard₁.runtimes]
  obtain ⟨w₃, vm₃, stored, hm₃, global, unheard₃, journal₃⟩ := RoutineCall.plain_runs f.runtime "setglobal"
    (setGlobal_asks modern₂ named) (by simp) (by simp) rfl hm₂ (Perform.setGlobal_gives env m bytes (s := taken w₂ m vm₂) copy.stack plain)
  have ran : f.raw (.main m) [.plain "createtable" (.createTable 0 0), .plain "pushvalue" (.pushValue (-1)),
      .plain "setglobal" (.setGlobal (.text name))] (.int 1) none env w = .ok 1 w₃ :=
    (bind_ok ((bind_ok made).trans ((bind_ok copied).trans ((bind_ok stored).trans rfl)))).trans rfl
  have akin₃ : (vm.publishing bytes).Akin vm₃ := by
    have stored : (vm₂.assign vm₂.globals (.str (upToNul bytes)) (.table vm'.tables.size) rfl).Akin vm₃ := global.toAkin
    have globals : vm₂.globals = vm.globals := akin₂.globals
    simp only [whole, globals, size] at stored
    exact (akin₂.assign _ _ _ _).trans stored
  refine ⟨w₃, vm₃, ?_, hm₃, akin₃, size ▸ global.stack, (unheard₁.trans unheard₂).trans unheard₃,
    journal₃.trans (journal₂.trans journal₁)⟩
  rw [Foreign.call_raw routine indirect, H.catch_, ran]

/-- Such a loader publishes its table, in whatever world it is called. -/
theorem publisher_publishes (modern : (w.runtimes.get f.runtime).generation ≠ .v51) (named : encode name = .ok bytes)
    (whole : upToNul bytes = bytes) (hm : w.machines.get m = .open vm') (akin : vm.Akin vm') (takes : vm.Takes l)
    (there : vm.globals ≠ vm.tables.size ∧ vm.registry ≠ vm.tables.size) (apart : vm.registry ≠ vm.globals)
    (routine : f.routine = publisher name) (indirect : f.isDirect = false) (k : Nat) :
    ∃ a w₁ vm₁, f.call (.main m) env w = .ok 1 w₁ ∧ w.Publishes m k l vm bytes a w₁ vm₁ := by
  obtain ⟨w₁, vm₁, called, hm₁, akin₁, stack, unheard, journal⟩ :=
    publisher_runs env modern named whole hm akin takes.bare there.1 routine indirect
  let made : Vm := { vm with tables := vm.tables.add .empty }
  have writes := (Vm.Writes.assign (p := fun _ => False) made vm.globals (.table vm.tables.size) (k := .str bytes) rfl).akin akin₁
  have old {b : Nat} (hb : b ≠ vm.tables.size) : made.tables.get b = vm.tables.get b := Pool.get_add_ne _ hb _
  have spared (b : Nat) (j : Lua.Key) : ¬ made.Exempt (fun _ => False) b j := fun h => h.2.choose_spec.2
  refine ⟨vm.tables.size, w₁, vm₁, called, hm₁, by rw [stack, Array.back?_push], akin₁.globals, writes.entry, fun j hj => ?_,
    ⟨?_, ?_, ?_⟩, unheard.reports, congrArg (List.countP _) journal⟩
  · rw [writes.others _ _ (fun h => hj h.2) (spared _ _), old there.1]
  · have entry := writes.others vm.registry (.str "_LOADED".toUTF8) (fun h => apart h.1) (spared _ _)
    rw [old there.2] at entry
    unfold Lua.Vm.modules
    rw [akin₁.registry]
    exact entry.trans takes.modules
  · rw [writes.metatable]
    by_cases new : l = vm.tables.size
    · rw [new, Pool.get_add_self]
      rfl
    · rw [old new, takes.plain]
  · rw [writes.metatable, akin₁.globals]
    exact (congrArg Lua.Table.metatable (old there.1)).trans takes.bare

end LuaHost.Host
