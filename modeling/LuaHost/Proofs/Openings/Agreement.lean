import LuaHost.Proofs.Openings.Loaders
import LuaHost.Proofs.Lives.Sessions

set_option autoImplicit false

/-!
# Two ways to register a module

A loader that gives a table, and has made it the global of the name, is called once whichever way is taken, and
the two ways leave the same entries in all tables, except for one: where the interface registers modules, the table is the
module of the name as well.
-/

namespace LuaHost.Host

open Lua (M Vm Gives)
open Binding (Runtime Call Method)

variable {env : Env} {w w' : World} {vm vm' : Vm} {m l k : Nat} {name : Text} {bytes : ByteArray}

/-- A world whose interface has, or has not, a call that registers modules. -/
def World.registering (w : World) (runtime : Nat) (registers : Bool) : World :=
  { w with runtimes := w.runtimes.modify runtime fun r => { r with registers } }

theorem World.registers_registering (w : World) (runtime : Nat) (registers : Bool) :
    ((w.registering runtime registers).runtimes.get runtime).registers = registers := by
  unfold World.registering
  rw [Pool.get_modify_self]

theorem World.generation_registering (w : World) (runtime : Nat) (registers : Bool) (i : Nat) :
    ((w.registering runtime registers).runtimes.get i).generation = (w.runtimes.get i).generation := by
  unfold World.registering
  by_cases same : i = runtime
  · rw [same, Pool.get_modify_self]
  · rw [Pool.get_modify_ne _ same]

/-- The call of a loader is one call more. -/
theorem World.Offers.calls {f : Foreign} {args : List Lua.Value} {W : World} (h : w.Offers m vm f args W) :
    W.callsOf m w.foreigns.size = w.callsOf m w.foreigns.size + 1 := by
  obtain ⟨machines, foreigns, trampolines, kept, rfl⟩ := h.rest
  have this : Event.enters m w.foreigns.size (.entered m w.foreigns.size kept) = true := by
    simp only [Event.enters, beq_self_eq_true, Bool.and_self]
  exact List.countP_cons_of_pos this

/-- A loader that publishes its table does so whichever way is taken. -/
theorem World.Offers.publisher {runtime registry : Nat} {registers : Bool} {W : World}
    (h : (w.registering runtime registers).Offers m vm (w.opener registry m (publisher name)) [.str bytes] W)
    (modern : (w.runtimes.get (w.registries.get registry).runtime).generation ≠ .v51) (named : encode name = .ok bytes)
    (whole : upToNul bytes = bytes) (takes : vm.Takes l) (there : vm.globals ≠ vm.tables.size ∧ vm.registry ≠ vm.tables.size)
    (apart : vm.registry ≠ vm.globals) :
    ∃ a w₁ vm₁, (w.opener registry m (publisher name)).call (.main m) env W = .ok 1 w₁ ∧
      W.Publishes m w.foreigns.size l vm bytes a w₁ vm₁ := by
  obtain ⟨vm₁, hm₁, akin, -⟩ := h.opened
  have same : W.runtimes = (w.registering runtime registers).runtimes := by
    obtain ⟨machines, foreigns, trampolines, kept, rfl⟩ := h.rest
    rfl
  refine publisher_publishes ?_ named whole hm₁ akin takes there apart rfl rfl _
  rw [same, w.generation_registering]
  exact modern

namespace State

variable {s : State}

/-- Both ways: the loader is called once, with the name; then the global of the name is the table, no other global has
changed, nothing was reported, and the stack is as it was. In all tables the loader's entries remain, but for the module
of that name, which is the table where the interface registers modules. -/
theorem registrations_agree (routine : Routine) (hs : s.machine = some m) (hm : w.machines.get m = .open vm)
    (small : vm.stack.size < 0x80000000) (few : vm.natives + 1 < Lua.nativeLimit) (depth : Nat) (named : encode name = .ok bytes)
    (whole : upToNul bytes = bytes) (takes : vm.Takes l) (new : ((vm.tables.get l).get (.str bytes)).truthy = false)
    (publishes : ∀ registers W, (w.registering s.runtime registers).Offers m vm (w.opener s.registry m routine) [.str bytes] W →
      ∃ a w₁ vm₁, (w.opener s.registry m routine).call (.main m) ⟨nativesTo depth⟩ W = .ok 1 w₁ ∧
        W.Publishes m w.foreigns.size l vm bytes a w₁ vm₁)
    (registers : Bool) (since : registers = true → (w.runtimes.get s.runtime).generation ≠ .v51) :
    ∃ W a w₁ vm₁ w' vm', (w.registering s.runtime registers).Offers m vm (w.opener s.registry m routine) [.str bytes] W ∧
      (w.opener s.registry m routine).call (.main m) ⟨nativesTo depth⟩ W = .ok 1 w₁ ∧
      W.Publishes m w.foreigns.size l vm bytes a w₁ vm₁ ∧
      s.openLib (.text name) (.routine routine) ⟨nativesTo (depth + 1)⟩ (w.registering s.runtime registers) = .ok () w' ∧
      w'.machines.get m = .open vm' ∧ w'.callsOf m w.foreigns.size = w.callsOf m w.foreigns.size + 1 ∧
      w'.reports = w.reports ∧ vm'.stack = vm.stack ∧
      (vm'.tables.get vm.globals).get (.str bytes) = .table a ∧
      (∀ j, j ≠ .str bytes → (vm'.tables.get vm.globals).get j = (vm.tables.get vm.globals).get j) ∧
      ∀ b j, (vm'.tables.get b).get j =
        if registers = true ∧ b = l ∧ j = .str bytes then .table a else (vm₁.tables.get b).get j := by
  have way := w.registers_registering s.runtime registers
  obtain ⟨W, offers, runs⟩ := openLib_runs (w := w.registering s.runtime registers) (l := l) hs hm small few depth routine named whole
    fun on => ⟨by rw [w.generation_registering]; exact since (way.symm.trans on), takes, fun _ => new⟩
  obtain ⟨a, w₁, vm₁, called, done⟩ := publishes registers W offers
  obtain ⟨below, left⟩ := Array.back?_eq_some_iff.mp done.given
  obtain ⟨vm', run, akin, restored⟩ := runs 1 w₁ vm₁ [.table a] below (.inl called) done.opened (left.trans Array.push_eq_append) rfl
    fun _ => done.takes
  rw [way] at akin
  have entries (b : Nat) (j : Lua.Key) : (vm'.tables.get b).get j =
      if registers = true ∧ b = l ∧ j = .str bytes then .table a else (vm₁.tables.get b).get j := by
    rw [akin.tables, vm₁.entry_registered]
    by_cases module_ : registers = true ∧ b = l ∧ j = .str bytes
    · rw [if_pos module_, if_pos ⟨module_.1, .inl module_.2.1, module_.2.2⟩]
      rfl
    · rw [if_neg module_]
      split
      -- the global is set to what it is
      · next global =>
        obtain ⟨on, loaded | global, same⟩ := global
        · exact (module_ ⟨on, loaded, same⟩).elim
        · rw [global, same, done.globals, done.published]
          rfl
      · rfl
  refine ⟨W, a, w₁, vm₁, _, vm', offers, called, done, run, World.get_put _ _ _, ?_, ?_, restored, ?_, fun j hj => ?_, entries⟩
  · exact done.once.trans offers.calls
  · obtain ⟨machines, foreigns, trampolines, kept, same⟩ := offers.rest
    rw [same] at done
    exact done.silent
  · rw [entries, done.published, ite_self]
  · rw [entries, if_neg fun h => hj h.2.2, done.others j hj]

/-- A session with the standard libraries. -/
def equipped : World := Session.runAll (Session.start .v54) [⟨"s", none, .new (some true) none .create true⟩]

/-- Both ways a new table becomes the global of a name, and on one of them the module. -/
theorem registrations_agree_equipped : ∃ vm l, equipped.machines.get 0 = .open vm ∧ vm.Takes l ∧
    (∃ a w' vm', (equipped.states.get 0).openLib (.text "m") (.routine (publisher "m")) Env.full (equipped.registering 0 true) = .ok () w' ∧
      w'.machines.get 0 = .open vm' ∧ (vm'.tables.get vm.globals).get (.str "m".toUTF8) = .table a ∧
      (vm'.tables.get l).get (.str "m".toUTF8) = .table a) ∧
    ∃ a w' vm', (equipped.states.get 0).openLib (.text "m") (.routine (publisher "m")) Env.full (equipped.registering 0 false) = .ok () w' ∧
      w'.machines.get 0 = .open vm' ∧ (vm'.tables.get vm.globals).get (.str "m".toUTF8) = .table a := by
  let s := equipped.states.get 0
  have machine : s.machine = some 0 := by decide +kernel
  have runtime : s.runtime = 0 := by decide +kernel
  have modern : ∀ i < 2, (equipped.runtimes.get i).generation ≠ .v51 := by decide +kernel
  have wrapped : (equipped.registries.get s.registry).runtime < 2 := by decide +kernel
  have named : encode "m" = .ok "m".toUTF8 := rfl
  have whole : upToNul "m".toUTF8 = "m".toUTF8 := by decide +kernel
  obtain ⟨vm, hm, fit⟩ := World.open_of_shows (by decide +kernel : equipped.shows 0 (fun vm => vm.isReady "m".toUTF8 &&
    decide (vm.stack.size < 0x80000000 ∧ vm.natives + 1 < Lua.nativeLimit ∧ vm.registry ≠ vm.globals ∧
      vm.globals ≠ vm.tables.size ∧ vm.registry ≠ vm.tables.size)) = true)
  obtain ⟨ready, fit⟩ := Bool.and_eq_true_iff.mp fit
  obtain ⟨small, few, apart, there⟩ := of_decide_eq_true fit
  obtain ⟨l, takes, new⟩ := Lua.Vm.takes_of_isReady ready
  have agree := registrations_agree (s := s) (publisher "m") machine hm small few 4999 named whole takes new
    fun registers W offers => offers.publisher (modern _ wrapped) named whole takes there apart
  rw [runtime] at agree
  obtain ⟨W, a, w₁, vm₁, w', vm', -, -, -, run, hm', -, -, -, global, -, entries⟩ := agree true fun _ => modern 0 (by decide)
  obtain ⟨V, b, u₁, um₁, u', um', -, -, -, run', hu', -, -, -, global', -⟩ := agree false nofun
  refine ⟨vm, l, hm, takes, ⟨a, w', vm', run, hm', global, ?_⟩, b, u', um', run', hu', global'⟩
  rw [entries, if_pos ⟨rfl, rfl, rfl⟩]

/-- A session with the standard libraries in which new modules are kept elsewhere. -/
def diverted : World :=
  Session.runAll (Session.start .v54) [⟨"s", none, .new (some true) none .create true⟩,
    ⟨"s", none, .execute (.text "setmetatable(package.loaded, {__newindex = {}})")⟩]

/-- The global and the module of a name. -/
def globalNamed (w : World) : Selector := (w.states.get 0).select (.text "m") []

def moduleNamed (w : World) : Selector := (w.states.get 0).select (.text "package") [.text "loaded", .text "m"]

/-- Where the interface registers modules and the globals are plain, the table is the global of the name, and yet it is
not the module. -/
theorem registered_elsewhere : ∃ vm w', diverted.machines.get 0 = .open vm ∧ (vm.tables.get vm.globals).metatable = none ∧
    (diverted.runtimes.get (diverted.states.get 0).runtime).registers = true ∧
    (∃ w, (moduleNamed diverted).exists_ Env.full diverted = .ok false w) ∧
    (diverted.states.get 0).openLib (.text "m") (.routine (publisher "m")) Env.full diverted = .ok () w' ∧
    (∃ w, (globalNamed w').exists_ Env.full w' = .ok true w) ∧ ∃ w, (moduleNamed w').exists_ Env.full w' = .ok false w := by
  obtain ⟨vm, hm, bare⟩ := World.open_of_shows (by decide +kernel :
    diverted.shows 0 (fun vm => decide ((vm.tables.get vm.globals).metatable = none)) = true)
  obtain ⟨_, w', run⟩ := Session.ok_of_succeeds (by decide +kernel :
    Session.succeeds ((diverted.states.get 0).openLib (.text "m") (.routine (publisher "m")) Env.full diverted) = true)
  have after : w' = final ((diverted.states.get 0).openLib (.text "m") (.routine (publisher "m")) Env.full diverted) := by
    rw [run, final]
  refine ⟨vm, w', hm, of_decide_eq_true bare, by decide +kernel, ⟨_, Selector.ok_of_replies (by decide +kernel)⟩, run, ?_, ?_⟩
  · exact ⟨_, Selector.ok_of_replies (by rw [after]; decide +kernel)⟩
  · exact ⟨_, Selector.ok_of_replies (by rw [after]; decide +kernel)⟩

end State
end LuaHost.Host
