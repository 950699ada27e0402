import LuaHost.Files
import LuaHost.Proofs.Frame.Basic

set_option autoImplicit false

/-!
# Links

One program of the machine may run in two systems, whose hosts are of different types or in different
states. A link says which programs of the one system go with which of the other. It is enough that it
holds of the private steps and across outcomes: then it holds of everything that is built from them,
which is what the lemmas here and in the modules beside this one say, one for each function of the machine.

A frame is a link of a system with itself, and so is the statement that two hosts never grow apart.
-/

namespace LuaHost.Lua

variable {σ τ α β : Type}

namespace M

/-- A step of the machine alone. -/
def own (f : Vm → α × Vm) : M σ α := fun s => .ok (f s.vm).1 { s with vm := (f s.vm).2 }

/-- Goes on after either outcome of `act`. -/
def outcome (act : M σ α) (ok : α → M σ β) (error : Signal → M σ β) : M σ β := fun s =>
  match act s with
  | .ok a s => ok a s
  | .error e s => error e s

/-- Goes on after either outcome of `act`; a fault is handed on. -/
def settle (act : M σ α) (ok : α → M σ β) (error unwinding : Status → Value → M σ β) : M σ β :=
  act.outcome ok fun e => match e with
    | .error status v => error status v
    | .unwinding status v => unwinding status v
    | .fault f => throw (.fault f)

/-- Runs `act` from a changed machine and goes back from where it ends. -/
def visit (enter : Vm → Vm) (act : Vm → M σ α) (leave : Vm → Except Signal α → Vm → Vm) (give : Vm → α → β)
    (catches : Vm → Signal → Option β) : M σ β := do
  let before ← vm
  modifyVm enter
  (act before).outcome
    (fun a => do
      modifyVm (leave before (.ok a))
      return give before a)
    (fun e => do
      modifyVm (leave before (.error e))
      match catches before e with
      | some b => return b
      | none => throw e)

/-- The files of the host. -/
def files (files : σ → LuaHost.Files) : M σ LuaHost.Files := fun s => .ok (files s.host) s

end M

structure Link (σ τ : Type) where
  ties : {α : Type} → M σ α → M τ α → Prop
  quiet : ∀ {α : Type} (f : Vm → α × Vm), (∀ vm : Vm, vm.Quiet (f vm).2) → ties (M.own f) (M.own f)
  raise : ∀ {α : Type} (e : Signal), e ≠ .fault .unprotectedError → ties (throw e : M σ α) (throw e)
  after : ∀ {α β : Type} {act : M σ α} {act' : M τ α} {ok : α → M σ β} {ok' : α → M τ β}
    {error : Signal → M σ β} {error' : Signal → M τ β}, ties act act' → (∀ a, ties (ok a) (ok' a)) →
    (∀ e, (∀ {γ : Type}, ties (throw e : M σ γ) (throw e)) → ties (error e) (error' e)) →
    ties (act.outcome ok error) (act'.outcome ok' error')

/-- Programs that go together. A structure, so that no unifier runs them to see whether they do. -/
structure Tied (L : Link σ τ) (act : M σ α) (act' : M τ α) : Prop where
  holds : L.ties act act'

/-- A link that holds across what a run does to the threads of its machine, and across the visits of other
functions to them. -/
class Link.Running (L : Link σ τ) : Prop where
  own : ∀ {α : Type} (f : Vm → α × Vm), (∀ vm : Vm, vm.Sparing (f vm).2) → L.ties (M.own f) (M.own f)
  visit : ∀ {α β : Type} (enter : Vm → Vm) {act : Vm → M σ α} {act' : Vm → M τ α}
    (leave : Vm → Except Signal α → Vm → Vm) (give : Vm → α → β) (catches : Vm → Signal → Option β),
    (∀ vm : Vm, vm.Sparing (enter vm)) → (∀ (before : Vm) r vm, before.Lends vm (leave before r vm)) →
    (∀ before, L.ties (act before) (act' before)) →
    L.ties (M.visit enter act leave give catches) (M.visit enter act' leave give catches)

/-- A link that holds across all changes of the threads. -/
class Link.Threaded (L : Link σ τ) : Prop where
  own : ∀ {α : Type} (f : Vm → α × Vm), (∀ vm : Vm, vm.Private (f vm).2) → L.ties (M.own f) (M.own f)

/-- A link that holds across whatever a machine does alone. -/
class Link.Whole (L : Link σ τ) : Prop where
  own : ∀ {α : Type} (f : Vm → α × Vm), L.ties (M.own f) (M.own f)

instance Link.Whole.threaded (L : Link σ τ) [L.Whole] : L.Threaded := ⟨fun f _ => Link.Whole.own f⟩

namespace M

theorem bind_eq_outcome (act : M σ α) (next : α → M σ β) : act >>= next = act.outcome next throw := by
  funext s
  simp only [Bind.bind, EStateM.bind, outcome]
  cases act s with
  | ok a s => rfl
  | error e s => rfl

end M

namespace Tied

variable {L : Link σ τ}

theorem own (f : Vm → α × Vm) (h : ∀ vm : Vm, vm.Quiet (f vm).2) : Tied L (M.own f) (M.own f) := ⟨L.quiet f h⟩

theorem outcome {act : M σ α} {act' : M τ α} {ok : α → M σ β} {ok' : α → M τ β} {error : Signal → M σ β}
    {error' : Signal → M τ β} (h : Tied L act act') (k : ∀ a, Tied L (ok a) (ok' a))
    (e : ∀ e, (∀ {γ : Type}, Tied L (throw e : M σ γ) (throw e)) → Tied L (error e) (error' e)) :
    Tied L (act.outcome ok error) (act'.outcome ok' error') :=
  ⟨L.after h.holds (fun a => (k a).holds) fun x thrown => (e x ⟨thrown⟩).holds⟩

theorem settle {act : M σ α} {act' : M τ α} {ok : α → M σ β} {ok' : α → M τ β}
    {error unwinding : Status → Value → M σ β} {error' unwinding' : Status → Value → M τ β} (h : Tied L act act')
    (k : ∀ a, Tied L (ok a) (ok' a)) (e : ∀ status v, Tied L (error status v) (error' status v))
    (u : ∀ status v, Tied L (unwinding status v) (unwinding' status v)) :
    Tied L (act.settle ok error unwinding) (act'.settle ok' error' unwinding') := by
  refine .outcome h k fun signal thrown => ?_
  cases signal with
  | error status v => exact e status v
  | unwinding status v => exact u status v
  | fault f => exact thrown

@[grind ←] theorem bind {act : M σ α} {act' : M τ α} {next : α → M σ β} {next' : α → M τ β} (h : Tied L act act')
    (k : ∀ a, Tied L (next a) (next' a)) : Tied L (act >>= next) (act' >>= next') := by
  rw [M.bind_eq_outcome, M.bind_eq_outcome]
  exact .outcome h k fun _ thrown => thrown

@[grind ←] theorem pure (a : α) :
    Tied L (Pure.pure a : M σ α) (Pure.pure a) := own (fun vm => (a, vm)) fun _ => .of_eq rfl rfl rfl rfl rfl rfl rfl

theorem read (f : Vm → α) : Tied L (fun s => .ok (f s.vm) s : M σ α) (fun s => .ok (f s.vm) s) :=
  own (fun vm => (f vm, vm)) fun _ => .of_eq rfl rfl rfl rfl rfl rfl rfl

theorem ite {c : Prop} [Decidable c] {yes no : M σ α} {yes' no' : M τ α} (h : Tied L yes yes') (k : Tied L no no') :
    Tied L (if c then yes else no) (if c then yes' else no') := by
  split
  · exact h
  · exact k

@[grind ←] theorem map {act : M σ α} {act' : M τ α} (f : α → β) (h : Tied L act act') :
    Tied L (f <$> act) (f <$> act') := by
  rw [map_eq_pure_bind, map_eq_pure_bind]
  exact .bind h fun a => .pure (f a)

@[grind ←] theorem discard {act : M σ α} {act' : M τ α} (h : Tied L act act') :
    Tied L (discard act) (discard act') := map _ h

@[grind ←] theorem throw_error (status : Status) (v : Value) :
    Tied L (throw (.error status v) : M σ α) (throw (.error status v)) := ⟨L.raise _ (by simp)⟩

@[grind ←] theorem throw_unwinding (status : Status) (v : Value) :
    Tied L (throw (.unwinding status v) : M σ α) (throw (.unwinding status v)) := ⟨L.raise _ (by simp)⟩

@[grind ←] theorem throw_fault (f : Fault) (h : f ≠ .unprotectedError) :
    Tied L (throw (.fault f) : M σ α) (throw (.fault f)) := ⟨L.raise _ (by simpa using h)⟩

@[grind ←] theorem fault (f : Fault) (h : f ≠ .unprotectedError) :
    Tied L (M.fault f : M σ α) (M.fault f) := throw_fault f h

@[grind ←] theorem raise (v : Value) : Tied L (M.raise v : M σ α) (M.raise v) := throw_error _ _

@[grind ←] theorem vm : Tied L (M.vm : M σ Vm) M.vm := read id

@[grind ←] theorem generation : Tied L (M.generation : M σ Generation) M.generation := read fun vm => vm.generation

@[grind ←] theorem table (a : Nat) : Tied L (M.table a : M σ Table) (M.table a) := read fun vm => vm.tables.get a

@[grind ←] theorem cell (a : Nat) : Tied L (M.cell a : M σ Value) (M.cell a) := read fun vm => vm.cells.get a

@[grind ←] theorem closure (a : Nat) :
    Tied L (M.closure a : M σ Closure) (M.closure a) := read fun vm => vm.closures.get a

@[grind ←] theorem thread (t : Nat) : Tied L (M.thread t : M σ Thread) (M.thread t) := read fun vm => vm.threads.get t

@[grind ←] theorem modifyVm (f : Vm → Vm) (h : ∀ vm : Vm, vm.Quiet (f vm)) :
    Tied L (M.modifyVm f : M σ Unit) (M.modifyVm f) := own (fun vm => ((), f vm)) h

@[grind ←] theorem setCell (a : Nat) (v : Value) : Tied L (M.setCell a v : M σ Unit) (M.setCell a v) :=
  modifyVm _ fun _ => .of_eq rfl rfl rfl rfl rfl rfl rfl

@[grind ←] theorem modifyTable (a : Nat) (f : Table → Table) (h : ∀ t : Table, t.Keeps (f t)) :
    Tied L (M.modifyTable a f : M σ Unit) (M.modifyTable a f) := modifyVm _ fun vm => ⟨.modifyTable vm a f h, rfl, rfl⟩

theorem setString (a : Nat) (name : String) (v : Value) :
    Tied L (M.modifyTable a fun t => t.setString name v : M σ Unit) (M.modifyTable a fun t => t.setString name v) :=
  modifyTable a _ fun t => .setString t name v

@[grind ←] theorem newTable (t : Table) : Tied L (M.newTable t : M σ Nat) (M.newTable t) :=
  own (fun vm => (vm.tables.size, { vm with tables := vm.tables.add t })) fun vm => ⟨.addTable vm t, rfl, rfl⟩

@[grind ←] theorem newClosure (c : Closure) : Tied L (M.newClosure c : M σ Value) (M.newClosure c) :=
  own (fun vm => (Value.closure vm.closures.size, { vm with closures := vm.closures.add c })) fun vm =>
    ⟨.addClosure vm c, rfl, rfl⟩

@[grind ←] theorem newUserdata (u : Userdata) : Tied L (M.newUserdata u : M σ Nat) (M.newUserdata u) :=
  own (fun vm => (vm.userdata.size, { vm with userdata := vm.userdata.add u })) fun _ =>
    .of_eq rfl rfl rfl rfl rfl rfl rfl

@[grind ←] theorem newCell (v : Value) : Tied L (M.newCell v : M σ Nat) (M.newCell v) :=
  own (fun vm => (vm.cells.size, { vm with cells := vm.cells.add v })) fun _ => .of_eq rfl rfl rfl rfl rfl rfl rfl

@[grind ←] theorem native (f : Native) : Tied L (M.native f : M σ Value) (M.native f) := by
  have step (ρ : Type) : (M.native f : M ρ Value) = M.generation >>= fun g =>
      if g == .v51 then M.own fun vm => (.native f vm.nextIdentity, { vm with nextIdentity := vm.nextIdentity + 1 })
      else Pure.pure (.native f 0) := by
    funext s
    simp only [M.native, Bind.bind, EStateM.bind, M.generation]
    split
    · rfl
    · rfl
  rw [step, step]
  exact .bind .generation fun g => .ite (own _ fun _ => .of_eq rfl rfl rfl rfl rfl rfl rfl) (.pure _)

@[grind ←] theorem rawSet (a : Nat) (key v : Value) : Tied L (M.rawSet a key v : M σ Unit) (M.rawSet a key v) := by
  unfold M.rawSet
  split
  · next k hk =>
    refine modifyVm _ fun vm => ⟨.modifyNoted vm a _ _ fun hn ha t => .set t k _ v _ ?_, rfl, rfl⟩
    simpa [ha] using hn
  · exact pure _

@[grind ←] theorem mapM {next : α → M σ β} {next' : α → M τ β} (h : ∀ a, Tied L (next a) (next' a)) (as : List α) :
    Tied L (as.mapM next) (as.mapM next') := by
  induction as with
  | nil =>
    rw [List.mapM_nil, List.mapM_nil]
    exact .pure _
  | cons a rest ih =>
    rw [List.mapM_cons, List.mapM_cons]
    exact .bind (h a) fun b => .bind ih fun bs => .pure _

@[grind ←] theorem forM {next : α → M σ PUnit} {next' : α → M τ PUnit} (h : ∀ a, Tied L (next a) (next' a)) (as : List α) :
    Tied L (as.forM next) (as.forM next') := by
  induction as with
  | nil => exact .pure _
  | cons a rest ih => exact .bind (h a) fun _ => ih

@[grind ←] theorem foldlM {next : β → α → M σ β} {next' : β → α → M τ β} (h : ∀ b a, Tied L (next b a) (next' b a))
    (b : β) (as : List α) : Tied L (as.foldlM next b) (as.foldlM next' b) := by
  induction as generalizing b with
  | nil => exact .pure _
  | cons a rest ih => exact .bind (h b a) fun b => ih b

theorem whole [L.Whole] (f : Vm → α × Vm) : Tied L (M.own f) (M.own f) := ⟨Link.Whole.own f⟩

section

variable [L.Running]

theorem sparing (f : Vm → α × Vm) (h : ∀ vm : Vm, vm.Sparing (f vm).2) : Tied L (M.own f) (M.own f) :=
  ⟨Link.Running.own f h⟩

theorem modifySparing (f : Vm → Vm) (h : ∀ vm : Vm, vm.Sparing (f vm)) :
    Tied L (M.modifyVm f : M σ Unit) (M.modifyVm f) := sparing (fun vm => ((), f vm)) h

@[grind ←] theorem modifyThread (t : Nat) (f : Thread → Thread) (h : ∀ th : Thread, th.Ready → (f th).Ready) :
    Tied L (M.modifyThread t f : M σ Unit) (M.modifyThread t f) := modifySparing _ fun vm => .modifyThread vm t f h

@[grind ←] theorem newThread (t : Thread) (h : t.Ready) :
    Tied L (M.newThread t : M σ Nat) (M.newThread t) :=
  sparing (fun vm => (vm.threads.size, { vm with threads := vm.threads.add t })) fun vm => .addThread vm t h

end

section

variable [L.Threaded]

theorem any (f : Vm → α × Vm) (h : ∀ vm : Vm, vm.Private (f vm).2) : Tied L (M.own f) (M.own f) :=
  ⟨Link.Threaded.own f h⟩

@[grind ←] theorem modifyAny (f : Vm → Vm) (h : ∀ vm : Vm, vm.Private (f vm)) :
    Tied L (M.modifyVm f : M σ Unit) (M.modifyVm f) := any (fun vm => ((), f vm)) h

/-- Any change of a thread at all. -/
@[grind ←] theorem drawThread (t : Nat) (f : Thread → Thread) :
    Tied L (M.modifyThread t f : M σ Unit) (M.modifyThread t f) := modifyAny _ fun _ => .of_eq rfl rfl rfl rfl rfl

/-- What a link promises across all changes of the threads, it promises across visits. -/
theorem visit (enter : Vm → Vm) {act : Vm → M σ α} {act' : Vm → M τ α} (leave : Vm → Except Signal α → Vm → Vm)
    (give : Vm → α → β) (catches : Vm → Signal → Option β) (he : ∀ vm : Vm, vm.Private (enter vm))
    (hl : ∀ (before : Vm) r (vm : Vm), vm.Private (leave before r vm)) (ha : ∀ before, Tied L (act before) (act' before)) :
    Tied L (M.visit enter act leave give catches) (M.visit enter act' leave give catches) := by
  refine .bind .vm fun before => .bind (modifyAny _ he) fun _ => .outcome (ha before)
    (fun a => .bind (modifyAny _ (hl before _)) fun _ => .pure _) fun e thrown =>
      .bind (modifyAny _ (hl before _)) fun _ => ?_
  cases catches before e with
  | some b => exact .pure b
  | none => exact thrown

end

end Tied

namespace Link

instance Threaded.running (L : Link σ τ) [L.Threaded] : L.Running where
  own f h := Link.Threaded.own f fun vm => (h vm).keeps
  visit enter _ _ leave give catches he hl ha :=
    (Tied.visit enter leave give catches (fun vm => (he vm).keeps) (fun before r vm => (hl before r vm).keeps)
      fun before => ⟨ha before⟩).holds

/-- Services that go together. -/
structure Serves (L : Link σ τ) (services : Services σ) (services' : Services τ) : Prop where
  call : ∀ f args, Tied L (services.call f args) (services'.call f args)
  callPlain : ∀ f args, Tied L (services.callPlain f args) (services'.callPlain f args)
  resume : ∀ co args, Tied L (services.resume co args) (services'.resume co args)

attribute [grind ←] Serves.call Serves.callPlain Serves.resume

/-- Meanings of native functions that go together. -/
def Natives (L : Link σ τ) (natives : Lua.Natives σ) (natives' : Lua.Natives τ) : Prop :=
  ∀ services services', L.Serves services services' → ∀ f upvalues args,
    Tied L (natives services f upvalues args) (natives' services' f upvalues args)

/-- Hosts whose files go together. -/
def Files (L : Link σ τ) (files : σ → LuaHost.Files) (files' : τ → LuaHost.Files) : Prop :=
  Tied L (M.files files) (M.files files')

end Link

variable {L : Link σ τ}

@[grind ←] theorem metatable?_tied (v : Value) : Tied L (M.metatable? v) (M.metatable? v) := by
  unfold M.metatable?
  grind

@[grind ←] theorem metamethod_tied (v : Value) (e : String) : Tied L (M.metamethod v e) (M.metamethod v e) := by
  unfold M.metamethod
  grind

end LuaHost.Lua
