import LuaHost.Proofs.Walks.Worlds

set_option autoImplicit false

/-!
# What an operation yields

An operation comes back, or raises, or finds no slot left. What is said of the first two is said under the
condition that pinning gave slots that were free, and follows the way in which operations are put together.
-/

namespace LuaHost.Host

open Lua (Vm Generation)

variable {g : Generation} {env : Env} {w w' : World} {vm vm' : Vm} {m : Nat} {α β : Type}

/-- How an operation ended. -/
inductive Ended (Q : α → World → Prop) (E : Failure → World → Prop) : EStateM.Result Stop World α → Prop
  | back {a : α} {w : World} (h : Q a w) : Ended Q E (.ok a w)
  | raised {e : Failure} {w : World} (h : E e w) : Ended Q E (.error (.failure e) w)
  /-- no slot was left -/
  | full {w : World} : Ended Q E (.error (.signal (.fault .registryFull)) w)

/-- An operation ends as described, if pinning gave slots that were free. -/
def Yields (g : Generation) (env : Env) (w : World) (act : H α) (Q : α → World → Prop) (E : Failure → World → Prop) : Prop :=
  Reliable g (final (act env w)).journal → Ended Q E (act env w)

theorem Ended.bind {act : H α} {next : α → H β} {P : α → World → Prop} {Q : β → World → Prop} {E F : Failure → World → Prop}
    (h : Ended P E (act env w)) (k : ∀ a w', P a w' → Ended Q F (next a env w')) (he : ∀ e w', E e w' → F e w') :
    Ended Q F ((act >>= next) env w) := by
  cases run : act env w with
  | ok a w' =>
    rw [run] at h
    rw [bind_ok run]
    cases h with
    | back hp => exact k a w' hp
  | error x w' =>
    rw [run] at h
    rw [bind_error run]
    cases h with
    | raised h => exact .raised (he _ _ h)
    | full => exact .full

theorem Ended.imp {P Q : α → World → Prop} {E F : Failure → World → Prop} {result : EStateM.Result Stop World α} (h : Ended P E result)
    (hq : ∀ a w', P a w' → Q a w') (he : ∀ e w', E e w' → F e w') : Ended Q F result := by
  cases h with
  | back h => exact .back (hq _ _ h)
  | raised h => exact .raised (he _ _ h)
  | full => exact .full

namespace Yields

variable {act act' : H α} {next : α → H β} {P Q : α → World → Prop} {R : β → World → Prop} {E F : Failure → World → Prop}

theorem of_ok {a : α} (run : act env w = .ok a w') (h : Q a w') : Yields g env w act Q E := fun _ => run ▸ .back h

theorem of_raised {e : Failure} (run : act env w = .error (.failure e) w') (h : E e w') : Yields g env w act Q E :=
  fun _ => run ▸ .raised h

theorem of_ended (h : Ended Q E (act env w)) : Yields g env w act Q E := fun _ => h

theorem of_eq (same : act env w = act' env w) (h : Yields g env w act' Q E) : Yields g env w act Q E := by
  rw [Yields, same]
  exact h

theorem imp (h : Yields g env w act P E) (hq : ∀ a w', P a w' → Q a w') (he : ∀ e w', E e w' → F e w') :
    Yields g env w act Q F := fun hr => (h hr).imp hq he

/-- An operation after one that is known to come back. -/
theorem after {a : α} (run : act env w = .ok a w') (h : Yields g env w' (next a) R E) : Yields g env w (act >>= next) R E := by
  unfold Yields
  rw [bind_ok run]
  exact h

/-- An operation after one that ends the same whatever slots are given. -/
theorem onward (h : Ended P E (act env w)) (k : ∀ a w', P a w' → Yields g env w' (next a) R F) (he : ∀ e w', E e w' → F e w') :
    Yields g env w (act >>= next) R F := by
  intro hr
  cases run : act env w with
  | ok a w' =>
    rw [run] at h
    rw [bind_ok run] at hr ⊢
    cases h with
    | back hp => exact k a w' hp hr
  | error x w' =>
    rw [run] at h
    rw [bind_error run]
    cases h with
    | raised h => exact .raised (he _ _ h)
    | full => exact .full

theorem runtime {n : Nat} {next : Binding.Runtime → H β} (h : Yields g env w (next (w.runtimes.get n)) R E) :
    Yields g env w (H.runtime n >>= next) R E := h

/-- An operation after another, in a world that is ready. -/
theorem bind (he : env.Follows) (ready : w.Ready g) (leads : Leads env w act) (h : Yields g env w act P E)
    (on : ∀ a w', Moves w w' → Leads env w' (next a))
    (k : ∀ a w', w'.Ready g → Moves w w' → P a w' → Yields g env w' (next a) R E) : Yields g env w (act >>= next) R E := by
  intro hr
  have moves := leads.after he ready.lawful.toSound w .refl
  cases run : act env w with
  | ok a w' =>
    rw [run] at moves
    rw [bind_ok run] at hr ⊢
    have later := (on a w' moves).after he (moves.sound ready.lawful.toSound) w' .refl
    obtain ⟨es, journal, -⟩ := later.continues.journal
    have hr' : Reliable g w'.journal := .of_append (journal ▸ hr)
    have first := h (run ▸ hr')
    rw [run] at first
    cases first with
    | back hp => exact k a w' (ready.moved moves hr') moves hp hr
  | error x w' =>
    rw [bind_error run] at hr ⊢
    have first := h (run ▸ hr)
    rw [run] at first
    cases first with
    | raised h => exact .raised h
    | full => exact .full

end Yields

/-! ## Reports -/

/-- Nothing has changed but what reporters have and are told. -/
def World.Tells (w w' : World) : Prop := ∃ reporters reports, w' = { w with reporters, reports }

namespace World.Tells

theorem refl (w : World) : w.Tells w := ⟨_, _, rfl⟩

theorem machines (h : w.Tells w') : w'.machines = w.machines := by
  obtain ⟨_, _, rfl⟩ := h
  rfl

theorem put (h : w.Tells w') (m : Nat) (vm : Vm) : (w.put m vm).Tells (w'.put m vm) := by
  obtain ⟨reporters, reports, rfl⟩ := h
  exact ⟨reporters, reports, rfl⟩

end World.Tells

/-- A reporter is told, and may raise. -/
theorem report_tells (reporter : Nat) (code : Int) (message : Text) (cause : Option String) :
    Ended (fun _ => w.Tells) (fun _ => w.Tells) (H.report reporter code message cause env w) := by
  let r := (w.reporters.get reporter).handle ⟨code, message, cause⟩
  let told : World := { w with reporters := w.reporters.put reporter r.handler, reports := w.reports ++ r.events }
  have tells : w.Tells told := ⟨_, _, rfl⟩
  change Ended _ _ (H.raise r.raised env told)
  cases r.raised with
  | none => exact .back tells
  | some t => exact .raised tells

/-! ## Calls of little effect -/

/-- Some calls that change nothing but the stack: those by which the words for a value are found, and two that
push. -/
def Slight : Binding.Call → Prop
  | .toLString _ | .type _ | .typeName _ | .pushNil | .pushLString _ => True
  | _ => False

/-- Nothing has changed but the stack of machine `m`. -/
def World.Stirs (m : Nat) (w w' : World) : Prop :=
  ∀ vm, w.machines.get m = .open vm → ∃ vm', w' = w.put m vm' ∧ vm.Akin vm' ∧ vm'.natives = vm.natives

namespace World.Stirs

theorem refl (w : World) : w.Stirs m w := fun vm hm => ⟨vm, (World.put_self hm).symm, .refl vm, rfl⟩

theorem put (hm : w.machines.get m = .open vm) (akin : vm.Akin vm') (natives : vm'.natives = vm.natives) : w.Stirs m (w.put m vm') := by
  intro v hv
  cases hm.symm.trans hv
  exact ⟨vm', rfl, akin, natives⟩

theorem trans {a b c : World} (h : a.Stirs m b) (k : b.Stirs m c) : a.Stirs m c := by
  intro vm hm
  obtain ⟨vm₁, rfl, akin, natives⟩ := h vm hm
  obtain ⟨vm₂, rfl, akin', natives'⟩ := k vm₁ (World.get_put _ _ _)
  exact ⟨vm₂, World.put_put _ _ _ _, akin.trans akin', natives'.trans natives⟩

end World.Stirs

theorem Gives.text? {t : Nat} {i : Int} {s : Lua.Sys World} :
    Lua.Gives s (Lua.Stack.text? t i) fun _ vm => s.vm.Akin vm ∧ vm.natives = s.vm.natives := by
  obtain ⟨v, value⟩ := (Lua.Reads.value t i).after s
  unfold Lua.Stack.text?
  refine .bind (q := fun _ vm => vm = s.vm) ⟨_, _, rfl, rfl⟩ ?_
  rintro _ _ rfl
  refine .bind (q := fun _ vm => vm = s.vm) ⟨_, _, rfl, rfl⟩ ?_
  rintro _ _ rfl
  refine .bind (q := fun _ vm => vm = s.vm) ⟨_, _, value, rfl⟩ ?_
  rintro v _ rfl
  split
  · exact .pure ⟨.refl _, rfl⟩
  · split
    · exact .pure ⟨.refl _, rfl⟩
    · exact .bind (q := fun _ vm => s.vm.Akin vm ∧ vm.natives = s.vm.natives) ⟨_, _, rfl, (Lua.Vm.Akin.refl _).course _ _ _, rfl⟩
        fun _ _ h => .pure h
    · exact .pure ⟨.refl _, rfl⟩

theorem execute_slight (env : Env) (r : Binding.Runtime) {c : Binding.Call} (hc : Slight c) (hm : w.machines.get m = .open vm) :
    ∃ v vm', execute r (some (.main m)) c env w = .ok v (w.put m vm') ∧ vm.Akin vm' ∧ vm'.natives = vm.natives := by
  have reads {c : Binding.Call} (hc : Slight c) (h : Lua.Reads (perform env (.main m) c)) :
      Lua.Gives (taken w m vm) (perform env (.main m) c) fun _ vm' => vm.Akin vm' ∧ vm'.natives = vm.natives := by
    obtain ⟨v, run⟩ := h.after (taken w m vm)
    exact ⟨v, _, run, .refl _, rfl⟩
  have pushes (v : Lua.Value) : Lua.Gives (taken w m vm) (quiet (Lua.Stack.push 0 v)) fun _ vm' =>
      vm.Akin vm' ∧ vm'.natives = vm.natives := ⟨_, _, rfl, (Lua.Vm.Akin.refl vm).course _ _ _, rfl⟩
  have plain : c ≠ .newState ∧ c ≠ .close ∧ checkArguments c = .ok () := by
    cases c <;> first | exact hc.elim | exact ⟨nofun, nofun, rfl⟩
  refine execute_gives env plain.1 plain.2.1 plain.2.2 hm ?_
  cases c with
  | toLString i =>
    refine .bind (q := fun _ vm' => vm' = vm) ⟨_, _, rfl, rfl⟩ ?_
    rintro _ _ rfl
    refine .bind Gives.text? fun text vm' h => ?_
    split
    · exact .pure h
    · exact .pure h
  | type i => exact reads hc (.bind .generation fun _ => .bind (.typeCode 0 _) fun _ => .pure _)
  | typeName tag => exact reads hc (Perform.typeName tag)
  | pushNil => exact pushes _
  | pushLString b => exact pushes _
  | _ => exact hc.elim

theorem runProgram_slight (env : Env) (r : Binding.Runtime) {p : Binding.Program α} (hp : p.All Slight)
    (hm : w.machines.get m = .open vm) :
    Ended (fun _ => w.Stirs m) (fun _ => w.Stirs m) (runProgram r (some (.main m)) p env w) := by
  induction p generalizing w vm with
  | done a => exact .back (.refl w)
  | fail e => exact .raised (.refl w)
  | ask c next ih =>
    obtain ⟨v, vm', run, akin, natives⟩ := execute_slight env r hp.1 hm
    have first : w.Stirs m (w.put m vm') := .put hm akin natives
    exact .bind (P := fun a w' => a = v ∧ w' = w.put m vm') (run ▸ .back ⟨rfl, rfl⟩)
      (fun a w' h => by
        obtain ⟨rfl, rfl⟩ := h
        exact (ih _ (hp.2 _) (World.get_put w m vm')).imp (fun _ _ => first.trans) fun _ _ => first.trans)
      fun _ _ h => h

theorem slight_typeName (tag : Int) : (Binding.Api.typeName tag).All Slight := by
  unfold Binding.Api.typeName
  refine Binding.Program.All.bind ⟨trivial, fun _ => trivial⟩ fun v => ?_
  split
  · split
    · exact trivial
    · split
      · exact trivial
      · exact trivial
  · exact trivial

theorem slight_topMessage (r : Binding.Runtime) : (topMessage r).All Slight := by
  unfold topMessage
  refine Binding.Program.All.bind ?_ fun t => ?_
  · unfold Binding.Api.toText
    split
    · exact trivial
    · refine Binding.Program.All.bind ⟨trivial, fun _ => trivial⟩ fun v => ?_
      split
      · exact trivial
      · exact trivial
  · split
    · exact trivial
    · exact Binding.Program.All.bind ⟨trivial, fun _ => trivial⟩ fun _ =>
        Binding.Program.All.bind (slight_typeName _) fun _ => trivial

/-- The value on top of the main stack is reported. -/
theorem reportTop_tells (env : Env) (hm : w.machines.get m = .open vm) (reporter : Nat) (code : Int) (runtime : Nat) :
    Ended (fun _ w' => ∃ w₁, w.Stirs m w₁ ∧ w₁.Tells w') (fun _ w' => ∃ w₁, w.Stirs m w₁ ∧ w₁.Tells w')
      (reportTop reporter code runtime (some (.main m)) env w) := by
  have worded := runProgram_slight env (w.runtimes.get runtime) (slight_topMessage (w.runtimes.get runtime)) hm
  exact .bind worded (fun message w₁ stirs =>
      (report_tells reporter code message none).imp (fun _ _ h => ⟨w₁, stirs, h⟩) fun _ _ h => ⟨w₁, stirs, h⟩)
    fun _ w₁ stirs => ⟨w₁, stirs, .refl _⟩

/-! ## Guards -/

/-- Going to any depth changes nothing but the stack. -/
theorem runWith_settle (env : Env) (runtime : Nat) {depth : Nat} (small : depth < 0x80000000) (hm : w.machines.get m = .open vm) :
    ∃ w', runWith runtime (some (.main m)) (fun _ => Binding.Api.setTop depth) env w = .ok () w' ∧ w.Stirs m w' := by
  have gives : Lua.Gives (taken w m vm) (perform env (.main m) (.setTop depth)) fun _ vm' =>
      vm.Akin vm' ∧ vm'.natives = vm.natives := by
    refine .bind (q := fun _ vm' => vm' = vm) ⟨_, _, rfl, rfl⟩ fun _ vm' same => ?_
    refine .bind (q := fun _ vm' => vm.Akin vm' ∧ vm'.natives = vm.natives) ?_ fun _ _ h => .pure h
    have positive : (0 : Int) ≤ depth := Int.natCast_nonneg _
    rw [int32_small small]
    unfold Lua.Stack.setTop
    simp only [Lua.Stack.contents, Bind.bind, Pure.pure, if_pos positive, if_neg (Int.not_lt.mpr positive), Int.toNat_natCast]
    exact ⟨_, _, rfl, same ▸ (Lua.Vm.Akin.refl vm).course _ _ _, same ▸ rfl⟩
  obtain ⟨_, vm', run, akin, natives⟩ := runWith_gives env runtime (c := fun _ => .setTop depth) (fun _ => ()) (fun _ h => by cases h)
    (fun _ h => by cases h) (fun _ => rfl) hm gives
  exact ⟨_, run, .put hm akin natives⟩

theorem World.Stirs.journal (h : w.Stirs m w') (hm : w.Open m) : w'.journal = w.journal := by
  obtain ⟨vm, hm⟩ := hm
  obtain ⟨vm', rfl, -⟩ := h vm hm
  rfl

section Guarded

variable {runtime : Nat} {act : H α} (hm : w.machines.get m = .open vm)

include hm

theorem guarded_enters (act : H α) : guarded runtime (some (.main m)) act env w =
    H.finally_ act (runWith runtime (some (.main m)) fun _ => Binding.Api.setTop vm.stack.size) env w := by
  unfold guarded
  refine (bind_ok (runWith_getTop (t := .main m) env runtime hm)).trans ?_
  rfl

theorem guarded_throws {x : Lua.Signal} (run : act env w = .error (.signal x) w') :
    guarded runtime (some (.main m)) act env w = .error (.signal x) w' := by
  rw [guarded_enters hm]
  simp only [H.finally_, run]

variable (small : vm.stack.size < 0x80000000)

include small

variable (runtime) in
theorem guarded_settles {a : α} (run : act env w = .ok a w') (opened : w'.Open m) :
    ∃ w'', guarded runtime (some (.main m)) act env w = .ok a w'' ∧ w'.Stirs m w'' := by
  obtain ⟨vm', hm'⟩ := opened
  obtain ⟨w'', settled, stirs⟩ := runWith_settle env runtime small hm'
  exact ⟨w'', (guarded_enters hm act).trans (finally_ok run settled), stirs⟩

variable (runtime) in
theorem guarded_raises {e : Failure} (run : act env w = .error (.failure e) w') (opened : w'.Open m) :
    ∃ w'', guarded runtime (some (.main m)) act env w = .error (.failure e) w'' ∧ w'.Stirs m w'' := by
  obtain ⟨vm', hm'⟩ := opened
  obtain ⟨w'', settled, stirs⟩ := runWith_settle env runtime small hm'
  exact ⟨w'', (guarded_enters hm act).trans (finally_raised run settled), stirs⟩

section Leading

variable (he : env.Follows) (sound : w.Sound) (leads : Leads env w act)

include he sound leads

theorem guarded_journal : (final (guarded runtime (some (.main m)) act env w)).journal = (final (act env w)).journal := by
  have opened := (leads.after he sound w .refl).continues.opened m ⟨vm, hm⟩
  cases run : act env w with
  | ok a w₁ =>
    rw [run] at opened
    obtain ⟨w', guards, stirs⟩ := guarded_settles runtime hm small run opened
    rw [guards]
    exact stirs.journal opened
  | error x w₁ =>
    rw [run] at opened
    cases x with
    | failure e =>
      obtain ⟨w', guards, stirs⟩ := guarded_raises runtime hm small run opened
      rw [guards]
      exact stirs.journal opened
    | signal x => rw [guarded_throws hm run]

/-- A guard brings the stack back, whether the guarded operation comes back or raises. -/
theorem guarded_yields {P : α → World → Prop} {E : Failure → World → Prop} (h : Yields g env w act P E) :
    Yields g env w (guarded runtime (some (.main m)) act) (fun a w' => ∃ w₁, P a w₁ ∧ w₁.Stirs m w')
      fun e w' => ∃ w₁, E e w₁ ∧ w₁.Stirs m w' := by
  intro hr
  have first := h (guarded_journal hm small he sound leads ▸ hr)
  have opened := (leads.after he sound w .refl).continues.opened m ⟨vm, hm⟩
  cases run : act env w with
  | ok a w₁ =>
    rw [run] at first opened
    obtain ⟨w', guards, stirs⟩ := guarded_settles runtime hm small run opened
    rw [guards]
    cases first with
    | back hp => exact .back ⟨w₁, hp, stirs⟩
  | error x w₁ =>
    rw [run] at first opened
    cases first with
    | raised he =>
      obtain ⟨w', guards, stirs⟩ := guarded_raises runtime hm small run opened
      rw [guards]
      exact .raised ⟨w₁, he, stirs⟩
    | full =>
      rw [guarded_throws hm run]
      exact .full

end Leading

end Guarded
end LuaHost.Host
