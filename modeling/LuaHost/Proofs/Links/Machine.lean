import LuaHost.Proofs.Links.Basic

set_option autoImplicit false
set_option linter.unusedSectionVars false

/-!
# Links of the evaluator

Every step of the evaluator is tied to itself, and so is every run whose native functions are tied.
-/

namespace LuaHost.Lua

variable {σ τ α β : Type} {L : Link σ τ}

@[grind ←] theorem M.callers_tied (t : Nat) : Tied L (M.callers t) (M.callers t) := by
  unfold M.callers
  grind

@[grind ←] theorem M.typeNameOf_tied (v : Value) : Tied L (M.typeNameOf v) (M.typeNameOf v) := by
  unfold M.typeNameOf
  grind

@[grind ←] theorem M.typeError_tied (action : String) (v : Value) (origin : Option Origin) :
    Tied L (M.typeError action v origin) (M.typeError action v origin) := by
  unfold M.typeError
  grind

@[grind ←] theorem M.orderError_tied (a : Value) (b : Value) : Tied L (M.orderError a b) (M.orderError a b) := by
  unfold M.orderError
  grind

@[grind ←] theorem M.placeAt_tied (level : Nat) : Tied L (M.placeAt level) (M.placeAt level) := by
  unfold M.placeAt
  grind

@[grind ←] theorem M.failBytes_tied {α : Type} (message : ByteArray) :
    Tied L (M.failBytes message : M σ α) (M.failBytes message) := by
  unfold M.failBytes
  grind

@[grind ←] theorem M.fail_tied {α : Type} (message : String) : Tied L (M.fail message : M σ α) (M.fail message) := by
  unfold M.fail
  grind

@[grind ←] theorem M.loadedName?_tied (f : Native) : Tied L (M.loadedName? f) (M.loadedName? f) := by
  unfold M.loadedName?
  grind

@[grind ←] theorem M.argError_tied {α : Type} (f : Native) (n : Nat) (message : ByteArray) :
    Tied L (M.argError f n message : M σ α) (M.argError f n message) := by
  unfold M.argError
  grind

@[grind ←] theorem M.argTypeError_tied {α : Type} (f : Native) (n : Nat) (expected : String)
    (got : Option Value) :
    Tied L (M.argTypeError f n expected got : M σ α) (M.argTypeError f n expected got) := by
  unfold M.argTypeError
  grind

@[grind ←] theorem M.access_tied (fuel : Nat) (obj key : Value) :
    Tied L (M.access fuel obj key : M σ Access) (M.access fuel obj key) := by
  induction fuel generalizing obj with
  | zero =>
    unfold M.access
    exact .pure _
  | succ fuel ih =>
    have follow (mm : Value) : Tied L (if isFunction mm then Pure.pure (.call mm [obj, key])
        else M.access fuel mm key : M σ Access) (if isFunction mm then Pure.pure (.call mm [obj, key])
        else M.access fuel mm key) := .ite (.pure _) (ih mm)
    unfold M.access
    split
    · refine .bind (.table _) fun t => ?_
      split
      · split
        · exact .pure _
        · refine .bind (.table _) fun mt => ?_
          split
          · exact .pure _
          · exact follow _
      · exact .pure _
    · refine .bind (metamethod_tied _ _) fun mm => ?_
      split
      · exact .pure _
      · exact follow _

@[grind ←] theorem M.store_tied (fuel : Nat) (obj key value : Value) :
    Tied L (M.store fuel obj key value : M σ Store) (M.store fuel obj key value) := by
  induction fuel generalizing obj with
  | zero =>
    unfold M.store
    exact .pure _
  | succ fuel ih =>
    have follow (mm : Value) : Tied L (if isFunction mm then Pure.pure (.call mm [obj, key, value])
        else M.store fuel mm key value : M σ Store) (if isFunction mm then Pure.pure (.call mm [obj, key, value])
        else M.store fuel mm key value) := .ite (.pure _) (ih mm)
    have direct (a : Nat) : Tied L (M.storeDirect a key value : M σ Store) (M.storeDirect a key value) := by
      unfold M.storeDirect
      split
      · exact .pure _
      · exact .bind (.rawSet a key value) fun _ => .pure _
    unfold M.store
    dsimp only
    split
    · next a =>
      refine .bind (.table _) fun t => ?_
      split
      · exact direct a
      · refine .ite (.bind (.table _) fun mt => ?_) (direct a)
        split
        · exact direct a
        · exact .bind .generation fun g => .ite (direct a) (follow _)
    · refine .bind (metamethod_tied _ _) fun mm => ?_
      split
      · exact .pure _
      · exact follow _

@[grind ←] theorem M.binaryHandler_tied (event : String) (a : Value) (b : Value) :
    Tied L (M.binaryHandler event a b) (M.binaryHandler event a b) := by
  unfold M.binaryHandler
  grind

@[grind ←] theorem M.orderHandler_tied (event : String) (a : Value) (b : Value) :
    Tied L (M.orderHandler event a b) (M.orderHandler event a b) := by
  unfold M.orderHandler
  grind

@[grind ←] theorem M.equalHandler_tied (a : Value) (b : Value) :
    Tied L (M.equalHandler a b) (M.equalHandler a b) := by
  unfold M.equalHandler
  grind

@[grind ←] theorem M.finalize.failed_tied (closing : Bool) (g : Generation) (status : Status)
    (v : Value) :
    Tied L (M.finalize.failed closing g status v) (M.finalize.failed closing g status v) := by
  unfold M.finalize.failed
  grind

theorem M.finalize_eq_settle (call : Value → List Value → M σ (List Value)) (closing : Bool) (o : Object) :
    M.finalize call closing o = (do
      let g ← M.generation
      let mm ← M.metamethod o.value "__gc"
      if !isFunction mm then return ()
      (call mm [o.value]).settle (fun _ => Pure.pure ()) (M.finalize.failed closing g) (M.finalize.failed closing g)) := by
  unfold M.finalize
  refine bind_congr fun g => bind_congr fun mm => ?_
  congr 1
  funext s
  simp only [M.settle, M.outcome]
  cases call mm [o.value] s with
  | ok vs t => rfl
  | error e t => cases e <;> rfl

@[grind ←] theorem M.finalize_tied {call : Value → List Value → M σ (List Value)}
    {call' : Value → List Value → M τ (List Value)} (hl : ∀ f args, Tied L (call f args) (call' f args)) (closing : Bool) (o : Object) :
    Tied L (M.finalize call closing o) (M.finalize call' closing o) := by
  rw [M.finalize_eq_settle, M.finalize_eq_settle]
  exact .bind .generation fun g => .bind (metamethod_tied _ _) fun mm => .ite (.pure _) <| .settle (hl mm [o.value])
    (fun _ => .pure ()) (M.finalize.failed_tied closing g) (M.finalize.failed_tied closing g)

@[grind ←] theorem M.finalizeDue_tied {call : Value → List Value → M σ (List Value)}
    {call' : Value → List Value → M τ (List Value)} (hl : ∀ f args, Tied L (call f args) (call' f args)) (closing : Bool) (count : Nat) :
    Tied L (M.finalizeDue call closing count) (M.finalizeDue call' closing count) := by
  induction count with
  | zero =>
    unfold M.finalizeDue
    exact .pure _
  | succ n ih =>
    unfold M.finalizeDue
    refine .bind .vm fun vm => ?_
    split
    · exact .pure _
    · exact .bind (.modifyVm _ fun _ => .of_eq rfl rfl rfl rfl rfl rfl rfl) fun _ =>
        .bind (M.finalize_tied hl closing _) fun _ => ih

@[grind ←] theorem M.collect_tied {call : Value → List Value → M σ (List Value)}
    {call' : Value → List Value → M τ (List Value)} (hl : ∀ f args, Tied L (call f args) (call' f args)) :
    Tied L (M.collect call) (M.collect call') := by
  unfold M.collect
  grind

@[grind ←] theorem M.finalizeAll_tied {call : Value → List Value → M σ (List Value)}
    {call' : Value → List Value → M τ (List Value)} (hl : ∀ f args, Tied L (call f args) (call' f args)) :
    Tied L (M.finalizeAll call) (M.finalizeAll call') := by
  unfold M.finalizeAll
  grind

variable [L.Running]

@[grind ←] theorem Machine.go_tied (m : Machine) (ctl : Ctl) (push : List Kont) :
    Tied L (Machine.go m ctl push) (Machine.go m ctl push) := by
  unfold Machine.go
  grind

@[grind ←] theorem Machine.failAt_tied (m : Machine) (line : Nat) (message : ByteArray) :
    Tied L (Machine.failAt m line message) (Machine.failAt m line message) := by
  unfold Machine.failAt
  grind

@[grind ←] theorem Machine.event_tied (m : Machine) (f : Value) (args : List Value) (line : Nat)
    (name : String) (push : List Kont) :
    Tied L (Machine.event m f args line name push) (Machine.event m f args line name push) := by
  unfold Machine.event
  grind

@[grind ←] theorem Machine.indexWith_tied (m : Machine) (obj : Value) (key : Value) (line : Nat)
    (origin : Option Origin) (push : List Kont) :
    Tied L (Machine.indexWith m obj key line origin push) (Machine.indexWith m obj key line origin push) := by
  unfold Machine.indexWith
  grind

@[grind ←] theorem Machine.storeWith_tied (m : Machine) (obj : Value) (key : Value) (value : Value)
    (line : Nat) (origin : Option Origin) (push : List Kont) :
    Tied L (Machine.storeWith m obj key value line origin push) (Machine.storeWith m obj key value line origin push) := by
  unfold Machine.storeWith
  grind

@[grind ←] theorem Machine.arithmeticError_tied (m : Machine) (op : BinaryOp) (a : Value)
    (b : Value) (l : Expr) (r : Expr) (line : Nat) :
    Tied L (Machine.arithmeticError m op a b l r line) (Machine.arithmeticError m op a b l r line) := by
  unfold Machine.arithmeticError
  grind

@[grind ←] theorem Machine.noIntegerError_tied (m : Machine) (a : Value) (l : Expr) (r : Expr)
    (line : Nat) :
    Tied L (Machine.noIntegerError m a l r line) (Machine.noIntegerError m a l r line) := by
  unfold Machine.noIntegerError
  grind

@[grind ←] theorem Machine.compareError_tied (m : Machine) (a : Value) (b : Value) (line : Nat) :
    Tied L (Machine.compareError m a b line) (Machine.compareError m a b line) := by
  unfold Machine.compareError
  grind

@[grind ←] theorem Machine.compareWith_tied (m : Machine) (orEqual : Bool) (a : Value) (b : Value)
    (line : Nat) :
    Tied L (Machine.compareWith m orEqual a b line) (Machine.compareWith m orEqual a b line) := by
  unfold Machine.compareWith
  grind

@[grind ←] theorem Machine.equalWith_tied (m : Machine) (negate : Bool) (a : Value) (b : Value)
    (line : Nat) :
    Tied L (Machine.equalWith m negate a b line) (Machine.equalWith m negate a b line) := by
  unfold Machine.equalWith
  grind

@[grind ←] theorem Machine.binaryWith_tied (m : Machine) (op : BinaryOp) (a : Value) (b : Value)
    (l : Expr) (r : Expr) (line : Nat) :
    Tied L (Machine.binaryWith m op a b l r line) (Machine.binaryWith m op a b l r line) := by
  unfold Machine.binaryWith
  grind

@[grind ←] theorem Machine.unaryWith_tied (m : Machine) (op : UnaryOp) (a : Value) (e : Expr)
    (line : Nat) :
    Tied L (Machine.unaryWith m op a e line) (Machine.unaryWith m op a e line) := by
  unfold Machine.unaryWith
  refine .bind .generation fun g => ?_
  cases op with
  | not => grind
  | neg => grind
  | bnot => grind
  | len => cases a <;> grind

@[grind ←] theorem Machine.bind_tied (a : Activation) (vs : List Value) :
    Tied L (Machine.bind a vs : M σ Activation) (Machine.bind a vs) := by
  induction vs generalizing a with
  | nil =>
    unfold Machine.bind
    exact .pure _
  | cons v vs ih =>
    unfold Machine.bind
    exact .bind (.newCell v) fun c => ih _

@[grind ←] theorem Machine.makeClosure_tied (a : Activation) (f : Func) :
    Tied L (Machine.makeClosure a f) (Machine.makeClosure a f) := by
  unfold Machine.makeClosure
  grind

@[grind ←] theorem Machine.stepEval_tied (m : Machine) (e : Expr) :
    Tied L (Machine.stepEval m e) (Machine.stepEval m e) := by
  unfold Machine.stepEval
  grind

@[grind ←] theorem Machine.stepEvalAll_tied (m : Machine) (es : List Expr) (done : List Value) :
    Tied L (Machine.stepEvalAll m es done) (Machine.stepEvalAll m es done) := by
  unfold Machine.stepEvalAll
  grind

@[grind ←] theorem Machine.againInt_tied (m : Machine) (value : Int) (step : Int) (left : Nat)
    (body : List Stat) :
    Tied L (Machine.againInt m value step left body) (Machine.againInt m value step left body) := by
  unfold Machine.againInt
  grind

@[grind ←] theorem Machine.againFloat_tied (m : Machine) (value : Float) (limit : Float)
    (step : Float) (body : List Stat) :
    Tied L (Machine.againFloat m value limit step body) (Machine.againFloat m value limit step body) := by
  unfold Machine.againFloat
  grind

@[grind ←] theorem Machine.stepNext_tied (m : Machine) : Tied L (Machine.stepNext m) (Machine.stepNext m) := by
  unfold Machine.stepNext
  grind

@[grind ←] theorem Machine.stepStat_tied (m : Machine) (s : Stat) :
    Tied L (Machine.stepStat m s) (Machine.stepStat m s) := by
  unfold Machine.stepStat
  grind

@[grind ←] theorem Machine.stepStores_tied (m : Machine) (pending : List (Target × Value)) (line : Nat) :
    Tied L (Machine.stepStores m pending line) (Machine.stepStores m pending line) := by
  unfold Machine.stepStores
  grind

@[grind ←] theorem Machine.storeKeyed_tied (a positional : Nat) (entries : List (Value × Value)) :
    Tied L (Machine.storeKeyed a positional entries : M σ (Option String)) (Machine.storeKeyed a positional entries) := by
  induction entries with
  | nil =>
    unfold Machine.storeKeyed
    exact .pure _
  | cons kv rest ih =>
    unfold Machine.storeKeyed
    grind

@[grind ←] theorem Machine.stepNumericStart_tied (m : Machine) (vs : List Value) (body : List Stat)
    (line : Nat) :
    Tied L (Machine.stepNumericStart m vs body line) (Machine.stepNumericStart m vs body line) := by
  have bad (v : Value) (what : String) (g : Generation) : Tied L (do
      if g == .v54 then
        let name ← M.typeNameOf v
        m.failAt line (bytesOf ("bad 'for' " ++ what ++ " (number expected, got ") ++ name ++ bytesOf ")")
      else m.failAt line (bytesOf ("'for' " ++ what ++ " must be a number")) : M σ (Machine ⊕ Outcome)) (do
      if g == .v54 then
        let name ← M.typeNameOf v
        m.failAt line (bytesOf ("bad 'for' " ++ what ++ " (number expected, got ") ++ name ++ bytesOf ")")
      else m.failAt line (bytesOf ("'for' " ++ what ++ " must be a number"))) := by
    grind
  unfold Machine.stepNumericStart
  dsimp only
  refine .bind .generation fun g => ?_
  split
  · refine .bind (.pure _) fun start? => ?_
    split
    · grind
    · exact .ite (Machine.failAt_tied _ _ _) (Machine.againFloat_tied _ _ _ _ _)
    · split
      · exact bad _ _ g
      · exact Machine.go_tied _ _ _
  · exact Machine.go_tied _ _ _

@[grind ←] theorem Machine.isLuaClosure_tied (f : Value) :
    Tied L (Machine.isLuaClosure f) (Machine.isLuaClosure f) := by
  unfold Machine.isLuaClosure
  grind

@[grind ←] theorem Machine.stepValues_tied (m : Machine) (vs : List Value) :
    Tied L (Machine.stepValues m vs) (Machine.stepValues m vs) := by
  unfold Machine.stepValues
  split
  · exact .pure _
  · next k konts _ =>
    cases k
    case protectedCall saved => exact .bind (.modifyThread _ _ fun _ h => h.of_same rfl rfl rfl) fun _ => Machine.go_tied _ _ _
    all_goals grind

@[grind ←] theorem Machine.enterLua_tied (m : Machine) (f : Func) (cells : Array Nat)
    (chunk : ByteArray) (args : List Value) (caller : Caller) :
    Tied L (Machine.enterLua m f cells chunk args caller) (Machine.enterLua m f cells chunk args caller) := by
  unfold Machine.enterLua
  grind

/-- A machine on a thread of which a native function has been entered. -/
def Vm.enters (vm : Vm) (t natives : Nat) (konts : List Kont) (args : List Value) : Vm :=
  { vm with
    natives
    threads := vm.threads.modify t fun th => { th with konts, stack := args.toArray, room := .ofArguments args.length } }

/-- Gives a thread back the stack it had, and the machine its count of native calls; a fault ends all that. -/
def Vm.restores {α : Type} (vm : Vm) (t : Nat) (before : Vm) (r : Except Signal α) : Vm :=
  match r with
  | .error (.fault _) => vm
  | _ =>
    { vm with
      natives := before.natives
      threads := vm.threads.modify t fun th =>
        { th with stack := (before.threads.get t).stack, room := (before.threads.get t).room } }

theorem Vm.sparing_enters (vm : Vm) (t natives : Nat) (konts : List Kont) (args : List Value) :
    vm.Sparing (vm.enters t natives konts args) := by
  refine .of_eq rfl rfl rfl rfl rfl fun ready => Vm.Sparing.ready_modify ready fun h => ?_
  refine ⟨h.covered, Nat.le_add_left _ _, ?_⟩
  unfold Room.allows Room.ofArguments
  simp only [List.size_toArray, Nat.lt_add_of_pos_right (show 0 < minimumRoom by decide), decide_true, Bool.true_or]

theorem Vm.lends_restores {α : Type} (vm : Vm) (t : Nat) (before : Vm) (r : Except Signal α) :
    before.Lends vm (vm.restores t before r) := by
  unfold Vm.restores
  split
  · exact ⟨.refl vm, fun _ h => h⟩
  · exact ⟨.of_eq rfl rfl rfl rfl rfl, fun had ready => Vm.Sparing.ready_modify ready fun h => .back (had t) h rfl rfl rfl⟩

/-- How an error of a native function goes on in the machine that called it. -/
def Machine.diversion (m : Machine) (konts : List Kont) : Signal → Option (Machine ⊕ Outcome)
  | .error status v => some (m.diverted konts (.raise v status))
  | .unwinding status v => some (m.diverted konts (.unwind v status))
  | .fault _ => none

theorem Machine.runNative_eq_visit (natives : Natives σ) (services : Services σ) (m : Machine) (f : Native)
    (upvalues args : List Value) (caller : Caller) :
    Machine.runNative natives services m f upvalues args caller =
      let konts := Kont.callReturn caller :: m.konts
      let inside := Activation.outside (caller.activation.natives + 1)
      let m := { m with activation := { inside with depth := caller.activation.depth } }
      M.visit (fun vm => vm.enters m.thread inside.natives konts args)
        (fun _ => if nativeLimit < inside.natives then M.fail "C stack overflow" else natives services f upvalues args)
        (fun before r vm => vm.restores m.thread before r) (fun _ vs => m.deliver konts vs) (fun _ e => m.diversion konts e) := by
  unfold Machine.runNative M.visit
  dsimp only
  refine bind_congr fun before => bind_congr fun _ => funext fun s => ?_
  simp only [M.outcome]
  split
  all_goals
    next ran =>
      rw [ran]
      rfl

@[grind ←] theorem Machine.runNative_tied {natives : Natives σ} {natives' : Natives τ} {services : Services σ}
    {services' : Services τ} (hn : L.Natives natives natives') (hs : L.Serves services services') (m : Machine) (f : Native)
    (upvalues args : List Value) (caller : Caller) :
    Tied L (Machine.runNative natives services m f upvalues args caller)
      (Machine.runNative natives' services' m f upvalues args caller) := by
  rw [Machine.runNative_eq_visit, Machine.runNative_eq_visit]
  have ran : Tied L (if nativeLimit < (Activation.outside (caller.activation.natives + 1)).natives then M.fail "C stack overflow"
      else natives services f upvalues args) (if nativeLimit < (Activation.outside (caller.activation.natives + 1)).natives then
        M.fail "C stack overflow" else natives' services' f upvalues args) :=
    .ite (M.fail_tied _) (hn services services' hs f upvalues args)
  exact ⟨Link.Running.visit _ _ _ _ (fun vm => vm.sparing_enters _ _ _ _)
    (fun before r vm => vm.lends_restores _ before r) fun _ => ran.holds⟩

@[grind ←] theorem Machine.applyNative_tied {natives : Natives σ} {natives' : Natives τ} {services : Services σ} {services' : Services τ}
    (hn : L.Natives natives natives') (hs : L.Serves services services') (m : Machine) (f : Native)
    (upvalues : List Value) (args : List Value) (caller : Caller) :
    Tied L (Machine.applyNative natives services m f upvalues args caller) (Machine.applyNative natives' services' m f upvalues args caller) := by
  unfold Machine.applyNative
  refine .bind .generation fun g => ?_
  extract_lets outer fresh base inside across beyond inside'
  have entered (handler saved : Option Value) (target : Value) (rest : List Value) :
      Tied L (inside handler saved target rest) (inside' handler saved target rest) :=
    .ite (Machine.go_tied _ _ _) (.bind (.modifyThread _ _ fun _ h => h.of_same rfl rfl rfl) fun _ => Machine.go_tied _ _ _)
  have ran : Tied L (Machine.runNative natives services m f upvalues args caller)
      (Machine.runNative natives' services' m f upvalues args caller) := Machine.runNative_tied hn hs _ _ _ _ _
  refine .bind (.thread _) fun th => ?_
  split
  · exact entered _ _ _ _
  · exact .ite ran (entered _ _ _ _)
  · grind
  · exact ran

@[grind ←] theorem Machine.stepApply_tied {natives : Natives σ} {natives' : Natives τ} {services : Services σ} {services' : Services τ}
    (hn : L.Natives natives natives') (hs : L.Serves services services') (m : Machine) (f : Value) (args : List Value)
    (caller : Caller) :
    Tied L (Machine.stepApply natives services m f args caller) (Machine.stepApply natives' services' m f args caller) := by
  unfold Machine.stepApply
  grind

@[grind ←] theorem Machine.stepRaise_tied (m : Machine) (v : Value) (status : Status) :
    Tied L (Machine.stepRaise m v status) (Machine.stepRaise m v status) := by
  unfold Machine.stepRaise
  grind

@[grind ←] theorem Machine.stepUnwind_tied (m : Machine) (v : Value) (status : Status) :
    Tied L (Machine.stepUnwind m v status) (Machine.stepUnwind m v status) := by
  unfold Machine.stepUnwind
  split
  · exact .bind (.modifyThread _ _ fun _ h => h.of_same rfl rfl rfl) fun _ => .pure _
  · exact .throw_unwinding _ _

@[grind ←] theorem Machine.step_tied {natives : Natives σ} {natives' : Natives τ} {services : Services σ} {services' : Services τ}
    (hn : L.Natives natives natives') (hs : L.Serves services services') (m : Machine) :
    Tied L (Machine.step natives services m) (Machine.step natives' services' m) := by
  unfold Machine.step
  grind

/-- A machine on whose thread a nested run begins. -/
def Vm.nests (vm : Vm) (handler : Option (Option Value)) : Vm :=
  { vm with
    natives := vm.natives + 1
    threads := vm.threads.modify vm.running fun th =>
      { th with
        konts := .nativeStart (vm.threads.get vm.running).stack (vm.threads.get vm.running).handler ::
          (vm.threads.get vm.running).konts
        stack := #[], handler := handler.getD (vm.threads.get vm.running).handler } }

/-- Gives a thread back what it had before a nested run. -/
def Vm.leaves (before vm : Vm) : Vm :=
  { vm with
    running := before.running
    natives := before.natives + 1 - 1
    threads := vm.threads.modify before.running fun th =>
      { th with
        konts := (before.threads.get before.running).konts, stack := (before.threads.get before.running).stack
        room := (before.threads.get before.running).room, handler := (before.threads.get before.running).handler } }

theorem Vm.sparing_nests (vm : Vm) (handler : Option (Option Value)) : vm.Sparing (vm.nests handler) :=
  .of_eq rfl rfl rfl rfl rfl fun ready => Vm.Sparing.ready_modify ready fun h => h.restack (show (#[] : Array Value).size < minimumRoom by decide) rfl rfl

theorem Vm.lends_leaves (before vm : Vm) : before.Lends vm (before.leaves vm) :=
  ⟨.of_eq rfl rfl rfl rfl rfl, fun had ready => Vm.Sparing.ready_modify ready fun h => .back (had before.running) h rfl rfl rfl⟩

theorem Machine.nested_eq_visit (run : Machine → M σ Outcome) (handler : Option (Option Value)) (f : Value)
    (args : List Value) :
    Machine.nested run handler f args = M.visit (fun vm => vm.nests handler)
      (fun before =>
        let base := Activation.outside (before.natives + 1)
        if nativeLimit + 20 < before.natives + 1 then throw (.unwinding .errErr (Value.ofString "error in error handling"))
        else run ⟨before.running, base, .apply f args (.native base),
          .nativeStart (before.threads.get before.running).stack (before.threads.get before.running).handler ::
            (before.threads.get before.running).konts⟩)
      (fun before _ => before.leaves)
      (fun _ outcome => match outcome with
        | .returned vs => vs
        | .yielded vs _ => vs)
      (fun _ _ => none) := by
  funext s
  unfold Machine.nested M.visit
  simp only [M.vm, M.thread, M.modifyVm, Bind.bind, EStateM.bind, M.outcome]
  split
  · next outcome t ran =>
    unfold Vm.nests
    rw [ran]
    cases outcome with
    | returned vs => rfl
    | yielded vs konts => rfl
  · next ran =>
    unfold Vm.nests
    rw [ran]
    rfl

@[grind ←] theorem Machine.nested_tied {run : Machine → M σ Outcome} {run' : Machine → M τ Outcome} (hr : ∀ m, Tied L (run m) (run' m))
    (handler : Option (Option Value)) (f : Value) (args : List Value) :
    Tied L (Machine.nested run handler f args) (Machine.nested run' handler f args) := by
  rw [Machine.nested_eq_visit, Machine.nested_eq_visit]
  exact ⟨Link.Running.visit _ _ _ _ (fun vm => vm.sparing_nests handler) (fun before _ vm => before.lends_leaves vm)
    fun before => (Tied.ite (.throw_unwinding _ _) (hr _)).holds⟩

/-- Goes back from a thread to the one that resumed it. -/
def Machine.comeBack (outer co : Nat) (f : Thread → Thread) (r : Resumed) : M σ Resumed := do
  M.modifyVm fun vm => { vm with running := outer }
  M.modifyThread outer fun th => { th with status := .running }
  M.modifyThread co f
  return r

theorem Machine.resumeThread_eq_settle (run : Machine → M σ Outcome) (co : Nat) (args : List Value) :
    Machine.resumeThread run co args = (do
      let vm ← M.vm
      let th := vm.threads.get co
      let base := Activation.outside (vm.natives + 1)
      M.modifyThread vm.running fun th => { th with status := .normal }
      M.modifyThread co fun th => { th with status := .running }
      M.modifyThread co fun th => { th with stack := #[] }
      M.modifyVm fun vm => { vm with running := co }
      (run (if th.status == .fresh then ⟨co, base, .apply (th.stack.getD 0 .nil) args (.native base), []⟩
        else ⟨co, base, .values args, th.konts⟩)).settle
        (fun outcome => match outcome with
          | .returned vs => Machine.comeBack vm.running co (fun th => { th with status := .dead, konts := [] }) (.finished vs)
          | .yielded vs konts => Machine.comeBack vm.running co (fun th => { th with status := .suspended, konts }) (.yielded vs))
        (fun _ v => Machine.comeBack vm.running co (fun th => { th with status := .dead, konts := [] }) (.failed v))
        (fun _ v => Machine.comeBack vm.running co (fun th => { th with status := .dead, konts := [] }) (.failed v))) := by
  unfold Machine.resumeThread
  dsimp only
  refine bind_congr fun vm => bind_congr fun _ => bind_congr fun _ => bind_congr fun _ => bind_congr fun _ =>
    funext fun s => ?_
  simp only [M.settle, M.outcome]
  split
  all_goals
    next ran =>
      rw [ran]
      rfl

@[grind ←] theorem Machine.comeBack_tied (outer co : Nat) (f : Thread → Thread)
    (h : ∀ th : Thread, th.Ready → (f th).Ready) (r : Resumed) :
    Tied L (Machine.comeBack outer co f r : M σ Resumed) (Machine.comeBack outer co f r) :=
  .bind (.modifySparing _ fun _ => .of_eq rfl rfl rfl rfl rfl fun h => h) fun _ =>
    .bind (.modifyThread _ _ fun _ h => h.of_same rfl rfl rfl) fun _ => .bind (.modifyThread _ _ h) fun _ => .pure _

@[grind ←] theorem Machine.resumeThread_tied {run : Machine → M σ Outcome} {run' : Machine → M τ Outcome} (hr : ∀ m, Tied L (run m) (run' m))
    (co : Nat) (args : List Value) : Tied L (Machine.resumeThread run co args) (Machine.resumeThread run' co args) := by
  rw [Machine.resumeThread_eq_settle, Machine.resumeThread_eq_settle]
  refine .bind .vm fun vm => .bind (.modifyThread _ _ fun _ h => h.of_same rfl rfl rfl) fun _ => .bind (.modifyThread _ _ fun _ h => h.of_same rfl rfl rfl) fun _ =>
    .bind (.modifyThread _ _ fun _ h => h.restack (show (#[] : Array Value).size < minimumRoom by decide) rfl rfl) fun _ =>
      .bind (.modifySparing _ fun _ => .of_eq rfl rfl rfl rfl rfl fun h => h) fun _ => ?_
  have back (status : ThreadStatus) (konts : List Kont) (r : Resumed) :
      Tied L (Machine.comeBack vm.running co (fun th => { th with status, konts }) r : M σ Resumed)
        (Machine.comeBack vm.running co (fun th => { th with status, konts }) r) :=
    Machine.comeBack_tied _ _ (fun th => { th with status, konts }) (fun _ h => h.of_same rfl rfl rfl) r
  refine .settle (hr _) (fun outcome => ?_) (fun _ _ => back _ _ _) (fun _ _ => back _ _ _)
  cases outcome with
  | returned vs => exact back .dead [] (.finished vs)
  | yielded vs konts => exact back .suspended konts (.yielded vs)

theorem Machine.services_tied {run : Machine → M σ Outcome} {run' : Machine → M τ Outcome} (hr : ∀ m, Tied L (run m) (run' m)) :
    L.Serves (Machine.services run) (Machine.services run') :=
  ⟨Machine.nested_tied hr none, Machine.nested_tied hr (some none), Machine.resumeThread_tied hr⟩

/-- A run keeps to a frame if its native functions do. -/
theorem Machine.run_tied {natives : Natives σ} {natives' : Natives τ} (hn : L.Natives natives natives') (fuel : Nat) (m : Machine) :
    Tied L (Machine.run natives fuel m) (Machine.run natives' fuel m) := by
  induction fuel generalizing m with
  | zero =>
    unfold Machine.run
    exact .throw_fault _ (by decide)
  | succ fuel ih =>
    unfold Machine.run
    refine .bind (Machine.step_tied hn (Machine.services_tied ih) m) fun next => ?_
    split
    · exact ih _
    · exact .pure _

end LuaHost.Lua
