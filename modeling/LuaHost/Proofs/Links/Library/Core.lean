import LuaHost.Lua.Library
import LuaHost.Proofs.Links.Machine

set_option autoImplicit false
set_option linter.unusedSectionVars false

/-!
# Links of the libraries for control

The functions that call back into the evaluator or look at its threads: base, coroutines, debugging,
packages and streams.
-/

namespace LuaHost.Lua

variable {σ τ α β : Type} {L : Link σ τ}

namespace Call

/-- The same call in another system. -/
def via (c : Call σ) (services : Services τ) : Call τ := ⟨c.fn, c.args, services⟩

@[grind =] theorem fn_via (c : Call σ) (services : Services τ) : (c.via services).fn = c.fn := rfl

@[grind =] theorem args_via (c : Call σ) (services : Services τ) : (c.via services).args = c.args := rfl

@[grind =] theorem services_via (c : Call σ) (services : Services τ) : (c.via services).services = services := rfl

@[grind =] theorem count_via (c : Call σ) (services : Services τ) : (c.via services).count = c.count := rfl

@[grind =] theorem arg?_via (c : Call σ) (services : Services τ) (n : Nat) : (c.via services).arg? n = c.arg? n := rfl

@[grind =] theorem arg_via (c : Call σ) (services : Services τ) (n : Nat) : (c.via services).arg n = c.arg n := rfl

@[grind =] theorem isAbsent_via (c : Call σ) (services : Services τ) (n : Nat) :
    (c.via services).isAbsent n = c.isAbsent n := rfl

end Call

@[grind ←] theorem Call.error_tied {α : Type} (c : Call σ) {services : Services τ} (n : Nat) (message : String) :
    Tied L (Call.error c n message : M σ α) (Call.error (c.via services) n message) := by
  unfold Call.error
  grind

@[grind ←] theorem Call.typeError_tied {α : Type} (c : Call σ) {services : Services τ} (n : Nat) (expected : String) :
    Tied L (Call.typeError c n expected : M σ α) (Call.typeError (c.via services) n expected) := by
  unfold Call.typeError
  grind

@[grind ←] theorem Call.checkAny_tied (c : Call σ) {services : Services τ} (n : Nat) :
    Tied L (Call.checkAny c n) (Call.checkAny (c.via services) n) := by
  unfold Call.checkAny
  grind

@[grind ←] theorem Call.checkTable_tied (c : Call σ) {services : Services τ} (n : Nat) :
    Tied L (Call.checkTable c n) (Call.checkTable (c.via services) n) := by
  unfold Call.checkTable
  grind

@[grind ←] theorem Call.checkString_tied (c : Call σ) {services : Services τ} (n : Nat) :
    Tied L (Call.checkString c n) (Call.checkString (c.via services) n) := by
  unfold Call.checkString
  grind

@[grind ←] theorem Call.optString_tied (c : Call σ) {services : Services τ} (n : Nat) (default : ByteArray) :
    Tied L (Call.optString c n default) (Call.optString (c.via services) n default) := by
  unfold Call.optString
  grind

@[grind ←] theorem Call.checkInt_tied (c : Call σ) {services : Services τ} (n : Nat) :
    Tied L (Call.checkInt c n) (Call.checkInt (c.via services) n) := by
  unfold Call.checkInt
  grind

@[grind ←] theorem Call.optInt_tied (c : Call σ) {services : Services τ} (n : Nat) (default : Int) :
    Tied L (Call.optInt c n default) (Call.optInt (c.via services) n default) := by
  unfold Call.optInt
  grind

@[grind ←] theorem Call.checkNumber_tied (c : Call σ) {services : Services τ} (n : Nat) :
    Tied L (Call.checkNumber c n) (Call.checkNumber (c.via services) n) := by
  unfold Call.checkNumber
  grind

@[grind ←] theorem Call.checkFloat_tied (c : Call σ) {services : Services τ} (n : Nat) :
    Tied L (Call.checkFloat c n) (Call.checkFloat (c.via services) n) := by
  unfold Call.checkFloat
  grind

@[grind ←] theorem Call.checkFunction_tied (c : Call σ) {services : Services τ} (n : Nat) :
    Tied L (Call.checkFunction c n) (Call.checkFunction (c.via services) n) := by
  unfold Call.checkFunction
  grind

@[grind ←] theorem M.display_tied {services : Services σ} {services' : Services τ} (hs : L.Serves services services') (v : Value) :
    Tied L (M.display services v) (M.display services' v) := by
  unfold M.display
  grind

@[grind ←] theorem M.getEntry_tied {services : Services σ} {services' : Services τ} (hc : ∀ f args, Tied L (services.call f args) (services'.call f args)) (obj : Value)
    (key : Value) :
    Tied L (M.getEntry services obj key) (M.getEntry services' obj key) := by
  unfold M.getEntry
  grind

@[grind ←] theorem M.setEntry_tied {services : Services σ} {services' : Services τ} (hc : ∀ f args, Tied L (services.call f args) (services'.call f args)) (obj : Value)
    (key : Value) (value : Value) :
    Tied L (M.setEntry services obj key value) (M.setEntry services' obj key value) := by
  unfold M.setEntry
  grind

@[grind ←] theorem M.lessThan_tied {services : Services σ} {services' : Services τ} (hs : L.Serves services services') (a : Value)
    (b : Value) :
    Tied L (M.lessThan services a b) (M.lessThan services' a b) := by
  unfold M.lessThan
  grind

@[grind ←] theorem M.load_tied (name : ByteArray) (source : ByteArray) (globals : Value) :
    Tied L (M.load name source globals) (M.load name source globals) := by
  unfold M.load
  grind

@[grind ←] theorem Packages.subtable_tied (a : Nat) (name : ByteArray) :
    Tied L (Packages.subtable a name) (Packages.subtable a name) := by
  unfold Packages.subtable
  grind

@[grind ←] theorem Packages.loaded_tied : Tied L (Packages.loaded) (Packages.loaded) := by
  unfold Packages.loaded
  grind

variable [L.Running]

@[grind ←] theorem Coroutines.createFn_tied (c : Call σ) {services : Services τ} :
    Tied L (Coroutines.createFn c) (Coroutines.createFn (c.via services)) := by
  have made : Tied L (M.newThread { Thread.fresh with stack := #[c.arg 1] } : M σ Nat)
      (M.newThread { Thread.fresh with stack := #[c.arg 1] }) := .newThread _ (.fresh _)
  unfold Coroutines.createFn
  grind

@[grind ←] theorem Coroutines.checkThread_tied (c : Call σ) {services : Services τ} (n : Nat) :
    Tied L (Coroutines.checkThread c n) (Coroutines.checkThread (c.via services) n) := by
  unfold Coroutines.checkThread
  grind

@[grind ←] theorem Coroutines.resume_tied {c : Call σ} {services : Services τ} (hc : L.Serves c.services services) (t : Nat)
    (args : List Value) :
    Tied L (Coroutines.resume c t args) (Coroutines.resume (c.via services) t args) := by
  unfold Coroutines.resume
  refine .bind .generation fun g => .bind (.thread _) fun th => ?_
  split
  · exact .pure _
  · refine .bind (hc.resume _ _) fun resumed => ?_
    split
    · exact .bind (.modifyThread _ _ fun _ h => h.restack (show 1 < minimumRoom by decide) rfl rfl) fun _ => .pure _
    · exact .pure _

@[grind ←] theorem Coroutines.resumeFn_tied {c : Call σ} {services : Services τ} (hc : L.Serves c.services services) :
    Tied L (Coroutines.resumeFn c) (Coroutines.resumeFn (c.via services)) := by
  unfold Coroutines.resumeFn
  grind

@[grind ←] theorem Coroutines.wrapFn_tied (c : Call σ) {services : Services τ} :
    Tied L (Coroutines.wrapFn c) (Coroutines.wrapFn (c.via services)) := by
  unfold Coroutines.wrapFn
  grind

@[grind ←] theorem Coroutines.wrapStep_tied {c : Call σ} {services : Services τ} (hc : L.Serves c.services services)
    (upvalues : List Value) :
    Tied L (Coroutines.wrapStep upvalues c) (Coroutines.wrapStep upvalues (c.via services)) := by
  unfold Coroutines.wrapStep
  split
  · refine .bind (Coroutines.resume_tied hc _ _) fun resumed => ?_
    cases resumed with
    | finished vs => exact .pure _
    | yielded vs => exact .pure _
    | failed v =>
      refine .bind .generation fun g => ?_
      split
      · exact M.failBytes_tied _
      · grind
      · exact .raise _
  · exact .pure _

@[grind ←] theorem Coroutines.runningFn_tied : Tied L (Coroutines.runningFn) (Coroutines.runningFn) := by
  unfold Coroutines.runningFn
  grind

@[grind ←] theorem Coroutines.closeFn_tied (c : Call σ) {services : Services τ} :
    Tied L (Coroutines.closeFn c) (Coroutines.closeFn (c.via services)) := by
  unfold Coroutines.closeFn
  have emptied (th : Thread) (status : ThreadStatus) (konts : List Kont) (h : th.Ready) :
      Thread.Ready { th with status, stack := #[], konts } := h.restack (show 0 < minimumRoom by decide) rfl rfl
  refine .bind (Coroutines.checkThread_tied c 1) fun t => .bind (.thread t) fun th => ?_
  split
  · exact .bind (.modifyThread _ _ fun _ => emptied _ _ _) fun _ => .pure _
  · exact .bind (.modifyThread _ _ fun _ => emptied _ _ _) fun _ => .pure _
  · refine .bind (.modifyThread _ _ fun _ => emptied _ _ _) fun _ => ?_
    split
    · exact .pure _
    · exact .pure _
  · exact M.fail_tied _

@[grind ←] theorem Coroutines.apply_tied {c : Call σ} {services : Services τ} (hc : L.Serves c.services services) (name : String)
    (upvalues : List Value) :
    Tied L (Coroutines.apply name upvalues c) (Coroutines.apply name upvalues (c.via services)) := by
  unfold Coroutines.apply
  grind

@[grind ←] theorem Base.errorFn_tied (c : Call σ) {services : Services τ} :
    Tied L (Base.errorFn c) (Base.errorFn (c.via services)) := by
  unfold Base.errorFn
  grind

@[grind ←] theorem Base.assertFn_tied (c : Call σ) {services : Services τ} :
    Tied L (Base.assertFn c) (Base.assertFn (c.via services)) := by
  unfold Base.assertFn
  grind

@[grind ←] theorem Base.typeFn_tied (c : Call σ) {services : Services τ} :
    Tied L (Base.typeFn c) (Base.typeFn (c.via services)) := by
  unfold Base.typeFn
  grind

@[grind ←] theorem Base.tostringFn_tied {c : Call σ} {services : Services τ} (hc : L.Serves c.services services) :
    Tied L (Base.tostringFn c) (Base.tostringFn (c.via services)) := by
  unfold Base.tostringFn
  grind

@[grind ←] theorem Base.tonumberFn_tied (c : Call σ) {services : Services τ} :
    Tied L (Base.tonumberFn c) (Base.tonumberFn (c.via services)) := by
  unfold Base.tonumberFn
  refine .bind .generation fun g => .ite (by grind) ?_
  refine .bind (Call.checkInt_tied _ _) fun base => .ite ?_ (by grind)
  split
  · grind
  · grind

@[grind ←] theorem Base.selectFn.pick_tied (c : Call σ) {services : Services τ} (n : Int) :
    Tied L (Base.selectFn.pick c n) (Base.selectFn.pick (c.via services) n) := by
  unfold Base.selectFn.pick
  grind

@[grind ←] theorem Base.selectFn_tied (c : Call σ) {services : Services τ} :
    Tied L (Base.selectFn c) (Base.selectFn (c.via services)) := by
  unfold Base.selectFn
  grind

@[grind ←] theorem Base.rawequalFn_tied (c : Call σ) {services : Services τ} :
    Tied L (Base.rawequalFn c) (Base.rawequalFn (c.via services)) := by
  unfold Base.rawequalFn
  grind

@[grind ←] theorem Base.rawgetFn_tied (c : Call σ) {services : Services τ} :
    Tied L (Base.rawgetFn c) (Base.rawgetFn (c.via services)) := by
  unfold Base.rawgetFn
  grind

@[grind ←] theorem Base.rawsetFn_tied (c : Call σ) {services : Services τ} :
    Tied L (Base.rawsetFn c) (Base.rawsetFn (c.via services)) := by
  unfold Base.rawsetFn
  grind

@[grind ←] theorem Base.rawlenFn_tied (c : Call σ) {services : Services τ} :
    Tied L (Base.rawlenFn c) (Base.rawlenFn (c.via services)) := by
  unfold Base.rawlenFn
  grind

@[grind ←] theorem Base.getmetatableFn_tied (c : Call σ) {services : Services τ} :
    Tied L (Base.getmetatableFn c) (Base.getmetatableFn (c.via services)) := by
  unfold Base.getmetatableFn
  grind

@[grind ←] theorem Base.setMetatable_tied (a : Nat) (mt : Option Nat) :
    Tied L (Base.setMetatable a mt : M σ Unit) (Base.setMetatable a mt) := by
  unfold Base.setMetatable
  refine .bind (.modifyVm _ fun vm => ⟨.modifyNoted vm a _ _ fun hn ha => ?_, rfl, rfl⟩) fun _ => ?_
  · simp [ha] at hn
  · split
    · exact .pure _
    · grind

@[grind ←] theorem Base.setmetatableFn_tied (c : Call σ) {services : Services τ} :
    Tied L (Base.setmetatableFn c) (Base.setmetatableFn (c.via services)) := by
  unfold Base.setmetatableFn
  refine .bind (Call.checkTable_tied _ _) fun a => ?_
  extract_lets set set'
  have sets (mt : Option Nat) : Tied L (set mt) (set' mt) := by
    unfold set set'
    refine .bind (metatable?_tied _) fun old => ?_
    extract_lets put put'
    have puts (u : Unit) : Tied L (put u) (put' u) := .bind (Base.setMetatable_tied _ _) fun _ => .pure _
    split
    · exact .bind (.table _) fun t => .ite (.bind (M.fail_tied _) puts) (puts ())
    · exact puts ()
  rw [Call.arg?_via]
  split
  · exact .bind (.pure _) sets
  · exact .bind (.pure _) sets
  · exact .bind .generation fun g => .ite (.bind (Call.typeError_tied _ _ _) sets) (.bind (Call.error_tied _ _ _) sets)

@[grind ←] theorem Base.nextEntry_tied (a : Nat) (key : Value) :
    Tied L (Base.nextEntry a key) (Base.nextEntry a key) := by
  unfold Base.nextEntry
  grind

@[grind ←] theorem Base.nextFn_tied (c : Call σ) {services : Services τ} :
    Tied L (Base.nextFn c) (Base.nextFn (c.via services)) := by
  unfold Base.nextFn
  grind

@[grind ←] theorem Base.pairsFn_tied {c : Call σ} {services : Services τ} (hc : L.Serves c.services services) :
    Tied L (Base.pairsFn c) (Base.pairsFn (c.via services)) := by
  unfold Base.pairsFn
  grind

@[grind ←] theorem Base.ipairsFn_tied {c : Call σ} {services : Services τ} (hc : L.Serves c.services services) :
    Tied L (Base.ipairsFn c) (Base.ipairsFn (c.via services)) := by
  unfold Base.ipairsFn
  grind

@[grind ←] theorem Base.ipairsStep_tied {c : Call σ} {services : Services τ} (hc : L.Serves c.services services) :
    Tied L (Base.ipairsStep c) (Base.ipairsStep (c.via services)) := by
  unfold Base.ipairsStep
  grind

@[grind ←] theorem Base.globalsValue_tied : Tied L (Base.globalsValue) (Base.globalsValue) := by
  unfold Base.globalsValue
  grind

@[grind ←] theorem Base.loadText_tied (source : ByteArray) (name : ByteArray) (env : Option Value) :
    Tied L (Base.loadText source name env) (Base.loadText source name env) := by
  unfold Base.loadText
  grind

@[grind ←] theorem Base.readPieces_tied {c : Call σ} {services : Services τ} (hc : L.Serves c.services services) (fuel : Nat)
    (acc : ByteArray) :
    Tied L (Base.readPieces c fuel acc) (Base.readPieces (c.via services) fuel acc) := by
  induction fuel generalizing acc with
  | zero =>
    unfold Base.readPieces
    exact .pure _
  | succ fuel ih =>
    unfold Base.readPieces
    grind

@[grind ←] theorem Base.loadFn_tied {c : Call σ} {services : Services τ} (hc : L.Serves c.services services) :
    Tied L (Base.loadFn c) (Base.loadFn (c.via services)) := by
  unfold Base.loadFn
  grind

@[grind ←] theorem Base.loadstringFn_tied (c : Call σ) {services : Services τ} :
    Tied L (Base.loadstringFn c) (Base.loadstringFn (c.via services)) := by
  unfold Base.loadstringFn
  grind

theorem Base.loadPath_eq (files : Base.Files σ) (path : ByteArray) : Base.loadPath files path = (do
    let g ← M.generation
    match (← M.files files).read path with
    | .error e => return .error (.errFile, Base.openFailure path e)
    | .ok content => M.load (bytesOf "@" ++ path) (Base.fileText g content) (← Base.globalsValue)) := rfl

@[grind ←] theorem Base.loadPath_tied {files : Base.Files σ} {files' : Base.Files τ} (hf : L.Files files files') (path : ByteArray) :
    Tied L (Base.loadPath files path) (Base.loadPath files' path) := by
  rw [Base.loadPath_eq, Base.loadPath_eq]
  refine .bind .generation fun g => .bind hf fun found => ?_
  split
  · exact .pure _
  · exact .bind Base.globalsValue_tied fun globals => M.load_tied _ _ _

@[grind ←] theorem Base.loadfileFn_tied {files : Base.Files σ} {files' : Base.Files τ} (hf : L.Files files files') (c : Call σ)
    {services : Services τ} :
    Tied L (Base.loadfileFn files c) (Base.loadfileFn files' (c.via services)) := by
  unfold Base.loadfileFn
  refine .bind (Call.optString_tied _ _ _) fun path => .bind (Base.loadPath_tied hf _) fun loaded => ?_
  split
  · refine .bind .generation fun g => ?_
    rw [Call.arg?_via]
    split
    · exact .pure _
    · refine .bind (.closure _) fun closure => ?_
      split
      · exact .bind (.setCell _ _) fun _ => .pure _
      · exact .pure _
    · exact .pure _
  · exact .pure _

@[grind ←] theorem Base.dofileFn_tied {c : Call σ} {services : Services τ} (hc : L.Serves c.services services)
    {files : Base.Files σ} {files' : Base.Files τ} (hf : L.Files files files') :
    Tied L (Base.dofileFn files c) (Base.dofileFn files' (c.via services)) := by
  unfold Base.dofileFn
  grind

@[grind ←] theorem Base.unpackRange_tied {c : Call σ} {services : Services τ} (hc : L.Serves c.services services) (obj : Value) (n : Nat)
    (i : Int) : Tied L (Base.unpackRange c obj n i) (Base.unpackRange (c.via services) obj n i) := by
  induction n generalizing i with
  | zero =>
    unfold Base.unpackRange
    exact .pure _
  | succ n ih =>
    unfold Base.unpackRange
    grind

@[grind ←] theorem Base.lengthOf_tied {c : Call σ} {services : Services τ} (hc : L.Serves c.services services) (v : Value) :
    Tied L (Base.lengthOf c v) (Base.lengthOf (c.via services) v) := by
  unfold Base.lengthOf
  grind

@[grind ←] theorem Base.unpackFn_tied {c : Call σ} {services : Services τ} (hc : L.Serves c.services services) :
    Tied L (Base.unpackFn c) (Base.unpackFn (c.via services)) := by
  unfold Base.unpackFn
  refine .bind .generation fun g => ?_
  extract_lets from_ from'
  have froms (obj : Value) : Tied L (from_ obj) (from' obj) := by
    unfold from_ from'
    refine .bind (Call.optInt_tied _ _ _) fun i => ?_
    extract_lets upTo upTo'
    have ranges (j : Int) : Tied L (upTo j) (upTo' j) :=
      .ite (.pure _) (.ite (.bind (M.fail_tied _) fun _ => Base.unpackRange_tied hc _ _ _) (Base.unpackRange_tied hc _ _ _))
    refine .ite (.ite (.bind (Base.lengthOf_tied hc _) ranges) ?_) (.bind (Call.checkInt_tied _ _) ranges)
    split
    · exact .bind (.table _) fun t => .bind (.pure _) ranges
    · exact .bind (.pure _) ranges
  exact .ite (.bind (.pure _) froms) (.bind (.map _ (Call.checkTable_tied _ _)) froms)

@[grind ←] theorem Base.collectgarbageFn_tied {c : Call σ} {services : Services τ} (hc : L.Serves c.services services) :
    Tied L (Base.collectgarbageFn c) (Base.collectgarbageFn (c.via services)) := by
  unfold Base.collectgarbageFn
  refine .bind .generation fun g => .bind (Call.optString_tied _ _ _) fun s => ?_
  refine .ite (by grind) (.ite (.pure _) (.ite (by grind) ?_))
  grind

@[grind ←] theorem Base.printEach_tied {c : Call σ} {services : Services τ} (hc : L.Serves c.services services) (vs : List Value) :
    Tied L (Base.printEach c vs) (Base.printEach (c.via services) vs) := by
  induction vs with
  | nil =>
    unfold Base.printEach
    exact .pure _
  | cons v rest ih =>
    unfold Base.printEach
    grind

@[grind ←] theorem Base.printFn_tied {c : Call σ} {services : Services τ} (hc : L.Serves c.services services) :
    Tied L (Base.printFn c) (Base.printFn (c.via services)) := by
  unfold Base.printFn
  grind

@[grind ←] theorem Base.newUserdata_tied (mt : Option Nat) : Tied L (Base.newUserdata mt) (Base.newUserdata mt) := by
  unfold Base.newUserdata
  grind

@[grind ←] theorem Base.newproxyFn_tied (c : Call σ) {services : Services τ} :
    Tied L (Base.newproxyFn c) (Base.newproxyFn (c.via services)) := by
  unfold Base.newproxyFn
  grind

@[grind ←] theorem Base.getfenvFn_tied (c : Call σ) {services : Services τ} :
    Tied L (Base.getfenvFn c) (Base.getfenvFn (c.via services)) := by
  unfold Base.getfenvFn
  grind

@[grind ←] theorem Base.apply_tied {c : Call σ} {services : Services τ} (hc : L.Serves c.services services)
    {files : Base.Files σ} {files' : Base.Files τ} (hf : L.Files files files')
    (name : String) :
    Tied L (Base.apply files name c) (Base.apply files' name (c.via services)) := by
  unfold Base.apply
  grind

theorem Debugging.quietly_eq_settle (act : M σ Unit) : Debugging.quietly act =
    act.settle pure (fun _ _ => pure ()) fun _ _ => pure () := by
  funext s
  unfold Debugging.quietly M.settle M.outcome
  cases act s with
  | ok _ t => rfl
  | error e t => cases e <;> rfl

@[grind ←] theorem Debugging.quietly_tied {act : M σ Unit} {act' : M τ Unit} (ha : Tied L act act') :
    Tied L (Debugging.quietly act) (Debugging.quietly act') := by
  rw [Debugging.quietly_eq_settle, Debugging.quietly_eq_settle]
  exact ha.settle .pure (fun _ _ => .pure _) fun _ _ => .pure _

@[grind ←] theorem Debugging.runLine_tied {c : Call σ} {services : Services τ} (hc : L.Serves c.services services) (line : List UInt8) :
    Tied L (Debugging.runLine c line) (Debugging.runLine (c.via services) line) := by
  unfold Debugging.runLine
  grind

@[grind ←] theorem Debugging.prompt_tied {c : Call σ} {services : Services τ} (hc : L.Serves c.services services) (fuel : Nat) :
    Tied L (Debugging.prompt c fuel) (Debugging.prompt (c.via services) fuel) := by
  induction fuel with
  | zero =>
    unfold Debugging.prompt
    exact .pure _
  | succ n ih =>
    unfold Debugging.prompt
    grind

@[grind ←] theorem Debugging.tracebackFn_tied (c : Call σ) {services : Services τ} :
    Tied L (Debugging.tracebackFn c) (Debugging.tracebackFn (c.via services)) := by
  unfold Debugging.tracebackFn
  grind

@[grind ←] theorem Debugging.setMetatableFn_tied (c : Call σ) {services : Services τ} :
    Tied L (Debugging.setMetatableFn c) (Debugging.setMetatableFn (c.via services)) := by
  unfold Debugging.setMetatableFn
  grind

@[grind ←] theorem Debugging.describeCaller_tied (g : Generation) (a : Nat) (caller : Option Caller) :
    Tied L (Debugging.describeCaller g a caller) (Debugging.describeCaller g a caller) := by
  unfold Debugging.describeCaller
  split
  · exact .bind (.setString _ _ _) fun _ => .bind (.setString _ _ _) fun _ => .bind (.setString _ _ _) fun _ =>
      .bind (.setString _ _ _) fun _ => .pure _
  · exact .bind (.setString _ _ _) fun _ => .bind (.setString _ _ _) fun _ => .bind (.setString _ _ _) fun _ =>
      .pure _
  · exact .pure _

@[grind ←] theorem Debugging.getInfoFn_tied (c : Call σ) {services : Services τ} :
    Tied L (Debugging.getInfoFn c) (Debugging.getInfoFn (c.via services)) := by
  have level (g : Generation) (a : Nat) : Tied L (do
      let level ← c.checkInt 1
      let cs ← M.callers (← M.vm).running
      Debugging.describeCaller g a cs[(level - 1).toNat]?) (do
      let level ← (c.via services).checkInt 1
      let cs ← M.callers (← M.vm).running
      Debugging.describeCaller g a cs[(level - 1).toNat]?) :=
    .bind (Call.checkInt_tied _ _) fun level => .bind .vm fun vm => .bind (M.callers_tied _) fun cs =>
      Debugging.describeCaller_tied g a _
  unfold Debugging.getInfoFn
  refine .bind .generation fun g => .bind (.newTable _) fun a => ?_
  rw [Call.arg_via]
  split
  · exact level g a
  · exact level g a
  · exact .bind (.setString _ _ _) fun _ => .bind (.setString _ _ _) fun _ => .pure _

@[grind ←] theorem Debugging.apply_tied {c : Call σ} {services : Services τ} (hc : L.Serves c.services services) (name : String) :
    Tied L (Debugging.apply name c) (Debugging.apply name (c.via services)) := by
  unfold Debugging.apply
  grind

@[grind ←] theorem Packages.pathField_tied (package : Nat) (name : String) :
    Tied L (Packages.pathField package name) (Packages.pathField package name) := by
  unfold Packages.pathField
  grind

@[grind ←] theorem Packages.searchPreload_tied (package : Nat) (c : Call σ) {services : Services τ} :
    Tied L (Packages.searchPreload package c) (Packages.searchPreload package (c.via services)) := by
  unfold Packages.searchPreload
  refine .bind .generation fun g => .bind (Call.checkString_tied _ _) fun name =>
    .bind (.table _) fun t => ?_
  split
  · grind
  · grind

theorem Packages.searchPath_eq (files : Base.Files σ) (package : Nat) (c : Call σ) : Packages.searchPath files package c = (do
    let g ← M.generation
    let name ← c.checkString 1
    let names := Packages.fileNames (← Packages.pathField package "path") name
    let there ← M.files files
    match names.find? fun n => Packages.isReadable there n with
    | none => return [.str (Packages.noFiles g names)]
    | some file =>
      match ← Base.loadPath files file with
      | .ok f => return [f, .str file]
      | .error (_, message) =>
        M.failBytes (bytesOf "error loading module '" ++ name ++ bytesOf "' from file '" ++ file
          ++ bytesOf "':\n\t" ++ message)) := rfl

@[grind ←] theorem Packages.searchPath_tied {files : Base.Files σ} {files' : Base.Files τ} (hf : L.Files files files') (package : Nat) (c : Call σ)
    {services : Services τ} :
    Tied L (Packages.searchPath files package c) (Packages.searchPath files' package (c.via services)) := by
  rw [Packages.searchPath_eq, Packages.searchPath_eq]
  refine .bind .generation fun g => .bind (Call.checkString_tied _ _) fun name =>
    .bind (Packages.pathField_tied _ _) fun path => .bind hf fun there => ?_
  split
  · exact .pure _
  · refine .bind (Base.loadPath_tied hf _) fun loaded => ?_
    split
    · exact .pure _
    · exact M.failBytes_tied _

@[grind ←] theorem Packages.searchNative_tied (package : Nat) (c : Call σ) {services : Services τ} :
    Tied L (Packages.searchNative package c) (Packages.searchNative package (c.via services)) := by
  unfold Packages.searchNative
  grind

@[grind ←] theorem Packages.searchNativeRoot_tied (package : Nat) (c : Call σ) {services : Services τ} :
    Tied L (Packages.searchNativeRoot package c) (Packages.searchNativeRoot package (c.via services)) := by
  unfold Packages.searchNativeRoot
  grind

@[grind ←] theorem Packages.findLoader.notThere_tied (name : ByteArray) (message : ByteArray) :
    Tied L (Packages.findLoader.notThere name message) (Packages.findLoader.notThere name message) := by
  unfold Packages.findLoader.notThere
  grind

@[grind ←] theorem Packages.findLoader_tied {c : Call σ} {services : Services τ} (hc : L.Serves c.services services)
    (name : ByteArray) (searchers fuel i : Nat)
    (message : ByteArray) :
    Tied L (Packages.findLoader c name searchers fuel i message) (Packages.findLoader (c.via services) name searchers fuel i message) := by
  induction fuel generalizing i message with
  | zero =>
    unfold Packages.findLoader
    exact Packages.findLoader.notThere_tied _ _
  | succ fuel ih =>
    unfold Packages.findLoader
    grind

@[grind ←] theorem Packages.requireFn_tied {c : Call σ} {services : Services τ} (hc : L.Serves c.services services) (package : Nat) :
    Tied L (Packages.requireFn package c) (Packages.requireFn package (c.via services)) := by
  have store (g : Generation) (modules : Nat) (name : ByteArray) (result : Value) (extra : List Value) :
      Tied L (do
        if !result.isNil then M.rawSet modules (.str name) result
        if ((← M.table modules).get (.str name)).isNil then M.rawSet modules (.str name) (.bool true)
        let final := (← M.table modules).get (.str name)
        return if g == .v54 then final :: extra else [final] : M σ (List Value)) (do
        if !result.isNil then M.rawSet modules (.str name) result
        if ((← M.table modules).get (.str name)).isNil then M.rawSet modules (.str name) (.bool true)
        let final := (← M.table modules).get (.str name)
        return if g == .v54 then final :: extra else [final]) := by grind
  unfold Packages.requireFn
  refine .bind .generation fun g => .bind (Call.checkString_tied _ _) fun name =>
    .bind Packages.loaded_tied fun modules => .bind (.table _) fun t => .ite (.pure _) ?_
  refine .bind (.table _) fun package => ?_
  dsimp only
  split
  · exact .bind (.pure _) fun searchers => .bind (Packages.findLoader_tied hc _ _ _ _ _) fun found =>
      .bind (hc.call _ _) fun vs => store _ _ _ _ _
  · exact .bind (M.fail_tied _) fun searchers => .bind (Packages.findLoader_tied hc _ _ _ _ _) fun found =>
      .bind (hc.call _ _) fun vs => store _ _ _ _ _

theorem Packages.searchPathFn_eq (files : Base.Files σ) (c : Call σ) : Packages.searchPathFn files c = (do
    let g ← M.generation
    let names := Packages.fileNames (← c.checkString 2) (← c.checkString 1)
    let there ← M.files files
    match names.find? fun n => Packages.isReadable there n with
    | some file => return [.str file]
    | none => return [.nil, .str (Packages.noFiles g names)]) := rfl

@[grind ←] theorem Packages.searchPathFn_tied {files : Base.Files σ} {files' : Base.Files τ} (hf : L.Files files files') (c : Call σ)
    {services : Services τ} :
    Tied L (Packages.searchPathFn files c) (Packages.searchPathFn files' (c.via services)) := by
  rw [Packages.searchPathFn_eq, Packages.searchPathFn_eq]
  refine .bind .generation fun g => .bind (Call.checkString_tied _ _) fun path => .bind (Call.checkString_tied _ _) fun name =>
    .bind hf fun there => ?_
  split
  · exact .pure _
  · exact .pure _

@[grind ←] theorem Packages.apply_tied {c : Call σ} {services : Services τ} (hc : L.Serves c.services services)
    {files : Base.Files σ} {files' : Base.Files τ} (hf : L.Files files files') (name : String) (upvalues : List Value) :
    Tied L (Packages.apply files name upvalues c) (Packages.apply files' name upvalues (c.via services)) := by
  unfold Packages.apply
  dsimp only
  split
  all_goals
    refine .bind (.pure _) fun package => ?_
    split
    all_goals grind

@[grind ←] theorem Streams.metatable?_tied : Tied L (Streams.metatable?) (Streams.metatable?) := by
  unfold Streams.metatable?
  grind

@[grind ←] theorem Streams.isStream_tied (v : Value) : Tied L (Streams.isStream v) (Streams.isStream v) := by
  unfold Streams.isStream
  grind

@[grind ←] theorem Streams.checkStream_tied (c : Call σ) {services : Services τ} (n : Nat) :
    Tied L (Streams.checkStream c n) (Streams.checkStream (c.via services) n) := by
  unfold Streams.checkStream
  grind

@[grind ←] theorem Streams.success_tied (stream : Value) :
    Tied L (Streams.success stream) (Streams.success stream) := by
  unfold Streams.success
  grind

@[grind ←] theorem Streams.checkTexts_tied (c : Call σ) {services : Services τ} (fuel n : Nat) :
    Tied L (Streams.checkTexts c fuel n) (Streams.checkTexts (c.via services) fuel n) := by
  induction fuel generalizing n with
  | zero =>
    unfold Streams.checkTexts
    exact .pure _
  | succ fuel ih =>
    unfold Streams.checkTexts
    grind

@[grind ←] theorem Streams.noFile_tied (path : ByteArray) : Tied L (Streams.noFile path) (Streams.noFile path) := by
  unfold Streams.noFile
  grind

@[grind ←] theorem Streams.apply_tied (name : String) (upvalues : List Value) (c : Call σ) {services : Services τ} :
    Tied L (Streams.apply name upvalues c) (Streams.apply name upvalues (c.via services)) := by
  unfold Streams.apply
  grind

end LuaHost.Lua
