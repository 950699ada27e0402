import LuaHost.Proofs.Links.Library.Data

set_option autoImplicit false
set_option linter.unusedSectionVars false

/-!
# Links of the libraries together

Opening a library fills fresh tables, and every function of every library is tied to itself.
-/

namespace LuaHost.Lua

variable {σ τ α β : Type} {L : Link σ τ} [L.Running]

@[grind ←] theorem Library.fill_tied (a : Nat) (lib : Lib) (names : List String) :
    Tied L (Library.fill a lib names : M σ Unit) (Library.fill a lib names) := by
  induction names with
  | nil =>
    unfold Library.fill
    exact .pure _
  | cons a rest ih =>
    unfold Library.fill
    grind

@[grind ←] theorem Library.tableFor_tied (lib : Lib) : Tied L (Library.tableFor lib) (Library.tableFor lib) := by
  unfold Library.tableFor
  refine .bind .generation fun g => .ite (by grind) (.bind Packages.loaded_tied fun loaded => ?_)
  refine .bind (.table _) fun t => ?_
  split
  · exact .pure _
  · refine .bind .vm fun vm => .bind (.table _) fun globals => ?_
    split
    · grind
    · grind
    · grind

@[grind ←] theorem Library.setField_tied (a : Nat) (name : String) (v : Value) :
    Tied L (Library.setField a name v) (Library.setField a name v) := by
  unfold Library.setField
  grind

@[grind ←] theorem Library.newLibrary_tied (lib : Lib) :
    Tied L (Library.newLibrary lib) (Library.newLibrary lib) := by
  unfold Library.newLibrary
  grind

@[grind ←] theorem Library.openCoroutine_tied : Tied L (Library.openCoroutine) (Library.openCoroutine) := by
  unfold Library.openCoroutine
  grind

@[grind ←] theorem Library.openBase_tied : Tied L (Library.openBase) (Library.openBase) := by
  unfold Library.openBase
  refine .bind .generation fun g => .bind .vm fun vm => .bind (Library.setField_tied _ _ _) fun _ => .ite ?_ ?_
  · refine .bind Packages.loaded_tied fun loaded => .bind (.rawSet _ _ _) fun _ => ?_
    grind
  · grind

@[grind ←] theorem Library.packageFunction_tied (package : Nat) (name : String) :
    Tied L (Library.packageFunction package name) (Library.packageFunction package name) := by
  unfold Library.packageFunction
  grind

@[grind ←] theorem Library.fillSearchers_tied (package searchers : Nat) (names : List String) (n : Nat) :
    Tied L (Library.fillSearchers package searchers names n : M σ Unit) (Library.fillSearchers package searchers names n) := by
  induction names generalizing n with
  | nil =>
    unfold Library.fillSearchers
    exact .pure _
  | cons a rest ih =>
    unfold Library.fillSearchers
    grind

@[grind ←] theorem Library.fillPackage_tied (package : Nat) (searchers : Nat) :
    Tied L (Library.fillPackage package searchers) (Library.fillPackage package searchers) := by
  unfold Library.fillPackage
  refine .bind .generation fun g => .bind (Library.setField_tied _ _ _) fun _ =>
    .bind (Library.setField_tied _ _ _) fun _ => .bind (Library.setField_tied _ _ _) fun _ => ?_
  grind

@[grind ←] theorem Library.openPackage_tied : Tied L (Library.openPackage) (Library.openPackage) := by
  unfold Library.openPackage
  refine .bind (Library.newLibrary_tied _) fun a => .bind (.newTable _) fun searchers =>
    .bind (Library.fillSearchers_tied _ _ _ _) fun _ => .bind (Library.fillPackage_tied _ _) fun _ => ?_
  grind

@[grind ←] theorem Library.openString_tied : Tied L (Library.openString) (Library.openString) := by
  unfold Library.openString
  grind

@[grind ←] theorem Library.openMath_tied : Tied L (Library.openMath) (Library.openMath) := by
  unfold Library.openMath
  grind

@[grind ←] theorem Library.fillMethods_tied (a : Nat) (names : List String) :
    Tied L (Library.fillMethods a names : M σ Unit) (Library.fillMethods a names) := by
  induction names with
  | nil =>
    unfold Library.fillMethods
    exact .pure _
  | cons a rest ih =>
    unfold Library.fillMethods
    grind

@[grind ←] theorem Library.streamMetatable_tied : Tied L (Library.streamMetatable) (Library.streamMetatable) := by
  have rest (g : Generation) (mt : Nat) : Tied L (do
      Library.setField mt "__tostring" (← M.native (.library .io "file_tostring"))
      let methods ← if g == .v54 then M.newTable else Pure.pure mt
      Library.fillMethods methods Library.methodNames
      Library.setField mt "__index" (.table methods)
      return mt : M σ Nat) (do
      Library.setField mt "__tostring" (← M.native (.library .io "file_tostring"))
      let methods ← if g == .v54 then M.newTable else Pure.pure mt
      Library.fillMethods methods Library.methodNames
      Library.setField mt "__index" (.table methods)
      return mt) := by grind
  unfold Library.streamMetatable
  refine .bind .generation fun g => .bind .vm fun vm => .bind (Packages.subtable_tied _ _) fun mt => .ite ?_ ?_
  · exact .bind (Library.setField_tied _ _ _) fun _ => .bind (.native _) fun _ =>
      .bind (Library.setField_tied _ _ _) fun _ => rest g mt
  · exact .bind (.native _) fun _ => .bind (Library.setField_tied _ _ _) fun _ => rest g mt

@[grind ←] theorem Library.standardStream_tied (a : Nat) (mt : Nat) (name : String) :
    Tied L (Library.standardStream a mt name) (Library.standardStream a mt name) := by
  unfold Library.standardStream
  grind

@[grind ←] theorem Library.fillStreams_tied (a : Nat) (input output : Value) (names : List String) :
    Tied L (Library.fillStreams a input output names : M σ Unit) (Library.fillStreams a input output names) := by
  induction names with
  | nil =>
    unfold Library.fillStreams
    exact .pure _
  | cons a rest ih =>
    unfold Library.fillStreams
    grind

@[grind ←] theorem Library.openStreams_tied : Tied L (Library.openStreams) (Library.openStreams) := by
  unfold Library.openStreams
  grind

@[grind ←] theorem Library.openUtf8_tied : Tied L (Library.openUtf8) (Library.openUtf8) := by
  unfold Library.openUtf8
  grind

@[grind ←] theorem Library.opener_tied (a : Lib) : Tied L (Library.opener a) (Library.opener a) := by
  unfold Library.opener
  grind

@[grind ←] theorem Library.register_tied {opening : M σ Value} {opening' : M τ Value} (ha : Tied L opening opening')
    (name : ByteArray) (isGlobal : Bool) :
    Tied L (Library.register name isGlobal opening) (Library.register name isGlobal opening') := by
  unfold Library.register
  refine .bind .generation fun g => .bind Packages.loaded_tied fun loaded => .bind (.table _) fun t => .ite ?_ ?_
  · grind
  · grind

@[grind ←] theorem Library.openAll_tied : Tied L (Library.openAll) (Library.openAll) := by
  unfold Library.openAll
  refine .bind .generation fun g => .forM (fun lib => .ite ?_ ?_) _
  · grind
  · grind

@[grind ←] theorem Library.apply_tied {services : Services σ} {services' : Services τ} (hs : L.Serves services services')
    {files : Base.Files σ} {files' : Base.Files τ} (hf : L.Files files files') (f : Native) (upvalues : List Value) (args : List Value) :
    Tied L (Library.apply files services f upvalues args) (Library.apply files' services' f upvalues args) := by
  let c : Call σ := ⟨f, args, services⟩
  unfold Library.apply
  dsimp only
  split
  · exact Library.opener_tied _
  · exact .raise _
  · exact Base.apply_tied (c := c) hs hf _
  · exact Coroutines.apply_tied (c := c) hs _ _
  · exact Packages.apply_tied (c := c) hs hf _ _
  · exact Strings.apply_tied (c := c) hs _ _
  · exact Tables.apply_tied (c := c) hs _
  · exact Maths.apply_tied _ c
  · exact Streams.apply_tied _ _ c
  · exact Os.apply_tied _ c
  · exact Debugging.apply_tied (c := c) hs _
  · exact Codepoints.apply_tied _ c
  · exact Bits.apply_tied _ c
  · exact .pure _

end LuaHost.Lua
