import LuaHost.Proofs.Links.Library.Core

set_option autoImplicit false
set_option linter.unusedSectionVars false

/-!
# Links of the libraries for data

Words, code points, numbers, the clock, strings and tables.
-/

namespace LuaHost.Lua

variable {σ τ α β : Type} {L : Link σ τ} [L.Running]

@[grind ←] theorem Bits.checkWord_tied (c : Call σ) {services : Services τ} (n : Nat) :
    Tied L (Bits.checkWord c n) (Bits.checkWord (c.via services) n) := by
  unfold Bits.checkWord
  grind

@[grind ←] theorem Bits.result_tied (w : UInt32) : Tied L (Bits.result w) (Bits.result w) := by
  unfold Bits.result
  grind

@[grind ←] theorem Bits.fold_tied (op : UInt32 → UInt32 → UInt32) (c : Call σ)
    {services : Services τ} (start : UInt32) :
    Tied L (Bits.fold op c start) (Bits.fold op (c.via services) start) := by
  unfold Bits.fold
  exact .foldlM (fun acc i => .bind (Bits.checkWord_tied _ _) fun _ => .pure _) _ _

@[grind ←] theorem Bits.field_tied (c : Call σ) {services : Services τ} (n : Nat) :
    Tied L (Bits.field c n) (Bits.field (c.via services) n) := by
  unfold Bits.field
  grind

@[grind ←] theorem Bits.apply_tied (name : String) (c : Call σ) {services : Services τ} :
    Tied L (Bits.apply name c) (Bits.apply name (c.via services)) := by
  unfold Bits.apply
  grind

@[grind ←] theorem Codepoints.charFn_tied (c : Call σ) {services : Services τ} :
    Tied L (Codepoints.charFn c) (Codepoints.charFn (c.via services)) := by
  unfold Codepoints.charFn
  refine .bind (.mapM (fun i => ?_) _) fun pieces => .pure _
  grind

@[grind ←] theorem Codepoints.listCodes_tied (g : Generation) (codes : Option (List Nat)) :
    Tied L (Codepoints.listCodes g codes) (Codepoints.listCodes g codes) := by
  cases codes with
  | some codes => exact .pure _
  | none => exact M.fail_tied _

@[grind =] theorem Codepoints.isLax_via (c : Call σ) (services : Services τ) (n : Nat) :
    Codepoints.isLax (c.via services) n = Codepoints.isLax c n := rfl

@[grind ←] theorem Codepoints.codepointFn_tied (c : Call σ) {services : Services τ} :
    Tied L (Codepoints.codepointFn c) (Codepoints.codepointFn (c.via services)) := by
  unfold Codepoints.codepointFn
  refine .bind .generation fun g => .bind (Call.checkString_tied _ _) fun s =>
    .bind (Call.optInt_tied _ _ _) fun i => .bind (Call.optInt_tied _ _ _) fun j => ?_
  dsimp only
  have listed (i j : Int) := Codepoints.listCodes_tied (L := L) g
    (Codepoints.codesFrom g (!Codepoints.isLax c 4) s.data.toList (s.size + 1) i j)
  refine .ite (.bind (Call.error_tied _ _ _) fun _ => ?_) ?_
  · exact .ite (.bind (Call.error_tied _ _ _) fun _ => .ite (.pure _) (listed _ _)) (.ite (.pure _) (listed _ _))
  · exact .ite (.bind (Call.error_tied _ _ _) fun _ => .ite (.pure _) (listed _ _)) (.ite (.pure _) (listed _ _))

@[grind ←] theorem Codepoints.lenFn_tied (c : Call σ) {services : Services τ} :
    Tied L (Codepoints.lenFn c) (Codepoints.lenFn (c.via services)) := by
  unfold Codepoints.lenFn
  simp only [Codepoints.isLax_via]
  grind

@[grind ←] theorem Codepoints.offsetFn_tied (c : Call σ) {services : Services τ} :
    Tied L (Codepoints.offsetFn c) (Codepoints.offsetFn (c.via services)) := by
  unfold Codepoints.offsetFn
  refine .bind .generation fun g => .bind (Call.checkString_tied _ _) fun s =>
    .bind (Call.checkInt_tied _ _) fun n => .bind (Call.optInt_tied _ _ _) fun i => ?_
  refine .ite (.bind (Call.error_tied _ _ _) fun _ => .ite (.pure _) ?_) (.ite (.pure _) ?_)
  · exact .ite (.bind (M.fail_tied _) fun _ => .pure _) (.pure _)
  · exact .ite (.bind (M.fail_tied _) fun _ => .pure _) (.pure _)

@[grind ←] theorem Codepoints.codesStep_tied (c : Call σ) {services : Services τ} :
    Tied L (Codepoints.codesStep c) (Codepoints.codesStep (c.via services)) := by
  unfold Codepoints.codesStep
  grind

@[grind ←] theorem Codepoints.apply_tied (name : String) (c : Call σ) {services : Services τ} :
    Tied L (Codepoints.apply name c) (Codepoints.apply name (c.via services)) := by
  unfold Codepoints.apply
  grind

@[grind ←] theorem Maths.float_tied (f : Float → Float) (c : Call σ) {services : Services τ} :
    Tied L (Maths.float f c) (Maths.float f (c.via services)) := by
  unfold Maths.float
  grind

@[grind ←] theorem Maths.rounded_tied (f : Float → Float) (c : Call σ) {services : Services τ} :
    Tied L (Maths.rounded f c) (Maths.rounded f (c.via services)) := by
  unfold Maths.rounded
  grind

@[grind ←] theorem Maths.absFn_tied (c : Call σ) {services : Services τ} :
    Tied L (Maths.absFn c) (Maths.absFn (c.via services)) := by
  unfold Maths.absFn
  grind

@[grind ←] theorem Maths.fmodFn_tied (c : Call σ) {services : Services τ} :
    Tied L (Maths.fmodFn c) (Maths.fmodFn (c.via services)) := by
  unfold Maths.fmodFn
  grind

@[grind ←] theorem Maths.modfFn_tied (c : Call σ) {services : Services τ} :
    Tied L (Maths.modfFn c) (Maths.modfFn (c.via services)) := by
  unfold Maths.modfFn
  grind

@[grind ←] theorem Maths.extreme.go_tied (isMax : Bool) (c : Call σ)
    {services : Services τ} (places : List Nat) (best : Value) :
    Tied L (Maths.extreme.go isMax c places best) (Maths.extreme.go isMax (c.via services) places best) := by
  induction places generalizing best with
  | nil =>
    unfold Maths.extreme.go
    exact .pure _
  | cons a rest ih =>
    unfold Maths.extreme.go
    grind

@[grind ←] theorem Maths.extreme_tied (isMax : Bool) (c : Call σ) {services : Services τ} :
    Tied L (Maths.extreme isMax c) (Maths.extreme isMax (c.via services)) := by
  unfold Maths.extreme
  grind

@[grind ←] theorem Maths.logFn_tied (c : Call σ) {services : Services τ} :
    Tied L (Maths.logFn c) (Maths.logFn (c.via services)) := by
  unfold Maths.logFn
  grind

@[grind ←] theorem Maths.toIntegerFn_tied (c : Call σ) {services : Services τ} :
    Tied L (Maths.toIntegerFn c) (Maths.toIntegerFn (c.via services)) := by
  unfold Maths.toIntegerFn
  grind

@[grind ←] theorem Maths.typeFn_tied (c : Call σ) {services : Services τ} :
    Tied L (Maths.typeFn c) (Maths.typeFn (c.via services)) := by
  unfold Maths.typeFn
  grind

@[grind ←] theorem Maths.randomFn_tied (c : Call σ) {services : Services τ} :
    Tied L (Maths.randomFn c) (Maths.randomFn (c.via services)) := by
  unfold Maths.randomFn
  grind

@[grind ←] theorem Maths.apply_tied (name : String) (c : Call σ) {services : Services τ} :
    Tied L (Maths.apply name c) (Maths.apply name (c.via services)) := by
  unfold Maths.apply
  grind

@[grind ←] theorem Os.noFile_tied (path : ByteArray) : Tied L (Os.noFile path) (Os.noFile path) := by
  unfold Os.noFile
  grind

@[grind ←] theorem Os.apply_tied (name : String) (c : Call σ) {services : Services τ} :
    Tied L (Os.apply name c) (Os.apply name (c.via services)) := by
  unfold Os.apply
  grind

@[grind ←] theorem Strings.lenFn_tied (c : Call σ) {services : Services τ} :
    Tied L (Strings.lenFn c) (Strings.lenFn (c.via services)) := by
  unfold Strings.lenFn
  grind

@[grind ←] theorem Strings.subFn_tied (c : Call σ) {services : Services τ} :
    Tied L (Strings.subFn c) (Strings.subFn (c.via services)) := by
  unfold Strings.subFn
  grind

@[grind ←] theorem Strings.mapBytes_tied (f : UInt8 → UInt8) (c : Call σ) {services : Services τ} :
    Tied L (Strings.mapBytes f c) (Strings.mapBytes f (c.via services)) := by
  unfold Strings.mapBytes
  grind

@[grind ←] theorem Strings.reverseFn_tied (c : Call σ) {services : Services τ} :
    Tied L (Strings.reverseFn c) (Strings.reverseFn (c.via services)) := by
  unfold Strings.reverseFn
  grind

@[grind ←] theorem Strings.repFn_tied (c : Call σ) {services : Services τ} :
    Tied L (Strings.repFn c) (Strings.repFn (c.via services)) := by
  unfold Strings.repFn
  grind

@[grind ←] theorem Strings.byteFn_tied (c : Call σ) {services : Services τ} :
    Tied L (Strings.byteFn c) (Strings.byteFn (c.via services)) := by
  unfold Strings.byteFn
  grind

@[grind ←] theorem Strings.charBytes_tied (c : Call σ) {services : Services τ} (left n : Nat) :
    Tied L (Strings.charBytes c left n) (Strings.charBytes (c.via services) left n) := by
  induction left generalizing n with
  | zero =>
    unfold Strings.charBytes
    exact .pure _
  | succ left ih =>
    unfold Strings.charBytes
    grind

@[grind ←] theorem Strings.charFn_tied (c : Call σ) {services : Services τ} :
    Tied L (Strings.charFn c) (Strings.charFn (c.via services)) := by
  unfold Strings.charFn
  grind

@[grind ←] theorem Strings.convert_tied {c : Call σ} {services : Services τ} (hc : L.Serves c.services services)
    (spec : Strings.Spec) (letter : UInt8) (n : Nat) :
    Tied L (Strings.convert c spec letter n) (Strings.convert (c.via services) spec letter n) := by
  unfold Strings.convert
  grind

@[grind ←] theorem Strings.formatFrom_tied {c : Call σ} {services : Services τ} (hc : L.Serves c.services services) (fuel : Nat)
    (bs : List UInt8) (n : Nat)
    (acc : ByteArray) :
    Tied L (Strings.formatFrom c fuel bs n acc) (Strings.formatFrom (c.via services) fuel bs n acc) := by
  induction fuel generalizing bs n acc with
  | zero =>
    unfold Strings.formatFrom
    exact .pure _
  | succ fuel ih =>
    unfold Strings.formatFrom
    split
    · exact .pure _
    · exact ih _ _ _
    · grind
    · exact ih _ _ _

@[grind ←] theorem Strings.formatFn_tied {c : Call σ} {services : Services τ} (hc : L.Serves c.services services) :
    Tied L (Strings.formatFn c) (Strings.formatFn (c.via services)) := by
  unfold Strings.formatFn
  grind

@[grind ←] theorem Strings.captureValue_tied (x : Pattern.Subject) (caps : Pattern.Captures)
    (start : Nat) (stop : Nat) (i : Nat) :
    Tied L (Strings.captureValue x caps start stop i) (Strings.captureValue x caps start stop i) := by
  unfold Strings.captureValue
  grind

@[grind ←] theorem Strings.captureValues_tied (x : Pattern.Subject) (caps : Pattern.Captures)
    (start : Nat) (stop : Nat) (whole : Bool) :
    Tied L (Strings.captureValues x caps start stop whole) (Strings.captureValues x caps start stop whole) := by
  unfold Strings.captureValues
  exact .mapM (fun i => Strings.captureValue_tied _ _ _ _ _) _

@[grind ←] theorem Strings.fromPattern_tied {α : Type} (r : Except String α) :
    Tied L (Strings.fromPattern r : M σ α) (Strings.fromPattern r) := by
  unfold Strings.fromPattern
  grind

@[grind ←] theorem Strings.findAux_tied (wantsPlace : Bool) (c : Call σ) {services : Services τ} :
    Tied L (Strings.findAux wantsPlace c) (Strings.findAux wantsPlace (c.via services)) := by
  unfold Strings.findAux
  refine .bind .generation fun g => .bind (Call.checkString_tied _ _) fun text =>
    .bind (Call.checkString_tied _ _) fun pattern => .bind (Call.optInt_tied _ _ _) fun start =>
    .ite (.pure _) (.ite ?_ ?_)
  · grind
  · refine .bind (Strings.fromPattern_tied _) fun found => ?_
    split
    · exact .pure _
    · grind

@[grind ←] theorem Strings.gmatchStep.find_tied (x : Pattern.Subject) (address fuel place lastEnd : Nat) :
    Tied L (Strings.gmatchStep.find x address fuel place lastEnd : M σ (List Value)) (Strings.gmatchStep.find x address fuel place lastEnd) := by
  induction fuel generalizing place lastEnd with
  | zero =>
    unfold Strings.gmatchStep.find
    exact .pure _
  | succ fuel ih =>
    unfold Strings.gmatchStep.find
    refine .bind .generation fun g => .bind (Strings.fromPattern_tied _) fun found => ?_
    split
    · exact .pure _
    · grind

@[grind ←] theorem Strings.gmatchStep_tied (upvalues : List Value) :
    Tied L (Strings.gmatchStep upvalues) (Strings.gmatchStep upvalues) := by
  unfold Strings.gmatchStep
  grind

@[grind ←] theorem Strings.gmatchFn_tied (c : Call σ) {services : Services τ} :
    Tied L (Strings.gmatchFn c) (Strings.gmatchFn (c.via services)) := by
  unfold Strings.gmatchFn
  grind

@[grind ←] theorem Strings.replacement.expand_tied (x : Pattern.Subject) (caps : Pattern.Captures)
    (s e : Nat)
    (bs : List UInt8) (acc : ByteArray) :
    Tied L (Strings.replacement.expand x caps s e bs acc : M σ ByteArray) (Strings.replacement.expand x caps s e bs acc) := by
  induction bs, acc using Strings.replacement.expand.induct x s e
  all_goals
    simp only [Strings.replacement.expand]
    grind

@[grind ←] theorem Strings.replacement_tied {c : Call σ} {services : Services τ} (hc : L.Serves c.services services)
    (x : Pattern.Subject) (caps : Pattern.Captures) (s : Nat) (e : Nat) :
    Tied L (Strings.replacement c x caps s e) (Strings.replacement (c.via services) x caps s e) := by
  unfold Strings.replacement
  refine .bind .generation fun g => ?_
  split
  · grind
  · grind
  · grind
  · grind

@[grind ←] theorem Strings.gsubFrom_tied {c : Call σ} {services : Services τ} (hc : L.Serves c.services services)
    (x : Pattern.Subject) (anchored : Bool) (limit : Int)
    (fuel s : Nat) (lastEnd : Option Nat) (count : Nat) (acc : ByteArray) :
    Tied L (Strings.gsubFrom c x anchored limit fuel s lastEnd count acc) (Strings.gsubFrom (c.via services) x anchored limit fuel s lastEnd count acc) := by
  induction fuel generalizing s lastEnd count acc with
  | zero =>
    unfold Strings.gsubFrom
    exact .pure _
  | succ fuel ih =>
    unfold Strings.gsubFrom
    have step (s : Nat) (lastEnd : Option Nat) (count : Nat) (acc : ByteArray) :
        Tied L (if x.text.size < s || anchored then Pure.pure (acc ++ x.text.extract s x.text.size, count)
          else Strings.gsubFrom c x anchored limit fuel s lastEnd count acc) (if x.text.size < s || anchored then Pure.pure (acc ++ x.text.extract s x.text.size, count)
          else Strings.gsubFrom (c.via services) x anchored limit fuel s lastEnd count acc) := .ite (.pure _) (ih _ _ _ _)
    have skip (count : Nat) (acc : ByteArray) : Tied L (if s < x.text.size then
        (if x.text.size < s + 1 || anchored then
          Pure.pure (acc.push (x.byte s) ++ x.text.extract (s + 1) x.text.size, count)
          else Strings.gsubFrom c x anchored limit fuel (s + 1) lastEnd count (acc.push (x.byte s)))
        else Pure.pure (acc, count)) (if s < x.text.size then
        (if x.text.size < s + 1 || anchored then
          Pure.pure (acc.push (x.byte s) ++ x.text.extract (s + 1) x.text.size, count)
          else Strings.gsubFrom (c.via services) x anchored limit fuel (s + 1) lastEnd count (acc.push (x.byte s)))
        else Pure.pure (acc, count)) := .ite (step _ _ _ _) (.pure _)
    refine .ite (.pure _) (.bind (Strings.fromPattern_tied _) fun found => .bind .generation fun g => ?_)
    dsimp only
    split
    · exact .ite (skip _ _) (.bind (Strings.replacement_tied hc _ _ _ _) fun _ => .ite (skip _ _) (step _ _ _ _))
    · exact skip _ _

@[grind ←] theorem Strings.gsubFn_tied {c : Call σ} {services : Services τ} (hc : L.Serves c.services services) :
    Tied L (Strings.gsubFn c) (Strings.gsubFn (c.via services)) := by
  unfold Strings.gsubFn
  grind

@[grind ←] theorem Strings.apply_tied {c : Call σ} {services : Services τ} (hc : L.Serves c.services services) (name : String)
    (upvalues : List Value) :
    Tied L (Strings.apply name upvalues c) (Strings.apply name upvalues (c.via services)) := by
  unfold Strings.apply
  grind

@[grind ←] theorem Tables.checkTab_tied (c : Call σ) {services : Services τ} (n : Nat) :
    Tied L (Tables.checkTab c n) (Tables.checkTab (c.via services) n) := by
  unfold Tables.checkTab
  grind

@[grind ←] theorem Tables.get_tied {c : Call σ} {services : Services τ} (hc : L.Serves c.services services) (t : Value) (i : Int) :
    Tied L (Tables.get c t i) (Tables.get (c.via services) t i) := by
  unfold Tables.get
  grind

@[grind ←] theorem Tables.set_tied {c : Call σ} {services : Services τ} (hc : L.Serves c.services services) (t : Value) (i : Int)
    (v : Value) :
    Tied L (Tables.set c t i v) (Tables.set (c.via services) t i v) := by
  unfold Tables.set
  grind

@[grind ←] theorem Tables.concatFrom_tied {c : Call σ} {services : Services τ} (hc : L.Serves c.services services) (t : Value)
    (separator : ByteArray) (n : Nat)
    (i : Int) (acc : ByteArray) :
    Tied L (Tables.concatFrom c t separator n i acc) (Tables.concatFrom (c.via services) t separator n i acc) := by
  induction n generalizing i acc with
  | zero =>
    unfold Tables.concatFrom
    exact .pure _
  | succ n ih =>
    unfold Tables.concatFrom
    grind

@[grind ←] theorem Tables.concatFn_tied {c : Call σ} {services : Services τ} (hc : L.Serves c.services services) :
    Tied L (Tables.concatFn c) (Tables.concatFn (c.via services)) := by
  unfold Tables.concatFn
  grind

@[grind ←] theorem Tables.shiftUp_tied {c : Call σ} {services : Services τ} (hc : L.Serves c.services services) (t : Value) (n : Nat)
    (i : Int) :
    Tied L (Tables.shiftUp c t n i) (Tables.shiftUp (c.via services) t n i) := by
  induction n generalizing i with
  | zero =>
    unfold Tables.shiftUp
    exact .pure _
  | succ n ih =>
    unfold Tables.shiftUp
    grind

@[grind ←] theorem Tables.insertFn_tied {c : Call σ} {services : Services τ} (hc : L.Serves c.services services) :
    Tied L (Tables.insertFn c) (Tables.insertFn (c.via services)) := by
  unfold Tables.insertFn
  refine .bind (Tables.checkTab_tied _ _) fun t => .bind (Base.lengthOf_tied hc _) fun e => ?_
  dsimp only [Call.count_via, Call.arg_via]
  split
  · grind
  · refine .bind (Call.checkInt_tied _ _) fun pos => .bind .generation fun g => .ite ?_ ?_
    · grind
    · grind
  · exact M.fail_tied _

@[grind ←] theorem Tables.shiftDown_tied {c : Call σ} {services : Services τ} (hc : L.Serves c.services services) (t : Value)
    (n : Nat) (i : Int) :
    Tied L (Tables.shiftDown c t n i) (Tables.shiftDown (c.via services) t n i) := by
  induction n generalizing i with
  | zero =>
    unfold Tables.shiftDown
    exact .pure _
  | succ n ih =>
    unfold Tables.shiftDown
    grind

@[grind ←] theorem Tables.removeFn_tied {c : Call σ} {services : Services τ} (hc : L.Serves c.services services) :
    Tied L (Tables.removeFn c) (Tables.removeFn (c.via services)) := by
  have rest (t : Value) (size pos : Int) : Tied L (do
      let v ← Tables.get c t pos
      Tables.shiftDown c t (size - pos).toNat pos
      Tables.set c t (max pos size) .nil
      return [v]) (do
      let v ← Tables.get (c.via services) t pos
      Tables.shiftDown (c.via services) t (size - pos).toNat pos
      Tables.set (c.via services) t (max pos size) .nil
      return [v]) := by grind
  unfold Tables.removeFn
  refine .bind .generation fun g => .bind (Tables.checkTab_tied _ _) fun t =>
    .bind (Base.lengthOf_tied hc _) fun size => .bind (Call.optInt_tied _ _ _) fun pos => .ite ?_ ?_
  · exact .ite (.pure _) (rest t size pos)
  · exact .ite (.bind (Call.error_tied _ _ _) fun _ => rest t size pos) (rest t size pos)

@[grind ←] theorem Tables.scanUp_tied {c : Call σ} {services : Services τ} (hc : L.Serves c.services services) (t pivot : Value)
    {less : Value → Value → M σ Bool} {less' : Value → Value → M τ Bool}
    (hl : ∀ a b, Tied L (less a b) (less' a b)) (isBeyond : Int → Bool)
    (fuel : Nat) (i : Int) :
    Tied L (Tables.scanUp c t pivot less isBeyond fuel i) (Tables.scanUp (c.via services) t pivot less' isBeyond fuel i) := by
  induction fuel generalizing i with
  | zero =>
    unfold Tables.scanUp
    exact .pure _
  | succ fuel ih =>
    unfold Tables.scanUp
    grind

@[grind ←] theorem Tables.scanDown_tied {c : Call σ} {services : Services τ} (hc : L.Serves c.services services) (t pivot : Value)
    {less : Value → Value → M σ Bool} {less' : Value → Value → M τ Bool}
    (hl : ∀ a b, Tied L (less a b) (less' a b)) (isBeyond : Int → Bool)
    (fuel : Nat) (i : Int) :
    Tied L (Tables.scanDown c t pivot less isBeyond fuel i) (Tables.scanDown (c.via services) t pivot less' isBeyond fuel i) := by
  induction fuel generalizing i with
  | zero =>
    unfold Tables.scanDown
    exact .pure _
  | succ fuel ih =>
    unfold Tables.scanDown
    grind

@[grind ←] theorem Tables.partition_tied {c : Call σ} {services : Services τ} (hc : L.Serves c.services services) (t pivot : Value)
    {less : Value → Value → M σ Bool} {less' : Value → Value → M τ Bool}
    (hl : ∀ a b, Tied L (less a b) (less' a b)) (lo up : Int) (fuel : Nat)
    (i j : Int) :
    Tied L (Tables.partition c t pivot less lo up fuel i j) (Tables.partition (c.via services) t pivot less' lo up fuel i j) := by
  induction fuel generalizing i j with
  | zero =>
    unfold Tables.partition
    exact .pure _
  | succ fuel ih =>
    unfold Tables.partition
    refine .bind .generation fun g => .bind (Tables.scanUp_tied hc _ _ hl _ _ _) fun found =>
      .bind (Tables.scanDown_tied hc _ _ hl _ _ _) fun found' => .ite ?_ ?_
    · grind
    · grind

@[grind ←] theorem Tables.order_tied {c : Call σ} {services : Services τ} (hc : L.Serves c.services services) (t : Value)
    {less : Value → Value → M σ Bool} {less' : Value → Value → M τ Bool}
    (hl : ∀ a b, Tied L (less a b) (less' a b))
    (low high : Int) (a b : Value) : Tied L (Tables.order c t less low high a b) (Tables.order (c.via services) t less' low high a b) := by
  unfold Tables.order
  refine .bind (hl _ _) fun isLess => .ite ?_ (.pure _)
  grind

@[grind ←] theorem Tables.sortRange_tied {c : Call σ} {services : Services τ} (hc : L.Serves c.services services) (t : Value)
    {less : Value → Value → M σ Bool} {less' : Value → Value → M τ Bool}
    (hl : ∀ a b, Tied L (less a b) (less' a b))
    (fuel : Nat) (lo up : Int) :
    Tied L (Tables.sortRange c t less fuel lo up) (Tables.sortRange (c.via services) t less' fuel lo up) := by
  induction fuel generalizing lo up with
  | zero =>
    unfold Tables.sortRange
    exact .pure _
  | succ fuel ih =>
    unfold Tables.sortRange
    refine .ite (.pure _) (.bind (Tables.get_tied hc _ _) fun a => .bind (Tables.get_tied hc _ _) fun b =>
      .bind (Tables.order_tied hc _ hl _ _ _ _) fun _ => .ite (.pure _) ?_)
    extract_lets p part part'
    have parts (u : PUnit) : Tied L (part u) (part' u) := by
      refine .ite (.pure _) (.bind (Tables.get_tied hc _ _) fun pivot => .bind (Tables.get_tied hc _ _) fun v =>
        .bind (Tables.set_tied hc _ _ _) fun _ => .bind (Tables.set_tied hc _ _ _) fun _ =>
        .bind (Tables.partition_tied hc _ _ hl _ _ _ _ _) fun p => .ite ?_ ?_)
      · exact .bind (ih _ _) fun _ => ih _ _
      · exact .bind (ih _ _) fun _ => ih _ _
    refine .bind (Tables.get_tied hc _ _) fun x => .bind (Tables.get_tied hc _ _) fun a =>
      .bind (Tables.order_tied hc _ hl _ _ _ _) fun isDone => .ite (parts ()) ?_
    exact .bind (Tables.get_tied hc _ _) fun b => .bind (Tables.order_tied hc _ hl _ _ _ _) fun _ => parts ()

@[grind ←] theorem Tables.sortFn_tied {c : Call σ} {services : Services τ} (hc : L.Serves c.services services) :
    Tied L (Tables.sortFn c) (Tables.sortFn (c.via services)) := by
  unfold Tables.sortFn
  have hl (a b : Value) : Tied L (if c.isAbsent 2 then M.lessThan c.services a b
      else do return (first (← c.services.call (c.arg 2) [a, b])).truthy) (if (c.via services).isAbsent 2 then
        M.lessThan (c.via services).services a b
      else do return (first (← (c.via services).services.call ((c.via services).arg 2) [a, b])).truthy) := by grind
  refine .bind (Tables.checkTab_tied _ _) fun t => .bind (Base.lengthOf_tied hc _) fun n =>
    .bind .generation fun g => .ite ?_ ?_
  · exact .bind (Call.checkFunction_tied _ _) fun _ => .bind (Tables.sortRange_tied hc _ hl _ _ _) fun _ => .pure _
  · exact .bind (Tables.sortRange_tied hc _ hl _ _ _) fun _ => .pure _

@[grind ←] theorem Tables.packFn_tied (c : Call σ) {services : Services τ} :
    Tied L (Tables.packFn c) (Tables.packFn (c.via services)) := by
  unfold Tables.packFn
  grind

@[grind ←] theorem Tables.moveFrom_tied {c : Call σ} {services : Services τ} (hc : L.Serves c.services services)
    (source target : Value) (step : Int) (n : Nat)
    (i j : Int) :
    Tied L (Tables.moveFrom c source target step n i j) (Tables.moveFrom (c.via services) source target step n i j) := by
  induction n generalizing i j with
  | zero =>
    unfold Tables.moveFrom
    exact .pure _
  | succ n ih =>
    unfold Tables.moveFrom
    grind

@[grind ←] theorem Tables.moveFn_tied {c : Call σ} {services : Services τ} (hc : L.Serves c.services services) :
    Tied L (Tables.moveFn c) (Tables.moveFn (c.via services)) := by
  unfold Tables.moveFn
  grind

@[grind ←] theorem Tables.maxnFn_tied (c : Call σ) {services : Services τ} :
    Tied L (Tables.maxnFn c) (Tables.maxnFn (c.via services)) := by
  unfold Tables.maxnFn
  grind

@[grind ←] theorem Tables.foreachFrom_tied {c : Call σ} {services : Services τ} (hc : L.Serves c.services services) (a fuel : Nat)
    (key : Value) :
    Tied L (Tables.foreachFrom c a fuel key) (Tables.foreachFrom (c.via services) a fuel key) := by
  induction fuel generalizing key with
  | zero =>
    unfold Tables.foreachFrom
    exact .pure _
  | succ fuel ih =>
    unfold Tables.foreachFrom
    grind

@[grind ←] theorem Tables.foreachiFrom_tied {c : Call σ} {services : Services τ} (hc : L.Serves c.services services) (t : Value)
    (n : Nat) (i : Int) :
    Tied L (Tables.foreachiFrom c t n i) (Tables.foreachiFrom (c.via services) t n i) := by
  induction n generalizing i with
  | zero =>
    unfold Tables.foreachiFrom
    exact .pure _
  | succ n ih =>
    unfold Tables.foreachiFrom
    grind

@[grind ←] theorem Tables.apply_tied {c : Call σ} {services : Services τ} (hc : L.Serves c.services services) (name : String) :
    Tied L (Tables.apply name c) (Tables.apply name (c.via services)) := by
  unfold Tables.apply
  grind

end LuaHost.Lua
