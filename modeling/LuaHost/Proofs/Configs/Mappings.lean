import LuaHost.Proofs.Configs.Spellings
import Mathlib.Data.List.Perm.Basic
import Mathlib.Logic.Function.Basic

set_option autoImplicit false

/-!
# Configurations of mappings

An entry of a mapping sets the field that its key names to what the field makes of the value. The first entry
that cannot do this decides how the mapping is refused. Otherwise each field has what it makes of the last
value for it, or its default; neither the spelling of the keys matters nor, once each field is there, their
order, and a configuration written down as a mapping gives itself.
-/

namespace LuaHost.Config

open Host (Value Failure)

/-! ## Fields and their values -/

/-- A field of a configuration as a value. -/
def value (c : Config) : Field → Value
  | .library => match c.library with
    | none => .none
    | some l => .text l
  | .libraryNames => .list (c.libraryNames.map .text)
  | .bundledModules => .list (c.bundledModules.map .text)
  | .useBundled => .bool c.useBundled
  | .openLibs => .bool c.openLibs
  | .reportAllLoadErrors => .bool c.reportAllLoadErrors
  | .debug => .bool c.debug

/-- The type of a field. -/
def Field.Admits : Field → Value → Prop
  | .library, v => v = .none ∨ ∃ t, v = .text t
  | .libraryNames, v | .bundledModules, v => ∃ ts : List Text, v = .list (ts.map .text)
  | .useBundled, v | .openLibs, v | .reportAllLoadErrors, v | .debug, v => ∃ b, v = .bool b

/-- What a field makes of a value. -/
def Field.coerce (f : Field) (v : Value) : Except Failure Value :=
  match f with
  | .library => if v.isNone then .ok .none else v.written.map .text
  | .libraryNames | .bundledModules => (textList v).map fun ts => .list (ts.map .text)
  | .useBundled | .openLibs | .reportAllLoadErrors | .debug => .ok (.bool (isOn v))

theorem value_admitted (c : Config) (f : Field) : f.Admits (c.value f) := by
  cases f with
  | library =>
    unfold value
    cases c.library with
    | none => exact .inl rfl
    | some l => exact .inr ⟨l, rfl⟩
  | libraryNames | bundledModules => exact ⟨_, rfl⟩
  | useBundled | openLibs | reportAllLoadErrors | debug => exact ⟨_, rfl⟩

theorem text_injective : Function.Injective Value.text := fun _ _ => Value.text.inj

/-- Configurations that agree in each field are one. -/
theorem eq_of_value {c d : Config} (h : ∀ f, c.value f = d.value f) : c = d := by
  obtain ⟨l, names, modules, b₁, b₂, b₃, b₄⟩ := c
  obtain ⟨l', names', modules', b₁', b₂', b₃', b₄'⟩ := d
  have library : l = l' := by
    have same := h .library
    cases l with
    | none => cases l' with
      | none => rfl
      | some _ => cases same
    | some _ => cases l' with
      | none => cases same
      | some _ => exact congrArg some (Value.text.inj same)
  have lists {ts ts' : List Text} (same : Value.list (ts.map .text) = .list (ts'.map .text)) : ts = ts' :=
    List.map_injective_iff.mpr text_injective (Value.list.inj same)
  rw [Config.mk.injEq]
  exact ⟨library, lists (h .libraryNames), lists (h .bundledModules), Value.bool.inj (h .useBundled),
    Value.bool.inj (h .openLibs), Value.bool.inj (h .reportAllLoadErrors), Value.bool.inj (h .debug)⟩

/-- Setting a field gives it what it makes of the value, leaves the others alone, and fails when it makes nothing
of it. -/
theorem set_coerced (c : Config) (f : Field) (v : Value) :
    match f.coerce v with
    | .error e => c.set f v = .error e
    | .ok w => ∃ d, c.set f v = .ok d ∧ d.value = Function.update c.value f w := by
  cases f with
  | library =>
    simp only [Field.coerce, set]
    cases v.isNone with
    | true => exact ⟨_, rfl, funext fun g => by cases g <;> rfl⟩
    | false =>
      simp only [Bool.false_eq_true, if_false]
      cases v.written with
      | error e => rfl
      | ok t => exact ⟨_, rfl, funext fun g => by cases g <;> rfl⟩
  | libraryNames | bundledModules =>
    simp only [Field.coerce, set]
    cases textList v with
    | error e => rfl
    | ok ts => exact ⟨_, rfl, funext fun g => by cases g <;> rfl⟩
  | useBundled | openLibs | reportAllLoadErrors | debug => exact ⟨_, rfl, funext fun g => by cases g <;> rfl⟩

/-! ## Refusals -/

/-- Why a value gives no list of texts, if it gives none: it has no items, or an integer in one of them has too
many digits to be written. -/
def listRefusal? : Value → Option Failure
  | .text _ => none
  | v =>
    match items? v with
    | none => some (.type (s!"'{v.fullTypeName}' object is not iterable" : String))
    | some vs => if Value.areWritable vs then none else some Value.tooManyDigits

/-- Why a field refuses a value, if it does. -/
def Field.refusal? : Field → Value → Option Failure
  | .library, v => if v.isWritable then none else some Value.tooManyDigits
  | .libraryNames, v | .bundledModules, v => listRefusal? v
  | .useBundled, _ | .openLibs, _ | .reportAllLoadErrors, _ | .debug, _ => none

/-- Why an entry is refused, if it is: its key names no field, or the field refuses its value. -/
def refusal? (e : Value × Value) : Option Failure :=
  match Field.ofKey? (normalizeKey e.1) with
  | none =>
    some (if e.1.isWritable then .value (("Unknown lunar config key: " : Text) ++ e.1.plainQuoted)
      else Value.tooManyDigits)
  | some f => f.refusal? e.2

theorem writtenAll_eq (vs : List Value) :
    writtenAll vs = if Value.areWritable vs then .ok (vs.map Value.plain) else .error Value.tooManyDigits := by
  induction vs with
  | nil => rfl
  | cons v rest ih =>
    rw [writtenAll, Value.written, ih, Value.areWritable]
    cases v.isWritable with
    | false => rfl
    | true => cases Value.areWritable rest <;> rfl

theorem textList_refusal (v : Value) :
    match listRefusal? v with
    | some e => textList v = .error e
    | none => ∃ ts, textList v = .ok ts := by
  have items (v : Value) (vs : List Value) (h : items? v = some vs) (h' : textList v = writtenAll vs)
      (h'' : listRefusal? v = if Value.areWritable vs then none else some Value.tooManyDigits) :
      match listRefusal? v with
      | some e => textList v = .error e
      | none => ∃ ts, textList v = .ok ts := by
    rw [h', h'', writtenAll_eq]
    cases Value.areWritable vs with
    | true => exact ⟨_, rfl⟩
    | false => rfl
  cases v with
  | text t => exact ⟨[t], rfl⟩
  | bytes | byteArray | tuple | list | set | dict => exact items _ _ rfl rfl rfl
  | none | bool | int | float | other | reference | callable | pointer => rfl

theorem coerce_refusal (f : Field) (v : Value) :
    match f.refusal? v with
    | some e => f.coerce v = .error e
    | none => ∃ w, f.coerce v = .ok w := by
  cases f with
  | library =>
    simp only [Field.refusal?, Field.coerce, Value.written]
    cases writable : v.isWritable with
    | false =>
      cases v with
      | none => cases writable
      | _ => rfl
    | true =>
      cases v.isNone with
      | true => exact ⟨_, rfl⟩
      | false => exact ⟨_, rfl⟩
  | libraryNames | bundledModules =>
    simp only [Field.refusal?, Field.coerce]
    have list := textList_refusal v
    cases refused : listRefusal? v with
    | some e =>
      rw [refused] at list
      rw [list]
      rfl
    | none =>
      rw [refused] at list
      obtain ⟨ts, given⟩ := list
      exact ⟨_, by rw [given]; rfl⟩
  | useBundled | openLibs | reportAllLoadErrors | debug => exact ⟨_, rfl⟩

/-! ## Entries in order -/

/-- The value of the last entry for a field. -/
def Field.last? (f : Field) (es : List (Value × Value)) : Option Value :=
  es.reverse.findSome? fun e => if Field.ofKey? (normalizeKey e.1) = some f then some e.2 else none

/-- A field has what it makes of the last value for it, or what it had when there is none. -/
def Field.Follows (f : Field) (es : List (Value × Value)) (old new : Value) : Prop :=
  match f.last? es with
  | some v => f.coerce v = .ok new
  | none => new = old

theorem Field.last?_cons (f : Field) (e : Value × Value) (es : List (Value × Value)) :
    f.last? (e :: es) = (f.last? es).or (if Field.ofKey? (normalizeKey e.1) = some f then some e.2 else none) := by
  rw [Field.last?, List.reverse_cons, List.findSome?_append, List.findSome?_singleton]
  rfl

/-- The first entry that is refused decides. -/
theorem setAll_refused (c : Config) {es : List (Value × Value)} {failure : Failure}
    (h : es.findSome? refusal? = some failure) : c.setAll es = .error failure := by
  induction es generalizing c with
  | nil => cases h
  | cons e rest ih =>
    obtain ⟨key, v⟩ := e
    rw [List.findSome?_cons] at h
    rw [setAll]
    unfold refusal? at h
    cases named : Field.ofKey? (normalizeKey key) with
    | none =>
      simp only [named] at h
      exact congrArg Except.error (Option.some.inj h)
    | some f =>
      simp only [named] at h
      have set := c.set_coerced f v
      have coerced := coerce_refusal f v
      cases refused : f.refusal? v with
      | some e =>
        rw [refused] at h coerced
        cases h
        dsimp only at coerced
        rw [coerced] at set
        dsimp only at set ⊢
        rw [set]
      | none =>
        rw [refused] at h coerced
        obtain ⟨w, coerced⟩ := coerced
        rw [coerced] at set
        obtain ⟨d, set, -⟩ := set
        dsimp only
        rw [set]
        exact ih d h

/-- When no entry is refused, each field has what it makes of the last value for it, or what it had. -/
theorem setAll_accepted (c : Config) {es : List (Value × Value)} (h : es.findSome? refusal? = none) :
    ∃ d, c.setAll es = .ok d ∧ ∀ f : Field, f.Follows es (c.value f) (d.value f) := by
  induction es generalizing c with
  | nil => exact ⟨c, rfl, fun f => rfl⟩
  | cons e rest ih =>
    obtain ⟨key, v⟩ := e
    rw [List.findSome?_cons] at h
    unfold refusal? at h
    cases named : Field.ofKey? (normalizeKey key) with
    | none => simp [named] at h
    | some f =>
      simp only [named] at h
      have set := c.set_coerced f v
      have coerced := coerce_refusal f v
      cases refused : f.refusal? v with
      | some e =>
        rw [refused] at h
        cases h
      | none =>
        rw [refused] at h coerced
        obtain ⟨w, coerced⟩ := coerced
        rw [coerced] at set
        obtain ⟨d, set, values⟩ := set
        obtain ⟨d', all, last⟩ := ih d h
        refine ⟨d', by rw [setAll, named]; dsimp only; rw [set]; exact all, fun g => ?_⟩
        have onward := last g
        unfold Field.Follows at onward ⊢
        rw [Field.last?_cons, named]
        cases later : g.last? rest with
        | some v' =>
          rw [later] at onward
          exact onward
        | none =>
          rw [later, values] at onward
          by_cases same : f = g
          · subst same
            simp only [if_true, Option.none_or]
            rw [coerced, onward, Function.update_self]
          · simp only [Option.some.injEq, same, if_false, Option.none_or]
            rw [onward, Function.update_of_ne (Ne.symm same)]

theorem ofValue_dict (es : List (Value × Value)) : ofValue (.dict es) = default.setAll es := by
  cases es with
  | nil => rfl
  | cons e rest => rfl

theorem ofValue_accepted {es : List (Value × Value)} {c : Config} (h : ofValue (.dict es) = .ok c) :
    es.findSome? refusal? = none := by
  cases refused : es.findSome? refusal? with
  | none => rfl
  | some failure =>
    rw [ofValue_dict, setAll_refused default refused] at h
    cases h

/-! ## Other spellings -/

/-- The same values under other spellings of their keys. -/
def RespelledAll (es es' : List (Value × Value)) : Prop :=
  List.Forall₂ (fun e e' => Respelled e.1 e'.1 ∧ e'.2 = e.2) es es'

theorem setAll_respelled {es es' : List (Value × Value)} (h : RespelledAll es es') (c : Config) {d : Config}
    (given : c.setAll es = .ok d) : c.setAll es' = .ok d := by
  induction h generalizing c with
  | nil => exact given
  | @cons e e' _ _ first _ ih =>
    obtain ⟨key, v⟩ := e
    obtain ⟨key', v'⟩ := e'
    obtain ⟨spelled, same⟩ := first
    dsimp only at spelled same
    subst same
    rw [setAll] at given ⊢
    rw [spelled.normal]
    cases named : Field.ofKey? (normalizeKey key) with
    | none =>
      rw [named] at given
      cases given
    | some f =>
      rw [named] at given
      dsimp only at given ⊢
      cases set : c.set f v' with
      | error e =>
        rw [set] at given
        cases given
      | ok c' =>
        rw [set] at given
        exact ih c' given

/-! ## A configuration as a mapping -/

theorem writtenAll_texts (ts : List Text) : writtenAll (ts.map .text) = .ok ts := by
  induction ts with
  | nil => rfl
  | cons t rest ih =>
    rw [List.map_cons, writtenAll, ih]
    rfl

/-- What a field has it keeps. -/
theorem coerce_value (c : Config) (f : Field) : f.coerce (c.value f) = .ok (c.value f) := by
  cases f with
  | library =>
    unfold value
    cases c.library with
    | none => rfl
    | some l => rfl
  | libraryNames =>
    change (writtenAll (c.libraryNames.map .text)).map _ = _
    rw [writtenAll_texts]
    rfl
  | bundledModules =>
    change (writtenAll (c.bundledModules.map .text)).map _ = _
    rw [writtenAll_texts]
    rfl
  | useBundled | openLibs | reportAllLoadErrors | debug => rfl

/-- A mapping that gives fields what a configuration has in them. -/
def Lists (c : Config) (fs : List Field) (es : List (Value × Value)) : Prop :=
  List.Forall₂ (fun f e => Spells (.ofString f.name) e.1.plain ∧ e.2 = c.value f) fs es

theorem Lists.named {c : Config} {fs : List Field} {es : List (Value × Value)} (h : c.Lists fs es) :
    ∀ e ∈ es, ∃ f ∈ fs, Field.ofKey? (normalizeKey e.1) = some f ∧ e.2 = c.value f := by
  induction h with
  | nil => nofun
  | cons first _ ih =>
    intro e mem
    obtain rfl | mem := List.mem_cons.mp mem
    · exact ⟨_, List.mem_cons_self, Field.ofKey?_spelled first.1, first.2⟩
    · obtain ⟨f, there, rest⟩ := ih e mem
      exact ⟨f, List.mem_cons_of_mem _ there, rest⟩

theorem Lists.given {c : Config} {fs : List Field} {es : List (Value × Value)} (h : c.Lists fs es) :
    ∀ f ∈ fs, ∃ e ∈ es, Field.ofKey? (normalizeKey e.1) = some f := by
  induction h with
  | nil => nofun
  | cons first _ ih =>
    intro f mem
    obtain rfl | mem := List.mem_cons.mp mem
    · exact ⟨_, List.mem_cons_self, Field.ofKey?_spelled first.1⟩
    · obtain ⟨e, there, named⟩ := ih f mem
      exact ⟨e, List.mem_cons_of_mem _ there, named⟩

theorem Lists.accepted {c : Config} {fs : List Field} {es : List (Value × Value)} (h : c.Lists fs es) :
    es.findSome? refusal? = none := by
  refine List.findSome?_eq_none_iff.mpr fun e mem => ?_
  obtain ⟨f, -, named, held⟩ := h.named e mem
  have coerced := coerce_refusal f (c.value f)
  rw [refusal?, named, held]
  cases refused : f.refusal? (c.value f) with
  | none => exact refused
  | some failure =>
    rw [refused, coerce_value] at coerced
    cases coerced

theorem Lists.last {c : Config} {fs : List Field} {es : List (Value × Value)} (h : c.Lists fs es) {f : Field} (hf : f ∈ fs) :
    f.last? es = some (c.value f) := by
  cases last : f.last? es with
  | none =>
    obtain ⟨e, mem, named⟩ := h.given f hf
    have absent := List.findSome?_eq_none_iff.mp last e (List.mem_reverse.mpr mem)
    rw [if_pos named] at absent
    cases absent
  | some v =>
    obtain ⟨e, mem, found⟩ := List.exists_of_findSome?_eq_some last
    obtain ⟨g, -, named, held⟩ := h.named e (List.mem_reverse.mp mem)
    split at found
    · next same =>
      cases named.symm.trans same
      exact found.symm.trans (congrArg some held)
    · cases found

/-- A mapping that gives every field what a configuration has in it comes to that configuration. -/
theorem Lists.restores {c : Config} {fs : List Field} {es : List (Value × Value)} (h : c.Lists fs es) (all : ∀ f, f ∈ fs) :
    ofValue (.dict es) = .ok c := by
  obtain ⟨d, set, follows⟩ := setAll_accepted default h.accepted
  have same : d = c := eq_of_value fun f => by
    have held := follows f
    rw [Field.Follows, h.last (all f)] at held
    exact (Except.ok.inj ((coerce_value c f).symm.trans held)).symm
  rw [ofValue_dict, set, same]

/-! ## The main statement -/

/-- A mapping is refused exactly when one of its entries is, as the first of these says. Otherwise it comes to a
configuration whose fields have their types and follow, each, the last value for it alone; other spellings of
the keys come to the same configuration, and so does every mapping that gives each field once what the
configuration has in it, in any order and spelling. -/
theorem mapping_normalised (es : List (Value × Value)) :
    (∀ failure, ofValue (.dict es) = .error failure ↔ es.findSome? refusal? = some failure) ∧
    ∀ c, ofValue (.dict es) = .ok c →
      (∀ f : Field, f.Admits (c.value f) ∧ f.Follows es (default.value f) (c.value f)) ∧
      (∀ es', RespelledAll es es' → ofValue (.dict es') = .ok c) ∧
      ∀ fs es', fs.Perm Field.all → c.Lists fs es' → ofValue (.dict es') = .ok c := by
  refine ⟨fun failure => ⟨fun given => ?_, fun refused => ?_⟩, fun c given => ⟨fun f => ⟨c.value_admitted f, ?_⟩,
    fun es' spelled => ?_, fun fs es' order lists => ?_⟩⟩
  · cases refused : es.findSome? refusal? with
    | some other =>
      rw [ofValue_dict, setAll_refused default refused] at given
      exact congrArg some (Except.error.inj given)
    | none =>
      obtain ⟨d, set, -⟩ := setAll_accepted default refused
      rw [ofValue_dict, set] at given
      cases given
  · rw [ofValue_dict, setAll_refused default refused]
  · obtain ⟨d, set, follows⟩ := setAll_accepted default (ofValue_accepted given)
    rw [ofValue_dict, set] at given
    cases given
    exact follows f
  · rw [ofValue_dict] at given ⊢
    exact setAll_respelled spelled default given
  · refine lists.restores fun f => order.mem_iff.mpr ?_
    cases f <;> decide

/-- Two keys for one field, and a switch that a text turns on. -/
def doubled : List (Value × Value) :=
  [(.text "library_names", .list [.text "a", .bool true]), (.text "debug", .text " Yes"), (.text "library-names", .text "b")]

theorem mapping_normalised_doubled :
    let c : Config := { default with libraryNames := ["b"], debug := true }
    let keys : List (Value × Value) := [(.text " library_names", .list [.text "a", .bool true]),
      (.text "debug ", .text " Yes"), (.text "library-names", .text "b")]
    ofValue (.dict doubled) = .ok c ∧ ofValue (.dict keys) = .ok c ∧
      ofValue (.dict (Field.all.reverse.map fun f => (.text f.name, c.value f))) = .ok c ∧
      ofValue (.dict (doubled ++ [(.text "library_name", .none), (.text "bundled_modules", .int 1)])) =
        .error (.value "Unknown lunar config key: 'library_name'") := by
  intro c keys
  have given : ofValue (.dict doubled) = .ok c := rfl
  obtain ⟨-, accepted⟩ := mapping_normalised doubled
  obtain ⟨-, spellings, orders⟩ := accepted c given
  have spelled : RespelledAll doubled keys := by
    have key (t : Text) : Respelled (.text t) (.text t) := ⟨t, .refl t, .refl t⟩
    have blank : ∀ c ∈ [(32 : UInt32)], Text.isBlank c = true := List.forall_mem_singleton.mpr rfl
    exact .cons ⟨⟨"library_names", .refl _, .blanks [32] [] blank nofun _⟩, rfl⟩
      (.cons ⟨⟨"debug", .refl _, .blanks [] [32] nofun blank _⟩, rfl⟩ (.cons ⟨key _, rfl⟩ .nil))
  refine ⟨given, spellings keys spelled, orders Field.all.reverse _ (List.reverse_perm _) ?_, ?_⟩
  · exact List.forall₂_map_right_iff.mpr (List.forall₂_same.mpr fun f _ => ⟨.refl _, rfl⟩)
  · exact ((mapping_normalised _).1 _).mpr rfl

theorem isWritable_long {n : Nat} (h : Nat.pow 10 Host.digitLimit ≤ n) : Value.isWritable (.int n) = false := by
  rw [Value.isWritable, Int.natAbs_natCast]
  exact decide_eq_false (Nat.not_lt.mpr h)

/-- A library that is a number of more digits than are ever written: the mapping is refused, although its only
key names a field that is no list. -/
theorem mapping_unwritable :
    Field.ofKey? (normalizeKey (.text "library")) = some .library ∧
      ofValue (.dict [(.text "library", .int (Nat.pow 10 Host.digitLimit))]) = .error Value.tooManyDigits := by
  have named : Field.ofKey? (normalizeKey (.text "library")) = some .library := by decide
  have long : Value.isWritable (.int (Nat.pow 10 Host.digitLimit)) = false := isWritable_long (Nat.le_refl _)
  have refused : refusal? (.text "library", .int (Nat.pow 10 Host.digitLimit)) = some Value.tooManyDigits := by
    rw [refusal?, named]
    dsimp only [Field.refusal?]
    rw [long]
    rfl
  refine ⟨named, ?_⟩
  rw [ofValue_dict]
  exact setAll_refused default (by rw [List.findSome?_cons, refused])

end LuaHost.Config
