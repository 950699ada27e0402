import LuaHost.Config.Load

set_option autoImplicit false

/-!
# Configurations of files

The file that a path names, or else a variable of the environment, holds a mapping or nothing. Another value
is refused when it counts as true; one that counts as false is read as an empty mapping. Whatever the mapping
comes to, variables of the environment have the last word on the library and on debugging, and on nothing else.
-/

namespace LuaHost.Config

open Host (Value Failure)

/-- The file that is read, if there is one. -/
def chosen? (vars : Variables) (path : Option Text) : Option Text := (filled path).or (filled vars.file)

/-- What a file says. -/
def document (files : Files) (path : Text) : Except Failure Value := do Yaml.read (← readText files path)

def isMapping : Value → Bool
  | .dict _ => true
  | _ => false

/-- A configuration after the variables of the environment had their say. -/
structure Overridden (vars : Variables) (c d : Config) : Prop where
  library : d.library = (filled vars.library).or c.library
  debug : d.debug = true ↔ c.debug = true ∨ (filled vars.debug).isSome = true
  libraryNames : d.libraryNames = c.libraryNames
  bundledModules : d.bundledModules = c.bundledModules
  useBundled : d.useBundled = c.useBundled
  openLibs : d.openLibs = c.openLibs
  reportAllLoadErrors : d.reportAllLoadErrors = c.reportAllLoadErrors

/-- An answer is the configuration of a mapping with the variables in place, or its failure. -/
def Answers (vars : Variables) (data : Value) (answer : Except Failure Config) : Prop :=
  match ofValue data with
  | .error e => answer = .error e
  | .ok c => ∃ d, answer = .ok d ∧ Overridden vars c d

theorem Answers.given {vars : Variables} {data : Value} {answer : Except Failure Config} {c : Config}
    (h : Answers vars data answer) (given : ofValue data = .ok c) : ∃ d, answer = .ok d ∧ Overridden vars c d := by
  rw [Answers, given] at h
  exact h

theorem overridden (c : Config) (vars : Variables) : Overridden vars c (c.withVariables vars) :=
  ⟨rfl, by simp [withVariables], rfl, rfl, rfl, rfl, rfl⟩

theorem answers (vars : Variables) (data : Value) : Answers vars data (do return (← ofValue data).withVariables vars) := by
  unfold Answers
  cases ofValue data with
  | error e => rfl
  | ok c => exact ⟨_, rfl, overridden c vars⟩

/-! ## The value of a document -/

section Document

variable {files : Files} {path : Text}

theorem readMapping_unread {e : Failure} (h : document files path = .error e) : readMapping files path = .error e := by
  unfold document at h
  unfold readMapping
  cases text : readText files path with
  | error e' =>
    rw [text] at h
    cases h
    rfl
  | ok t =>
    rw [text] at h
    replace h : Yaml.read t = .error e := h
    simp only [Bind.bind, Except.bind, h]

theorem readMapping_of_document {v : Value} (h : document files path = .ok v) :
    readMapping files path =
      if v.truthy then
        if isMapping v then .ok v
        else .error (.value (("lunar config " : Text) ++ path ++ (s!" must be a mapping, got {v.typeName}" : Text)))
      else .ok (.dict []) := by
  unfold document at h
  unfold readMapping
  cases text : readText files path with
  | error e =>
    rw [text] at h
    cases h
  | ok t =>
    rw [text] at h
    replace h : Yaml.read t = .ok v := h
    simp only [Bind.bind, Except.bind, h]
    cases v.truthy with
    | false => rfl
    | true => cases v <;> rfl

/-- A mapping is read as it is. -/
theorem readMapping_dict {es : List (Value × Value)} (h : document files path = .ok (.dict es)) :
    readMapping files path = .ok (.dict es) := by
  rw [readMapping_of_document h]
  cases es <;> rfl

end Document

/-! ## The main statement -/

theorem load_chosen (files : Files) (vars : Variables) {path : Option Text} {p : Text} (h : chosen? vars path = some p) :
    load files vars path = readMapping files p >>= fun data => do return (← ofValue data).withVariables vars := by
  unfold chosen? at h
  simp only [load, h]

theorem load_read (files : Files) {vars : Variables} {path : Option Text} {p : Text} (h : chosen? vars path = some p)
    {data : Value} (read : readMapping files p = .ok data) : Answers vars data (load files vars path) := by
  rw [load_chosen files vars h, read]
  exact answers vars data

/-- Without a file the answer is that of the empty mapping. With one that cannot be read it is why. With a
document it is that of the mapping that the document is; a value that is none is refused if it counts as true,
and else, as when there is no value, the answer is that of the empty mapping. -/
theorem load_mappings (files : Files) (vars : Variables) (path : Option Text) :
    (chosen? vars path = none → Answers vars (.dict []) (load files vars path)) ∧
    ∀ p, chosen? vars path = some p →
      (∀ e, document files p = .error e → load files vars path = .error e) ∧
      (∀ es, document files p = .ok (.dict es) → Answers vars (.dict es) (load files vars path)) ∧
      ∀ v, document files p = .ok v → isMapping v = false →
        (v.truthy = true → load files vars path =
          .error (.value (("lunar config " : Text) ++ p ++ (s!" must be a mapping, got {v.typeName}" : Text)))) ∧
        (v.truthy = false → Answers vars (.dict []) (load files vars path)) := by
  refine ⟨fun unnamed => ?_, fun p named => ⟨fun e unread => ?_, fun es read => ?_, fun v read other => ⟨fun true_ => ?_, fun false_ => ?_⟩⟩⟩
  · unfold chosen? at unnamed
    simp only [load, unnamed]
    exact answers vars (.dict [])
  · rw [load_chosen files vars named, readMapping_unread unread]
    rfl
  · exact load_read files named (readMapping_dict read)
  · rw [load_chosen files vars named, readMapping_of_document read, true_, other]
    rfl
  · refine load_read files named ?_
    rw [readMapping_of_document read, false_]
    rfl

/-- Three files: a mapping, a sequence, and a sequence of nothing. -/
def shelf : Files :=
  ((Files.empty.write "some.yaml".toUTF8 "library: a.so\n".toUTF8).write "list.yaml".toUTF8 "- a\n".toUTF8).write
    "none.yaml".toUTF8 "[]\n".toUTF8

/-- The texts of a document that is a mapping of one text to another. -/
def pairOf? : Except Failure Value → Option (Text × Text)
  | .ok (.dict [(.text k, .text v)]) => some (k, v)
  | _ => none

theorem document_of_pairOf {r : Except Failure Value} {k v : Text} (h : pairOf? r = some (k, v)) :
    r = .ok (.dict [(.text k, .text v)]) := by
  unfold pairOf? at h
  split at h
  · cases h
    rfl
  · cases h

/-- The text of a document that is a sequence of at most one text. -/
def itemOf? : Except Failure Value → Option (Option Text)
  | .ok (.list []) => some none
  | .ok (.list [.text t]) => some (some t)
  | _ => none

theorem document_of_itemOf {r : Except Failure Value} {t : Option Text} (h : itemOf? r = some t) :
    r = .ok (.list (t.map Value.text).toList) := by
  unfold itemOf? at h
  split at h
  · cases h
    rfl
  · cases h
    rfl
  · cases h

theorem shelf_mapping : document shelf "some.yaml" = .ok (.dict [(.text "library", .text "a.so")]) :=
  document_of_pairOf (by decide +kernel)

theorem shelf_list : document shelf "list.yaml" = .ok (.list [.text "a"]) :=
  document_of_itemOf (t := some "a") (by decide +kernel)

theorem shelf_nothing : document shelf "none.yaml" = .ok (.list []) :=
  document_of_itemOf (t := none) (by decide +kernel)

/-- The mapping has the variables in place, the sequence is refused, and the sequence of nothing is not. -/
theorem load_mappings_shelf :
    let vars : Variables := ⟨some "list.yaml", some "b.so", some "1"⟩
    (∃ d, load shelf vars (some "some.yaml") = .ok d ∧ d.library = some ("b.so" : Text) ∧ d.debug = true) ∧
      load shelf vars none = .error (.value "lunar config list.yaml must be a mapping, got list") ∧
      ∃ d, load shelf vars (some "none.yaml") = .ok d ∧ d.library = some ("b.so" : Text) := by
  intro vars
  have mapping := ((load_mappings shelf vars (some "some.yaml")).2 "some.yaml" rfl).2.1 _ shelf_mapping
  have list := (((load_mappings shelf vars none).2 "list.yaml" rfl).2.2 _ shelf_list rfl).1 rfl
  have nothing := (((load_mappings shelf vars (some "none.yaml")).2 "none.yaml" rfl).2.2 _ shelf_nothing rfl).2 rfl
  have given : ofValue (.dict [(.text "library", .text "a.so")]) = .ok { default with library := some "a.so" } := rfl
  obtain ⟨d, answer, covers⟩ := mapping.given given
  obtain ⟨d', answer', covers'⟩ := nothing.given rfl
  exact ⟨⟨d, answer, covers.library, covers.debug.mpr (.inr rfl)⟩, list, d', answer', covers'.library⟩

end LuaHost.Config
