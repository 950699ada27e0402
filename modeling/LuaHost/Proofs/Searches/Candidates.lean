import LuaHost.Binding.Search
import LuaHost.Config.Load
import Mathlib.Data.List.Nodup

set_option autoImplicit false

/-!
# What a search tries

The candidates of a search are the libraries that its configuration names, one way or another, in the order
in which they are named, each at its first place only. A name or a module that leads to what is listed before
it adds nothing.
-/

namespace LuaHost.Binding.Surroundings

open Config (filled)

/-! ## Lists without repetitions -/

section Repetitions

variable {α : Type} [DecidableEq α]

theorem nodup_eraseDups (l : List α) : l.eraseDups.Nodup := by
  induction h : l.length using Nat.strongRecOn generalizing l with
  | _ n ih =>
    cases l with
    | nil => exact List.nodup_nil
    | cons a rest =>
      have shorter : (rest.filter fun b => !b == a).length < n := by
        have := List.length_filter_le (fun b => !b == a) rest
        simp only [List.length_cons] at h
        omega
      rw [List.eraseDups_cons]
      refine List.nodup_cons.mpr ⟨fun again => ?_, ih _ shorter _ rfl⟩
      simp [List.mem_eraseDups] at again

theorem eraseDups_of_nodup {l : List α} (h : l.Nodup) : l.eraseDups = l := by
  induction l with
  | nil => rfl
  | cons a rest ih =>
    obtain ⟨new, rest_⟩ := List.nodup_cons.mp h
    have all : rest.filter (fun b => !b == a) = rest :=
      List.filter_eq_self.mpr fun b mem => by simpa using ne_of_mem_of_not_mem mem new
    rw [List.eraseDups_cons, all, ih rest_]

/-- What is listed twice may be dropped at any time. -/
theorem eraseDups_append_of_subset {l m : List α} (h : ∀ a ∈ m, a ∈ l) (rest : List α) :
    (l ++ m ++ rest).eraseDups = (l ++ rest).eraseDups := by
  have same (a : α) : a ∈ l ++ m ↔ a ∈ l := by
    rw [List.mem_append]
    exact ⟨fun mem => mem.elim id (h a), Or.inl⟩
  have gone : m.removeAll l = [] := List.filter_eq_nil_iff.mpr fun a mem => by simpa using h a mem
  have kept : rest.removeAll (l ++ m) = rest.removeAll l := by
    refine List.filter_congr fun a _ => ?_
    simp only [List.elem_eq_contains, List.contains_eq_mem, same]
  have apart : (l ++ m).eraseDups = l.eraseDups := by
    rw [List.eraseDups_append, gone, List.eraseDups_nil, List.append_nil]
  rw [List.eraseDups_append, apart, kept, ← List.eraseDups_append]

theorem eraseDups_eraseDups_append (l rest : List α) : (l.eraseDups ++ rest).eraseDups = (l ++ rest).eraseDups := by
  have kept : rest.removeAll l.eraseDups = rest.removeAll l := by
    refine List.filter_congr fun a _ => ?_
    simp only [List.elem_eq_contains, List.contains_eq_mem, List.mem_eraseDups]
  rw [List.eraseDups_append, List.eraseDups_append, kept, eraseDups_of_nodup (nodup_eraseDups l)]

end Repetitions

/-! ## Sources -/

/-- The library that the system knows under a name. -/
def named? (s : Surroundings) (name : Text) : Option Text := filled (lookup name s.found)

/-- The file of a module that can be imported. -/
def bundled? (s : Surroundings) (module : Text) : Option Text := filled ((lookup module s.modules).getD none)

/-- What a configuration names, in order and with repetitions. -/
def sources (s : Surroundings) (c : Config) : List Text :=
  (filled c.library).toList ++ c.libraryNames.filterMap s.named? ++
    if c.useBundled then c.bundledModules.filterMap s.bundled? else []

theorem add_eq (out : List Text) (h : out.Nodup) (path : Option Text) :
    add out path = (out ++ (filled path).toList).eraseDups := by
  cases path with
  | none => simp [add, filled, eraseDups_of_nodup h]
  | some p =>
    cases none_ : p.isEmpty with
    | true => simp [add, filled, Option.filter, none_, eraseDups_of_nodup h]
    | false =>
      by_cases listed : p ∈ out
      · have again := eraseDups_append_of_subset (l := out) (m := [p]) (by simpa using listed) []
        simp only [List.append_nil] at again
        simp [add, filled, Option.filter, none_, listed, again, eraseDups_of_nodup h]
      · have new : (out ++ [p]).Nodup := List.nodup_append.mpr ⟨h, List.nodup_singleton p, by grind⟩
        simp [add, filled, Option.filter, none_, listed, eraseDups_of_nodup new]

/-- Adding paths one after another lists each that is filled once, after what is there. -/
theorem foldl_add (find : Text → Option Text) (names : List Text) {out : List Text} (h : out.Nodup) :
    names.foldl (fun out n => add out (find n)) out = (out ++ names.filterMap fun n => filled (find n)).eraseDups := by
  induction names generalizing out with
  | nil =>
    rw [List.filterMap_nil, List.append_nil, eraseDups_of_nodup h]
    rfl
  | cons n rest ih =>
    have once : (add out (find n)).Nodup := add_eq out h (find n) ▸ nodup_eraseDups _
    have onward : (n :: rest).filterMap (fun n => filled (find n)) =
        (filled (find n)).toList ++ rest.filterMap fun n => filled (find n) := by
      cases found : filled (find n) with
      | none => simp [found]
      | some p => simp [found]
    rw [List.foldl_cons, ih once, add_eq out h, eraseDups_eraseDups_append, List.append_assoc, onward]

/-- The configured library is added to nothing. -/
theorem candidates_start (s : Surroundings) (c : Config) :
    s.candidates c =
      let named := c.libraryNames.foldl (fun out n => add out (lookup n s.found)) (add [] c.library)
      if c.useBundled then c.bundledModules.foldl (fun out m => add out ((lookup m s.modules).getD none)) named
      else named := by
  unfold candidates
  cases c.library with
  | none => rfl
  | some l => cases none_ : l.isEmpty <;> simp [add, none_]

/-- The candidates are what the configuration names, each at its first place. -/
theorem candidates_eq (s : Surroundings) (c : Config) : s.candidates c = (s.sources c).eraseDups := by
  have named := foldl_add (fun n => lookup n s.found) c.libraryNames (add_eq [] List.nodup_nil c.library ▸ nodup_eraseDups _)
  rw [add_eq [] List.nodup_nil, eraseDups_eraseDups_append, List.nil_append] at named
  rw [candidates_start, add_eq [] List.nodup_nil, List.nil_append]
  unfold sources
  dsimp only
  split
  · rw [named, foldl_add _ _ (nodup_eraseDups _), eraseDups_eraseDups_append]
    rfl
  · rw [named, List.append_nil]
    rfl

/-! ## The main statement -/

/-- Another library at a place before which it is listed. -/
theorem eraseDups_insert {l : List Text} {path : Option Text} (h : ∀ p ∈ path, p ∈ l) (rest : List Text) :
    (l ++ (path.toList ++ rest)).eraseDups = (l ++ rest).eraseDups := by
  rw [← List.append_assoc]
  exact eraseDups_append_of_subset (by simpa using h) rest

theorem filterMap_insert (find : Text → Option Text) (before after : List Text) (name : Text) :
    (before ++ name :: after).filterMap find = before.filterMap find ++ ((find name).toList ++ after.filterMap find) := by
  rw [List.filterMap_append]
  cases found : find name with
  | none => simp [found]
  | some p => simp [found]

/-- The candidates are exactly what the configuration names: the library, then what the system knows under the
names, then the files of the modules if these are used, in order and each at its first place. Hence none occurs
twice and none is lost, and a name or a module before which its own library is listed changes nothing where it
stands. -/
theorem candidates_listed (s : Surroundings) (c : Config) :
    s.candidates c = (s.sources c).eraseDups ∧ (s.candidates c).Nodup ∧
      (∀ p, p ∈ s.candidates c ↔ p ∈ s.sources c) ∧
      (∀ before after name, c.libraryNames = before ++ after →
        (∀ p ∈ s.named? name, p ∈ s.candidates { c with libraryNames := before, useBundled := false }) →
        s.candidates { c with libraryNames := before ++ name :: after } = s.candidates c) ∧
      (∀ before after module, c.bundledModules = before ++ after →
        (∀ p ∈ s.bundled? module, p ∈ s.candidates { c with bundledModules := before }) →
        s.candidates { c with bundledModules := before ++ module :: after } = s.candidates c) := by
  refine ⟨s.candidates_eq c, s.candidates_eq c ▸ nodup_eraseDups _, fun p => ?_, fun before after name split listed => ?_,
    fun before after module split listed => ?_⟩
  · rw [candidates_eq, List.mem_eraseDups]
  · simp only [candidates_eq, List.mem_eraseDups, sources] at listed ⊢
    simp only [Bool.false_eq_true, if_false, List.append_nil] at listed
    rw [split, filterMap_insert, List.filterMap_append]
    simp only [List.append_assoc] at listed ⊢
    have := eraseDups_insert listed (after.filterMap s.named? ++ if c.useBundled then c.bundledModules.filterMap s.bundled? else [])
    simpa only [List.append_assoc] using this
  · simp only [candidates_eq, List.mem_eraseDups, sources] at listed ⊢
    cases used : c.useBundled with
    | false => rfl
    | true =>
      simp only [used, if_true] at listed ⊢
      rw [split, filterMap_insert, List.filterMap_append, ← List.append_assoc, ← List.append_assoc _ (before.filterMap _)]
      exact eraseDups_insert listed _

/-- One library that goes by two names and is the file of a module. -/
def coinciding : Surroundings where
  found := [("lua5.4", "/lib/four.so"), ("lua54", "/lib/four.so"), ("lua", "/lib/any.so"), ("lua-5.4", "")]
  modules := [("old", some "/opt/one.so"), ("new", some "/lib/four.so"), ("bare", none)]
  exports := []

theorem candidates_listed_coinciding :
    let c : Config :=
      { Config.default with library := some "/lib/any.so", libraryNames := ["lua5.4", "lua"], bundledModules := ["bare", "old"] }
    coinciding.candidates c = (["/lib/any.so", "/lib/four.so", "/opt/one.so"] : List Text) ∧
      coinciding.candidates { c with libraryNames := ["lua5.4", "lua54", "lua"] } = coinciding.candidates c ∧
      coinciding.candidates { c with bundledModules := ["bare", "old", "new"] } = coinciding.candidates c := by
  intro c
  obtain ⟨all, -, -, names, modules⟩ := coinciding.candidates_listed c
  refine ⟨by rw [all]; decide, names ["lua5.4"] ["lua"] "lua54" rfl ?_, modules ["bare", "old"] [] "new" rfl ?_⟩
  · decide
  · decide

end LuaHost.Binding.Surroundings
