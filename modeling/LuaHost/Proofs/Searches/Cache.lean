import LuaHost.Binding.Search

set_option autoImplicit false

/-!
# A process that remembers its runtimes

A process loads runtimes one after another and remembers each that it opened. The runtimes it opens are
objects here: each carries the number under which it was made, so that two answers can be told to be one
object. Forgetting the numbers gives the search itself.

Main statement: in a process whose libraries are whole, every load answers as it would alone, in a process
that remembers nothing; two answers are one object exactly when they came from one place; and what is
remembered at any point are the places of the runtimes given so far, each once, in the order in which they
were first given. Nothing is said of a library that exports a part of what its generation needs: opening
that one fails a load in place of passing over it.
-/

namespace LuaHost.Binding

open Host (Failure)

namespace Surroundings

/-- Every library that can make a machine exports all that its generation needs. -/
def Whole (s : Surroundings) : Prop :=
  ∀ target exported, lookup target s.exports = some exported → exported.contains "luaL_newstate" = true →
    missing? exported (detect exported.contains) = none

/-- The runtime that stands at a place, if one does. -/
def runtimeAt? (s : Surroundings) (target : Text) : Option Runtime :=
  match lookup target s.exports with
  | none => none
  | some exported =>
    if exported.contains "luaL_newstate" then some (.ofGeneration (detect exported.contains) target) else none

/-- What a search answers that remembers nothing: the runtime at the first of the candidates that has one. -/
def pick (s : Surroundings) (tried : List Text) : List Text → Except Failure Runtime
  | [] => .error (.noRuntime tried)
  | target :: rest =>
    match s.runtimeAt? target with
    | some r => .ok r
    | none => pick s tried rest

theorem lookup_eq_some {α : Type} {target : Text} {entries : List (Text × α)} {a : α}
    (found : lookup target entries = some a) : (target, a) ∈ entries := by
  induction entries with
  | nil => simp [lookup] at found
  | cons entry rest ih =>
    obtain ⟨place, other⟩ := entry
    simp only [lookup] at found
    split at found
    · next same =>
      cases found
      simp [beq_iff_eq.1 same]
    · exact List.mem_cons_of_mem _ (ih found)

theorem lookup_eq_none {α : Type} {target : Text} {entries : List (Text × α)}
    (absent : lookup target entries = none) : target ∉ entries.map (·.1) := by
  induction entries with
  | nil => simp
  | cons entry rest ih =>
    obtain ⟨place, other⟩ := entry
    simp only [lookup] at absent
    split at absent
    · cases absent
    · next other =>
      simp only [List.map_cons, List.mem_cons, not_or]
      exact ⟨fun same => other (by simp [same]), ih absent⟩

theorem Whole.of_forall {s : Surroundings} (h : ∀ e ∈ s.exports, e.2.contains "luaL_newstate" = true →
    missing? e.2 (detect e.2.contains) = none) : s.Whole :=
  fun _ _ known => h _ (lookup_eq_some known)

theorem origin_of_runtimeAt? {s : Surroundings} {target : Text} {r : Runtime}
    (found : s.runtimeAt? target = some r) : r.origin = target := by
  unfold runtimeAt? at found
  split at found
  · cases found
  · split at found
    · cases found; rfl
    · cases found

/-- In whole surroundings opening a candidate never fails: it gives the runtime that stands there. -/
theorem Whole.openCandidate {s : Surroundings} (whole : s.Whole) (target : Text) :
    ∃ words, openCandidate s target = .ok ⟨s.runtimeAt? target, words⟩ := by
  unfold Binding.openCandidate runtimeAt?
  cases known : lookup target s.exports with
  | none => exact ⟨_, rfl⟩
  | some exported =>
    cases able : exported.contains "luaL_newstate" with
    | false => exact ⟨_, by simp only [able]; rfl⟩
    | true =>
      have full := whole target exported known able
      exact ⟨_, by simp only [able, full]; rfl⟩

/-- Every answer of a search is a runtime at its place, or the list of what was tried. -/
theorem pick_cases (s : Surroundings) (tried targets : List Text) :
    (∃ r target, target ∈ targets ∧ s.runtimeAt? target = some r ∧ s.pick tried targets = .ok r) ∨
      ((∀ target ∈ targets, s.runtimeAt? target = none) ∧ s.pick tried targets = .error (.noRuntime tried)) := by
  induction targets with
  | nil => exact .inr ⟨by simp, rfl⟩
  | cons target rest ih =>
    cases here : s.runtimeAt? target with
    | some r => exact .inl ⟨r, target, by simp, here, by simp [pick, here]⟩
    | none =>
      have onward : s.pick tried (target :: rest) = s.pick tried rest := by simp [pick, here]
      rw [onward]
      obtain ⟨r, place, mem, there, answer⟩ | ⟨nowhere, answer⟩ := ih
      · exact .inl ⟨r, place, by simp [mem], there, answer⟩
      · exact .inr ⟨by simpa [here] using nowhere, answer⟩

end Surroundings

/-! ## Objects -/

/-- A runtime as an object: the number under which it was made tells it from every other. -/
structure Library where
  number : Nat
  runtime : Runtime

/-- The objects that a process remembers, by where they came from, and how many it has made. -/
structure Shelf where
  kept : List (Text × Library)
  made : Nat

namespace Shelf

def empty : Shelf := ⟨[], 0⟩

/-- The places of the objects that are kept. -/
def places (h : Shelf) : List Text := h.kept.map (·.1)

/-- Makes an object and keeps it. -/
def make (h : Shelf) (target : Text) (r : Runtime) : Library × Shelf :=
  (⟨h.made, r⟩, ⟨h.kept ++ [(target, ⟨h.made, r⟩)], h.made + 1⟩)

/-- The search's own memory: the runtimes without their numbers. -/
def cache (h : Shelf) : Cache := h.kept.map fun (target, l) => (target, l.runtime)

end Shelf

/-- Tries candidates in order; a runtime that is opened becomes an object. -/
def tryObjects (s : Surroundings) (tried : List Text) :
    List Text → Shelf → Except Failure Library × Shelf
  | [], h => (.error (.noRuntime tried), h)
  | target :: rest, h =>
    match Surroundings.lookup target h.kept with
    | some l => (.ok l, h)
    | none =>
      match openCandidate s target with
      | .error e => (.error e, h)
      | .ok opened =>
        match opened.runtime with
        | some r => (.ok (h.make target r).1, (h.make target r).2)
        | none => tryObjects s tried rest h

/-- Loads the runtimes that configurations ask for, one after another. -/
def loadObjects (s : Surroundings) : List Config → Shelf → List (Except Failure Library) × Shelf
  | [], h => ([], h)
  | c :: rest, h =>
    let (answer, h) := tryObjects s (s.candidates c) (s.candidates c) h
    let (answers, h) := loadObjects s rest h
    (answer :: answers, h)

/-- The same loads by the search itself, its memory and its debug channel handed on. -/
def loadAll (s : Surroundings) : List Config → Debug → Cache → List (Except Failure Runtime) × Cache
  | [], _, cache => ([], cache)
  | c :: rest, d, cache =>
    let (answer, search, d) := load s d c cache
    let (answers, cache) := loadAll s rest d search.cache
    (answer :: answers, cache)

theorem Shelf.lookup_cache (target : Text) (kept : List (Text × Library)) (made : Nat) :
    Surroundings.lookup target (Shelf.cache ⟨kept, made⟩)
      = (Surroundings.lookup target kept).map Library.runtime := by
  induction kept with
  | nil => rfl
  | cons entry rest ih =>
    obtain ⟨place, l⟩ := entry
    simp only [Shelf.cache, List.map_cons, Surroundings.lookup] at ih ⊢
    split
    · rfl
    · exact ih

/-- Without the numbers the search over objects is the search. -/
theorem tryAll_eq_forget (s : Surroundings) (d : Debug) (tried targets : List Text) (h : Shelf) (written : Text) :
    ((tryAll s d tried targets ⟨h.cache, written⟩).1, (tryAll s d tried targets ⟨h.cache, written⟩).2.cache)
      = ((tryObjects s tried targets h).1.map Library.runtime, (tryObjects s tried targets h).2.cache) := by
  induction targets generalizing h written with
  | nil => rfl
  | cons target rest ih =>
    obtain ⟨kept, made⟩ := h
    simp only [tryAll, tryObjects, Shelf.lookup_cache]
    cases Surroundings.lookup target kept with
    | some l => rfl
    | none =>
      cases openCandidate s target with
      | error e => rfl
      | ok opened =>
        obtain ⟨runtime, words⟩ := opened
        cases runtime with
        | some r => simp [Shelf.make, Shelf.cache, Except.map]
        | none => exact ih _ _

/-- Without the numbers the loads of objects are the loads. -/
theorem loadAll_eq_forget (s : Surroundings) (cs : List Config) (d : Debug) (h : Shelf) :
    loadAll s cs d h.cache
      = ((loadObjects s cs h).1.map fun answer => answer.map Library.runtime, (loadObjects s cs h).2.cache) := by
  induction cs generalizing d h with
  | nil => rfl
  | cons c rest ih =>
    have one := tryAll_eq_forget s (d.enable (some c)) (s.candidates c) (s.candidates c) h Text.empty
    simp only [Prod.mk.injEq] at one
    simp only [loadAll, load, loadObjects, one, ih, List.map_cons]

/-! ## What is remembered -/

/-- The places of the runtimes that were given. -/
def accepted (answers : List (Except Failure Library)) : List Text :=
  answers.filterMap fun answer => answer.toOption.map fun l => l.runtime.origin

/-- What the objects on a shelf have to do with the surroundings: each is the runtime at its place and stands
at the position of its number, and no place has two. -/
structure Shelf.Ordered (s : Surroundings) (h : Shelf) : Prop where
  stands : ∀ target (l : Library), (target, l) ∈ h.kept → s.runtimeAt? target = some l.runtime
  counted : h.kept.length = h.made
  numbered : ∀ i target (l : Library), h.kept[i]? = some (target, l) → l.number = i
  once : h.places.Nodup

namespace Shelf

variable {s : Surroundings} {h : Shelf}

theorem ordered_empty (s : Surroundings) : empty.Ordered s := by
  constructor <;> simp [empty, places]

theorem places_make (h : Shelf) (target : Text) (r : Runtime) :
    (h.make target r).2.places = h.places ++ [target] := by
  simp [places, Shelf.make]

/-- A runtime made at a place that has none keeps the shelf in order. -/
theorem Ordered.make (o : h.Ordered s) {target : Text} {r : Runtime} (here : s.runtimeAt? target = some r)
    (new : target ∉ h.places) : (h.make target r).2.Ordered s where
  stands place l mem := by
    simp only [Shelf.make, List.mem_append, List.mem_singleton, Prod.mk.injEq] at mem
    obtain mem | ⟨rfl, rfl⟩ := mem
    · exact o.stands place l mem
    · exact here
  counted := by simp [Shelf.make, o.counted]
  numbered i place l at_i := by
    simp only [Shelf.make, List.getElem?_append, o.counted] at at_i
    split at at_i
    · exact o.numbered i place l at_i
    · obtain ⟨inside, same⟩ := List.getElem?_eq_some_iff.1 at_i
      have last : i = h.made := by
        rw [List.length_singleton] at inside
        omega
      subst last
      simp only [Nat.sub_self, List.getElem_cons_zero, Prod.mk.injEq] at same
      rw [← same.2]
  once := by
    rw [places_make]
    exact List.nodup_append.2 ⟨o.once, by simp, by grind⟩

end Shelf

/-- What one search does to a shelf in order: it answers as it would with an empty one, leaves what was kept,
and keeps what it gave. -/
structure Shelf.Searched (s : Surroundings) (h : Shelf) (tried targets : List Text)
    (out : Except Failure Library × Shelf) : Prop where
  ordered : out.2.Ordered s
  answer : out.1.map Library.runtime = s.pick tried targets
  kept : h.kept <+: out.2.kept
  given : ∀ l, out.1 = .ok l → (l.runtime.origin, l) ∈ out.2.kept
  places : out.2.places = h.places ++ (accepted [out.1]).filter (!h.places.contains ·)

theorem tryObjects_searched {s : Surroundings} (whole : s.Whole) (tried targets : List Text) {h : Shelf}
    (o : h.Ordered s) : Shelf.Searched s h tried targets (tryObjects s tried targets h) := by
  induction targets with
  | nil => exact ⟨o, rfl, List.prefix_rfl, by simp [tryObjects], by simp [tryObjects, accepted, Except.toOption]⟩
  | cons target rest ih =>
    cases known : Surroundings.lookup target h.kept with
    | some l =>
      -- the place was opened before: its object is given again
      have mem := Surroundings.lookup_eq_some known
      have here := o.stands target l mem
      have origin := Surroundings.origin_of_runtimeAt? here
      have out : tryObjects s tried (target :: rest) h = (.ok l, h) := by simp [tryObjects, known]
      have old : target ∈ h.places := List.mem_map.2 ⟨_, mem, rfl⟩
      rw [out]
      exact ⟨o, by simp [Surroundings.pick, here, Except.map], List.prefix_rfl,
        by rintro _ ⟨⟩; rwa [origin], by simp [accepted, Except.toOption, origin, old]⟩
    | none =>
      obtain ⟨words, opened⟩ := whole.openCandidate target
      cases here : s.runtimeAt? target with
      | none =>
        have out : tryObjects s tried (target :: rest) h = tryObjects s tried rest h := by
          simp [tryObjects, known, opened, here]
        have onward : s.pick tried (target :: rest) = s.pick tried rest := by simp [Surroundings.pick, here]
        rw [out]
        exact { ih with answer := by rw [onward, ih.answer] }
      | some r =>
        have origin := Surroundings.origin_of_runtimeAt? here
        have out : tryObjects s tried (target :: rest) h = (.ok (h.make target r).1, (h.make target r).2) := by
          simp [tryObjects, known, opened, here]
        have new : target ∉ h.places := Surroundings.lookup_eq_none known
        have place : accepted [.ok (h.make target r).1] = [target] := by
          simp [accepted, Except.toOption, Shelf.make, origin]
        rw [out]
        exact ⟨o.make here new, by simp [Surroundings.pick, here, Except.map, Shelf.make],
          List.prefix_append _ _, by rintro _ ⟨⟩; simp [Shelf.make, origin],
          by simp [place, new, Shelf.places_make]⟩

/-- What a run of loads does to a shelf in order. -/
structure Shelf.Loaded (s : Surroundings) (h : Shelf) (cs : List Config)
    (out : List (Except Failure Library) × Shelf) : Prop where
  ordered : out.2.Ordered s
  answers : out.1.map (fun answer => answer.map Library.runtime)
    = cs.map fun c => s.pick (s.candidates c) (s.candidates c)
  kept : h.kept <+: out.2.kept
  given : ∀ l, .ok l ∈ out.1 → (l.runtime.origin, l) ∈ out.2.kept
  places : out.2.places = h.places ++ ((accepted out.1).filter (!h.places.contains ·)).eraseDups

theorem accepted_cons (answer : Except Failure Library) (rest : List (Except Failure Library)) :
    accepted (answer :: rest) = accepted [answer] ++ accepted rest := by
  rw [← List.singleton_append, accepted, List.filterMap_append, accepted, accepted]

/-- Noting the new items of a list one by one keeps the first of each. -/
theorem filter_append_eraseDups (seen first rest : List Text) (single : first.length ≤ 1) :
    seen ++ first.filter (!seen.contains ·)
        ++ (rest.filter (!(seen ++ first.filter (!seen.contains ·)).contains ·)).eraseDups
      = seen ++ ((first ++ rest).filter (!seen.contains ·)).eraseDups := by
  match first, single with
  | [], _ => simp
  | [p], _ =>
    by_cases old : p ∈ seen
    · simp [old]
    · simp only [List.filter_cons, List.filter_nil, List.contains_eq_mem, old, decide_false, Bool.not_false, if_true,
        List.append_assoc, List.cons_append, List.nil_append, List.eraseDups_cons, List.filter_filter,
        List.mem_append, List.mem_singleton]
      congr 4
      funext q
      grind

theorem loadObjects_loaded {s : Surroundings} (whole : s.Whole) (cs : List Config) {h : Shelf}
    (o : h.Ordered s) : Shelf.Loaded s h cs (loadObjects s cs h) := by
  induction cs generalizing h with
  | nil => exact ⟨o, rfl, List.prefix_rfl, by simp [loadObjects], by simp [loadObjects, accepted]⟩
  | cons c rest ih =>
    have one := tryObjects_searched whole (s.candidates c) (s.candidates c) o
    have more := ih one.ordered
    simp only [loadObjects]
    refine ⟨more.ordered, ?_, one.kept.trans more.kept, ?_, ?_⟩
    · rw [List.map_cons, List.map_cons, one.answer, more.answers]
    · intro l mem
      obtain same | later := List.mem_cons.1 mem
      · exact more.kept.subset (one.given l same.symm)
      · exact more.given l later
    · have single : (accepted [(tryObjects s (s.candidates c) (s.candidates c) h).1]).length ≤ 1 :=
        List.length_filterMap_le _ _
      rw [more.places, one.places, accepted_cons _ (loadObjects _ _ _).1, filter_append_eraseDups _ _ _ single]

/-- Objects of a shelf in order are one when they come from one place. -/
theorem Shelf.Ordered.number_eq_iff {s : Surroundings} {h : Shelf} (o : h.Ordered s) {l m : Library}
    (hl : (l.runtime.origin, l) ∈ h.kept) (hm : (m.runtime.origin, m) ∈ h.kept) :
    l.number = m.number ↔ l.runtime.origin = m.runtime.origin := by
  obtain ⟨i, at_i⟩ := List.mem_iff_getElem?.1 hl
  obtain ⟨j, at_j⟩ := List.mem_iff_getElem?.1 hm
  have number_l := o.numbered i _ _ at_i
  have number_m := o.numbered j _ _ at_j
  have place_i : h.places[i]? = some l.runtime.origin := by simp [Shelf.places, at_i]
  have place_j : h.places[j]? = some m.runtime.origin := by simp [Shelf.places, at_j]
  constructor
  · intro same
    have index : i = j := by omega
    subst index
    exact Option.some.inj (place_i.symm.trans place_j)
  · intro same
    have index : i = j := (List.getElem?_inj (List.getElem?_eq_some_iff.1 place_i).1 o.once).1 (by rw [place_i, place_j, same])
    omega

theorem load_empty {s : Surroundings} (whole : s.Whole) (d : Debug) (c : Config) :
    (load s d c []).1 = s.pick (s.candidates c) (s.candidates c) := by
  have forget := tryAll_eq_forget s (d.enable (some c)) (s.candidates c) (s.candidates c) .empty Text.empty
  have one := tryObjects_searched whole (s.candidates c) (s.candidates c) (Shelf.ordered_empty s)
  rw [← one.answer]
  exact congrArg Prod.fst forget

/-- Remembering runtimes changes no answer. With nothing remembered at first, and whatever the debug channels,
the loads answer each as it would alone: a runtime, or the list of what was tried. Two answers are one object
exactly when they have one origin, and the places that are remembered are the origins given, each once and in
the order in which they were first given; a runtime stands at each of them. -/
theorem remembered_loads {s : Surroundings} (whole : s.Whole) (cs : List Config) (d alone : Debug) :
    let (answers, shelf) := loadObjects s cs .empty
    loadAll s cs d [] = (answers.map fun answer => answer.map Library.runtime, shelf.cache) ∧
      (answers.map fun answer => answer.map Library.runtime) = (cs.map fun c => (load s alone c []).1) ∧
      (∀ c ∈ cs, (∃ r, (load s alone c []).1 = .ok r) ∨
        (load s alone c []).1 = .error (.noRuntime (s.candidates c))) ∧
      (∀ l m, .ok l ∈ answers → .ok m ∈ answers → (l.number = m.number ↔ l.runtime.origin = m.runtime.origin)) ∧
      shelf.places = (accepted answers).eraseDups ∧
      ∀ target l, (target, l) ∈ shelf.kept → ∃ words, openCandidate s target = .ok ⟨some l.runtime, words⟩ := by
  have run := loadObjects_loaded whole cs (Shelf.ordered_empty s)
  refine ⟨loadAll_eq_forget s cs d .empty, ?_, ?_, ?_, ?_, ?_⟩
  · rw [run.answers]
    exact List.map_congr_left fun c _ => (load_empty whole alone c).symm
  · intro c _
    rw [load_empty whole]
    obtain ⟨r, _, _, _, answer⟩ | ⟨_, answer⟩ := s.pick_cases (s.candidates c) (s.candidates c)
    · exact .inl ⟨r, answer⟩
    · exact .inr answer
  · exact fun l m hl hm => run.ordered.number_eq_iff (run.given l hl) (run.given m hm)
  · have all := List.filter_eq_self.2 fun p (_ : p ∈ accepted (loadObjects s cs .empty).1) =>
      show (!Shelf.empty.places.contains p) = true from rfl
    have places := run.places
    rwa [all] at places
  · intro target l mem
    obtain ⟨words, opened⟩ := whole.openCandidate target
    exact ⟨words, by rw [opened, run.ordered.stands target l mem]⟩

/-- Two runtimes, and a library that is none. -/
def shelves : Surroundings where
  found := [("lua5.4", "/lib/four.so"), ("lua", "/lib/other.so")]
  modules := [("old", some "/opt/one.so"), ("gone", none)]
  exports := [("/lib/four.so", Surroundings.exportsOf .v54), ("/opt/one.so", Surroundings.exportsOf .v51),
    ("/lib/other.so", ["main"])]

/-- Configurations that name a library, names and a module. -/
def wishes : List Config :=
  [{ Config.default with libraryNames := ["lua"], bundledModules := ["gone", "old"] },
    { Config.default with library := some "/lib/none.so", libraryNames := ["lua"], useBundled := false },
    Config.default,
    { Config.default with library := some "/opt/one.so", libraryNames := ["lua5.4"] },
    { Config.default with libraryNames := [], bundledModules := ["old"], debug := true }]

theorem remembered_loads_shelves :
    shelves.Whole ∧
      (loadObjects shelves wishes .empty).1.map (fun answer => answer.toOption.map Library.number)
        = [some 0, none, some 1, some 0, some 0] ∧
      (loadObjects shelves wishes .empty).2.places
        = (accepted (loadObjects shelves wishes .empty).1).eraseDups ∧
      (loadAll shelves wishes .off []).1 = wishes.map fun c => (load shelves .off c []).1 := by
  have whole : shelves.Whole := .of_forall (by decide)
  have run := remembered_loads whole wishes .off .off
  exact ⟨whole, by decide, run.2.2.2.2.1, by rw [run.1]; exact run.2.1⟩

end LuaHost.Binding
