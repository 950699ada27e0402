import LuaHost.Config.Basic
import Mathlib.Data.List.Forall2
import Mathlib.Data.List.TakeWhile

set_option autoImplicit false

/-!
# Spellings of keys

A key may be written with blanks around it and with hyphens for some of its underscores. All these spellings
come to one normal form, which is what names a field.
-/

namespace LuaHost

namespace Text

/-- Blanks at the ends make no difference to what is left without them. -/
theorem strip_blanks {before after : List UInt32} (blank : ∀ c ∈ before, isBlank c = true)
    (blank' : ∀ c ∈ after, isBlank c = true) (ps : List UInt32) : strip ⟨before ++ ps ++ after⟩ = strip ⟨ps⟩ := by
  have reversed : ∀ c ∈ after.reverse, isBlank c = true := fun c mem => blank' c (List.mem_reverse.mp mem)
  unfold strip
  dsimp only
  rw [List.append_assoc, List.dropWhile_append_of_pos blank, List.dropWhile_append]
  split
  · next nothing =>
    rw [List.isEmpty_iff.mp nothing, List.dropWhile_eq_nil_iff.mpr blank']
  · rw [List.reverse_append, List.dropWhile_append_of_pos reversed]

/-- Points may be replaced before or after the blanks go, if what they become is blank when they are. -/
theorem strip_map {f : UInt32 → UInt32} (h : ∀ c, isBlank (f c) = isBlank c) (ps : List UInt32) :
    strip ⟨ps.map f⟩ = ⟨(strip ⟨ps⟩).points.map f⟩ := by
  have same : isBlank ∘ f = isBlank := funext h
  unfold strip
  dsimp only
  rw [List.dropWhile_map, same, ← List.map_reverse, List.dropWhile_map, same, ← List.map_reverse]

end Text

namespace Config

open Host (Value)
open Text (isBlank)

/-- A hyphen as an underscore. -/
def underscored (c : UInt32) : UInt32 := if c == 45 then 95 else c

theorem isBlank_underscored (c : UInt32) : isBlank (underscored c) = isBlank c := by
  unfold underscored
  split
  · next hyphen =>
    rw [beq_iff_eq.mp hyphen]
    rfl
  · rfl

theorem underscored_of_isBlank {c : UInt32} (h : isBlank c = true) : underscored c = c := by
  refine if_neg fun hyphen => ?_
  rw [beq_iff_eq.mp hyphen] at h
  exact absurd h (by decide)

theorem normalizeKey_text (t : Text) : normalizeKey (.text t) = Text.strip ⟨t.points.map underscored⟩ :=
  (Text.strip_map isBlank_underscored t.points).symm

/-- A text is a name with blanks around it and with hyphens in place of some underscores. -/
def Spells (name t : Text) : Prop :=
  ∃ before middle after, t.points = before ++ middle ++ after ∧
    (∀ c ∈ before, isBlank c = true) ∧ (∀ c ∈ after, isBlank c = true) ∧
    List.Forall₂ (fun a b => b = a ∨ a = 95 ∧ b = 45) name.points middle

/-- Two keys are spellings of one name. -/
def Respelled (key key' : Value) : Prop := ∃ name, Spells name key.plain ∧ Spells name key'.plain

theorem Spells.blanks (before after : List UInt32) (blank : ∀ c ∈ before, isBlank c = true)
    (blank' : ∀ c ∈ after, isBlank c = true) (t : Text) : Spells t ⟨before ++ t.points ++ after⟩ :=
  ⟨before, t.points, after, rfl, blank, blank', List.forall₂_same.mpr fun _ _ => .inl rfl⟩

theorem Spells.refl (t : Text) : Spells t t := ⟨[], t.points, [], by simp, nofun, nofun, List.forall₂_same.mpr fun _ _ => .inl rfl⟩

theorem map_underscored {name middle : List UInt32}
    (spelled : List.Forall₂ (fun a b => b = a ∨ a = 95 ∧ b = 45) name middle) :
    middle.map underscored = name.map underscored := by
  induction spelled with
  | nil => rfl
  | cons same _ ih =>
    rw [List.map_cons, List.map_cons, ih]
    obtain rfl | ⟨rfl, rfl⟩ := same
    · rfl
    · rfl

theorem Spells.normal {name t : Text} (h : Spells name t) : normalizeKey (.text t) = normalizeKey (.text name) := by
  obtain ⟨before, middle, after, split, blank, blank', spelled⟩ := h
  have outside {ps : List UInt32} (blank : ∀ c ∈ ps, isBlank c = true) : ps.map underscored = ps :=
    (List.map_congr_left fun c mem => underscored_of_isBlank (blank c mem)).trans (List.map_id ps)
  rw [normalizeKey_text, normalizeKey_text, split, List.map_append, List.map_append, outside blank, outside blank',
    Text.strip_blanks blank blank', map_underscored spelled]

/-- All spellings of a name have one normal form. -/
theorem Respelled.normal {key key' : Value} (h : Respelled key key') : normalizeKey key' = normalizeKey key := by
  obtain ⟨name, spells, spells'⟩ := h
  exact spells'.normal.trans spells.normal.symm

/-- Every spelling of a field's name names the field. -/
theorem Field.ofKey?_spelled {f : Field} {key : Value} (h : Spells (.ofString f.name) key.plain) :
    Field.ofKey? (normalizeKey key) = some f := by
  have normal : normalizeKey key = normalizeKey (.text (.ofString f.name)) := h.normal
  rw [normal]
  cases f <;> decide

end Config
end LuaHost
