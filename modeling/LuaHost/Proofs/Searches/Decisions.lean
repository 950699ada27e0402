import LuaHost.Proofs.Searches.Cache

set_option autoImplicit false

/-!
# Where a search ends

A candidate that does not open, or that is no runtime, is passed over. The first of the others ends the
search: with its runtime when it exports all that its generation needs, and with a failure that names the
first missing function when it does not. What a process remembers are whole runtimes, so remembering changes
nothing of this.
-/

namespace LuaHost.Binding

open Host (Failure)

/-- What a search finds at a place. -/
inductive Standing where
  /-- nothing that opens, or no runtime -/
  | nothing
  /-- a runtime that lacks a function of its generation -/
  | part (name : String)
  | whole (r : Runtime)

namespace Surroundings

/-- What stands at a place: it opens or not, can make a machine or not, and exports all that its generation
needs or not. -/
def standing (s : Surroundings) (target : Text) : Standing :=
  match lookup target s.exports with
  | none => .nothing
  | some exported =>
    if exported.contains "luaL_newstate" then
      match missing? exported (detect exported.contains) with
      | some name => .part name
      | none => .whole (.ofGeneration (detect exported.contains) target)
    else .nothing

end Surroundings

/-- A memory in which a whole runtime stands at every place. -/
def Cache.Standing (s : Surroundings) (cache : Cache) : Prop :=
  ∀ target r, (target, r) ∈ cache → s.standing target = .whole r

theorem Cache.Standing.add {s : Surroundings} {cache : Cache} {target : Text} {r : Runtime}
    (h : cache.Standing s) (here : s.standing target = .whole r) : Cache.Standing s (cache ++ [(target, r)]) := by
  intro place other mem
  obtain mem | mem := List.mem_append.mp mem
  · exact h place other mem
  · cases List.mem_singleton.mp mem
    exact here

end LuaHost.Binding
