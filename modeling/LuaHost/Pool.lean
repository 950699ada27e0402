set_option autoImplicit false

/-!
# Pools

A pool keeps things under numbers that are given out in order. Every number reads as something: one
that was never given out reads as the default. A thing put under a number is always found there, and
what was under the other numbers stays, so reading needs no bounds.
-/

namespace LuaHost

structure Pool (α : Type) where
  items : Array α

namespace Pool

variable {α : Type}

def empty : Pool α := ⟨#[]⟩

def ofList (xs : List α) : Pool α := ⟨xs.toArray⟩

/-- How many numbers have been given out; also the next number. -/
def size (p : Pool α) : Nat := p.items.size

/-- Keeps a thing under the next number. -/
def add (p : Pool α) (a : α) : Pool α := ⟨p.items.push a⟩

def map (p : Pool α) (f : α → α) : Pool α := ⟨p.items.map f⟩

theorem size_add (p : Pool α) (a : α) : (p.add a).size = p.size + 1 := by
  simp [size, add]

theorem size_map (p : Pool α) (f : α → α) : (p.map f).size = p.size := by
  simp [size, map]

variable [Inhabited α]

def get (p : Pool α) (n : Nat) : α := p.items.getD n default

/-- Keeps a thing under a number; numbers skipped on the way there read as the default. -/
def put (p : Pool α) (n : Nat) (a : α) : Pool α :=
  if n < p.items.size then ⟨p.items.setIfInBounds n a⟩
  else ⟨(p.items ++ Array.replicate (n - p.items.size) default).push a⟩

def modify (p : Pool α) (n : Nat) (f : α → α) : Pool α :=
  if n < p.items.size then ⟨p.items.modify n f⟩ else p.put n (f default)

theorem get_eq (p : Pool α) (n : Nat) : p.get n = p.items[n]?.getD default := by
  simp [get, Array.getD_eq_getD_getElem?]

@[simp] theorem get_put_self (p : Pool α) (n : Nat) (a : α) : (p.put n a).get n = a := by
  unfold put
  split
  · next h => simp [get_eq, h]
  · next h =>
    have hs : p.items.size + (n - p.items.size) = n := by omega
    rw [get_eq, Array.getElem?_push]
    simp [hs]

theorem get_put_ne (p : Pool α) {m n : Nat} (h : m ≠ n) (a : α) : (p.put n a).get m = p.get m := by
  unfold put
  split
  · simp [get_eq, Ne.symm h]
  · next hn =>
    have hs : p.items.size + (n - p.items.size) = n := by omega
    rw [get_eq, get_eq, Array.getElem?_push]
    simp only [Array.size_append, Array.size_replicate, hs, h, if_false]
    by_cases hm : m < p.items.size
    · simp [Array.getElem?_append, hm]
    · simp only [Array.getElem?_append, hm, if_false, Array.getElem?_replicate]
      split <;> simp [Array.getElem?_eq_none (Nat.le_of_not_lt hm)]

theorem put_put (p : Pool α) (n : Nat) (a b : α) : (p.put n a).put n b = p.put n b := by
  unfold put
  by_cases h : n < p.items.size
  · simp only [h, if_true, Array.size_setIfInBounds, Array.setIfInBounds_setIfInBounds]
  · have hs : p.items.size + (n - p.items.size) = n := by omega
    simp only [h, if_false, Array.size_push, Array.size_append, Array.size_replicate, hs, Nat.lt_succ_self, if_true]
    have hl : n < ((p.items ++ Array.replicate (n - p.items.size) default).push a).size := by
      simp only [Array.size_push, Array.size_append, Array.size_replicate, hs, Nat.lt_succ_self]
    have hg : ¬ n < (p.items ++ Array.replicate (n - p.items.size) default).size := by
      simp only [Array.size_append, Array.size_replicate, hs, Nat.lt_irrefl, not_false_eq_true]
    rw [Array.setIfInBounds_def, dif_pos hl, Array.set_push, dif_neg hg]

theorem put_get (p : Pool α) {n : Nat} (h : n < p.size) : p.put n (p.get n) = p := by
  have hn : n < p.items.size := h
  unfold put
  rw [if_pos hn, get_eq, Array.getElem?_eq_getElem hn, Option.getD_some, Array.setIfInBounds_def, dif_pos hn,
    Array.set_getElem_self]

theorem get_of_size_le (p : Pool α) {n : Nat} (h : p.size ≤ n) : p.get n = default := by
  rw [get_eq, Array.getElem?_eq_none h, Option.getD_none]

theorem modify_eq_put (p : Pool α) (n : Nat) (f : α → α) : p.modify n f = p.put n (f (p.get n)) := by
  unfold modify
  split
  · next h =>
    unfold put
    rw [if_pos h]
    congr 1
    refine Array.ext_getElem? fun i => ?_
    rw [Array.getElem?_modify, Array.getElem?_setIfInBounds]
    by_cases hi : n = i
    · subst hi
      simp [get_eq, h]
    · simp [hi]
  · next h =>
    rw [get_of_size_le p (Nat.le_of_not_lt h)]

@[simp] theorem get_modify_self (p : Pool α) (n : Nat) (f : α → α) :
    (p.modify n f).get n = f (p.get n) := by
  rw [modify_eq_put, get_put_self]

theorem get_modify_ne (p : Pool α) {m n : Nat} (h : m ≠ n) (f : α → α) :
    (p.modify n f).get m = p.get m := by
  rw [modify_eq_put, get_put_ne p h]

theorem modify_modify (p : Pool α) (n : Nat) (f g : α → α) :
    (p.modify n f).modify n g = p.modify n fun a => g (f a) := by
  simp only [modify_eq_put, get_put_self, put_put]

@[simp] theorem get_add_self (p : Pool α) (a : α) : (p.add a).get p.size = a := by
  simp [get_eq, add, size]

theorem get_add_ne (p : Pool α) {n : Nat} (h : n ≠ p.size) (a : α) : (p.add a).get n = p.get n := by
  have hn : n ≠ p.items.size := h
  rw [get_eq, get_eq, add, Array.getElem?_push]
  simp [hn]

theorem put_add_self (p : Pool α) (a b : α) : (p.add a).put p.size b = p.add b := by
  have hn : p.items.size < (p.items.push a).size := by simp
  unfold put add size
  simp only [hn, if_true, Array.setIfInBounds_def, dif_pos, Array.set_push, Nat.lt_irrefl, dite_false]

theorem modify_add_self (p : Pool α) (a : α) (f : α → α) : (p.add a).modify p.size f = p.add (f a) := by
  have hn : p.items.size < (p.items.push a).size := by simp
  unfold modify add size
  rw [if_pos hn]
  congr 1
  ext i hi hi'
  · simp
  · simp only [Array.getElem_modify, Array.getElem_push]
    by_cases h : i < p.items.size
    · simp [h, Nat.ne_of_gt h]
    · have hl : i = p.items.size := by
        simp only [Array.size_push] at hi'
        omega
      simp [hl]

theorem get_map (p : Pool α) (f : α → α) {n : Nat} (h : n < p.size) : (p.map f).get n = f (p.get n) := by
  have hn : n < p.items.size := h
  simp [get_eq, map, hn]

theorem size_put (p : Pool α) {n : Nat} (h : n < p.size) (a : α) : (p.put n a).size = p.size := by
  have hn : n < p.items.size := h
  simp [put, size, hn]

theorem size_modify (p : Pool α) {n : Nat} (h : n < p.size) (f : α → α) : (p.modify n f).size = p.size := by
  have hn : n < p.items.size := h
  simp [modify, size, hn]

theorem size_le_size_put (p : Pool α) (n : Nat) (a : α) : p.size ≤ (p.put n a).size := by
  unfold put size
  split
  · simp
  · simp only [Array.size_push, Array.size_append, Array.size_replicate]
    omega

theorem size_le_size_modify (p : Pool α) (n : Nat) (f : α → α) : p.size ≤ (p.modify n f).size := by
  unfold modify
  split
  · simp [size]
  · exact size_le_size_put p n _

end Pool
end LuaHost
