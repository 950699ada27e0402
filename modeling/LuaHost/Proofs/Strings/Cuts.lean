import Mathlib.Data.List.TakeWhile
import LuaHost.Proofs.Entries.Utf8

set_option autoImplicit false

/-!
# Strings up to their first NUL

A string that is passed without its length ends at its first NUL. Encoding a text gives a NUL for each NUL of
the text and for nothing else, so cutting the bytes of a text is the same as cutting the text.
-/

namespace LuaHost

/-! ## Bytes -/

namespace Host

theorem upToNul_append (b : ByteArray) :
    (upToNul b).data.toList ++ b.data.toList.dropWhile (· != 0) = b.data.toList :=
  List.takeWhile_append_dropWhile

theorem upToNul_free (b : ByteArray) : (0 : UInt8) ∉ (upToNul b).data.toList := by
  intro h
  have kept := List.mem_takeWhile_imp h
  exact absurd kept (by decide)

/-- Only a string without NUL is left whole. -/
theorem upToNul_eq_self {b : ByteArray} : upToNul b = b ↔ (0 : UInt8) ∉ b.data.toList := by
  constructor
  · intro whole
    rw [← whole]
    exact upToNul_free b
  · intro free
    have kept : b.data.toList.takeWhile (· != 0) = b.data.toList := by
      rw [List.takeWhile_eq_self_iff]
      intro x hx
      rw [bne_iff_ne]
      rintro rfl
      exact free hx
    unfold upToNul
    rw [kept, Array.toArray_toList]

/-- What is cut off begins with a NUL. -/
theorem upToNul_cut {b : ByteArray} (h : (0 : UInt8) ∈ b.data.toList) :
    ∃ rest, b.data.toList = (upToNul b).data.toList ++ 0 :: rest := by
  have whole := upToNul_append b
  cases dropped : b.data.toList.dropWhile (· != 0) with
  | nil =>
    rw [dropped, List.append_nil] at whole
    rw [← whole] at h
    exact absurd h (upToNul_free b)
  | cons x rest =>
    have first := List.head_dropWhile_not (· != (0 : UInt8)) (l := b.data.toList) (by rw [dropped]; exact List.cons_ne_nil _ _)
    simp only [dropped, List.head_cons, bne_eq_false_iff_eq] at first
    rw [dropped, first] at whole
    exact ⟨rest, whole.symm⟩

@[simp] theorem upToNul_upToNul (b : ByteArray) : upToNul (upToNul b) = upToNul b :=
  upToNul_eq_self.mpr (upToNul_free b)

end Host

/-! ## Texts -/

/-- A text up to its first NUL. -/
def Text.untilNul (t : Text) : Text := ⟨t.points.takeWhile (· != 0)⟩

namespace Utf8

/-- An encoding of code points in which a NUL stands for a NUL only. -/
structure MarksNul (f : UInt32 → Option (List UInt8)) : Prop where
  nul : f 0 = some [0]
  other : ∀ c bs, c ≠ 0 → f c = some bs → (0 : UInt8) ∉ bs

theorem takeWhile_append_free {xs ys : List UInt8} (h : (0 : UInt8) ∉ xs) :
    (xs ++ ys).takeWhile (· != 0) = xs ++ ys.takeWhile (· != 0) := by
  rw [List.takeWhile_append_of_pos]
  intro x hx
  rw [bne_iff_ne]
  rintro rfl
  exact h hx

theorem MarksNul.cut {f : UInt32 → Option (List UInt8)} (h : MarksNul f) {cs : List UInt32} {pieces : List (List UInt8)}
    (coded : cs.mapM f = some pieces) : ∃ short, (cs.takeWhile (· != 0)).mapM f = some short ∧
      short.flatten = pieces.flatten.takeWhile (· != 0) := by
  induction cs generalizing pieces with
  | nil =>
    cases coded
    exact ⟨[], rfl, rfl⟩
  | cons c cs ih =>
    rw [List.mapM_cons] at coded
    obtain ⟨bs, hc, coded⟩ := Option.bind_eq_some_iff.mp coded
    obtain ⟨rest, hcs, coded⟩ := Option.bind_eq_some_iff.mp coded
    cases coded
    by_cases nul : c = 0
    · subst nul
      rw [h.nul] at hc
      cases hc
      exact ⟨[], rfl, rfl⟩
    · obtain ⟨short, some_short, cut⟩ := ih hcs
      have kept : (c != 0) = true := bne_iff_ne.mpr nul
      refine ⟨bs :: short, ?_, ?_⟩
      · rw [List.takeWhile_cons, if_pos kept, List.mapM_cons, hc]
        change (List.mapM f (cs.takeWhile (· != 0))).bind _ = _
        rw [some_short]
        rfl
      · rw [List.flatten_cons, List.flatten_cons, takeWhile_append_free (h.other c bs nul hc), cut]

theorem encodePoints_eq (cs : List UInt32) : encodePoints cs = (cs.mapM encodePoint).map List.flatten := by
  induction cs with
  | nil => rfl
  | cons c cs ih =>
    unfold encodePoints
    rw [ih, List.mapM_cons]
    cases encodePoint c with
    | none => rfl
    | some bs => cases cs.mapM encodePoint <;> rfl

theorem marked_ne_zero (x mark : UInt8) (h : mark.toNat ≠ 0) : x ||| mark ≠ 0 := by
  intro none
  have sum : x.toNat ||| mark.toNat = 0 := by
    rw [← UInt8.toNat_or, none]
    rfl
  exact h (Nat.or_eq_zero_iff.mp sum).2

theorem marksNul_encodePoint : MarksNul encodePoint where
  nul := rfl
  other c bs hc coded := by
    have tail (x : UInt32) : tailByte x ≠ 0 := marked_ne_zero _ _ (by decide)
    have lead (x : UInt8) (mark : UInt8) (h : mark.toNat ≠ 0) : (0 : UInt8) ≠ x ||| mark := (marked_ne_zero x mark h).symm
    unfold encodePoint at coded
    split at coded
    · next short =>
      cases coded
      rw [List.mem_singleton]
      intro nul
      have value : c.toNat % 256 = 0 := by
        rw [← UInt32.toNat_toUInt8, ← nul]
        rfl
      have small : c.toNat < 0x80 := UInt32.lt_iff_toNat_lt.mp short
      exact hc (UInt32.toNat_inj.mp (show c.toNat = 0 by omega))
    -- every byte of a longer sequence has a mark in it
    all_goals
      repeat' split at coded
      all_goals
        cases coded
        try simp only [List.mem_cons, List.not_mem_nil, or_false, not_or]
    · exact ⟨lead _ _ (by decide), (tail _).symm⟩
    · exact ⟨lead _ _ (by decide), (tail _).symm, (tail _).symm⟩
    · exact ⟨lead _ _ (by decide), (tail _).symm, (tail _).symm, (tail _).symm⟩

end Utf8

namespace Host

/-- The bytes of a text up to its first NUL. -/
theorem encode_untilNul {t : Text} {b : ByteArray} (h : encode t = .ok b) : encode t.untilNul = .ok (upToNul b) := by
  unfold encode Text.utf8? at *
  rw [Utf8.encodePoints_eq] at *
  cases coded : t.points.mapM Utf8.encodePoint with
  | none =>
    rw [coded] at h
    cases h
  | some pieces =>
    rw [coded] at h
    cases h
    obtain ⟨short, some_short, cut⟩ := Utf8.marksNul_encodePoint.cut coded
    rw [Text.untilNul, some_short]
    dsimp only [Option.map_some]
    rw [cut]
    rfl

/-- The bytes of one code point of a path. -/
def pathPiece (c : UInt32) : Option (List UInt8) :=
  if 0xDC80 ≤ c ∧ c ≤ 0xDCFF then some [(c - 0xDC00).toUInt8] else Utf8.encodePoint c

theorem marksNul_pathPiece : Utf8.MarksNul pathPiece where
  nul := rfl
  other c bs hc coded := by
    unfold pathPiece at coded
    split at coded
    · next range =>
      cases coded
      rw [List.mem_singleton]
      have low : 0xDC80 ≤ c.toNat := UInt32.le_iff_toNat_le.mp range.1
      have high : c.toNat ≤ 0xDCFF := UInt32.le_iff_toNat_le.mp range.2
      have value : (c - 0xDC00).toUInt8.toNat = c.toNat - 0xDC00 := by
        rw [UInt32.toNat_toUInt8, UInt32.toNat_sub_of_le _ _ (UInt32.le_iff_toNat_le.mpr (Nat.le_trans (by decide) low))]
        change (c.toNat - 0xDC00) % 256 = _
        omega
      intro nul
      rw [← nul] at value
      change 0 = _ at value
      omega
    · exact Utf8.marksNul_encodePoint.other c bs hc coded

theorem encodePath_untilNul {t : Text} {p : ByteArray} (h : encodePath t = .ok p) :
    encodePath t.untilNul = .ok (upToNul p) := by
  unfold encodePath at *
  dsimp only at *
  cases coded : t.points.mapM pathPiece with
  | none =>
    delta pathPiece at coded
    rw [coded] at h
    cases h
  | some pieces =>
    obtain ⟨short, some_short, cut⟩ := marksNul_pathPiece.cut coded
    delta pathPiece at coded some_short
    rw [coded] at h
    cases h
    rw [Text.untilNul, some_short]
    dsimp only
    rw [cut]
    rfl

/-! ## Values -/

/-- A value that holds a string. -/
def Value.IsString : Value → Prop
  | .text _ | .bytes _ | .byteArray _ => True
  | _ => False

/-- A string up to its first NUL. -/
def Value.untilNul : Value → Value
  | .text t => .text t.untilNul
  | .bytes b => .bytes (upToNul b)
  | .byteArray b => .byteArray (upToNul b)
  | v => v

theorem sourceBytes_untilNul {v : Value} {b : ByteArray} (str : v.IsString) (bytes : sourceBytes v = .ok b) :
    sourceBytes v.untilNul = .ok (upToNul b) := by
  cases v with
  | text t => exact encode_untilNul bytes
  | bytes c | byteArray c =>
    cases bytes
    rfl
  | _ => exact str.elim

theorem pathBytes_untilNul {v : Value} {p : ByteArray} (bytes : pathBytes v = .ok p) :
    pathBytes v.untilNul = .ok (upToNul p) := by
  cases v with
  | text t => exact encodePath_untilNul bytes
  | bytes c =>
    cases bytes
    rfl
  | _ => cases bytes

/-- Texts of Unicode, and all strings of bytes, have bytes. -/
theorem Value.IsString.encodes {v : Value} (str : v.IsString) (scalar : ∀ t, v = .text t → t.Scalar) :
    ∃ b, sourceBytes v = .ok b := by
  cases v with
  | text t =>
    obtain ⟨b, coded, -⟩ := (scalar t rfl).roundTrip
    exact ⟨b, coded⟩
  | bytes b | byteArray b => exact ⟨b, rfl⟩
  | _ => exact str.elim

end Host
end LuaHost
