import Mathlib.Algebra.Order.Field.Power
import Mathlib.Algebra.Order.Round
import Mathlib.Tactic.Linarith
import Mathlib.Tactic.Positivity
import Mathlib.Tactic.Ring
import LuaHost.Number.Double
import LuaHost.Proofs.Entries.Utf8

set_option autoImplicit false

/-!
# Integers as doubles

An integer becomes the double that is nearest to it. Of two that are equally near it becomes the one with the even mantissa.
-/

namespace LuaHost.Double

/-! ## Rounding to multiples -/

/-- The multiple of `d` that a natural is rounded to is off by half of `d` at most, and is an even one if it is off by just that. -/
theorem roundEven_off (n : Nat) {d : Nat} (positive : 0 < d) :
    2 * |(n : Int) - roundEven n d * d| ≤ d ∧ (2 * |(n : Int) - roundEven n d * d| = d → roundEven n d % 2 = 0) := by
  have parts := Nat.div_add_mod n d
  have small := Nat.mod_lt n positive
  have up : (n / d + 1) * d = d * (n / d) + d := by ring
  have off (k : Nat) : |(n : Int) - k * d| = max ((n : Int) - (k * d : Nat)) ((k * d : Nat) - n) := by
    rw [abs_eq_max_neg, Int.neg_sub, Int.natCast_mul]
  have down : (n / d) * d = d * (n / d) := Nat.mul_comm _ _
  rw [off]
  unfold roundEven
  dsimp only
  split
  · rw [down]
    omega
  · split
    · rw [up]
      omega
    · split
      · next even =>
        have := beq_iff_eq.mp even
        rw [down]
        omega
      · next odd =>
        have := mt beq_iff_eq.mpr odd
        rw [up]
        omega

/-- No multiple is nearer, and one that is as near is half of `d` off on the other side. -/
theorem off_le {n m d : Int} (off : 2 * |n - m * d| ≤ d) (j : Int) :
    |n - m * d| ≤ |n - j * d| ∧ (|n - m * d| = |n - j * d| → j ≠ m → 2 * |n - m * d| = d) := by
  have positive : 0 ≤ d := le_trans (by positivity) off
  by_cases same : j = m
  · subst same
    exact ⟨le_refl _, fun _ other => absurd rfl other⟩
  have apart : d ≤ |(m - j) * d| := by
    rw [abs_mul, abs_of_nonneg positive]
    exact le_mul_of_one_le_left positive (Int.one_le_abs (sub_ne_zero.mpr (Ne.symm same)))
  have between : |(m - j) * d| ≤ |n - j * d| + |n - m * d| := by
    have split : (m - j) * d = (n - j * d) - (n - m * d) := by ring
    rw [split]
    exact abs_sub _ _
  exact ⟨by omega, fun _ _ => by omega⟩


/-! ## The fields of a double -/

/-- The double of given fields is a mantissa times a power of two. -/
theorem viewBits_fields {bits : UInt64} {neg : Bool} {e f : Nat} (low : 0 < e) (high : e < 0x7FF) (hf : f < 2 ^ 52)
    (fields : bits.toNat = neg.toNat * 2 ^ 63 + e * 2 ^ 52 + f) :
    viewBits bits = .finite neg (f + 0x10000000000000) (e - 1075) := by
  have one := neg.toNat_le
  have exponent : ((bits >>> 52) &&& 0x7FF).toNat = e := by
    rw [UInt64.toNat_and, UInt64.toNat_shiftRight]
    change (bits.toNat >>> 52) &&& (2 ^ 11 - 1) = e
    rw [Nat.and_two_pow_sub_one_eq_mod, Nat.shiftRight_eq_div_pow]
    omega
  have fraction : (bits &&& 0xFFFFFFFFFFFFF).toNat = f := by
    rw [UInt64.toNat_and]
    change bits.toNat &&& (2 ^ 52 - 1) = f
    rw [Nat.and_two_pow_sub_one_eq_mod]
    omega
  have sign : (bits >>> 63 == 1) = neg := by
    have top : (bits >>> 63).toNat = neg.toNat := by
      rw [UInt64.toNat_shiftRight]
      change bits.toNat >>> 63 = neg.toNat
      rw [Nat.shiftRight_eq_div_pow]
      omega
    cases neg with
    | false => exact beq_eq_false_iff_ne.mpr fun same => absurd (same ▸ top) (by decide)
    | true => exact beq_iff_eq.mpr (UInt64.toNat_inj.mp top)
  unfold viewBits
  simp only [exponent, fraction, sign]
  rw [if_neg (by simp; omega), if_neg (by simp; omega)]

theorem toNat_fields (neg : Bool) {e f : Nat} (he : e < 0x800) (hf : f < 2 ^ 52) :
    (signBits neg ||| (e.toUInt64 <<< 52) ||| f.toUInt64).toNat = neg.toNat * 2 ^ 63 + e * 2 ^ 52 + f := by
  have sign : (signBits neg).toNat = neg.toNat * 2 ^ 11 * 2 ^ 52 := by cases neg <;> rfl
  have exponent : (e.toUInt64 <<< 52).toNat = e * 2 ^ 52 := by
    rw [UInt64.toNat_shiftLeft]
    change (e % 2 ^ 64) <<< 52 % 2 ^ 64 = e * 2 ^ 52
    rw [Nat.shiftLeft_eq, Nat.mod_eq_of_lt (by omega), Nat.mod_eq_of_lt (by omega)]
  have fraction : f.toUInt64.toNat = f := Nat.mod_eq_of_lt (by omega)
  have joined : neg.toNat * 2 ^ 11 * 2 ^ 52 ||| e * 2 ^ 52 = (neg.toNat * 2 ^ 11 + e) * 2 ^ 52 := by
    rw [Nat.mul_assoc, ← Nat.pow_add, Utf8.or_eq_add (k := 63) (by omega)]
    ring
  rw [UInt64.toNat_or, UInt64.toNat_or, sign, exponent, fraction, joined, Utf8.or_eq_add hf]
  ring

/-! ## The nearest double -/

/-- What a mantissa times a power of two comes to. -/
def worth (neg : Bool) (mantissa : Nat) (exponent : Int) : ℚ := (if neg then -1 else 1) * (mantissa * 2 ^ exponent)

/-- A double is nearest to an integer, ties to even. -/
def Nearest (n : Int) (x : Float) : Prop :=
  ∃ bits neg m e, x = Float.ofBits bits ∧ viewBits bits = .finite neg m e ∧
    ∀ bits' neg' m' e', viewBits bits' = .finite neg' m' e' →
      |(n : ℚ) - worth neg m e| ≤ |n - worth neg' m' e'| ∧
        (|(n : ℚ) - worth neg m e| = |n - worth neg' m' e'| → worth neg' m' e' ≠ worth neg m e → m % 2 = 0)

theorem viewBits_bounds {bits : UInt64} {neg : Bool} {m : Nat} {e : Int} (h : viewBits bits = .finite neg m e) : m < 2 ^ 53 := by
  have small : (bits &&& 0xFFFFFFFFFFFFF).toNat < 2 ^ 52 := by
    rw [UInt64.toNat_and]
    exact Nat.and_lt_two_pow _ (by decide : (0xFFFFFFFFFFFFF : UInt64).toNat < 2 ^ 52)
  unfold viewBits at h
  dsimp only at h
  split at h
  · split at h <;> cases h
  · split at h <;> cases h <;> omega

/-- A positive natural rounded to a mantissa of 53 bits. -/
structure Rounded (n : Nat) (m : Nat) (q : Nat) : Prop where
  least : 2 ^ 52 ≤ m
  most : m ≤ 2 ^ 53
  reaches : 2 ^ 52 * 2 ^ q ≤ n
  off : 2 * |(n : Int) - m * 2 ^ q| ≤ 2 ^ q
  even : 2 * |(n : Int) - m * 2 ^ q| = 2 ^ q → m % 2 = 0

theorem roundEven_rounded {n : Nat} (large : 52 ≤ n.log2) : Rounded n (roundEven n (2 ^ (n.log2 - 52))) (n.log2 - 52) := by
  set q := n.log2 - 52 with hq
  have positive : n ≠ 0 := by
    rintro rfl
    simp at large
  have split : n.log2 = 52 + q := by omega
  have low : 2 ^ 52 * 2 ^ q ≤ n := by
    rw [← Nat.pow_add, ← split]
    exact Nat.log2_self_le positive
  have high : n < 2 ^ 53 * 2 ^ q := by
    rw [← Nat.pow_add, show 53 + q = n.log2 + 1 by omega]
    exact Nat.lt_log2_self
  have unit : 0 < 2 ^ q := Nat.two_pow_pos q
  obtain ⟨off, even⟩ := roundEven_off n unit
  rw [Nat.cast_pow, Nat.cast_ofNat] at off even
  have down : 2 ^ 52 ≤ n / 2 ^ q := (Nat.le_div_iff_mul_le unit).mpr low
  have up : n / 2 ^ q < 2 ^ 53 := Nat.div_lt_of_lt_mul (Nat.mul_comm _ _ ▸ high)
  refine ⟨?_, ?_, low, off, even⟩
  · unfold roundEven
    dsimp only
    split
    · exact down
    · split
      · omega
      · split <;> omega
  · unfold roundEven
    dsimp only
    split
    · omega
    · split
      · omega
      · split <;> omega

/-- No number with a mantissa of 53 bits is nearer to a natural, and if one is as near then the mantissa is even. -/
def Closest (n m : Nat) (e : Int) : Prop :=
  ∀ (m' : Nat) (e' : Int), m' < 2 ^ 53 → |(n : ℚ) - m * 2 ^ e| ≤ |(n : ℚ) - m' * 2 ^ e'| ∧
    (|(n : ℚ) - m * 2 ^ e| = |(n : ℚ) - m' * 2 ^ e'| → (m' : ℚ) * 2 ^ e' ≠ m * 2 ^ e → m % 2 = 0)

theorem Rounded.closest {n m q : Nat} (h : Rounded n m q) : Closest n m q := by
  intro m' e short
  rw [zpow_natCast]
  have multiples (j : Int) : |(n : ℚ) - m * 2 ^ q| ≤ |(n : ℚ) - j * 2 ^ q| ∧
      (|(n : ℚ) - m * 2 ^ q| = |(n : ℚ) - j * 2 ^ q| → j ≠ m → m % 2 = 0) := by
    obtain ⟨le, tie⟩ := off_le h.off j
    exact ⟨by exact_mod_cast le, fun same other => h.even (tie (by exact_mod_cast same) other)⟩
  by_cases coarse : (q : Int) ≤ e
  · obtain ⟨i, rfl⟩ := Int.le.dest coarse
    have value : (m' : ℚ) * 2 ^ ((q : Int) + i) = ((m' * 2 ^ i : Int) : ℚ) * 2 ^ q := by
      rw [zpow_add₀ two_ne_zero, zpow_natCast, zpow_natCast]
      push_cast
      ring
    rw [value]
    obtain ⟨le, tie⟩ := multiples (m' * 2 ^ i)
    refine ⟨le, fun same other => tie same fun equal => other ?_⟩
    rw [equal, Int.cast_natCast]
  · -- what has a finer unit lies below the least mantissa of this one
    have below : (m' : ℚ) * 2 ^ e < 2 ^ 52 * 2 ^ q := by
      have finer : (2 : ℚ) ^ e ≤ 2 ^ ((q : Int) - 1) := zpow_le_zpow_right₀ one_le_two (by omega)
      have unit : (2 : ℚ) ^ (53 : Nat) * 2 ^ ((q : Int) - 1) = 2 ^ 52 * 2 ^ q := by
        rw [zpow_sub₀ two_ne_zero, zpow_natCast, zpow_one]
        ring
      have mantissa : (m' : ℚ) < 2 ^ 53 := by exact_mod_cast short
      have positive : (0 : ℚ) < 2 ^ ((q : Int) - 1) := by positivity
      calc (m' : ℚ) * 2 ^ e ≤ m' * 2 ^ ((q : Int) - 1) := by gcongr
        _ < 2 ^ 53 * 2 ^ ((q : Int) - 1) := by gcongr
        _ = 2 ^ 52 * 2 ^ q := unit
    have reaches : (2 : ℚ) ^ 52 * 2 ^ q ≤ n := by exact_mod_cast h.reaches
    have first := (multiples (2 ^ 52)).1
    rw [Int.cast_pow, Int.cast_ofNat, abs_of_nonneg (a := (n : ℚ) - 2 ^ 52 * 2 ^ q) (by linarith)] at first
    rw [abs_of_pos (a := (n : ℚ) - m' * 2 ^ e) (by linarith)]
    exact ⟨by linarith, fun same _ => by linarith⟩

/-- What is nearest to the amount is nearest with its sign. -/
theorem nearest_of_closest {n : Int} {bits : UInt64} {m : Nat} {e : Int} (view : viewBits bits = .finite (n < 0) m e)
    (h : Closest n.natAbs m e) : Nearest n (Float.ofBits bits) := by
  have signed (m' : Nat) (e' : Int) : |(n : ℚ) - worth (n < 0) m' e'| = |(n.natAbs : ℚ) - m' * 2 ^ e'| ∧
      |(n : ℚ) - worth (!decide (n < 0)) m' e'| = (n.natAbs : ℚ) + m' * 2 ^ e' := by
    have amount : (0 : ℚ) ≤ m' * 2 ^ e' := by positivity
    have size : (0 : ℚ) ≤ n.natAbs := Nat.cast_nonneg _
    by_cases negative : n < 0
    · have value : (n : ℚ) = -n.natAbs := by
        rw [← Int.cast_natCast, Int.ofNat_natAbs_of_nonpos negative.le, Int.cast_neg, neg_neg]
      simp only [worth, negative, decide_true, Bool.not_true, if_true, value, Bool.false_eq_true, if_false]
      refine ⟨?_, ?_⟩
      · rw [← abs_neg]
        ring_nf
      · rw [← abs_neg, abs_of_nonneg (by linarith)]
        ring
    · have value : (n : ℚ) = n.natAbs := by
        rw [← Int.cast_natCast, Int.natAbs_of_nonneg (not_lt.mp negative)]
      simp only [worth, negative, decide_false, Bool.not_false, if_true, value, Bool.false_eq_true, if_false]
      refine ⟨?_, ?_⟩
      · ring_nf
      · rw [abs_of_nonneg (by linarith)]
        ring
  refine ⟨bits, n < 0, m, e, rfl, view, fun bits' neg' m' e' view' => ?_⟩
  obtain ⟨le, tie⟩ := h m' e' (viewBits_bounds view')
  rw [(signed m e).1]
  by_cases same : neg' = decide (n < 0)
  · subst same
    rw [(signed m' e').1]
    refine ⟨le, fun equal other => tie equal fun amounts => other ?_⟩
    rw [worth, worth, amounts]
  · obtain rfl : neg' = !decide (n < 0) := Bool.eq_not_of_ne same
    rw [(signed m' e').2]
    have amount : (0 : ℚ) ≤ m' * 2 ^ e' := by positivity
    have across : |(n.natAbs : ℚ) - m' * 2 ^ e'| ≤ n.natAbs + m' * 2 ^ e' := abs_sub_le_iff.mpr ⟨by linarith, by linarith [(Nat.cast_nonneg n.natAbs : (0 : ℚ) ≤ _)]⟩
    refine ⟨le.trans across, fun equal other => ?_⟩
    by_cases amounts : (m' : ℚ) * 2 ^ e' = m * 2 ^ e
    · -- the other sign is as near only at zero, where signs make no difference
      have nothing : (m : ℚ) * 2 ^ e = 0 := by
        rw [amounts] at equal amount
        have least := (h 0 0 (by decide)).1
        rw [Nat.cast_zero, zero_mul, sub_zero, abs_of_nonneg (a := (n.natAbs : ℚ)) (Nat.cast_nonneg _)] at least
        linarith
      refine absurd ?_ other
      rw [worth, worth, amounts, nothing, mul_zero, mul_zero]
    · exact tie (le_antisymm le (equal ▸ across)) amounts

/-- What comes to the very number is closest to it. -/
theorem closest_of_eq {n m : Nat} {e : Int} (exactly : (m : ℚ) * 2 ^ e = n) : Closest n m e := by
  intro m' e' _
  rw [exactly, sub_self, abs_zero]
  exact ⟨abs_nonneg _, fun same other => absurd (sub_eq_zero.mp (abs_eq_zero.mp same.symm)).symm other⟩

/-- A mantissa of 54 bits is carried over to the next power. -/
theorem Closest.carried {n : Nat} {e : Int} (h : Closest n (2 ^ 53) e) : Closest n (2 ^ 52) (e + 1) := by
  have same : ((2 ^ 52 : Nat) : ℚ) * 2 ^ (e + 1) = (2 ^ 53 : Nat) * 2 ^ e := by
    rw [zpow_add₀ two_ne_zero]
    push_cast
    ring
  intro m' e' short
  rw [same]
  exact ⟨(h m' e' short).1, fun _ _ => rfl⟩

theorem log2Ratio_one {n : Nat} (nonzero : n ≠ 0) : log2Ratio n 1 = n.log2 := by
  have enough : ¬ n < 1 * 2 ^ n.log2 := by
    rw [one_mul, not_lt]
    exact Nat.log2_self_le nonzero
  unfold log2Ratio
  have guess : ((n.log2 : Int) - (Nat.log2 1 : Nat)) = n.log2 := Int.sub_zero _
  simp only [guess, Int.natCast_nonneg, if_true, Int.toNat_natCast, Nat.pow_eq, if_neg enough]

/-- The mantissa to which a natural is rounded with so many bits to spare. -/
def mantissa (n : Nat) (q : Int) : Nat :=
  if 0 ≤ q then roundEven n (1 * Nat.pow 2 q.toNat) else roundEven (n * Nat.pow 2 (-q).toNat) 1

theorem mantissa_closest {n : Nat} (nonzero : n ≠ 0) :
    2 ^ 52 ≤ mantissa n (n.log2 - 52) ∧ mantissa n (n.log2 - 52) ≤ 2 ^ 53 ∧ Closest n (mantissa n (n.log2 - 52)) (n.log2 - 52) := by
  by_cases large : 52 ≤ n.log2
  · have rounded := roundEven_rounded large
    have spare : (n.log2 : Int) - 52 = (n.log2 - 52 : Nat) := by omega
    have same : mantissa n (n.log2 - 52) = roundEven n (2 ^ (n.log2 - 52)) := by
      rw [mantissa, spare, if_pos (Int.natCast_nonneg _), Nat.one_mul, Int.toNat_natCast, Nat.pow_eq]
    rw [same, spare]
    exact ⟨rounded.least, rounded.most, rounded.closest⟩
  · have missing : (-((n.log2 : Int) - 52)).toNat = 52 - n.log2 := by omega
    have same : mantissa n (n.log2 - 52) = n * 2 ^ (52 - n.log2) := by
      rw [mantissa, if_neg (by omega), missing, roundEven]
      simp only [Nat.div_one, Nat.mod_one, Nat.mul_zero, Nat.one_pos, if_true, Nat.pow_eq]
    have low := Nat.log2_self_le nonzero
    have high : n < 2 ^ (n.log2 + 1) := Nat.lt_log2_self
    rw [same]
    refine ⟨?_, ?_, closest_of_eq ?_⟩
    · calc 2 ^ 52 = 2 ^ n.log2 * 2 ^ (52 - n.log2) := by rw [← Nat.pow_add, show n.log2 + (52 - n.log2) = 52 by omega]
        _ ≤ n * 2 ^ (52 - n.log2) := Nat.mul_le_mul_right _ low
    · calc n * 2 ^ (52 - n.log2) ≤ 2 ^ (n.log2 + 1) * 2 ^ (52 - n.log2) := Nat.mul_le_mul_right _ high.le
        _ = 2 ^ 53 := by rw [← Nat.pow_add, show n.log2 + 1 + (52 - n.log2) = 53 by omega]
    · rw [Nat.cast_mul, Nat.cast_pow, Nat.cast_ofNat, mul_assoc, ← zpow_natCast, ← zpow_add₀ two_ne_zero,
        show ((52 - n.log2 : Nat) : Int) + ((n.log2 : Int) - 52) = 0 by omega, zpow_zero, mul_one]

/-- What is made of an integer that is not zero. -/
theorem ofInt?_eq {n : Int} (nonzero : n ≠ 0) : ∃ (m : Nat) (q : Int), 2 ^ 52 ≤ m ∧ m < 2 ^ 53 ∧ -52 ≤ q ∧ q ≤ n.natAbs.log2 - 51 ∧
    Closest n.natAbs m q ∧ ofInt? n = if 972 ≤ q then none else
      some (Float.ofBits (signBits (n < 0) ||| ((q + 1075).toNat.toUInt64 <<< 52) ||| (m - 0x10000000000000).toUInt64)) := by
  have amount : n.natAbs ≠ 0 := Int.natAbs_ne_zero.mpr nonzero
  obtain ⟨least, most, closest⟩ := mantissa_closest amount
  have spare : max ((n.natAbs.log2 : Int) - 52) (-1074) = n.natAbs.log2 - 52 := max_eq_left (by omega)
  let packed (p : Nat × Int) : Option Float :=
    if p.1 < 0x10000000000000 then some (Float.ofBits (signBits (n < 0) ||| p.1.toUInt64))
    else if 972 ≤ p.2 then none
    else some (Float.ofBits (signBits (n < 0) ||| ((p.2 + 1075).toNat.toUInt64 <<< 52) ||| (p.1 - 0x10000000000000).toUInt64))
  have made : ofInt? n = packed (if mantissa n.natAbs (n.natAbs.log2 - 52) == 0x20000000000000 then
      (0x10000000000000, (n.natAbs.log2 : Int) - 52 + 1) else (mantissa n.natAbs (n.natAbs.log2 - 52), (n.natAbs.log2 : Int) - 52)) := by
    unfold ofInt? ofRatio? mantissa
    rw [if_neg (by rwa [beq_iff_eq]), log2Ratio_one amount, spare]
  rw [made]
  by_cases full : mantissa n.natAbs (n.natAbs.log2 - 52) = 0x20000000000000
  · rw [if_pos (beq_iff_eq.mpr full)]
    rw [full] at closest
    refine ⟨0x10000000000000, n.natAbs.log2 - 52 + 1, by decide, by decide, by omega, by omega, closest.carried, ?_⟩
    exact if_neg (lt_irrefl _)
  · rw [if_neg (by rwa [beq_iff_eq])]
    refine ⟨mantissa n.natAbs (n.natAbs.log2 - 52), n.natAbs.log2 - 52, least, lt_of_le_of_ne most full, by omega, by omega, closest, ?_⟩
    exact if_neg (by omega)

/-- An integer that is not too large becomes the nearest double. -/
theorem ofInt?_nearest {n : Int} {x : Float} (h : ofInt? n = some x) : Nearest n x := by
  by_cases nonzero : n = 0
  · subst nonzero
    cases h
    exact nearest_of_closest (m := 0) rfl (closest_of_eq (by rw [Nat.cast_zero, zero_mul, Int.natAbs_zero, Nat.cast_zero]))
  obtain ⟨m, q, least, most, low, -, closest, made⟩ := ofInt?_eq nonzero
  rw [made] at h
  split at h
  · cases h
  · next fits =>
    cases h
    have fields := toNat_fields (n < 0) (e := (q + 1075).toNat) (f := m - 0x10000000000000) (by omega) (by omega)
    refine nearest_of_closest ((viewBits_fields (by omega) (by omega) (by omega) fields).trans ?_) closest
    have whole : m - 0x10000000000000 + 0x10000000000000 = m := Nat.sub_add_cancel least
    rw [whole, Int.toNat_of_nonneg (by omega), add_sub_cancel_right]

theorem ofInt_nearest {n : Int} (h : n.natAbs ≤ 2 ^ 63) : Nearest n (ofInt n) := by
  have some_ : ∃ x, ofInt? n = some x := by
    by_cases nonzero : n = 0
    · subst nonzero
      exact ⟨_, rfl⟩
    · obtain ⟨m, q, -, -, -, high, -, made⟩ := ofInt?_eq nonzero
      have short : n.natAbs.log2 < 64 := (Nat.log2_lt (Int.natAbs_ne_zero.mpr nonzero)).mpr (by omega)
      exact ⟨_, made.trans (if_neg (by omega))⟩
  obtain ⟨x, hx⟩ := some_
  have same : ofInt n = x := congrArg (Option.getD · _) hx
  rw [same]
  exact ofInt?_nearest hx

end LuaHost.Double
