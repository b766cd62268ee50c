import MapStyle.Decimal.Shortest
import Mathlib

/-!
# Numbers rounded to doubles

Which numbers a double stands for after rounding. Main statements: a number lies in the interval of
the double that it is rounded to, and no other double lies there, so rounding keeps the order with
every double.
-/

namespace MapStyle.Decimal

open Float.Model Float.Model.UnpackedFloat

/-! ### Doubles and their intervals -/

/-- The number `m * 2 ^ e`. -/
def dyadic (m : Nat) (e : Int) : ℚ :=
  m * 2 ^ e

/-- Whether `m * 2 ^ e` is positive and in the one form that a double has: with 53 bits, or with
fewer and the least exponent. The exponent has no upper bound. -/
structure IsDouble (m : Nat) (e : Int) : Prop where
  pos : 0 < m
  lt : m < 2 ^ 53
  le_exponent : -1074 ≤ e
  normal : 2 ^ 52 ≤ m ∨ e = -1074

def Interval.Contains (v : Interval) (q : ℚ) : Prop :=
  if v.closed then dyadic v.low v.exponent ≤ q ∧ q ≤ dyadic v.high v.exponent
  else dyadic v.low v.exponent < q ∧ q < dyadic v.high v.exponent

/-- The lower end of the interval of `m * 2 ^ e`, in units of `2 ^ e`. -/
def lowerEnd (m : Nat) (e : Int) : ℚ :=
  if m = 2 ^ 52 ∧ -1074 < e then m - 1 / 4 else m - 1 / 2

variable {m n c : Nat} {e d : Int} {q : ℚ}

lemma two_zpow_pos (e : Int) : (0 : ℚ) < 2 ^ e :=
  zpow_pos (by norm_num) e

lemma two_zpow_add (e : Int) (k : Nat) : (2 : ℚ) ^ (e + k) = 2 ^ k * 2 ^ e := by
  rw [add_comm, zpow_add₀ (by norm_num), zpow_natCast]

lemma dyadic_pos (hm : 0 < m) (e : Int) : 0 < dyadic m e :=
  mul_pos (by exact_mod_cast hm) (two_zpow_pos e)

/-- A number in units of a smaller power of two. -/
lemma dyadic_eq_mul (h : e ≤ d) (c : Nat) : dyadic c d = (c * 2 ^ (d - e).toNat : Nat) * 2 ^ e := by
  have hd : d = e + (d - e).toNat := by omega
  rw [dyadic]
  conv_lhs => rw [hd, two_zpow_add]
  push_cast
  ring

lemma dyadic_sub_two (m : Nat) (e : Int) : dyadic m (e - 2) = m / 4 * 2 ^ e := by
  rw [dyadic, zpow_sub₀ (by norm_num)]
  norm_num
  ring

lemma dyadic_low (hm : 0 < m) (e : Int) :
    dyadic (interval m e).low (interval m e).exponent = lowerEnd m e * 2 ^ e := by
  have hlow : (interval m e).low =
      if m = 2 ^ 52 ∧ -1074 < e then 4 * m - 1 else 4 * m - 2 := rfl
  rw [show (interval m e).exponent = e - 2 from rfl, dyadic_sub_two, hlow, lowerEnd]
  split
  · rw [Nat.cast_sub (by omega)]
    push_cast
    ring
  · rw [Nat.cast_sub (by omega)]
    push_cast
    ring

lemma dyadic_high (m : Nat) (e : Int) :
    dyadic (interval m e).high (interval m e).exponent = (m + 1 / 2) * 2 ^ e := by
  rw [show (interval m e).exponent = e - 2 from rfl, dyadic_sub_two,
    show (interval m e).high = 4 * m + 2 from rfl]
  push_cast
  ring

lemma contains_iff (hm : 0 < m) :
    (interval m e).Contains q ↔
      if m % 2 = 0 then lowerEnd m e * 2 ^ e ≤ q ∧ q ≤ (m + 1 / 2) * 2 ^ e
      else lowerEnd m e * 2 ^ e < q ∧ q < (m + 1 / 2) * 2 ^ e := by
  have hclosed : (interval m e).closed = (m % 2 == 0) := rfl
  rw [Interval.Contains, dyadic_low hm, dyadic_high, hclosed]
  simp only [beq_iff_eq]

/-- The interval in units of `2 ^ e`. -/
lemma contains_iff_units (hm : 0 < m) :
    (interval m e).Contains q ↔
      if m % 2 = 0 then lowerEnd m e ≤ q / 2 ^ e ∧ q / 2 ^ e ≤ m + 1 / 2
      else lowerEnd m e < q / 2 ^ e ∧ q / 2 ^ e < m + 1 / 2 := by
  have hpos := two_zpow_pos e
  rw [contains_iff hm, le_div_iff₀ hpos, div_le_iff₀ hpos, lt_div_iff₀ hpos, div_lt_iff₀ hpos]

lemma bounds_of_contains (hm : 0 < m) (h : (interval m e).Contains q) :
    lowerEnd m e * 2 ^ e ≤ q ∧ q ≤ (m + 1 / 2) * 2 ^ e := by
  rw [contains_iff hm] at h
  split at h
  · exact h
  · exact ⟨h.1.le, h.2.le⟩

lemma le_lowerEnd (m : Nat) (e : Int) : (m : ℚ) - 1 / 2 ≤ lowerEnd m e := by
  unfold lowerEnd
  split <;> linarith

lemma lowerEnd_lt (m : Nat) (e : Int) : lowerEnd m e < m := by
  unfold lowerEnd
  split <;> linarith

lemma pos_of_contains (hm : 0 < m) (h : (interval m e).Contains q) : 0 < q := by
  have hone : (1 : ℚ) ≤ m := by exact_mod_cast hm
  have hlow := le_lowerEnd m e
  exact (mul_pos (by linarith) (two_zpow_pos e)).trans_le (bounds_of_contains hm h).1

/-- With a larger exponent the mantissa has all its bits, so the number is larger, too. -/
lemma IsDouble.lt_of_exponent_lt (hm : IsDouble m e) (hc : IsDouble c d) (h : d < e) :
    dyadic c d < dyadic m e := by
  have hnormal : 2 ^ 52 ≤ m := by
    have := hm.normal
    have := hc.le_exponent
    omega
  have hbits : c < m * 2 ^ (e - d).toNat := by
    have hpow : 2 ^ 1 ≤ 2 ^ (e - d).toNat := Nat.pow_le_pow_right (by decide) (by omega)
    have := Nat.mul_le_mul hnormal hpow
    have := hc.lt
    omega
  rw [dyadic_eq_mul h.le, dyadic, mul_lt_mul_iff_left₀ (two_zpow_pos d), Nat.cast_lt]
  exact hbits

/-- A number has one form as a double. -/
lemma IsDouble.eq_of_dyadic_eq (hm : IsDouble m e) (hc : IsDouble c d)
    (h : dyadic m e = dyadic c d) : m = c ∧ e = d := by
  obtain hlt | rfl | hgt := lt_trichotomy e d
  · exact absurd h (hc.lt_of_exponent_lt hm hlt).ne
  · rw [dyadic, dyadic, mul_left_inj' (two_zpow_pos e).ne', Nat.cast_inj] at h
    exact ⟨h, rfl⟩
  · exact absurd h (hm.lt_of_exponent_lt hc hgt).ne'

/-- The doubles that are finite are those below `2 ^ 1024`. -/
lemma IsDouble.exponent_le_iff (h : IsDouble m e) : e ≤ 971 ↔ dyadic m e < 2 ^ (1024 : Int) := by
  constructor
  · intro he
    calc dyadic m e < 2 ^ 53 * 2 ^ e :=
          mul_lt_mul_of_pos_right (by exact_mod_cast h.lt) (two_zpow_pos e)
      _ = 2 ^ (e + (53 : Nat)) := (two_zpow_add e 53).symm
      _ ≤ 2 ^ (1024 : Int) := zpow_le_zpow_right₀ (by norm_num) (by omega)
  · intro hless
    by_contra he
    have hnormal : 2 ^ 52 ≤ m := by
      have := h.normal
      omega
    have hmore : (2 : ℚ) ^ (1024 : Int) ≤ dyadic m e :=
      calc (2 : ℚ) ^ (1024 : Int) ≤ 2 ^ (e + (52 : Nat)) :=
            zpow_le_zpow_right₀ (by norm_num) (by omega)
        _ = 2 ^ 52 * 2 ^ e := two_zpow_add e 52
        _ ≤ dyadic m e :=
          mul_le_mul_of_nonneg_right (by exact_mod_cast hnormal) (two_zpow_pos e).le
    exact hless.not_ge hmore

/-- Neighbours are at least a unit of the smaller one apart. -/
lemma IsDouble.succ_le (hm : IsDouble m e) (hc : IsDouble c d) (h : dyadic m e < dyadic c d) :
    dyadic (m + 1) e ≤ dyadic c d := by
  by_cases hle : e ≤ d
  · rw [dyadic_eq_mul hle, dyadic, mul_lt_mul_iff_left₀ (two_zpow_pos e), Nat.cast_lt] at h
    rw [dyadic_eq_mul hle, dyadic, mul_le_mul_iff_left₀ (two_zpow_pos e), Nat.cast_le]
    exact h
  · exact absurd h (hm.lt_of_exponent_lt hc (not_le.mp hle)).not_gt

/-- The next double is beyond the interval. -/
lemma IsDouble.high_lt (hm : IsDouble m e) (hc : IsDouble c d) (h : dyadic m e < dyadic c d) :
    (m + 1 / 2) * 2 ^ e < dyadic c d := by
  refine lt_of_lt_of_le ?_ (hm.succ_le hc h)
  rw [dyadic, mul_lt_mul_iff_left₀ (two_zpow_pos e)]
  push_cast
  linarith

/-- Above the least exponent the interval starts beyond half of the largest mantissa. -/
lemma IsDouble.half_lt_lowerEnd (hm : IsDouble m e) (he : -1074 < e) :
    (2 ^ 53 - 1) / 2 < lowerEnd m e := by
  have hnormal : 2 ^ 52 ≤ m := by
    have := hm.normal
    omega
  unfold lowerEnd
  split
  · next hpower =>
    rw [hpower.1]
    norm_num
  · next hother =>
    have hmore : 2 ^ 52 + 1 ≤ m := by
      by_contra hless
      exact hother ⟨by omega, he⟩
    have : (2 ^ 52 + 1 : ℚ) ≤ m := by exact_mod_cast hmore
    linarith

/-- The double before is below the interval. -/
lemma IsDouble.lt_low (hm : IsDouble m e) (hc : IsDouble c d) (h : dyadic c d < dyadic m e) :
    dyadic c d < lowerEnd m e * 2 ^ e := by
  by_cases hle : e ≤ d
  · rw [dyadic_eq_mul hle, dyadic, mul_lt_mul_iff_left₀ (two_zpow_pos e), Nat.cast_lt] at h
    have hnext : ((c * 2 ^ (d - e).toNat : Nat) : ℚ) + 1 ≤ m := by exact_mod_cast h
    have := le_lowerEnd m e
    rw [dyadic_eq_mul hle, mul_lt_mul_iff_left₀ (two_zpow_pos e)]
    linarith
  · have hlow := hm.half_lt_lowerEnd (hc.le_exponent.trans_lt (not_le.mp hle))
    have hc53 : (c : ℚ) ≤ 2 ^ 53 - 1 := by
      have : (c : ℚ) + 1 ≤ 2 ^ 53 := by exact_mod_cast hc.lt
      linarith
    have hpow : (2 : ℚ) ^ d ≤ 2 ^ e / 2 := by
      rw [div_eq_mul_inv, ← zpow_sub_one₀ (by norm_num)]
      exact zpow_le_zpow_right₀ (by norm_num) (by omega)
    calc dyadic c d ≤ (2 ^ 53 - 1) * (2 ^ e / 2) :=
          mul_le_mul hc53 hpow (two_zpow_pos d).le (by norm_num)
      _ = (2 ^ 53 - 1) / 2 * 2 ^ e := by ring
      _ < lowerEnd m e * 2 ^ e := mul_lt_mul_of_pos_right hlow (two_zpow_pos e)

/-- Rounding a number does not take it below a double. -/
lemma IsDouble.le_of_contains (hm : IsDouble m e) (hc : IsDouble c d)
    (h : (interval m e).Contains q) (hle : dyadic c d ≤ q) : dyadic c d ≤ dyadic m e := by
  by_contra hlt
  have := hm.high_lt hc (not_le.mp hlt)
  have := (bounds_of_contains hm.pos h).2
  linarith

/-- Rounding a number does not take it above a double. -/
lemma IsDouble.ge_of_contains (hm : IsDouble m e) (hc : IsDouble c d)
    (h : (interval m e).Contains q) (hle : q ≤ dyadic c d) : dyadic m e ≤ dyadic c d := by
  by_contra hlt
  have := hm.lt_low hc (not_le.mp hlt)
  have := (bounds_of_contains hm.pos h).1
  linarith

/-- A double is rounded to itself. -/
lemma IsDouble.eq_of_contains (hm : IsDouble m e) (hc : IsDouble c d)
    (h : (interval m e).Contains (dyadic c d)) : m = c ∧ e = d :=
  hm.eq_of_dyadic_eq hc
    (le_antisymm (hm.ge_of_contains hc h le_rfl) (hm.le_of_contains hc h le_rfl))

/-! ### Rounding -/

/-- What a mantissa and its accuracy say of a number. -/
def Describes (m : Nat) : Accuracy → ℚ → Prop
  | .exact, x => x = m
  | .inexact .lt, x => m < x ∧ x < m + 1 / 2
  | .inexact .eq, x => x = m + 1 / 2
  | .inexact .gt, x => m + 1 / 2 < x ∧ x < m + 1

variable {acc : Accuracy} {em : ExtendedMantissa} {x : ℚ}

lemma Describes.bounds (h : Describes m acc x) : (m : ℚ) ≤ x ∧ x < m + 1 := by
  rcases acc with _ | _ | _ | _ <;> simp only [Describes] at h <;> constructor <;> linarith

lemma describes_accuracyOfFraction (hn : 0 < n) (m : Nat) :
    Describes (m / n) (accuracyOfFraction (m % n) n) ((m : ℚ) / n) := by
  have hpos : (0 : ℚ) < n := by exact_mod_cast hn
  have hlt : ((m % n : Nat) : ℚ) < n := by exact_mod_cast Nat.mod_lt m hn
  have hdiv : (m : ℚ) / n = (m / n : Nat) + (m % n : Nat) / n := by
    have : (n * (m / n : Nat) + (m % n : Nat) : ℚ) = m := by exact_mod_cast Nat.div_add_mod m n
    field_simp
    linarith
  have hfraction : ((m % n : Nat) : ℚ) / n < 1 := (div_lt_one hpos).mpr hlt
  unfold accuracyOfFraction
  by_cases hzero : m % n = 0
  · rw [if_pos hzero, Describes, hdiv, hzero]
    simp
  · rw [if_neg hzero]
    have hsome : (0 : ℚ) < (m % n : Nat) / n :=
      div_pos (by exact_mod_cast Nat.pos_of_ne_zero hzero) hpos
    cases hcompare : compare (2 * (m % n)) n with
    | lt =>
      have hhalf : ((m % n : Nat) : ℚ) / n < 1 / 2 := by
        rw [div_lt_div_iff₀ hpos (by norm_num)]
        exact_mod_cast (by have := Nat.compare_eq_lt.mp hcompare; omega : m % n * 2 < 1 * n)
      rw [Describes, hdiv]
      constructor <;> linarith
    | eq =>
      have hhalf : ((m % n : Nat) : ℚ) / n = 1 / 2 := by
        rw [div_eq_div_iff hpos.ne' (by norm_num)]
        exact_mod_cast (by have := Nat.compare_eq_eq.mp hcompare; omega : m % n * 2 = 1 * n)
      rw [Describes, hdiv, hhalf]
    | gt =>
      have hhalf : 1 / 2 < ((m % n : Nat) : ℚ) / n := by
        rw [div_lt_div_iff₀ (by norm_num) hpos]
        exact_mod_cast (by have := Nat.compare_eq_gt.mp hcompare; omega : 1 * n < m % n * 2)
      rw [Describes, hdiv]
      constructor <;> linarith

lemma describes_shiftRightOne (h : Describes em.mantissa em.accuracy x) :
    Describes em.shiftRightOne.mantissa em.shiftRightOne.accuracy (x / 2) := by
  obtain ⟨m, round, sticky⟩ := em
  have hsplit : (2 * (m / 2 : Nat) + (m % 2 : Nat) : ℚ) = m := by
    exact_mod_cast Nat.div_add_mod m 2
  obtain hbit | hbit := Nat.mod_two_eq_zero_or_one m
  all_goals
    rw [hbit] at hsplit
    cases round <;> cases sticky <;>
      simp [Describes, ExtendedMantissa.accuracy, ExtendedMantissa.shiftRightOne, hbit] at h ⊢ <;>
      first | linarith | constructor <;> linarith

lemma describes_shiftRight (h : Describes em.mantissa em.accuracy x) (k : Nat) :
    Describes (em >>> k).mantissa (em >>> k).accuracy (x / 2 ^ k) := by
  induction k with
  | zero =>
    rw [pow_zero, div_one]
    exact h
  | succ k ih =>
    have hstep := describes_shiftRightOne ih
    rw [div_div, ← pow_succ] at hstep
    exact hstep

/-- Rounding goes to the nearest whole number, and to the even one of two. -/
lemma roundedMantissa_bounds (h : Describes em.mantissa em.accuracy x) :
    ((em.roundedMantissa : ℚ) - 1 / 2 ≤ x ∧ x ≤ em.roundedMantissa + 1 / 2) ∧
      (em.roundedMantissa % 2 = 1 →
        (em.roundedMantissa : ℚ) - 1 / 2 < x ∧ x < em.roundedMantissa + 1 / 2) := by
  rw [ExtendedMantissa.roundedMantissa]
  generalize em.accuracy = acc at h
  generalize em.mantissa = m at h
  have hbounds := h.bounds
  rcases acc with _ | _ | _ | _
  · simp only [Describes, Accuracy.roundToNearestEven] at h ⊢
    subst h
    refine ⟨⟨?_, ?_⟩, fun _ => ⟨?_, ?_⟩⟩ <;> linarith
  · simp only [Describes, Accuracy.roundToNearestEven] at h ⊢
    refine ⟨⟨?_, ?_⟩, fun _ => ⟨?_, ?_⟩⟩ <;> linarith
  · simp only [Describes, Accuracy.roundToNearestEven] at h ⊢
    have heven : (m + m % 2) % 2 = 0 := by omega
    have hbit : ((m % 2 : Nat) : ℚ) ≤ 1 := by exact_mod_cast (by omega : m % 2 ≤ 1)
    have hnonneg : (0 : ℚ) ≤ (m % 2 : Nat) := Nat.cast_nonneg _
    rw [Nat.cast_add]
    refine ⟨⟨?_, ?_⟩, fun hodd => absurd hodd (by omega)⟩ <;> linarith
  · simp only [Describes, Accuracy.roundToNearestEven] at h ⊢
    rw [Nat.cast_add, Nat.cast_one]
    refine ⟨⟨?_, ?_⟩, fun _ => ⟨?_, ?_⟩⟩ <;> linarith

lemma targetExponent_eq (m : Nat) (e : Int) :
    Format.binary64.targetExponent (totalExponent m e) = max (m.log2 + 1 + e - 53) (-1074) :=
  rfl

lemma shiftToTargetExponent_eq (m : Nat) (e : Int) (acc : Accuracy) :
    shiftToTargetExponent Format.binary64 m e acc =
      (ExtendedMantissa.ofMantissaAndAccuracy m acc >>>
          (max (m.log2 + 1 + e - 53) (-1074) - e).toNat,
        e + (max (m.log2 + 1 + e - 53) (-1074) - e).toNat) :=
  rfl

lemma describes_ofMantissaAndAccuracy (h : Describes m acc x) :
    Describes (ExtendedMantissa.ofMantissaAndAccuracy m acc).mantissa
      (ExtendedMantissa.ofMantissaAndAccuracy m acc).accuracy x := by
  rcases acc with _ | _ | _ | _ <;> exact h

/-- Where a mantissa has too many bits, or an exponent is too low, the bits beyond the double are
shifted out. -/
lemma exists_shiftToTargetExponent (hm : 0 < m) (he : e ≤ max (m.log2 + 1 + e - 53) (-1074))
    (h : Describes m acc (q / 2 ^ e)) :
    ∃ em t, shiftToTargetExponent Format.binary64 m e acc = (em, t) ∧
      Describes em.mantissa em.accuracy (q / 2 ^ t) ∧ -1074 ≤ t ∧ q / 2 ^ t < 2 ^ 53 ∧
      (2 ^ 52 ≤ q / 2 ^ t ∨ t = -1074) := by
  obtain ⟨k, hk⟩ : ∃ k : Nat, (max (m.log2 + 1 + e - 53) (-1074) - e).toNat = k := ⟨_, rfl⟩
  have ht : e + k = max (m.log2 + 1 + e - 53) (-1074) := by omega
  have hshifted : q / 2 ^ (e + k) = q / 2 ^ e / 2 ^ k := by
    rw [zpow_add₀ (by norm_num), zpow_natCast, div_div]
  obtain ⟨hlow, hhigh⟩ := h.bounds
  refine ⟨_, e + k, by rw [shiftToTargetExponent_eq, hk], ?_, by omega, ?_, ?_⟩
  · rw [hshifted]
    exact describes_shiftRight (describes_ofMantissaAndAccuracy h) k
  · rw [hshifted, div_lt_iff₀ (by positivity)]
    have hlog : m + 1 ≤ 2 ^ 53 * 2 ^ k := by
      rw [← pow_add]
      exact Nat.le_trans Nat.lt_log2_self (Nat.pow_le_pow_right (by decide) (by omega))
    have : (m : ℚ) + 1 ≤ 2 ^ 53 * 2 ^ k := by exact_mod_cast hlog
    linarith
  · by_cases hleast : e + k = -1074
    · exact .inr hleast
    · left
      rw [hshifted, le_div_iff₀ (by positivity)]
      have hlog : 2 ^ 52 * 2 ^ k ≤ m := by
        rw [← pow_add]
        exact Nat.le_trans (Nat.pow_le_pow_right (by decide) (by omega))
          (Nat.log2_self_le hm.ne')
      have : (2 ^ 52 * 2 ^ k : ℚ) ≤ m := by exact_mod_cast hlog
      linarith

lemma shiftToTargetExponent_of_lt (hm : m < 2 ^ 53) (he : -1074 ≤ e) :
    shiftToTargetExponent Format.binary64 m e .exact = (⟨m, false, false⟩, e) := by
  have hlog : m.log2 ≤ 52 := by
    by_cases hzero : m = 0
    · simp [hzero]
    · exact Nat.le_of_lt_succ ((Nat.log2_lt hzero).mpr hm)
  have hk : (max (m.log2 + 1 + e - 53) (-1074) - e).toNat = 0 := by omega
  rw [shiftToTargetExponent_eq, hk, Nat.cast_zero, add_zero]
  rfl

lemma shiftToTargetExponent_two_pow (he : -1074 ≤ e) :
    shiftToTargetExponent Format.binary64 (2 ^ 53) e .exact = (⟨2 ^ 52, false, false⟩, e + 1) := by
  have hk : (max ((2 ^ 53).log2 + 1 + e - 53) (-1074) - e).toNat = 1 := by
    rw [Nat.log2_two_pow]
    omega
  rw [shiftToTargetExponent_eq, hk]
  rfl

lemma roundWithAccuracy_eq {s : Sign} {t : Int}
    (h : shiftToTargetExponent Format.binary64 m e acc = (em, t))
    (ht : -1074 ≤ t) (hr : 0 < em.roundedMantissa) (hlt : em.roundedMantissa ≤ 2 ^ 53) :
    roundWithAccuracy Format.binary64 s m e acc =
      if em.roundedMantissa < 2 ^ 53 then .finite s em.roundedMantissa t hr
      else .finite s (2 ^ 52) (t + 1) (by decide) := by
  by_cases hless : em.roundedMantissa < 2 ^ 53
  · rw [if_pos hless]
    simp only [roundWithAccuracy, h, shiftToTargetExponent_of_lt hless ht]
    rw [dif_neg hr.ne']
  · have heq : em.roundedMantissa = 2 ^ 53 := by omega
    rw [if_neg hless]
    simp only [roundWithAccuracy, h, heq, shiftToTargetExponent_two_pow ht]
    rfl

lemma contains_of_rounded {t : Int} (hm : 0 < m)
    (h : (m : ℚ) - 1 / 2 ≤ q / 2 ^ t ∧ q / 2 ^ t ≤ m + 1 / 2)
    (hodd : m % 2 = 1 → (m : ℚ) - 1 / 2 < q / 2 ^ t ∧ q / 2 ^ t < m + 1 / 2)
    (hnormal : 2 ^ 52 ≤ q / 2 ^ t ∨ t = -1074) : (interval m t).Contains q := by
  -- At a power of two the interval reaches less far down, but no number is rounded up to it.
  have hlower : lowerEnd m t = m - 1 / 2 ∨ lowerEnd m t < m ∧ (m : ℚ) ≤ q / 2 ^ t := by
    by_cases hpower : m = 2 ^ 52 ∧ -1074 < t
    · right
      refine ⟨lowerEnd_lt m t, ?_⟩
      rw [hpower.1]
      exact_mod_cast hnormal.resolve_right (by omega)
    · exact .inl (if_neg hpower)
  rw [contains_iff_units hm]
  split
  · refine ⟨?_, h.2⟩
    obtain heq | ⟨hless, hge⟩ := hlower <;> linarith
  · obtain ⟨hlow, hhigh⟩ := hodd (by omega)
    refine ⟨?_, hhigh⟩
    obtain heq | ⟨hless, hge⟩ := hlower <;> linarith

/-- Rounding up to `2 ^ 53` carries into the exponent. -/
lemma contains_of_carried {t : Int} (ht : -1074 ≤ t) (hlow : (2 : ℚ) ^ 53 - 1 / 2 ≤ q / 2 ^ t)
    (hbelow : q / 2 ^ t < 2 ^ 53) : (interval (2 ^ 52) (t + 1)).Contains q := by
  have hhalf : q / 2 ^ (t + 1) = q / 2 ^ t / 2 := by
    rw [zpow_add_one₀ (by norm_num), div_div]
  have hlower : lowerEnd (2 ^ 52) (t + 1) = (2 ^ 52 : Nat) - 1 / 4 :=
    if_pos ⟨rfl, by omega⟩
  rw [contains_iff_units (by decide), if_pos (by decide), hhalf, hlower]
  push_cast
  constructor <;> linarith

/-- A number that is not below the least double lies in the interval of the double that it is
rounded to. -/
theorem exists_roundWithAccuracy {s : Sign} (hm : 0 < m)
    (he : e ≤ max (m.log2 + 1 + e - 53) (-1074)) (h : Describes m acc (q / 2 ^ e))
    (hq : dyadic 1 (-1074) ≤ q) :
    ∃ n f, ∃ hn : 0 < n, roundWithAccuracy Format.binary64 s m e acc = .finite s n f hn ∧
      IsDouble n f ∧ (interval n f).Contains q := by
  obtain ⟨em, t, hshift, hdescribes, ht, hbelow, hnormal⟩ := exists_shiftToTargetExponent hm he h
  obtain ⟨hnear, hodd⟩ := roundedMantissa_bounds hdescribes
  generalize hr : em.roundedMantissa = r at hnear hodd
  obtain ⟨hlow, hhigh⟩ := hnear
  have hle : r ≤ 2 ^ 53 := by
    have : (r : ℚ) < (2 ^ 53 + 1 : Nat) := by push_cast; linarith
    have := Nat.cast_lt.mp this
    omega
  have hbits : 2 ^ 52 ≤ r ∨ t = -1074 := by
    refine hnormal.imp_left fun hbig => ?_
    have : ((2 ^ 52 : Nat) : ℚ) < (r + 1 : Nat) := by push_cast; linarith
    have := Nat.cast_lt.mp this
    omega
  have hrpos : 0 < r := by
    by_contra hzero
    have hleast : t = -1074 := by omega
    have hone : 1 ≤ q / 2 ^ t := by
      rw [le_div_iff₀ (two_zpow_pos t), hleast]
      simpa [dyadic] using hq
    have : (r : ℚ) = 0 := by exact_mod_cast (by omega : r = 0)
    linarith
  rw [roundWithAccuracy_eq hshift ht (by omega) (by omega)]
  simp only [hr]
  by_cases hlt : r < 2 ^ 53
  · rw [if_pos hlt]
    exact ⟨r, t, hrpos, rfl, ⟨hrpos, hlt, ht, hbits⟩,
      contains_of_rounded hrpos ⟨hlow, hhigh⟩ hodd hnormal⟩
  · obtain rfl : r = 2 ^ 53 := by omega
    rw [if_neg hlt]
    push_cast at hlow
    exact ⟨2 ^ 52, t + 1, by decide, rfl, ⟨by decide, by decide, by omega, .inl le_rfl⟩,
      contains_of_carried ht hlow hbelow⟩

end MapStyle.Decimal
