import MapStyle.Decimal.Layout
import MapStyle.Proofs.RoundedDoubles

/-!
# Shortest decimals read back

The shortest decimal of a double lies in the interval of the double: of the grids of 1, 2, … 17
digits one always has a multiple there. Main statement: no grid is passed over, so the decimal has
no more digits after the point than any other decimal in the interval.
-/

namespace MapStyle.Decimal

variable {m d : Nat} {e p : Int} {q : ℚ} {tie : Tie} {v : Interval}

/-! ### Multiples on a grid -/

lemma zpow_mul_pow_toNat {a : ℚ} (ha : a ≠ 0) (b : Int) : a ^ b * a ^ (-b).toNat = a ^ b.toNat := by
  rw [← zpow_natCast, ← zpow_natCast, ← zpow_add₀ ha]
  congr 1
  omega

lemma exists_scales (b p : Int) :
    ∃ k : ℚ, 0 < k ∧ ((scales b p).1 : ℚ) = 2 ^ b * k ∧ ((scales b p).2 : ℚ) = 10 ^ p * k := by
  have htwo := zpow_mul_pow_toNat (show (2 : ℚ) ≠ 0 by norm_num) b
  have hten := zpow_mul_pow_toNat (show (10 : ℚ) ≠ 0 by norm_num) p
  refine ⟨10 ^ (-p).toNat * 2 ^ (-b).toNat, by positivity, ?_, ?_⟩
  · simp only [scales, Nat.shiftLeft_eq, Nat.pow_eq]
    push_cast
    rw [← htwo]
    ring
  · simp only [scales, Nat.shiftLeft_eq, Nat.pow_eq]
    push_cast
    rw [← hten]
    ring

/-- Whether a multiple is in an interval is decided in whole numbers. -/
lemma contains_multiple_iff (v : Interval) (p : Int) (d : Nat) :
    v.Contains (d * 10 ^ p) ↔
      if v.closed then v.low * (scales v.exponent p).1 ≤ d * (scales v.exponent p).2 ∧
        d * (scales v.exponent p).2 ≤ v.high * (scales v.exponent p).1
      else v.low * (scales v.exponent p).1 < d * (scales v.exponent p).2 ∧
        d * (scales v.exponent p).2 < v.high * (scales v.exponent p).1 := by
  obtain ⟨k, hk, hunit, hgrid⟩ := exists_scales v.exponent p
  have hdyadic (a : Nat) : ((a * (scales v.exponent p).1 : Nat) : ℚ) = dyadic a v.exponent * k := by
    rw [Nat.cast_mul, hunit, dyadic, mul_assoc]
  have hmultiple : ((d * (scales v.exponent p).2 : Nat) : ℚ) = d * 10 ^ p * k := by
    rw [Nat.cast_mul, hgrid, mul_assoc]
  have hle (a b : Nat) : a ≤ b ↔ (a : ℚ) ≤ b := Nat.cast_le.symm
  have hlt (a b : Nat) : a < b ↔ (a : ℚ) < b := Nat.cast_lt.symm
  simp only [hle, hlt, hdyadic, hmultiple, mul_le_mul_iff_left₀ hk, mul_lt_mul_iff_left₀ hk,
    Interval.Contains]

/-- A grid gives one of the two multiples next to the value, and none only if neither reads back. -/
lemma nearestOnGrid?_cases (tie : Tie) (v : Interval) (p : Int) :
    (∃ d, nearestOnGrid? tie v p = some d ∧ v.Contains (d * 10 ^ p)) ∨
      ∃ d, d = v.value * (scales v.exponent p).1 / (scales v.exponent p).2 ∧
        nearestOnGrid? tie v p = none ∧ ¬v.Contains (d * 10 ^ p) ∧
        ¬v.Contains ((d + 1 : Nat) * 10 ^ p) := by
  obtain ⟨d, hd⟩ : ∃ d, d = v.value * (scales v.exponent p).1 / (scales v.exponent p).2 := ⟨_, rfl⟩
  have hreads (d : Nat) : v.Contains (d * 10 ^ p) ↔
      (if v.closed = true then
        decide (v.low * (scales v.exponent p).1 ≤ d * (scales v.exponent p).2 ∧
          d * (scales v.exponent p).2 ≤ v.high * (scales v.exponent p).1)
      else
        decide (v.low * (scales v.exponent p).1 < d * (scales v.exponent p).2 ∧
          d * (scales v.exponent p).2 < v.high * (scales v.exponent p).1)) = true := by
    rw [contains_multiple_iff]
    split <;> rw [decide_eq_true_iff]
  unfold nearestOnGrid?
  simp only [← hd]
  have hfirst := hreads d
  have hnext := hreads (d + 1)
  split
  · next h1 h2 =>
    right
    refine ⟨d, rfl, rfl, ?_, ?_⟩
    · rw [hfirst, h1]; simp
    · rw [hnext, h2]; simp
  · next h1 h2 => exact .inl ⟨d, rfl, hfirst.mpr h1⟩
  · next h1 h2 => exact .inl ⟨d + 1, rfl, hnext.mpr h2⟩
  · next h1 h2 =>
    left
    split
    · exact ⟨d, rfl, hfirst.mpr h1⟩
    · exact ⟨d + 1, rfl, hnext.mpr h2⟩
    · split
      · exact ⟨d, rfl, hfirst.mpr h1⟩
      · exact ⟨d + 1, rfl, hnext.mpr h2⟩

lemma contains_of_nearestOnGrid? (h : nearestOnGrid? tie v p = some d) :
    v.Contains (d * 10 ^ p) := by
  obtain ⟨c, hc, hcontains⟩ | ⟨c, -, hnone, -⟩ := nearestOnGrid?_cases tie v p
  · rw [h, Option.some.injEq] at hc
    rwa [hc]
  · rw [h] at hnone
    cases hnone

/-- The value is between the two multiples that a grid has to offer. -/
lemma value_bounds (v : Interval) (p : Int)
    (hd : d = v.value * (scales v.exponent p).1 / (scales v.exponent p).2) :
    d * 10 ^ p ≤ dyadic v.value v.exponent ∧
      dyadic v.value v.exponent < (d + 1 : Nat) * 10 ^ p := by
  obtain ⟨k, hk, hunit, hgrid⟩ := exists_scales v.exponent p
  have hpos : 0 < (scales v.exponent p).2 := by
    have : (0 : ℚ) < (scales v.exponent p).2 := by
      rw [hgrid]
      positivity
    exact_mod_cast this
  have hvalue : ((v.value * (scales v.exponent p).1 : Nat) : ℚ) = dyadic v.value v.exponent * k := by
    rw [Nat.cast_mul, hunit, dyadic, mul_assoc]
  have hmultiple (a : Nat) : ((a * (scales v.exponent p).2 : Nat) : ℚ) = a * 10 ^ p * k := by
    rw [Nat.cast_mul, hgrid, mul_assoc]
  constructor
  · have hle : d * (scales v.exponent p).2 ≤ v.value * (scales v.exponent p).1 :=
      hd ▸ Nat.div_mul_le_self _ _
    rwa [← mul_le_mul_iff_left₀ hk, ← hmultiple, ← hvalue, Nat.cast_le]
  · have hlt : v.value * (scales v.exponent p).1 < (d + 1) * (scales v.exponent p).2 :=
      (Nat.div_lt_iff_lt_mul hpos).mp (by omega)
    rwa [← mul_lt_mul_iff_left₀ hk, ← hmultiple, ← hvalue, Nat.cast_lt]

lemma Interval.Contains.of_between {a b c : ℚ} (ha : v.Contains a) (hc : v.Contains c)
    (hab : a ≤ b) (hbc : b ≤ c) : v.Contains b := by
  unfold Interval.Contains at *
  split_ifs at *
  · exact ⟨ha.1.trans hab, hbc.trans hc.2⟩
  · exact ⟨ha.1.trans_le hab, hbc.trans_lt hc.2⟩

/-- A grid is passed over only if it has no multiple in the interval. -/
lemma isSome_nearestOnGrid?_iff (hv : v.Contains (dyadic v.value v.exponent)) :
    (nearestOnGrid? tie v p).isSome = true ↔ ∃ j : Nat, v.Contains (j * 10 ^ p) := by
  obtain ⟨c, hc, hcontains⟩ | ⟨c, hc, hnone, hfirst, hnext⟩ := nearestOnGrid?_cases tie v p
  · rw [hc]
    exact ⟨fun _ => ⟨c, hcontains⟩, fun _ => rfl⟩
  · rw [hnone]
    constructor
    · intro h
      cases h
    · intro ⟨j, hj⟩
      obtain ⟨hbelow, habove⟩ := value_bounds v p hc
      have hgrid : (0 : ℚ) < 10 ^ p := by positivity
      -- The interval is convex, so a multiple in it on one side of the value has the next one in it.
      by_cases hle : j ≤ c
      · have hmultiples : (j : ℚ) * 10 ^ p ≤ c * 10 ^ p :=
          mul_le_mul_of_nonneg_right (by exact_mod_cast hle) hgrid.le
        exact absurd (hj.of_between hv hmultiples hbelow) hfirst
      · have hmultiples : ((c + 1 : Nat) : ℚ) * 10 ^ p ≤ j * 10 ^ p :=
          mul_le_mul_of_nonneg_right (by exact_mod_cast Nat.lt_of_not_le hle) hgrid.le
        exact absurd (hv.of_between hj habove.le hmultiples) hnext

/-! ### Numbers of digits -/

lemma length_toDigits_bounds (n : Nat) (hn : 0 < n) :
    10 ^ ((Nat.toDigits 10 n).length - 1) ≤ n ∧ n < 10 ^ (Nat.toDigits 10 n).length := by
  constructor
  · by_contra hlt
    by_cases hone : (Nat.toDigits 10 n).length - 1 = 0
    · rw [hone] at hlt
      omega
    · have := (Nat.length_toDigits_le_iff (by decide) (by omega)).mpr (not_le.mp hlt)
      omega
  · exact (Nat.length_toDigits_le_iff (by decide) Nat.length_toDigits_pos).mp le_rfl

/-- The digits before the point, or the zeros after it, are counted exactly. -/
theorem pointPosition_bounds (hm : 0 < m) (e : Int) :
    (10 : ℚ) ^ (pointPosition m e - 1) ≤ dyadic m e ∧ dyadic m e < 10 ^ pointPosition m e := by
  obtain ⟨num, hnum⟩ : ∃ num, num = m <<< e.toNat := ⟨_, rfl⟩
  obtain ⟨den, hden⟩ : ∃ den, den = 1 <<< (-e).toNat := ⟨_, rfl⟩
  have hnumpos : 0 < num := by
    rw [hnum, Nat.shiftLeft_eq]
    positivity
  have hdenpos : 0 < den := by
    rw [hden, Nat.shiftLeft_eq]
    positivity
  have hvalue : dyadic m e = num / den := by
    have := zpow_mul_pow_toNat (show (2 : ℚ) ≠ 0 by norm_num) e
    rw [hnum, hden, Nat.shiftLeft_eq, Nat.shiftLeft_eq, eq_div_iff (by positivity), dyadic]
    push_cast
    rw [← this]
    ring
  have hle (k : Nat) : (10 : ℚ) ^ (-(k : Int)) ≤ num / den ↔ den ≤ num * 10 ^ k := by
    rw [zpow_neg, zpow_natCast, inv_le_iff_one_le_mul₀ (by positivity), ← mul_div_right_comm,
      le_div_iff₀ (by positivity), one_mul]
    norm_cast
  have hlt (k : Nat) : (num / den : ℚ) < 10 ^ (-(k : Int)) ↔ num * 10 ^ k < den := by
    rw [← not_le, hle, not_le]
  have hposition : pointPosition m e =
      if den ≤ num then ((Nat.toDigits 10 (num / den)).length : Int)
      else if den ≤ num * 10 ^ ((Nat.toDigits 10 (den / num)).length - 1) then
        2 - (Nat.toDigits 10 (den / num)).length
      else 1 - (Nat.toDigits 10 (den / num)).length := by
    rw [hnum, hden]
    rfl
  rw [hposition, hvalue]
  split
  · next hmore =>
    obtain ⟨hlow, hhigh⟩ := length_toDigits_bounds (num / den) (Nat.div_pos hmore hdenpos)
    have hpos := Nat.length_toDigits_pos (b := 10) (n := num / den)
    generalize (Nat.toDigits 10 (num / den)).length = t at *
    rw [Nat.le_div_iff_mul_le hdenpos] at hlow
    rw [Nat.div_lt_iff_lt_mul hdenpos] at hhigh
    rw [show (t : Int) - 1 = (t - 1 : Nat) by omega, zpow_natCast, zpow_natCast,
      le_div_iff₀ (by positivity), div_lt_iff₀ (by positivity)]
    exact ⟨by exact_mod_cast hlow, by exact_mod_cast hhigh⟩
  · next hless =>
    obtain ⟨hlow, hhigh⟩ :=
      length_toDigits_bounds (den / num) (Nat.div_pos (not_le.mp hless).le hnumpos)
    have hpos := Nat.length_toDigits_pos (b := 10) (n := den / num)
    generalize (Nat.toDigits 10 (den / num)).length = t at *
    rw [Nat.le_div_iff_mul_le hnumpos] at hlow
    rw [Nat.div_lt_iff_lt_mul hnumpos] at hhigh
    split
    · next hpower =>
      constructor
      · rw [show 2 - (t : Int) - 1 = -((t - 1 : Nat) : Int) by omega, hle]
        exact hpower
      · have hequal : num * 10 ^ (t - 1) ≤ den := by rwa [mul_comm]
        calc (num / den : ℚ) ≤ 10 ^ (-((t - 1 : Nat) : Int)) := by
              rw [zpow_neg, zpow_natCast, div_le_iff₀ (by positivity), inv_mul_eq_div,
                le_div_iff₀ (by positivity)]
              exact_mod_cast hequal
          _ < 10 ^ (2 - (t : Int)) := zpow_lt_zpow_right₀ (by norm_num) (by omega)
    · next hother =>
      rw [show 1 - (t : Int) - 1 = -(t : Int) by omega,
        show 1 - (t : Int) = -((t - 1 : Nat) : Int) by omega, hle, hlt]
      exact ⟨by rw [mul_comm]; exact hhigh.le, not_le.mp hother⟩

/-! ### The shortest decimal -/

lemma dyadic_value (m : Nat) (e : Int) :
    dyadic (interval m e).value (interval m e).exponent = dyadic m e := by
  rw [show (interval m e).exponent = e - 2 from rfl, dyadic_sub_two,
    show (interval m e).value = 4 * m from rfl, dyadic]
  push_cast
  ring

lemma contains_of_lt (hm : 0 < m) (hlow : lowerEnd m e * 2 ^ e < q)
    (hhigh : q < (m + 1 / 2) * 2 ^ e) : (interval m e).Contains q := by
  rw [contains_iff hm]
  split
  · exact ⟨hlow.le, hhigh.le⟩
  · exact ⟨hlow, hhigh⟩

lemma dyadic_bounds (m : Nat) (e : Int) :
    lowerEnd m e * 2 ^ e < dyadic m e ∧ dyadic m e < (m + 1 / 2) * 2 ^ e :=
  ⟨mul_lt_mul_of_pos_right (lowerEnd_lt m e) (two_zpow_pos e),
    mul_lt_mul_of_pos_right (by linarith) (two_zpow_pos e)⟩

lemma contains_value (hm : 0 < m) (e : Int) :
    (interval m e).Contains (dyadic (interval m e).value (interval m e).exponent) := by
  rw [dyadic_value]
  exact contains_of_lt hm (dyadic_bounds m e).1 (dyadic_bounds m e).2

/-- Multiples of a power of ten that is less than the interval is wide cannot all miss it. -/
lemma exists_contains_multiple (hm : 0 < m)
    (hp : (10 : ℚ) ^ p < (m + 1 / 2 - lowerEnd m e) * 2 ^ e) :
    ∃ j : Nat, (interval m e).Contains (j * 10 ^ p) := by
  obtain ⟨d, hd⟩ : ∃ d, d = (interval m e).value * (scales (interval m e).exponent p).1 /
    (scales (interval m e).exponent p).2 := ⟨_, rfl⟩
  obtain ⟨hbelow, habove⟩ := value_bounds (interval m e) p hd
  rw [dyadic_value] at hbelow habove
  obtain ⟨hlow, hhigh⟩ := dyadic_bounds m e
  by_cases hfirst : lowerEnd m e * 2 ^ e < d * 10 ^ p
  · exact ⟨d, contains_of_lt hm hfirst (by linarith)⟩
  · refine ⟨d + 1, contains_of_lt hm (by linarith) ?_⟩
    push_cast
    linarith

/-- Seventeen digits always suffice. -/
lemma exists_seventeen_digits (h : IsDouble m e) :
    ∃ j : Nat, (interval m e).Contains (j * 10 ^ (pointPosition m e - 17)) := by
  have hposition := (pointPosition_bounds h.pos e).1
  rw [show pointPosition m e - 1 = pointPosition m e - 17 + (16 : Nat) by omega,
    zpow_add₀ (by norm_num), zpow_natCast, dyadic] at hposition
  have hm : (m : ℚ) < 2 ^ 53 := by exact_mod_cast h.lt
  have hwidth : (m : ℚ) < (m + 1 / 2 - lowerEnd m e) * 10 ^ 16 := by
    unfold lowerEnd
    split
    · next hpower =>
      rw [hpower.1]
      norm_num
    · linarith
  have hscaled := mul_lt_mul_of_pos_right hwidth (two_zpow_pos e)
  apply exists_contains_multiple h.pos
  linarith

def Numeral.value (d : Numeral) : ℚ :=
  d.coefficient * 10 ^ d.exponent

/-- Trimming leaves the value alone and takes no digit behind the last one away. -/
lemma trim_spec (fuel : Nat) (d : Numeral) :
    (d.trim fuel).value = d.value ∧ d.exponent ≤ (d.trim fuel).exponent := by
  induction fuel generalizing d with
  | zero => exact ⟨rfl, le_rfl⟩
  | succ fuel ih =>
    rw [Numeral.trim]
    split
    · next hzero =>
      obtain ⟨hvalue, hexponent⟩ := ih ⟨d.coefficient / 10, d.exponent + 1⟩
      have hcoefficient : ((d.coefficient / 10 : Nat) : ℚ) * 10 = d.coefficient := by
        exact_mod_cast Nat.div_mul_cancel (Nat.dvd_of_mod_eq_zero hzero)
      constructor
      · rw [hvalue, Numeral.value, Numeral.value, ← hcoefficient, zpow_add_one₀ (by norm_num)]
        ring
      · exact (Int.le_add_one le_rfl).trans hexponent
    · exact ⟨rfl, le_rfl⟩

lemma exists_first_of_findSome?_range {α : Type} {f : Nat → Option α} {a : α} {n : Nat}
    (h : (List.range n).findSome? f = some a) : ∃ k, f k = some a ∧ ∀ i < k, f i = none := by
  induction n with
  | zero => cases h
  | succ n ih =>
    rw [List.range_succ, List.findSome?_append] at h
    cases hfirst : (List.range n).findSome? f with
    | some b =>
      rw [hfirst, Option.some_or] at h
      exact ih (hfirst.trans h)
    | none =>
      rw [hfirst, Option.none_or, List.findSome?_singleton] at h
      rw [List.findSome?_eq_none_iff] at hfirst
      exact ⟨n, h, fun i hi => hfirst i (List.mem_range.mpr hi)⟩

/-- The shortest decimal comes from the first grid that is not passed over. -/
lemma exists_first_grid (tie : Tie) (h : IsDouble m e) :
    ∃ (k : Nat) (c : Nat),
      nearestOnGrid? tie (interval m e) (pointPosition m e - (k + 1)) = some c ∧
      shortest tie m e = Numeral.trim 17 ⟨c, pointPosition m e - (k + 1)⟩ ∧
      ∀ i < k, nearestOnGrid? tie (interval m e) (pointPosition m e - ((i : Nat) + 1)) = none := by
  obtain ⟨grid, hgrid⟩ : ∃ grid : Nat → Option Numeral, grid = fun k : Nat =>
    (nearestOnGrid? tie (interval m e) (pointPosition m e - (k + 1))).map fun d =>
      ⟨d, pointPosition m e - (k + 1)⟩ := ⟨_, rfl⟩
  have hshortest : shortest tie m e =
      (((List.range 17).findSome? grid).getD ⟨0, 0⟩).trim 17 := by
    rw [hgrid]
    rfl
  have hlast : (grid 16).isSome = true := by
    rw [hgrid, Option.isSome_map, isSome_nearestOnGrid?_iff (contains_value h.pos e)]
    exact exists_seventeen_digits h
  have hfound : ((List.range 17).findSome? grid).isSome = true :=
    List.findSome?_isSome_iff.mpr ⟨16, by decide, hlast⟩
  obtain ⟨d, hd⟩ := Option.isSome_iff_exists.mp hfound
  obtain ⟨k, hk, hbefore⟩ := exists_first_of_findSome?_range hd
  rw [hgrid] at hk hbefore
  obtain ⟨c, hc, rfl⟩ := Option.map_eq_some_iff.mp hk
  refine ⟨k, c, hc, ?_, fun i hi => Option.map_eq_none_iff.mp (hbefore i hi)⟩
  rw [hshortest, hd, Option.getD_some]

/-- The shortest decimal is in the interval, and no other decimal there ends before it does. -/
theorem shortest_spec (tie : Tie) (h : IsDouble m e) :
    (interval m e).Contains (shortest tie m e).value ∧
      ∀ (j : Nat) (p : Int), p < pointPosition m e → (interval m e).Contains (j * 10 ^ p) →
        p ≤ (shortest tie m e).exponent := by
  obtain ⟨k, c, hc, hshortest, hbefore⟩ := exists_first_grid tie h
  obtain ⟨hvalue, hexponent⟩ := trim_spec 17 ⟨c, pointPosition m e - (k + 1)⟩
  rw [hshortest, hvalue]
  refine ⟨contains_of_nearestOnGrid? hc, fun j p hp hj => ?_⟩
  by_contra hless
  obtain ⟨i, hi⟩ : ∃ i : Nat, p = pointPosition m e - (i + 1) :=
    ⟨(pointPosition m e - p - 1).toNat, by omega⟩
  have hik : i < k := by
    have : pointPosition m e - (k + 1) ≤
        (Numeral.trim 17 ⟨c, pointPosition m e - (k + 1)⟩).exponent := hexponent
    omega
  have hpassed : (nearestOnGrid? tie (interval m e) p).isSome = true :=
    (isSome_nearestOnGrid?_iff (contains_value h.pos e)).mpr ⟨j, hj⟩
  rw [hi, hbefore i hik] at hpassed
  cases hpassed

end MapStyle.Decimal
