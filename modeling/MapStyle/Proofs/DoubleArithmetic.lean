import MapStyle.Proofs.RoundedDoubles

/-!
# Arithmetic of doubles

Products and quotients of positive doubles are the exact ones rounded once, and comparing doubles is
comparing the numbers that they denote. Whole numbers below `2 ^ 53` are doubles themselves.
-/

namespace MapStyle.Decimal

open Float.Model Float.Model.UnpackedFloat

variable {m n : Nat} {e f : Int} {q : ℚ}

/-! ### Products and quotients -/

/-- Whether a double is the one that a positive number is rounded to. Beyond the largest double this
is infinity. -/
def IsNearest (q : ℚ) (x : Float) : Prop :=
  ∃ m e, IsDouble m e ∧ (interval m e).Contains q ∧
    parts x = if e ≤ 971 then .finite false m e else .infinite false

/-- The mantissa of a double with 53 bits has its first bit left out where it is stored. -/
lemma toNat_one_append (v : BitVec 52) : (1#1 ++ v).toNat = 2 ^ 52 + v.toNat := by
  rw [BitVec.toNat_append, ← Nat.shiftLeft_add_eq_or_of_lt v.isLt]
  rfl

lemma isDouble_of_unpack {b : BitVec 64} {s : Sign} {hm : 0 < m}
    (h : UnpackedFloat.unpack Format.binary64 b = .finite s m e hm) : IsDouble m e ∧ e ≤ 971 := by
  have hmantissa : (@unpackMantissa Format.binary64 b).toNat < 2 ^ 52 := BitVec.isLt _
  have hexponent : (@unpackExponent Format.binary64 b).toNat < 2 ^ 11 := BitVec.isLt _
  unfold UnpackedFloat.unpack at h
  simp only at h
  split at h
  · split at h <;> cases h
  · next hinfinite =>
    split at h
    · next hzero =>
      split at h
      · cases h
      · cases h
        rw [hzero]
        exact ⟨⟨hm, by omega, by decide, .inr rfl⟩, by decide⟩
    · next hnonzero =>
      have hlow : (@unpackExponent Format.binary64 b).toNat ≠ 0 :=
        fun hz => hnonzero (BitVec.eq_of_toNat_eq hz)
      have hhigh : (@unpackExponent Format.binary64 b).toNat ≠ 2047 :=
        fun hi => hinfinite (BitVec.eq_of_toNat_eq hi)
      have hbits := toNat_one_append (@unpackMantissa Format.binary64 b)
      have hbias : ((Format.binary64.exponentBias : Int) +
          (Format.binary64.mantissaBitsWithoutImplicit : Nat)) = 1075 := rfl
      cases h
      rw [hbias]
      refine ⟨⟨hm, ?_, by omega, .inl ?_⟩, by omega⟩
      · change (1#1 ++ @unpackMantissa Format.binary64 b).toNat < 2 ^ 53
        omega
      · change 2 ^ 52 ≤ (1#1 ++ @unpackMantissa Format.binary64 b).toNat
        omega

lemma unpack_packComponents (s : Sign) {x : BitVec 11} {v : BitVec 52} (hx : x ≠ -1#11) :
    UnpackedFloat.unpack Format.binary64 (packComponents Format.binary64 s x v) =
      if x = 0#11 then
        if hv : v = 0#52 then .zero s
        else .finite s v.toNat (-1074) (by simpa [BitVec.toNat_pos, BitVec.pos_iff_ne_zero])
      else .finite s (1#1 ++ v).toNat (x.toNat - 1075)
        (by rw [toNat_one_append]; omega) := by
  unfold UnpackedFloat.unpack
  simp only [unpackMantissa_packComponents, unpackExponent_packComponents,
    unpackSign_packComponents, Sign.ofBitVec_toBitVec]
  rw [if_neg hx]
  split
  · next hzero =>
    subst hzero
    rfl
  · rfl

lemma unpack_pack (s : Sign) (h : IsDouble m e) :
    UnpackedFloat.unpack Format.binary64
        (UnpackedFloat.pack Format.binary64 (.finite s m e h.pos)) =
      if e ≤ 971 then .finite s m e h.pos else .infinity s := by
  have hpack : UnpackedFloat.pack Format.binary64 (.finite s m e h.pos) =
      if 2 ^ 11 ≤ (e + (1023 : Nat) + (52 : Nat)).toNat + 1 then
        packedInfinity Format.binary64 s
      else if m.log2 + 1 = 53 then
        packComponents Format.binary64 s (BitVec.ofNat _ (e + (1023 : Nat) + (52 : Nat)).toNat)
          (BitVec.ofNat _ m)
      else packComponents Format.binary64 s 0#_ (BitVec.ofNat _ m) := rfl
  have hleast := h.le_exponent
  have hlt := h.lt
  rw [hpack]
  by_cases he : e ≤ 971
  · obtain ⟨k, hk⟩ : ∃ k : Nat, (e + (1023 : Nat) + (52 : Nat)).toNat = k := ⟨_, rfl⟩
    rw [if_pos he, hk, if_neg (by omega)]
    have hlog : m.log2 + 1 = 53 ↔ 2 ^ 52 ≤ m := by
      rw [← Nat.le_log2 h.pos.ne']
      have := (Nat.log2_lt h.pos.ne').mpr hlt
      omega
    by_cases hnormal : 2 ^ 52 ≤ m
    · have hbits : (BitVec.ofNat 11 k).toNat = k := by
        rw [BitVec.toNat_ofNat, Nat.mod_eq_of_lt (by omega)]
      have hones : BitVec.ofNat 11 k ≠ -1#11 := by
        intro heq
        have hones := congrArg BitVec.toNat heq
        rw [hbits] at hones
        have : (-1#11).toNat = 2047 := rfl
        omega
      have hzero : BitVec.ofNat 11 k ≠ 0#11 := by
        intro heq
        have hzero := congrArg BitVec.toNat heq
        rw [hbits, BitVec.toNat_zero] at hzero
        omega
      rw [if_pos (hlog.mpr hnormal), unpack_packComponents s hones, if_neg hzero]
      congr 1
      · rw [toNat_one_append, BitVec.toNat_ofNat]
        omega
      · rw [hbits]
        omega
    · have hleast : e = -1074 := h.normal.resolve_left hnormal
      have hbits : (BitVec.ofNat 52 m).toNat = m := by
        rw [BitVec.toNat_ofNat, Nat.mod_eq_of_lt (by omega)]
      have hnonzero : BitVec.ofNat 52 m ≠ 0#52 := by
        intro heq
        have hzero := congrArg BitVec.toNat heq
        rw [hbits, BitVec.toNat_zero] at hzero
        exact h.pos.ne' hzero
      rw [if_neg (hlog.not.mpr hnormal), unpack_packComponents s (by decide), if_pos rfl,
        dif_neg hnonzero]
      congr 1
      · rw [hleast]
  · rw [if_neg he, if_pos (by omega)]
    cases s <;> rfl

section Operations

variable {x y : Float}

lemma parts_eq_iff (hm : 0 < m) :
    parts x = .finite false m e ↔ x.toModel.unpack = .finite .positive m e hm := by
  unfold parts
  cases hx : x.toModel.unpack with
  | notANumber => simp
  | infinity s => simp
  | zero s =>
    simp only [Parts.finite.injEq, reduceCtorEq, iff_false]
    omega
  | finite s n f hn => cases s <;> simp [isNegative]

lemma parts_eq_infinite_iff :
    parts x = .infinite false ↔ x.toModel.unpack = .infinity .positive := by
  unfold parts
  cases hx : x.toModel.unpack with
  | infinity s => cases s <;> simp [isNegative]
  | _ => simp

lemma isDouble_of_parts (hm : 0 < m) (h : parts x = .finite false m e) :
    IsDouble m e ∧ e ≤ 971 :=
  isDouble_of_unpack ((parts_eq_iff hm).mp h)

lemma isNearest_of_pack (h : IsDouble m e) (hq : (interval m e).Contains q)
    (hx : x.toModel = Float.Model.pack (.finite .positive m e h.pos)) : IsNearest q x := by
  refine ⟨m, e, h, hq, ?_⟩
  have hunpack : x.toModel.unpack =
      if e ≤ 971 then .finite .positive m e h.pos else .infinity .positive := by
    rw [hx]
    exact unpack_pack .positive h
  split
  · next he =>
    rw [if_pos he] at hunpack
    exact (parts_eq_iff h.pos).mpr hunpack
  · next he =>
    rw [if_neg he] at hunpack
    exact parts_eq_infinite_iff.mpr hunpack

/-- A product has all the bits of a double unless both factors have the least exponent. -/
lemma IsDouble.two_pow_le_mul (hm : IsDouble m e) (hn : IsDouble n f)
    (h : ¬(e = -1074 ∧ f = -1074)) : 2 ^ 52 ≤ m * n := by
  have hnormal : 2 ^ 52 ≤ m ∨ 2 ^ 52 ≤ n := by
    have := hm.normal
    have := hn.normal
    omega
  obtain hle | hle := hnormal
  · exact hle.trans (Nat.le_mul_of_pos_right m hn.pos)
  · exact hle.trans (Nat.le_mul_of_pos_left n hm.pos)

theorem isNearest_mul (hm : 0 < m) (hn : 0 < n) (hx : parts x = .finite false m e)
    (hy : parts y = .finite false n f) (hq : dyadic 1 (-1074) ≤ dyadic m e * dyadic n f) :
    IsNearest (dyadic m e * dyadic n f) (x * y) := by
  have hpos : 0 < m * n := Nat.mul_pos hm hn
  have hexact : dyadic m e * dyadic n f / 2 ^ (e + f) = (m * n : Nat) := by
    rw [div_eq_iff (two_zpow_pos _).ne', zpow_add₀ (by norm_num), dyadic, dyadic]
    push_cast
    ring
  have hshift : e + f ≤ max ((m * n).log2 + 1 + (e + f) - 53) (-1074) := by
    have hmx := (isDouble_of_parts hm hx).1
    have hny := (isDouble_of_parts hn hy).1
    by_cases hsmall : e = -1074 ∧ f = -1074
    · omega
    · have := (Nat.le_log2 hpos.ne').mpr (hmx.two_pow_le_mul hny hsmall)
      omega
  obtain ⟨c, d, hc, hround, hdouble, hcontains⟩ :=
    exists_roundWithAccuracy (s := .positive) hpos hshift (show Describes _ .exact _ from hexact) hq
  refine isNearest_of_pack hdouble hcontains ?_
  change Float.Model.pack (UnpackedFloat.mul _ x.toModel.unpack y.toModel.unpack) = _
  rw [(parts_eq_iff hm).mp hx, (parts_eq_iff hn).mp hy, ← hround]
  rfl

/-- A dividend is shifted until the quotient has all the bits of a double. -/
lemma two_pow_le_quotient {k : Nat} (hm : 0 < m) (hn : 0 < n) (hk : n.log2 + 53 ≤ m.log2 + k) :
    2 ^ 52 ≤ m <<< k / n := by
  have hdivisor : n < 2 ^ (n.log2 + 1) := Nat.lt_log2_self
  have hdividend : 2 ^ m.log2 ≤ m := Nat.log2_self_le hm.ne'
  rw [Nat.le_div_iff_mul_le hn, Nat.shiftLeft_eq]
  calc 2 ^ 52 * n ≤ 2 ^ 52 * 2 ^ (n.log2 + 1) := Nat.mul_le_mul_left _ hdivisor.le
    _ = 2 ^ (52 + (n.log2 + 1)) := (pow_add 2 _ _).symm
    _ ≤ 2 ^ (m.log2 + k) := Nat.pow_le_pow_right (by decide) (by omega)
    _ = 2 ^ m.log2 * 2 ^ k := pow_add 2 _ _
    _ ≤ m * 2 ^ k := Nat.mul_le_mul_right _ hdividend

theorem isNearest_div (hm : 0 < m) (hn : 0 < n) (hx : parts x = .finite false m e)
    (hy : parts y = .finite false n f) (hq : dyadic 1 (-1074) ≤ dyadic m e / dyadic n f) :
    IsNearest (dyadic m e / dyadic n f) (x / y) := by
  obtain ⟨t, ht⟩ : ∃ t, t = min (e - f)
      (max ((m.log2 + 1 + e : Int) - (n.log2 + 1 + f) - 53) (-1074)) := ⟨_, rfl⟩
  obtain ⟨k, hk⟩ : ∃ k : Nat, (e - f - t).toNat = k := ⟨_, rfl⟩
  have hcore : divCore Format.binary64 m e n f =
      (m <<< k / n, t, accuracyOfFraction (m <<< k % n) n) := by
    rw [← hk, ht]
    rfl
  have hexact : dyadic m e / dyadic n f / 2 ^ t = ((m <<< k : Nat) : ℚ) / n := by
    have hsplit : e = f + t + k := by omega
    rw [Nat.shiftLeft_eq, dyadic, dyadic, hsplit, zpow_add₀ (by norm_num), zpow_add₀ (by norm_num),
      zpow_natCast]
    have := two_zpow_pos f
    have := two_zpow_pos t
    push_cast
    field_simp
  have hdescribes : Describes (m <<< k / n) (accuracyOfFraction (m <<< k % n) n)
      (dyadic m e / dyadic n f / 2 ^ t) := by
    rw [hexact]
    exact describes_accuracyOfFraction hn _
  have hpos : 0 < m <<< k / n ∧ t ≤ max ((m <<< k / n).log2 + 1 + t - 53) (-1074) := by
    by_cases hlow : t ≤ -1074
    · refine ⟨?_, by omega⟩
      have hone : 1 ≤ dyadic m e / dyadic n f / 2 ^ t := by
        rw [le_div_iff₀ (two_zpow_pos t), one_mul]
        have hpow : (2 : ℚ) ^ t ≤ 2 ^ (-1074 : Int) := zpow_le_zpow_right₀ (by norm_num) hlow
        have hleast : dyadic 1 (-1074) = 2 ^ (-1074 : Int) := by rw [dyadic, Nat.cast_one, one_mul]
        linarith
      have hbelow := hdescribes.bounds.2
      have : (0 : ℚ) < (m <<< k / n : Nat) := by linarith
      exact_mod_cast this
    · have hbig : 2 ^ 52 ≤ m <<< k / n := two_pow_le_quotient hm hn (by omega)
      have := (Nat.le_log2 (by omega)).mpr hbig
      exact ⟨by omega, by omega⟩
  obtain ⟨c, d, hc, hround, hdouble, hcontains⟩ :=
    exists_roundWithAccuracy (s := .positive) hpos.1 hpos.2 hdescribes hq
  refine isNearest_of_pack hdouble hcontains ?_
  change Float.Model.pack (UnpackedFloat.div _ x.toModel.unpack y.toModel.unpack) = _
  rw [(parts_eq_iff hm).mp hx, (parts_eq_iff hn).mp hy, ← hround]
  simp only [UnpackedFloat.div, hcore]
  rfl

lemma parts_div_of_infinite (hn : 0 < n) (hx : parts x = .infinite false)
    (hy : parts y = .finite false n f) : parts (x / y) = .infinite false := by
  have hmodel : UnpackedFloat.div Format.binary64 x.toModel.unpack y.toModel.unpack =
      .infinity .positive := by
    rw [parts_eq_infinite_iff.mp hx, (parts_eq_iff hn).mp hy]
    rfl
  rw [parts_eq_infinite_iff]
  change (Float.Model.pack (UnpackedFloat.div _ x.toModel.unpack y.toModel.unpack)).unpack = _
  rw [hmodel]
  rfl

lemma least_le_one : dyadic 1 (-1074) ≤ 1 := by
  rw [dyadic, Nat.cast_one, one_mul]
  exact zpow_le_one_of_nonpos₀ (by norm_num) (by decide)

lemma IsDouble.least_le (h : IsDouble m e) : dyadic 1 (-1074) ≤ dyadic m e := by
  have hone : (1 : ℚ) ≤ m := by exact_mod_cast h.pos
  have hpow : (2 : ℚ) ^ (-1074 : Int) ≤ 2 ^ e := zpow_le_zpow_right₀ (by norm_num) h.le_exponent
  exact mul_le_mul (by exact_mod_cast h.pos) hpow (two_zpow_pos _).le (by linarith)

/-- A double is nearest to itself. -/
lemma parts_of_isNearest (h : IsDouble m e) (he : e ≤ 971) (hx : IsNearest (dyadic m e) x) :
    parts x = .finite false m e := by
  obtain ⟨c, d, hc, hcontains, hparts⟩ := hx
  obtain ⟨rfl, rfl⟩ := hc.eq_of_contains h hcontains
  rw [hparts, if_pos he]

/-! ### Whole numbers -/

lemma exists_isDouble_natCast (hpos : 0 < n) (hlt : n < 2 ^ 53) :
    ∃ m e, IsDouble m e ∧ e ≤ 0 ∧ dyadic m e = n := by
  have hlog : n.log2 < 53 := (Nat.log2_lt hpos.ne').mpr hlt
  have hshift : dyadic n 0 = dyadic (n * 2 ^ (52 - n.log2)) (n.log2 - 52) := by
    rw [dyadic_eq_mul (by omega : (n.log2 : Int) - 52 ≤ 0),
      show (0 - ((n.log2 : Int) - 52)).toNat = 52 - n.log2 by omega, dyadic]
  have hlow : 2 ^ 52 ≤ n * 2 ^ (52 - n.log2) := by
    have := Nat.mul_le_mul_right (2 ^ (52 - n.log2)) (Nat.log2_self_le hpos.ne')
    rwa [← pow_add, show n.log2 + (52 - n.log2) = 52 by omega] at this
  have hhigh : n * 2 ^ (52 - n.log2) < 2 ^ 53 := by
    have := Nat.mul_lt_mul_of_pos_right (Nat.lt_log2_self (n := n))
      (Nat.two_pow_pos (52 - n.log2))
    rwa [← pow_add, show n.log2 + 1 + (52 - n.log2) = 53 by omega] at this
  refine ⟨n * 2 ^ (52 - n.log2), n.log2 - 52, ⟨by omega, hhigh, by omega, .inl hlow⟩, by omega, ?_⟩
  rw [← hshift, dyadic, zpow_zero, mul_one]

lemma isNearest_ofUInt64 (hpos : 0 < n) (hlt : n < 2 ^ 64) : IsNearest n n.toUInt64.toFloat := by
  obtain ⟨k, hk⟩ : ∃ k, (0 - Format.binary64.targetExponent (totalExponent n 0)).toNat = k :=
    ⟨_, rfl⟩
  have hround : UnpackedFloat.ofNat Format.binary64 n =
      roundWithAccuracy Format.binary64 .positive (n <<< k) (0 - k) .exact := by
    rw [← hk, UnpackedFloat.ofNat, UnpackedFloat.ofInt, UnpackedFloat.normalize,
      Int.compare_eq_gt.mpr (by omega)]
    rfl
  have hlog : (n <<< k).log2 = n.log2 + k := by
    rw [Nat.shiftLeft_eq, Nat.log2_eq_iff (by positivity)]
    constructor
    · rw [pow_add]
      exact Nat.mul_le_mul_right _ (Nat.log2_self_le hpos.ne')
    · rw [show n.log2 + k + 1 = n.log2 + 1 + k by omega, pow_add]
      exact Nat.mul_lt_mul_of_pos_right Nat.lt_log2_self (Nat.two_pow_pos k)
  have htarget := targetExponent_eq n 0
  have hexact : Describes (n <<< k) .exact ((n : ℚ) / 2 ^ (0 - k : Int)) := by
    rw [Describes, Nat.shiftLeft_eq, zero_sub, zpow_neg, zpow_natCast, div_inv_eq_mul]
    push_cast
    rfl
  have hone : (1 : ℚ) ≤ n := by exact_mod_cast hpos
  obtain ⟨m, e, hm, hrounded, hdouble, hcontains⟩ :=
    exists_roundWithAccuracy (s := .positive) (m := n <<< k) (e := 0 - k)
      (by rw [Nat.shiftLeft_eq]; positivity) (by omega) hexact (least_le_one.trans hone)
  refine isNearest_of_pack hdouble hcontains ?_
  have hword : n.toUInt64.toNat = n := by
    rw [Nat.toUInt64_eq]
    exact UInt64.toNat_ofNat_of_lt hlt
  change Float.Model.pack (UnpackedFloat.ofNat Format.binary64 n.toUInt64.toNat) = _
  rw [hword, hround, hrounded]

lemma parts_one : parts (Float.ofBits 0x3FF0000000000000) = .finite false (2 ^ 52) (-52) := rfl

/-- A positive whole number with 53 bits is a double. -/
theorem parts_ofNat (hpos : 0 < n) (hlt : n < 2 ^ 53) :
    ∃ m e, IsDouble m e ∧ dyadic m e = n ∧ parts (Float.ofNat n) = .finite false m e := by
  obtain ⟨m, e, hdouble, he, hvalue⟩ := exists_isDouble_natCast hpos hlt
  have hproduct : Float.ofNat n = n.toUInt64.toFloat * Float.ofBits 0x3FF0000000000000 := by
    have hscientific : Float.ofNat n = Float.ofScientific n false 0 := rfl
    rw [hscientific, Float.ofScientific, dif_pos ⟨hlt, by omega⟩]
    rfl
  have hone : dyadic (2 ^ 52) (-52) = 1 := by norm_num [dyadic]
  have hword := isNearest_ofUInt64 hpos (by omega)
  rw [← hvalue] at hword
  have hparts := parts_of_isNearest hdouble (by omega) hword
  refine ⟨m, e, hdouble, hvalue, parts_of_isNearest hdouble (by omega) ?_⟩
  have hmul := isNearest_mul hdouble.pos (by decide) hparts parts_one
  rw [hone, mul_one, ← hproduct] at hmul
  exact hmul hdouble.least_le

/-! ### Order -/

lemma compare_unpack (hm : 0 < m) (hn : 0 < n) (hx : parts x = .finite false m e)
    (hy : parts y = .finite false n f) :
    x.toModel.unpack.compare y.toModel.unpack = some (compare (dyadic m e) (dyadic n f)) := by
  have hmx := (isDouble_of_parts hm hx).1
  have hny := (isDouble_of_parts hn hy).1
  rw [(parts_eq_iff hm).mp hx, (parts_eq_iff hn).mp hy]
  simp only [UnpackedFloat.compare]
  obtain hlt | rfl | hgt := lt_trichotomy e f
  · rw [compare_lt_iff_lt.mpr hlt, compare_lt_iff_lt.mpr (hny.lt_of_exponent_lt hmx hlt)]
    rfl
  · have hunits : compare (dyadic m e) (dyadic n e) = compare m n := by
      rw [dyadic, dyadic]
      obtain hlt | rfl | hgt := lt_trichotomy m n
      · rw [compare_lt_iff_lt.mpr hlt, compare_lt_iff_lt]
        exact mul_lt_mul_of_pos_right (by exact_mod_cast hlt) (two_zpow_pos e)
      · rw [compare_eq_iff_eq.mpr rfl, compare_eq_iff_eq.mpr rfl]
      · rw [compare_gt_iff_gt.mpr hgt, compare_gt_iff_gt]
        exact mul_lt_mul_of_pos_right (by exact_mod_cast hgt) (two_zpow_pos e)
    rw [compare_eq_iff_eq.mpr rfl, hunits]
    rfl
  · rw [compare_gt_iff_gt.mpr hgt, compare_gt_iff_gt.mpr (hmx.lt_of_exponent_lt hny hgt)]
    rfl

lemma lt_iff (hm : 0 < m) (hn : 0 < n) (hx : parts x = .finite false m e)
    (hy : parts y = .finite false n f) : x < y ↔ dyadic m e < dyadic n f := by
  change decide (x.toModel < y.toModel) = true ↔ _
  rw [decide_eq_true_iff]
  change (x.toModel.unpack.compare y.toModel.unpack == some .lt) = true ↔ _
  rw [compare_unpack hm hn hx hy, beq_iff_eq, Option.some.injEq, compare_lt_iff_lt]

lemma le_iff (hm : 0 < m) (hn : 0 < n) (hx : parts x = .finite false m e)
    (hy : parts y = .finite false n f) : x ≤ y ↔ dyadic m e ≤ dyadic n f := by
  change decide (x.toModel ≤ y.toModel) = true ↔ _
  rw [decide_eq_true_iff]
  change (x.toModel.unpack.compare y.toModel.unpack).any (·.isLE) = true ↔ _
  rw [compare_unpack hm hn hx hy, Option.any_some, Ordering.isLE_iff_ne_gt]
  exact compare_le_iff_le

lemma beq_zero_of_infinite (hx : parts x = .infinite false) : (x == 0.0) = false := by
  change x.toModel.unpack.beq (.zero .positive) = false
  rw [parts_eq_infinite_iff.mp hx]
  rfl

lemma beq_zero_of_parts (hm : 0 < m) (hx : parts x = .finite false m e) : (x == 0.0) = false := by
  change x.toModel.unpack.beq (.zero .positive) = false
  rw [(parts_eq_iff hm).mp hx]
  rfl

lemma exists_parts_of_pos (hfinite : x.isFinite = true) (hpos : 0.0 < x) :
    ∃ m e, IsDouble m e ∧ e ≤ 971 ∧ parts x = .finite false m e := by
  have hcompare : (UnpackedFloat.zero .positive).compare x.toModel.unpack = some .lt := by
    have hlt := decide_eq_true_iff.mp (show decide ((0.0 : Float).toModel < x.toModel) = true from hpos)
    exact beq_iff_eq.mp hlt
  change x.toModel.unpack.isFinite = true at hfinite
  cases hx : x.toModel.unpack with
  | notANumber => rw [hx] at hfinite; cases hfinite
  | infinity s => rw [hx] at hfinite; cases hfinite
  | zero s => rw [hx] at hcompare; cases hcompare
  | finite s m e hm =>
    obtain ⟨hdouble, he⟩ := isDouble_of_unpack hx
    rw [hx] at hcompare
    cases s with
    | negative => cases hcompare
    | positive => exact ⟨m, e, hdouble, he, (parts_eq_iff hm).mpr hx⟩

/-! ### Rounding to whole numbers -/

lemma halfUp_succ (m k : Nat) : halfUp m (k + 1) = (m + 2 ^ k) / 2 ^ (k + 1) := by
  rw [halfUp, if_neg (Nat.succ_ne_zero k), Nat.shiftRight_eq_div_pow, Nat.one_shiftLeft,
    Nat.add_sub_cancel]

lemma halfUp_pos_iff {k : Nat} : 0 < halfUp m (k + 1) ↔ 2 ^ k ≤ m := by
  rw [halfUp_succ, pow_succ, Nat.div_pos_iff]
  have := Nat.two_pow_pos k
  omega

lemma halfUp_lt (hm : m < 2 ^ 53) (k : Nat) : halfUp m (k + 1) < 2 ^ 53 := by
  have hpos := Nat.two_pow_pos k
  rw [halfUp_succ, pow_succ, Nat.div_lt_iff_lt_mul (by omega)]
  omega

/-- A number from one half on is rounded to a positive whole number, and a smaller one to zero. -/
theorem round_spec (h : IsDouble m e) (hx : parts x = .finite false m e) :
    if dyadic m e < 1 / 2 then round x = Float.ofNat 0
    else ∃ n c d, 0 < n ∧ IsDouble c d ∧ dyadic c d = (n : Nat) ∧
      parts (round x) = .finite false c d := by
  have hround : round x = if 0 ≤ e then x else Float.ofNat (halfUp m (-e).toNat) := by
    rw [round, hx]
    rfl
  by_cases he : 0 ≤ e
  · have hwhole : dyadic m e = (m * 2 ^ e.toNat : Nat) := by
      rw [dyadic_eq_mul he, zpow_zero, mul_one, sub_zero]
    have hone : 0 < m * 2 ^ e.toNat := Nat.mul_pos h.pos (Nat.two_pow_pos _)
    have : (1 : ℚ) ≤ (m * 2 ^ e.toNat : Nat) := by exact_mod_cast hone
    rw [if_neg (by rw [hwhole]; linarith), hround, if_pos he]
    exact ⟨_, m, e, hone, h, hwhole, hx⟩
  · obtain ⟨k, hk⟩ : ∃ k : Nat, (-e).toNat = k + 1 := ⟨(-e).toNat - 1, by omega⟩
    have hvalue : dyadic m e = m / 2 ^ (k + 1) := by
      rw [dyadic, show e = -((k + 1 : Nat) : Int) by omega, zpow_neg, zpow_natCast, div_eq_mul_inv]
    have hhalf : dyadic m e < 1 / 2 ↔ ¬0 < halfUp m (k + 1) := by
      rw [halfUp_pos_iff, not_le, hvalue, pow_succ,
        div_lt_div_iff₀ (by positivity) (by norm_num), one_mul, mul_lt_mul_iff_left₀ (by norm_num)]
      norm_cast
    rw [hround, if_neg he, hk]
    split
    · next hless => rw [Nat.eq_zero_of_not_pos (hhalf.mp hless)]
    · next hmore =>
      have hpos : 0 < halfUp m (k + 1) := not_not.mp (hhalf.not.mp hmore)
      obtain ⟨c, d, hdouble, hwhole, hparts⟩ :=
        parts_ofNat hpos (halfUp_lt h.lt k)
      exact ⟨_, c, d, hpos, hdouble, hwhole, hparts⟩

end Operations

end MapStyle.Decimal
