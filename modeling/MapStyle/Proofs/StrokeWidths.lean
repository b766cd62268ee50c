import MapStyle.Proofs.DecimalNumbers
import MapStyle.Proofs.DoubleArithmetic
import MapStyle.Proofs.Paint
import MapStyle.Proofs.ShortestDecimals

/-!
# Stroke widths in drawings

How the widths of strokes are written: as numbers of thousandths, made by a product, a rounding and
a quotient of doubles. Main statement: a valid width is written as a plain numeral of a positive
number exactly from half a thousandth up to the last double that has a finite thousandfold.
-/

namespace MapStyle

namespace Decimal

open Text

variable {m n c : Nat} {d e f : Int} {q : ℚ} {x : Float} {whole fraction : List Char}

/-! ### Positional text -/

/-- Whether a text is digits, followed by a point and one to three more digits if there is a point,
and the number that it denotes. -/
def IsPlainNumeral (text : List Char) (value : ℚ) : Prop :=
  ∃ whole fraction, whole ≠ [] ∧ IsDigits (whole ++ fraction) ∧ fraction.length ≤ 3 ∧
    text = whole ++ (if fraction = [] then [] else '.' :: fraction) ∧
    value = (Nat.ofDigitChars 10 (whole ++ fraction) 0 : ℚ) / 10 ^ fraction.length

lemma isDigits_append (h : IsDigits whole) (h' : IsDigits fraction) :
    IsDigits (whole ++ fraction) := by
  intro c hc
  rcases List.mem_append.mp hc with hc | hc
  exacts [h c hc, h' c hc]

lemma isDigits_zeros (n : Nat) : IsDigits (zeros n) := by
  intro c hc
  rw [List.eq_of_mem_replicate hc]
  rfl

section Digits

variable {digits : List Char} {k : Nat}

lemma isPlainNumeral_point_before (hne : digits ≠ []) (h : IsDigits digits)
    (hk : k + digits.length ≤ 3) :
    IsPlainNumeral ('0' :: '.' :: zeros k ++ digits)
      (Nat.ofDigitChars 10 digits 0 / 10 ^ (k + digits.length)) := by
  have hsome : zeros k ++ digits ≠ [] := List.append_ne_nil_of_right_ne_nil _ hne
  have hlength : (zeros k ++ digits).length = k + digits.length := by
    rw [List.length_append, zeros, List.length_replicate]
  have hread : Nat.ofDigitChars 10 (['0'] ++ (zeros k ++ digits)) 0 =
      Nat.ofDigitChars 10 digits 0 := by
    rw [Nat.ofDigitChars_append, Nat.ofDigitChars_append, zeros, Nat.ofDigitChars_replicate_zero]
    rfl
  refine ⟨['0'], zeros k ++ digits, List.cons_ne_nil _ _, ?_, by omega, ?_, ?_⟩
  · exact isDigits_append (isDigits_zeros 1) (isDigits_append (isDigits_zeros k) h)
  · rw [if_neg hsome]
    rfl
  · rw [hread, hlength]

lemma isPlainNumeral_point_behind (hne : digits ≠ []) (h : IsDigits digits) :
    IsPlainNumeral (digits ++ zeros k) (Nat.ofDigitChars 10 digits 0 * 10 ^ k) := by
  refine ⟨digits ++ zeros k, [], List.append_ne_nil_of_left_ne_nil hne _, ?_, by simp, by simp, ?_⟩
  · rw [List.append_nil]
    exact isDigits_append h (isDigits_zeros k)
  · rw [List.append_nil, Nat.ofDigitChars_append, zeros, Nat.ofDigitChars_replicate_zero, mul_comm]
    simp

lemma isPlainNumeral_point_among (h : IsDigits digits) (hpos : 0 < k) (hk : k < digits.length)
    (hlength : digits.length - k ≤ 3) :
    IsPlainNumeral (digits.take k ++ '.' :: digits.drop k)
      (Nat.ofDigitChars 10 digits 0 / 10 ^ (digits.length - k)) := by
  have hbefore : digits.take k ≠ [] := by
    apply List.ne_nil_of_length_pos
    rw [List.length_take]
    omega
  have hbehind : digits.drop k ≠ [] := by
    apply List.ne_nil_of_length_pos
    rw [List.length_drop]
    omega
  refine ⟨digits.take k, digits.drop k, hbefore, ?_, ?_, by rw [if_neg hbehind], ?_⟩
  · rw [List.take_append_drop]
    exact h
  · rw [List.length_drop]
    exact hlength
  · rw [List.take_append_drop, List.length_drop]

end Digits

/-- Digits with zeros and a point wherever the exponent puts them. -/
lemma isPlainNumeral_withPoint (n : Nat) (he : -3 ≤ e) :
    IsPlainNumeral (withPoint false (natDigits n) ((natDigits n).length + e)) (n * 10 ^ e) := by
  have hdigits : IsDigits (natDigits n) := fun c hc =>
    Nat.isDigit_of_mem_toDigits (by decide) (by decide) hc
  have hne : natDigits n ≠ [] := Nat.toDigits_ne_nil
  have hpos := List.length_pos_of_ne_nil hne
  have hread : Nat.ofDigitChars 10 (natDigits n) 0 = n := Nat.ofDigitChars_ten_toDigits
  have hscaled (k : Nat) (hk : e = -(k : Int)) : (n * 10 ^ e : ℚ) = n / 10 ^ k := by
    rw [hk, zpow_neg, zpow_natCast, div_eq_mul_inv]
  generalize natDigits n = digits at *
  unfold withPoint
  by_cases hbefore : (digits.length : Int) + e ≤ 0
  · rw [if_pos hbefore, hscaled ((-(digits.length + e)).toNat + digits.length) (by omega), ← hread]
    exact isPlainNumeral_point_before hne hdigits (by omega)
  · rw [if_neg hbefore]
    by_cases hbehind : (digits.length : Int) ≤ digits.length + e
    · obtain ⟨k, hk⟩ : ∃ k, k = (digits.length + e).toNat - digits.length := ⟨_, rfl⟩
      have hexponent : e = (k : Int) := by omega
      rw [if_pos hbehind, if_neg Bool.false_ne_true, List.append_nil, ← hk, hexponent, zpow_natCast,
        ← hread]
      exact isPlainNumeral_point_behind hne hdigits
    · obtain ⟨k, hk⟩ : ∃ k, k = (digits.length + e).toNat := ⟨_, rfl⟩
      rw [if_neg hbehind, ← hk, hscaled (digits.length - k) (by omega), ← hread]
      exact isPlainNumeral_point_among hdigits (by omega) (by omega) (by omega)

/-! ### Thousandths -/

/-- `2 ^ 62 / 1000`, rounded down: the mantissa of the last double before a thousandth of a power
of two. -/
def belowThousandth : Nat := 4611686018427387

lemma isDouble_belowThousandth (hd : -1074 ≤ d) : IsDouble belowThousandth d :=
  ⟨by decide, by decide, hd, .inl (by decide)⟩

/-- A thousandfold is rounded to a power of two or more exactly if it is that of a double beyond the
last one before the thousandth of the power. -/
lemma le_thousandfold_iff (h : IsDouble m e) (hc : IsDouble c f)
    (hcontains : (interval c f).Contains (dyadic m e * 1000)) (hd : -1074 ≤ d) :
    2 ^ 62 * 2 ^ d ≤ dyadic c f ↔ dyadic belowThousandth d < dyadic m e := by
  have hpos := two_zpow_pos d
  constructor
  · intro hle
    by_contra hless
    have hbefore : IsDouble (2 ^ 53 - 1) (d + (9 : Nat)) :=
      ⟨by decide, by decide, by omega, .inl (by decide)⟩
    have hvalue : dyadic (2 ^ 53 - 1) (d + (9 : Nat)) = (2 ^ 62 - 2 ^ 9) * 2 ^ d := by
      rw [dyadic, two_zpow_add]
      norm_num
      ring
    have hbelow : dyadic m e * 1000 ≤ dyadic (2 ^ 53 - 1) (d + (9 : Nat)) := by
      rw [dyadic, belowThousandth] at hless
      push_cast at hless
      rw [hvalue]
      linarith
    have := hc.ge_of_contains hbefore hcontains hbelow
    linarith
  · intro hmore
    have hpower : IsDouble (2 ^ 52) (d + (10 : Nat)) :=
      ⟨by decide, by decide, by omega, .inl (by decide)⟩
    have hvalue : dyadic (2 ^ 52) (d + (10 : Nat)) = 2 ^ 62 * 2 ^ d := by
      rw [dyadic, two_zpow_add]
      norm_num
      ring
    have habove : dyadic (2 ^ 52) (d + (10 : Nat)) ≤ dyadic m e * 1000 := by
      have hnext := (isDouble_belowThousandth hd).succ_le h hmore
      rw [dyadic, belowThousandth] at hnext
      push_cast at hnext
      rw [hvalue]
      linarith
    rw [← hvalue]
    exact hc.le_of_contains hpower hcontains habove

/-- The double nearest to one thousandth is above it. -/
lemma one_thousandth_le (h : IsDouble m e) (hq : (interval m e).Contains q) (hle : 1 / 1000 ≤ q) :
    1 / 1000 ≤ dyadic m e := by
  have hbelow := isDouble_belowThousandth (d := -62) (by decide)
  have hhigh := (bounds_of_contains h.pos hq).2
  obtain hless | hequal | hmore := lt_trichotomy (dyadic m e) (dyadic belowThousandth (-62))
  · have := h.high_lt hbelow hless
    have : dyadic belowThousandth (-62) < 1 / 1000 := by norm_num [dyadic, belowThousandth]
    linarith
  · obtain ⟨rfl, rfl⟩ := h.eq_of_dyadic_eq hbelow hequal
    have : ((belowThousandth : ℚ) + 1 / 2) * 2 ^ (-62 : Int) < 1 / 1000 := by norm_num [belowThousandth]
    linarith
  · have := hbelow.succ_le h hmore
    have : 1 / 1000 < dyadic (belowThousandth + 1) (-62) := by norm_num [dyadic, belowThousandth]
    linarith

lemma parts_thousand : parts 1000.0 = .finite false 8796093022208000 (-43) := rfl

lemma dyadic_thousand : dyadic 8796093022208000 (-43) = 1000 := by
  norm_num [dyadic]

lemma isNearest_thousandfold (h : IsDouble m e) (hx : parts x = .finite false m e) :
    IsNearest (dyadic m e * 1000) (x * 1000.0) := by
  have hleast := h.least_le
  have hpos := dyadic_pos h.pos e
  have hproduct := isNearest_mul h.pos (by decide) hx parts_thousand
  rw [dyadic_thousand] at hproduct
  exact hproduct (by linarith)

lemma isNearest_thousandth (hn : 0 < n) (h : IsDouble m e) (hvalue : dyadic m e = n)
    (hx : parts x = .finite false m e) : IsNearest (n / 1000) (x / 1000.0) := by
  have hone : (1 : ℚ) ≤ n := by exact_mod_cast hn
  have hleast : dyadic 1 (-1074) ≤ 1 / 1000 := by
    have hpow : (2 : ℚ) ^ (-1074 : Int) ≤ 2 ^ (-10 : Int) :=
      zpow_le_zpow_right₀ (by norm_num) (by decide)
    rw [dyadic, Nat.cast_one, one_mul]
    exact hpow.trans (by norm_num)
  have hquotient := isNearest_div h.pos (by decide) hx parts_thousand
  rw [dyadic_thousand, hvalue] at hquotient
  exact hquotient (by linarith)

/-- A number of thousandths is written with three digits after the point at most. -/
lemma isPlainNumeral_plain (hn : 0 < n) (h : IsDouble m e)
    (hcontains : (interval m e).Contains (n / 1000)) (hx : parts x = .finite false m e) :
    ∃ value, 0 < value ∧ IsPlainNumeral (plain.write x) value := by
  have hone : (1 : ℚ) ≤ n := by exact_mod_cast hn
  have hposition : -3 < pointPosition m e := by
    have habove := one_thousandth_le h hcontains (by linarith)
    have hbelow := (pointPosition_bounds h.pos e).2
    have hpowers : (10 : ℚ) ^ (-3 : Int) < 10 ^ pointPosition m e := by
      norm_num
      linarith
    exact (zpow_lt_zpow_iff_right₀ (by norm_num)).mp hpowers
  obtain ⟨hvalue, hfirst⟩ := shortest_spec .up h
  have hexponent : -3 ≤ (shortest .up m e).exponent := by
    apply hfirst n (-3) hposition
    rwa [show (10 : ℚ) ^ (-3 : Int) = 1 / 1000 by norm_num, mul_one_div]
  have hwrite : plain.write x = withPoint false (natDigits (shortest .up m e).coefficient)
      ((natDigits (shortest .up m e).coefficient).length + (shortest .up m e).exponent) := by
    rw [Layout.write, hx]
    simp [Layout.magnitude, h.pos.ne', plain]
  refine ⟨(shortest .up m e).value, pos_of_contains h.pos hvalue, ?_⟩
  rw [hwrite]
  exact isPlainNumeral_withPoint _ hexponent

end Decimal

namespace Drawing

open Decimal

variable {m : Nat} {e : Int} {x : Float}

/-- A thousandfold is a half or more from one double on, and is infinite beyond another one. -/
lemma exists_thousandfold (h : IsDouble m e) (hx : parts x = .finite false m e) :
    ∃ c f, IsDouble c f ∧ (1 / 2 ≤ dyadic c f ↔ dyadic belowThousandth (-63) < dyadic m e) ∧
      (f ≤ 971 ↔ dyadic m e ≤ dyadic belowThousandth 962) ∧
      parts (x * 1000.0) = if f ≤ 971 then .finite false c f else .infinite false := by
  obtain ⟨c, f, hc, hcontains, hy⟩ := isNearest_thousandfold h hx
  have hhalf := le_thousandfold_iff h hc hcontains (d := -63) (by decide)
  have hlimit := le_thousandfold_iff h hc hcontains (d := 962) (by decide)
  have hend : (2 : ℚ) ^ (1024 : Int) = 2 ^ 62 * 2 ^ (962 : Int) := two_zpow_add 962 62
  refine ⟨c, f, hc, ?_, ?_, hy⟩
  · rw [← hhalf]
    norm_num
  · rw [hc.exponent_le_iff, hend, ← not_lt, ← hlimit, not_le]

lemma number_eq_zero (h : IsDouble m e) (hx : parts x = .finite false m e)
    (hle : dyadic m e ≤ dyadic belowThousandth (-63)) : number x = ['0'] := by
  obtain ⟨c, f, hc, hhalf, hlimit, hy⟩ := exists_thousandfold h hx
  have hless : dyadic c f < 1 / 2 := not_le.mp (hhalf.not.mpr (not_lt.mpr hle))
  have hends : dyadic belowThousandth (-63) < dyadic belowThousandth 962 :=
    (isDouble_belowThousandth (by decide)).lt_of_exponent_lt (isDouble_belowThousandth (by decide))
      (by decide)
  rw [if_pos (hlimit.mpr (hle.trans hends.le))] at hy
  have hround := round_spec hc hy
  rw [if_pos hless] at hround
  have hzero : (Float.ofNat 0 / 1000.0 == 0.0) = true := by decide +kernel
  rw [number, toThousandths, hround, if_pos hzero]

lemma number_eq_inf (h : IsDouble m e) (hx : parts x = .finite false m e)
    (hlt : dyadic belowThousandth 962 < dyadic m e) : number x = ['i', 'n', 'f'] := by
  obtain ⟨c, f, hc, hhalf, hlimit, hy⟩ := exists_thousandfold h hx
  rw [if_neg (hlimit.not.mpr (not_le.mpr hlt))] at hy
  have hround : round (x * 1000.0) = x * 1000.0 := by
    rw [Decimal.round, hy]
  have hquotient := parts_div_of_infinite (by decide) hy parts_thousand
  rw [number, toThousandths, hround, if_neg, Layout.write, hquotient]
  · rfl
  · rw [beq_zero_of_infinite hquotient]
    exact Bool.false_ne_true

lemma isPlainNumeral_number (h : IsDouble m e) (hx : parts x = .finite false m e)
    (hlow : dyadic belowThousandth (-63) < dyadic m e)
    (hhigh : dyadic m e ≤ dyadic belowThousandth 962) :
    ∃ value, 0 < value ∧ IsPlainNumeral (number x) value := by
  obtain ⟨c, f, hc, hhalf, hlimit, hy⟩ := exists_thousandfold h hx
  rw [if_pos (hlimit.mpr hhigh)] at hy
  have hround := round_spec hc hy
  rw [if_neg (not_lt.mpr (hhalf.mpr hlow))] at hround
  obtain ⟨n, a, b, hn, ha, hwhole, hparts⟩ := hround
  obtain ⟨u, v, hu, hcontains, hquotient⟩ := isNearest_thousandth hn ha hwhole hparts
  have hfinite : v ≤ 971 := by
    have hb := (isDouble_of_parts ha.pos hparts).2
    rw [hu.exponent_le_iff]
    rw [ha.exponent_le_iff] at hb
    have hone : (1 : ℚ) ≤ n := by exact_mod_cast hn
    refine (hu.ge_of_contains ha hcontains ?_).trans_lt hb
    rw [hwhole]
    linarith
  rw [if_pos hfinite] at hquotient
  have hwrite : number x = plain.write (toThousandths x) := by
    rw [number, if_neg]
    rw [toThousandths, beq_zero_of_parts hu.pos hquotient]
    exact Bool.false_ne_true
  rw [hwrite]
  exact isPlainNumeral_plain hn hu hcontains hquotient

/-! ### Widths -/

lemma parts_least : parts 0.0005 = .finite false (belowThousandth + 1) (-63) := rfl

lemma parts_most : parts 1.7976931348623156e305 = .finite false belowThousandth 962 := by
  have hbits : (1.7976931348623156e305 : Float) = Float.ofBits 0x7F50624DD2F1A9FB := by
    decide +kernel
  rw [hbits]
  rfl

lemma lt_least_iff (h : IsDouble m e) (hx : parts x = .finite false m e) :
    x < 0.0005 ↔ dyadic m e ≤ dyadic belowThousandth (-63) := by
  have hbelow := isDouble_belowThousandth (d := -63) (by decide)
  rw [lt_iff h.pos (Nat.succ_pos _) hx parts_least]
  constructor
  · intro hless
    by_contra hmore
    exact hless.not_ge (hbelow.succ_le h (not_le.mp hmore))
  · intro hle
    refine hle.trans_lt ?_
    norm_num [dyadic]

lemma least_le_iff (h : IsDouble m e) (hx : parts x = .finite false m e) :
    0.0005 ≤ x ↔ dyadic belowThousandth (-63) < dyadic m e := by
  have hfloat := lt_iff h.pos (Nat.succ_pos _) hx parts_least
  rw [le_iff (Nat.succ_pos _) h.pos parts_least hx, ← not_lt, ← hfloat, lt_least_iff h hx, not_le]

lemma not_isPlainNumeral_inf (value : ℚ) : ¬IsPlainNumeral ['i', 'n', 'f'] value := by
  rintro ⟨whole, fraction, hwhole, hdigits, -, htext, -⟩
  obtain ⟨c, rest, rfl⟩ := List.exists_cons_of_ne_nil hwhole
  obtain rfl : 'i' = c := (List.cons.inj htext).1
  exact absurd (hdigits 'i' (by simp)) (by decide)

lemma eq_zero_of_isPlainNumeral {value : ℚ} (h : IsPlainNumeral ['0'] value) : value = 0 := by
  obtain ⟨whole, fraction, hwhole, -, -, htext, rfl⟩ := h
  obtain ⟨c, rest, rfl⟩ := List.exists_cons_of_ne_nil hwhole
  obtain ⟨rfl, hnil⟩ := List.cons.inj htext
  obtain ⟨rfl, hpoint⟩ := List.append_eq_nil_iff.mp hnil.symm
  split at hpoint
  · next hnone =>
    rw [hnone]
    have hread : Nat.ofDigitChars 10 (['0'] ++ []) 0 = 0 := rfl
    rw [hread, Nat.cast_zero, zero_div]
  · cases hpoint

/-- The width of a valid stroke is written as a plain numeral of a positive number exactly if it is
neither below half a thousandth nor so large that its thousandfold is beyond all doubles. Below it
is written as no width, and above it as infinity. -/
theorem stroke_width_text {l : Line} (hl : l.isValid = true) {p : Path Float} {s : Stroke}
    (hp : p.stroke = some s) (hs : s.width = l.width) :
    ∃ text, p.attributes.lookup "stroke-width" = some text ∧
      ((∃ value, 0 < value ∧ IsPlainNumeral text.toList value) ↔
        0.0005 ≤ l.width ∧ l.width ≤ 1.7976931348623156e305) ∧
      (l.width < 0.0005 → text = "0") ∧ (1.7976931348623156e305 < l.width → text = "inf") := by
  obtain ⟨hfinite, hpos⟩ := Bool.and_eq_true_iff.mp hl
  obtain ⟨m, e, h, -, hx⟩ := exists_parts_of_pos hfinite (of_decide_eq_true hpos)
  have hlookup : p.attributes.lookup "stroke-width" = some (String.ofList (number l.width)) := by
    rw [lookup_of_ne_fill p (by decide), hp, Option.bind_some, (lookup_stroke s).2.2.1, hs]
  have hmost := le_iff h.pos (by decide) hx parts_most
  have hmore := lt_iff (by decide) h.pos parts_most hx
  refine ⟨_, hlookup, ?_, ?_, ?_⟩
  · rw [String.toList_ofList, least_le_iff h hx, hmost]
    constructor
    · intro ⟨value, hvalue, htext⟩
      constructor
      · by_contra hle
        rw [number_eq_zero h hx (not_lt.mp hle)] at htext
        exact hvalue.ne' (eq_zero_of_isPlainNumeral htext)
      · by_contra hlt
        rw [number_eq_inf h hx (not_le.mp hlt)] at htext
        exact not_isPlainNumeral_inf value htext
    · intro ⟨hlow, hhigh⟩
      exact isPlainNumeral_number h hx hlow hhigh
  · intro hless
    rw [number_eq_zero h hx ((lt_least_iff h hx).mp hless)]
  · intro hlarge
    rw [number_eq_inf h hx (hmore.mp hlarge)]

/-- A straight path with a stroke. -/
def strokedPath (s : Stroke) : Path Float :=
  ⟨[.move ⟨0.0, 0.0⟩, .line ⟨1.0, 0.0⟩], none, some s⟩

/-- The thinnest stroke that is written as one. -/
def thinnest : Line := ⟨0.0005, .black, false⟩

theorem stroke_width_text_thinnest :
    thinnest.isValid = true ∧
    (strokedPath (Export.strokeOf thinnest)).stroke = some (Export.strokeOf thinnest) ∧
    (Export.strokeOf thinnest).width = thinnest.width ∧
    ∃ text, (strokedPath (Export.strokeOf thinnest)).attributes.lookup "stroke-width" = some text ∧
      ∃ value, 0 < value ∧ IsPlainNumeral text.toList value := by
  have hvalid : thinnest.isValid = true := by decide +kernel
  obtain ⟨text, hlookup, hiff, -, -⟩ :=
    stroke_width_text hvalid (p := strokedPath (Export.strokeOf thinnest)) rfl rfl
  exact ⟨hvalid, rfl, rfl, text, hlookup, hiff.mpr ⟨by decide +kernel, by decide +kernel⟩⟩

/-- A stroke thinner than any that is written as one. -/
def hairline : Line := ⟨0.0004, .black, false⟩

/-- A stroke wider than any that is written as one. -/
def flood : Line := ⟨1e306, .black, false⟩

/-- One valid stroke is written with no width, and another one with an infinite width. -/
theorem stroke_width_lost :
    (hairline.isValid = true ∧
      (strokedPath (Export.strokeOf hairline)).attributes.lookup "stroke-width" = some "0" ∧
      ¬∃ value, 0 < value ∧ IsPlainNumeral "0".toList value) ∧
    (flood.isValid = true ∧
      (strokedPath (Export.strokeOf flood)).attributes.lookup "stroke-width" = some "inf" ∧
      ¬∃ value, 0 < value ∧ IsPlainNumeral "inf".toList value) := by
  refine ⟨⟨by decide +kernel, by decide +kernel, ?_⟩, by decide +kernel, by decide +kernel, ?_⟩
  · intro ⟨value, hpos, htext⟩
    exact hpos.ne' (eq_zero_of_isPlainNumeral htext)
  · intro ⟨value, hpos, htext⟩
    exact not_isPlainNumeral_inf value htext

end Drawing

end MapStyle
