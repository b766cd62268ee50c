import MapStyle.Color.Css
import MapStyle.Proofs.Opacity

/-!
# Colors read back from their text

A color is written with 8 bits for each component and reads back as the color of these bits. The
bits of that color are the same, so that every text shows both colors alike.
-/

namespace MapStyle.Color

/-- The color with each component rounded to 8 bits. -/
def rounded (c : Color) : Color :=
  ofRgba8 c.toRgba8

lemma toByte_ofByte (n : UInt8) : toByte (ofByte n) = n := by
  apply forall_byte (P := fun n => toByte (ofByte n) = n)
  decide +kernel

lemma toRgba8_ofRgba8 (c : Rgba8) : (ofRgba8 c).toRgba8 = c := by
  simp [toRgba8, ofRgba8, toByte_ofByte]

lemma toRgba8_rounded (c : Color) : c.rounded.toRgba8 = c.toRgba8 :=
  toRgba8_ofRgba8 c.toRgba8

@[simp]
lemma opaqueHex_rounded (c : Color) : c.rounded.opaqueHex = c.opaqueHex := by
  unfold opaqueHex
  rw [toRgba8_rounded]

@[simp]
lemma hex_rounded (c : Color) : c.rounded.hex = c.hex := by
  unfold hex
  rw [toRgba8_rounded, opaqueHex_rounded]

@[simp]
lemma opacity_rounded (c : Color) : c.rounded.opacity = c.opacity := by
  unfold opacity
  rw [toRgba8_rounded]

/-! ### Hexadecimal digits -/

/-- What a reader of colors has to know of a hexadecimal digit. -/
lemma digitChar_of_lt : ∀ n < 16, Css.isHexDigit (Nat.digitChar n) = true ∧
    Text.isBlank (Nat.digitChar n) = false ∧ Css.hexValue (Nat.digitChar n) = n := by
  decide

lemma digits_hexByte {n : UInt8} {c : Char} (h : c ∈ hexByte n) :
    Css.isHexDigit c = true ∧ Text.isBlank c = false := by
  have hn := n.toNat_lt
  simp only [hexByte, List.mem_cons, List.not_mem_nil, or_false] at h
  rcases h with rfl | rfl
  · obtain ⟨hdigit, hblank, -⟩ := digitChar_of_lt (n.toNat / 16) (by omega)
    exact ⟨hdigit, hblank⟩
  · obtain ⟨hdigit, hblank, -⟩ := digitChar_of_lt (n.toNat % 16) (by omega)
    exact ⟨hdigit, hblank⟩

lemma hexPair_hexByte (n : UInt8) :
    Css.hexPair (Nat.digitChar (n.toNat / 16)) (Nat.digitChar (n.toNat % 16)) = n := by
  have hn := n.toNat_lt
  obtain ⟨-, -, hhigh⟩ := digitChar_of_lt (n.toNat / 16) (by omega)
  obtain ⟨-, -, hlow⟩ := digitChar_of_lt (n.toNat % 16) (by omega)
  rw [Css.hexPair, hhigh, hlow, Nat.div_add_mod, UInt8.ofNat_toNat]

lemma dropWhile_isBlank {text : List Char} (h : ∀ c ∈ text, Text.isBlank c = false) :
    text.dropWhile Text.isBlank = text := by
  cases text with
  | nil => rfl
  | cons c text => rw [List.dropWhile_cons_of_neg (by simp [h c List.mem_cons_self])]

lemma trim_eq_self {text : List Char} (h : ∀ c ∈ text, Text.isBlank c = false) :
    Text.trim text = text := by
  have hreverse : ∀ c ∈ text.reverse, Text.isBlank c = false := fun c hc =>
    h c (List.mem_reverse.mp hc)
  rw [Text.trim, dropWhile_isBlank h, dropWhile_isBlank hreverse, List.reverse_reverse]

lemma ofCss_digits {digits : List Char} {c : Color}
    (hdigits : ∀ d ∈ digits, Css.isHexDigit d = true ∧ Text.isBlank d = false)
    (hlength : digits.length ≤ 8) (hc : Css.ofHexDigits? digits = some c) :
    ofCss (String.ofList ('#' :: digits)) = .ok c := by
  have htrim : Text.trim ('#' :: digits) = '#' :: digits := by
    apply trim_eq_self
    intro d hd
    rcases List.mem_cons.mp hd with rfl | hd
    · rfl
    · exact (hdigits d hd).2
  have htake : (digits.take 8).takeWhile Css.isHexDigit = digits := by
    rw [List.take_of_length_le hlength, List.takeWhile_eq_self_iff]
    exact fun d hd => (hdigits d hd).1
  have hread : Css.hexColor digits = .ok (c, []) := by
    unfold Css.hexColor
    simp only [htake, hc, List.drop_length]
  rw [ofCss, String.toList_ofList, htrim]
  simp only [hread]
  rfl

/-- The bytes that the text of a color shows. -/
def shownBytes (c : Rgba8) : List UInt8 :=
  [c.red, c.green, c.blue] ++ if c.alpha = 255 then [] else [c.alpha]

lemma hex_eq (c : Color) :
    c.hex = String.ofList ('#' :: (shownBytes c.toRgba8).flatMap hexByte) := by
  apply String.toList_injective
  by_cases h : c.toRgba8.alpha = 255 <;> simp [hex, opaqueHex, shownBytes, h]

lemma ofHexDigits?_shownBytes (c : Rgba8) :
    Css.ofHexDigits? ((shownBytes c).flatMap hexByte) = some (ofRgba8 c) := by
  by_cases h : c.alpha = 255
  · have hc : ofRgba8 c = ofRgb8 c.red c.green c.blue := by rw [ofRgb8, ← h]
    simp [shownBytes, h, hexByte, Css.ofHexDigits?, hexPair_hexByte, hc]
  · simp [shownBytes, h, hexByte, Css.ofHexDigits?, hexPair_hexByte]

/-- The text of a color reads back as the color rounded to 8 bits for each component. -/
theorem ofCss_hex (c : Color) : ofCss c.hex = .ok c.rounded := by
  rw [hex_eq]
  apply ofCss_digits
  · intro d hd
    obtain ⟨n, -, hn⟩ := List.mem_flatMap.mp hd
    exact digits_hexByte hn
  · by_cases h : c.toRgba8.alpha = 255 <;> simp [shownBytes, h, hexByte]
  · exact ofHexDigits?_shownBytes c.toRgba8

end MapStyle.Color
