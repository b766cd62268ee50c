import MapStyle.Proofs.JsonRecords
import Mathlib

/-!
# Numbers read from texts are finite

A number beyond the range of doubles makes its part of a text unusable, and whole numbers of 64 bits
are far from the end of the range. So every number that a text gives is a finite double.
-/

namespace MapStyle.Json

section Doubles

/-! ### Whole numbers as doubles -/

open Float.Model Float.Model.UnpackedFloat

/-- Whether an unpacked double is finite with an exponent up to a bound. -/
def AtMost (b : Int) : UnpackedFloat → Prop
  | .zero _ => True
  | .finite _ _ e _ => e ≤ b
  | _ => False

/-- Whether an unpacked double is finite with 53 bits and an exponent up to a bound. -/
def Within (b : Int) : UnpackedFloat → Prop
  | .zero _ => True
  | .finite _ m e _ => m < 2 ^ 53 ∧ e ≤ b
  | _ => False

lemma mantissa_shiftRight_le (em : ExtendedMantissa) (k : Nat) :
    (em >>> k).mantissa ≤ em.mantissa := by
  induction k with
  | zero => exact Nat.le_refl _
  | succ k ih => exact Nat.le_trans (Nat.div_le_self _ 2) ih

lemma roundedMantissa_le (em : ExtendedMantissa) : em.roundedMantissa ≤ em.mantissa + 1 := by
  obtain ⟨m, round, sticky⟩ := em
  cases round <;> cases sticky <;>
    simp [ExtendedMantissa.roundedMantissa, ExtendedMantissa.accuracy, Accuracy.roundToNearestEven]
  omega

lemma mantissa_shift_le (m : Nat) (e : Int) (acc : Accuracy) :
    (shiftToTargetExponent Format.binary64 m e acc).1.mantissa ≤ m := by
  apply Nat.le_trans (mantissa_shiftRight_le _ _)
  cases acc with
  | exact => exact Nat.le_refl m
  | inexact o => cases o <;> exact Nat.le_refl m

lemma exponent_shift_le {m a : Nat} {e b : Int} (acc : Accuracy) (hm : m < 2 ^ a) (he : e ≤ b)
    (hb : 0 ≤ b) : (shiftToTargetExponent Format.binary64 m e acc).2 ≤ b + a := by
  have hlog : m.log2 ≤ a := by
    by_cases h : m = 0
    · simp [h]
    · exact Nat.le_of_lt ((Nat.log2_lt h).mpr hm)
  change e + ((Format.binary64.targetExponent (totalExponent m e) - e).toNat : Int) ≤ b + a
  have htarget : Format.binary64.targetExponent (totalExponent m e) =
      max (m.log2 + 1 + e - 53) (-1074) := rfl
  rw [htarget]
  omega

lemma atMost_roundWithAccuracy {m a : Nat} {e b : Int} (s : Sign) (acc : Accuracy)
    (hm : m + 1 < 2 ^ a) (he : e ≤ b) (hb : 0 ≤ b) :
    AtMost (b + a + a) (roundWithAccuracy Format.binary64 s m e acc) := by
  have hfirst := exponent_shift_le acc (show m < 2 ^ a by omega) he hb
  have hrounded : (shiftToTargetExponent Format.binary64 m e acc).1.roundedMantissa < 2 ^ a := by
    have hround := roundedMantissa_le (shiftToTargetExponent Format.binary64 m e acc).1
    have hshift := mantissa_shift_le m e acc
    omega
  -- Rounding up may carry into another bit, so the mantissa is shifted once more.
  have hsecond := exponent_shift_le .exact hrounded hfirst (by omega)
  unfold roundWithAccuracy
  simp only
  split
  · exact trivial
  · exact hsecond

lemma Within.mono {b c : Int} {u : UnpackedFloat} (h : Within b u) (hle : b ≤ c) : Within c u := by
  cases u with
  | zero s => exact trivial
  | finite s m e hm => exact ⟨h.1, Int.le_trans h.2 hle⟩
  | infinity s => cases h
  | notANumber => cases h

lemma isFinite_of_within {b : Int} {u : UnpackedFloat} (h : Within b u) : u.isFinite = true := by
  cases u with
  | zero s => rfl
  | finite s m e hm => rfl
  | infinity s => cases h
  | notANumber => cases h

lemma within_unpack_packComponents (s : Sign) {x : BitVec 11} (m : BitVec 52) {b : Int}
    (hx : x.toNat < 2047) (hb : (x.toNat : Int) - 1075 ≤ b) (hlow : -1074 ≤ b) :
    Within b (UnpackedFloat.unpack Format.binary64 (packComponents Format.binary64 s x m)) := by
  have hones : x ≠ -1#11 := by
    rintro rfl
    simp at hx
  have hm := m.isLt
  unfold UnpackedFloat.unpack
  simp only [unpackMantissa_packComponents, unpackExponent_packComponents]
  rw [if_neg hones]
  split
  · next hzero =>
    split
    · exact trivial
    · refine ⟨by omega, ?_⟩
      rw [hzero]
      exact hlow
  · exact ⟨(1#1 ++ m).isLt, hb⟩

lemma within_unpack_pack {b : Int} {u : UnpackedFloat} (h : AtMost b u) (hlow : -1074 ≤ b)
    (hhigh : b ≤ 970) :
    Within b (UnpackedFloat.unpack Format.binary64 (UnpackedFloat.pack Format.binary64 u)) := by
  have hzero (s : Sign) (m : BitVec 52) : Within b
      (UnpackedFloat.unpack Format.binary64 (packComponents Format.binary64 s 0#11 m)) := by
    apply within_unpack_packComponents s m _ _ hlow
    · decide
    · rw [BitVec.toNat_zero]
      omega
  cases u with
  | notANumber => cases h
  | infinity s => cases h
  | zero s => exact hzero s 0
  | finite s m e hm =>
    have he : e ≤ b := h
    have hbiased : (e + (1023 : Nat) + (52 : Nat)).toNat < 2047 := by omega
    have hbits : (BitVec.ofNat 11 (e + (1023 : Nat) + (52 : Nat)).toNat).toNat =
        (e + (1023 : Nat) + (52 : Nat)).toNat := by
      rw [BitVec.toNat_ofNat, Nat.mod_eq_of_lt (by omega)]
    have hpack : UnpackedFloat.pack Format.binary64 (.finite s m e hm) =
        if 2 ^ 11 ≤ (e + (1023 : Nat) + (52 : Nat)).toNat + 1 then
          packedInfinity Format.binary64 s
        else if m.log2 + 1 = 53 then
          packComponents Format.binary64 s (BitVec.ofNat _ (e + (1023 : Nat) + (52 : Nat)).toNat)
            (BitVec.ofNat _ m)
        else packComponents Format.binary64 s 0#_ (BitVec.ofNat _ m) := rfl
    rw [hpack, if_neg (by omega)]
    split
    · apply within_unpack_packComponents s _ _ _ hlow
      · rw [hbits]
        exact hbiased
      · rw [hbits]
        omega
    · exact hzero s _

lemma atMost_round {m : Nat} (s : Sign) (h : m < 2 ^ 64) :
    AtMost 234 (UnpackedFloat.round Format.binary64 s m 0) := by
  have htarget : Format.binary64.targetExponent (totalExponent m 0) =
      max ((m.log2 : Int) + 1 + 0 - 53) (-1074) := rfl
  unfold UnpackedFloat.round decreaseExponent
  rw [htarget]
  simp only
  generalize hshift : (0 - max ((m.log2 : Int) + 1 + 0 - 53) (-1074)).toNat = k
  have hk : k ≤ 52 := by omega
  have hm : m <<< k + 1 < 2 ^ 117 := by
    have hpow : 2 ^ k ≤ 2 ^ 52 := Nat.pow_le_pow_right (by decide) hk
    have hmul : m * 2 ^ k ≤ 2 ^ 64 * 2 ^ 52 := Nat.mul_le_mul (Nat.le_of_lt h) hpow
    rw [Nat.shiftLeft_eq]
    omega
  exact atMost_roundWithAccuracy (b := 0) s .exact hm (by omega) (by omega)

lemma atMost_ofNat {n : Nat} (h : n < 2 ^ 64) :
    AtMost 234 (UnpackedFloat.ofNat Format.binary64 n) := by
  unfold UnpackedFloat.ofNat UnpackedFloat.ofInt UnpackedFloat.normalize
  split
  · exact atMost_round _ (by omega)
  · exact trivial
  · exact atMost_round _ (by omega)

/-- Multiplying a double by one keeps it moderate. -/
lemma atMost_mul_one {b : Int} {u : UnpackedFloat} (h : Within b u) (hb : 52 ≤ b) :
    AtMost (b + 160) (mul Format.binary64 u (.finite .positive (2 ^ 52) (-52) (by decide))) := by
  cases u with
  | notANumber => cases h
  | infinity s => cases h
  | zero s => exact trivial
  | finite s m e hm =>
    obtain ⟨hm, he⟩ := h
    have hmul : m * 2 ^ 52 + 1 < 2 ^ 106 := by omega
    have hround := atMost_roundWithAccuracy (b := b - 52) (s * .positive) .exact hmul
      (show e + -52 ≤ b - 52 by omega) (by omega)
    exact Eq.subst (motive := fun c => AtMost c _) (by omega) hround

lemma unpack_one : (Float.ofBits 0x3FF0000000000000).toModel.unpack =
    .finite .positive (2 ^ 52) (-52) (by decide) := by
  rfl

lemma atMost_ofScientific {n : Nat} (h : n < 2 ^ 64) :
    AtMost 236 (UnpackedFloat.ofScientific Format.binary64 n 0) := by
  by_cases hn : n = 0
  · rw [UnpackedFloat.ofScientific, dif_pos hn]
    exact trivial
  · have hround : UnpackedFloat.ofScientific Format.binary64 n 0 =
        roundWithAccuracy Format.binary64 .positive (n <<< 53 * 1) (-53) .exact := by
      have hbig : ¬(0 : Int) < -(2 ^ Format.binary64.exponentBits + n.log2) := by
        have hbits : Format.binary64.exponentBits = 11 := rfl
        rw [hbits]
        omega
      rw [UnpackedFloat.ofScientific, dif_neg hn, if_neg (by decide), if_neg hbig,
        if_pos (by decide)]
      rfl
    have hm : n <<< 53 * 1 + 1 < 2 ^ 118 := by
      rw [Nat.shiftLeft_eq]
      omega
    rw [hround]
    generalize n <<< 53 * 1 = m at hm
    exact atMost_roundWithAccuracy (b := 0) .positive .exact hm (by decide) (by decide)

/-- A whole number of 64 bits is a finite double, as it is far from the end of the range. -/
lemma within_ofNat {n : Nat} (h : n < 2 ^ 64) : Within 900 (Float.ofNat n).toModel.unpack := by
  have hscientific : Float.ofNat n = Float.ofScientific n false 0 := rfl
  rw [hscientific]
  by_cases hsmall : n < 2 ^ 53
  · have hproduct : Float.ofScientific n false 0 =
        n.toUInt64.toFloat * Float.ofBits 0x3FF0000000000000 := by
      rw [Float.ofScientific, dif_pos ⟨hsmall, by omega⟩]
      rfl
    have hexact := within_unpack_pack (atMost_ofNat n.toUInt64.toNat_lt) (by omega) (by omega)
    have hscaled := atMost_mul_one hexact (by omega)
    rw [← unpack_one] at hscaled
    rw [hproduct]
    have hresult := within_unpack_pack hscaled (by omega) (by omega)
    exact hresult.mono (by omega)
  · have hmodel : Float.ofScientific n false 0 = .ofModel (Float.Model.ofScientific n 0) := by
      rw [Float.ofScientific, dif_neg (fun h => hsmall h.1)]
      rfl
    have hresult := within_unpack_pack (atMost_ofScientific h) (by omega) (by omega)
    rw [hmodel]
    exact hresult.mono (by omega)

lemma isFinite_ofInt {n : Int} (hlow : -2 ^ 64 < n) (hhigh : n < 2 ^ 64) :
    (Float.ofInt n).isFinite = true := by
  cases n with
  | ofNat n =>
    rw [Int.ofNat_eq_natCast] at hhigh
    exact isFinite_of_within (within_ofNat (show n < 2 ^ 64 by omega))
  | negSucc n =>
    have hn := within_ofNat (show n + 1 < 2 ^ 64 by omega)
    have hneg : AtMost 900 (Float.ofNat (n + 1)).toModel.unpack.neg := by
      revert hn
      cases (Float.ofNat (n + 1)).toModel.unpack with
      | zero s => exact fun _ => trivial
      | finite s m e hm => exact fun h => h.2
      | infinity s => exact id
      | notANumber => exact id
    exact isFinite_of_within (within_unpack_pack hneg (by omega) (by omega))

end Doubles

/-! ### Trees -/

/-- Whether all numbers in a tree are finite doubles. -/
inductive Tree.Finite : Tree → Prop where
  | null : Finite .null
  | bool (b : Bool) : Finite (.bool b)
  | number {n : Number} (h : n.toFloat.isFinite = true) : Finite (.number n)
  | string (s : String) : Finite (.string s)
  | array {items : List Tree} (h : ∀ t ∈ items, Finite t) : Finite (.array items)
  | object {members : List (String × Tree)} (h : ∀ m ∈ members, Finite m.2) :
      Finite (.object members)
  | unusable : Finite .unusable

namespace Reader

lemma finite_usable {n : Number} (h : ∀ i, n = .int i → -2 ^ 64 < i ∧ i < 2 ^ 64) :
    (usable n).Finite := by
  cases n with
  | int i =>
    obtain ⟨hlow, hhigh⟩ := h i rfl
    exact .number (isFinite_ofInt hlow hhigh)
  | float x =>
    rw [usable]
    split
    · next hx => exact .number hx
    · exact .unusable

lemma bounds_wholeNumber {negative : Bool} {digits : List Char} {i : Int}
    (h : wholeNumber negative digits = .int i) : -2 ^ 64 < i ∧ i < 2 ^ 64 := by
  unfold wholeNumber at h
  simp only [UInt64.size] at h
  split at h
  · split at h
    · obtain rfl := Number.int.inj h
      omega
    · cases h
  · split at h
    · obtain rfl := Number.int.inj h
      omega
    · cases h

lemma finite_unsigned? {negative : Bool} {text r : List Char} {t : Tree}
    (h : unsigned? negative text = some (t, r)) : t.Finite := by
  unfold unsigned? at h
  simp only [Option.bind_eq_bind, Option.bind_eq_some_iff] at h
  obtain ⟨⟨whole, r₁⟩, -, ⟨fraction, r₂⟩, -, ⟨exponent, r₃⟩, -, hpair⟩ := h
  cases hpair
  apply finite_usable
  intro i hi
  cases fraction <;> cases exponent <;> first | exact bounds_wholeNumber hi | cases hi

lemma finite_number? {text r : List Char} {t : Tree} (h : number? text = some (t, r)) :
    t.Finite := by
  unfold number? at h
  split at h <;> exact finite_unsigned? h

lemma finite_container {room : Nat} {t : Tree} (h : t.Finite) : (container room t).Finite := by
  unfold container
  split
  · exact .unusable
  · exact h

lemma finite_object {members : List (Option String × Tree)} (h : ∀ m ∈ members, m.2.Finite) :
    (object members).Finite := by
  unfold object
  split
  · next keyed hkeyed =>
    apply Tree.Finite.object
    intro m hm
    obtain ⟨x, hx, hmap⟩ := exists_of_mem_mapM hkeyed hm
    obtain ⟨key, -, rfl⟩ := Option.map_eq_some_iff.mp hmap
    exact h x hx
  · exact .unusable

def ValueFinite (fuel : Nat) : Prop :=
  ∀ room text t r, value? fuel room text = some (t, r) → t.Finite

def ItemsFinite (fuel : Nat) : Prop :=
  ∀ room read text ts r, (∀ t ∈ read, t.Finite) → items? fuel room read text = some (ts, r) →
    ∀ t ∈ ts, t.Finite

def MembersFinite (fuel : Nat) : Prop :=
  ∀ room read text ms r, (∀ m ∈ read, Tree.Finite m.2) →
    members? fuel room read text = some (ms, r) → ∀ m ∈ ms, m.2.Finite

lemma valueFinite_succ {fuel : Nat} (hitems : ItemsFinite fuel) (hmembers : MembersFinite fuel) :
    ValueFinite (fuel + 1) := by
  intro room text t r h
  rw [value?] at h
  split at h
  · cases h
    exact .null
  · cases h
    exact .bool true
  · cases h
    exact .bool false
  · obtain ⟨⟨s, after⟩, -, hpair⟩ := Option.map_eq_some_iff.mp h
    cases hpair
    cases s with
    | none => exact .unusable
    | some s => exact .string s
  · split at h
    · cases h
      exact finite_container (.array (by simp))
    · obtain ⟨⟨ts, after⟩, hread, hpair⟩ := Option.map_eq_some_iff.mp h
      cases hpair
      exact finite_container (.array (hitems _ _ _ _ _ (by simp) hread))
  · split at h
    · cases h
      exact finite_container (.object (by simp))
    · obtain ⟨⟨ms, after⟩, hread, hpair⟩ := Option.map_eq_some_iff.mp h
      cases hpair
      exact finite_container (finite_object (hmembers _ _ _ _ _ (by simp) hread))
  · exact finite_number? h

lemma itemsFinite_succ {fuel : Nat} (hvalue : ValueFinite fuel) (hitems : ItemsFinite fuel) :
    ItemsFinite (fuel + 1) := by
  intro room read text ts r hread h
  rw [items?] at h
  split at h
  · cases h
  · next t rest hvalue? =>
    have ht := hvalue _ _ _ _ hvalue?
    have hread : ∀ s ∈ t :: read, s.Finite := List.forall_mem_cons.mpr ⟨ht, hread⟩
    split at h
    · exact hitems _ _ _ _ _ hread h
    · cases h
      exact fun s hs => hread s (List.mem_reverse.mp hs)
    · cases h

lemma membersFinite_succ {fuel : Nat} (hvalue : ValueFinite fuel) (hmembers : MembersFinite fuel) :
    MembersFinite (fuel + 1) := by
  intro room read text ms r hread h
  rw [members?] at h
  split at h
  · split at h
    · cases h
    · next key rest _ =>
      split at h
      · split at h
        · cases h
        · next t rest hvalue? =>
          have ht := hvalue _ _ _ _ hvalue?
          have hread : ∀ m ∈ (key, t) :: read, m.2.Finite := List.forall_mem_cons.mpr ⟨ht, hread⟩
          split at h
          · exact hmembers _ _ _ _ _ hread h
          · cases h
            exact fun m hm => hread m (List.mem_reverse.mp hm)
          · cases h
      · cases h
  · cases h

/-- The readers of values, items and members call each other with less fuel. -/
lemma finite_readers (fuel : Nat) : ValueFinite fuel ∧ ItemsFinite fuel ∧ MembersFinite fuel := by
  induction fuel with
  | zero =>
    refine ⟨?_, ?_, ?_⟩
    · intro room text t r h
      cases h
    · intro room read text ts r _ h
      cases h
    · intro room read text ms r _ h
      cases h
  | succ fuel ih =>
    obtain ⟨hvalue, hitems, hmembers⟩ := ih
    exact ⟨valueFinite_succ hitems hmembers, itemsFinite_succ hvalue hitems,
      membersFinite_succ hvalue hmembers⟩

end Reader

theorem Tree.finite_of_ofText? {text : String} {t : Tree} (h : ofText? text = some t) :
    t.Finite := by
  unfold ofText? at h
  simp only at h
  split at h
  · next t' rest hread =>
    split at h
    · cases h
      exact (Reader.finite_readers _).1 _ _ _ _ hread
    · cases h
  · cases h

end MapStyle.Json
