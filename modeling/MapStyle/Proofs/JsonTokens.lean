import MapStyle.Json.Reader
import MapStyle.Json.Writer
import MapStyle.Proofs.DecimalNumbers
import Mathlib.Algebra.Group.Int.Defs
import Mathlib.Algebra.Group.Nat.Defs
import Mathlib.Data.List.TakeDrop
import Mathlib.Data.List.TakeWhile
import Mathlib.Tactic.Lemma

/-!
# Strings and numbers in JSON texts

A string reads back from its quoted text, and a whole number of 64 bits from its digits. Whether a
double reads back is a property of the double. What is read off a text does not depend on the text
after it, as long as this does not go on with a number.
-/

namespace MapStyle.Json

open Text

/-- Whether a number reads back from its text as this very number. -/
def Number.ReadsBack (n : Number) : Prop :=
  Reader.number? n.write = some (.number n, [])

namespace Reader

/-! ### Strings -/

/-- A character is written as it is, after a backslash by its name, or by its code unit. -/
lemma escape_cases (c : Char) :
    (∃ name, name ≠ 'u' ∧ escaped? name = some c ∧ escape c = ['\\', name]) ∨
    (c.toNat < 0x20 ∧
      escape c = ['\\', 'u', '0', '0', hexDigit (c.toNat / 16), hexDigit (c.toNat % 16)]) ∨
    (c ≠ '"' ∧ c ≠ '\\' ∧ 0x20 ≤ c.toNat ∧ escape c = [c]) := by
  by_cases hnamed : c ∈ ['"', '\\', '\x08', '\x0c', '\n', '\r', '\t']
  · left
    simp only [List.mem_cons, List.not_mem_nil, or_false] at hnamed
    rcases hnamed with rfl | rfl | rfl | rfl | rfl | rfl | rfl <;>
      exact ⟨_, by decide, rfl, rfl⟩
  · right
    simp only [List.mem_cons, List.not_mem_nil, or_false, not_or] at hnamed
    obtain ⟨hquote, hslash, hback, hfeed, hline, hreturn, htab⟩ := hnamed
    unfold escape
    rw [if_neg hquote, if_neg hslash, if_neg hback, if_neg hfeed, if_neg hline, if_neg hreturn,
      if_neg htab]
    by_cases hcontrol : c.toNat < 0x20
    · exact .inl ⟨hcontrol, if_pos hcontrol⟩
    · exact .inr ⟨hquote, hslash, Nat.not_lt.mp hcontrol, if_neg hcontrol⟩

lemma codeUnit?_hexDigit :
    ∀ n < 0x20, codeUnit? '0' '0' (hexDigit (n / 16)) (hexDigit (n % 16)) = some n := by
  decide

lemma scanString?_escape (read : List Nat) (c : Char) (rest : List Char) :
    scanString? read (escape c ++ rest) = scanString? (c.toNat :: read) rest := by
  rcases escape_cases c with ⟨name, hname, hescaped, hescape⟩ | ⟨hcontrol, hescape⟩ |
    ⟨hquote, hslash, hprinted, hescape⟩
  · rw [hescape, List.cons_append, List.singleton_append, scanString?, hescaped]
    intro a b c d after heq
    exact absurd heq hname
  · simp only [hescape, List.cons_append, List.nil_append]
    rw [scanString?, codeUnit?_hexDigit _ hcontrol]
  · rw [hescape, List.singleton_append, scanString?.eq_5]
    · rw [if_neg]
      simp [hslash, hprinted]
    · exact fun heq => hquote heq
    · exact fun _ _ _ _ _ heq _ => hslash heq
    · exact fun _ _ heq _ => hslash heq

lemma scanString?_flatMap_escape (read : List Nat) (cs rest : List Char) :
    scanString? read (cs.flatMap escape ++ '"' :: rest) =
      some (read.reverse ++ cs.map Char.toNat, rest) := by
  induction cs generalizing read with
  | nil => simp [scanString?]
  | cons c cs ih =>
    rw [List.flatMap_cons, List.append_assoc, scanString?_escape, ih]
    simp

lemma not_surrogate (c : Char) :
    isHighSurrogate c.toNat = false ∧ isLowSurrogate c.toNat = false := by
  have hvalid : c.toNat < 0xD800 ∨ 0xDFFF < c.toNat ∧ c.toNat < 0x110000 := c.valid
  simp only [isHighSurrogate, isLowSurrogate, Bool.and_eq_false_iff, decide_eq_false_iff_not]
  omega

lemma joinUnits?_map_toNat (read cs : List Char) :
    joinUnits? read (cs.map Char.toNat) = some (read.reverse ++ cs) := by
  induction cs generalizing read with
  | nil => simp [joinUnits?]
  | cons c cs ih =>
    obtain ⟨hhigh, hlow⟩ := not_surrogate c
    cases cs with
    | nil => simp [joinUnits?, hhigh, hlow]
    | cons d cs =>
      have hrest := ih (c :: read)
      rw [List.map_cons] at hrest
      rw [List.map_cons, List.map_cons, joinUnits?, hhigh, hlow, Char.ofNat_toNat]
      simpa using hrest

theorem string?_quote (text : String) (rest : List Char) :
    ∃ body, quote text ++ rest = '"' :: body ∧ string? body = some (some text, rest) := by
  refine ⟨text.toList.flatMap escape ++ '"' :: rest, by simp [quote], ?_⟩
  rw [string?, scanString?_flatMap_escape]
  simp [joinUnits?_map_toNat]

/-! ### Numbers before other text -/

/-- Whether no number goes on with a text. -/
def Ends (rest : List Char) : Prop :=
  ∀ c ∈ rest.head?, c.isDigit = false ∧ c ≠ '.' ∧ c ≠ 'e' ∧ c ≠ 'E'

lemma ends_nil : Ends [] := by
  intro c hc
  cases hc

lemma scanDigits?_append {w r rest digits : List Char}
    (h : Decimal.scanDigits? w = some (digits, r)) (hrest : Ends rest) :
    Decimal.scanDigits? (w ++ rest) = some (digits, r ++ rest) := by
  have hspan := Decimal.span_append w fun c hc => (hrest c hc).1
  unfold Decimal.scanDigits? at h ⊢
  rw [hspan]
  simp only at h ⊢
  split at h
  · cases h
  · next hne =>
    cases h
    rw [if_neg hne]

lemma whole?_append {w r rest digits : List Char} (h : whole? w = some (digits, r))
    (hrest : Ends rest) : whole? (w ++ rest) = some (digits, r ++ rest) := by
  unfold whole? at h
  split at h
  · cases h
    rfl
  · next hzero =>
    cases w with
    | nil => cases h
    | cons c w =>
      rw [List.cons_append, whole?.eq_2 _ (by simpa using hzero w), ← List.cons_append]
      exact scanDigits?_append h hrest

lemma fraction?_append {w r rest : List Char} {f : Option (List Char)}
    (h : fraction? w = some (f, r)) (hrest : Ends rest) :
    fraction? (w ++ rest) = some (f, r ++ rest) := by
  unfold fraction? at h
  split at h
  · next w =>
    obtain ⟨⟨digits, after⟩, hdigits, hpair⟩ := Option.map_eq_some_iff.mp h
    cases hpair
    rw [List.cons_append, fraction?, scanDigits?_append hdigits hrest]
    rfl
  · next hpoint =>
    cases h
    rw [fraction?.eq_2]
    intro after heq
    cases w with
    | nil => exact (hrest '.' (by simp [show rest = '.' :: after from heq])).2.1 rfl
    | cons c w => exact hpoint w (by rw [(List.cons.inj heq).1])

lemma scanExponent?_append {w r rest : List Char} {e : Int}
    (h : Decimal.scanExponent? w = some (e, r)) (hrest : Ends rest) :
    Decimal.scanExponent? (w ++ rest) = some (e, r ++ rest) := by
  cases w with
  | nil => cases h
  | cons c w =>
    unfold Decimal.scanExponent? at h
    rw [List.cons_append, Decimal.scanExponent?]
    simp only at h ⊢
    split at h
    · next hc =>
      obtain ⟨⟨digits, after⟩, hdigits, hpair⟩ := Option.map_eq_some_iff.mp h
      cases hpair
      have hsign : Decimal.scanSign (w ++ rest) =
          ((Decimal.scanSign w).1, (Decimal.scanSign w).2 ++ rest) := by
        cases w with
        | nil => cases hdigits
        | cons d w =>
          unfold Decimal.scanSign
          rw [List.cons_append]
          split <;> simp_all
      rw [if_pos hc, hsign, scanDigits?_append hdigits hrest]
      rfl
    · cases h

lemma exponent?_append {w r rest : List Char} {e : Option Int}
    (h : exponent? w = some (e, r)) (hrest : Ends rest) :
    exponent? (w ++ rest) = some (e, r ++ rest) := by
  cases w with
  | nil =>
    cases h
    cases rest with
    | nil => rfl
    | cons c rest =>
      obtain ⟨-, -, hlower, hupper⟩ := hrest c rfl
      simp [exponent?, hlower, hupper]
  | cons c w =>
    unfold exponent? at h
    rw [List.cons_append, exponent?]
    simp only at h
    split at h
    · next hc =>
      obtain ⟨⟨n, after⟩, hscan, hpair⟩ := Option.map_eq_some_iff.mp h
      cases hpair
      rw [if_pos hc, ← List.cons_append, scanExponent?_append hscan hrest]
      rfl
    · next hc =>
      cases h
      rw [if_neg hc]
      rfl

lemma unsigned?_append {negative : Bool} {w r rest : List Char} {t : Tree}
    (h : unsigned? negative w = some (t, r)) (hrest : Ends rest) :
    unsigned? negative (w ++ rest) = some (t, r ++ rest) := by
  unfold unsigned? at h
  simp only [Option.bind_eq_bind, Option.bind_eq_some_iff] at h
  obtain ⟨⟨whole, r₁⟩, hwhole, ⟨fraction, r₂⟩, hfraction, ⟨exponent, r₃⟩, hexponent, hpair⟩ := h
  cases hpair
  simp [unsigned?, whole?_append hwhole hrest, fraction?_append hfraction hrest,
    exponent?_append hexponent hrest]

theorem number?_append {w r rest : List Char} {t : Tree} (h : number? w = some (t, r))
    (hrest : Ends rest) : number? (w ++ rest) = some (t, r ++ rest) := by
  unfold number? at h
  split at h
  · exact unsigned?_append h hrest
  · next hminus =>
    cases w with
    | nil => cases h
    | cons c w =>
      rw [List.cons_append, number?.eq_2 _ (by simpa using hminus w), ← List.cons_append]
      exact unsigned?_append h hrest

lemma starts_of_number? {w r : List Char} {t : Tree} (h : number? w = some (t, r)) :
    ∃ c rest, w = c :: rest ∧ (c = '-' ∨ c.isDigit = true) := by
  unfold number? at h
  split at h
  · exact ⟨_, _, rfl, .inl rfl⟩
  · cases w with
    | nil => cases h
    | cons c w =>
      refine ⟨c, w, rfl, .inr ?_⟩
      unfold unsigned? whole? at h
      split at h
      · next heq =>
        rw [(List.cons.inj heq).1]
        rfl
      · by_contra hc
        simp [Decimal.scanDigits?, List.span_eq_takeWhile_dropWhile, hc] at h

/-! ### Whole numbers -/

lemma eq_zero_of_digitChar : ∀ n < 10, Nat.digitChar n = '0' → n = 0 := by
  decide

lemma eq_zero_of_natDigits {n : Nat} {rest : List Char} (h : natDigits n = '0' :: rest) : n = 0 := by
  unfold natDigits at h
  induction n using Nat.strongRecOn generalizing rest with
  | ind n ih =>
    rw [Nat.toDigits_eq_if (by decide)] at h
    split at h
    · next hlt => exact eq_zero_of_digitChar n hlt (List.cons.inj h).1
    · next hge =>
      obtain ⟨d, ds, hds⟩ :=
        List.exists_cons_of_ne_nil (Nat.toDigits_ne_nil (n := n / 10) (b := 10))
      rw [hds, List.cons_append] at h
      obtain ⟨rfl, -⟩ := List.cons.inj h
      have hquotient := ih (n / 10) (by omega) hds
      omega

lemma whole?_natDigits (n : Nat) : whole? (natDigits n) = some (natDigits n, []) := by
  by_cases hn : n = 0
  · subst hn
    rfl
  · have hdigits : Decimal.IsDigits (natDigits n) := fun c hc =>
      Nat.isDigit_of_mem_toDigits (by decide) (by decide) hc
    rw [whole?.eq_2 _ fun rest h => hn (eq_zero_of_natDigits h), Decimal.scanDigits?,
      Decimal.span_digits hdigits]
    simp [natDigits]

lemma unsigned?_natDigits (negative : Bool) (n : Nat) :
    unsigned? negative (natDigits n) = some (usable (wholeNumber negative (natDigits n)), []) := by
  simp [unsigned?, whole?_natDigits, fraction?, exponent?, ofParts]

end Reader

theorem Number.readsBack_int {n : Int} (hlow : -2 ^ 63 ≤ n) (hhigh : n < 2 ^ 64) :
    (Number.int n).ReadsBack := by
  cases n with
  | ofNat n =>
    change Reader.number? (natDigits n) = _
    have hn : n < UInt64.size := by
      rw [Int.ofNat_eq_natCast] at hhigh
      rw [UInt64.size]
      omega
    rw [Reader.number?.eq_2 _ fun rest h => natDigits_ne_cons (by decide) h,
      Reader.unsigned?_natDigits, Reader.wholeNumber]
    simp only [natDigits, Nat.ofDigitChars_ten_toDigits]
    rw [if_neg Bool.false_ne_true, if_pos hn]
    rfl
  | negSucc n =>
    change Reader.number? ('-' :: natDigits (n + 1)) = _
    have hn : n + 1 ≠ 0 ∧ n + 1 ≤ UInt64.size / 2 := by
      rw [UInt64.size]
      omega
    rw [Reader.number?, Reader.unsigned?_natDigits, Reader.wholeNumber]
    simp only [natDigits, Nat.ofDigitChars_ten_toDigits]
    rw [if_pos trivial, if_pos hn]
    rfl

lemma Number.readsBack_word (w : Int64) : (Number.int w.toInt).ReadsBack := by
  have hhigh := w.toInt_lt
  exact readsBack_int w.le_toInt (by omega)

deriving instance DecidableEq for Number

/-- Whether a number reads back, computed. -/
def Number.readsBack (n : Number) : Bool :=
  match Reader.number? n.write with
  | some (.number m, []) => m = n
  | _ => false

lemma Number.readsBack_iff (n : Number) : n.readsBack = true ↔ n.ReadsBack := by
  unfold readsBack ReadsBack
  split
  · next m hread => simp [hread]
  · next hne =>
    constructor
    · intro h
      cases h
    · intro h
      exact absurd h (hne n)

instance (n : Number) : Decidable n.ReadsBack :=
  decidable_of_iff _ n.readsBack_iff

end MapStyle.Json
