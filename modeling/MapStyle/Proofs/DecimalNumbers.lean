import MapStyle.Decimal.Reading
import Mathlib.Data.List.TakeDrop
import Mathlib.Data.List.TakeWhile
import Mathlib.Tactic.Lemma

/-!
# Decimal numbers in texts

The grammar of the texts that denote doubles. Main statement: reading accepts exactly these texts
and gives the double that they denote.
-/

namespace MapStyle.Decimal

variable {sign text rest whole fraction power digits : List Char} {exponent : Int} {x : Float}

/-! ### Grammar -/

def signs : List (List Char) := [[], ['+'], ['-']]

def IsDigits (text : List Char) : Prop :=
  ∀ c ∈ text, c.isDigit = true

instance : DecidablePred IsDigits := fun text =>
  decidable_of_iff (text.all Char.isDigit = true) List.all_eq_true

/-- Whether a text is digits with an optional point among or around them. -/
def IsMantissa (text whole fraction : List Char) : Prop :=
  whole ++ fraction ≠ [] ∧ IsDigits (whole ++ fraction) ∧
    (text = whole ++ '.' :: fraction ∨ text = whole ∧ fraction = [])

/-- Whether a text is nothing, or `e`, an optional sign and digits. -/
def IsPower (text : List Char) (exponent : Int) : Prop :=
  text = [] ∧ exponent = 0 ∨
    ∃ e ∈ ['e', 'E'], ∃ sign ∈ signs, ∃ digits, digits ≠ [] ∧ IsDigits digits ∧
      text = e :: (sign ++ digits) ∧
      exponent = if sign = ['-'] then -(Nat.ofDigitChars 10 digits 0 : Int)
        else Nat.ofDigitChars 10 digits 0

/-- Infinity and no number by name, in small letters. -/
def names : List (List Char × Float) := [
  ("inf".toList, 1.0 / 0.0), ("infinity".toList, 1.0 / 0.0), ("nan".toList, 0.0 / 0.0)
]

/-- The double that a text denotes: a decimal, or a name in any letter case. -/
inductive Denotes : List Char → Float → Prop
  | decimal {sign mantissa whole fraction power : List Char} {exponent : Int} (hsign : sign ∈ signs)
      (hmantissa : IsMantissa mantissa whole fraction) (hpower : IsPower power exponent) :
      Denotes (sign ++ (mantissa ++ power)) (ofDigits (sign == ['-']) whole fraction exponent)
  | name {sign name : List Char} {x : Float} (hsign : sign ∈ signs)
      (hname : (name.map Char.toLower, x) ∈ names) :
      Denotes (sign ++ name) (if sign = ['-'] then -x else x)

lemma denotes_digits (hne : digits ≠ []) (h : IsDigits digits) :
    Denotes digits (ofDigits false digits [] 0) := by
  have hmantissa : IsMantissa digits digits [] := by simp [IsMantissa, hne, h]
  simpa using Denotes.decimal (.head _ : [] ∈ signs) hmantissa (.inl ⟨rfl, rfl⟩)

/-! ### Characters -/

lemma toLower_of_isDigit {c : Char} (h : c.isDigit = true) : c.toLower = c := by
  have hle : c.val ≤ 57 := by simpa using (Bool.and_eq_true_iff.mp h).2
  refine dif_neg fun hupper => ?_
  exact absurd (UInt32.le_trans hupper.1 hle) (by decide)

lemma IsMantissa.exists_eq_cons {mantissa : List Char} (h : IsMantissa mantissa whole fraction) :
    ∃ c tail, mantissa = c :: tail ∧ (c.isDigit = true ∨ c = '.') := by
  obtain ⟨hne, hdigits, rfl | ⟨rfl, rfl⟩⟩ := h
  · cases whole with
    | nil => exact ⟨'.', fraction, rfl, .inr rfl⟩
    | cons c whole => exact ⟨c, _, rfl, .inl (hdigits c (by simp))⟩
  · rw [List.append_nil] at hne hdigits
    obtain ⟨c, tail, rfl⟩ := List.exists_cons_of_ne_nil hne
    exact ⟨c, tail, rfl, .inl (hdigits c (by simp))⟩

/-- The characters, in small letters, that denoting texts have besides digits. -/
def marks : List Char := ['+', '-', '.', 'e', 'i', 'n', 'f', 't', 'y', 'a']

lemma mem_marks_of_signs (h : sign ∈ signs) {c : Char} (hc : c ∈ sign) : c.toLower ∈ marks := by
  have : ∀ sign ∈ signs, ∀ c ∈ sign, c.toLower ∈ marks := by simp [signs, marks]
  exact this sign h c hc

lemma mem_marks_of_names {name : List Char} (h : (name, x) ∈ names) {c : Char} (hc : c ∈ name) :
    c ∈ marks := by
  have : ∀ name ∈ names.map Prod.fst, ∀ c ∈ name, c ∈ marks := by
    simp [names, marks]
  exact this name (List.mem_map_of_mem h) c hc

lemma IsMantissa.mem {mantissa : List Char} (h : IsMantissa mantissa whole fraction) {c : Char}
    (hc : c ∈ mantissa) : c.isDigit = true ∨ c = '.' := by
  obtain ⟨-, hdigits, rfl | ⟨rfl, rfl⟩⟩ := h
  · simp only [List.mem_append, List.mem_cons] at hc
    obtain hc | rfl | hc := hc
    · exact .inl (hdigits c (by simp [hc]))
    · exact .inr rfl
    · exact .inl (hdigits c (by simp [hc]))
  · exact .inl (hdigits c (by simpa using hc))

lemma IsPower.mem (h : IsPower power exponent) {c : Char} (hc : c ∈ power) :
    c.isDigit = true ∨ c.toLower ∈ marks := by
  obtain ⟨rfl, -⟩ | ⟨e, he, sign, hsign, digits, -, hdigits, rfl, -⟩ := h
  · simp at hc
  · simp only [List.mem_cons, List.mem_append] at hc
    obtain rfl | hc | hc := hc
    · have : ∀ e ∈ ['e', 'E'], e.toLower ∈ marks := by simp [marks]
      exact .inr (this c he)
    · exact .inr (mem_marks_of_signs hsign hc)
    · exact .inl (hdigits c hc)

theorem Denotes.mem (h : Denotes text x) {c : Char} (hc : c ∈ text) :
    c.isDigit = true ∨ c.toLower ∈ marks := by
  cases h with
  | decimal hsign hmantissa hpower =>
    simp only [List.mem_append] at hc
    obtain hc | hc | hc := hc
    · exact .inr (mem_marks_of_signs hsign hc)
    · obtain hdigit | rfl := hmantissa.mem hc
      · exact .inl hdigit
      · exact .inr (by decide)
    · exact hpower.mem hc
  | name hsign hname =>
    obtain hc | hc := List.mem_append.mp hc
    · exact .inr (mem_marks_of_signs hsign hc)
    · exact .inr (mem_marks_of_names hname (List.mem_map_of_mem hc))

/-! ### Scanning -/

lemma scanSign_append (hsign : sign ∈ signs) (h : ∀ c ∈ text.head?, c ≠ '+' ∧ c ≠ '-') :
    scanSign (sign ++ text) = (sign == ['-'], text) := by
  simp only [signs, List.mem_cons, List.not_mem_nil, or_false] at hsign
  obtain rfl | rfl | rfl := hsign
  · cases text with
    | nil => rfl
    | cons c text =>
      obtain ⟨hplus, hminus⟩ := h c rfl
      rw [List.nil_append, scanSign.eq_3 _ (by simp [hminus]) (by simp [hplus])]
      rfl
  · rfl
  · rfl

lemma exists_scanSign (text : List Char) :
    ∃ sign ∈ signs, ∃ rest, text = sign ++ rest ∧ scanSign text = (sign == ['-'], rest) := by
  fun_cases scanSign text with
  | case1 rest => exact ⟨['-'], by decide, rest, rfl, rfl⟩
  | case2 rest => exact ⟨['+'], by decide, rest, rfl, rfl⟩
  | case3 => exact ⟨[], by decide, text, rfl, rfl⟩

/-- What is read off a text does not depend on what follows it. -/
lemma span_append {p : Char → Bool} (text : List Char) (hrest : ∀ c ∈ rest.head?, p c = false) :
    (text ++ rest).span p = ((text.span p).1, (text.span p).2 ++ rest) := by
  simp only [List.span_eq_takeWhile_dropWhile]
  induction text with
  | nil => cases rest <;> simp_all
  | cons c text ih => cases hc : p c <;> simp_all

lemma span_digits (h : IsDigits digits) : digits.span Char.isDigit = (digits, []) := by
  rw [List.span_eq_takeWhile_dropWhile, List.takeWhile_eq_self_iff.mpr h,
    List.dropWhile_eq_nil_iff.mpr h]

lemma span_digits_append (h : IsDigits digits) (hrest : ∀ c ∈ rest.head?, c.isDigit = false) :
    (digits ++ rest).span Char.isDigit = (digits, rest) := by
  rw [span_append digits hrest, span_digits h, List.nil_append]

lemma eq_append_of_span (h : text.span Char.isDigit = (digits, rest)) :
    text = digits ++ rest ∧ IsDigits digits := by
  rw [List.span_eq_takeWhile_dropWhile, Prod.mk.injEq] at h
  obtain ⟨rfl, rfl⟩ := h
  exact ⟨List.takeWhile_append_dropWhile.symm, fun c hc => List.mem_takeWhile_imp hc⟩

lemma scanDigits?_eq_some_iff :
    scanDigits? text = some (digits, []) ↔ digits = text ∧ text ≠ [] ∧ IsDigits text := by
  obtain ⟨head, rest, hspan⟩ : ∃ head rest, text.span Char.isDigit = (head, rest) := ⟨_, _, rfl⟩
  rw [scanDigits?, hspan]
  constructor
  · intro h
    simp only [Option.ite_none_left_eq_some, List.isEmpty_iff, Option.some.injEq,
      Prod.mk.injEq] at h
    obtain ⟨hne, rfl, rfl⟩ := h
    obtain ⟨rfl, hdigits⟩ := eq_append_of_span hspan
    rw [List.append_nil]
    exact ⟨rfl, hne, hdigits⟩
  · rintro ⟨rfl, hne, hdigits⟩
    rw [span_digits hdigits, Prod.mk.injEq] at hspan
    obtain ⟨rfl, rfl⟩ := hspan
    simp [hne]

lemma scanSign_digits (hsign : sign ∈ signs) (h : IsDigits digits) :
    scanSign (sign ++ digits) = (sign == ['-'], digits) := by
  refine scanSign_append hsign fun c hc => ?_
  have hdigit := h c (List.mem_of_mem_head? hc)
  constructor <;> rintro rfl <;> exact absurd hdigit (by decide)

lemma scanExponent?_eq_some_iff (hne : text ≠ []) :
    scanExponent? text = some (exponent, []) ↔ IsPower text exponent := by
  obtain ⟨e, tail, rfl⟩ := List.exists_cons_of_ne_nil hne
  rw [scanExponent?]
  constructor
  · intro h
    obtain ⟨sign, hsign, rest, rfl, hscan⟩ := exists_scanSign tail
    simp only [Option.ite_none_right_eq_some, hscan, Option.map_eq_some_iff, Prod.mk.injEq] at h
    obtain ⟨he, ⟨digits, _⟩, hdigits, rfl, rfl⟩ := h
    obtain ⟨rfl, hne, hall⟩ := scanDigits?_eq_some_iff.mp hdigits
    exact .inr ⟨e, by simpa using he, sign, hsign, digits, hne, hall, rfl, by simp⟩
  · rintro (⟨h, -⟩ | ⟨_, he, sign, hsign, digits, hdigits_ne, hall, heq, rfl⟩)
    · exact absurd h hne
    · obtain ⟨rfl, rfl⟩ := List.cons.inj heq
      rw [if_pos (by simpa using he)]
      have hdigits := scanDigits?_eq_some_iff.mpr ⟨rfl, hdigits_ne, hall⟩
      simp [scanSign_digits hsign hall, hdigits]

lemma scanMantissa_append {mantissa : List Char} (h : IsMantissa mantissa whole fraction)
    (hrest : ∀ c ∈ rest.head?, c.isDigit = false ∧ c ≠ '.') :
    scanMantissa (mantissa ++ rest) = (whole, fraction, rest) := by
  have hstop : ∀ c ∈ rest.head?, c.isDigit = false := fun c hc => (hrest c hc).1
  obtain ⟨-, hdigits, rfl | ⟨rfl, rfl⟩⟩ := h
  · obtain ⟨hwhole, hfraction⟩ := List.forall_mem_append.mp hdigits
    rw [List.append_assoc, List.cons_append, scanMantissa, span_digits_append hwhole (by simp)]
    simp only [span_digits_append hfraction hstop]
  · rw [List.append_nil] at hdigits
    rw [scanMantissa, span_digits_append hdigits hstop]
    cases rest with
    | nil => rfl
    | cons c rest =>
      have hpoint := (hrest c rfl).2
      simp [hpoint]

lemma exists_scanMantissa (text : List Char) :
    ∃ mantissa whole fraction rest, text = mantissa ++ rest ∧
      scanMantissa text = (whole, fraction, rest) ∧
      (whole ++ fraction ≠ [] → IsMantissa mantissa whole fraction) := by
  obtain ⟨whole, rest, hspan⟩ : ∃ whole rest, text.span Char.isDigit = (whole, rest) :=
    ⟨_, _, rfl⟩
  obtain ⟨rfl, hwhole⟩ := eq_append_of_span hspan
  by_cases hpoint : ∃ tail, rest = '.' :: tail
  · obtain ⟨tail, rfl⟩ := hpoint
    obtain ⟨fraction, rest, htail⟩ : ∃ fraction rest, tail.span Char.isDigit = (fraction, rest) :=
      ⟨_, _, rfl⟩
    obtain ⟨rfl, hfraction⟩ := eq_append_of_span htail
    refine ⟨whole ++ '.' :: fraction, whole, fraction, rest, by simp, ?_, fun hne => ?_⟩
    · rw [scanMantissa, hspan]
      simp only [htail]
    · exact ⟨hne, List.forall_mem_append.mpr ⟨hwhole, hfraction⟩, .inl rfl⟩
  · refine ⟨whole, whole, [], rest, rfl, ?_, fun hne => ⟨hne, by simpa using hwhole, by simp⟩⟩
    rw [scanMantissa, hspan]
    simp only
    split
    · next tail => exact absurd ⟨tail, rfl⟩ hpoint
    · rfl

/-! ### Reading -/

lemma ofList_eq_iff {name : List Char} {s : String} : String.ofList name = s ↔ name = s.toList := by
  constructor
  · rintro rfl
    exact String.toList_ofList.symm
  · rintro rfl
    exact String.ofList_toList

lemma ne_sign_of_toLower_mem {name : List Char} (h : (name.map Char.toLower, x) ∈ names) {c : Char}
    (hc : c ∈ name) : c ≠ '+' ∧ c ≠ '-' := by
  have hfree : ∀ name ∈ names.map Prod.fst, '+' ∉ name ∧ '-' ∉ name := by simp [names]
  obtain ⟨hplus, hminus⟩ := hfree _ (List.mem_map_of_mem h)
  have hlower := List.mem_map_of_mem (f := Char.toLower) hc
  constructor <;> rintro rfl
  · exact hplus hlower
  · exact hminus hlower

lemma read?_name {name : List Char} (hsign : sign ∈ signs)
    (h : (name.map Char.toLower, x) ∈ names) :
    read? (sign ++ name) = some (if sign = ['-'] then -x else x) := by
  have hhead : ∀ c ∈ name.head?, c ≠ '+' ∧ c ≠ '-' := fun c hc =>
    ne_sign_of_toLower_mem h (List.mem_of_mem_head? hc)
  rw [read?, scanSign_append hsign hhead]
  simp only [ofList_eq_iff, beq_iff_eq]
  simp only [names, List.mem_cons, Prod.mk.injEq, List.not_mem_nil, or_false] at h
  obtain ⟨hname, rfl⟩ | ⟨hname, rfl⟩ | ⟨hname, rfl⟩ := h <;> simp [hname]

lemma scaled_eq_some_iff {negative : Bool} :
    (if power.isEmpty = true then some (ofDigits negative whole fraction 0)
      else match scanExponent? power with
        | some (exponent, []) => some (ofDigits negative whole fraction exponent)
        | _ => none) = some x ↔
      ∃ exponent, IsPower power exponent ∧ ofDigits negative whole fraction exponent = x := by
  by_cases hempty : power = []
  · subst hempty
    simp [IsPower]
  · rw [if_neg (by simpa using hempty)]
    constructor
    · intro h
      split at h
      · next exponent hscan =>
        exact ⟨exponent, (scanExponent?_eq_some_iff hempty).mp hscan, Option.some.inj h⟩
      · exact absurd h (by simp)
    · rintro ⟨exponent, hpower, rfl⟩
      rw [(scanExponent?_eq_some_iff hempty).mpr hpower]

lemma read?_decimal {mantissa : List Char} (hsign : sign ∈ signs)
    (hmantissa : IsMantissa mantissa whole fraction) (hpower : IsPower power exponent) :
    read? (sign ++ (mantissa ++ power)) =
      some (ofDigits (sign == ['-']) whole fraction exponent) := by
  have hstop : ∀ c ∈ power.head?, c.isDigit = false ∧ c ≠ '.' := by
    obtain ⟨rfl, -⟩ | ⟨e, he, _, _, _, _, _, rfl, -⟩ := hpower
    · simp
    · simp only [List.head?_cons, Option.mem_def, Option.some.injEq, forall_eq']
      have : ∀ e ∈ ['e', 'E'], e.isDigit = false ∧ e ≠ '.' := by simp
      exact this e he
  -- The mantissa begins with a digit or the point, so nothing is taken for a sign or a name.
  obtain ⟨c, tail, hcons, hc⟩ := hmantissa.exists_eq_cons
  have hhead : ∀ c ∈ (mantissa ++ power).head?, c ≠ '+' ∧ c ≠ '-' := by
    rw [hcons, List.cons_append, List.head?_cons]
    rintro _ ⟨⟩
    constructor <;> rintro rfl <;> exact absurd hc (by decide)
  have hname : (mantissa ++ power).map Char.toLower ∉ names.map Prod.fst := by
    have hlower : c.toLower = c := by
      obtain hdigit | rfl := hc
      · exact toLower_of_isDigit hdigit
      · rfl
    have hfirst : ∀ name ∈ names.map Prod.fst, ∀ d ∈ name.head?,
        ¬(d.isDigit = true ∨ d = '.') := by
      simp [names]
    exact fun h => hfirst _ h c (by simp [hcons, hlower]) hc
  simp only [names, List.map_cons, List.map_nil, List.mem_cons, List.not_mem_nil, or_false,
    not_or] at hname
  obtain ⟨hinf, hinfinity, hnan⟩ := hname
  rw [read?, scanSign_append hsign hhead]
  simp only [ofList_eq_iff, scanMantissa_append hmantissa hstop]
  rw [if_neg (not_or.mpr ⟨hinf, hinfinity⟩), if_neg hnan, if_neg]
  · exact scaled_eq_some_iff.mpr ⟨exponent, hpower, rfl⟩
  · rw [List.isEmpty_iff, List.isEmpty_iff, ← List.append_eq_nil_iff]
    exact hmantissa.1

theorem read?_eq_some_iff : read? text = some x ↔ Denotes text x := by
  constructor
  · intro h
    obtain ⟨sign, hsign, body, rfl, hscan⟩ := exists_scanSign text
    obtain ⟨mantissa, whole, fraction, power, rfl, hmantissa, hof⟩ := exists_scanMantissa body
    rw [read?, hscan] at h
    simp only [hmantissa, ofList_eq_iff, beq_iff_eq] at h
    split at h
    · next hname =>
      rw [← Option.some.inj h]
      refine .name hsign ?_
      obtain hname | hname := hname <;> simp [names, hname]
    · split at h
      · next hname =>
        rw [← Option.some.inj h]
        exact .name hsign (by simp [names, hname])
      · rw [Option.ite_none_left_eq_some, List.isEmpty_iff, List.isEmpty_iff,
          ← List.append_eq_nil_iff] at h
        obtain ⟨hne, h⟩ := h
        obtain ⟨exponent, hpower, rfl⟩ := scaled_eq_some_iff.mp h
        exact .decimal hsign (hof hne) hpower
  · rintro (⟨hsign, hmantissa, hpower⟩ | ⟨hsign, hname⟩)
    · exact read?_decimal hsign hmantissa hpower
    · exact read?_name hsign hname

end MapStyle.Decimal
