import MapStyle.Proofs.Suggestions

/-!
# Keys in capitals

A key counts as written in capitals if it has letters and upper case leaves it as it is. That is
true of capitals, and of every word of a script without letter case as well, so properties with such
keys are not suggested either.
-/

namespace MapStyle

/-! ### Letter case -/

namespace Text

lemma length_le_length_flatMap {f : Char → List Char} (hf : ∀ c, f c ≠ []) (text : List Char) :
    text.length ≤ (text.flatMap f).length := by
  induction text with
  | nil => exact Nat.zero_le _
  | cons c rest ih =>
    have hc := List.length_pos_iff.mpr (hf c)
    rw [List.flatMap_cons, List.length_append, List.length_cons]
    omega

/-- A text that a case mapping leaves as it is consists of characters that it leaves as they are. -/
lemma flatMap_eq_self_iff {f : Char → List Char} (hf : ∀ c, f c ≠ []) {text : List Char} :
    text.flatMap f = text ↔ ∀ c ∈ text, f c = [c] := by
  induction text with
  | nil => simp
  | cons c rest ih =>
    rw [List.flatMap_cons, List.forall_mem_cons, ← ih]
    constructor
    · intro h
      obtain ⟨d, tail, hc⟩ := List.exists_cons_of_ne_nil (hf c)
      rw [hc, List.cons_append] at h
      obtain ⟨rfl, htail⟩ := List.cons.inj h
      -- the rest does not get shorter, so `c` has no longer image than itself
      have hnil : tail = [] := by
        have hle := length_le_length_flatMap hf rest
        have heq := congrArg List.length htail
        rw [List.length_append] at heq
        exact List.length_eq_zero_iff.mp (by omega)
      subst hnil
      exact ⟨hc, htail⟩
    · rintro ⟨hc, hrest⟩
      rw [hc, hrest, List.singleton_append]

lemma ne_nil_of_mem_upperExpansions : ∀ e ∈ upperExpansions, e.2 ≠ [] := by decide

lemma upper_ne_nil (c : Char) : upper c ≠ [] := by
  unfold upper mapCase
  split
  · exact List.cons_ne_nil _ _
  · split
    · next ns hns =>
      obtain ⟨before, after, hsplit, -⟩ := List.lookup_eq_some_iff.mp hns
      have hne := ne_nil_of_mem_upperExpansions (c.toNat, ns) (by simp [hsplit])
      simpa using hne
    · exact List.cons_ne_nil _ _

/-- Whether a character is its own upper case and its own lower case. -/
def IsCaseless (c : Char) : Prop :=
  upper c = [c] ∧ lower c = [c]

end Text

open Text

namespace Filter

/-! ### Keys on display -/

lemma isAllCaps_iff (key : List Char) :
    isAllCaps key = true ↔ (∃ c ∈ key, isAlphabetic c = true) ∧ ∀ c ∈ key, upper c = [c] := by
  rw [isAllCaps, Bool.and_eq_true, List.any_eq_true, beq_iff_eq, flatMap_eq_self_iff upper_ne_nil]

lemma isNamespaced_of_not_mem {key : List Char} (h : ':' ∉ key) : isNamespaced key = false := by
  rw [isNamespaced, List.contains_eq_mem, decide_eq_false h, Bool.false_and]

lemma isHidden_eq_false_iff (key : List Char) :
    isHidden key = false ↔ ∀ hidden ∈ hiddenKeys, key.map Char.toLower ≠ hidden.toList := by
  simp only [isHidden, List.any_eq_false, beq_iff_eq]

lemma isDisplayable_iff_of_listed {key : String} (hcolon : ':' ∉ key.toList)
    (hhidden : ∀ hidden ∈ hiddenKeys, key.toList.map Char.toLower ≠ hidden.toList) :
    isDisplayable key = true ↔
      ¬((∃ c ∈ key.toList, isAlphabetic c = true) ∧ ∀ c ∈ key.toList, upper c = [c]) := by
  rw [isDisplayable, isNamespaced_of_not_mem hcolon, (isHidden_eq_false_iff _).mpr hhidden,
    ← isAllCaps_iff]
  simp

lemma keyPresence_mem_suggestions_iff {f : Feature} {key : String} {value : PropertyValue}
    (h : f.property? key = some value) :
    keyPresence key ∈ suggestions f ↔ isDisplayable key = true := by
  rw [mem_suggestions_iff]
  constructor
  · rintro (⟨id, _, hid⟩ | ⟨p, _, hp, hkey | hkey⟩)
    · cases hid
    · rwa [keyPresence.inj hkey]
    · cases hkey
  · intro hkey
    exact .inr ⟨(key, value), Dictionary.mem_of_find? h, hkey, .inl rfl⟩

lemma keyValue_mem_suggestions_iff {f : Feature} {key : String} {value : PropertyValue}
    (h : f.property? key = some value) :
    keyValue key value.label ∈ suggestions f ↔ isDisplayable key = true := by
  rw [mem_suggestions_iff]
  constructor
  · rintro (⟨id, _, hid⟩ | ⟨p, _, hp, hkey | hkey⟩)
    · cases hid
    · cases hkey
    · rwa [(keyValue.inj hkey).1]
  · intro hkey
    exact .inr ⟨(key, value), Dictionary.mem_of_find? h, hkey, .inr rfl⟩

/-- Which keys that lower case leaves as they are count as capitals. A key of this kind that has no
namespace and is not hidden by name is on display unless it is a word without letter case, and both
filters for a property are offered exactly if its key is on display. -/
theorem isDisplayable_iff_of_lowered {key : String} (hcolon : ':' ∉ key.toList)
    (hhidden : ∀ hidden ∈ hiddenKeys, key.toList.map Char.toLower ≠ hidden.toList)
    (hlower : ∀ c ∈ key.toList, lower c = [c]) :
    (isDisplayable key = true ↔
      ¬((∃ c ∈ key.toList, isAlphabetic c = true) ∧ ∀ c ∈ key.toList, IsCaseless c)) ∧
    ∀ (f : Feature) (value : PropertyValue), f.property? key = some value →
      (keyPresence key ∈ suggestions f ↔ isDisplayable key = true) ∧
      (keyValue key value.label ∈ suggestions f ↔ isDisplayable key = true) := by
  constructor
  · have hcaseless : (∀ c ∈ key.toList, IsCaseless c) ↔ ∀ c ∈ key.toList, upper c = [c] :=
      ⟨fun h c hc => (h c hc).1, fun h c hc => ⟨h c hc, hlower c hc⟩⟩
    rw [isDisplayable_iff_of_listed hcolon hhidden, hcaseless]
  · intro f value hvalue
    exact ⟨keyPresence_mem_suggestions_iff hvalue, keyValue_mem_suggestions_iff hvalue⟩

/-- A street with a name in letters that have a case and letters that have none. -/
def mixedStreet : Feature := ⟨none, .ofList [("name_漢字", .text "中山路")]⟩

theorem isDisplayable_mixedStreet :
    (':' ∉ "name_漢字".toList ∧
      (∀ hidden ∈ hiddenKeys, "name_漢字".toList.map Char.toLower ≠ hidden.toList) ∧
      (∀ c ∈ "name_漢字".toList, lower c = [c]) ∧
      mixedStreet.property? "name_漢字" = some (.text "中山路")) ∧
    isDisplayable "name_漢字" = true ∧
    keyPresence "name_漢字" ∈ suggestions mixedStreet ∧
    keyValue "name_漢字" "中山路" ∈ suggestions mixedStreet := by
  have hcolon : ':' ∉ "name_漢字".toList := by decide
  have hhidden : ∀ hidden ∈ hiddenKeys,
      "name_漢字".toList.map Char.toLower ≠ hidden.toList := by decide
  have hall : "name_漢字".toList.all (fun c => lower c == [c]) = true := by decide
  have hlower : ∀ c ∈ "name_漢字".toList, lower c = [c] := fun c hc =>
    eq_of_beq (List.all_eq_true.mp hall c hc)
  have hvalue : mixedStreet.property? "name_漢字" = some (.text "中山路") := rfl
  obtain ⟨hdisplay, hoffered⟩ := isDisplayable_iff_of_lowered hcolon hhidden hlower
  have hkey : isDisplayable "name_漢字" = true := by
    refine hdisplay.mpr ?_
    rintro ⟨-, hcaseless⟩
    exact absurd (hcaseless 'n' (by decide)).1 (by decide)
  obtain ⟨hpresence, hequal⟩ := hoffered mixedStreet _ hvalue
  exact ⟨⟨hcolon, hhidden, hlower, hvalue⟩, hkey, hpresence.mpr hkey, hequal.mpr hkey⟩

/-- A key in a script without letter case is not on display, though lower case leaves it as it
is. -/
theorem not_isDisplayable_caselessKey :
    ':' ∉ "道路".toList ∧
    (∀ hidden ∈ hiddenKeys, "道路".toList.map Char.toLower ≠ hidden.toList) ∧
    (∀ c ∈ "道路".toList, lower c = [c]) ∧
    isDisplayable "道路" = false ∧
    suggestions ⟨none, .ofList [("道路", .text "高速")]⟩ = [] := by
  have hall : "道路".toList.all (fun c => lower c == [c]) = true := by decide
  have hlower : ∀ c ∈ "道路".toList, lower c = [c] := fun c hc =>
    eq_of_beq (List.all_eq_true.mp hall c hc)
  refine ⟨by decide, by decide, hlower, ?_, ?_⟩ <;> decide +kernel

end Filter

end MapStyle
