import MapStyle.Proofs.Edits
import Mathlib.Order.Bounds.Basic

/-!
# The first defect of a definition

Validation goes through the rules once, with the identities that it has met. What it reports is the
defect of the first rule that has one, found by looking at each rule and those before it; of two
defects of this rule, the repeated identity. Compiling and loading stop with the same error.
-/

namespace MapStyle

open Json

/-- Whether the width of a line is finite and positive. -/
def Line.HasWidth (l : Line) : Prop :=
  l.width.isFinite = true ∧ 0.0 < l.width

/-- The identities of the rules before a position. -/
def idsBefore (rules : List Rule) (i : Nat) : List String :=
  (rules.take i).map Rule.id

/-- Whether the rule at a position has the identity of an earlier rule, or a line whose width is not
finite and positive. -/
def IsDefective (rules : List Rule) (i : Nat) : Prop :=
  ∃ r ∈ rules[i]?, r.id ∈ idsBefore rules i ∨ ∃ line ∈ r.treatment.line, ¬line.HasWidth

lemma Line.isValid_iff (l : Line) : l.isValid = true ↔ l.HasWidth := by
  rw [isValid, HasWidth, Bool.and_eq_true, decide_eq_true_iff]

lemma Rule.drawable_iff (r : Rule) : r.Drawable ↔ ∀ line ∈ r.treatment.line, line.HasWidth := by
  simp only [Rule.Drawable, Line.isValid_iff]

namespace Definition

/-! ### One rule -/

/-- What is reported of a rule. A repeated identity comes first. -/
lemma ruleDefect?_eq_some_iff {earlier : List String} {r : Rule} {err : StyleError} :
    ruleDefect? earlier r = some err ↔
      (r.id ∈ earlier ∧ err = .duplicateRule r.id) ∨
      (r.id ∉ earlier ∧ ∃ line ∈ r.treatment.line, ¬line.HasWidth ∧
        err = .invalidLineWidth r.id line.width) := by
  unfold ruleDefect?
  by_cases hid : r.id ∈ earlier
  · simp [hid, eq_comm]
  · cases hline : r.treatment.line with
    | none => simp [hid]
    | some line =>
      have hvalid := line.isValid_iff
      by_cases hwidth : line.HasWidth
      · simp [hid, hvalid.mpr hwidth, hwidth]
      · simp [hid, hvalid.not.mpr hwidth, hwidth, eq_comm]

lemma ruleDefect?_congr {earlier more : List String} (h : ∀ id, id ∈ earlier ↔ id ∈ more)
    (r : Rule) : ruleDefect? earlier r = ruleDefect? more r := by
  unfold ruleDefect?
  simp only [h]

/-! ### All rules -/

/-- The rule that is reported comes after rules without defects. -/
lemma exists_of_firstDefect? {earlier : List String} {rules : List Rule} {err : StyleError}
    (h : firstDefect? earlier rules = some err) :
    ∃ before r after, rules = before ++ r :: after ∧ firstDefect? earlier before = none ∧
      ruleDefect? (before.map Rule.id ++ earlier) r = some err := by
  induction rules generalizing earlier with
  | nil => cases h
  | cons r rules ih =>
    rw [firstDefect?] at h
    cases hr : ruleDefect? earlier r with
    | some e =>
      rw [hr] at h
      exact ⟨[], r, rules, rfl, rfl, hr.trans h⟩
    | none =>
      rw [hr] at h
      obtain ⟨before, s, after, rfl, hbefore, hs⟩ := ih h
      refine ⟨r :: before, s, after, rfl, ?_, ?_⟩
      · rw [firstDefect?, hr]
        exact hbefore
      · rw [← hs]
        refine ruleDefect?_congr (fun id => ?_) s
        simp only [List.map_cons, List.cons_append, List.mem_cons, List.mem_append]
        tauto

/-- Valid rules have no defective one among them. -/
lemma not_isDefective_of_firstDefect? {rules : List Rule} (h : firstDefect? [] rules = none)
    (i : Nat) : ¬IsDefective rules i := by
  obtain ⟨hids, -, hlines⟩ := (firstDefect?_eq_none_iff [] rules).mp h
  rintro ⟨r, hr, hdefect⟩
  obtain ⟨hi, rfl⟩ := List.getElem?_eq_some_iff.mp hr
  rcases hdefect with hrepeated | ⟨line, hline, hwidth⟩
  · have hsplit : rules = rules.take i ++ rules[i] :: rules.drop (i + 1) := by
      rw [List.getElem_cons_drop, List.take_append_drop]
    rw [hsplit, List.map_append, List.map_cons, List.nodup_middle, List.nodup_cons] at hids
    exact hids.1 (List.mem_append_left _ hrepeated)
  · exact hwidth ((Rule.drawable_iff _).mp (hlines _ (List.getElem_mem hi)) line hline)

lemma isDefective_append {before : List Rule} (after : List Rule) {i : Nat}
    (hi : i < before.length) : IsDefective (before ++ after) i ↔ IsDefective before i := by
  unfold IsDefective idsBefore
  rw [List.getElem?_append_left hi, List.take_append_of_le_length hi.le]

/-- The rule that is reported is the first one with a defect. -/
lemma isLeast_of_firstDefect? {rules : List Rule} {err : StyleError}
    (h : firstDefect? [] rules = some err) :
    ∃ i r, IsLeast {i | IsDefective rules i} i ∧ rules[i]? = some r ∧
      ruleDefect? (idsBefore rules i) r = some err := by
  obtain ⟨before, r, after, rfl, hbefore, hdefect⟩ := exists_of_firstDefect? h
  have hr : (before ++ r :: after)[before.length]? = some r := by simp
  have hids : idsBefore (before ++ r :: after) before.length = before.map Rule.id := by
    simp [idsBefore]
  rw [List.append_nil, ← hids] at hdefect
  refine ⟨before.length, r, ⟨⟨r, hr, ?_⟩, ?_⟩, hr, hdefect⟩
  · rcases ruleDefect?_eq_some_iff.mp hdefect with ⟨hrepeated, -⟩ | ⟨-, line, hline, hwidth, -⟩
    · exact .inl hrepeated
    · exact .inr ⟨line, hline, hwidth⟩
  · intro i hi
    by_contra! hlt
    exact not_isDefective_of_firstDefect? hbefore i ((isDefective_append _ hlt).mp hi)

lemma validate_eq_error_iff {d : Definition} {err : StyleError} :
    d.validate = .error err ↔ firstDefect? [] d.rules = some err := by
  unfold validate
  cases firstDefect? [] d.rules <;> simp

lemma firstDefect?_eq_some_iff {rules : List Rule} {err : StyleError} :
    firstDefect? [] rules = some err ↔
      ∃ i r, IsLeast {i | IsDefective rules i} i ∧ rules[i]? = some r ∧
        ruleDefect? (idsBefore rules i) r = some err := by
  refine ⟨isLeast_of_firstDefect?, ?_⟩
  rintro ⟨i, r, hleast, hr, hdefect⟩
  -- a rule is reported, and only one can be the first
  cases hfirst : firstDefect? [] rules with
  | none => exact absurd hleast.1 (not_isDefective_of_firstDefect? hfirst i)
  | some reported =>
    obtain ⟨j, s, hleast', hs, hreported⟩ := isLeast_of_firstDefect? hfirst
    obtain rfl := hleast.unique hleast'
    obtain rfl := Option.some.inj (hr.symm.trans hs)
    exact hreported.symm.trans hdefect

/-- What is reported of a rule with a defect: if its identity is new, the width of its line. -/
lemma ruleDefect?_eq_some_iff_of_isDefective {rules : List Rule} {i : Nat} {r : Rule}
    {err : StyleError} (h : IsDefective rules i) (hr : rules[i]? = some r) :
    ruleDefect? (idsBefore rules i) r = some err ↔
      (r.id ∈ idsBefore rules i ∧ err = .duplicateRule r.id) ∨
      (r.id ∉ idsBefore rules i ∧ ∃ line ∈ r.treatment.line,
        err = .invalidLineWidth r.id line.width) := by
  rw [ruleDefect?_eq_some_iff]
  refine or_congr_right (and_congr_right fun hnew => exists_congr fun line =>
    and_congr_right fun hline => and_iff_right ?_)
  obtain ⟨s, hs, hdefect⟩ := h
  obtain rfl := Option.some.inj (hr.symm.trans hs)
  obtain ⟨bad, hbad, hwidth⟩ := hdefect.resolve_left hnew
  obtain rfl := Option.some.inj (hline.symm.trans hbad)
  exact hwidth

/-! ### Compiling and loading -/

lemma compile_eq_error_iff (c : Renderer.Config) (d : Definition) (err : StyleError) :
    Renderer.compile c d = .error err ↔ d.validate = .error err := by
  unfold Renderer.compile
  cases d.validate <;> simp [bind, Except.bind, pure, Except.pure]

lemma ofText_of_decoded {text : String} {d : Definition}
    (h : (Tree.ofText? text).bind ofTree? = some d) :
    ofText text = d.validate.map fun _ => d := by
  unfold ofText load
  rw [h]

/-- Validation finds the first defect. It succeeds exactly if all identities are distinct and all
widths of lines are finite and positive. Otherwise it reports the first rule that has the identity
of an earlier one or a line with another width: as a duplicate if the identity has occurred, else
with its width. Under any settings compiling fails exactly with this error and else gives a
document, and so does loading a text that decodes. -/
theorem validate_finds_first_defect (d : Definition) :
    (d.validate = .ok () ↔ (d.rules.map Rule.id).Nodup ∧
      ∀ r ∈ d.rules, ∀ line ∈ r.treatment.line, line.width.isFinite = true ∧ 0.0 < line.width) ∧
    (∀ err, d.validate = .error err ↔
      ∃ i r, IsLeast {i | IsDefective d.rules i} i ∧ d.rules[i]? = some r ∧
        ((r.id ∈ idsBefore d.rules i ∧ err = .duplicateRule r.id) ∨
          (r.id ∉ idsBefore d.rules i ∧ ∃ line ∈ r.treatment.line,
            err = .invalidLineWidth r.id line.width))) ∧
    (∀ c, (∀ err, Renderer.compile c d = .error err ↔ d.validate = .error err) ∧
      ((∃ doc, Renderer.compile c d = .ok doc) ↔ d.validate = .ok ())) ∧
    ∀ text, (Tree.ofText? text).bind ofTree? = some d →
      (∀ err, ofText text = .error err ↔ d.validate = .error err) ∧
      ∀ loaded, ofText text = .ok loaded ↔ d.validate = .ok () ∧ loaded = d := by
  refine ⟨?_, fun err => ?_, fun c => ⟨compile_eq_error_iff c d, ?_⟩, fun text htext => ?_⟩
  · simp only [validate_eq_ok_iff, Rule.drawable_iff, Line.HasWidth]
  · rw [validate_eq_error_iff, firstDefect?_eq_some_iff]
    refine exists_congr fun i => exists_congr fun r =>
      and_congr_right fun hleast => and_congr_right fun hr => ?_
    exact ruleDefect?_eq_some_iff_of_isDefective hleast.1 hr
  · simp only [Renderer.compile_eq_ok_iff, exists_and_left, exists_eq, and_true]
  · rw [ofText_of_decoded htext]
    cases d.validate <;> simp [Except.map, eq_comm]

end Definition

end MapStyle
