import MapStyle.Proofs.Priority

/-!
# Suggestions and the feature they are for

Which of the filters suggested for a feature match it. A suggestion to compare carries the printed
value of a property. Equality compares texts only, so what numbers and flags print matches nothing,
and under the key `$id` a printed whole number is compared with the identifier.
-/

namespace MapStyle

universe u

lemma Dictionary.find?_of_mem {β : Type u} {d : Dictionary β} {e : String × β}
    (h : e ∈ d.entries) : d.find? e.1 = some e.2 := by
  obtain ⟨entries, hsorted⟩ := d
  simp only [find?]
  induction entries with
  | nil => simp at h
  | cons first entries ih =>
    rw [List.pairwise_cons] at hsorted
    rw [lookup_cons_eq]
    rcases List.mem_cons.mp h with rfl | h
    · rw [if_pos rfl]
    · have hne : e.1 ≠ first.1 := by
        intro heq
        have hlt := hsorted.1 e h
        rw [heq] at hlt
        exact String.lt_irrefl first.1 hlt
      rw [if_neg hne, ih hsorted.2 h]

lemma Dictionary.mem_of_find? {β : Type u} {d : Dictionary β} {key : String} {value : β}
    (h : d.find? key = some value) : (key, value) ∈ d.entries := by
  obtain ⟨before, after, hsplit, -⟩ := List.lookup_eq_some_iff.mp h
  rw [hsplit]
  exact List.mem_append_right before List.mem_cons_self

lemma Priority.winner?_append_singleton (f : Feature) (rules : List Rule) (r : Rule) :
    winner? f (rules ++ [r]) = some rules.length ↔ r.filter.compile.holds f = true := by
  induction rules with
  | nil =>
    rw [List.nil_append, List.length_nil, winner?_cons]
    simp [winner?]
  | cons first rules ih =>
    rw [List.cons_append, List.length_cons, winner?_cons_succ, ih]

namespace Filter

/-- Whether comparing a property of a feature with what it prints gives true: under `$id` a whole
number has to be the identifier, and everything else has to be a text. -/
def Comparable (f : Feature) (key : String) (value : PropertyValue) : Prop :=
  if key = idKey ∧ (Text.readWord? value.label).isSome = true then
    f.id = Text.readWord? value.label
  else value.string?.isSome = true

lemma string?_eq_label_iff (value : PropertyValue) :
    value.string? = some value.label ↔ value.string?.isSome = true := by
  cases value <;> simp [PropertyValue.string?, PropertyValue.label]

lemma holds_keyValue_iff {f : Feature} {key : String} {value : PropertyValue}
    (h : f.property? key = some value) :
    (keyValue key value.label).compile.holds f = true ↔ Comparable f key value := by
  have htext : (Predicate.propertyEquals key value.label).holds f = true ↔
      value.string?.isSome = true := by
    rw [Predicate.holds, Feature.text?, h, Option.bind_some, beq_iff_eq, string?_eq_label_iff]
  unfold Comparable
  rw [compile]
  cases hword : Text.readWord? value.label with
  | none => simpa using htext
  | some id =>
    by_cases hkey : key = idKey
    · simp [hkey, Predicate.holds]
    · simpa [hkey] using htext

lemma mem_suggestions_iff {f : Feature} {s : Filter} :
    s ∈ suggestions f ↔ (∃ id, f.id = some id ∧ s = .identity id) ∨
      ∃ p ∈ f.properties.entries, isDisplayable p.1 = true ∧
        (s = .keyPresence p.1 ∨ s = .keyValue p.1 p.2.label) := by
  unfold suggestions forProperty
  simp only [List.mem_append, Option.mem_toList, Option.map_eq_some_iff, List.mem_flatMap,
    List.mem_ite_nil_right, List.mem_cons, List.not_mem_nil, or_false, eq_comm (b := s)]

lemma holds_suggestion_iff {f : Feature} {s : Filter} (h : s ∈ suggestions f) :
    s.compile.holds f = true ↔
      ∀ p ∈ f.properties.entries, s = .keyValue p.1 p.2.label → Comparable f p.1 p.2 := by
  have hcompared : ∀ p ∈ f.properties.entries,
      ((keyValue p.1 p.2.label).compile.holds f = true ↔ Comparable f p.1 p.2) :=
    fun p hp => holds_keyValue_iff (Dictionary.find?_of_mem hp)
  obtain ⟨id, hid, rfl⟩ | ⟨p, hp, _, rfl | rfl⟩ := mem_suggestions_iff.mp h
  · simp [compile, Predicate.holds, hid]
  · have hfind : f.property? p.1 = some p.2 := Dictionary.find?_of_mem hp
    simp [compile, Predicate.holds, hfind]
  · -- Another property with the same suggestion has the same value, in print at least.
    constructor
    · intro hholds q hq heq
      rw [heq] at hholds
      exact (hcompared q hq).mp hholds
    · intro hall
      exact (hcompared p hp).mpr (hall p hp rfl)

/-- Which suggestions match their feature. A rule for a suggestion, as the last one, wins the
feature exactly if the suggestion matches it. All do but comparisons of properties that are not
comparable, so all suggestions match exactly if every property on display is comparable. -/
theorem suggestions_match_iff (f : Feature) :
    (∀ s ∈ suggestions f,
      (s.compile.holds f = true ↔
        ∀ p ∈ f.properties.entries, s = .keyValue p.1 p.2.label → Comparable f p.1 p.2) ∧
      ∀ (rules : List Rule) (id : String),
        Priority.winner? f (rules ++ [Rule.suggested id s]) = some rules.length ↔
          s.compile.holds f = true) ∧
    ((∀ s ∈ suggestions f, s.compile.holds f = true) ↔
      ∀ p ∈ f.properties.entries, isDisplayable p.1 = true → Comparable f p.1 p.2) := by
  refine ⟨fun s hs => ⟨holds_suggestion_iff hs, fun rules id => ?_⟩, ?_⟩
  · exact Priority.winner?_append_singleton f rules (Rule.suggested id s)
  · constructor
    · intro hall p hp hdisplayable
      have hmem : keyValue p.1 p.2.label ∈ suggestions f :=
        mem_suggestions_iff.mpr (.inr ⟨p, hp, hdisplayable, .inr rfl⟩)
      exact (holds_suggestion_iff hmem).mp (hall _ hmem) p hp rfl
    · intro hall s hs
      rw [holds_suggestion_iff hs]
      rintro p hp rfl
      have hdisplayable : isDisplayable p.1 = true := by
        obtain ⟨_, _, hid⟩ | ⟨q, _, hq, hkey | hkey⟩ := mem_suggestions_iff.mp hs
        · cases hid
        · cases hkey
        · obtain ⟨hkey, _⟩ := keyValue.inj hkey
          rw [hkey]
          exact hq
      exact hall p hp hdisplayable

/-- A road whose number of lanes is a number. -/
def twoLanes : Feature := ⟨some 7, .ofList [("lanes", .number 2.0)]⟩

theorem suggestion_misses_twoLanes :
    .keyValue "lanes" "2" ∈ suggestions twoLanes ∧
    (keyValue "lanes" "2").compile.holds twoLanes = false ∧
    Priority.winner? twoLanes [Rule.suggested "new" (.keyValue "lanes" "2")] = none := by
  decide

end Filter

end MapStyle
