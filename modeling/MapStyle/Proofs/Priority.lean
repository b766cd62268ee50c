import MapStyle.Priority
import Mathlib.Order.Bounds.Basic
import Mathlib.Tactic.Lemma

/-!
# Priority as a partition of the features

Effective predicates, the search for the last matching rule and the predicate of all rules are
written apart. This file proves that they agree: a feature satisfies the effective predicate of the
rule that wins it and no other one, and some effective predicate whenever any rule's filter matches.
-/

namespace MapStyle.Priority

universe u

/-- The positions of the rules whose own filter matches a feature. -/
def matching (f : Feature) (rules : List Rule) : Set Nat :=
  {i | ∃ r, rules[i]? = some r ∧ r.filter.compile.holds f = true}

lemma zero_mem_matching_cons (f : Feature) (r : Rule) (rules : List Rule) :
    0 ∈ matching f (r :: rules) ↔ r.filter.compile.holds f = true := by
  simp [matching]

lemma succ_mem_matching_cons (f : Feature) (r : Rule) (rules : List Rule) (i : Nat) :
    i + 1 ∈ matching f (r :: rules) ↔ i ∈ matching f rules := by
  simp [matching]

/-! ### The winning rule -/

lemma winner?_eq_none_iff (f : Feature) (rules : List Rule) :
    winner? f rules = none ↔ ∀ r ∈ rules, r.filter.compile.holds f = false := by
  induction rules with
  | nil => simp [winner?]
  | cons r rules ih =>
    rw [List.forall_mem_cons, ← ih, winner?]
    cases winner? f rules with
    | some i => simp
    | none => by_cases h : r.filter.compile.holds f <;> simp [Filter.matches?, h]

lemma matching_eq_empty_of_winner?_eq_none {f : Feature} {rules : List Rule}
    (h : winner? f rules = none) : matching f rules = ∅ := by
  rw [winner?_eq_none_iff] at h
  ext i
  simp only [matching, Set.mem_ofPred_eq, Set.mem_empty_iff_false, iff_false]
  rintro ⟨r, hr, hf⟩
  have hmem := List.mem_of_getElem? hr
  simp [h r hmem] at hf

lemma isGreatest_of_winner?_eq_some {f : Feature} {rules : List Rule} {i : Nat}
    (h : winner? f rules = some i) : IsGreatest (matching f rules) i := by
  induction rules generalizing i with
  | nil => simp [winner?] at h
  | cons r rules ih =>
    rw [winner?] at h
    cases hw : winner? f rules with
    | some k =>
      obtain rfl : k + 1 = i := by simpa [hw] using h
      obtain ⟨hk, hmax⟩ := ih hw
      refine ⟨(succ_mem_matching_cons f r rules k).mpr hk, ?_⟩
      intro j hj
      cases j with
      | zero => omega
      | succ j => exact Nat.succ_le_succ (hmax ((succ_mem_matching_cons f r rules j).mp hj))
    | none =>
      have hempty := matching_eq_empty_of_winner?_eq_none hw
      have hr : r.filter.matches? f = true ∧ 0 = i := by simpa [hw] using h
      obtain ⟨hr, rfl⟩ := hr
      refine ⟨(zero_mem_matching_cons f r rules).mpr hr, ?_⟩
      intro j hj
      cases j with
      | zero => exact le_rfl
      | succ j => simp [succ_mem_matching_cons, hempty] at hj

lemma winner?_eq_some_iff (f : Feature) (rules : List Rule) (i : Nat) :
    winner? f rules = some i ↔ IsGreatest (matching f rules) i := by
  constructor
  · exact isGreatest_of_winner?_eq_some
  · intro hi
    cases hw : winner? f rules with
    | none => simp [matching_eq_empty_of_winner?_eq_none hw, IsGreatest] at hi
    | some k => rw [(isGreatest_of_winner?_eq_some hw).unique hi]

lemma exists_rule_of_winner? {f : Feature} {rules : List Rule} {i : Nat}
    (h : winner? f rules = some i) : ∃ r, rules[i]? = some r := by
  obtain ⟨r, hr, _⟩ := (isGreatest_of_winner?_eq_some h).1
  exact ⟨r, hr⟩

lemma winner?_cons (f : Feature) (r : Rule) (rules : List Rule) :
    winner? f (r :: rules) = some 0 ↔
      r.filter.compile.holds f = true ∧ winner? f rules = none := by
  rw [winner?]
  cases winner? f rules with
  | some k => simp
  | none => by_cases h : r.filter.compile.holds f <;> simp [Filter.matches?, h]

lemma winner?_cons_succ (f : Feature) (r : Rule) (rules : List Rule) (i : Nat) :
    winner? f (r :: rules) = some (i + 1) ↔ winner? f rules = some i := by
  rw [winner?]
  cases winner? f rules with
  | some k => simp
  | none => simp

/-! ### Effective predicates -/

lemma holds_anyRule (f : Feature) (rules : List Rule) :
    (anyRule rules).holds f = (winner? f rules).isSome := by
  have hany : (anyRule rules).holds f = rules.any fun r => r.filter.compile.holds f := by
    rw [anyRule, Predicate.holds_any, filters, List.any_map]
    rfl
  rw [hany, Bool.eq_iff_iff, Option.isSome_iff_ne_none, ne_eq, winner?_eq_none_iff]
  simp

lemma holds_except (f : Feature) (own : Predicate) (later : List Predicate) :
    (except own later).holds f = (own.holds f && !(Predicate.any later).holds f) := by
  unfold except
  cases later with
  | nil => simp [Predicate.holds_any]
  | cons p later => simp [Predicate.holds_all, Predicate.holds_not]

lemma map_rule_effective (rules : List Rule) :
    (effective rules).map EffectiveRule.rule = rules := by
  induction rules with
  | nil => rfl
  | cons r rules ih => rw [effective, List.map_cons, ih]

lemma length_effective (rules : List Rule) : (effective rules).length = rules.length := by
  rw [← List.length_map EffectiveRule.rule, map_rule_effective]

lemma rule_of_effective {rules : List Rule} {i : Nat} {e : EffectiveRule}
    (h : (effective rules)[i]? = some e) : rules[i]? = some e.rule := by
  have hmap := congrArg (fun l => l[i]?) (map_rule_effective rules)
  simpa [h] using hmap.symm

lemma exists_effective {rules : List Rule} {i : Nat} {r : Rule} (h : rules[i]? = some r) :
    ∃ e, (effective rules)[i]? = some e ∧ e.rule = r := by
  have hmap := congrArg (fun l => l[i]?) (map_rule_effective rules)
  rw [List.getElem?_map, h] at hmap
  exact Option.map_eq_some_iff.mp hmap

lemma flatMap_effective {β : Type u} {rules : List Rule} {g : EffectiveRule → List β}
    {h : Rule → Nat → List β}
    (hgh : ∀ i e, (effective rules)[i]? = some e → g e = h e.rule i) :
    (effective rules).flatMap g = rules.zipIdx.flatMap fun ri => h ri.1 ri.2 := by
  rw [List.flatMap_def, List.flatMap_def]
  congr 1
  apply List.ext_getElem?
  intro i
  rw [List.getElem?_map, List.getElem?_map, List.getElem?_zipIdx]
  cases he : (effective rules)[i]? with
  | none =>
    have hi : rules.length ≤ i := by
      rw [← length_effective]
      exact List.getElem?_eq_none_iff.mp he
    simp [hi]
  | some e =>
    rw [rule_of_effective he]
    simp [hgh i e he]

lemma flatMap_effective_range {β : Type u} {rules : List Rule} {g : EffectiveRule → List β}
    {h : Nat → List β} (hgh : ∀ i e, (effective rules)[i]? = some e → g e = h i) :
    (effective rules).flatMap g = (List.range rules.length).flatMap h := by
  rw [flatMap_effective (h := fun _ i => h i) hgh, List.range_eq_range', ← List.zipIdx_map_snd,
    List.flatMap_map]

lemma holds_effective_iff {f : Feature} {rules : List Rule} {i : Nat} {e : EffectiveRule}
    (h : (effective rules)[i]? = some e) :
    e.predicate.holds f = true ↔ winner? f rules = some i := by
  induction rules generalizing i with
  | nil => simp [effective] at h
  | cons r rules ih =>
    rw [effective] at h
    cases i with
    | zero =>
      obtain rfl := Option.some.inj h
      have hlater : (Predicate.any (filters rules)).holds f = (winner? f rules).isSome :=
        holds_anyRule f rules
      rw [winner?_cons, holds_except, hlater]
      simp
    | succ i => rw [winner?_cons_succ, ih h]

/-- Of all effective rules, a feature satisfies the predicate of the winning one alone. -/
theorem filter_effective (f : Feature) (rules : List Rule) :
    (effective rules).filter (fun e => e.predicate.holds f) =
      ((winner? f rules).bind fun i => (effective rules)[i]?).toList := by
  induction rules with
  | nil => rfl
  | cons r rules ih =>
    have hhead : (except r.filter.compile (filters rules)).holds f = true ↔
        winner? f (r :: rules) = some 0 := by
      have hfirst : (effective (r :: rules))[0]? =
          some ⟨r, except r.filter.compile (filters rules)⟩ := rfl
      exact holds_effective_iff hfirst
    rw [effective, List.filter_cons, ih]
    cases hw : winner? f (r :: rules) with
    | none =>
      have hrest : winner? f rules = none := by
        rw [winner?_eq_none_iff] at hw ⊢
        exact fun s hs => hw s (List.mem_cons_of_mem r hs)
      simp [hhead, hw, hrest]
    | some i =>
      cases i with
      | zero => simp [hhead, hw, ((winner?_cons f r rules).mp hw).2]
      | succ i => simp [hhead, hw, (winner?_cons_succ f r rules i).mp hw]

/-- Priority resolution is a partition by the last matching rule. -/
theorem effective_partition (rules : List Rule) (f : Feature) :
    (effective rules).map EffectiveRule.rule = rules ∧
    (∀ i e, (effective rules)[i]? = some e →
      (e.predicate.holds f = true ↔ winner? f rules = some i)) ∧
    (∀ i, winner? f rules = some i ↔ IsGreatest (matching f rules) i) ∧
    (effective rules).countP (fun e => e.predicate.holds f) ≤ 1 ∧
    ((anyRule rules).holds f = true ↔ ∃ e ∈ effective rules, e.predicate.holds f = true) := by
  have hfilter := filter_effective f rules
  refine ⟨map_rule_effective rules, fun i e h => holds_effective_iff h, winner?_eq_some_iff f rules,
    ?_, ?_⟩
  · rw [List.countP_eq_length_filter, hfilter]
    exact Option.length_toList_le
  · rw [holds_anyRule]
    constructor
    · intro h
      obtain ⟨i, hi⟩ := Option.isSome_iff_exists.mp h
      obtain ⟨r, hr⟩ := exists_rule_of_winner? hi
      obtain ⟨e, he, _⟩ := exists_effective hr
      exact ⟨e, List.mem_of_getElem? he, (holds_effective_iff he).mpr hi⟩
    · rintro ⟨e, he, hholds⟩
      obtain ⟨i, hi⟩ := List.getElem?_of_mem he
      rw [(holds_effective_iff hi).mp hholds]
      rfl

end MapStyle.Priority
