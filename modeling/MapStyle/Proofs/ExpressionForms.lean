import MapStyle.Proofs.Expressions
import Mathlib.Data.List.Forall2

/-!
# The forms of an expression

Which values are expressions. Besides the one that a predicate is written as, exactly those are read
as it in which the operands of some comparisons stand the other way round.
-/

namespace MapStyle

/-- Whether a value is another one with the operands of some of its comparisons swapped, at any
depth. -/
inductive Json.Swapped : Json → Json → Prop where
  | same (j : Json) : Swapped j j
  | operands {a b c d : Json} (hac : Swapped a c) (hbd : Swapped b d) :
      Swapped (Renderer.call "==" [a, b]) (Renderer.call "==" [d, c])
  | items {js ks : List Json} (h : List.Forall₂ Swapped js ks) : Swapped (.array js) (.array ks)

lemma map_eq_ok_iff {ε α β : Type} {x : Except ε α} {g : α → β} {b : β} :
    x.map g = .ok b ↔ ∃ a, x = .ok a ∧ g a = b := by
  cases x <;> simp [Except.map]

lemma Text.word?_eq_some_iff {n : Int} {w : Int64} : word? n = some w ↔ n = w.toInt := by
  constructor
  · intro h
    unfold word? at h
    split at h
    · next hbounds =>
      rw [← Option.some.inj h]
      exact (Int64.toInt_ofInt_of_le hbounds.1 (Int.lt_add_one_iff.mpr hbounds.2)).symm
    · cases h
  · rintro rfl
    exact word?_toInt w

namespace Json.Swapped

variable {k : Json}

lemma eq_of_string {s : String} (h : Swapped (.string s) k) : k = .string s := by
  cases h
  rfl

lemma eq_of_number {n : Number} (h : Swapped (.number n) k) : k = .number n := by
  cases h
  rfl

lemma eq_of_strings {texts : List String} {ks : List Json}
    (h : List.Forall₂ Swapped (texts.map .string) ks) : ks = texts.map .string := by
  induction texts generalizing ks with
  | nil =>
    cases h
    rfl
  | cons text texts ih =>
    cases h with
    | cons hfirst hrest => rw [eq_of_string hfirst, ih hrest, List.map_cons]

/-- The operator stays where it is, and the arguments do unless they are compared. -/
lemma call_cases {operator : String} {arguments : List Json}
    (h : Swapped (Renderer.call operator arguments) k) :
    (∃ ks, k = Renderer.call operator ks ∧ List.Forall₂ Swapped arguments ks) ∨
    ∃ a b c d, operator = "==" ∧ arguments = [a, b] ∧ k = Renderer.call "==" [d, c] ∧
      Swapped a c ∧ Swapped b d := by
  unfold Renderer.call at h
  generalize hj : Json.array (.string operator :: arguments) = j at h
  cases h with
  | same =>
    exact .inl ⟨arguments, hj.symm, List.forall₂_same.mpr fun a _ => .same a⟩
  | operands hac hbd =>
    cases hj
    exact .inr ⟨_, _, _, _, rfl, rfl, rfl, hac, hbd⟩
  | items h =>
    cases hj
    cases h with
    | cons hoperator harguments =>
      rw [eq_of_string hoperator]
      exact .inl ⟨_, rfl, harguments⟩

/-- Where nothing is compared the arguments stay. -/
lemma exists_of_call {operator : String} (hoperator : operator ≠ "==") {arguments : List Json}
    (h : Swapped (Renderer.call operator arguments) k) :
    ∃ ks, k = Renderer.call operator ks ∧ List.Forall₂ Swapped arguments ks := by
  obtain hks | ⟨_, _, _, _, heq, _⟩ := call_cases h
  · exact hks
  · exact absurd heq hoperator

lemma eq_of_accessor {operator : String} (hoperator : operator ≠ "==") (texts : List String)
    (h : Swapped (Renderer.call operator (texts.map .string)) k) :
    k = Renderer.call operator (texts.map .string) := by
  obtain ⟨ks, rfl, hks⟩ := exists_of_call hoperator h
  rw [eq_of_strings hks]

/-- A comparison of what stays as it is has two forms. -/
lemma comparison_cases {a b : Json} (ha : ∀ c, Swapped a c → c = a) (hb : ∀ c, Swapped b c → c = b)
    (h : Swapped (Renderer.call "==" [a, b]) k) :
    k = Renderer.call "==" [a, b] ∨ k = Renderer.call "==" [b, a] := by
  obtain ⟨ks, rfl, hks⟩ | ⟨_, _, c, d, _, harguments, rfl, hac, hbd⟩ := call_cases h
  · cases hks with
    | cons hac hrest =>
      cases hrest with
      | cons hbd hnil =>
        cases hnil
        rw [ha _ hac, hb _ hbd]
        exact .inl rfl
  · cases harguments
    rw [ha c hac, hb d hbd]
    exact .inr rfl

end Json.Swapped

namespace Predicate

open Json Renderer

/-! ### Comparisons -/

lemma comparison?_eq_some_iff {literal accessor : Json} {p : Predicate} :
    comparison? literal accessor = some p ↔
      (∃ key value, p = .propertyEquals key value ∧ literal = .string value ∧
        accessor = call "get" [.string key]) ∨
      ∃ id, p = .idEquals id ∧ literal = .ofWord id ∧ accessor = call "id" [] := by
  constructor
  · intro h
    unfold comparison? at h
    split at h
    · next key value =>
      exact .inl ⟨key, value, (Option.some.inj h).symm, rfl, rfl⟩
    · next n =>
      obtain ⟨id, hid, rfl⟩ := Option.map_eq_some_iff.mp h
      cases n with
      | int n =>
        have hn : n = id.toInt := Text.word?_eq_some_iff.mp hid
        exact .inr ⟨id, rfl, by rw [hn, ofWord], rfl⟩
      | float x => cases hid
    · cases h
  · rintro (⟨key, value, rfl, rfl, rfl⟩ | ⟨id, rfl, rfl, rfl⟩)
    · rfl
    · have hid : (Number.int id.toInt).word? = some id := Text.word?_toInt id
      simp [comparison?, ofWord, call, hid]

/-- A literal is no accessor. -/
lemma comparison?_swapped {literal accessor : Json} {p : Predicate}
    (h : comparison? literal accessor = some p) : comparison? accessor literal = none := by
  obtain ⟨key, value, -, rfl, rfl⟩ | ⟨id, -, rfl, rfl⟩ := comparison?_eq_some_iff.mp h
  · rfl
  · rfl

lemma equality_eq_ok_iff {arguments : List Json} {p : Predicate} :
    equality arguments = .ok p ↔ ∃ literal accessor, comparison? literal accessor = some p ∧
      (arguments = [literal, accessor] ∨ arguments = [accessor, literal]) := by
  constructor
  · intro h
    unfold equality at h
    split at h
    · next left right =>
      cases hleft : comparison? left right with
      | some q =>
        simp only [hleft, Option.some_or] at h
        cases h
        exact ⟨left, right, hleft, .inl rfl⟩
      | none =>
        cases hright : comparison? right left with
        | some q =>
          simp only [hleft, hright, Option.none_or] at h
          cases h
          exact ⟨right, left, hright, .inr rfl⟩
        | none => simp [hleft, hright] at h
    · cases h
  · rintro ⟨literal, accessor, h, rfl | rfl⟩
    · simp [equality, h]
    · simp [equality, h, comparison?_swapped h]

/-! ### Operators -/

lemma ofJson_comparison (arguments : List Json) :
    ofJson (call "==" arguments) = equality arguments := by
  rw [call, ofJson.eq_def]
  simp

lemma ofJson_all (arguments : List Json) :
    ofJson (call "all" arguments) = (ofJsons arguments).map .all := by
  rw [call, ofJson.eq_def]
  simp

lemma ofJson_any (arguments : List Json) :
    ofJson (call "any" arguments) = (ofJsons arguments).map .any := by
  rw [call, ofJson.eq_def]
  simp

lemma ofJson_not (condition : Json) :
    ofJson (call "!" [condition]) = (ofJson condition).map .not := by
  rw [call, ofJson.eq_def]
  simp

/-- What is read as a predicate is one of five operators with arguments of its own kind. -/
lemma ofJson_cases {j : Json} {p : Predicate} (h : ofJson j = .ok p) :
    (∃ key, j = call "has" [.string key] ∧ p = .has key) ∨
    (∃ arguments, j = call "==" arguments ∧ equality arguments = .ok p) ∨
    (∃ arguments ps, j = call "all" arguments ∧ ofJsons arguments = .ok ps ∧ p = .all ps) ∨
    (∃ arguments ps, j = call "any" arguments ∧ ofJsons arguments = .ok ps ∧ p = .any ps) ∨
    ∃ condition q, j = call "!" [condition] ∧ ofJson condition = .ok q ∧ p = .not q := by
  rw [ofJson.eq_def] at h
  split at h
  · next operator arguments =>
    split_ifs at h with hhas hcomparison hall hany hnot
    · subst hhas
      split at h
      · next key => exact .inl ⟨key, rfl, (Except.ok.inj h).symm⟩
      · cases h
    · subst hcomparison
      exact .inr (.inl ⟨arguments, rfl, h⟩)
    · subst hall
      obtain ⟨ps, hps, rfl⟩ := map_eq_ok_iff.mp h
      exact .inr (.inr (.inl ⟨arguments, ps, rfl, hps, rfl⟩))
    · subst hany
      obtain ⟨ps, hps, rfl⟩ := map_eq_ok_iff.mp h
      exact .inr (.inr (.inr (.inl ⟨arguments, ps, rfl, hps, rfl⟩)))
    · subst hnot
      split at h
      · next condition =>
        obtain ⟨q, hq, rfl⟩ := map_eq_ok_iff.mp h
        exact .inr (.inr (.inr (.inr ⟨condition, q, rfl, hq, rfl⟩)))
      · cases h
  · cases h
  · cases h

/-! ### Reading and writing -/

lemma swapped_of_comparison? {literal accessor : Json} {p : Predicate}
    (h : comparison? literal accessor = some p) {j : Json}
    (hj : j = call "==" [literal, accessor] ∨ j = call "==" [accessor, literal]) :
    Swapped p.toJson j := by
  have hp : p.toJson = call "==" [literal, accessor] := by
    obtain ⟨key, value, rfl, rfl, rfl⟩ | ⟨id, rfl, rfl, rfl⟩ := comparison?_eq_some_iff.mp h
    · rfl
    · rfl
  rw [hp]
  obtain rfl | rfl := hj
  · exact .same _
  · exact .operands (.same literal) (.same accessor)

lemma sizeOf_lt_call (operator : String) (arguments : List Json) :
    sizeOf arguments < sizeOf (call operator arguments) := by
  simp only [call, Json.array.sizeOf_spec, List.cons.sizeOf_spec]
  omega

mutual

/-- What is read as a predicate is what this is written as, up to swapped operands. -/
theorem swapped_of_ofJson (j : Json) {p : Predicate} (h : ofJson j = .ok p) :
    Swapped p.toJson j := by
  obtain ⟨key, rfl, rfl⟩ | ⟨arguments, rfl, harguments⟩ | ⟨arguments, ps, hj, hps, rfl⟩ |
    ⟨arguments, ps, hj, hps, rfl⟩ | ⟨condition, q, hj, hq, rfl⟩ := ofJson_cases h
  · exact .same _
  · obtain ⟨literal, accessor, hp, rfl | rfl⟩ := equality_eq_ok_iff.mp harguments
    · exact swapped_of_comparison? hp (.inl rfl)
    · exact swapped_of_comparison? hp (.inr rfl)
  · have hlt : sizeOf arguments < sizeOf j := hj ▸ sizeOf_lt_call "all" arguments
    rw [hj, toJson]
    exact .items (.cons (.same _) (swapped_of_ofJsons arguments hps))
  · have hlt : sizeOf arguments < sizeOf j := hj ▸ sizeOf_lt_call "any" arguments
    rw [hj, toJson]
    exact .items (.cons (.same _) (swapped_of_ofJsons arguments hps))
  · have hlt : sizeOf condition < sizeOf j := by
      have hargument := sizeOf_lt_call "!" [condition]
      rw [hj]
      simp only [List.cons.sizeOf_spec] at hargument
      omega
    rw [hj, toJson]
    exact .items (.cons (.same _) (.cons (swapped_of_ofJson condition hq) .nil))
termination_by sizeOf j

/-- The same for the expressions of a list. -/
theorem swapped_of_ofJsons (js : List Json) {ps : List Predicate} (h : ofJsons js = .ok ps) :
    List.Forall₂ Swapped (toJsons ps) js := by
  match js with
  | [] =>
    cases h
    exact .nil
  | j :: js =>
    rw [ofJsons] at h
    cases hj : ofJson j with
    | error e => simp [hj] at h
    | ok p =>
      rw [hj] at h
      obtain ⟨qs, hqs, rfl⟩ := map_eq_ok_iff.mp h
      rw [toJsons]
      exact .cons (swapped_of_ofJson j hj) (swapped_of_ofJsons js hqs)
termination_by sizeOf js

end

lemma ofJson_of_comparison? {literal accessor : Json} {p : Predicate}
    (h : comparison? literal accessor = some p) {j : Json}
    (hj : Swapped (call "==" [literal, accessor]) j) : ofJson j = .ok p := by
  have hforms : j = call "==" [literal, accessor] ∨ j = call "==" [accessor, literal] := by
    obtain ⟨key, value, -, rfl, rfl⟩ | ⟨id, -, rfl, rfl⟩ := comparison?_eq_some_iff.mp h
    · exact hj.comparison_cases (fun _ => Swapped.eq_of_string)
        fun _ => Swapped.eq_of_accessor (by decide) [key]
    · exact hj.comparison_cases (fun _ => Swapped.eq_of_number)
        fun _ => Swapped.eq_of_accessor (by decide) []
  obtain rfl | rfl := hforms
  · rw [ofJson_comparison, equality_eq_ok_iff]
    exact ⟨literal, accessor, h, .inl rfl⟩
  · rw [ofJson_comparison, equality_eq_ok_iff]
    exact ⟨literal, accessor, h, .inr rfl⟩

mutual

/-- However operands are swapped in what a predicate is written as, it is read. -/
theorem ofJson_of_swapped : ∀ (p : Predicate) {j : Json}, Swapped p.toJson j → ofJson j = .ok p
  | .has key, j, h => by
    rw [toJson] at h
    rw [Swapped.eq_of_accessor (by decide) [key] h]
    rfl
  | .propertyEquals key value, j, h => by
    rw [toJson] at h
    exact ofJson_of_comparison? (comparison?_eq_some_iff.mpr (.inl ⟨key, value, rfl, rfl, rfl⟩)) h
  | .idEquals id, j, h => by
    rw [toJson] at h
    exact ofJson_of_comparison? (comparison?_eq_some_iff.mpr (.inr ⟨id, rfl, rfl, rfl⟩)) h
  | .all ps, j, h => by
    rw [toJson] at h
    obtain ⟨js, rfl, hjs⟩ := Swapped.exists_of_call (by decide) h
    rw [ofJson_all, ofJsons_of_swapped ps hjs]
    rfl
  | .any ps, j, h => by
    rw [toJson] at h
    obtain ⟨js, rfl, hjs⟩ := Swapped.exists_of_call (by decide) h
    rw [ofJson_any, ofJsons_of_swapped ps hjs]
    rfl
  | .not p, j, h => by
    rw [toJson] at h
    obtain ⟨js, rfl, hjs⟩ := Swapped.exists_of_call (by decide) h
    cases hjs with
    | cons hp hnil =>
      cases hnil
      rw [ofJson_not, ofJson_of_swapped p hp]
      rfl

theorem ofJsons_of_swapped : ∀ (ps : List Predicate) {js : List Json},
    List.Forall₂ Swapped (toJsons ps) js → ofJsons js = .ok ps
  | [], js, h => by
    rw [toJsons] at h
    cases h
    rfl
  | p :: ps, js, h => by
    rw [toJsons] at h
    cases h with
    | cons hp hps =>
      rw [ofJsons, ofJson_of_swapped p hp, ofJsons_of_swapped ps hps]
      rfl

end

/-- Expression JSON is an exact format. Every predicate reads back from what it is written as. A
value is read as a predicate exactly if it is what the predicate is written as, with the operands of
any of its comparisons swapped; so no other value is read, and none belongs to two predicates. -/
theorem ofJson_eq_ok_iff_swapped :
    (∀ p : Predicate, ofJson p.toJson = .ok p) ∧
    (∀ (j : Json) (p : Predicate), ofJson j = .ok p ↔ Swapped p.toJson j) ∧
    ∀ (j : Json) (p q : Predicate), Swapped p.toJson j → Swapped q.toJson j → p = q := by
  refine ⟨ofJson_toJson, fun j p => ⟨swapped_of_ofJson j, ofJson_of_swapped p⟩, ?_⟩
  intro j p q hp hq
  have hread : Except.ok (ε := ExpressionError) p = .ok q := by
    rw [← ofJson_of_swapped p hp, ofJson_of_swapped q hq]
  exact Except.ok.inj hread

/-- Two conditions of which the first has its operands in the order in which none is written. -/
def swappedConditions : Json :=
  call "all" [call "==" [call "id" [], .ofWord 7], call "has" [.string "name"]]

theorem ofJson_swappedConditions :
    ofJson swappedConditions = .ok (.all [.idEquals 7, .has "name"]) ∧
    Swapped (Predicate.all [.idEquals 7, .has "name"]).toJson swappedConditions ∧
    ∀ p : Predicate, Swapped p.toJson swappedConditions → p = .all [.idEquals 7, .has "name"] := by
  have hread : ofJson swappedConditions = .ok (.all [.idEquals 7, .has "name"]) := rfl
  obtain ⟨-, hforms, hunique⟩ := ofJson_eq_ok_iff_swapped
  have hswapped := (hforms _ _).mp hread
  exact ⟨hread, hswapped, fun p hp => hunique _ _ _ hp hswapped⟩

end Predicate

end MapStyle
