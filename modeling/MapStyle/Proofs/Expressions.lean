import MapStyle.Proofs.JsonRecords
import MapStyle.Renderer.Compile

/-!
# Expression JSON

Expressions are nested arrays of scalars without objects. A predicate is written as one, reads back
from it, and its nesting is that of its tree. So are the values of paint and layout properties.
-/

namespace MapStyle

namespace Json

/-- Whether a value is an expression that reads back where there is room for that many levels. -/
inductive Expression : Nat → Json → Prop where
  | bool {room : Nat} (b : Bool) : Expression room (.bool b)
  | number {room : Nat} {n : Number} (h : n.ReadsBack) : Expression room (.number n)
  | string {room : Nat} (s : String) : Expression room (.string s)
  | array {room : Nat} {items : List Json} (h : ∀ item ∈ items, Expression room item) :
      Expression (room + 1) (.array items)

namespace Expression

variable {room wider : Nat} {j : Json}

lemma mono (h : Expression room j) (hle : room ≤ wider) : Expression wider j := by
  induction h generalizing wider with
  | bool b => exact .bool b
  | number h => exact .number h
  | string s => exact .string s
  | array _ ih =>
    obtain ⟨wider, rfl⟩ := Nat.exists_eq_add_one.mpr (show 0 < wider by omega)
    exact .array fun item hitem => ih item hitem (by omega)

lemma fits (h : Expression room j) : Fits room j := by
  induction h with
  | bool b => exact .bool b
  | number h => exact .number h
  | string s => exact .string s
  | array _ ih => exact .array ih

lemma ordered (h : Expression room j) : Ordered j := by
  induction h with
  | bool b => exact .bool b
  | number _ => exact .number _
  | string s => exact .string s
  | array _ ih => exact .array ih

lemma ofNat {n : Nat} (h : n < 2 ^ 64) : Expression room (.ofNat n) :=
  .number (Number.readsBack_int (by omega) (by omega))

lemma ofWord (w : Int64) : Expression room (.ofWord w) :=
  .number (Number.readsBack_word w)

lemma ofFloat {x : Float} (h : (Number.float x).ReadsBack) : Expression room (.ofFloat x) := by
  have hfinite : x.isFinite = true := by
    by_contra hx
    have hwrite : (Number.float x).write = ['n', 'u', 'l', 'l'] := by simp [Number.write, hx]
    rw [Number.ReadsBack, hwrite] at h
    cases h
  rw [Json.ofFloat, if_pos hfinite]
  exact .number h

/-- An operator with arguments that need less room. -/
lemma call {operator : String} {arguments : List Json}
    (h : ∀ a ∈ arguments, Expression room a) :
    Expression (room + 1) (Renderer.call operator arguments) :=
  .array (List.forall_mem_cons.mpr ⟨.string operator, h⟩)

end Expression

end Json

namespace Predicate

open Json

lemma toJsons_eq_map (ps : List Predicate) : toJsons ps = ps.map toJson := by
  induction ps with
  | nil => rfl
  | cons p ps ih => rw [toJsons, ih, List.map_cons]

mutual

theorem ofJson_toJson : ∀ p : Predicate, ofJson p.toJson = .ok p
  | .has key => rfl
  | .propertyEquals key value => rfl
  | .idEquals id => by
    have hid : (Number.int id.toInt).word? = some id := Text.word?_toInt id
    simp [toJson, ofJson, equality, comparison?, Json.ofWord, hid]
  | .all ps => by
    rw [toJson, ofJson.eq_def]
    simp [ofJsons_toJsons ps, Except.map]
  | .any ps => by
    rw [toJson, ofJson.eq_def]
    simp [ofJsons_toJsons ps, Except.map]
  | .not p => by
    rw [toJson, ofJson.eq_def]
    simp [ofJson_toJson p, Except.map]

theorem ofJsons_toJsons : ∀ ps : List Predicate, ofJsons (toJsons ps) = .ok ps
  | [] => rfl
  | p :: ps => by
    rw [toJsons, ofJsons, ofJson_toJson p, ofJsons_toJsons ps]
    rfl

end

/-! ### Nesting -/

variable {room : Nat}

lemma expression_has (key : String) : Expression 1 (Predicate.has key).toJson :=
  .array (by simp [Expression.string])

/-- A comparison of a literal with what an accessor gives. -/
lemma expression_equality {literal : Json} (h : Expression 1 literal) (accessor : List String) :
    Expression 2 (Renderer.call "==" [literal, .array (accessor.map .string)]) := by
  apply Expression.call
  rintro a ha
  rcases List.mem_pair.mp ha with rfl | rfl
  · exact h
  · exact .array (by simp [Expression.string])

/-- The predicate of a filter has one array in another at most. -/
lemma expression_compile (filter : Filter) : Expression 2 filter.compile.toJson := by
  have hid (id : Int64) : Expression 2 (Predicate.idEquals id).toJson := by
    rw [toJson]
    exact expression_equality (.ofWord id) ["id"]
  have hproperty (key value : String) : Expression 2 (Predicate.propertyEquals key value).toJson := by
    rw [toJson]
    exact expression_equality (.string value) ["get", key]
  cases filter with
  | keyPresence key => exact (expression_has key).mono (by omega)
  | identity id => exact hid id
  | keyValue key value =>
    rw [Filter.compile]
    cases Text.readWord? value with
    | none => exact hproperty key value
    | some id =>
      by_cases hkey : key = Filter.idKey
      · simpa [hkey] using hid id
      · simpa [hkey] using hproperty key value

lemma expression_conditions (operator : String) {ps : List Predicate}
    (h : ∀ p ∈ ps, Expression room p.toJson) :
    Expression (room + 1) (Renderer.call operator (toJsons ps)) := by
  rw [toJsons_eq_map]
  apply Expression.call
  simpa using h

lemma expression_all {ps : List Predicate} (h : ∀ p ∈ ps, Expression room p.toJson) :
    Expression (room + 1) (Predicate.all ps).toJson := by
  rw [toJson]
  exact expression_conditions "all" h

lemma expression_any {ps : List Predicate} (h : ∀ p ∈ ps, Expression room p.toJson) :
    Expression (room + 1) (Predicate.any ps).toJson := by
  rw [toJson]
  exact expression_conditions "any" h

lemma expression_not {p : Predicate} (h : Expression room p.toJson) :
    Expression (room + 1) (Predicate.not p).toJson := by
  rw [toJson]
  apply Expression.call
  simpa using h

lemma expression_anyRule (rules : List Rule) : Expression 3 (Priority.anyRule rules).toJson := by
  apply expression_any
  intro p hp
  obtain ⟨r, -, rfl⟩ := List.mem_map.mp hp
  exact expression_compile r.filter

/-- However many rules there are, an effective predicate has five levels at most. -/
lemma expression_effective {rules : List Rule} {e : EffectiveRule}
    (he : e ∈ Priority.effective rules) : Expression 5 e.predicate.toJson := by
  induction rules with
  | nil => cases he
  | cons r rules ih =>
    rcases List.mem_cons.mp he with rfl | he
    · -- The later rules stand side by side in one `any`, so their number adds no level.
      have hown := (expression_compile r.filter).mono (show 2 ≤ 4 by omega)
      have hlater := expression_not (expression_anyRule rules)
      change Expression 5 (Priority.except _ _).toJson
      unfold Priority.except
      split
      · exact hown.mono (by omega)
      · apply expression_all
        intro p hp
        rcases List.mem_pair.mp hp with rfl | rfl
        · exact hown
        · exact hlater
    · exact ih he

end Predicate

end MapStyle
