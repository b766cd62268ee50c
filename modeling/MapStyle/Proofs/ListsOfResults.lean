import Mathlib.Data.List.Basic
import Mathlib.Tactic.Lemma

/-!
# Lists of results

A function that may give nothing, applied to all items of a list. Either it gives something for each
item, and the results match the items one by one, or there are no results at all.
-/

namespace MapStyle

universe u v w

variable {β : Type v} {γ δ : Type u} {f : β → Option γ} {xs : List β} {ys : List γ}

lemma mapM_eq_some_iff : xs.mapM f = some ys ↔ xs.map f = ys.map some := by
  induction xs generalizing ys with
  | nil => cases ys <;> simp
  | cons x xs ih =>
    rw [List.mapM_cons, List.map_cons]
    simp only [Option.bind_eq_bind, Option.pure_def, Option.bind_eq_some_iff, Option.some.injEq, ih]
    constructor
    · rintro ⟨y, hy, zs, hzs, rfl⟩
      rw [hy, hzs, List.map_cons]
    · intro h
      obtain ⟨y, zs, rfl, hy, hzs⟩ := List.map_eq_cons_iff.mp h.symm
      exact ⟨y, hy.symm, zs, hzs.symm, rfl⟩

lemma isSome_mapM_iff : (xs.mapM f).isSome = true ↔ ∀ x ∈ xs, (f x).isSome = true := by
  rw [Option.isSome_iff_exists]
  simp only [mapM_eq_some_iff]
  constructor
  · rintro ⟨ys, h⟩ x hx
    have hmem : f x ∈ ys.map some := h ▸ List.mem_map_of_mem hx
    obtain ⟨y, -, hy⟩ := List.mem_map.mp hmem
    rw [← hy, Option.isSome_some]
  · intro h
    refine ⟨xs.pmap (fun x hx => (f x).get hx) h, ?_⟩
    rw [List.map_pmap]
    simp

lemma mapM_map_eq_some {α : Type w} {encode : α → β} {g : α → γ} {items : List α}
    (h : ∀ a ∈ items, f (encode a) = some (g a)) :
    (items.map encode).mapM f = some (items.map g) := by
  rw [mapM_eq_some_iff, List.map_map, List.map_map]
  exact List.map_congr_left h

lemma exists_of_mem_mapM (h : xs.mapM f = some ys) {y : γ} (hy : y ∈ ys) :
    ∃ x ∈ xs, f x = some y := by
  have hmem : some y ∈ xs.map f := (mapM_eq_some_iff.mp h) ▸ List.mem_map_of_mem hy
  exact List.mem_map.mp hmem

/-- Results that are changed one by one. -/
lemma mapM_map (g : γ → δ) : (xs.mapM fun x => (f x).map g) = (xs.mapM f).map (List.map g) := by
  induction xs with
  | nil => rfl
  | cons x xs ih =>
    rw [List.mapM_cons, List.mapM_cons, ih]
    cases f x <;> cases xs.mapM f <;> rfl

lemma filterMap_of_mapM {ε : Type w} (h : xs.mapM f = some ys) (g : γ → Option ε) :
    ys.filterMap g = xs.filterMap fun x => (f x).bind g := by
  have hmap := congrArg (List.filterMap fun y => y.bind g) (mapM_eq_some_iff.mp h)
  rw [List.filterMap_map, List.filterMap_map] at hmap
  exact hmap.symm

lemma flatMap_of_mapM {ε : Type w} (h : xs.mapM f = some ys) {g : β → List ε} {k : γ → List ε}
    (hgk : ∀ x y, f x = some y → g x = k y) : xs.flatMap g = ys.flatMap k := by
  have hresult : ∀ x ∈ xs, g x = ((f x).map k).getD [] := by
    intro x hx
    have hsome := isSome_mapM_iff.mp (Option.isSome_of_eq_some h) x hx
    obtain ⟨y, hy⟩ := Option.isSome_iff_exists.mp hsome
    rw [hgk x y hy, hy, Option.map_some, Option.getD_some]
  calc xs.flatMap g
      = (xs.map f).flatMap fun y => (y.map k).getD [] := by
        rw [List.flatMap_congr hresult, List.flatMap_map]
    _ = ys.flatMap k := by
        rw [mapM_eq_some_iff.mp h, List.flatMap_map]
        rfl

lemma length_of_mapM (h : xs.mapM f = some ys) : ys.length = xs.length := by
  simpa using (congrArg List.length (mapM_eq_some_iff.mp h)).symm

lemma exists_getElem?_of_mapM (h : xs.mapM f = some ys) {i : Nat} {x : β} (hx : xs[i]? = some x) :
    ∃ y, ys[i]? = some y ∧ f x = some y := by
  have hresult : (ys.map some)[i]? = some (f x) := by
    rw [← mapM_eq_some_iff.mp h, List.getElem?_map, hx, Option.map_some]
  rw [List.getElem?_map] at hresult
  obtain ⟨y, hy, heq⟩ := Option.map_eq_some_iff.mp hresult
  exact ⟨y, hy, heq.symm⟩

end MapStyle
