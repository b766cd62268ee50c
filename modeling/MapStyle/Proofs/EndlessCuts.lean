import MapStyle.Geometry.Clip
import MapStyle.Proofs.ListsOfResults

/-!
# Cuts that never end

The loop that cuts a segment at the sides of a rectangle gives what it gives after some number of
cuts, and nothing exactly if each cut is followed by another one. Rounding can make that happen: a
point that is cut at one side may come to lie beyond another side by the width of a bit, and be cut
back. A polyline is clipped if and only if the loop ends on each of its segments.
-/

namespace MapStyle.Clip

universe u

variable {α : Type u} [Add α] [Sub α] [Mul α] [Div α] [LT α] [DecidableLT α] {r : Rect α}

/-! ### Counting cuts -/

/-- The ends of the visible part of a segment, or `none` for no part, if so many cuts suffice. -/
def segmentWithin? (r : Rect α) (cuts : Nat) (a b : Point α) :
    Option (Option (Point α × Point α)) :=
  match verdict r a b, cuts with
  | .visible, _ => some (some (a, b))
  | .hidden, _ => some none
  | .cut _ _, 0 => none
  | .cut a b, cuts + 1 => segmentWithin? r cuts a b

lemma segmentWithin?_zero {a b c d : Point α} (h : verdict r a b = .cut c d) :
    segmentWithin? r 0 a b = none := by
  rw [segmentWithin?.eq_def]
  simp only [h]

lemma segmentWithin?_succ {a b c d : Point α} (h : verdict r a b = .cut c d) (cuts : Nat) :
    segmentWithin? r (cuts + 1) a b = segmentWithin? r cuts c d := by
  rw [segmentWithin?.eq_def]
  simp only [h]

lemma segment?_of_cut {a b c d : Point α} (h : verdict r a b = .cut c d) :
    segment? r a b = segment? r c d := by
  rw [segment?, h]

/-- What the loop gives is what it gives after some number of cuts. -/
theorem segment?_eq_some_iff {a b : Point α} {part : Option (Point α × Point α)} :
    segment? r a b = some part ↔ ∃ cuts, segmentWithin? r cuts a b = some part := by
  constructor
  · intro h
    refine segment?.partial_correctness r
      (fun a b part => ∃ cuts, segmentWithin? r cuts a b = some part) ?_ a b part h
    intro loop ih a b part h
    cases hverdict : verdict r a b with
    | visible => exact ⟨0, by simpa [segmentWithin?, hverdict] using h⟩
    | hidden => exact ⟨0, by simpa [segmentWithin?, hverdict] using h⟩
    | cut c d =>
      rw [hverdict] at h
      obtain ⟨cuts, hcuts⟩ := ih c d part h
      exact ⟨cuts + 1, (segmentWithin?_succ hverdict cuts).trans hcuts⟩
  · rintro ⟨cuts, h⟩
    fun_induction segmentWithin? r cuts a b with
    | case1 cuts a b hverdict =>
      rw [segment?, hverdict]
      exact h
    | case2 cuts a b hverdict =>
      rw [segment?, hverdict]
      exact h
    | case3 => cases h
    | case4 a b c d cuts hverdict ih =>
      rw [segment?_of_cut hverdict]
      exact ih h

lemma segment?_eq_of_isSome {cuts : Nat} {a b : Point α}
    (h : (segmentWithin? r cuts a b).isSome = true) :
    segment? r a b = segmentWithin? r cuts a b := by
  obtain ⟨part, hpart⟩ := Option.isSome_iff_exists.mp h
  rw [hpart]
  exact segment?_eq_some_iff.mpr ⟨cuts, hpart⟩

/-! ### Loops that never end -/

/-- The loop never ends on segments of a kind that is cut to segments of the same kind. -/
theorem segment?_eq_none_of_closed {P : Point α → Point α → Prop}
    (hclosed : ∀ a b, P a b → ∃ c d, verdict r a b = .cut c d ∧ P c d) {a b : Point α}
    (h : P a b) : segment? r a b = none := by
  have hwithin (cuts : Nat) : segmentWithin? r cuts a b = none := by
    induction cuts generalizing a b with
    | zero =>
      obtain ⟨c, d, hverdict, -⟩ := hclosed a b h
      exact segmentWithin?_zero hverdict
    | succ cuts ih =>
      obtain ⟨c, d, hverdict, hcut⟩ := hclosed a b h
      rw [segmentWithin?_succ hverdict]
      exact ih hcut
  rw [Option.eq_none_iff_forall_ne_some]
  intro part hpart
  obtain ⟨cuts, hcuts⟩ := segment?_eq_some_iff.mp hpart
  rw [hwithin] at hcuts
  cases hcuts

/-- A square of machine numbers. -/
def coarse : Rect Float := ⟨0.1, 0.1, 1.0, 1.0⟩

/-- The ends of a diagonal of the square that runs on to the origin: as it is, and after a cut at
the lower or at the left side. -/
def diagonalEnds : List (Point Float) :=
  [⟨0.0, 0.0⟩, ⟨0.09999999999999998, 0.1⟩, ⟨0.1, 0.09999999999999998⟩]

/-- Each cut puts the end of the diagonal beyond the other side again. -/
theorem segment?_diagonal : segment? coarse ⟨1.0, 1.0⟩ ⟨0.0, 0.0⟩ = none := by
  have hcut : ∀ b ∈ diagonalEnds, ∃ d ∈ diagonalEnds,
      verdict coarse ⟨1.0, 1.0⟩ b = .cut ⟨1.0, 1.0⟩ d := by
    decide +kernel
  refine segment?_eq_none_of_closed (P := fun a b => a = ⟨1.0, 1.0⟩ ∧ b ∈ diagonalEnds) ?_
    ⟨rfl, List.mem_cons_self⟩
  rintro _ b ⟨rfl, hb⟩
  obtain ⟨d, hd, hverdict⟩ := hcut b hb
  exact ⟨_, d, hverdict, rfl, hd⟩

/-! ### Polylines -/

variable [BEq α]

/-- A polyline is clipped if and only if the loop ends on each of its segments. -/
theorem isSome_line?_iff {points : List (Point α)} :
    (line? r points).isSome = true ↔
      ∀ s ∈ segments points, (segment? r s.1 s.2).isSome = true := by
  rw [line?, Option.isSome_map, isSome_mapM_iff]
  simp only [Option.isSome_map]

/-- The pieces of a polyline if so many cuts suffice for each of its segments. -/
def lineWithin? (r : Rect α) (cuts : Nat) (points : List (Point α)) :
    Option (List (List (Point α))) :=
  ((segments points).mapM fun s => (segmentWithin? r cuts s.1 s.2).map (s.2, ·)).map
    (piecesFrom [])

lemma line?_of_lineWithin? {points : List (Point α)} (cuts : Nat) {pieces : List (List (Point α))}
    (h : lineWithin? r cuts points = some pieces) : line? r points = some pieces := by
  obtain ⟨parts, hparts, rfl⟩ := Option.map_eq_some_iff.mp h
  rw [line?, Option.map_eq_some_iff]
  refine ⟨parts, ?_, rfl⟩
  rw [mapM_eq_some_iff] at hparts ⊢
  rw [← hparts]
  apply List.map_congr_left
  intro s hs
  have hmem : (segmentWithin? r cuts s.1 s.2).map (s.2, ·) ∈ parts.map some :=
    hparts ▸ List.mem_map_of_mem hs
  obtain ⟨part, -, hpart⟩ := List.mem_map.mp hmem
  obtain ⟨own, hown, -⟩ := Option.map_eq_some_iff.mp hpart.symm
  rw [hown, segment?_eq_some_iff.mpr ⟨cuts, hown⟩]

end MapStyle.Clip
