import MapStyle.Proofs.CanvasBounds

/-!
# Simplified rings

A closed ring is simplified as a line from its first point back to this point. The point farthest
from the first one parts the ring, and it is an area that remains only if another point is far
enough from the segment between the two; rings within the tolerance are still drawn, as a line or in
one place.
-/

namespace MapStyle

open Drawing

universe u

variable {α : Type u} [Field α] [LinearOrder α] [Hypot α]

/-! ### Distances of the ends of a segment -/

namespace Point

omit [LinearOrder α] in
lemma distance_self (hhypot : hypot (0 : α) 0 = 0) (p : Point α) : p.distance p = 0 := by
  rw [distance, sub_self, sub_self, hhypot]

lemma distanceToSegment_self (p a : Point α) : p.distanceToSegment a a = p.distance a :=
  if_pos (beq_self_eq_true a)

lemma distanceToSegment_left (hhypot : hypot (0 : α) 0 = 0) (a b : Point α) :
    a.distanceToSegment a b = 0 := by
  unfold distanceToSegment
  split
  · exact distance_self hhypot a
  · simp [distance_self hhypot]

variable [IsStrictOrderedRing α]

lemma distanceToSegment_right (hhypot : hypot (0 : α) 0 = 0) (a b : Point α) :
    b.distanceToSegment a b = 0 := by
  by_cases hab : a = b
  · rw [hab]
    exact distanceToSegment_left hhypot b b
  · -- the foot of the perpendicular is the end itself
    have hfoot := div_self (square_pos (Ne.symm hab)).ne'
    simp only [distanceToSegment, beq_iff_eq, hab, if_false, hfoot, le_refl, if_true,
      not_le.mpr (zero_lt_one' α)]
    exact distance_self hhypot b

/-- What is farther from a segment than some number is none of its ends. -/
lemma ne_of_lt_distanceToSegment (hhypot : hypot (0 : α) 0 = 0) {tolerance : α}
    (hnonneg : 0 ≤ tolerance) {p a b : Point α} (hp : tolerance < p.distanceToSegment a b) :
    p ≠ a ∧ p ≠ b := by
  constructor
  · rintro rfl
    rw [distanceToSegment_left hhypot] at hp
    exact hp.not_ge hnonneg
  · rintro rfl
    rw [distanceToSegment_right hhypot] at hp
    exact hp.not_ge hnonneg

end Point

open Point

/-! ### Which points of a line stay -/

namespace Simplify

variable {tolerance : α} {a b far : Point α} {before points after : List (Point α)}

/-- Whether a point between others is the farthest from the segment from `a` to `b`, of equally far
points the last one. -/
structure IsFarthest (a b : Point α) (before : List (Point α)) (far : Point α)
    (after : List (Point α)) : Prop where
  before : ∀ p ∈ before, p.distanceToSegment a b ≤ far.distanceToSegment a b
  after : ∀ p ∈ after, p.distanceToSegment a b < far.distanceToSegment a b

lemma exists_isFarthest (a b : Point α) (hne : points ≠ []) :
    ∃ before far after, points = before ++ far :: after ∧ IsFarthest a b before far after := by
  induction points with
  | nil => exact absurd rfl hne
  | cons p points ih =>
    rcases eq_or_ne points [] with rfl | hpoints
    · exact ⟨[], p, [], rfl, List.forall_mem_nil _, List.forall_mem_nil _⟩
    · obtain ⟨before, far, after, rfl, hfar⟩ := ih hpoints
      rcases le_or_gt (p.distanceToSegment a b) (far.distanceToSegment a b) with hle | hlt
      · refine ⟨p :: before, far, after, rfl, ?_, hfar.after⟩
        exact List.forall_mem_cons.mpr ⟨hle, hfar.before⟩
      · refine ⟨[], p, _, rfl, List.forall_mem_nil _, List.forall_mem_append.mpr ⟨?_, ?_⟩⟩
        · exact fun q hq => (hfar.before q hq).trans_lt hlt
        · exact List.forall_mem_cons.mpr ⟨hlt, fun q hq => (hfar.after q hq).trans hlt⟩

lemma IsFarthest.le (h : IsFarthest a b before far after) :
    ∀ p ∈ before ++ far :: after, p.distanceToSegment a b ≤ far.distanceToSegment a b := by
  rw [List.forall_mem_append, List.forall_mem_cons]
  exact ⟨h.before, le_rfl, fun p hp => (h.after p hp).le⟩

/-- The better of the farthest point so far and another point. -/
def farther (a b : Point α) (best : Nat × α) (p : Point α × Nat) : Nat × α :=
  if best.2 ≤ p.1.distanceToSegment a b then (p.2, p.1.distanceToSegment a b) else best

lemma farthest_eq_foldl (a b : Point α) (points : List (Point α)) :
    farthest a b points = points.zipIdx.foldl (farther a b) (0, 0) := rfl

lemma foldl_farther_le {bound : α} (h : ∀ p ∈ points, p.distanceToSegment a b ≤ bound) {n : Nat}
    {best : Nat × α} (hbest : best.2 ≤ bound) :
    ((points.zipIdx n).foldl (farther a b) best).2 ≤ bound := by
  induction points generalizing n best with
  | nil => exact hbest
  | cons p points ih =>
    obtain ⟨hp, hpoints⟩ := List.forall_mem_cons.mp h
    rw [List.zipIdx_cons, List.foldl_cons]
    refine ih hpoints ?_
    unfold farther
    split
    · exact hp
    · exact hbest

lemma farthest_le {bound : α} (hbound : 0 ≤ bound)
    (h : ∀ p ∈ points, p.distanceToSegment a b ≤ bound) : (farthest a b points).2 ≤ bound :=
  foldl_farther_le h hbound

lemma foldl_farther_eq {best : Nat × α} (h : ∀ p ∈ points, p.distanceToSegment a b < best.2)
    {n : Nat} : (points.zipIdx n).foldl (farther a b) best = best := by
  induction points generalizing n with
  | nil => rfl
  | cons p points ih =>
    obtain ⟨hp, hpoints⟩ := List.forall_mem_cons.mp h
    rw [List.zipIdx_cons, List.foldl_cons, farther, if_neg hp.not_ge]
    exact ih hpoints

lemma farthest_of_isFarthest (h : IsFarthest a b before far after)
    (hnonneg : 0 ≤ far.distanceToSegment a b) :
    farthest a b (before ++ far :: after) = (before.length, far.distanceToSegment a b) := by
  have hbefore := farthest_le hnonneg h.before
  rw [farthest_eq_foldl, List.zipIdx_append, List.foldl_append, ← farthest_eq_foldl,
    List.zipIdx_cons, List.foldl_cons, farther, if_pos hbefore, Nat.zero_add,
    foldl_farther_eq h.after]

/-- The farthest point stays if it is farther than the tolerance, and parts the line. -/
lemma inner_of_isFarthest (h : IsFarthest a b before far after) (hnonneg : 0 ≤ tolerance)
    (hfar : tolerance < far.distanceToSegment a b) :
    inner tolerance a (before ++ far :: after) b =
      inner tolerance a before far ++ far :: inner tolerance far after b := by
  have hget : (before ++ far :: after)[before.length]? = some far := by simp
  have hdrop : (before ++ far :: after).drop (before.length + 1) = after := by
    rw [List.drop_append, List.drop_of_length_le (by omega)]
    simp
  rw [inner, farthest_of_isFarthest h (hnonneg.trans hfar.le)]
  simp only
  split
  · next hnone => cases hget.symm.trans hnone
  · next p hp =>
    obtain rfl := Option.some.inj (hget.symm.trans hp)
    rw [if_pos hfar, List.take_left, hdrop]

lemma inner_eq_nil (hnonneg : 0 ≤ tolerance)
    (h : ∀ p ∈ points, p.distanceToSegment a b ≤ tolerance) : inner tolerance a points b = [] := by
  have hle := farthest_le hnonneg h
  rw [inner]
  split
  next i distance hfarthest =>
    split
    · rfl
    · rw [if_neg]
      exact (hfarthest ▸ hle).not_gt

/-- Points stay if one of them is farther from the segment than the tolerance, and then such a point
stays. -/
lemma exists_mem_inner (hnonneg : 0 ≤ tolerance)
    (h : ∃ p ∈ points, tolerance < p.distanceToSegment a b) :
    ∃ p ∈ inner tolerance a points b, tolerance < p.distanceToSegment a b := by
  obtain ⟨p, hp, hlt⟩ := h
  obtain ⟨before, far, after, rfl, hfar⟩ := exists_isFarthest a b (List.ne_nil_of_mem hp)
  have hfarLt := hlt.trans_le (hfar.le p hp)
  rw [inner_of_isFarthest hfar hnonneg hfarLt]
  exact ⟨far, List.mem_append_right _ List.mem_cons_self, hfarLt⟩

/-! ### Rings -/

/-- Whether a ring through a point and those after it is an area beyond a tolerance. The point that
is farthest from the first one is farther than the tolerance, of equally far points the last one,
and so is another point from the segment between the two. -/
def SpansArea (tolerance : α) (first : Point α) (points : List (Point α)) : Prop :=
  ∃ before far after, points = before ++ far :: after ∧ IsFarthest first first before far after ∧
    tolerance < far.distance first ∧
    ((∃ p ∈ before, tolerance < p.distanceToSegment first far) ∨
      ∃ p ∈ after, tolerance < p.distanceToSegment far first)

lemma line_closed (tolerance : α) (first : Point α) (points : List (Point α)) :
    line tolerance (first :: points ++ [first]) =
      first :: inner tolerance first points first ++ [first] := by
  simp [line]

lemma toFinset_line_closed (tolerance : α) (first : Point α) (points : List (Point α)) :
    (line tolerance (first :: points ++ [first])).toFinset =
      insert first (inner tolerance first points first).toFinset := by
  rw [line_closed]
  ext p
  simp

lemma spansArea_of_three_le_card (hnonneg : 0 ≤ tolerance) {first : Point α}
    (hcard : 3 ≤ (insert first (inner tolerance first points first).toFinset).card) :
    SpansArea tolerance first points := by
  have hleaves : ∃ p ∈ points, tolerance < p.distanceToSegment first first := by
    by_contra! hwithin
    rw [inner_eq_nil hnonneg hwithin] at hcard
    simp at hcard
  obtain ⟨p, hp, hlt⟩ := hleaves
  obtain ⟨before, far, after, rfl, hfarthest⟩ :=
    exists_isFarthest first first (List.ne_nil_of_mem hp)
  have hfar := hlt.trans_le (hfarthest.le p hp)
  refine ⟨before, far, after, rfl, hfarthest, distanceToSegment_self far first ▸ hfar, ?_⟩
  -- otherwise no point but these two would stay
  by_contra! hwithin
  rw [inner_of_isFarthest hfarthest hnonneg hfar, inner_eq_nil hnonneg hwithin.1,
    inner_eq_nil hnonneg hwithin.2] at hcard
  have htwo : ({first, far} : Finset (Point α)).card ≤ 2 := Finset.card_le_two
  simp only [List.nil_append, List.toFinset_cons, List.toFinset_nil, insert_empty_eq] at hcard
  omega

variable [IsStrictOrderedRing α]

lemma three_le_card_of_spansArea (hhypot : hypot (0 : α) 0 = 0) (hnonneg : 0 ≤ tolerance)
    {first : Point α} (h : SpansArea tolerance first points) :
    3 ≤ (insert first (inner tolerance first points first).toFinset).card := by
  obtain ⟨before, far, after, rfl, hfarthest, hfar, hthird⟩ := h
  rw [← distanceToSegment_self] at hfar
  have hthird : ∃ p ∈ inner tolerance first before far ++ inner tolerance far after first,
      p ≠ first ∧ p ≠ far := by
    rcases hthird with hthird | hthird
    · obtain ⟨p, hp, hlt⟩ := exists_mem_inner hnonneg hthird
      exact ⟨p, List.mem_append_left _ hp, ne_of_lt_distanceToSegment hhypot hnonneg hlt⟩
    · obtain ⟨p, hp, hlt⟩ := exists_mem_inner hnonneg hthird
      exact ⟨p, List.mem_append_right _ hp, (ne_of_lt_distanceToSegment hhypot hnonneg hlt).symm⟩
  obtain ⟨p, hp, hpfirst, hpfar⟩ := hthird
  have hfarfirst := (ne_of_lt_distanceToSegment hhypot hnonneg hfar).1
  rw [inner_of_isFarthest hfarthest hnonneg hfar]
  refine Finset.two_lt_card.mpr
    ⟨first, ?_, far, ?_, p, ?_, hfarfirst.symm, hpfirst.symm, hpfar.symm⟩
  · exact Finset.mem_insert_self _ _
  · simp
  · simp only [Finset.mem_insert, List.mem_toFinset, List.mem_append, List.mem_cons] at hp ⊢
    tauto

/-- A simplified ring has three distinct points just if it is an area beyond the tolerance. -/
theorem three_le_card_line_iff (hhypot : hypot (0 : α) 0 = 0) (hnonneg : 0 ≤ tolerance)
    (first : Point α) (points : List (Point α)) :
    3 ≤ (line tolerance (first :: points ++ [first])).toFinset.card ↔
      SpansArea tolerance first points := by
  rw [toFinset_line_closed]
  exact ⟨spansArea_of_three_le_card hnonneg, three_le_card_of_spansArea hhypot hnonneg⟩

end Simplify

/-! ### Paths of rings -/

/-- The tolerance of an export that simplifies; only a positive one does. -/
def ExportOptions.tolerance? (o : ExportOptions) : Option Float :=
  o.simplifyTolerance.filter fun tolerance => 0.0 < tolerance

namespace Export

omit [Hypot α] in
lemma exists_closed_of_mem_visibleRings {r : Rect α} {rings : List (List (List α))}
    {ring : List (Point α)} (h : ring ∈ visibleRings r rings) :
    ∃ first points, ring = first :: points ++ [first] := by
  obtain ⟨hring, hne⟩ := List.mem_filter.mp h
  obtain ⟨positions, -, rfl⟩ := List.mem_map.mp hring
  exact Clip.exists_of_closedRing_ne_nil (by simpa [Clip.ring] using hne)

variable [OfDouble α]

lemma simplified_of_none {o : ExportOptions} (h : o.tolerance? = none) (points : List (Point α)) :
    simplified o points = points := by
  unfold simplified
  split
  · next tolerance htolerance =>
    rw [ExportOptions.tolerance?, htolerance, Option.filter_eq_none_iff] at h
    exact if_neg (by simpa using h tolerance rfl)
  · rfl

lemma simplified_of_some {o : ExportOptions} {tolerance : Float} (h : o.tolerance? = some tolerance)
    (points : List (Point α)) :
    simplified o points = Simplify.line (ofDouble tolerance) points := by
  obtain ⟨htolerance, hpos⟩ := Option.filter_eq_some_iff.mp h
  unfold simplified
  rw [htolerance]
  exact if_pos (by simpa using hpos)

/-- Whether a visible ring is an area after simplification: one on the screen beyond the tolerance,
or, if every vertex stays, one with three distinct points. -/
def SpansArea (o : ExportOptions) (c : Canvas α) (ring : List (Point α)) : Prop :=
  match o.tolerance? with
  | none => 3 ≤ ring.toFinset.card
  | some tolerance => ∃ first points, ring.map c.place = first :: points ++ [first] ∧
      Simplify.SpansArea (ofDouble tolerance) first points

lemma simplified_closed (o : ExportOptions) (first : Point α) (points : List (Point α)) :
    ∃ kept, simplified o (first :: points ++ [first]) = first :: kept ++ [first] := by
  cases htolerance : o.tolerance? with
  | none => exact ⟨points, simplified_of_none htolerance _⟩
  | some tolerance =>
    rw [simplified_of_some htolerance, Simplify.line_closed]
    exact ⟨_, rfl⟩

variable [IsStrictOrderedRing α]

lemma three_le_card_simplified_iff (hhypot : hypot (0 : α) 0 = 0) {o : ExportOptions}
    (hnonneg : ∀ tolerance ∈ o.tolerance?, 0 ≤ (ofDouble tolerance : α)) {c : Canvas α}
    (hproject : Function.Injective c.project) {first : Point α} {points : List (Point α)} :
    3 ≤ (simplified o ((first :: points ++ [first]).map c.place)).toFinset.card ↔
      SpansArea o c (first :: points ++ [first]) := by
  unfold SpansArea
  split
  · next hnone =>
    have hplace : Function.Injective c.place := by
      intro p q h
      obtain ⟨hx, hy⟩ := Point.mk.inj h
      refine hproject ?_
      rw [sub_left_inj] at hx hy
      cases hp : c.project p
      cases hq : c.project q
      simp_all
    have hplaced : ((first :: points ++ [first]).map c.place).toFinset =
        (first :: points ++ [first]).toFinset.image c.place := by
      ext p
      simp
    rw [simplified_of_none hnone, hplaced, Finset.card_image_of_injective _ hplace]
  · next tolerance hsome =>
    have hring : (first :: points ++ [first]).map c.place =
        c.place first :: points.map c.place ++ [c.place first] := by simp
    rw [simplified_of_some hsome, hring,
      Simplify.three_le_card_line_iff hhypot (hnonneg tolerance hsome)]
    constructor
    · exact fun h => ⟨_, _, rfl, h⟩
    · rintro ⟨first', points', heq, h⟩
      obtain ⟨rfl, htail⟩ := List.cons.inj heq
      obtain ⟨rfl, -⟩ := List.append_inj' htail rfl
      exact h

lemma exists_path?_of_mem_visibleRings (hhypot : hypot (0 : α) 0 = 0) {o : ExportOptions}
    (hnonneg : ∀ tolerance ∈ o.tolerance?, 0 ≤ (ofDouble tolerance : α)) {c : Canvas α}
    (hproject : Function.Injective c.project) (t : Treatment) {rings : List (List (List α))}
    {ring : List (Point α)} (hring : ring ∈ visibleRings c.bounds rings) :
    ∃ p, path? o c t ring = some p ∧
      (∃ v, p.vertices.head? = some v ∧ p.vertices.getLast? = some v) ∧
      (3 ≤ p.vertices.toFinset.card ↔ SpansArea o c ring) := by
  obtain ⟨p, hp⟩ :=
    Option.isSome_iff_exists.mp (path?_isSome o c t (two_le_length_of_mem_visibleRings hring))
  obtain ⟨first, points, rfl⟩ := exists_closed_of_mem_visibleRings hring
  refine ⟨p, hp, ?_, ?_⟩
  · obtain ⟨kept, hkept⟩ := simplified_closed o (c.place first) (points.map c.place)
    have hvertices : p.vertices = c.place first :: kept ++ [c.place first] := by
      rw [vertices_of_path? hp, ← hkept]
      simp
    exact ⟨c.place first, hvertices ▸ rfl, hvertices ▸ List.getLast?_concat⟩
  · rw [vertices_of_path? hp]
    exact three_le_card_simplified_iff hhypot hnonneg hproject

/-- Every visible ring is drawn, in order, by a path that ends where it begins. The path has three
distinct vertices just if the ring is an area after simplification, so that a ring within the
tolerance is drawn as a line or in one place. -/
theorem three_le_card_ringPaths_iff (hhypot : hypot (0 : α) 0 = 0) {o : ExportOptions}
    (hnonneg : ∀ tolerance ∈ o.tolerance?, 0 ≤ (ofDouble tolerance : α)) {c : Canvas α}
    (hproject : Function.Injective c.project) (t : Treatment) (rings : List (List (List α))) :
    List.Forall₂ (fun ring (p : Path α) =>
        (∃ v, p.vertices.head? = some v ∧ p.vertices.getLast? = some v) ∧
        (3 ≤ p.vertices.toFinset.card ↔ SpansArea o c ring))
      (visibleRings c.bounds rings) (ringPaths o c t rings) := by
  have hdrawn (ring) (hring : ring ∈ visibleRings c.bounds rings) :=
    exists_path?_of_mem_visibleRings hhypot hnonneg hproject t hring
  rw [ringPaths_eq]
  generalize visibleRings c.bounds rings = visible at hdrawn ⊢
  induction visible with
  | nil => exact .nil
  | cons ring visible ih =>
    obtain ⟨⟨p, hp, hring⟩, hrest⟩ := List.forall_mem_cons.mp hdrawn
    rw [List.filterMap_cons_some hp]
    exact .cons hring (ih hrest)

/-- Settings with a tolerance of five pixels. -/
def coarse : ExportOptions := ExportOptions.default.withSimplifyTolerance 5.0

def blackFill : Treatment := ⟨none, some ⟨.black⟩⟩

/-- A triangle with a smaller one as its hole. -/
def triangles : List (List (List ℚ)) :=
  [[[1, 1], [9, 1], [1, 9], [1, 1]], [[2, 2], [3, 2], [2, 3], [2, 2]]]

/-- Five pixels of tolerance leave the triangle an area, but not its hole. -/
theorem three_le_card_ringPaths_triangles :
    Function.Injective Exporter.wideCanvas.project ∧
    ∃ outer hole, ringPaths coarse Exporter.wideCanvas blackFill triangles = [outer, hole] ∧
      outer.vertices = [⟨2, 9⟩, ⟨18, 9⟩, ⟨2, 1⟩, ⟨2, 9⟩] ∧ hole.vertices = [⟨4, 8⟩, ⟨4, 8⟩] ∧
      SpansArea coarse Exporter.wideCanvas [⟨1, 1⟩, ⟨9, 1⟩, ⟨1, 9⟩, ⟨1, 1⟩] ∧
      ¬SpansArea coarse Exporter.wideCanvas [⟨2, 2⟩, ⟨3, 2⟩, ⟨2, 3⟩, ⟨2, 2⟩] := by
  have hproject : Function.Injective Exporter.wideCanvas.project := by
    intro p q h
    obtain ⟨hx, hy⟩ := Point.mk.inj h
    cases p
    cases q
    simp_all
  have htolerance : coarse.tolerance? = some 5.0 := by decide +kernel
  have hnonneg : ∀ tolerance ∈ coarse.tolerance?, 0 ≤ (ofDouble tolerance : ℚ) := by
    intro tolerance h
    obtain rfl := Option.some.inj (htolerance.symm.trans h)
    decide +kernel
  have hvisible : visibleRings Exporter.wideCanvas.bounds triangles =
      [[⟨1, 1⟩, ⟨9, 1⟩, ⟨1, 9⟩, ⟨1, 1⟩], [⟨2, 2⟩, ⟨3, 2⟩, ⟨2, 3⟩, ⟨2, 2⟩]] := by
    decide +kernel
  have hvertices : (ringPaths coarse Exporter.wideCanvas blackFill triangles).map Path.vertices =
      [[⟨2, 9⟩, ⟨18, 9⟩, ⟨2, 1⟩, ⟨2, 9⟩], [⟨4, 8⟩, ⟨4, 8⟩]] := by
    decide +kernel
  obtain ⟨outer, paths, hpaths, houter, hrest⟩ := List.map_eq_cons_iff.mp hvertices
  obtain ⟨hole, rfl, hhole⟩ := List.map_eq_singleton_iff.mp hrest
  have hhypot : hypot (0 : ℚ) 0 = 0 := by decide +kernel
  have hdrawn := three_le_card_ringPaths_iff hhypot hnonneg hproject blackFill triangles
  rw [hvisible, hpaths] at hdrawn
  obtain ⟨⟨-, houterArea⟩, hdrawn⟩ := List.forall₂_cons.mp hdrawn
  obtain ⟨⟨-, hholeArea⟩, -⟩ := List.forall₂_cons.mp hdrawn
  rw [houter] at houterArea
  rw [hhole] at hholeArea
  exact ⟨hproject, outer, hole, hpaths, houter, hhole, houterArea.mp (by decide +kernel),
    hholeArea.not.mp (by decide +kernel)⟩

/-- A triangle on the screen. -/
def screenTriangle : List (List Float) := [[10, 10], [12, 10], [10, 12], [10, 10]]

/-- A canvas with the screen's own coordinates. -/
def screenCanvas : Canvas Float := ⟨id, ⟨0, 0, 100, 100⟩⟩

/-- A triangle smaller than the tolerance is drawn in one place. -/
theorem vertices_ringPaths_screenTriangle : Function.Injective screenCanvas.project ∧
    Clip.ring screenCanvas.bounds (Shape.places screenTriangle) =
      [⟨10, 10⟩, ⟨12, 10⟩, ⟨10, 12⟩, ⟨10, 10⟩] ∧
    ∃ p, ringPaths coarse screenCanvas blackFill [screenTriangle] = [p] ∧
      p.vertices = [⟨10, -90⟩, ⟨10, -90⟩] ∧ ¬3 ≤ p.vertices.toFinset.card := by
  have hvertices : (ringPaths coarse screenCanvas blackFill [screenTriangle]).map Path.vertices =
      [[⟨10, -90⟩, ⟨10, -90⟩]] := by decide +kernel
  obtain ⟨p, hp, hpvertices⟩ := List.map_eq_singleton_iff.mp hvertices
  refine ⟨Function.injective_id, by decide +kernel, p, hp, hpvertices, ?_⟩
  rw [hpvertices]
  decide +kernel

end Export

end MapStyle
