import MapStyle.Proofs.Agreement
import MapStyle.Proofs.ClippedPoints
import Mathlib.Data.Rat.Sqrt

/-!
# Paths stay on the canvas

Paths of an export with exact numbers. Clipping leaves points of the bounds, a projection with north
up takes these to the canvas, and simplification keeps some of the points.
-/

namespace MapStyle

open Drawing

universe u

variable {α : Type u}

/-! ### Simplification drops points only -/

namespace Simplify

variable [Zero α] [One α] [Add α] [Sub α] [Neg α] [Mul α] [Div α] [LT α] [LE α]
  [DecidableLT α] [DecidableLE α] [BEq α] [Hypot α]

lemma inner_cases (tolerance : α) (a : Point α) (points : List (Point α)) (b : Point α) :
    inner tolerance a points b = [] ∨ ∃ i, ∃ hi : i < points.length,
      inner tolerance a points b = inner tolerance a (points.take i) points[i] ++
        points[i] :: inner tolerance points[i] (points.drop (i + 1)) b := by
  rw [inner]
  split
  · next i distance hfarthest =>
    split
    · exact .inl rfl
    · next p hp =>
      obtain ⟨hi, rfl⟩ := List.getElem?_eq_some_iff.mp hp
      split
      · exact .inr ⟨i, hi, rfl⟩
      · exact .inl rfl

lemma inner_sublist (tolerance : α) (a : Point α) (points : List (Point α)) (b : Point α) :
    (inner tolerance a points b).Sublist points := by
  induction hn : points.length using Nat.strong_induction_on generalizing a points b with
  | _ n ih =>
    rcases inner_cases tolerance a points b with hnil | ⟨i, hi, hsplit⟩
    · rw [hnil]
      exact List.nil_sublist _
    · have hleft := ih i (hn ▸ hi) a (points.take i) points[i] (List.length_take_of_le hi.le)
      have hright := ih _ (by rw [← hn, List.length_drop]; omega) points[i]
        (points.drop (i + 1)) b rfl
      have hwhole : points.take i ++ points[i] :: points.drop (i + 1) = points := by
        rw [List.getElem_cons_drop, List.take_append_drop]
      have hparts := hleft.append (hright.cons_cons points[i])
      rw [hwhole] at hparts
      exact hsplit ▸ hparts

theorem line_sublist (tolerance : α) (points : List (Point α)) :
    (line tolerance points).Sublist points := by
  unfold line
  split
  · next h =>
    obtain ⟨first, rest, rfl⟩ := List.exists_cons_of_length_pos (by omega : 0 < points.length)
    have hne : rest ≠ [] := by
      rintro rfl
      simp at h
    have hlast : (first :: rest)[(first :: rest).length - 1] = rest.getLast hne :=
      (List.getLast_eq_getElem (List.cons_ne_nil first rest)).symm.trans (List.getLast_cons hne)
    have hwhole : rest.dropLast ++ [rest.getLast hne] = rest := List.dropLast_append_getLast hne
    simp only [hlast, List.getElem_cons_zero, List.tail_cons, List.cons_append]
    have hparts := (inner_sublist tolerance first rest.dropLast (rest.getLast hne)).append
      (List.Sublist.refl [rest.getLast hne])
    rw [hwhole] at hparts
    exact hparts.cons_cons first
  · exact .refl _

end Simplify

/-! ### Vertices -/

/-- The points that a step names, its control points among them. -/
def Drawing.Step.points : Step α → List (Point α)
  | .move p => [p]
  | .line p => [p]
  | .quad c p => [c, p]
  | .cubic c d p => [c, d, p]
  | .close => []

/-- The vertices of a path, in drawing order. -/
def Drawing.Path.vertices (p : Path α) : List (Point α) :=
  p.steps.flatMap Step.points

namespace Export

lemma flatMap_points_of_stepsThrough? {closed : Bool} {points : List (Point α)}
    {steps : List (Step α)} (h : stepsThrough? closed points = some steps) :
    steps.flatMap Step.points = points := by
  match points with
  | first :: second :: rest =>
    obtain rfl := Option.some.inj h
    have hlines : ((second :: rest).map Step.line).flatMap Step.points = second :: rest := by
      rw [List.flatMap_map]
      exact List.flatMap_singleton' _
    rw [List.flatMap_append, List.flatMap_cons, hlines]
    cases closed <;> simp [Step.points]

section Paths

variable [Zero α] [One α] [Add α] [Sub α] [Neg α] [Mul α] [Div α] [LT α] [LE α]
  [DecidableLT α] [DecidableLE α] [BEq α] [Hypot α] [OfDouble α]

lemma simplified_sublist (o : ExportOptions) (points : List (Point α)) :
    (simplified o points).Sublist points := by
  unfold simplified
  split
  · split
    · exact Simplify.line_sublist _ _
    · exact .refl _
  · exact .refl _

lemma vertices_of_path? {o : ExportOptions} {c : Canvas α} {t : Treatment} {points : List (Point α)}
    {p : Path α} (h : path? o c t points = some p) :
    p.vertices = simplified o (points.map c.place) := by
  obtain ⟨steps, hsteps, rfl⟩ := Option.map_eq_some_iff.mp h
  exact flatMap_points_of_stepsThrough? hsteps

/-- The vertices of a path are among the places of the points that it is drawn through. -/
lemma vertices_sublist_of_path? {o : ExportOptions} {c : Canvas α} {t : Treatment}
    {points : List (Point α)} {p : Path α} (h : path? o c t points = some p) :
    p.vertices.Sublist (points.map c.place) := by
  rw [vertices_of_path? h]
  exact simplified_sublist o _

/-- A path of an export is drawn through a visible part of one of the features. -/
lemma exists_visiblePart_of_mem_pathsBy {e : Exporter} {c : Canvas α} {d : Definition}
    {features : List (MapFeature α)} {x : Export α} (h : e.run? c d features = some x) {i : Nat}
    {p : Path α} (hp : p ∈ x.pathsBy i) :
    ∃ f ∈ features, ∃ parts, visibleParts? c.bounds f.shape = some parts ∧
      ∃ part ∈ parts, p.vertices.Sublist (part.map c.place) := by
  cases hr : d.rules[i]? with
  | none =>
    rw [pathsBy, Exporter.ruleGroup_eq_nil h hr] at hp
    cases hp
  | some r =>
    rw [Exporter.pathsBy_eq h hr] at hp
    split at hp
    · cases hp
    · obtain ⟨f, hf, hp⟩ := List.mem_flatMap.mp hp
      obtain ⟨part, hpart, hpath⟩ := List.mem_filterMap.mp hp
      cases hparts : visibleParts? c.bounds f.shape with
      | none =>
        rw [hparts] at hpart
        cases hpart
      | some parts =>
        rw [hparts] at hpart
        exact ⟨f, List.mem_of_mem_filter hf, parts, hparts, part, hpart,
          vertices_sublist_of_path? hpath⟩

end Paths

end Export

/-! ### The canvas -/

variable [Field α] [LinearOrder α]

namespace Export

variable [IsStrictOrderedRing α]

lemma contains_of_mem_visibleRings {r : Rect α} {rings : List (List (List α))}
    {ring : List (Point α)} (hring : ring ∈ visibleRings r rings) : ∀ p ∈ ring, r.Contains p := by
  obtain ⟨hmem, _⟩ := List.mem_filter.mp hring
  obtain ⟨positions, _, rfl⟩ := List.mem_map.mp hmem
  exact fun p hp => Clip.contains_of_mem_ring hp

/-- Whatever is visible of a shape lies in the rectangle. -/
theorem contains_of_visibleParts? {r : Rect α} {s : Shape α} {parts : List (List (Point α))}
    (h : visibleParts? r s = some parts) : ∀ part ∈ parts, ∀ p ∈ part, r.Contains p :=
  forall_mem_of_visibleParts? (fun _ _ hline => Clip.contains_of_line? hline)
    (fun _ _ hring => contains_of_mem_visibleRings hring) h

end Export

namespace Canvas

/-- A projection with north up: what is farther east is not farther left, and what is farther north
is not farther down. -/
structure IsNorthUp (c : Canvas α) : Prop where
  right : ∀ p q, p.x ≤ q.x → (c.project p).x ≤ (c.project q).x
  down : ∀ p q, p.y ≤ q.y → (c.project q).y ≤ (c.project p).y

lemma magnitude_of_nonneg [IsStrictOrderedRing α] {a : α} (h : 0 ≤ a) : magnitude a = a :=
  if_neg h.not_gt

/-- The projected bounds are as wide and high as the canvas, and contain what is projected from
inside the bounds. -/
lemma place_mem [IsStrictOrderedRing α] {c : Canvas α} (hc : c.IsNorthUp) {q : Point α}
    (hq : c.bounds.Contains q) :
    (c.place q).x ∈ Set.Icc 0 c.size.width ∧ (c.place q).y ∈ Set.Icc 0 c.size.height := by
  obtain ⟨⟨hx0, hx1⟩, ⟨hy0, hy1⟩⟩ := hq
  have hleft : c.topLeft.x ≤ (c.project q).x := hc.right _ _ hx0
  have hright : (c.project q).x ≤ c.bottomRight.x := hc.right _ _ hx1
  have htop : c.topLeft.y ≤ (c.project q).y := hc.down _ _ hy1
  have hbottom : (c.project q).y ≤ c.bottomRight.y := hc.down _ _ hy0
  have hwidth : c.size.width = c.bottomRight.x - c.topLeft.x :=
    magnitude_of_nonneg (sub_nonneg.mpr (hleft.trans hright))
  have hheight : c.size.height = c.bottomRight.y - c.topLeft.y :=
    magnitude_of_nonneg (sub_nonneg.mpr (htop.trans hbottom))
  rw [hwidth, hheight]
  exact ⟨⟨sub_nonneg.mpr hleft, sub_le_sub_right hright _⟩,
    sub_nonneg.mpr htop, sub_le_sub_right hbottom _⟩

end Canvas

namespace Exporter

variable [IsStrictOrderedRing α] [Hypot α] [OfDouble α]

/-- With exact numbers every export ends. -/
lemma exists_run? (e : Exporter) {c : Canvas α} (hx : c.bounds.x0 ≤ c.bounds.x1)
    (hy : c.bounds.y0 ≤ c.bounds.y1) (d : Definition) (features : List (MapFeature α)) :
    ∃ x, e.run? c d features = some x := by
  rw [← Option.isSome_iff_exists, isSome_run?_iff]
  exact fun i r _ _ f _ s _ => Clip.isSome_segment? hx hy s.1 s.2

/-- Every vertex in the layer of features is the place of a point inside the bounds. -/
lemma exists_contains_of_mem_vertices {e : Exporter} {c : Canvas α} {d : Definition}
    {features : List (MapFeature α)} {x : Export α} (h : e.run? c d features = some x) :
    ∃ layers, x.drawing.group? "Features" = some layers ∧
      ∀ p ∈ pathsOf layers, ∀ v ∈ p.vertices, ∃ q, c.bounds.Contains q ∧ v = c.place q := by
  obtain ⟨layers, hgroup, -, hpaths⟩ := exists_pathsOf_layers h
  refine ⟨layers, hgroup, fun p hp v hv => ?_⟩
  rw [hpaths] at hp
  obtain ⟨i, _, hp⟩ := List.mem_flatMap.mp hp
  -- simplification and drawing keep some of the places of a visible part, so `v` is one of them
  obtain ⟨f, _, parts, hparts, part, hpart, hsub⟩ := Export.exists_visiblePart_of_mem_pathsBy h hp
  obtain ⟨q, hq, rfl⟩ := List.mem_map.mp (hsub.subset hv)
  exact ⟨q, Export.contains_of_visibleParts? hparts part hpart q hq, rfl⟩

/-- Exported geometry stays on the canvas. With exact numbers every segment is clipped, so that an
export ends, and every vertex in the layer of features is the projection of a point inside the
bounds, counted from the projected upper left corner, and lies on the canvas. -/
theorem vertices_on_canvas (e : Exporter) {c : Canvas α} (hx : c.bounds.x0 ≤ c.bounds.x1)
    (hy : c.bounds.y0 ≤ c.bounds.y1) (hc : c.IsNorthUp) (d : Definition)
    (features : List (MapFeature α)) :
    (∀ a b, (Clip.segment? c.bounds a b).isSome = true) ∧
    ∃ x, e.run? c d features = some x ∧
      ∃ layers, x.drawing.group? "Features" = some layers ∧
        ∀ p ∈ pathsOf layers, ∀ v ∈ p.vertices,
          (∃ q, c.bounds.Contains q ∧
            v = (c.project q).relativeTo (c.project ⟨c.bounds.x0, c.bounds.y1⟩)) ∧
          v.x ∈ Set.Icc 0 x.drawing.size.width ∧ v.y ∈ Set.Icc 0 x.drawing.size.height := by
  obtain ⟨x, h⟩ := e.exists_run? hx hy d features
  obtain ⟨layers, hgroup, hvertices⟩ := exists_contains_of_mem_vertices h
  refine ⟨Clip.isSome_segment? hx hy, x, h, layers, hgroup, fun p hp v hv => ?_⟩
  obtain ⟨q, hcontains, rfl⟩ := hvertices p hp v hv
  rw [size_of_run? h]
  exact ⟨⟨q, hcontains, rfl⟩, Canvas.place_mem hc hcontains⟩

/-- The exact values of doubles; those that denote no number count as zero. -/
instance : OfDouble ℚ where
  ofDouble x := match Decimal.parts x with
    | .finite negative m e => (if negative then -1 else 1) * m * 2 ^ e
    | _ => 0

/-- Diagonals of rectangles, exact where they are rational. -/
instance : Hypot ℚ := ⟨fun a b => Rat.sqrt (a * a + b * b)⟩

/-- A canvas that stretches a square to twice its width. -/
def wideCanvas : Canvas ℚ := ⟨fun p => ⟨2 * p.x, -p.y⟩, ⟨0, 0, 10, 10⟩⟩

/-- A motorway that enters the square on its left, and a junction that leaves it on its right. -/
def crossingFeatures : List (MapFeature ℚ) := [
  { MapFeature.bare (.lineString [[-4, 5], [2, 5], [4, 5]]) with toFeature := Renderer.motorway },
  { MapFeature.bare (.polygon [[[6, 2], [12, 2], [12, 8], [6, 8], [6, 2]]]) with
    toFeature := Renderer.motorway }]

/-- An exporter that straightens lines. -/
def straightening : Exporter :=
  ⟨ExportOptions.default.withSimplifyTolerance 0.5, .empty, .estimate⟩

/-- The line is straightened between its ends, and the junction is drawn after it. -/
lemma vertices_crossing {x : Export ℚ}
    (h : straightening.run? wideCanvas Renderer.overlappingStyle crossingFeatures = some x) :
    ((List.range 3).flatMap x.pathsBy).map Path.vertices =
      [[⟨0, 5⟩, ⟨8, 5⟩], [⟨12, 8⟩, ⟨20, 8⟩, ⟨20, 2⟩, ⟨12, 2⟩, ⟨12, 8⟩]] := by
  have hline : Clip.line? wideCanvas.bounds (Shape.places [[-4, 5], [2, 5], [4, 5]]) =
      some [[⟨0, 5⟩, ⟨2, 5⟩, ⟨4, 5⟩]] := Clip.line?_of_lineWithin? 4 (by decide +kernel)
  have hroads : x.pathsBy 0 = [] := pathsBy_eq h (i := 0) rfl
  have hhidden : x.pathsBy 2 = [] := pathsBy_eq h (i := 2) rfl
  have hmotorways : x.pathsBy 1 = crossingFeatures.flatMap fun f =>
      ((Export.visibleParts? wideCanvas.bounds f.shape).getD []).filterMap
        (Export.path? straightening.options wideCanvas
          ⟨some ⟨4.0, .pureRed, true⟩, some ⟨.ofRgba8 ⟨0, 0, 255, 128⟩⟩⟩) :=
    pathsBy_eq h (i := 1) rfl
  -- clipping the line is no computation of the kernel, unlike the rest
  rw [crossingFeatures, List.flatMap_cons, MapFeature.bare, Export.visibleParts?, hline]
    at hmotorways
  simp only [List.range, List.range.loop, List.flatMap_cons, List.flatMap_nil, hroads, hhidden,
    hmotorways, List.nil_append, List.append_nil]
  decide +kernel

theorem vertices_on_canvas_crossing : wideCanvas.IsNorthUp ∧
    ∃ x, straightening.run? wideCanvas Renderer.overlappingStyle crossingFeatures = some x ∧
    ∃ layers, x.drawing.group? "Features" = some layers ∧
    (pathsOf layers).map Path.vertices =
      [[⟨0, 5⟩, ⟨8, 5⟩], [⟨12, 8⟩, ⟨20, 8⟩, ⟨20, 2⟩, ⟨12, 2⟩, ⟨12, 8⟩]] ∧
    ∀ p ∈ pathsOf layers, ∀ v ∈ p.vertices, v.x ∈ Set.Icc 0 20 ∧ v.y ∈ Set.Icc 0 10 := by
  have hup : wideCanvas.IsNorthUp := by
    constructor
    · intro p q h
      exact mul_le_mul_of_nonneg_left h (by norm_num)
    · intro p q h
      exact neg_le_neg h
  obtain ⟨-, x, hx, layers, hlayers, hcanvas⟩ := vertices_on_canvas straightening
    (c := wideCanvas) (by decide) (by decide) hup Renderer.overlappingStyle crossingFeatures
  have hwidth : wideCanvas.size.width = 20 := by decide +kernel
  have hheight : wideCanvas.size.height = 10 := by decide +kernel
  refine ⟨hup, x, hx, layers, hlayers, ?_, ?_⟩
  · obtain ⟨same, hsame, -, hpaths⟩ := exists_pathsOf_layers hx
    obtain rfl := Option.some.inj (hlayers.symm.trans hsame)
    rw [hpaths]
    exact vertices_crossing hx
  · intro p hp v hv
    rw [← hwidth, ← hheight, ← size_of_run? hx]
    exact (hcanvas p hp v hv).2

end Exporter

end MapStyle
