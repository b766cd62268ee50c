import MapStyle.Export.FeatureLayer
import MapStyle.Proofs.EndlessCuts

/-!
# The visible parts of a shape

The paths that are drawn for a shape are those of its visible parts, which are the pieces of its
lines and what remains of its rings. Each visible part has two points at least, also after it is
simplified, so none of them is lost. A shape has visible parts, or none of them, if clipping its
lines ends; otherwise there is nothing to say of it.
-/

namespace MapStyle

open Drawing

universe u v

variable {α : Type u}

namespace Drawing

lemma pathsOf_append (ns ms : List (Node α)) : pathsOf (ns ++ ms) = pathsOf ns ++ pathsOf ms := by
  induction ns with
  | nil => rfl
  | cons n ns ih => rw [List.cons_append, pathsOf, pathsOf, ih, List.append_assoc]

lemma pathsOf_eq_flatMap (nodes : List (Node α)) : pathsOf nodes = nodes.flatMap Node.paths := by
  induction nodes with
  | nil => rfl
  | cons n nodes ih => rw [pathsOf, ih, List.flatMap_cons]

lemma pathsOf_filterMap {β : Type v} (g : β → Option (Node α)) (xs : List β) :
    pathsOf (xs.filterMap g) = xs.flatMap fun x => pathsOf (g x).toList := by
  induction xs with
  | nil => rfl
  | cons x xs ih =>
    rw [List.filterMap_cons, List.flatMap_cons, ← ih]
    cases g x with
    | none => rfl
    | some n => exact pathsOf_append [n] _

lemma pathsOf_map_path (paths : List (Path α)) : pathsOf (paths.map Node.path) = paths := by
  induction paths with
  | nil => rfl
  | cons p paths ih => rw [List.map_cons, pathsOf, ih, Node.paths, List.singleton_append]

end Drawing

/-! ### Clipped lines and rings have two points -/

namespace Clip

lemma mem_finished {points piece : List (Point α)} (h : piece ∈ finished points) :
    points ≠ [] ∧ piece = points.reverse := by
  unfold finished at h
  cases points with
  | nil => simp at h
  | cons p points => exact ⟨List.cons_ne_nil p points, by simpa using h⟩

lemma exists_of_closedRing_ne_nil {points : List (Point α)} (h : closedRing points ≠ []) :
    ∃ first rest, closedRing points = first :: rest ++ [first] := by
  unfold closedRing at h ⊢
  split
  · exact ⟨_, _, rfl⟩
  · simp_all

lemma two_le_length_closedRing {points : List (Point α)} (h : closedRing points ≠ []) :
    2 ≤ (closedRing points).length := by
  obtain ⟨first, rest, heq⟩ := exists_of_closedRing_ne_nil h
  simp [heq]

variable [BEq α]

/-- What holds of a piece of one segment, and goes on to hold when another segment continues the
piece, holds of all pieces. A piece has its last point first while it grows. -/
lemma forall_mem_piecesFrom {P : List (Point α) → Prop}
    {parts : List (Point α × Option (Point α × Point α))}
    (hbegin : ∀ q a b, (q, some (a, b)) ∈ parts → P [b, a])
    (hgrow : ∀ q a b current, (q, some (a, b)) ∈ parts → endsIn current a = true →
      P current → P (b :: current))
    {current : List (Point α)} (hcurrent : current = [] ∨ P current) :
    ∀ piece ∈ piecesFrom current parts, P piece.reverse := by
  have hfinished : ∀ current, current = [] ∨ P current →
      ∀ piece ∈ finished current, P piece.reverse := by
    intro current hcurrent piece hpiece
    obtain ⟨hne, rfl⟩ := mem_finished hpiece
    rw [List.reverse_reverse]
    exact hcurrent.resolve_left hne
  induction parts generalizing current with
  | nil => exact hfinished current hcurrent
  | cons part parts ih =>
    have hbegin' := fun q a b h => hbegin q a b (List.mem_cons_of_mem part h)
    have hgrow' := fun q a b current h => hgrow q a b current (List.mem_cons_of_mem part h)
    obtain ⟨q, _ | ⟨a, b⟩⟩ := part
    · rw [piecesFrom, List.forall_mem_append]
      exact ⟨hfinished current hcurrent, ih hbegin' hgrow' (.inl rfl)⟩
    · -- Either the segment continues the current piece, or it begins the next one.
      have hgrowing : ∃ done growing, (∀ piece ∈ done, P piece.reverse) ∧ P (b :: growing) ∧
          (if endsIn current a then ([], current) else (finished current, [a])) =
            (done, growing) := by
        by_cases hends : endsIn current a = true
        · have hne : current ≠ [] := by
            rintro rfl
            simp [endsIn] at hends
          exact ⟨[], current, List.forall_mem_nil _,
            hgrow q a b current List.mem_cons_self hends (hcurrent.resolve_left hne), if_pos hends⟩
        · exact ⟨finished current, [a], hfinished current hcurrent,
            hbegin q a b List.mem_cons_self, if_neg hends⟩
      obtain ⟨done, growing, hdone, hnext, heq⟩ := hgrowing
      rw [piecesFrom]
      simp only [heq]
      split
      · rw [List.forall_mem_append]
        exact ⟨hdone, ih hbegin' hgrow' (.inr hnext)⟩
      · rw [List.forall_mem_append, List.forall_mem_append]
        exact ⟨⟨hdone, hfinished _ (.inr hnext)⟩, ih hbegin' hgrow' (.inl rfl)⟩

variable [Add α] [Sub α] [Mul α] [Div α] [LT α] [DecidableLT α]

/-- The same for the pieces of a line, by the visible parts of its segments. -/
lemma forall_mem_of_line? {r : Rect α} {P : List (Point α) → Prop}
    (hbegin : ∀ p q a b, segment? r p q = some (some (a, b)) → P [b, a])
    (hgrow : ∀ p q a b current, segment? r p q = some (some (a, b)) → endsIn current a = true →
      P current → P (b :: current))
    {points : List (Point α)} {pieces : List (List (Point α))} (h : line? r points = some pieces) :
    ∀ piece ∈ pieces, P piece.reverse := by
  obtain ⟨parts, hparts, rfl⟩ := Option.map_eq_some_iff.mp h
  have hsegment {q a b} (hmem : (q, some (a, b)) ∈ parts) :
      ∃ p, segment? r p q = some (some (a, b)) := by
    obtain ⟨s, -, hs⟩ := exists_of_mem_mapM hparts hmem
    obtain ⟨part, hpart, heq⟩ := Option.map_eq_some_iff.mp hs
    cases heq
    exact ⟨s.1, hpart⟩
  refine forall_mem_piecesFrom (fun q a b hmem => ?_) (fun q a b current hmem => ?_) (.inl rfl)
  · obtain ⟨p, hp⟩ := hsegment hmem
    exact hbegin p q a b hp
  · obtain ⟨p, hp⟩ := hsegment hmem
    exact hgrow p q a b current hp

lemma two_le_length_of_line? {r : Rect α} {points : List (Point α)}
    {pieces : List (List (Point α))} (h : line? r points = some pieces) :
    ∀ piece ∈ pieces, 2 ≤ piece.length := by
  intro piece hpiece
  have hreverse : 2 ≤ piece.reverse.length := by
    refine forall_mem_of_line? (P := fun points => 2 ≤ points.length) ?_ ?_ h piece hpiece
    · intro p q a b _
      simp
    · intro p q a b current _ _ hcurrent
      exact Nat.le_succ_of_le hcurrent
  simpa using hreverse

end Clip

namespace Export

/-! ### Visible parts -/

section Visible

variable [Add α] [Sub α] [Mul α] [Div α] [LE α] [DecidableLE α] [BEq α]

/-- What clipping leaves of rings; those that are hidden leave nothing. -/
def visibleRings (r : Rect α) (rings : List (List (List α))) : List (List (Point α)) :=
  (rings.map fun ring => Clip.ring r (Shape.places ring)).filter fun ring => !ring.isEmpty

lemma two_le_length_of_mem_visibleRings {r : Rect α} {rings : List (List (List α))}
    {ring : List (Point α)} (h : ring ∈ visibleRings r rings) : 2 ≤ ring.length := by
  unfold visibleRings at h
  obtain ⟨hring, hne⟩ := List.mem_filter.mp h
  obtain ⟨positions, _, rfl⟩ := List.mem_map.mp hring
  exact Clip.two_le_length_closedRing (by simpa [Clip.ring] using hne)

variable [LT α] [DecidableLT α]

/-- What clipping leaves of a shape of a kind that is drawn, if it ends. -/
def visibleParts? (r : Rect α) : Shape α → Option (List (List (Point α)))
  | .lineString line => Clip.line? r (Shape.places line)
  | .multiLineString lines =>
    (lines.mapM fun line => Clip.line? r (Shape.places line)).map List.flatten
  | .polygon rings => some (visibleRings r rings)
  | .multiPolygon polygons => some (polygons.flatMap (visibleRings r))
  | .point _ => some []
  | .multiPoint _ => some []
  | .collection _ => some []

/-- The segments of the lines of a shape. -/
def lineSegments : Shape α → List (Point α × Point α)
  | .lineString line => segments (Shape.places line)
  | .multiLineString lines => lines.flatMap fun line => segments (Shape.places line)
  | _ => []

/-- A shape is clipped if and only if the segments of its lines are. -/
theorem isSome_visibleParts?_iff {r : Rect α} {s : Shape α} :
    (visibleParts? r s).isSome = true ↔
      ∀ e ∈ lineSegments s, (Clip.segment? r e.1 e.2).isSome = true := by
  cases s with
  | lineString line => exact Clip.isSome_line?_iff
  | multiLineString lines =>
    rw [visibleParts?, Option.isSome_map, isSome_mapM_iff]
    simp only [Clip.isSome_line?_iff, lineSegments, List.forall_mem_flatMap]
  | _ => exact iff_of_true rfl (List.forall_mem_nil _)

/-- What holds of the pieces of lines and of what remains of rings holds of all visible parts. -/
lemma forall_mem_of_visibleParts? {r : Rect α} {P : List (Point α) → Prop}
    (hlines : ∀ points pieces, Clip.line? r points = some pieces → ∀ piece ∈ pieces, P piece)
    (hrings : ∀ rings, ∀ ring ∈ visibleRings r rings, P ring) {s : Shape α}
    {parts : List (List (Point α))} (h : visibleParts? r s = some parts) :
    ∀ part ∈ parts, P part := by
  cases s with
  | lineString line => exact hlines _ _ h
  | multiLineString lines =>
    obtain ⟨pieces, hpieces, rfl⟩ := Option.map_eq_some_iff.mp h
    intro part hpart
    obtain ⟨own, hown, hpart⟩ := List.mem_flatten.mp hpart
    obtain ⟨line, -, hline⟩ := exists_of_mem_mapM hpieces hown
    exact hlines _ _ hline part hpart
  | polygon rings =>
    obtain rfl := Option.some.inj h
    exact hrings rings
  | multiPolygon polygons =>
    obtain rfl := Option.some.inj h
    intro part hpart
    obtain ⟨rings, _, hpart⟩ := List.mem_flatMap.mp hpart
    exact hrings rings part hpart
  | _ =>
    obtain rfl := Option.some.inj h
    exact List.forall_mem_nil _

lemma two_le_length_of_visibleParts? {r : Rect α} {s : Shape α} {parts : List (List (Point α))}
    (h : visibleParts? r s = some parts) : ∀ part ∈ parts, 2 ≤ part.length :=
  forall_mem_of_visibleParts? (fun _ _ hline => Clip.two_le_length_of_line? hline)
    (fun _ _ hring => two_le_length_of_mem_visibleRings hring) h

end Visible

/-! ### Paths of visible parts -/

lemma pathsOf_group? (nodes : List (Node α)) : pathsOf (group? nodes).toList = pathsOf nodes := by
  unfold group?
  cases nodes with
  | nil => rfl
  | cons n nodes => simp [pathsOf, Node.paths]

lemma pathsOf_pathGroup? (paths : List (Path α)) : pathsOf (pathGroup? paths).toList = paths := by
  rw [pathGroup?, pathsOf_group?, pathsOf_map_path]

variable [Zero α] [One α] [Add α] [Sub α] [Neg α] [Mul α] [Div α] [LT α] [LE α] [DecidableLT α]
  [DecidableLE α] [BEq α] [Hypot α] [OfDouble α]

lemma two_le_length_simplified (o : ExportOptions) {points : List (Point α)}
    (h : 2 ≤ points.length) : 2 ≤ (simplified o points).length := by
  have hline (tolerance : α) : 2 ≤ (Simplify.line tolerance points).length := by
    simp [Simplify.line, h]
  unfold simplified
  split
  · split
    · exact hline _
    · exact h
  · exact h

lemma path?_isSome (o : ExportOptions) (c : Canvas α) (t : Treatment) {points : List (Point α)}
    (h : 2 ≤ points.length) : (path? o c t points).isSome = true := by
  have hlength : 2 ≤ (simplified o (points.map c.place)).length :=
    two_le_length_simplified o (by simpa using h)
  unfold path?
  match hpoints : simplified o (points.map c.place) with
  | [] => simp [hpoints] at hlength
  | [p] => simp [hpoints] at hlength
  | p :: q :: rest => simp [stepsThrough?]

lemma path?_nil (o : ExportOptions) (c : Canvas α) (t : Treatment) : path? o c t [] = none := by
  have h : simplified o ([] : List (Point α)) = [] := by
    unfold simplified
    split
    · split <;> simp [Simplify.line]
    · rfl
  simp [path?, h, stepsThrough?]

lemma ringPaths_eq (o : ExportOptions) (c : Canvas α) (t : Treatment)
    (rings : List (List (List α))) :
    ringPaths o c t rings = (visibleRings c.bounds rings).filterMap (path? o c t) := by
  unfold ringPaths visibleRings
  induction rings with
  | nil => rfl
  | cons ring rings ih =>
    rw [List.filterMap_cons, ih, List.map_cons, List.filter_cons]
    cases hring : Clip.ring c.bounds (Shape.places ring) with
    | nil => simp [path?_nil]
    | cons p points => simp [List.filterMap_cons]

lemma linePaths?_eq (o : ExportOptions) (c : Canvas α) (t : Treatment)
    (lines : List (List (List α))) :
    (lines.mapM (linePaths? o c t)).map List.flatten =
      (visibleParts? c.bounds (.multiLineString lines)).map (List.filterMap (path? o c t)) := by
  unfold linePaths? visibleParts?
  rw [mapM_map, Option.map_map, Option.map_map]
  congr 1
  funext pieces
  exact (List.filterMap_flatten).symm

/-- The paths that are drawn for a shape are those of its visible parts, in order. -/
theorem pathsOf_shapeNode? (o : ExportOptions) (c : Canvas α) (t : Treatment) (s : Shape α) :
    (shapeNode? o c t s).map (fun n => pathsOf n.toList) =
      (visibleParts? c.bounds s).map (List.filterMap (path? o c t)) := by
  cases s with
  | lineString line =>
    have hnode (paths : List (Path α)) : pathsOf (lineNode? paths).toList = paths := by
      unfold lineNode?
      split
      · simp [pathsOf, Node.paths]
      · exact pathsOf_pathGroup? _
    rw [shapeNode?, Option.map_map]
    simp only [Function.comp_def, hnode, Option.map_id']
    rfl
  | multiLineString lines =>
    rw [shapeNode?, Option.map_map, ← linePaths?_eq]
    simp only [Function.comp_def, pathsOf_pathGroup?]
  | polygon rings =>
    rw [shapeNode?, Option.map_some, pathsOf_pathGroup?, ringPaths_eq, visibleParts?,
      Option.map_some]
  | multiPolygon polygons =>
    rw [shapeNode?, Option.map_some, pathsOf_group?, visibleParts?, Option.map_some,
      List.filterMap_flatMap, pathsOf_filterMap]
    simp only [pathsOf_pathGroup?, ringPaths_eq]
  | _ => rfl

/-- The same with no paths where clipping does not end. -/
lemma pathsOf_join_shapeNode? (o : ExportOptions) (c : Canvas α) (t : Treatment) (s : Shape α) :
    pathsOf (shapeNode? o c t s).join.toList =
      ((visibleParts? c.bounds s).getD []).filterMap (path? o c t) := by
  have h := pathsOf_shapeNode? o c t s
  cases hnode : shapeNode? o c t s <;> cases hparts : visibleParts? c.bounds s <;>
    simp_all [pathsOf]

lemma isSome_shapeNode?_iff (o : ExportOptions) (c : Canvas α) (t : Treatment) (s : Shape α) :
    (shapeNode? o c t s).isSome = true ↔ (visibleParts? c.bounds s).isSome = true := by
  have h := congrArg Option.isSome (pathsOf_shapeNode? o c t s)
  rw [Option.isSome_map, Option.isSome_map] at h
  rw [h]

end Export

end MapStyle
