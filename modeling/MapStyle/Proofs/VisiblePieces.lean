import MapStyle.Proofs.VisibleSegments
import Mathlib.Data.List.SplitBy

/-!
# The visible pieces of a polyline

Clipping a polyline with exact numbers. Its segments fall into runs, in which each one meets the
next one inside the rectangle. The visible parts of a run join to a piece, so the pieces have what
is visible of the polyline, each connected as far as the polyline is.
-/

namespace MapStyle

universe u

variable {α : Type u}

/-! ### Segments of a polyline -/

@[simp] lemma segments_cons_cons (p q : Point α) (points : List (Point α)) :
    segments (p :: q :: points) = (p, q) :: segments (q :: points) := rfl

@[simp] lemma segments_singleton (p : Point α) : segments [p] = [] := rfl

lemma segments_concat_concat (points : List (Point α)) (p q : Point α) :
    segments (points ++ [p, q]) = segments (points ++ [p]) ++ [(p, q)] := by
  induction points with
  | nil => rfl
  | cons a points ih =>
    cases points with
    | nil => rfl
    | cons b points =>
      simp only [List.cons_append, segments_cons_cons] at ih ⊢
      rw [ih]

/-- A polyline is known by its segments. -/
lemma eq_of_segments_eq {points more : List (Point α)} (hpoints : 2 ≤ points.length)
    (hmore : 2 ≤ more.length) (h : segments points = segments more) : points = more := by
  match points, more with
  | p :: q :: points, p' :: q' :: more =>
    have htail := congrArg (List.map Prod.snd) h
    simp only [segments, List.tail_cons] at htail
    rw [List.map_snd_zip (by simp), List.map_snd_zip (by simp)] at htail
    simp only [segments_cons_cons, List.cons.injEq, Prod.mk.injEq] at h
    rw [h.1.1, htail]

variable [Field α] [LinearOrder α]

/-- The points of the segments of a polyline. -/
def trace (points : List (Point α)) : Set (Point α) :=
  {p | ∃ s ∈ segments points, p ∈ s.1.segment s.2}

instance (r : Rect α) : DecidablePred r.Contains :=
  fun p => inferInstanceAs (Decidable (p.x ∈ Set.Icc r.x0 r.x1 ∧ p.y ∈ Set.Icc r.y0 r.y1))

namespace Clip

/-- The visible parts of segments that have one, in order. -/
def clips (r : Rect α) (ss : List (Point α × Point α)) : List (Point α × Point α) :=
  ss.filterMap fun s => (segment? r s.1 s.2).join

/-- Whether a segment meets the next one inside the rectangle. -/
def meetsInside (r : Rect α) (s _next : Point α × Point α) : Bool :=
  r.Contains s.2

/-- The visible parts of segments by the longest runs in which each segment meets the next one
inside the rectangle. A run without visible parts is left out. -/
def visibleRuns (r : Rect α) (ss : List (Point α × Point α)) : List (List (Point α × Point α)) :=
  ((ss.splitBy (meetsInside r)).map (clips r)).filter fun run => !run.isEmpty

section Runs

variable {r : Rect α} {run : List (Point α × Point α)}

lemma clips_concat_of_eq_some {p q a b : Point α} (h : segment? r p q = some (some (a, b))) :
    clips r (run ++ [(p, q)]) = clips r run ++ [(a, b)] := by
  simp [clips, h]

/-- Segments that meet inside are one run, whose last segment may leave the rectangle. -/
lemma visibleRuns_concat (hrun : ∀ s ∈ run, r.Contains s.2) (s : Point α × Point α) :
    visibleRuns r (run ++ [s]) = [clips r (run ++ [s])].filter fun run => !run.isEmpty := by
  have hmeets : (run ++ [s]).Pairwise fun s t => meetsInside r s t = true := by
    rw [List.pairwise_append]
    refine ⟨List.pairwise_of_forall_mem_list ?_, List.pairwise_singleton _ _, ?_⟩
    · intro s hs t _
      exact decide_eq_true (hrun s hs)
    · intro s hs t _
      exact decide_eq_true (hrun s hs)
  rw [visibleRuns, List.splitBy_of_isChain (by simp) hmeets.isChain, List.map_singleton]

/-- A run ends with a segment that ends outside. -/
lemma visibleRuns_append_cons (run : List (Point α × Point α)) {s : Point α × Point α}
    (hs : ¬ r.Contains s.2) (more : List (Point α × Point α)) :
    visibleRuns r (run ++ s :: more) = visibleRuns r (run ++ [s]) ++ visibleRuns r more := by
  have happend : (run ++ s :: more).splitBy (meetsInside r) =
      (run ++ [s]).splitBy (meetsInside r) ++ more.splitBy (meetsInside r) := by
    rw [← List.splitBy_append, List.append_assoc, List.singleton_append]
    intro t ht u _
    obtain rfl : s = t := by simpa using ht
    exact decide_eq_false hs
  rw [visibleRuns, happend, List.map_append, List.filter_append]
  rfl

end Runs

/-! ### A piece while it grows -/

/-- The piece that is being read, its last point first, and the run of segments that is being read.
Both are empty, or they end in a vertex inside the rectangle and the piece has the visible parts of
the run. -/
structure Grows (r : Rect α) (run : List (Point α × Point α)) (current : List (Point α))
    (p : Point α) : Prop where
  nil_iff : current = [] ↔ run = []
  inside : ∀ s ∈ run, r.Contains s.2
  last : ∀ q ∈ current.head?, q = p ∧ r.Contains p
  segments_eq : segments current.reverse = clips r run

lemma Grows.nil (r : Rect α) (p : Point α) : Grows r [] [] p :=
  ⟨by simp, by simp, by simp, rfl⟩

section Pieces

variable [IsStrictOrderedRing α] {r : Rect α} {run : List (Point α × Point α)}
  {current : List (Point α)} {p q a b : Point α}

lemma exists_segment? (hx : r.x0 ≤ r.x1) (hy : r.y0 ≤ r.y1) (p q : Point α) :
    ∃ part, segment? r p q = some part :=
  Option.isSome_iff_exists.mp (isSome_segment? hx hy p q)

lemma not_contains_of_segment? (hx : r.x0 ≤ r.x1) (hy : r.y0 ≤ r.y1)
    (h : segment? r p q = some none) : ¬ r.Contains p ∧ ¬ r.Contains q := by
  rw [segment?_eq_some_none_iff hx hy, Set.eq_empty_iff_forall_notMem] at h
  refine ⟨fun hp => h 0 ⟨⟨le_rfl, zero_le_one⟩, ?_⟩, fun hq => h 1 ⟨⟨zero_le_one, le_rfl⟩, ?_⟩⟩
  · rwa [Point.along_zero]
  · rwa [Point.along_one]

/-- The visible part of the next segment continues the piece that is being read, or begins one. -/
lemma Grows.exists_growing (hx : r.x0 ≤ r.x1) (hy : r.y0 ≤ r.y1) (h : Grows r run current p)
    (hsegment : segment? r p q = some (some (a, b))) :
    ∃ growing, (if endsIn current a then ([], current) else (finished current, [a])) =
        ([], growing) ∧
      segments (b :: growing).reverse = clips r (run ++ [(p, q)]) := by
  rw [clips_concat_of_eq_some hsegment]
  cases current with
  | nil =>
    obtain rfl := h.nil_iff.mp rfl
    exact ⟨[a], rfl, rfl⟩
  | cons last older =>
    obtain ⟨rfl, hp⟩ := h.last last rfl
    obtain rfl := fst_of_segment? hx hy hsegment hp
    refine ⟨a :: older, by simp [endsIn], ?_⟩
    rw [← h.segments_eq]
    simp only [List.reverse_cons, List.append_assoc, List.singleton_append]
    exact segments_concat_concat older.reverse a b

omit [IsStrictOrderedRing α] in
/-- A piece that is finished has the visible parts of its run. -/
lemma map_segments_finished {piece : List (Point α)} {run : List (Point α × Point α)}
    {s : Point α × Point α} (hrun : ∀ s ∈ run, r.Contains s.2)
    (hsegments : segments piece.reverse = clips r (run ++ [s]))
    (hclips : clips r (run ++ [s]) ≠ []) :
    (finished piece).map segments = visibleRuns r (run ++ [s]) := by
  have hpiece : piece ≠ [] := by
    rintro rfl
    exact hclips hsegments.symm
  rw [visibleRuns_concat hrun]
  simp [finished, hpiece, hsegments, hclips]

/-- The end of a segment and its visible part. -/
def endAndPart (r : Rect α) (s : Point α × Point α) : Point α × Option (Point α × Point α) :=
  (s.2, (segment? r s.1 s.2).join)

/-- The segments of the pieces that are still to be written are the visible parts of the segments
that are not written yet, run by run. -/
lemma map_segments_piecesFrom (hx : r.x0 ≤ r.x1) (hy : r.y0 ≤ r.y1) (h : Grows r run current p)
    (rest : List (Point α)) :
    (piecesFrom current ((segments (p :: rest)).map (endAndPart r))).map segments =
      visibleRuns r (run ++ segments (p :: rest)) := by
  induction rest generalizing run current p with
  | nil =>
    rw [segments_singleton, List.append_nil, List.map_nil, piecesFrom]
    rcases List.eq_nil_or_concat run with rfl | ⟨run, s, rfl⟩
    · rw [h.nil_iff.mpr rfl]
      rfl
    · rw [List.concat_eq_append] at *
      refine map_segments_finished (fun t ht => h.inside t (by simp [ht])) h.segments_eq ?_
      obtain ⟨_ | ab, hsegment⟩ := exists_segment? hx hy s.1 s.2
      · exact absurd (h.inside s (by simp)) (not_contains_of_segment? hx hy hsegment).2
      · simp [clips, hsegment]
  | cons q rest ih =>
    rw [segments_cons_cons, List.map_cons, endAndPart]
    obtain ⟨_ | ⟨a, b⟩, hsegment⟩ := exists_segment? hx hy p q
    · obtain ⟨hp, hq⟩ := not_contains_of_segment? hx hy hsegment
      have hcurrent : current = [] := by
        cases current with
        | nil => rfl
        | cons last older => exact absurd (h.last last rfl).2 hp
      obtain rfl := hcurrent
      obtain rfl := h.nil_iff.mp rfl
      simp only [hsegment, Option.join_some]
      rw [piecesFrom, visibleRuns_append_cons [] hq, visibleRuns_concat (by simp), List.map_append,
        ih (.nil r q)]
      simp [finished, clips, hsegment]
    · obtain ⟨growing, heq, hsegments⟩ := h.exists_growing hx hy hsegment
      have hclips : clips r (run ++ [(p, q)]) ≠ [] := by
        simp [clips_concat_of_eq_some hsegment]
      simp only [hsegment, Option.join_some, piecesFrom, heq]
      by_cases hq : r.Contains q
      · obtain rfl := snd_of_segment? hx hy hsegment hq
        have hgrows : Grows r (run ++ [(p, b)]) (b :: growing) b := by
          refine ⟨by simp, ?_, by simp [hq], hsegments⟩
          rw [List.forall_mem_append]
          exact ⟨h.inside, List.forall_mem_singleton.mpr hq⟩
        rw [if_pos (beq_self_eq_true b), List.nil_append, ih hgrows, List.append_assoc]
        rfl
      · have hne : b ≠ q := fun heq => hq (heq ▸ (contains_of_segment? hsegment).2)
        rw [if_neg (by simpa using hne), List.nil_append, List.map_append, ih (.nil r q),
          map_segments_finished h.inside hsegments hclips,
          visibleRuns_append_cons run hq (segments (q :: rest))]
        rfl

/-- With exact numbers a line is clipped in the end. -/
lemma exists_line? (hx : r.x0 ≤ r.x1) (hy : r.y0 ≤ r.y1) (points : List (Point α)) :
    ∃ pieces, line? r points = some pieces :=
  Option.isSome_iff_exists.mp (isSome_line?_iff.mpr fun s _ => isSome_segment? hx hy s.1 s.2)

/-- The segments of the pieces of a line are the visible parts of its segments, run by run. -/
theorem map_segments_line (hx : r.x0 ≤ r.x1) (hy : r.y0 ≤ r.y1) {points : List (Point α)}
    {pieces : List (List (Point α))} (h : line? r points = some pieces) :
    pieces.map segments = visibleRuns r (segments points) := by
  obtain ⟨parts, hparts, rfl⟩ := Option.map_eq_some_iff.mp h
  have hclipped : (segments points).map (endAndPart r) = parts := by
    have hsome := mapM_eq_some_iff.mp hparts
    refine List.map_injective_iff.mpr (Option.some_injective _) ?_
    rw [← hsome, List.map_map]
    apply List.map_congr_left
    intro s _
    obtain ⟨part, hpart⟩ := exists_segment? hx hy s.1 s.2
    simp [endAndPart, hpart]
  rw [← hclipped]
  cases points with
  | nil => rfl
  | cons p rest => exact map_segments_piecesFrom hx hy (.nil r p) rest

lemma flatMap_segments_line (hx : r.x0 ≤ r.x1) (hy : r.y0 ≤ r.y1) {points : List (Point α)}
    {pieces : List (List (Point α))} (h : line? r points = some pieces) :
    pieces.flatMap segments = clips r (segments points) := by
  rw [List.flatMap_def, map_segments_line hx hy h, visibleRuns, List.flatten_filter_not_isEmpty]
  unfold clips
  rw [← List.filterMap_flatten, List.flatten_splitBy]

/-- The points of the visible part of a segment, if there is one. -/
lemma mem_segment_clip_iff (hx : r.x0 ≤ r.x1) (hy : r.y0 ≤ r.y1) {v : Point α} :
    (∃ s, (segment? r a b).join = some s ∧ v ∈ s.1.segment s.2) ↔
      v ∈ a.segment b ∧ r.Contains v := by
  change _ ↔ v ∈ {v ∈ a.segment b | r.Contains v}
  rw [sep_contains_eq_image]
  obtain ⟨_ | ⟨c, d⟩, hsegment⟩ := exists_segment? hx hy a b
  · rw [hsegment, (segment?_eq_some_none_iff hx hy).mp hsegment]
    simp
  · obtain ⟨s, t, hst, rfl, rfl, hshares⟩ := segment?_eq_some hx hy hsegment
    rw [hsegment, hshares, along_image_Icc a b hst]
    simp

/-- The points of the pieces of a line are the visible points of the line. -/
lemma trace_line (hx : r.x0 ≤ r.x1) (hy : r.y0 ≤ r.y1) {points : List (Point α)}
    {pieces : List (List (Point α))} (h : line? r points = some pieces) :
    {p | ∃ piece ∈ pieces, p ∈ trace piece} = {p ∈ trace points | r.Contains p} := by
  ext v
  have hpieces : (∃ piece ∈ pieces, v ∈ trace piece) ↔
      ∃ s ∈ pieces.flatMap segments, v ∈ s.1.segment s.2 := by
    simp only [trace, List.mem_flatMap, Set.mem_ofPred_eq]
    tauto
  simp only [Set.mem_ofPred_eq, hpieces, flatMap_segments_line hx hy h, clips, List.mem_filterMap]
  constructor
  · rintro ⟨s, ⟨t, ht, hclip⟩, hv⟩
    obtain ⟨hmem, hcontains⟩ := (mem_segment_clip_iff hx hy).mp ⟨s, hclip, hv⟩
    exact ⟨⟨t, ht, hmem⟩, hcontains⟩
  · rintro ⟨⟨t, ht, hmem⟩, hcontains⟩
    obtain ⟨s, hclip, hv⟩ := (mem_segment_clip_iff hx hy).mpr ⟨hmem, hcontains⟩
    exact ⟨s, ⟨t, ht, hclip⟩, hv⟩

lemma segment?_of_contains (hx : r.x0 ≤ r.x1) (hy : r.y0 ≤ r.y1) (hp : r.Contains p)
    (hq : r.Contains q) : segment? r p q = some (some (p, q)) := by
  obtain ⟨_ | ⟨a, b⟩, hsegment⟩ := exists_segment? hx hy p q
  · exact absurd hp (not_contains_of_segment? hx hy hsegment).1
  · obtain rfl := fst_of_segment? hx hy hsegment hp
    obtain rfl := snd_of_segment? hx hy hsegment hq
    exact hsegment

/-- A line inside the rectangle is one piece. -/
lemma line_of_forall_contains (hx : r.x0 ≤ r.x1) (hy : r.y0 ≤ r.y1) {points : List (Point α)}
    {pieces : List (List (Point α))} (h : line? r points = some pieces)
    (hpoints : 2 ≤ points.length) (hinside : ∀ p ∈ points, r.Contains p) : pieces = [points] := by
  have hends : ∀ s ∈ segments points, r.Contains s.1 ∧ r.Contains s.2 := by
    intro s hs
    obtain ⟨hfirst, hsecond⟩ := List.of_mem_zip hs
    exact ⟨hinside _ hfirst, hinside _ (List.mem_of_mem_tail hsecond)⟩
  have hclips : clips r (segments points) = segments points := by
    rw [clips, List.filterMap_congr (g := some) ?_, List.filterMap_some]
    intro s hs
    rw [segment?_of_contains hx hy (hends s hs).1 (hends s hs).2, Option.join_some]
  have hsegments : pieces.map segments = [segments points] := by
    rw [map_segments_line hx hy h]
    rcases List.eq_nil_or_concat (segments points) with hnil | ⟨run, s, hconcat⟩
    · match points, hpoints with
      | p :: q :: rest, _ => cases hnil
    · rw [List.concat_eq_append] at hconcat
      rw [hconcat] at hends hclips ⊢
      rw [visibleRuns_concat fun t ht => (hends t (by simp [ht])).2, hclips]
      simp
  obtain ⟨piece, rfl, hpiece⟩ := List.map_eq_singleton_iff.mp hsegments
  rw [eq_of_segments_eq (two_le_length_of_line? h piece (List.mem_singleton_self piece))
    hpoints hpiece]

/-- Clipping a polyline is exact. It ends, and every piece has two points at least and lies in the
rectangle. The segments of the pieces, in order, are the visible parts of the segments of the
polyline, and those of two consecutive segments belong to one piece if and only if the segments meet
inside. So the pieces have what is visible of the polyline, and a polyline inside the rectangle is
left as it is. -/
theorem line_exact (hx : r.x0 ≤ r.x1) (hy : r.y0 ≤ r.y1) (points : List (Point α)) :
    ∃ pieces, line? r points = some pieces ∧
    (∀ piece ∈ pieces, 2 ≤ piece.length ∧ ∀ p ∈ piece, r.Contains p) ∧
    pieces.map segments = visibleRuns r (segments points) ∧
    {p | ∃ piece ∈ pieces, p ∈ trace piece} = {p ∈ trace points | r.Contains p} ∧
    (2 ≤ points.length → (∀ p ∈ points, r.Contains p) → pieces = [points]) := by
  obtain ⟨pieces, h⟩ := exists_line? hx hy points
  exact ⟨pieces, h,
    fun piece hpiece => ⟨two_le_length_of_line? h piece hpiece, contains_of_line? h piece hpiece⟩,
    map_segments_line hx hy h, trace_line hx hy h, line_of_forall_contains hx hy h⟩

end Pieces

/-- A line that runs to the upper side of the square, leaves it there, comes back, leaves by the
right side and touches the upper right corner. -/
def zigzag : List (Point ℚ) := [⟨2, 2⟩, ⟨2, 10⟩, ⟨2, 20⟩, ⟨8, 20⟩, ⟨8, 2⟩, ⟨15, 5⟩, ⟨5, 15⟩]

/-- What is visible of it: the way up, the way down and the corner. -/
def zigzagPieces : List (List (Point ℚ)) :=
  [[⟨2, 2⟩, ⟨2, 10⟩, ⟨2, 10⟩], [⟨8, 10⟩, ⟨8, 2⟩, ⟨10, 20 / 7⟩], [⟨10, 10⟩, ⟨10, 10⟩]]

theorem line_exact_zigzag :
    line? square zigzag = some zigzagPieces ∧
    {p | ∃ piece ∈ zigzagPieces, p ∈ trace piece} = {p ∈ trace zigzag | square.Contains p} := by
  have hline : line? square zigzag = some zigzagPieces :=
    line?_of_lineWithin? 4 (by decide +kernel)
  obtain ⟨pieces, h, -, -, htrace, -⟩ := line_exact (r := square) (by decide) (by decide) zigzag
  obtain rfl := Option.some.inj (h.symm.trans hline)
  exact ⟨hline, htrace⟩

end Clip

end MapStyle
