import MapStyle.Proofs.VisibleSegments
import Mathlib.Data.List.Destutter

/-!
# What a clipped ring is

Clipping a ring with exact numbers. A ring without repeated neighbours, the last point and the first
being neighbours too, is found again after it has been closed. A cut leaves alone what lies on the
inner side of its edge, so a ring inside the rectangle is only freed of repeated neighbours and
closed, and a clipped ring, which is such a ring, stays.
-/

namespace MapStyle

universe u

variable {α : Type u}

namespace Clip

/-! ### The ends of a ring -/

/-- Whether no neighbours of a ring are equal. -/
structure IsReduced (points : List (Point α)) : Prop where
  isChain : points.IsChain (· ≠ ·)
  apart : 1 < points.length → points.getLast? ≠ points.head?

/-- A ring of two points or more has two ends. -/
lemma exists_ends {points : List (Point α)} (h : 1 < points.length) :
    ∃ first inner last, points = first :: inner ++ [last] := by
  match points with
  | first :: second :: rest =>
    obtain ⟨inner, last, hrest⟩ :=
      (List.eq_nil_or_concat' (second :: rest)).resolve_left (List.cons_ne_nil _ _)
    exact ⟨first, inner, last, by rw [hrest, List.cons_append]⟩

lemma getLast?_eq_head?_iff (first last : Point α) (inner : List (Point α)) :
    (first :: inner ++ [last]).getLast? = (first :: inner ++ [last]).head? ↔ first = last := by
  rw [List.getLast?_concat, List.cons_append, List.head?_cons, Option.some_inj, eq_comm]

lemma closedRing_eq (points : List (Point α)) :
    closedRing points = if points.length < 3 then [] else points ++ points.head?.toList := by
  match points with
  | [] => rfl
  | [_] => rfl
  | [_, _] => rfl
  | first :: second :: third :: rest => simp [closedRing]

/-- A closed ring that has points, with its ends. -/
lemma closedRing_cases (points : List (Point α)) :
    closedRing points = [] ∨ ∃ first inner last, points = first :: inner ++ [last] ∧
      inner ≠ [] ∧ closedRing points = first :: inner ++ [last] ++ [first] := by
  rw [closedRing_eq]
  split_ifs with hshort
  · exact .inl rfl
  · have hlong : 1 < points.length := by omega
    obtain ⟨first, inner, last, rfl⟩ := exists_ends hlong
    refine .inr ⟨first, inner, last, rfl, ?_, rfl⟩
    rintro rfl
    simp at hshort

/-- Closing a reduced ring makes no neighbours equal. -/
lemma IsReduced.isChain_concat {first last : Point α} {inner : List (Point α)}
    (h : IsReduced (first :: inner ++ [last])) :
    (first :: inner ++ [last] ++ [first]).IsChain (· ≠ ·) := by
  have hapart := (getLast?_eq_head?_iff first last inner).not.mp (h.apart (by simp))
  refine h.isChain.append (List.isChain_singleton first) ?_
  rw [List.getLast?_concat]
  rintro _ ⟨⟩ _ ⟨⟩
  exact Ne.symm hapart

/-! ### Cuts -/

section Cuts

variable {e : Edge α} {a : Point α} {points : List (Point α)}

lemma cutFrom_of_forall_contains (ha : e.contains a = true)
    (h : ∀ p ∈ points, e.contains p = true) : e.cutFrom a points = points := by
  induction points generalizing a with
  | nil => rfl
  | cons b points ih =>
    obtain ⟨hb, hpoints⟩ := List.forall_mem_cons.mp h
    rw [Edge.cutFrom, ih hb hpoints, Edge.step, ha, hb]
    rfl

/-- A cut leaves alone what lies on the inner side of its edge. -/
lemma cut_of_forall_contains (h : ∀ p ∈ points, e.contains p = true) : e.cut points = points := by
  unfold Edge.cut
  split
  · next last hlast => exact cutFrom_of_forall_contains (h last (List.mem_of_getLast? hlast)) h
  · next hnone => exact (List.getLast?_eq_none_iff.mp hnone).symm

lemma foldl_cut_of_forall_contains {es : List (Edge α)}
    (h : ∀ e ∈ es, ∀ p ∈ points, e.contains p = true) :
    es.foldl (fun points e => e.cut points) points = points := by
  induction es with
  | nil => rfl
  | cons e es ih =>
    obtain ⟨he, hes⟩ := List.forall_mem_cons.mp h
    rw [List.foldl_cons, cut_of_forall_contains he, ih hes]

/-- A step meets an edge only if it leads from one side of it to the other. -/
lemma step_congr {inside : Point α → Bool} {crossing crossing' : Point α → Point α → Point α}
    (h : ∀ a b, inside a ≠ inside b → crossing a b = crossing' a b) :
    Edge.step ⟨inside, crossing⟩ = Edge.step ⟨inside, crossing'⟩ := by
  funext a b
  cases ha : inside a <;> cases hb : inside b <;> simp [Edge.step, ha, hb, h a b]

lemma cut_congr {e e' : Edge α} (h : e.step = e'.step) : e.cut = e'.cut := by
  have hfrom (a : Point α) (points : List (Point α)) :
      e.cutFrom a points = e'.cutFrom a points := by
    induction points generalizing a with
    | nil => rfl
    | cons b points ih => rw [Edge.cutFrom, Edge.cutFrom, h, ih]
  funext points
  unfold Edge.cut
  split
  · exact hfrom _ points
  · rfl

lemma foldl_cut_congr {es es' : List (Edge α)}
    (h : List.Forall₂ (fun e e' => e.step = e'.step) es es') (points : List (Point α)) :
    es.foldl (fun points e => e.cut points) points =
      es'.foldl (fun points e => e.cut points) points := by
  induction h generalizing points with
  | nil => rfl
  | cons he _ ih => rw [List.foldl_cons, List.foldl_cons, cut_congr he, ih]

end Cuts

/-! ### Repeated neighbours -/

variable [LinearOrder α]

/-- A ring without repeated neighbours. The last point and the first are neighbours too. -/
def reduced (points : List (Point α)) : List (Point α) :=
  withoutClosing (withoutRepeats points)

/-- A ring that ends where it begins: its first point is repeated at the end, unless it is there. -/
def closed (points : List (Point α)) : List (Point α) :=
  if points.getLast? = points.head? then points else points ++ points.head?.toList

lemma withoutClosing_of_length_le {points : List (Point α)} (h : points.length ≤ 1) :
    withoutClosing points = points := by
  match points with
  | [] => rfl
  | [_] => rfl

lemma withoutClosing_cons_concat (first last : Point α) (inner : List (Point α)) :
    withoutClosing (first :: inner ++ [last]) =
      if first = last then first :: inner else first :: inner ++ [last] := by
  cases inner with
  | nil => simp [withoutClosing]
  | cons second inner =>
    have hdrop : (first :: second :: inner ++ [last]).dropLast = first :: second :: inner :=
      List.dropLast_concat
    rw [List.cons_append, List.cons_append] at hdrop ⊢
    simp [withoutClosing, hdrop]

lemma IsReduced.withoutClosing_eq {points : List (Point α)} (h : IsReduced points) :
    withoutClosing points = points := by
  rcases le_or_gt points.length 1 with hshort | hlong
  · exact withoutClosing_of_length_le hshort
  · have hapart := h.apart hlong
    obtain ⟨first, inner, last, rfl⟩ := exists_ends hlong
    rw [Ne, getLast?_eq_head?_iff] at hapart
    rw [withoutClosing_cons_concat, if_neg hapart]

lemma isReduced_withoutClosing {points : List (Point α)} (h : points.IsChain (· ≠ ·)) :
    IsReduced (withoutClosing points) := by
  rcases le_or_gt points.length 1 with hshort | hlong
  · rw [withoutClosing_of_length_le hshort]
    exact ⟨h, fun hlong => absurd hlong hshort.not_gt⟩
  · obtain ⟨first, inner, last, rfl⟩ := exists_ends hlong
    rw [withoutClosing_cons_concat]
    split_ifs with hclosed
    · subst hclosed
      refine ⟨h.left_of_append, fun _ hends => ?_⟩
      -- the point before the last one is apart from it, and so from the first
      exact (List.isChain_append.mp h).2.2 first hends first rfl rfl
    · exact ⟨h, fun _ => (getLast?_eq_head?_iff first last inner).not.mpr hclosed⟩

lemma cons_dropRepeats (kept : Point α) (points : List (Point α)) :
    kept :: dropRepeats kept points = points.destutter' (· ≠ ·) kept := by
  induction points generalizing kept with
  | nil => rfl
  | cons p points ih =>
    rw [dropRepeats, List.destutter']
    by_cases heq : p = kept
    · simp [heq, ih]
    · simp [heq, Ne.symm heq, ih]

lemma withoutRepeats_eq_destutter (points : List (Point α)) :
    withoutRepeats points = points.destutter (· ≠ ·) := by
  cases points with
  | nil => rfl
  | cons p points => exact cons_dropRepeats p points

lemma isReduced_reduced (points : List (Point α)) : IsReduced (reduced points) := by
  rw [reduced, withoutRepeats_eq_destutter]
  exact isReduced_withoutClosing (points.isChain_destutter _)

lemma dropRepeats_concat (kept p : Point α) (points : List (Point α)) :
    dropRepeats kept (points ++ [p]) = dropRepeats kept points ∨
      dropRepeats kept (points ++ [p]) = dropRepeats kept points ++ [p] := by
  induction points generalizing kept with
  | nil => by_cases heq : p = kept <;> simp [dropRepeats, heq]
  | cons q points ih =>
    rw [List.cons_append, dropRepeats, dropRepeats]
    split_ifs
    · exact ih kept
    · simpa using ih q

/-- Repeating the first point of a ring at its end does not change what it is reduced to. -/
lemma reduced_withoutClosing (points : List (Point α)) :
    reduced (withoutClosing points) = reduced points := by
  rcases le_or_gt points.length 1 with hshort | hlong
  · rw [withoutClosing_of_length_le hshort]
  · obtain ⟨first, inner, last, rfl⟩ := exists_ends hlong
    rw [withoutClosing_cons_concat]
    split_ifs with hclosed
    · subst hclosed
      rcases dropRepeats_concat first first inner with hsame | hmore
      · rw [List.cons_append, reduced, reduced, withoutRepeats, withoutRepeats, hsame]
      · have hreduced : reduced (first :: inner ++ [first]) = first :: dropRepeats first inner := by
          rw [reduced, List.cons_append, withoutRepeats, hmore, ← List.cons_append,
            withoutClosing_cons_concat, if_pos rfl]
        rw [hreduced, reduced, withoutRepeats]
        exact (hreduced ▸ isReduced_reduced _).withoutClosing_eq
    · rfl

/-! ### Closing -/

/-- A reduced ring is found again after it has been closed. -/
lemma IsReduced.closedRing_reduced {points : List (Point α)} (h : IsReduced points) :
    closedRing (reduced (closedRing points)) = closedRing points := by
  rcases closedRing_cases points with hnil | ⟨first, inner, last, rfl, -, hclosed⟩
  · rw [hnil]
    rfl
  · have hreduced : reduced (closedRing (first :: inner ++ [last])) = first :: inner ++ [last] := by
      rw [hclosed, reduced, withoutRepeats_eq_destutter,
        List.destutter_of_isChain _ _ h.isChain_concat, List.cons_append,
        withoutClosing_cons_concat, if_pos rfl]
    rw [hreduced]

lemma closed_of_length_le {points : List (Point α)} (h : points.length ≤ 1) :
    closed points = points := by
  match points with
  | [] => rfl
  | [_] => exact if_pos rfl

lemma closed_cons_concat (first last : Point α) (inner : List (Point α)) :
    closed (first :: inner ++ [last]) =
      if first = last then first :: inner ++ [last] else first :: inner ++ [last] ++ [first] := by
  unfold closed
  simp only [getLast?_eq_head?_iff]
  rfl

/-- To open a ring and close it is to close it. -/
lemma closedRing_withoutClosing (points : List (Point α)) :
    closedRing (withoutClosing points) =
      if (closed points).length < 4 then [] else closed points := by
  rcases le_or_gt points.length 1 with hshort | hlong
  · rw [withoutClosing_of_length_le hshort, closed_of_length_le hshort, closedRing_eq,
      if_pos (by omega), if_pos (by omega)]
  · obtain ⟨first, inner, last, rfl⟩ := exists_ends hlong
    have hlength (points : List (Point α)) (p : Point α) :
        points.length < 3 ↔ (points ++ [p]).length < 4 := by
      rw [List.length_append, List.length_singleton]
      omega
    rw [withoutClosing_cons_concat, closed_cons_concat, closedRing_eq]
    by_cases hends : first = last
    · subst hends
      simp only [if_true, hlength _ first]
      rfl
    · simp only [hends, if_false, hlength _ first]
      rfl

/-! ### Rings inside the rectangle -/

variable [Field α]

/-- A ring inside the rectangle is only reduced and closed. -/
lemma ring_of_forall_contains {r : Rect α} {points : List (Point α)}
    (h : ∀ p ∈ points, r.Contains p) : ring r points = closedRing (reduced points) := by
  have hinside : ∀ e ∈ edges r, ∀ p ∈ withoutClosing points, e.contains p = true :=
    fun e he p hp =>
      contains_iff_forall_edges.mp (h p ((withoutClosing_sublist points).subset hp)) e he
  rw [← reduced_withoutClosing points]
  unfold ring reduced
  simp only [foldl_cut_of_forall_contains hinside]

lemma exists_ring_eq (r : Rect α) (points : List (Point α)) :
    ∃ kept, IsReduced kept ∧ ring r points = closedRing kept :=
  ⟨_, isReduced_reduced _, rfl⟩

/-! ### No division by zero -/

section Division

variable {div : α → α → α}

/-- No step of a ring depends on what division by zero gives. -/
lemma step_edges_congr_div (hdiv : ∀ x y, y ≠ 0 → div x y = x / y) (r : Rect α) :
    List.Forall₂ (fun e e' => e.step = e'.step) (@edges α _ _ _ ⟨div⟩ _ _ r) (edges r) := by
  have hx (inside : α → Bool) {a b : Point α} (hne : inside a.x ≠ inside b.x) (x : α) :
      @crossingX α _ _ _ ⟨div⟩ a b x = crossingX a b x :=
    crossingX_congr_div hdiv (fun heq => hne (congrArg inside heq)) x
  have hy (inside : α → Bool) {a b : Point α} (hne : inside a.y ≠ inside b.y) (y : α) :
      @crossingY α _ _ _ ⟨div⟩ a b y = crossingY a b y :=
    crossingY_congr_div hdiv (fun heq => hne (congrArg inside heq)) y
  refine .cons ?_ (.cons ?_ (.cons ?_ (.cons ?_ .nil)))
  · exact step_congr fun a b hne => hx (fun x => r.x0 ≤ x) hne r.x0
  · exact step_congr fun a b hne => hx (fun x => x ≤ r.x1) hne r.x1
  · exact step_congr fun a b hne => hy (fun y => r.y0 ≤ y) hne r.y0
  · exact step_congr fun a b hne => hy (fun y => y ≤ r.y1) hne r.y1

lemma ring_congr_div (hdiv : ∀ x y, y ≠ 0 → div x y = x / y) (r : Rect α)
    (points : List (Point α)) : @ring α _ _ _ ⟨div⟩ _ _ _ r points = ring r points := by
  unfold ring
  simp only [foldl_cut_congr (step_edges_congr_div hdiv r)]

end Division

/-! ### The result -/

/-- Whether points are a ring in a rectangle: at least four of them, the last one equal to the
first, and no neighbours equal. -/
structure IsRing (r : Rect α) (points : List (Point α)) : Prop where
  four_le_length : 4 ≤ points.length
  contains : ∀ p ∈ points, r.Contains p
  closed : points.getLast? = points.head?
  isChain : points.IsChain (· ≠ ·)

variable [IsStrictOrderedRing α]

lemma isRing_ring (r : Rect α) (points : List (Point α)) :
    ring r points = [] ∨ IsRing r (ring r points) := by
  have hcontains : ∀ p ∈ ring r points, r.Contains p := fun p => contains_of_mem_ring
  obtain ⟨kept, hkept, hring⟩ := exists_ring_eq r points
  rw [hring] at hcontains ⊢
  rcases closedRing_cases kept with hnil | ⟨first, inner, last, rfl, hinner, hclosed⟩
  · exact .inl hnil
  · rw [hclosed] at hcontains ⊢
    refine .inr ⟨?_, hcontains, List.getLast?_concat, hkept.isChain_concat⟩
    have hpos := List.length_pos_iff.mpr hinner
    simp only [List.length_append, List.length_cons, List.length_nil]
    omega

lemma ring_ring (r : Rect α) (points : List (Point α)) :
    ring r (ring r points) = ring r points := by
  rw [ring_of_forall_contains fun p => contains_of_mem_ring]
  obtain ⟨kept, hkept, hring⟩ := exists_ring_eq r points
  rw [hring, hkept.closedRing_reduced]

/-- Clipping gives a ring in the rectangle or no points, and clipping again changes nothing. No step
of it divides by zero, which is to say that none depends on what division by zero gives. A ring
inside the rectangle is freed of repeated neighbours and closed, and left out if fewer than three
points remain, the one that closes it not counted. -/
theorem ring_wellFormed (r : Rect α) (points : List (Point α)) :
    (∀ div : α → α → α, (∀ x y, y ≠ 0 → div x y = x / y) →
      List.Forall₂ (fun e e' => e.step = e'.step) (@edges α _ _ _ ⟨div⟩ _ _ r) (edges r) ∧
      @ring α _ _ _ ⟨div⟩ _ _ _ r points = ring r points) ∧
    (ring r points = [] ∨ IsRing r (ring r points)) ∧
    ring r (ring r points) = ring r points ∧
    ((∀ p ∈ points, r.Contains p) → ring r points =
      let kept := closed (points.destutter (· ≠ ·))
      if kept.length < 4 then [] else kept) := by
  refine ⟨fun div hdiv => ⟨step_edges_congr_div hdiv r, ring_congr_div hdiv r points⟩,
    isRing_ring r points, ring_ring r points, fun hinside => ?_⟩
  rw [ring_of_forall_contains hinside, reduced, closedRing_withoutClosing,
    withoutRepeats_eq_destutter]

/-- A ring around a corner of the square. -/
def aroundCorner : List (Point ℚ) := [⟨5, 5⟩, ⟨15, 5⟩, ⟨15, 15⟩, ⟨5, 15⟩]

/-- A ring inside the square that repeats points. -/
def repeating : List (Point ℚ) := [⟨1, 1⟩, ⟨1, 1⟩, ⟨9, 1⟩, ⟨1, 9⟩, ⟨1, 9⟩, ⟨1, 1⟩, ⟨1, 1⟩]

theorem ring_wellFormed_aroundCorner :
    ring square aroundCorner = [⟨5, 10⟩, ⟨5, 5⟩, ⟨10, 5⟩, ⟨10, 10⟩, ⟨5, 10⟩] ∧
    IsRing square (ring square aroundCorner) ∧
    (∀ p ∈ repeating, square.Contains p) ∧
    ring square repeating = [⟨1, 1⟩, ⟨9, 1⟩, ⟨1, 9⟩, ⟨1, 1⟩] := by
  have hcorner : ring square aroundCorner = [⟨5, 10⟩, ⟨5, 5⟩, ⟨10, 5⟩, ⟨10, 10⟩, ⟨5, 10⟩] := by
    decide +kernel
  have hcontains : ∀ p ∈ repeating, square.Contains p := by
    simp only [contains_iff_forall_edges]
    decide +kernel
  obtain ⟨-, hring, -, -⟩ := ring_wellFormed square aroundCorner
  obtain ⟨-, -, -, hinside⟩ := ring_wellFormed square repeating
  refine ⟨hcorner, hring.resolve_left (by simp [hcorner]), hcontains, ?_⟩
  rw [hinside hcontains]
  decide +kernel

end Clip

end MapStyle
