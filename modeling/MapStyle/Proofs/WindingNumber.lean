import MapStyle.Proofs.VisiblePieces
import Mathlib.Analysis.SpecialFunctions.Complex.Arg
import Mathlib.Analysis.SpecialFunctions.Trigonometric.Angle

/-!
# Clipping keeps winding numbers

Clipping a ring with exact numbers. The winding number of a ring around a point adds up the angles
by which the direction from the point turns along the edges. Where all ends lie ahead of the point
in one direction, an edge turns by the difference of the bearings of its ends. That holds of what a
cut takes away, and of what it puts there along the side of the rectangle, so both turn alike.
-/

namespace MapStyle

open Complex ComplexConjugate

/-! ### Turning -/

namespace Point

/-- A point as a complex number. -/
def toComplex (p : Point ℚ) : ℂ :=
  ⟨p.x, p.y⟩

/-- The angle by which the direction from `q` turns on the straight way from `a` to `b`: to the left
it is positive, and half a turn at most. -/
noncomputable def turn (q a b : Point ℚ) : ℝ :=
  arg ((b.toComplex - q.toComplex) / (a.toComplex - q.toComplex))

/-- Whether a point lies ahead of `q` in a direction, on the inner side of the line across. -/
def Ahead (n q p : Point ℚ) : Prop :=
  0 < n.x * (p.x - q.x) + n.y * (p.y - q.y)

/-- The angle from a direction to the direction from `q` to a point. -/
noncomputable def bearing (n q p : Point ℚ) : ℝ :=
  arg ((p.toComplex - q.toComplex) * conj n.toComplex)

lemma isConvex_ahead (n q : Point ℚ) : IsConvex (Ahead n q) := by
  intro a b t ht ha hb
  have hmem := (convex_Ioi (0 : ℚ)).add_smul_sub_mem ha hb ht
  refine lt_of_lt_of_eq hmem ?_
  simp only [along, smul_eq_mul]
  ring

lemma not_ahead_self (n q : Point ℚ) : ¬ Ahead n q q := by
  simp [Ahead]

variable {n q a b p : Point ℚ}

lemma re_pos_of_ahead (h : Ahead n q p) :
    0 < ((p.toComplex - q.toComplex) * conj n.toComplex).re := by
  have hcast : (0 : ℝ) < ((n.x * (p.x - q.x) + n.y * (p.y - q.y) : ℚ) : ℝ) := Rat.cast_pos.mpr h
  push_cast at hcast
  simp only [toComplex, mul_re, sub_re, sub_im, conj_re, conj_im]
  linarith

/-- Between points ahead the direction turns by the difference of their bearings. -/
lemma turn_eq_of_ahead (ha : Ahead n q a) (hb : Ahead n q b) :
    turn q a b = bearing n q b - bearing n q a := by
  have hane := ne_zero_of_re_pos (re_pos_of_ahead ha)
  have hbne := ne_zero_of_re_pos (re_pos_of_ahead hb)
  -- both bearings are less than a quarter turn, so their difference is less than half a turn
  obtain ⟨haleft, haright⟩ := abs_lt.mp (abs_arg_lt_pi_div_two_iff.mpr (.inl (re_pos_of_ahead ha)))
  obtain ⟨hbleft, hbright⟩ := abs_lt.mp (abs_arg_lt_pi_div_two_iff.mpr (.inl (re_pos_of_ahead hb)))
  have hangle := arg_div_coe_angle hbne hane
  rw [← Real.Angle.coe_sub, arg_coe_angle_eq_iff_eq_toReal,
    Real.Angle.toReal_coe_eq_self_iff_mem_Ioc.mpr ⟨by linarith, by linarith⟩] at hangle
  rw [turn, ← mul_div_mul_right _ _ (right_ne_zero_of_mul hane)]
  exact hangle

/-- Whether both points lie ahead of `q` in one direction. -/
def Sees (q a b : Point ℚ) : Prop :=
  ∃ n, Ahead n q a ∧ Ahead n q b

/-- A point lies ahead in its own direction. -/
lemma ahead_of_ne (h : a ≠ q) : Ahead ⟨a.x - q.x, a.y - q.y⟩ q a :=
  square_pos h

/-- A point on the line through two others lies between them if the second is not ahead in the
direction of the first. -/
lemma mem_segment_of_not_ahead (hline : (a.x - q.x) * (b.y - q.y) = (a.y - q.y) * (b.x - q.x))
    (hb : ¬ Ahead ⟨a.x - q.x, a.y - q.y⟩ q b) : q ∈ a.segment b := by
  by_cases ha : a = q
  · exact ⟨0, ⟨le_rfl, zero_le_one⟩, by rw [along_zero, ha]⟩
  let square := (a.x - q.x) * (a.x - q.x) + (a.y - q.y) * (a.y - q.y)
  let dot := (a.x - q.x) * (b.x - q.x) + (a.y - q.y) * (b.y - q.y)
  have hsquare : 0 < square := ahead_of_ne ha
  have hdot : dot ≤ 0 := not_lt.mp hb
  have hpos : 0 < square - dot := by linarith
  refine ⟨square / (square - dot), ⟨div_nonneg hsquare.le hpos.le, ?_⟩, ?_⟩
  · rw [div_le_one hpos]
    linarith
  · have hx : square * (b.x - a.x) = (q.x - a.x) * (square - dot) := by
      simp only [square, dot]
      linear_combination -(a.y - q.y) * hline
    have hy : square * (b.y - a.y) = (q.y - a.y) * (square - dot) := by
      simp only [square, dot]
      linear_combination (a.x - q.x) * hline
    obtain ⟨qx, qy⟩ := q
    simp only [along, Point.mk.injEq]
    constructor
    · rw [div_mul_eq_mul_div, hx, mul_div_cancel_right₀ _ hpos.ne']
      ring
    · rw [div_mul_eq_mul_div, hy, mul_div_cancel_right₀ _ hpos.ne']
      ring

/-- A point that does not lie on a segment sees its ends on one side. -/
lemma sees_of_notMem_segment (h : q ∉ a.segment b) : Sees q a b := by
  have ha : a ≠ q := by
    rintro rfl
    exact h ⟨0, ⟨le_rfl, zero_le_one⟩, along_zero a b⟩
  rcases lt_trichotomy ((a.x - q.x) * (b.y - q.y)) ((a.y - q.y) * (b.x - q.x)) with
    hright | hline | hleft
  · refine ⟨⟨a.y - b.y, b.x - a.x⟩, ?_, ?_⟩
    · simp only [Ahead]
      linarith
    · simp only [Ahead]
      linarith
  · refine ⟨⟨a.x - q.x, a.y - q.y⟩, ahead_of_ne ha, ?_⟩
    by_contra hb
    exact h (mem_segment_of_not_ahead hline hb)
  · refine ⟨⟨b.y - a.y, a.x - b.x⟩, ?_, ?_⟩
    · simp only [Ahead]
      linarith
    · simp only [Ahead]
      linarith

lemma notMem_segment_of_sees (h : Sees q a b) : q ∉ a.segment b := by
  obtain ⟨n, ha, hb⟩ := h
  rintro ⟨t, ht, hq⟩
  have hahead := isConvex_ahead n q a b t ht ha hb
  rw [hq] at hahead
  exact not_ahead_self n q hahead

lemma turn_self (q a : Point ℚ) : turn q a a = 0 := by
  rw [turn]
  by_cases h : a.toComplex - q.toComplex = 0
  · simp [h]
  · rw [div_self h, arg_one]

lemma turn_add_turn (h : Sees q a b) {t : ℚ} (ht : t ∈ Set.Icc 0 1) :
    turn q a (a.along b t) + turn q (a.along b t) b = turn q a b := by
  obtain ⟨n, ha, hb⟩ := h
  have hx := isConvex_ahead n q a b t ht ha hb
  rw [turn_eq_of_ahead ha hx, turn_eq_of_ahead hx hb, turn_eq_of_ahead ha hb]
  ring

lemma turn_add_turn_back (h : Sees q a b) : turn q a b + turn q b a = 0 := by
  obtain ⟨n, ha, hb⟩ := h
  rw [turn_eq_of_ahead ha hb, turn_eq_of_ahead hb ha]
  ring

/-- Where the direction to `b` stands at a right angle to the left of the one to `a`, it has turned
by a quarter. -/
lemma turn_of_right_angle {k : ℚ} (hk : 0 < k) (ha : a ≠ q) (hx : b.x - q.x = -k * (a.y - q.y))
    (hy : b.y - q.y = k * (a.x - q.x)) : turn q a b = Real.pi / 2 := by
  have hne := left_ne_zero_of_mul (ne_zero_of_re_pos (re_pos_of_ahead (ahead_of_ne ha)))
  have hx : (b.x : ℝ) - q.x = -k * (a.y - q.y) := by exact_mod_cast hx
  have hy : (b.y : ℝ) - q.y = k * (a.x - q.x) := by exact_mod_cast hy
  have hquotient : (b.toComplex - q.toComplex) / (a.toComplex - q.toComplex) = (k : ℝ) * I := by
    rw [div_eq_iff hne]
    refine Complex.ext ?_ ?_
    · simp [toComplex, hx]
    · simp [toComplex, hy]
  rw [turn, hquotient, arg_real_mul _ (Rat.cast_pos.mpr hk), arg_I]

lemma Sees.along_left (h : Sees q a b) {t : ℚ} (ht : t ∈ Set.Icc 0 1) : Sees q a (a.along b t) := by
  obtain ⟨n, ha, hb⟩ := h
  exact ⟨n, ha, isConvex_ahead n q a b t ht ha hb⟩

lemma Sees.along_right (h : Sees q a b) {t : ℚ} (ht : t ∈ Set.Icc 0 1) :
    Sees q (a.along b t) b := by
  obtain ⟨n, ha, hb⟩ := h
  exact ⟨n, isConvex_ahead n q a b t ht ha hb, hb⟩

end Point

open Point

/-! ### Rings -/

/-- The edges of a ring, which is closed implicitly: first the one from its last point to its first.
-/
def ringEdges {α : Type*} (ring : List (Point α)) : List (Point α × Point α) :=
  segments (ring.getLast?.toList ++ ring)

/-- The angle by which the direction from a point turns along edges. -/
noncomputable def turnAlong (q : Point ℚ) (ss : List (Point ℚ × Point ℚ)) : ℝ :=
  (ss.map fun s => q.turn s.1 s.2).sum

/-- The winding number of a ring around a point: in full turns, the angle by which the direction
from the point turns along the ring. -/
noncomputable def windingNumber (q : Point ℚ) (ring : List (Point ℚ)) : ℝ :=
  turnAlong q (ringEdges ring) / (2 * Real.pi)

/-- Whether a ring turns by an angle around a point that lies on none of its edges. -/
def TurnsBy (q : Point ℚ) (angle : ℝ) (ring : List (Point ℚ)) : Prop :=
  (∀ s ∈ ringEdges ring, Sees q s.1 s.2) ∧ turnAlong q (ringEdges ring) = angle

lemma segments_cons_append {α : Type*} (a : Point α) (points more : List (Point α)) :
    segments (a :: (points ++ more)) =
      segments (a :: points) ++ segments (points.getLastD a :: more) := by
  induction points generalizing a with
  | nil => rfl
  | cons b points ih =>
    rw [List.cons_append, segments_cons_cons, segments_cons_cons, ih, List.getLastD_cons]
    rfl

lemma getLastD_append {α : Type*} (a : α) (l more : List α) :
    (l ++ more).getLastD a = more.getLastD (l.getLastD a) := by
  induction l generalizing a with
  | nil => rfl
  | cons b l ih => rw [List.cons_append, List.getLastD_cons, List.getLastD_cons, ih]

lemma getLastD_getLastD {α : Type*} (l : List α) (a : α) :
    l.getLastD (l.getLastD a) = l.getLastD a := by
  cases l with
  | nil => rfl
  | cons b l => rw [List.getLastD_cons, List.getLastD_cons]

lemma ringEdges_eq {α : Type*} (ring : List (Point α)) (a : Point α) :
    ringEdges ring = segments (ring.getLastD a :: ring) := by
  cases ring with
  | nil => rfl
  | cons p ring =>
    rw [ringEdges, List.getLast?_cons, List.getLastD_cons, List.getLastD_eq_getLast?]
    rfl

section Turns

variable {q : Point ℚ}

@[simp] lemma turnAlong_nil (q : Point ℚ) : turnAlong q [] = 0 := rfl

@[simp] lemma turnAlong_cons (q a b : Point ℚ) (ss : List (Point ℚ × Point ℚ)) :
    turnAlong q ((a, b) :: ss) = q.turn a b + turnAlong q ss := rfl

@[simp] lemma turnAlong_append (q : Point ℚ) (ss more : List (Point ℚ × Point ℚ)) :
    turnAlong q (ss ++ more) = turnAlong q ss + turnAlong q more := by
  simp [turnAlong]

/-- A first point that is repeated at the end changes neither edges nor turns. -/
lemma turnsBy_concat_iff {angle : ℝ} (p : Point ℚ) (ring : List (Point ℚ)) :
    TurnsBy q angle (p :: (ring ++ [p])) ↔ TurnsBy q angle (p :: ring) := by
  have hclosed : ringEdges (p :: (ring ++ [p])) =
      (p, p) :: segments (p :: ring) ++ [(ring.getLastD p, p)] := by
    rw [ringEdges_eq _ p, List.getLastD_cons, List.getLastD_concat, segments_cons_cons,
      segments_cons_append]
    rfl
  have hopen : ringEdges (p :: ring) = (ring.getLastD p, p) :: segments (p :: ring) := by
    rw [ringEdges_eq _ p, List.getLastD_cons, segments_cons_cons]
  have hturn : turnAlong q (ringEdges (p :: (ring ++ [p]))) =
      turnAlong q (ringEdges (p :: ring)) := by
    rw [hclosed, hopen, List.cons_append, turnAlong_cons, turnAlong_append, turn_self]
    simp only [turnAlong_cons, turnAlong_nil]
    ring
  have hsees : (∀ s ∈ ringEdges (p :: (ring ++ [p])), Sees q s.1 s.2) ↔
      ∀ s ∈ ringEdges (p :: ring), Sees q s.1 s.2 := by
    rw [hclosed, hopen]
    simp only [List.cons_append, List.forall_mem_cons, List.forall_mem_append, List.not_mem_nil,
      false_imp_iff, implies_true, and_true]
    constructor
    · rintro ⟨-, hsegments, hlast⟩
      exact ⟨hlast, hsegments⟩
    · rintro ⟨⟨n, hlast, hp⟩, hsegments⟩
      exact ⟨⟨n, hp, hp⟩, hsegments, n, hlast, hp⟩
  rw [TurnsBy, TurnsBy, hsees, hturn]

end Turns

namespace Clip

variable {q n : Point ℚ} {angle : ℝ}

/-! ### Closing and repeated points -/

lemma turnsBy_withoutClosing {ring : List (Point ℚ)} (h : TurnsBy q angle ring) :
    TurnsBy q angle (withoutClosing ring) := by
  unfold withoutClosing
  split
  · next first second rest =>
    split
    · next hclosed =>
      have hlast := eq_of_beq hclosed
      have hring : first :: second :: rest = first :: ((second :: rest).dropLast ++ [first]) := by
        nth_rewrite 3 [hlast]
        rw [List.dropLast_append_getLast]
      rw [hring, turnsBy_concat_iff] at h
      exact h
    · exact h
  · exact h

section Repeats

variable {kept : Point ℚ} {points : List (Point ℚ)}

lemma getLastD_dropRepeats (kept : Point ℚ) (points : List (Point ℚ)) :
    (dropRepeats kept points).getLastD kept = points.getLastD kept := by
  induction points generalizing kept with
  | nil => rfl
  | cons p points ih =>
    rw [dropRepeats, List.getLastD_cons]
    split
    · next heq => rw [ih, eq_of_beq heq]
    · rw [List.getLastD_cons, ih]

lemma segments_dropRepeats_subset (kept : Point ℚ) (points : List (Point ℚ)) :
    segments (kept :: dropRepeats kept points) ⊆ segments (kept :: points) := by
  induction points generalizing kept with
  | nil => exact List.Subset.refl _
  | cons p points ih =>
    rw [dropRepeats, segments_cons_cons]
    split
    · next heq =>
      obtain rfl := eq_of_beq heq
      exact List.subset_cons_of_subset _ (ih p)
    · exact List.cons_subset_cons _ (ih p)

lemma turnAlong_dropRepeats (q kept : Point ℚ) (points : List (Point ℚ)) :
    turnAlong q (segments (kept :: dropRepeats kept points)) =
      turnAlong q (segments (kept :: points)) := by
  induction points generalizing kept with
  | nil => rfl
  | cons p points ih =>
    rw [dropRepeats, segments_cons_cons, turnAlong_cons]
    split
    · next heq =>
      obtain rfl := eq_of_beq heq
      rw [ih, turn_self, zero_add]
    · rw [segments_cons_cons, turnAlong_cons, ih]

end Repeats

lemma turnsBy_withoutRepeats {ring : List (Point ℚ)} (h : TurnsBy q angle ring) :
    TurnsBy q angle (withoutRepeats ring) := by
  cases ring with
  | nil => exact h
  | cons p ring =>
    obtain ⟨hsees, hturn⟩ := h
    rw [ringEdges_eq _ p, List.getLastD_cons, segments_cons_cons] at hsees hturn
    rw [withoutRepeats, TurnsBy, ringEdges_eq _ p, List.getLastD_cons, segments_cons_cons,
      getLastD_dropRepeats]
    refine ⟨fun s hs => hsees s ?_, ?_⟩
    · exact List.cons_subset_cons _ (segments_dropRepeats_subset p ring) hs
    · rw [turnAlong_cons, turnAlong_dropRepeats, ← turnAlong_cons, hturn]

/-- A ring of fewer than three points does not turn, so it may be left out. -/
lemma turnsBy_closedRing {ring : List (Point ℚ)} (h : TurnsBy q angle ring) :
    TurnsBy q angle (closedRing ring) := by
  have hnil : TurnsBy q 0 [] := ⟨List.forall_mem_nil _, rfl⟩
  match ring with
  | [] => exact h
  | [p] =>
    obtain ⟨-, rfl⟩ := h
    have hturn : turnAlong q (ringEdges [p]) = q.turn p p + 0 := rfl
    rw [hturn, turn_self, add_zero]
    exact hnil
  | [p, p'] =>
    obtain ⟨hsees, rfl⟩ := h
    have hturn : turnAlong q (ringEdges [p, p']) = q.turn p' p + (q.turn p p' + 0) := rfl
    rw [hturn, add_zero, turn_add_turn_back (hsees (p', p) List.mem_cons_self)]
    exact hnil
  | p :: p' :: p'' :: ring => exact (turnsBy_concat_iff p (p' :: p'' :: ring)).mpr h

/-! ### Cuts -/

/-- Whether what an edge cuts off, and where it cuts, lies ahead of a point in one direction. -/
structure Edge.Shields (e : Edge ℚ) (n q : Point ℚ) : Prop where
  cuts : e.Cuts
  ahead_of_outside : ∀ p, e.contains p = false → Ahead n q p
  ahead_crossing : ∀ a b, e.contains a ≠ e.contains b → Ahead n q (e.crossing a b)

/-- Where the rest of a path has got to when the path has got to `a`: to the same place, or while
the path is outside, to some place ahead. -/
def Edge.Trails (e : Edge ℚ) (n q a b : Point ℚ) : Prop :=
  (e.contains a = true → b = a) ∧ (e.contains a = false → Ahead n q b)

section Cut

variable {e : Edge ℚ} {a b c : Point ℚ}

lemma trails_of_inside (h : e.contains a = true) : e.Trails n q a a :=
  ⟨fun _ => rfl, fun hout => absurd h (by simp [hout])⟩

lemma trails_of_outside (h : e.contains a = false) (hb : Ahead n q b) : e.Trails n q a b :=
  ⟨fun hin => absurd h (by simp [hin]), fun _ => hb⟩

/-- A step of a path: what is left of it turns as much as the step, up to the difference of the
bearings of where both have got to. -/
lemma turn_step (he : e.Shields n q) (htrails : e.Trails n q a b) (hsees : Sees q a c) :
    e.Trails n q c ((e.step a c).getLastD b) ∧
      (∀ s ∈ segments (b :: e.step a c), Sees q s.1 s.2) ∧
      turnAlong q (segments (b :: e.step a c)) + (bearing n q b - bearing n q a) =
        q.turn a c + (bearing n q ((e.step a c).getLastD b) - bearing n q c) := by
  have hcrossing (hne : e.contains a ≠ e.contains c) : Ahead n q (e.crossing a c) ∧
      Sees q a (e.crossing a c) ∧ Sees q (e.crossing a c) c ∧
      q.turn a (e.crossing a c) + q.turn (e.crossing a c) c = q.turn a c := by
    obtain ⟨-, t, ht, heq⟩ := he.cuts.crossing a c hne
    refine ⟨he.ahead_crossing a c hne, ?_⟩
    rw [heq]
    exact ⟨hsees.along_left ht, hsees.along_right ht, turn_add_turn hsees ht⟩
  unfold Edge.step
  cases ha : e.contains a with
  | true =>
    obtain rfl := htrails.1 ha
    cases hc : e.contains c with
    | true =>
      refine ⟨trails_of_inside hc, List.forall_mem_singleton.mpr hsees, ?_⟩
      change q.turn b c + 0 + _ = q.turn b c + (bearing n q c - _)
      ring
    | false =>
      obtain ⟨hx, hleft, -, hturn⟩ := hcrossing (by simp [ha, hc])
      have hc' := he.ahead_of_outside c hc
      refine ⟨trails_of_outside hc hx, List.forall_mem_singleton.mpr hleft, ?_⟩
      change q.turn b (e.crossing b c) + 0 + _ = q.turn b c + (bearing n q (e.crossing b c) - _)
      rw [← hturn, turn_eq_of_ahead hx hc']
      ring
  | false =>
    have hb := htrails.2 ha
    have ha' := he.ahead_of_outside a ha
    cases hc : e.contains c with
    | true =>
      obtain ⟨hx, -, hright, hturn⟩ := hcrossing (by simp [ha, hc])
      refine ⟨trails_of_inside hc, ?_, ?_⟩
      · exact List.forall_mem_cons.mpr ⟨⟨n, hb, hx⟩, List.forall_mem_singleton.mpr hright⟩
      · change q.turn b (e.crossing a c) + (q.turn (e.crossing a c) c + 0) + _ =
          q.turn a c + (bearing n q c - _)
        rw [← hturn, turn_eq_of_ahead hb hx, turn_eq_of_ahead ha' hx]
        ring
    | false =>
      refine ⟨trails_of_outside hc hb, List.forall_mem_nil _, ?_⟩
      change 0 + _ = q.turn a c + (bearing n q b - _)
      rw [turn_eq_of_ahead ha' (he.ahead_of_outside c hc)]
      ring

/-- A path: what is left of it turns as much as the path, up to the difference of the bearings of
where both have got to. -/
lemma turn_cutFrom (he : e.Shields n q) (points : List (Point ℚ)) (htrails : e.Trails n q a b)
    (hsees : ∀ s ∈ segments (a :: points), Sees q s.1 s.2) :
    e.Trails n q (points.getLastD a) ((e.cutFrom a points).getLastD b) ∧
      (∀ s ∈ segments (b :: e.cutFrom a points), Sees q s.1 s.2) ∧
      turnAlong q (segments (b :: e.cutFrom a points)) + (bearing n q b - bearing n q a) =
        turnAlong q (segments (a :: points)) +
          (bearing n q ((e.cutFrom a points).getLastD b) - bearing n q (points.getLastD a)) := by
  induction points generalizing a b with
  | nil => exact ⟨htrails, List.forall_mem_nil _, rfl⟩
  | cons c points ih =>
    obtain ⟨hstep, hpoints⟩ := List.forall_mem_cons.mp hsees
    obtain ⟨hnext, hseesStep, hturnStep⟩ := turn_step he htrails hstep
    obtain ⟨hlast, hseesRest, hturnRest⟩ := ih hnext hpoints
    rw [Edge.cutFrom, segments_cons_append, segments_cons_cons, List.getLastD_cons,
      getLastD_append, turnAlong_append, turnAlong_cons]
    exact ⟨hlast, List.forall_mem_append.mpr ⟨hseesStep, hseesRest⟩, by linarith⟩

/-- A cut of a ring turns as much as the ring around a point on the inner side. -/
lemma turnsBy_cut (he : e.Shields n q) {ring : List (Point ℚ)} (h : TurnsBy q angle ring) :
    TurnsBy q angle (e.cut ring) := by
  have hcut : e.cut ring = e.cutFrom (ring.getLastD q) ring := by
    cases ring with
    | nil => rfl
    | cons p ring =>
      rw [Edge.cut, List.getLast?_cons, List.getLastD_cons, List.getLastD_eq_getLast?]
  rw [hcut]
  generalize hlast : ring.getLastD q = last
  have hend : ring.getLastD last = last := by rw [← hlast, getLastD_getLastD]
  have hself : e.Trails n q last last := ⟨fun _ => rfl, he.ahead_of_outside last⟩
  obtain ⟨hsees, hturn⟩ := h
  rw [ringEdges_eq ring last, hend] at hsees hturn
  -- what is left of the ring begins where it ends
  have htrails := (turn_cutFrom he ring hself hsees).1
  rw [hend] at htrails
  obtain ⟨-, hseesCut, hturnCut⟩ := turn_cutFrom he ring htrails hsees
  rw [hend, getLastD_getLastD, add_left_inj, hturn] at hturnCut
  rw [TurnsBy, ringEdges_eq _ last]
  exact ⟨hseesCut, hturnCut⟩

lemma turnsBy_foldl_cut {es : List (Edge ℚ)} (hes : ∀ e ∈ es, ∃ n, e.Shields n q)
    {ring : List (Point ℚ)} (h : TurnsBy q angle ring) :
    TurnsBy q angle (es.foldl (fun ring e => e.cut ring) ring) := by
  induction es generalizing ring with
  | nil => exact h
  | cons e es ih =>
    obtain ⟨⟨n, he⟩, hes⟩ := List.forall_mem_cons.mp hes
    exact ih hes (turnsBy_cut he h)

end Cut

/-- The sides of a rectangle shield what they cut off from each point inside. -/
lemma shields_of_mem_edges {r : Rect ℚ} (hx : q.x ∈ Set.Ioo r.x0 r.x1)
    (hy : q.y ∈ Set.Ioo r.y0 r.y1) {e : Edge ℚ} (he : e ∈ edges r) : ∃ n, e.Shields n q := by
  have hcuts := cuts_of_mem_edges he
  simp only [edges, List.mem_cons, List.not_mem_nil, or_false] at he
  rcases he with rfl | rfl | rfl | rfl
  · refine ⟨⟨-1, 0⟩, hcuts, ?_, ?_⟩
    · intro p hp
      have hout := of_decide_eq_false hp
      simp only [Ahead]
      linarith [hx.1]
    · intro a b _
      simp only [Ahead, crossingX]
      linarith [hx.1]
  · refine ⟨⟨1, 0⟩, hcuts, ?_, ?_⟩
    · intro p hp
      have hout := of_decide_eq_false hp
      simp only [Ahead]
      linarith [hx.2]
    · intro a b _
      simp only [Ahead, crossingX]
      linarith [hx.2]
  · refine ⟨⟨0, -1⟩, hcuts, ?_, ?_⟩
    · intro p hp
      have hout := of_decide_eq_false hp
      simp only [Ahead]
      linarith [hy.1]
    · intro a b _
      simp only [Ahead, crossingY]
      linarith [hy.1]
  · refine ⟨⟨0, 1⟩, hcuts, ?_, ?_⟩
    · intro p hp
      have hout := of_decide_eq_false hp
      simp only [Ahead]
      linarith [hy.2]
    · intro a b _
      simp only [Ahead, crossingY]
      linarith [hy.2]

/-- Clipping keeps the filled area. Around each point strictly inside the rectangle that lies on no
edge of a ring, what is left of the ring has the winding number of the ring. Where nothing is left
it is zero. -/
theorem windingNumber_ring {r : Rect ℚ} {q : Point ℚ} (hx : q.x ∈ Set.Ioo r.x0 r.x1)
    (hy : q.y ∈ Set.Ioo r.y0 r.y1) (points : List (Point ℚ))
    (hq : ∀ s ∈ ringEdges points, q ∉ s.1.segment s.2) :
    windingNumber q (ring r points) = windingNumber q points := by
  have hpoints : TurnsBy q (turnAlong q (ringEdges points)) points :=
    ⟨fun s hs => sees_of_notMem_segment (hq s hs), rfl⟩
  have hcut := turnsBy_foldl_cut (fun _ => shields_of_mem_edges hx hy)
    (turnsBy_withoutClosing hpoints)
  have hring : TurnsBy q (turnAlong q (ringEdges points)) (ring r points) :=
    turnsBy_closedRing (turnsBy_withoutClosing (turnsBy_withoutRepeats hcut))
  rw [windingNumber, windingNumber, hring.2]

instance (n q p : Point ℚ) : Decidable (Ahead n q p) :=
  inferInstanceAs (Decidable (0 < _))

/-- A ring that runs twice around the middle of the square, crosses itself and leaves the square on
all sides. -/
def spiral : List (Point ℚ) :=
  [⟨12, 5⟩, ⟨5, 12⟩, ⟨-2, 5⟩, ⟨5, -2⟩, ⟨9, 5⟩, ⟨5, 9⟩, ⟨1, 5⟩, ⟨5, 1⟩]

theorem windingNumber_ring_spiral :
    (∀ s ∈ ringEdges spiral, ⟨5, 5⟩ ∉ s.1.segment s.2) ∧
    ring square spiral = [⟨10, 27 / 7⟩, ⟨10, 7⟩, ⟨7, 10⟩, ⟨3, 10⟩, ⟨0, 7⟩, ⟨0, 3⟩, ⟨3, 0⟩,
      ⟨43 / 7, 0⟩, ⟨9, 5⟩, ⟨5, 9⟩, ⟨1, 5⟩, ⟨5, 1⟩, ⟨10, 27 / 7⟩] ∧
    windingNumber ⟨5, 5⟩ (ring square spiral) = 2 := by
  have hq : ∀ s ∈ ringEdges spiral, ⟨5, 5⟩ ∉ s.1.segment s.2 := by
    have hsees : ∀ s ∈ ringEdges spiral, ∃ n ∈ [⟨1, 1⟩, ⟨-1, 1⟩, ⟨-1, -1⟩, ⟨1, -1⟩],
        Ahead n ⟨5, 5⟩ s.1 ∧ Ahead n ⟨5, 5⟩ s.2 := by
      decide +kernel
    intro s hs
    obtain ⟨n, -, hahead⟩ := hsees s hs
    exact notMem_segment_of_sees ⟨n, hahead⟩
  have hturn : ∀ s ∈ ringEdges spiral, turn ⟨5, 5⟩ s.1 s.2 = Real.pi / 2 := by
    have hangle : ∀ s ∈ ringEdges spiral, s.1 ≠ ⟨5, 5⟩ ∧ ∃ k ∈ [1, 4 / 7, 7 / 4], 0 < k ∧
        s.2.x - 5 = -k * (s.1.y - 5) ∧ s.2.y - 5 = k * (s.1.x - 5) := by
      decide +kernel
    intro s hs
    obtain ⟨hne, k, -, hk, hx, hy⟩ := hangle s hs
    exact turn_of_right_angle hk hne hx hy
  refine ⟨hq, by decide +kernel, ?_⟩
  rw [windingNumber_ring (by decide +kernel) (by decide +kernel) spiral hq, windingNumber,
    turnAlong, List.map_congr_left hturn, List.map_const', List.sum_replicate]
  have hlength : (ringEdges spiral).length = 8 := rfl
  have hpi := Real.pi_ne_zero
  rw [hlength, nsmul_eq_mul]
  field_simp
  norm_num

end Clip

end MapStyle
