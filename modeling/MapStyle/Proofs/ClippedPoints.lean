import MapStyle.Proofs.VisibleParts
import Mathlib.Analysis.Convex.Basic
import Mathlib.Tactic.Linarith

/-!
# Clipped points lie inside

Clipping with exact numbers. A cut replaces the end of a segment by a point of the segment, so it
leaves no half plane that holds both ends. Whatever is left of lines and rings lies in the
rectangle, and a segment takes four cuts at most.
-/

namespace MapStyle

universe u

variable {α : Type u}

instance [BEq α] [LawfulBEq α] : LawfulBEq (Point α) where
  eq_of_beq {p q} h := by
    obtain ⟨hx, hy⟩ := Bool.and_eq_true_iff.mp h
    cases p
    cases q
    congr
    · exact eq_of_beq hx
    · exact eq_of_beq hy
  rfl {p} := Bool.and_eq_true_iff.mpr ⟨beq_self_eq_true p.x, beq_self_eq_true p.y⟩

/-! ### Repeated and closing points -/

namespace Clip

variable [BEq α]

lemma dropRepeats_sublist (kept : Point α) (points : List (Point α)) :
    (dropRepeats kept points).Sublist points := by
  induction points generalizing kept with
  | nil => exact .refl _
  | cons p points ih =>
    rw [dropRepeats]
    split
    · exact (ih kept).cons p
    · exact (ih p).cons_cons p

lemma withoutRepeats_sublist (points : List (Point α)) :
    (withoutRepeats points).Sublist points := by
  cases points with
  | nil => exact .refl _
  | cons p points => exact (dropRepeats_sublist p points).cons_cons p

lemma withoutClosing_sublist (points : List (Point α)) :
    (withoutClosing points).Sublist points := by
  unfold withoutClosing
  split
  · split
    · exact List.dropLast_sublist _
    · exact .refl _
  · exact .refl _

omit [BEq α] in
lemma mem_of_mem_closedRing {points : List (Point α)} {p : Point α} (h : p ∈ closedRing points) :
    p ∈ points := by
  unfold closedRing at h
  split at h
  · simp only [List.mem_append, List.mem_cons, List.not_mem_nil, or_false] at h ⊢
    tauto
  · cases h

end Clip

variable [Field α] [LinearOrder α]

/-- Whether a point lies in a rectangle or on its boundary. -/
def Rect.Contains (r : Rect α) (p : Point α) : Prop :=
  p.x ∈ Set.Icc r.x0 r.x1 ∧ p.y ∈ Set.Icc r.y0 r.y1

/-! ### Points of a segment -/

namespace Point

/-- The point at a share of the way from one point to another. -/
def along (a b : Point α) (t : α) : Point α :=
  ⟨a.x + t * (b.x - a.x), a.y + t * (b.y - a.y)⟩

/-- The mirror image of a point at the diagonal. -/
def swap (p : Point α) : Point α :=
  ⟨p.y, p.x⟩

/-- Whether all points between two points of a kind are of this kind. -/
def IsConvex (P : Point α → Prop) : Prop :=
  ∀ a b t, t ∈ Set.Icc 0 1 → P a → P b → P (a.along b t)

lemma IsConvex.and {P Q : Point α → Prop} (hP : IsConvex P) (hQ : IsConvex Q) :
    IsConvex fun p => P p ∧ Q p :=
  fun a b t ht ha hb => ⟨hP a b t ht ha.1 hb.1, hQ a b t ht ha.2 hb.2⟩

lemma isConvex_x [IsStrictOrderedRing α] {s : Set α} (hs : Convex α s) :
    IsConvex fun p => p.x ∈ s :=
  fun _ _ _ ht ha hb => hs.add_smul_sub_mem ha hb ht

lemma isConvex_y [IsStrictOrderedRing α] {s : Set α} (hs : Convex α s) :
    IsConvex fun p => p.y ∈ s :=
  fun _ _ _ ht ha hb => hs.add_smul_sub_mem ha hb ht

lemma square_pos [IsStrictOrderedRing α] {a b : Point α} (hne : a ≠ b) :
    0 < (a.x - b.x) * (a.x - b.x) + (a.y - b.y) * (a.y - b.y) := by
  have hapart : a.x - b.x ≠ 0 ∨ a.y - b.y ≠ 0 := by
    cases a
    cases b
    rw [Ne, Point.mk.injEq, not_and_or] at hne
    simpa only [sub_ne_zero] using hne
  rcases hapart with hx | hy
  · exact add_pos_of_pos_of_nonneg (mul_self_pos.mpr hx) (mul_self_nonneg _)
  · exact add_pos_of_nonneg_of_pos (mul_self_nonneg _) (mul_self_pos.mpr hy)

end Point

open Point

namespace Clip

omit [LinearOrder α] in
lemma crossingX_eq_along {a b : Point α} (hne : a.x ≠ b.x) (x : α) :
    crossingX a b x = a.along b ((x - a.x) / (b.x - a.x)) := by
  have hsub : b.x - a.x ≠ 0 := sub_ne_zero.mpr hne.symm
  unfold crossingX along
  congr 1
  · field_simp
    ring
  · field_simp

omit [LinearOrder α] in
lemma crossingX_comm {a b : Point α} (hne : a.x ≠ b.x) (x : α) :
    crossingX a b x = crossingX b a x := by
  have hab : b.x - a.x ≠ 0 := sub_ne_zero.mpr hne.symm
  have hba : a.x - b.x ≠ 0 := sub_ne_zero.mpr hne
  unfold crossingX
  congr 1
  field_simp
  ring

omit [LinearOrder α] in
/-- A crossing in one direction is the mirror image of one in the other direction. -/
lemma crossingY_eq_swap (a b : Point α) (y : α) :
    crossingY a b y = (crossingX a.swap b.swap y).swap := rfl

omit [LinearOrder α] in
lemma crossingY_eq_along {a b : Point α} (hne : a.y ≠ b.y) (y : α) :
    crossingY a b y = a.along b ((y - a.y) / (b.y - a.y)) := by
  have hx : a.swap.x ≠ b.swap.x := hne
  rw [crossingY_eq_swap, crossingX_eq_along hx]
  rfl

omit [LinearOrder α] in
lemma crossingY_comm {a b : Point α} (hne : a.y ≠ b.y) (y : α) :
    crossingY a b y = crossingY b a y := by
  have hx : a.swap.x ≠ b.swap.x := hne
  rw [crossingY_eq_swap, crossingY_eq_swap, crossingX_comm hx]

/-- A number between two others is at a share of the way between them. -/
lemma share_mem_Icc [IsStrictOrderedRing α] {a b x : α} (hx : x ∈ Set.uIcc a b) :
    (x - a) / (b - a) ∈ Set.Icc 0 1 := by
  rcases Set.mem_uIcc.mp hx with ⟨hax, hxb⟩ | ⟨hbx, hxa⟩
  · exact ⟨div_nonneg (by linarith) (by linarith), div_le_one_of_le₀ (by linarith) (by linarith)⟩
  · rw [← neg_div_neg_eq]
    exact ⟨div_nonneg (by linarith) (by linarith), div_le_one_of_le₀ (by linarith) (by linarith)⟩

/-! ### Rings -/

/-- What an edge does to a segment that crosses it. -/
structure Edge.Cuts (e : Edge α) : Prop where
  /-- The edge bounds a half plane. -/
  isConvex : IsConvex fun p => e.contains p = true
  /-- The crossing belongs to the half plane and to the segment. -/
  crossing : ∀ a b, e.contains a ≠ e.contains b → e.contains (e.crossing a b) = true ∧
    ∃ t ∈ Set.Icc 0 1, e.crossing a b = a.along b t

section Cut

variable {e : Edge α} {P : Point α → Prop}

lemma forall_mem_step (he : e.Cuts) (hP : IsConvex P) {a b : Point α} (ha : P a) (hb : P b) :
    ∀ p ∈ e.step a b, P p ∧ e.contains p = true := by
  have hcrossing (hne : e.contains a ≠ e.contains b) :
      P (e.crossing a b) ∧ e.contains (e.crossing a b) = true := by
    obtain ⟨hcontains, t, ht, heq⟩ := he.crossing a b hne
    exact ⟨heq ▸ hP a b t ht ha hb, hcontains⟩
  intro p hp
  unfold Edge.step at hp
  split at hp
  · next hina hinb =>
    obtain rfl := List.mem_singleton.mp hp
    exact ⟨hb, hinb⟩
  · next hina hinb =>
    obtain rfl := List.mem_singleton.mp hp
    exact hcrossing (by simp [hina, hinb])
  · next hina hinb =>
    rcases List.mem_pair.mp hp with rfl | rfl
    · exact hcrossing (by simp [hina, hinb])
    · exact ⟨hb, hinb⟩
  · cases hp

lemma forall_mem_cutFrom (he : e.Cuts) (hP : IsConvex P) {a : Point α} {points : List (Point α)}
    (ha : P a) (h : ∀ p ∈ points, P p) : ∀ p ∈ e.cutFrom a points, P p ∧ e.contains p = true := by
  induction points generalizing a with
  | nil => exact List.forall_mem_nil _
  | cons b points ih =>
    obtain ⟨hb, hpoints⟩ := List.forall_mem_cons.mp h
    rw [Edge.cutFrom, List.forall_mem_append]
    exact ⟨forall_mem_step he hP ha hb, ih hb hpoints⟩

/-- A cut of a ring by an edge stays in the half plane and in every convex set around the ring. -/
lemma forall_mem_cut (he : e.Cuts) (hP : IsConvex P) {points : List (Point α)}
    (h : ∀ p ∈ points, P p) : ∀ p ∈ e.cut points, P p ∧ e.contains p = true := by
  unfold Edge.cut
  split
  · next last hlast => exact forall_mem_cutFrom he hP (h last (List.mem_of_getLast? hlast)) h
  · exact List.forall_mem_nil _

end Cut

/-- No cut undoes an earlier one. -/
lemma forall_mem_foldl_cut {es : List (Edge α)} (hes : ∀ e ∈ es, e.Cuts) {P : Point α → Prop}
    (hP : IsConvex P) {points : List (Point α)} (h : ∀ p ∈ points, P p) :
    ∀ p ∈ es.foldl (fun points e => e.cut points) points,
      P p ∧ ∀ e ∈ es, e.contains p = true := by
  induction es generalizing points P with
  | nil => exact fun p hp => ⟨h p hp, List.forall_mem_nil _⟩
  | cons e es ih =>
    obtain ⟨he, hes⟩ := List.forall_mem_cons.mp hes
    intro p hp
    obtain ⟨⟨hpP, hpe⟩, hrest⟩ := ih hes (hP.and he.isConvex) (forall_mem_cut he hP h) p hp
    exact ⟨hpP, List.forall_mem_cons.mpr ⟨hpe, hrest⟩⟩

lemma contains_iff_forall_edges {r : Rect α} {p : Point α} :
    r.Contains p ↔ ∀ e ∈ edges r, e.contains p = true := by
  simp [Rect.Contains, edges, and_assoc]

/-- Whether a test of numbers accepts a convex set, which a bound parts from all other numbers. -/
structure Bounds (inside : α → Bool) (x : α) : Prop where
  isConvex : Convex α {a | inside a = true}
  mem : inside x = true
  parts : ∀ a b, inside a = true → inside b = false → x ∈ Set.uIcc a b

lemma Bounds.mem_uIcc {inside : α → Bool} {x : α} (h : Bounds inside x) {a b : α}
    (hne : inside a ≠ inside b) : x ∈ Set.uIcc a b := by
  cases ha : inside a with
  | true => exact h.parts a b ha (by simpa [ha] using hne.symm)
  | false =>
    rw [Set.uIcc_comm]
    exact h.parts b a (by simpa [ha] using hne.symm) ha

section Rings

variable [IsStrictOrderedRing α]

lemma bounds_lower (low : α) : Bounds (fun a => decide (low ≤ a)) low where
  isConvex := by
    simp only [decide_eq_true_eq]
    exact convex_Ici low
  mem := by simp
  parts a b ha hb := by
    simp only [decide_eq_true_eq, decide_eq_false_iff_not, not_le] at ha hb
    exact Set.mem_uIcc.mpr (.inr ⟨hb.le, ha⟩)

lemma bounds_upper (high : α) : Bounds (fun a => decide (a ≤ high)) high where
  isConvex := by
    simp only [decide_eq_true_eq]
    exact convex_Iic high
  mem := by simp
  parts a b ha hb := by
    simp only [decide_eq_true_eq, decide_eq_false_iff_not, not_le] at ha hb
    exact Set.mem_uIcc.mpr (.inl ⟨ha, hb.le⟩)

lemma Bounds.cuts_x {inside : α → Bool} {x : α} (h : Bounds inside x) :
    Edge.Cuts ⟨fun p => inside p.x, fun a b => crossingX a b x⟩ where
  isConvex := isConvex_x h.isConvex
  crossing a b hab := by
    have hne : a.x ≠ b.x := fun heq => hab (congrArg inside heq)
    exact ⟨h.mem, _, share_mem_Icc (h.mem_uIcc hab), crossingX_eq_along hne x⟩

lemma Bounds.cuts_y {inside : α → Bool} {y : α} (h : Bounds inside y) :
    Edge.Cuts ⟨fun p => inside p.y, fun a b => crossingY a b y⟩ where
  isConvex := isConvex_y h.isConvex
  crossing a b hab := by
    have hne : a.y ≠ b.y := fun heq => hab (congrArg inside heq)
    exact ⟨h.mem, _, share_mem_Icc (h.mem_uIcc hab), crossingY_eq_along hne y⟩

lemma cuts_of_mem_edges {r : Rect α} {e : Edge α} (he : e ∈ edges r) : e.Cuts := by
  simp only [edges, List.mem_cons, List.not_mem_nil, or_false] at he
  rcases he with rfl | rfl | rfl | rfl
  · exact (bounds_lower r.x0).cuts_x
  · exact (bounds_upper r.x1).cuts_x
  · exact (bounds_lower r.y0).cuts_y
  · exact (bounds_upper r.y1).cuts_y

/-- What is left of a ring lies in the rectangle. -/
theorem contains_of_mem_ring {r : Rect α} {points : List (Point α)} {p : Point α}
    (hp : p ∈ ring r points) : r.Contains p := by
  have hcut : ∀ p ∈ (edges r).foldl (fun points e => e.cut points) (withoutClosing points),
      True ∧ ∀ e ∈ edges r, e.contains p = true :=
    forall_mem_foldl_cut (fun _ => cuts_of_mem_edges) (fun _ _ _ _ _ _ => trivial)
      fun _ _ => trivial
  have hmem := (withoutRepeats_sublist _).subset
    ((withoutClosing_sublist _).subset (mem_of_mem_closedRing hp))
  exact contains_iff_forall_edges.mpr (hcut p hmem).2

end Rings

/-! ### Segments and polylines -/

section Sides

omit [Field α]

lemma side_eq_within_iff {low high a : α} : side low high a = .within ↔ a ∈ Set.Icc low high := by
  unfold side
  split_ifs with hlow hhigh
  · simp [hlow]
  · simp [hhigh]
  · simp [not_lt.mp hlow, not_lt.mp hhigh]

lemma isInside_zone_iff {r : Rect α} {p : Point α} : (zone r p).isInside = true ↔ r.Contains p := by
  simp [Zone.isInside, zone, side_eq_within_iff, Rect.Contains]

end Sides

lemma contains_of_visible {r : Rect α} {a b : Point α} (h : verdict r a b = .visible) :
    r.Contains a ∧ r.Contains b := by
  rw [← isInside_zone_iff, ← isInside_zone_iff]
  unfold verdict at h
  simp only at h
  split_ifs at h with hinside
  simpa using hinside

lemma contains_of_segmentWithin? {r : Rect α} {cuts : Nat} {a b p q : Point α}
    (h : segmentWithin? r cuts a b = some (some (p, q))) : r.Contains p ∧ r.Contains q := by
  fun_induction segmentWithin? r cuts a b with
  | case1 a b cuts hverdict =>
    cases h
    exact contains_of_visible hverdict
  | case2 => cases h
  | case3 => cases h
  | case4 a b c d cuts hverdict ih => exact ih h

lemma contains_of_segment? {r : Rect α} {a b p q : Point α}
    (h : segment? r a b = some (some (p, q))) : r.Contains p ∧ r.Contains q := by
  obtain ⟨cuts, hcuts⟩ := segment?_eq_some_iff.mp h
  exact contains_of_segmentWithin? hcuts

/-- The pieces of a line lie in the rectangle. -/
theorem contains_of_line? {r : Rect α} {points : List (Point α)} {pieces : List (List (Point α))}
    (h : line? r points = some pieces) : ∀ piece ∈ pieces, ∀ p ∈ piece, r.Contains p := by
  intro piece hpiece p hp
  have hall : ∀ p ∈ piece.reverse, r.Contains p := by
    refine forall_mem_of_line? (P := fun points => ∀ p ∈ points, r.Contains p) ?_ ?_ h piece hpiece
    · intro p q a b hsegment
      obtain ⟨ha, hb⟩ := contains_of_segment? hsegment
      simp [ha, hb]
    · intro p q a b current hsegment _ hcurrent
      exact List.forall_mem_cons.mpr ⟨(contains_of_segment? hsegment).2, hcurrent⟩
  exact hall p (List.mem_reverse.mpr hp)

/-! ### How often a segment is cut -/

/-- The number of sides of a range beyond which one of two numbers lies. -/
def strays (s t : Side) : Nat :=
  (if s = .below ∨ t = .below then 1 else 0) + if s = .above ∨ t = .above then 1 else 0

/-- The number of sides of a rectangle beyond which one of two points lies. -/
def Zone.strays (z w : Zone) : Nat :=
  Clip.strays z.x w.x + Clip.strays z.y w.y

lemma strays_comm (s t : Side) : strays s t = strays t s := by
  simp [strays, or_comm]

lemma strays_within_lt {s t : Side} (hs : s ≠ .within) (ht : t ≠ s) :
    strays .within t < strays s t := by
  cases s <;> cases t <;> simp_all [strays]

lemma Zone.strays_comm (z w : Zone) : z.strays w = w.strays z := by
  rw [Zone.strays, Zone.strays, Clip.strays_comm z.x, Clip.strays_comm z.y]

lemma Zone.strays_le_four (z w : Zone) : z.strays w ≤ 4 := by
  have hrange (s t : Side) : Clip.strays s t ≤ 2 := by
    cases s <;> cases t <;> decide
  exact Nat.add_le_add (hrange z.x w.x) (hrange z.y w.y)

/-- The end of a range at which numbers beyond it are cut off. -/
def Side.bound (low high : α) : Side → α
  | .above => high
  | _ => low

section Bound

omit [Field α]

variable {low high a b : α}

lemma strays_side_le {x : α} (hx : x ∈ Set.uIcc a b) :
    strays (side low high x) (side low high b) ≤ strays (side low high a) (side low high b) := by
  rw [Set.mem_uIcc] at hx
  unfold side
  split_ifs <;> first | decide | (exfalso; grind)

/-- What is beyond one end of a range, or within it, is on the same side of the other end. -/
lemma bound_of_not_within (h : low ≤ high) (ha : side low high a ≠ .within)
    (hb : side low high b ≠ side low high a) :
    (side low high a).bound low high ∈ Set.uIcc a b ∧ a ≠ b ∧
      side low high ((side low high a).bound low high) = .within := by
  have hne : a ≠ b := fun heq => hb (heq ▸ rfl)
  have hwithin : side low high ((side low high a).bound low high) = .within := by
    rw [side_eq_within_iff]
    cases side low high a <;> simp [Side.bound, h]
  refine ⟨?_, hne, hwithin⟩
  rw [Set.mem_uIcc]
  unfold side Side.bound at *
  grind

end Bound

section Cuts

variable [IsStrictOrderedRing α] {r : Rect α} {a b : Point α}

lemma along_mem_uIcc {t : α} (ht : t ∈ Set.Icc 0 1) :
    (a.along b t).x ∈ Set.uIcc a.x b.x ∧ (a.along b t).y ∈ Set.uIcc a.y b.y :=
  ⟨isConvex_x (convex_uIcc a.x b.x) a b t ht Set.left_mem_uIcc Set.right_mem_uIcc,
    isConvex_y (convex_uIcc a.y b.y) a b t ht Set.left_mem_uIcc Set.right_mem_uIcc⟩

/-- A cut at one end puts it inside in one direction and moves it towards the other end. -/
lemma strays_crossingY_lt (hr : r.y0 ≤ r.y1) (ha : (zone r a).y ≠ .within)
    (hb : (zone r b).y ≠ (zone r a).y) :
    (zone r (crossingY a b ((zone r a).y.bound r.y0 r.y1))).strays (zone r b) <
      (zone r a).strays (zone r b) := by
  obtain ⟨hbound, hne, hwithin⟩ := bound_of_not_within hr ha hb
  -- in the other direction the cut point is between the ends and so beyond no further side
  have hx := (along_mem_uIcc (a := a) (b := b) (share_mem_Icc hbound)).1
  rw [← crossingY_eq_along hne] at hx
  refine Nat.add_lt_add_of_le_of_lt (strays_side_le hx) ?_
  change strays (side r.y0 r.y1 ((zone r a).y.bound r.y0 r.y1)) _ < _
  rw [show (zone r a).y = side r.y0 r.y1 a.y from rfl, hwithin]
  exact strays_within_lt ha hb

lemma strays_crossingX_lt (hr : r.x0 ≤ r.x1) (ha : (zone r a).x ≠ .within)
    (hb : (zone r b).x ≠ (zone r a).x) :
    (zone r (crossingX a b ((zone r a).x.bound r.x0 r.x1))).strays (zone r b) <
      (zone r a).strays (zone r b) := by
  obtain ⟨hbound, hne, hwithin⟩ := bound_of_not_within hr ha hb
  have hy := (along_mem_uIcc (a := a) (b := b) (share_mem_Icc hbound)).2
  rw [← crossingX_eq_along hne] at hy
  refine Nat.add_lt_add_of_lt_of_le ?_ (strays_side_le hy)
  change strays (side r.x0 r.x1 ((zone r a).x.bound r.x0 r.x1)) _ < _
  rw [show (zone r a).x = side r.x0 r.x1 a.x from rfl, hwithin]
  exact strays_within_lt ha hb

omit [LinearOrder α] [IsStrictOrderedRing α] in
lemma cutPoint_of_y (r : Rect α) (a b : Point α) {z : Zone} (hy : z.y ≠ .within) :
    cutPoint r a b z = crossingY a b (z.y.bound r.y0 r.y1) := by
  obtain ⟨sx, sy⟩ := z
  cases sy with
  | below => rfl
  | within => exact absurd rfl hy
  | above => rfl

omit [LinearOrder α] [IsStrictOrderedRing α] in
lemma cutPoint_of_x (r : Rect α) (a b : Point α) {z : Zone} (hy : z.y = .within)
    (hx : z.x ≠ .within) : cutPoint r a b z = crossingX a b (z.x.bound r.x0 r.x1) := by
  obtain ⟨sx, sy⟩ := z
  subst hy
  cases sx with
  | below => rfl
  | within => exact absurd rfl hx
  | above => rfl

/-- The cut at an end that is outside, on another side than the other end. It is the same whichever
end comes first. -/
lemma cutPoint_of_outside (hx : r.x0 ≤ r.x1) (hy : r.y0 ≤ r.y1)
    (hout : (zone r a).isInside = false) (hshare : (zone r a).sharesSide (zone r b) = false) :
    (zone r (cutPoint r a b (zone r a))).strays (zone r b) < (zone r a).strays (zone r b) ∧
      cutPoint r b a (zone r a) = cutPoint r a b (zone r a) := by
  have hapart : ((zone r a).x ≠ .within → (zone r b).x ≠ (zone r a).x) ∧
      ((zone r a).y ≠ .within → (zone r b).y ≠ (zone r a).y) := by
    simp only [Zone.sharesSide, decide_eq_false_iff_not] at hshare
    tauto
  by_cases hya : (zone r a).y = .within
  · have hxa : (zone r a).x ≠ .within := by
      intro hxa
      simp [Zone.isInside, hxa, hya] at hout
    have hne := (bound_of_not_within hx hxa (hapart.1 hxa)).2.1
    rw [cutPoint_of_x r a b hya hxa, cutPoint_of_x r b a hya hxa]
    exact ⟨strays_crossingX_lt hx hxa (hapart.1 hxa), (crossingX_comm hne _).symm⟩
  · have hne := (bound_of_not_within hy hya (hapart.2 hya)).2.1
    rw [cutPoint_of_y r a b hya, cutPoint_of_y r b a hya]
    exact ⟨strays_crossingY_lt hy hya (hapart.2 hya), (crossingY_comm hne _).symm⟩

lemma Zone.sharesSide_comm (z w : Zone) : z.sharesSide w = w.sharesSide z := by
  unfold Zone.sharesSide
  grind

omit [IsStrictOrderedRing α] in
/-- A cut replaces an end that is outside. -/
lemma cut_cases {c d : Point α} (h : verdict r a b = .cut c d) :
    (c = cutPoint r a b (zone r a) ∧ d = b ∧
      (zone r a).isInside = false ∧ (zone r a).sharesSide (zone r b) = false) ∨
    (c = a ∧ d = cutPoint r a b (zone r b) ∧
      (zone r b).isInside = false ∧ (zone r b).sharesSide (zone r a) = false) := by
  unfold verdict at h
  simp only at h
  split_ifs at h with hinside hshare ha
  · cases h
    rw [Zone.sharesSide_comm (zone r b)]
    exact .inr ⟨rfl, rfl, by simpa [ha] using hinside, by simpa using hshare⟩
  · cases h
    exact .inl ⟨rfl, rfl, by simpa using ha, by simpa using hshare⟩

/-- After a cut the ends are beyond fewer sides. -/
lemma strays_of_cut (hx : r.x0 ≤ r.x1) (hy : r.y0 ≤ r.y1) {c d : Point α}
    (h : verdict r a b = .cut c d) :
    (zone r c).strays (zone r d) < (zone r a).strays (zone r b) := by
  rcases cut_cases h with ⟨rfl, rfl, hout, hshare⟩ | ⟨rfl, rfl, hout, hshare⟩
  · exact (cutPoint_of_outside hx hy hout hshare).1
  · obtain ⟨hlt, hcut⟩ := cutPoint_of_outside hx hy hout hshare
    rw [hcut, Zone.strays_comm, Zone.strays_comm (zone r c)]
    exact hlt

lemma segmentWithin?_isSome (hx : r.x0 ≤ r.x1) (hy : r.y0 ≤ r.y1) {cuts : Nat}
    (h : (zone r a).strays (zone r b) ≤ cuts) : (segmentWithin? r cuts a b).isSome = true := by
  fun_induction segmentWithin? r cuts a b with
  | case1 => rfl
  | case2 => rfl
  | case3 a b c d hverdict =>
    have hlt := strays_of_cut hx hy hverdict
    omega
  | case4 a b c d cuts hverdict ih =>
    have hlt := strays_of_cut hx hy hverdict
    exact ih (by omega)

/-- Four cuts suffice for a segment. -/
lemma segment?_eq_four (hx : r.x0 ≤ r.x1) (hy : r.y0 ≤ r.y1) (a b : Point α) :
    segment? r a b = segmentWithin? r 4 a b :=
  segment?_eq_of_isSome (segmentWithin?_isSome hx hy (Zone.strays_le_four (zone r a) (zone r b)))

/-- With exact numbers the loop ends. -/
theorem isSome_segment? (hx : r.x0 ≤ r.x1) (hy : r.y0 ≤ r.y1) (a b : Point α) :
    (segment? r a b).isSome = true := by
  rw [segment?_eq_four hx hy]
  exact segmentWithin?_isSome hx hy (Zone.strays_le_four (zone r a) (zone r b))

end Cuts

end Clip

end MapStyle
