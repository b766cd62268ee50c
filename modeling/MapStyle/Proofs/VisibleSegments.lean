import MapStyle.Proofs.ClippedPoints
import Mathlib.Order.Bounds.Basic
import Mathlib.Tactic.FieldSimp
import Mathlib.Tactic.Ring

/-!
# The visible part of a segment

Clipping a segment with exact numbers. Each cut drops a share of the segment at one of its ends in
which no point is visible, so what is left when both ends are visible is the visible part, and what
is left when both ends lie beyond one side has none.
-/

namespace MapStyle

universe u

variable {α : Type u} [Field α] [LinearOrder α]

namespace Point

/-- The points from one point to another, both included. -/
def segment (a b : Point α) : Set (Point α) :=
  a.along b '' Set.Icc 0 1

section Along

omit [LinearOrder α]

@[simp] lemma along_zero (a b : Point α) : a.along b 0 = a := by
  simp [along]

@[simp] lemma along_one (a b : Point α) : a.along b 1 = b := by
  simp [along]

/-- A share of the way back. -/
lemma along_swap (a b : Point α) (t : α) : b.along a t = a.along b (1 - t) := by
  unfold along
  congr 1 <;> ring

/-- A share of the way between two points of a line. -/
lemma along_along (a b : Point α) (s t u : α) :
    (a.along b s).along (a.along b t) u = a.along b (s + u * (t - s)) := by
  unfold along
  congr 1 <;> ring

end Along

end Point

open Point

namespace Clip

/-- The shares of the way from one point to another at which a point is visible. -/
def visibleShares (r : Rect α) (a b : Point α) : Set α :=
  {t | t ∈ Set.Icc 0 1 ∧ r.Contains (a.along b t)}

/-- Whether two points are the ends of a part of a segment, in the same direction, that has all that
is visible of the segment. -/
def Keeps (r : Rect α) (a b c d : Point α) : Prop :=
  ∃ s t, 0 ≤ s ∧ s ≤ t ∧ t ≤ 1 ∧ c = a.along b s ∧ d = a.along b t ∧
    visibleShares r a b ⊆ Set.Icc s t

section Exact

variable [IsStrictOrderedRing α] {r : Rect α} {a b c d : Point α}

lemma isConvex_contains (r : Rect α) : IsConvex r.Contains :=
  (isConvex_x (convex_Icc r.x0 r.x1)).and (isConvex_y (convex_Icc r.y0 r.y1))

/-- The shares between two shares, as shares of the way between these. -/
lemma image_share {s t : α} (hst : s ≤ t) :
    (fun u => s + u * (t - s)) '' Set.Icc 0 1 = Set.Icc s t := by
  have hsub : 0 ≤ t - s := sub_nonneg.mpr hst
  ext u
  constructor
  · rintro ⟨v, hv, rfl⟩
    have hle := mul_le_of_le_one_left hsub hv.2
    exact ⟨by linarith [mul_nonneg hv.1 hsub], by linarith⟩
  · intro hu
    rcases hst.eq_or_lt with rfl | hlt
    · exact ⟨0, ⟨le_rfl, zero_le_one⟩, by linarith [hu.1, hu.2]⟩
    · have hpos : 0 < t - s := sub_pos.mpr hlt
      refine ⟨(u - s) / (t - s), ⟨div_nonneg (by linarith [hu.1]) hsub, ?_⟩, ?_⟩
      · rw [div_le_one hpos]
        linarith [hu.2]
      · field_simp
        ring

lemma along_image_Icc (a b : Point α) {s t : α} (hst : s ≤ t) :
    a.along b '' Set.Icc s t = (a.along b s).segment (a.along b t) := by
  rw [← image_share hst, Set.image_image, Point.segment]
  exact Set.image_congr fun u _ => (along_along a b s t u).symm

/-! ### What a cut keeps -/

lemma Keeps.refl (r : Rect α) (a b : Point α) : Keeps r a b a b :=
  ⟨0, 1, le_rfl, zero_le_one, le_rfl, (along_zero a b).symm, (along_one a b).symm, fun _ hu => hu.1⟩

/-- The same part of the segment the other way round. -/
lemma Keeps.swap (h : Keeps r a b c d) : Keeps r b a d c := by
  obtain ⟨s, t, hs, hst, ht, rfl, rfl, hvisible⟩ := h
  refine ⟨1 - t, 1 - s, by linarith, by linarith, by linarith, along_swap b a t,
    along_swap b a s, ?_⟩
  rintro u ⟨hu, hcontains⟩
  rw [along_swap a b] at hcontains
  obtain ⟨hsu, hut⟩ := hvisible ⟨⟨by linarith [hu.2], by linarith [hu.1]⟩, hcontains⟩
  exact ⟨by linarith, by linarith⟩

/-- What is visible of a part that has all that is visible is visible of the whole. -/
lemma visibleShares_subset_image {s t : α} (hst : s ≤ t)
    (hvisible : visibleShares r a b ⊆ Set.Icc s t) :
    visibleShares r a b ⊆
      (fun u => s + u * (t - s)) '' visibleShares r (a.along b s) (a.along b t) := by
  intro u hu
  obtain ⟨v, hv, rfl⟩ : u ∈ (fun v => s + v * (t - s)) '' Set.Icc 0 1 := by
    rw [image_share hst]
    exact hvisible hu
  have hcontains := hu.2
  rw [← along_along] at hcontains
  exact ⟨v, ⟨hv, hcontains⟩, rfl⟩

lemma Keeps.trans {e f : Point α} (h : Keeps r a b c d) (h' : Keeps r c d e f) :
    Keeps r a b e f := by
  obtain ⟨s, t, hs, hst, ht, rfl, rfl, hvisible⟩ := h
  obtain ⟨s', t', hs', hst', ht', rfl, rfl, hvisible'⟩ := h'
  have hsub : 0 ≤ t - s := sub_nonneg.mpr hst
  have hmono {u v : α} (huv : u ≤ v) : s + u * (t - s) ≤ s + v * (t - s) := by
    linarith [mul_le_mul_of_nonneg_right huv hsub]
  refine ⟨s + s' * (t - s), s + t' * (t - s), ?_, hmono hst', ?_, along_along a b s t s',
    along_along a b s t t', ?_⟩
  · linarith [hmono hs']
  · linarith [hmono ht']
  · intro u hu
    obtain ⟨v, hv, rfl⟩ := visibleShares_subset_image hst hvisible hu
    exact ⟨hmono (hvisible' hv).1, hmono (hvisible' hv).2⟩

lemma Keeps.visibleShares_eq_empty (h : Keeps r a b c d) (hempty : visibleShares r c d = ∅) :
    visibleShares r a b = ∅ := by
  obtain ⟨s, t, hs, hst, ht, rfl, rfl, hvisible⟩ := h
  have hsubset := visibleShares_subset_image hst hvisible
  rwa [hempty, Set.image_empty, Set.subset_empty_iff] at hsubset

/-- The part that is kept is visible as a whole if its ends are. -/
lemma Keeps.visibleShares_eq (h : Keeps r a b c d) (hc : r.Contains c) (hd : r.Contains d) :
    ∃ s t, s ≤ t ∧ c = a.along b s ∧ d = a.along b t ∧ visibleShares r a b = Set.Icc s t := by
  obtain ⟨s, t, hs, hst, ht, rfl, rfl, hvisible⟩ := h
  refine ⟨s, t, hst, rfl, rfl, Set.Subset.antisymm hvisible ?_⟩
  intro u hu
  refine ⟨Set.Icc_subset_Icc hs ht hu, ?_⟩
  rw [← image_share hst] at hu
  obtain ⟨v, hv, rfl⟩ := hu
  have hcontains := isConvex_contains r _ _ v hv hc hd
  rwa [along_along] at hcontains

end Exact

section Sides

omit [Field α]

variable {low high a : α}

lemma side_eq_below_iff : side low high a = .below ↔ a < low := by
  unfold side
  split_ifs with hlow hhigh
  · simp [hlow]
  · simp [hlow]
  · simp [hlow]

lemma side_eq_above_iff (h : low ≤ high) : side low high a = .above ↔ high < a := by
  unfold side
  split_ifs with hlow hhigh
  · simp [(hlow.trans_le h).le]
  · simp [hhigh]
  · simp [not_lt.mp hhigh]

end Sides

section Numbers

variable [IsStrictOrderedRing α] {low high x y t : α}

/-- What lies within a range on the way from a number beyond it comes after the end of the range. -/
lemma share_le_of_within (hrange : low ≤ high) (hx : side low high x ≠ .within)
    (hy : side low high y ≠ side low high x) (ht : x + t * (y - x) ∈ Set.Icc low high) :
    ((side low high x).bound low high - x) / (y - x) ≤ t := by
  obtain ⟨hlow, hhigh⟩ := ht
  cases hside : side low high x with
  | below =>
    have hxlow : x < low := side_eq_below_iff.mp hside
    have hylow : low ≤ y := by
      rw [hside, Ne, side_eq_below_iff] at hy
      exact not_lt.mp hy
    change (low - x) / (y - x) ≤ t
    rw [div_le_iff₀ (by linarith)]
    linarith
  | within => exact absurd hside hx
  | above =>
    have hxhigh : high < x := (side_eq_above_iff hrange).mp hside
    have hyhigh : y ≤ high := by
      rw [hside, Ne, side_eq_above_iff hrange] at hy
      exact not_lt.mp hy
    change (high - x) / (y - x) ≤ t
    rw [← neg_div_neg_eq, div_le_iff₀ (by linarith)]
    linarith

/-- Nothing between two numbers beyond one end of a range lies within it. -/
lemma not_within_of_side_eq (hrange : low ≤ high) (hx : side low high x ≠ .within)
    (hy : side low high x = side low high y) (ht : t ∈ Set.Icc 0 1) :
    x + t * (y - x) ∉ Set.Icc low high := by
  rintro ⟨hlow, hhigh⟩
  cases hside : side low high x with
  | below =>
    have hmem := (convex_Iio low).add_smul_sub_mem (side_eq_below_iff.mp hside)
      (side_eq_below_iff.mp (hy ▸ hside)) ht
    exact hlow.not_gt hmem
  | within => exact hx hside
  | above =>
    have hmem := (convex_Ioi high).add_smul_sub_mem ((side_eq_above_iff hrange).mp hside)
      ((side_eq_above_iff hrange).mp (hy ▸ hside)) ht
    exact hhigh.not_gt hmem

end Numbers

section Cuts

variable {r : Rect α} {a b c d : Point α}

omit [Field α] in
/-- In the direction of a cut, the end that is cut lies beyond a side of the rectangle that the
other end does not lie beyond. -/
lemma direction_of_cut (hout : (zone r a).isInside = false)
    (hshare : (zone r a).sharesSide (zone r b) = false) :
    ((zone r a).y ≠ .within ∧ (zone r b).y ≠ (zone r a).y) ∨
      ((zone r a).y = .within ∧ (zone r a).x ≠ .within ∧ (zone r b).x ≠ (zone r a).x) := by
  simp only [Zone.isInside, Zone.sharesSide, decide_eq_false_iff_not] at hout hshare
  tauto

variable [IsStrictOrderedRing α]

omit [IsStrictOrderedRing α] in
/-- A part that begins at a share before which nothing is visible. -/
lemma keeps_of_forall_le {s : α} (hs : s ∈ Set.Icc 0 1) (hc : c = a.along b s)
    (hvisible : ∀ u ∈ visibleShares r a b, s ≤ u) : Keeps r a b c b :=
  ⟨s, 1, hs.1, hs.2, le_rfl, hc, (along_one a b).symm, fun u hu => ⟨hvisible u hu, hu.1.2⟩⟩

lemma keeps_cutPoint (hx : r.x0 ≤ r.x1) (hy : r.y0 ≤ r.y1) (hout : (zone r a).isInside = false)
    (hshare : (zone r a).sharesSide (zone r b) = false) :
    Keeps r a b (cutPoint r a b (zone r a)) b := by
  rcases direction_of_cut hout hshare with ⟨hya, hyb⟩ | ⟨hya, hxa, hxb⟩
  · obtain ⟨hbound, hne, -⟩ := bound_of_not_within hy hya hyb
    rw [cutPoint_of_y r a b hya]
    exact keeps_of_forall_le (share_mem_Icc hbound) (crossingY_eq_along hne _)
      fun u hu => share_le_of_within hy hya hyb hu.2.2
  · obtain ⟨hbound, hne, -⟩ := bound_of_not_within hx hxa hxb
    rw [cutPoint_of_x r a b hya hxa]
    exact keeps_of_forall_le (share_mem_Icc hbound) (crossingX_eq_along hne _)
      fun u hu => share_le_of_within hx hxa hxb hu.2.1

/-- A step of the loop: nothing visible is cut off. -/
lemma keeps_of_cut (hx : r.x0 ≤ r.x1) (hy : r.y0 ≤ r.y1) (h : verdict r a b = .cut c d) :
    Keeps r a b c d := by
  rcases cut_cases h with ⟨rfl, rfl, hout, hshare⟩ | ⟨rfl, rfl, hout, hshare⟩
  · exact keeps_cutPoint hx hy hout hshare
  · rw [(cutPoint_of_outside hx hy hout hshare).2]
    exact (keeps_cutPoint hx hy hout hshare).swap

/-- Nothing between two points beyond one side of the rectangle is visible. -/
lemma visibleShares_eq_empty_of_hidden (hx : r.x0 ≤ r.x1) (hy : r.y0 ≤ r.y1)
    (h : verdict r a b = .hidden) : visibleShares r a b = ∅ := by
  have hshare : (zone r a).sharesSide (zone r b) = true := by
    unfold verdict at h
    simp only at h
    split_ifs at h with hinside hshare
    exact hshare
  rw [Set.eq_empty_iff_forall_notMem]
  rintro t ⟨ht, hcontains⟩
  simp only [Zone.sharesSide, decide_eq_true_eq] at hshare
  rcases hshare with ⟨heq, hne⟩ | ⟨heq, hne⟩
  · exact not_within_of_side_eq hx hne heq ht hcontains.1
  · exact not_within_of_side_eq hy hne heq ht hcontains.2

/-! ### The loop -/

lemma keeps_of_segmentWithin? (hx : r.x0 ≤ r.x1) (hy : r.y0 ≤ r.y1) {cuts : Nat}
    (h : segmentWithin? r cuts a b = some (some (c, d))) : Keeps r a b c d := by
  fun_induction segmentWithin? r cuts a b with
  | case1 =>
    cases h
    exact .refl r c d
  | case2 => cases h
  | case3 => cases h
  | case4 a b e f cuts hverdict ih => exact (keeps_of_cut hx hy hverdict).trans (ih h)

lemma visibleShares_eq_empty_of_segmentWithin? (hx : r.x0 ≤ r.x1) (hy : r.y0 ≤ r.y1) {cuts : Nat}
    (h : segmentWithin? r cuts a b = some none) : visibleShares r a b = ∅ := by
  fun_induction segmentWithin? r cuts a b with
  | case1 => cases h
  | case2 a b cuts hverdict => exact visibleShares_eq_empty_of_hidden hx hy hverdict
  | case3 => cases h
  | case4 a b e f cuts hverdict ih =>
    exact (keeps_of_cut hx hy hverdict).visibleShares_eq_empty (ih h)

/-- The loop ends with the visible part, or with nothing if there is none. -/
theorem segment?_eq_some (hx : r.x0 ≤ r.x1) (hy : r.y0 ≤ r.y1)
    (h : segment? r a b = some (some (c, d))) :
    ∃ s t, s ≤ t ∧ c = a.along b s ∧ d = a.along b t ∧ visibleShares r a b = Set.Icc s t := by
  obtain ⟨hc, hd⟩ := contains_of_segment? h
  obtain ⟨cuts, hcuts⟩ := segment?_eq_some_iff.mp h
  exact (keeps_of_segmentWithin? hx hy hcuts).visibleShares_eq hc hd

theorem segment?_eq_some_none_iff (hx : r.x0 ≤ r.x1) (hy : r.y0 ≤ r.y1) :
    segment? r a b = some none ↔ visibleShares r a b = ∅ := by
  obtain ⟨part, hpart⟩ := Option.isSome_iff_exists.mp (isSome_segment? hx hy a b)
  rw [hpart, Option.some.injEq]
  cases part with
  | none =>
    obtain ⟨cuts, hcuts⟩ := segment?_eq_some_iff.mp hpart
    simp [visibleShares_eq_empty_of_segmentWithin? hx hy hcuts]
  | some cd =>
    obtain ⟨s, t, hst, -, -, heq⟩ := segment?_eq_some hx hy hpart
    simp [heq, (Set.nonempty_Icc.mpr hst).ne_empty]

/-- An end that is visible stays. -/
lemma fst_of_segment? (hx : r.x0 ≤ r.x1) (hy : r.y0 ≤ r.y1)
    (h : segment? r a b = some (some (c, d))) (ha : r.Contains a) : c = a := by
  obtain ⟨s, t, hst, rfl, -, hshares⟩ := segment?_eq_some hx hy h
  have hs : s ∈ visibleShares r a b := hshares ▸ Set.left_mem_Icc.mpr hst
  have hzero : 0 ∈ visibleShares r a b := ⟨⟨le_rfl, zero_le_one⟩, by rwa [along_zero]⟩
  rw [hshares] at hzero
  rw [le_antisymm hzero.1 hs.1.1, along_zero]

lemma snd_of_segment? (hx : r.x0 ≤ r.x1) (hy : r.y0 ≤ r.y1)
    (h : segment? r a b = some (some (c, d))) (hb : r.Contains b) : d = b := by
  obtain ⟨s, t, hst, -, rfl, hshares⟩ := segment?_eq_some hx hy h
  have ht : t ∈ visibleShares r a b := hshares ▸ Set.right_mem_Icc.mpr hst
  have hone : 1 ∈ visibleShares r a b := ⟨⟨zero_le_one, le_rfl⟩, by rwa [along_one]⟩
  rw [hshares] at hone
  rw [le_antisymm ht.1.2 hone.2, along_one]

omit [IsStrictOrderedRing α] in
/-- What is visible of a segment is at its visible shares. -/
lemma sep_contains_eq_image (r : Rect α) (a b : Point α) :
    {p ∈ a.segment b | r.Contains p} = a.along b '' visibleShares r a b := by
  ext p
  constructor
  · rintro ⟨⟨t, ht, rfl⟩, hcontains⟩
    exact ⟨t, ⟨ht, hcontains⟩, rfl⟩
  · rintro ⟨t, ⟨ht, hcontains⟩, rfl⟩
    exact ⟨⟨t, ht, rfl⟩, hcontains⟩

/-! ### No division by zero -/

section Division

omit [IsStrictOrderedRing α]

variable {div : α → α → α}

omit [LinearOrder α] in
/-- The crossing of a line that is not parallel to the side is the same whatever division by zero
gives. -/
lemma crossingX_congr_div (hdiv : ∀ x y, y ≠ 0 → div x y = x / y) (hne : a.x ≠ b.x) (x : α) :
    @crossingX α _ _ _ ⟨div⟩ a b x = crossingX a b x := by
  unfold crossingX
  congr 2
  exact hdiv _ _ (sub_ne_zero.mpr hne.symm)

omit [LinearOrder α] in
lemma crossingY_congr_div (hdiv : ∀ x y, y ≠ 0 → div x y = x / y) (hne : a.y ≠ b.y) (y : α) :
    @crossingY α _ _ _ ⟨div⟩ a b y = crossingY a b y := by
  unfold crossingY
  congr 2
  exact hdiv _ _ (sub_ne_zero.mpr hne.symm)

omit [LinearOrder α] in
lemma cutPoint_congr_div (hdiv : ∀ x y, y ≠ 0 → div x y = x / y) {z : Zone}
    (hy : z.y ≠ .within → a.y ≠ b.y) (hx : z.y = .within → a.x ≠ b.x) :
    @cutPoint α _ _ _ ⟨div⟩ r a b z = cutPoint r a b z := by
  obtain ⟨sx, sy⟩ := z
  cases sy with
  | below => exact crossingY_congr_div hdiv (hy (by simp)) r.y0
  | within => cases sx <;> exact crossingX_congr_div hdiv (hx rfl) _
  | above => exact crossingY_congr_div hdiv (hy (by simp)) r.y1

omit [Field α] in
/-- An end that is cut is apart from the other end in the direction of the cut. -/
lemma apart_of_outside (hout : (zone r a).isInside = false)
    (hshare : (zone r a).sharesSide (zone r b) = false) :
    ((zone r a).y ≠ .within → a.y ≠ b.y) ∧ ((zone r a).y = .within → a.x ≠ b.x) := by
  rcases direction_of_cut hout hshare with ⟨hya, hyb⟩ | ⟨hya, hxa, hxb⟩
  · exact ⟨fun _ heq => hyb (by rw [zone, zone, heq]), fun h => absurd h hya⟩
  · exact ⟨fun h => absurd hya h, fun _ heq => hxb (by rw [zone, zone, heq])⟩

/-- A step of the loop does not depend on what division by zero gives. -/
lemma verdict_congr_div (hdiv : ∀ x y, y ≠ 0 → div x y = x / y) (a b : Point α) :
    @verdict α _ _ _ ⟨div⟩ _ _ r a b = verdict r a b := by
  unfold verdict
  simp only
  split_ifs with hinside hshare ha
  · rfl
  · rfl
  · have hb : (zone r b).isInside = false := by simpa [ha] using hinside
    have hshare : (zone r b).sharesSide (zone r a) = false := by
      rw [Zone.sharesSide_comm]
      simpa using hshare
    obtain ⟨hy, hx⟩ := apart_of_outside hb hshare
    rw [cutPoint_congr_div hdiv (fun h => (hy h).symm) fun h => (hx h).symm]
  · obtain ⟨hy, hx⟩ := apart_of_outside (by simpa using ha) (by simpa using hshare)
    rw [cutPoint_congr_div hdiv hy hx]

end Division

/-- Clipping a segment is exact. The loop ends after four cuts at most and divides by zero nowhere,
which is to say that no step of it depends on what division by zero gives. It finds nothing if and
only if no point of the segment is visible; otherwise it finds the first and the last visible point
on the way, and all that is visible lies between them. -/
theorem segment?_exact (hx : r.x0 ≤ r.x1) (hy : r.y0 ≤ r.y1) (a b : Point α) :
    ∃ part, segment? r a b = some part ∧ segmentWithin? r 4 a b = some part ∧
    (∀ div : α → α → α, (∀ x y, y ≠ 0 → div x y = x / y) →
      ∀ c d, @verdict α _ _ _ ⟨div⟩ _ _ r c d = verdict r c d) ∧
    (part = none ↔ ∀ p ∈ a.segment b, ¬ r.Contains p) ∧
    ∀ c d, part = some (c, d) →
      (∃ s t, IsLeast (visibleShares r a b) s ∧ IsGreatest (visibleShares r a b) t ∧
        c = a.along b s ∧ d = a.along b t) ∧
      c.segment d = {p ∈ a.segment b | r.Contains p} ∧
      (r.Contains a → c = a) ∧ (r.Contains b → d = b) := by
  obtain ⟨part, hpart⟩ := Option.isSome_iff_exists.mp (isSome_segment? hx hy a b)
  refine ⟨part, hpart, (segment?_eq_four hx hy a b).symm.trans hpart,
    fun div hdiv c d => verdict_congr_div hdiv c d, ?_, ?_⟩
  · rw [← Option.some.injEq, ← hpart, segment?_eq_some_none_iff hx hy,
      ← Set.image_eq_empty (f := a.along b), ← sep_contains_eq_image,
      Set.sep_eq_empty_iff_mem_false]
  · rintro c d rfl
    obtain ⟨s, t, hst, rfl, rfl, hshares⟩ := segment?_eq_some hx hy hpart
    refine ⟨⟨s, t, ?_, ?_, rfl, rfl⟩, ?_, ?_, ?_⟩
    · rw [hshares]
      exact isLeast_Icc hst
    · rw [hshares]
      exact isGreatest_Icc hst
    · rw [sep_contains_eq_image, hshares, along_image_Icc a b hst]
    · exact fst_of_segment? hx hy hpart
    · exact snd_of_segment? hx hy hpart

end Cuts

/-- A square to clip to. -/
def square : Rect ℚ := ⟨0, 0, 10, 10⟩

/-- A segment that all four sides of the square cut. -/
theorem segment?_exact_slanting :
    segmentWithin? square 3 ⟨-20, 15⟩ ⟨30, -5⟩ = none ∧
    segment? square ⟨-20, 15⟩ ⟨30, -5⟩ = some (some (⟨0, 7⟩, ⟨10, 3⟩)) ∧
    Point.segment ⟨0, 7⟩ ⟨10, 3⟩ = {p ∈ Point.segment ⟨-20, 15⟩ ⟨30, -5⟩ | square.Contains p} := by
  have hfour : segmentWithin? square 4 ⟨-20, 15⟩ ⟨30, -5⟩ = some (some (⟨0, 7⟩, ⟨10, 3⟩)) := by
    decide +kernel
  obtain ⟨part, hsegment, hwithin, -, -, hpart⟩ := segment?_exact (r := square) (by decide)
    (by decide) ⟨-20, 15⟩ ⟨30, -5⟩
  obtain rfl := Option.some.inj (hwithin.symm.trans hfour)
  exact ⟨by decide +kernel, hsegment, (hpart _ _ rfl).2.1⟩

end Clip

end MapStyle
