import MapStyle.Geometry.Mercator
import MapStyle.Proofs.CanvasBounds
import Mathlib.Analysis.SpecialFunctions.Arsinh
import Mathlib.Analysis.SpecialFunctions.Trigonometric.Arctan
import Mathlib.Analysis.SpecialFunctions.Pow.Real
import Mathlib.Analysis.Complex.ExponentialBounds

/-!
# Screen positions

The projection of a view with exact numbers. Projecting to the screen and back are inverse up to
the latitude at which the world ends, as the logarithm of the tangent of half an angle and the
hyperbolic sine lead to the tangent of the angle. So an export of what a view shows is as large as
the view, and what is drawn lies where it is on the screen.
-/

namespace MapStyle

open Drawing Real

noncomputable instance : ElementaryFunctions ℝ where
  pi := π
  exp2 x := 2.0 ^ x
  tan := tan
  atan := arctan
  sinh := sinh
  log := log

noncomputable instance : Hypot ℝ := ⟨fun a b => √(a * a + b * b)⟩

noncomputable instance : OfDouble ℝ := ⟨fun x => (ofDouble x : ℚ)⟩

namespace Mercator

/-! ### Latitudes -/

/-- The latitude in radians, stretched by the projection. -/
noncomputable def stretched (φ : ℝ) : ℝ :=
  log (tan (π / 4.0 + φ / 2.0))

lemma stretched_eq (φ : ℝ) : stretched φ = log (tan (π / 4 + φ / 2)) := by
  norm_num [stretched]

lemma sinh_stretched {φ : ℝ} (h : |φ| < π / 2) : sinh (stretched φ) = tan φ := by
  obtain ⟨hlow, hhigh⟩ := abs_lt.mp h
  have hpos : 0 < tan (π / 4 + φ / 2) := tan_pos_of_pos_of_lt_pi_div_two (by linarith) (by linarith)
  have hcos : 0 < cos (π / 4 + φ / 2) := cos_pos_of_mem_Ioo ⟨by linarith, by linarith⟩
  have hsin : 0 < sin (π / 4 + φ / 2) := sin_pos_of_pos_of_lt_pi (by linarith) (by linarith)
  have hdouble : φ = 2 * (π / 4 + φ / 2) - π / 2 := by ring
  rw [stretched_eq, sinh_log hpos]
  nth_rewrite 3 [hdouble]
  rw [tan_eq_sin_div_cos (2 * (π / 4 + φ / 2) - π / 2), sin_sub_pi_div_two, cos_sub_pi_div_two,
    sin_two_mul, cos_two_mul', tan_eq_sin_div_cos]
  field_simp
  ring

lemma arctan_sinh_stretched {φ : ℝ} (h : |φ| < π / 2) : arctan (sinh (stretched φ)) = φ := by
  obtain ⟨hlow, hhigh⟩ := abs_lt.mp h
  rw [sinh_stretched h, arctan_tan hlow hhigh]

lemma stretched_arctan_sinh (y : ℝ) : stretched (arctan (sinh y)) = y := by
  have hangle : |arctan (sinh y)| < π / 2 :=
    abs_lt.mpr ⟨neg_pi_div_two_lt_arctan _, arctan_lt_pi_div_two _⟩
  apply sinh_injective
  rw [sinh_stretched hangle, tan_arctan]

lemma stretched_mono {φ ψ : ℝ} (hφ : |φ| < π / 2) (hψ : |ψ| < π / 2) (h : φ ≤ ψ) :
    stretched φ ≤ stretched ψ := by
  rw [← sinh_le_sinh, sinh_stretched hφ, sinh_stretched hψ]
  obtain ⟨hlow, hhigh⟩ := abs_lt.mp hφ
  exact strictMonoOn_tan.monotoneOn ⟨hlow, hhigh⟩ (abs_lt.mp hψ) h

lemma toDegrees_toRadians (a : ℝ) : toDegrees (toRadians a) = a := by
  have hpi := pi_ne_zero
  unfold toDegrees toRadians
  simp only [ElementaryFunctions.pi]
  field_simp

lemma toRadians_toDegrees (a : ℝ) : toRadians (toDegrees a) = a := by
  have hpi := pi_ne_zero
  unfold toDegrees toRadians
  simp only [ElementaryFunctions.pi]
  field_simp

lemma toRadians_mono {a b : ℝ} (h : a ≤ b) : toRadians a ≤ toRadians b :=
  mul_le_mul_of_nonneg_right h (div_nonneg pi_pos.le (by norm_num))

lemma toDegrees_mono {a b : ℝ} (h : a ≤ b) : toDegrees a ≤ toDegrees b :=
  mul_le_mul_of_nonneg_right h (div_nonneg (by norm_num) pi_pos.le)

/-- The world ends before the poles. -/
lemma abs_toRadians_lt {a : ℝ} (h : |a| ≤ maxLatitude) : |toRadians a| < π / 2 := by
  have hmax : |a| < 90 := h.trans_lt (by norm_num [maxLatitude])
  have hpi := pi_pos
  rw [toRadians, abs_mul]
  simp only [ElementaryFunctions.pi]
  rw [abs_of_pos (by positivity : (0 : ℝ) < π / 180.0)]
  calc |a| * (π / 180.0) < 90 * (π / 180.0) := by gcongr
    _ = π / 2 := by norm_num; ring

/-- The latitude that is drawn for a latitude. -/
noncomputable abbrev drawn (a : ℝ) : ℝ :=
  clamp (-maxLatitude) maxLatitude a

lemma drawn_eq_max_min (a : ℝ) : drawn a = min maxLatitude (max (-maxLatitude) a) := by
  unfold drawn clamp
  grind

lemma drawn_of_abs_le {a : ℝ} (h : |a| ≤ maxLatitude) : drawn a = a := by
  obtain ⟨hlow, hhigh⟩ := abs_le.mp h
  rw [drawn_eq_max_min, max_eq_right hlow, min_eq_right hhigh]

lemma abs_drawn_le (a : ℝ) : |drawn a| ≤ maxLatitude := by
  have hmax : (0 : ℝ) ≤ maxLatitude := by norm_num [maxLatitude]
  rw [drawn_eq_max_min, abs_le]
  exact ⟨le_min (by linarith) (le_max_left _ _), min_le_left _ _⟩

lemma drawn_mono {a b : ℝ} (h : a ≤ b) : drawn a ≤ drawn b := by
  rw [drawn_eq_max_min, drawn_eq_max_min]
  exact min_le_min_left _ (max_le_max_left _ h)

end Mercator

open Mercator

lemma Point.shift_relativeTo_shift (a b p : Point ℝ) :
    a.shift ((b.shift (p.relativeTo a)).relativeTo b) = p := by
  obtain ⟨x, y⟩ := p
  simp [shift, relativeTo]

/-! ### World pixels -/

namespace View

variable (v : View ℝ)

lemma worldSize_pos : 0 < v.worldSize := by
  have hpow : (0 : ℝ) < 2.0 ^ v.zoom := rpow_pos_of_pos (by norm_num) _
  have htile : (0 : ℝ) < tileSize := by norm_num [tileSize]
  exact mul_pos htile hpow

/-- The place at a point of the world, in world pixels. -/
noncomputable def placeAt (p : Point ℝ) : Point ℝ :=
  ⟨p.x / v.worldSize * 360.0 - 180.0,
    toDegrees (arctan (sinh (π * (1.0 - 2.0 * p.y / v.worldSize))))⟩

lemma toWorld_eq (p : Point ℝ) : v.toWorld p =
    ⟨(p.x + 180) / 360 * v.worldSize,
      (1 / 2 - stretched (toRadians (drawn p.y)) / (2 * π)) * v.worldSize⟩ := by
  unfold toWorld stretched
  simp only [ElementaryFunctions.pi, ElementaryFunctions.tan, ElementaryFunctions.log]
  norm_num

lemma placeAt_toWorld {p : Point ℝ} (h : |p.y| ≤ maxLatitude) : v.placeAt (v.toWorld p) = p := by
  have hworld := v.worldSize_pos.ne'
  have hpi := pi_ne_zero
  have hx : (p.x + 180) / 360 * v.worldSize / v.worldSize * 360.0 - 180.0 = p.x := by
    field_simp
    norm_num
    ring
  have hy : π * (1.0 - 2.0 * ((1 / 2 - stretched (toRadians p.y) / (2 * π)) * v.worldSize) /
      v.worldSize) = stretched (toRadians p.y) := by
    norm_num
    field_simp
    ring
  rw [toWorld_eq, placeAt, drawn_of_abs_le h]
  simp only [hx, hy, arctan_sinh_stretched (abs_toRadians_lt h), toDegrees_toRadians]

lemma toWorld_placeAt {p : Point ℝ} (h : |(v.placeAt p).y| ≤ maxLatitude) :
    v.toWorld (v.placeAt p) = p := by
  have hworld := v.worldSize_pos.ne'
  have hpi := pi_ne_zero
  rw [toWorld_eq, drawn_of_abs_le h]
  simp only [placeAt, toRadians_toDegrees, stretched_arctan_sinh]
  obtain ⟨x, y⟩ := p
  congr 1
  · field_simp
    norm_num
  · field_simp
    norm_num

lemma placeAt_x_mono {p q : Point ℝ} (h : p.x ≤ q.x) : (v.placeAt p).x ≤ (v.placeAt q).x := by
  have hworld := v.worldSize_pos
  simp only [placeAt]
  gcongr

lemma placeAt_y_antitone {p q : Point ℝ} (h : p.y ≤ q.y) : (v.placeAt q).y ≤ (v.placeAt p).y := by
  have hworld := v.worldSize_pos
  apply toDegrees_mono
  apply arctan_strictMono.monotone
  rw [sinh_le_sinh]
  gcongr

lemma toWorld_x_mono {p q : Point ℝ} (h : p.x ≤ q.x) : (v.toWorld p).x ≤ (v.toWorld q).x := by
  have hworld := v.worldSize_pos
  rw [toWorld_eq, toWorld_eq]
  simp only
  gcongr

lemma toWorld_y_antitone {p q : Point ℝ} (h : p.y ≤ q.y) : (v.toWorld q).y ≤ (v.toWorld p).y := by
  have hworld := v.worldSize_pos
  have hstretched : stretched (toRadians (drawn p.y)) ≤ stretched (toRadians (drawn q.y)) :=
    stretched_mono (abs_toRadians_lt (abs_drawn_le _)) (abs_toRadians_lt (abs_drawn_le _))
      (toRadians_mono (drawn_mono h))
  rw [toWorld_eq, toWorld_eq]
  simp only
  gcongr

/-! ### The screen -/

lemma project_eq (p : Point ℝ) :
    v.project p = v.screenCenter.shift ((v.toWorld p).relativeTo (v.toWorld v.center)) := rfl

lemma unproject_eq (s : Point ℝ) :
    v.unproject s = v.placeAt ((v.toWorld v.center).shift (s.relativeTo v.screenCenter)) := rfl

theorem unproject_project {p : Point ℝ} (h : |p.y| ≤ maxLatitude) :
    v.unproject (v.project p) = p := by
  rw [unproject_eq, project_eq, Point.shift_relativeTo_shift, placeAt_toWorld v h]

theorem project_unproject {s : Point ℝ} (h : |(v.unproject s).y| ≤ maxLatitude) :
    v.project (v.unproject s) = s := by
  rw [unproject_eq] at h
  rw [unproject_eq, project_eq, toWorld_placeAt v h, Point.shift_relativeTo_shift]

lemma bounds_x_le (h : 0 ≤ v.size.width) : v.bounds.x0 ≤ v.bounds.x1 := by
  apply placeAt_x_mono
  simp only [Point.shift, Point.relativeTo]
  gcongr
  norm_num
  exact h

lemma bounds_y_le (h : 0 ≤ v.size.height) : v.bounds.y0 ≤ v.bounds.y1 := by
  apply placeAt_y_antitone
  simp only [Point.shift, Point.relativeTo]
  gcongr
  norm_num
  exact h

/-- What a view shows, for an export. -/
noncomputable def canvas : Canvas ℝ :=
  ⟨v.project, v.bounds⟩

lemma isNorthUp_canvas : v.canvas.IsNorthUp := by
  constructor
  · intro p q h
    exact add_le_add_right (sub_le_sub_right (v.toWorld_x_mono h) _) _
  · intro p q h
    exact add_le_add_right (sub_le_sub_right (v.toWorld_y_antitone h) _) _

lemma topLeft_canvas (h : |v.bounds.y1| ≤ maxLatitude) : v.canvas.topLeft = ⟨0, 0⟩ := by
  have hcorner : v.canvas.topLeft = v.project (v.unproject ⟨0.0, 0.0⟩) := rfl
  rw [hcorner, v.project_unproject h]
  norm_num

lemma bottomRight_canvas (h : |v.bounds.y0| ≤ maxLatitude) :
    v.canvas.bottomRight = ⟨v.size.width, v.size.height⟩ :=
  v.project_unproject (s := ⟨v.size.width, v.size.height⟩) h

lemma place_canvas (h : |v.bounds.y1| ≤ maxLatitude) (p : Point ℝ) :
    v.canvas.place p = v.project p := by
  have hplace : v.canvas.place p = (v.project p).relativeTo v.canvas.topLeft := rfl
  rw [hplace, v.topLeft_canvas h, Point.relativeTo, sub_zero, sub_zero]

lemma size_canvas (hwidth : 0 ≤ v.size.width) (hheight : 0 ≤ v.size.height)
    (hsouth : |v.bounds.y0| ≤ maxLatitude) (hnorth : |v.bounds.y1| ≤ maxLatitude) :
    v.canvas.size = v.size := by
  rw [Canvas.size, v.topLeft_canvas hnorth, v.bottomRight_canvas hsouth]
  simp only [Point.relativeTo, sub_zero]
  rw [Canvas.magnitude_of_nonneg hwidth, Canvas.magnitude_of_nonneg hheight]

/-- Latitudes between others at which the world has not ended. -/
lemma abs_le_of_contains (hsouth : |v.bounds.y0| ≤ maxLatitude)
    (hnorth : |v.bounds.y1| ≤ maxLatitude) {p : Point ℝ} (h : v.bounds.Contains p) :
    |p.y| ≤ maxLatitude :=
  abs_le.mpr ⟨(abs_le.mp hsouth).1.trans h.2.1, h.2.2.trans (abs_le.mp hnorth).2⟩

/-- Projecting and its inverse undo each other on latitudes of the world, whatever the view. If the
corners of a view have such latitudes, its bounds are in order, an export of them ends and is as
large as the screen, and what lies in them is drawn where it is on the screen. -/
theorem positions_kept (v : View ℝ) :
    (∀ p : Point ℝ, |p.y| ≤ maxLatitude → v.unproject (v.project p) = p) ∧
    (∀ s : Point ℝ, |(v.unproject s).y| ≤ maxLatitude → v.project (v.unproject s) = s) ∧
    (0 < v.size.width → 0 < v.size.height →
      |v.bounds.y0| ≤ maxLatitude → |v.bounds.y1| ≤ maxLatitude →
      v.bounds.x0 ≤ v.bounds.x1 ∧ v.bounds.y0 ≤ v.bounds.y1 ∧
      (∀ p, v.bounds.Contains p →
        v.canvas.place p = v.project p ∧ v.unproject (v.canvas.place p) = p ∧
        (v.project p).x ∈ Set.Icc 0 v.size.width ∧ (v.project p).y ∈ Set.Icc 0 v.size.height) ∧
      ∀ (e : Exporter) (d : Definition) (features : List (MapFeature ℝ)),
        ∃ x, e.run? v.canvas d features = some x ∧ x.drawing.size = v.size ∧
        ∃ layers, x.drawing.group? "Features" = some layers ∧
          ∀ p ∈ pathsOf layers, ∀ vertex ∈ p.vertices,
            ∃ q, v.bounds.Contains q ∧ vertex = v.project q) := by
  refine ⟨fun p hp => v.unproject_project hp, fun s hs => v.project_unproject hs, ?_⟩
  intro hwidth hheight hsouth hnorth
  have hsize := v.size_canvas hwidth.le hheight.le hsouth hnorth
  have hlongitudes := v.bounds_x_le hwidth.le
  have hlatitudes := v.bounds_y_le hheight.le
  refine ⟨hlongitudes, hlatitudes, ?_, ?_⟩
  · intro p hp
    have hplace := v.place_canvas hnorth p
    obtain ⟨hx, hy⟩ := Canvas.place_mem v.isNorthUp_canvas hp
    rw [hsize, hplace] at hx hy
    refine ⟨hplace, ?_, hx, hy⟩
    rw [hplace, v.unproject_project (v.abs_le_of_contains hsouth hnorth hp)]
  · intro e d features
    obtain ⟨x, h⟩ := e.exists_run? (c := v.canvas) hlongitudes hlatitudes d features
    obtain ⟨layers, hlayers, hvertices⟩ := Exporter.exists_contains_of_mem_vertices h
    refine ⟨x, h, (Exporter.size_of_run? h).trans hsize, layers, hlayers, ?_⟩
    intro p hp vertex hvertex
    obtain ⟨q, hq, rfl⟩ := hvertices p hp vertex hvertex
    exact ⟨q, hq, v.place_canvas hnorth q⟩

/-- A view of the Gulf of Guinea. -/
noncomputable def guinea : View ℝ := ⟨⟨0, 0⟩, 1, ⟨200, 100⟩⟩

lemma worldSize_guinea : guinea.worldSize = 1024 := by
  have hexp : (ElementaryFunctions.exp2 1 : ℝ) = 2 := (rpow_one 2.0).trans (by norm_num)
  rw [worldSize, guinea, hexp]
  norm_num [tileSize]

lemma unproject_guinea (s : Point ℝ) : (guinea.unproject s).y =
    toDegrees (arctan (sinh (π * (50 - s.y) / 512))) := by
  have hcenter : stretched (toRadians (drawn 0)) = 0 := by
    have hzero : |(0 : ℝ)| ≤ maxLatitude := by norm_num [maxLatitude]
    rw [drawn_of_abs_le hzero]
    simp [stretched_eq, toRadians]
  rw [unproject_eq, placeAt, toWorld_eq, worldSize_guinea]
  simp only [guinea, hcenter, Point.shift, Point.relativeTo, screenCenter]
  congr 3
  norm_num
  ring

lemma abs_latitude_le {y : ℝ} (h : |y| ≤ log 2) :
    |toDegrees (arctan (sinh y))| ≤ maxLatitude := by
  obtain ⟨hlow, hhigh⟩ := abs_le.mp h
  have htwo : sinh (log 2) ≤ 1 := by
    rw [sinh_log two_pos]
    norm_num
  have hup : arctan (sinh y) ≤ π / 4 := by
    rw [← arctan_one]
    exact arctan_strictMono.monotone ((sinh_le_sinh.mpr hhigh).trans htwo)
  have hdown : -(π / 4) ≤ arctan (sinh y) := by
    rw [← arctan_one, ← arctan_neg]
    apply arctan_strictMono.monotone
    have hsinh := sinh_le_sinh.mpr hlow
    rw [sinh_neg] at hsinh
    linarith
  have hpi := pi_pos
  have hscale : (0 : ℝ) < 180.0 / π := div_pos (by norm_num) hpi
  rw [toDegrees, abs_mul]
  simp only [ElementaryFunctions.pi]
  calc |arctan (sinh y)| * |180.0 / π| ≤ π / 4 * (180.0 / π) := by
        rw [abs_of_pos hscale]
        exact mul_le_mul_of_nonneg_right (abs_le.mpr ⟨hdown, hup⟩) hscale.le
    _ = 45 := by
        field_simp
        norm_num
    _ ≤ maxLatitude := by norm_num [maxLatitude]

lemma abs_unproject_guinea_le {s : Point ℝ} (h : |50 - s.y| ≤ 50) :
    |(guinea.unproject s).y| ≤ maxLatitude := by
  rw [unproject_guinea]
  apply abs_latitude_le
  have hpi := pi_pos
  rw [abs_div, abs_mul, abs_of_pos hpi]
  calc π * |50 - s.y| / |512| ≤ 4 * 50 / 512 := by
        rw [abs_of_pos (by norm_num : (0 : ℝ) < 512)]
        gcongr
        exact pi_le_four
    _ ≤ log 2 := by linarith [log_two_gt_d9]

theorem positions_kept_guinea :
    (|(4 : ℝ)| ≤ maxLatitude ∧ guinea.unproject (guinea.project ⟨9, 4⟩) = ⟨9, 4⟩) ∧
    (|(guinea.unproject ⟨20, 30⟩).y| ≤ maxLatitude ∧
      guinea.project (guinea.unproject ⟨20, 30⟩) = ⟨20, 30⟩) ∧
    (0 < guinea.size.width ∧ 0 < guinea.size.height ∧
      |guinea.bounds.y0| ≤ maxLatitude ∧ |guinea.bounds.y1| ≤ maxLatitude) ∧
    guinea.bounds.x0 ≤ guinea.bounds.x1 ∧ guinea.bounds.y0 ≤ guinea.bounds.y1 ∧
    ∃ x, Exporter.straightening.run? guinea.canvas Renderer.overlappingStyle
      [.bare (.lineString [[-9, 4], [9, 4]])] = some x ∧ x.drawing.size = ⟨200, 100⟩ := by
  have hinside : |(4 : ℝ)| ≤ maxLatitude := by norm_num [maxLatitude]
  have hseen : |(guinea.unproject ⟨20, 30⟩).y| ≤ maxLatitude :=
    abs_unproject_guinea_le (by norm_num)
  have hwidth : 0 < guinea.size.width := by norm_num [guinea]
  have hheight : 0 < guinea.size.height := by norm_num [guinea]
  have hsouth : |guinea.bounds.y0| ≤ maxLatitude := abs_unproject_guinea_le (by norm_num [guinea])
  have hnorth : |guinea.bounds.y1| ≤ maxLatitude := abs_unproject_guinea_le (by norm_num)
  obtain ⟨hback, hforth, hexport⟩ := positions_kept guinea
  obtain ⟨hx, hy, -, hrun⟩ := hexport hwidth hheight hsouth hnorth
  obtain ⟨x, hrun, hsize, -⟩ := hrun Exporter.straightening Renderer.overlappingStyle
    [.bare (.lineString [[-9, 4], [9, 4]])]
  exact ⟨⟨hinside, hback ⟨9, 4⟩ hinside⟩, ⟨hseen, hforth ⟨20, 30⟩ hseen⟩,
    ⟨hwidth, hheight, hsouth, hnorth⟩, hx, hy, x, hrun, hsize⟩

end View

end MapStyle
