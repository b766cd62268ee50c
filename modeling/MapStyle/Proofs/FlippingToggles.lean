import MapStyle.Proofs.Edits

/-!
# Toggles that flip

A toggle takes out one saved point of interest with its identity. So it flips whether the identity
is saved, unless it is saved more than once. No edit saves an identity twice, but a text may, and
each toggle then takes out one of them until one is left.
-/

namespace MapStyle

/-- Whether a toggle changes if its identity is saved. -/
def Definition.Flips (d : Definition) (poi : Poi) : Prop :=
  poi.id ∈ (d.togglePoi poi).pois.map Poi.id ↔ poi.id ∉ d.pois.map Poi.id

namespace Definition

/-! ### One toggle -/

lemma flips_iff (d : Definition) (poi : Poi) :
    d.Flips poi ↔ (d.pois.map Poi.id).count poi.id ≤ 1 := by
  have htoggle : (d.togglePoi poi).pois = togglePois d.pois poi := rfl
  rw [Flips, htoggle, ← List.count_pos_iff, ← List.count_pos_iff, count_togglePois, if_pos rfl,
    toggleCount]
  split <;> omega

lemma filter_togglePoi (d : Definition) (poi : Poi) :
    (d.togglePoi poi).pois.filter (fun p => p.id ≠ poi.id) =
      d.pois.filter fun p => p.id ≠ poi.id :=
  filter_togglePois fun p hp => by simp [hp]

/-! ### Runs -/

/-- Toggles leave an identity saved once at most unless it is saved too often for them. -/
lemma iterate_toggleCount_le_one_iff (n k : Nat) : toggleCount^[k] n ≤ 1 ↔ n ≤ k + 1 := by
  rw [iterate_toggleCount]
  split <;> omega

end Definition

namespace Edit

lemma pois_attempt (d : Definition) (e : Edit) :
    (attempt d e).pois = e.toggles.foldl Definition.togglePois d.pois := by
  unfold attempt
  split
  · next happly => exact pois_apply happly
  · next happly =>
    -- only toggles save points of interest, and they never fail
    cases e with
    | toggle poi => cases happly
    | _ => rfl

lemma pois_attemptAll (d : Definition) (edits : List Edit) :
    (attemptAll d edits).pois = (edits.flatMap toggles).foldl Definition.togglePois d.pois := by
  unfold attemptAll
  induction edits generalizing d with
  | nil => rfl
  | cons e edits ih =>
    rw [List.foldl_cons, ih, pois_attempt, List.flatMap_cons, List.foldl_append]

/-- Which toggles flip. After any run of edits a toggle flips whether its identity is saved exactly
if at the start the identity is saved at most once more than the run toggles it; points of interest
with other identities stay as they are, in order. So all toggles flip exactly if no identity is
saved twice at the start. -/
theorem flips_attemptAll_iff (start : Definition) :
    (∀ (edits : List Edit) (poi : Poi),
      ((attemptAll start edits).Flips poi ↔ (start.pois.map Poi.id).count poi.id ≤
        ((edits.flatMap toggles).map Poi.id).count poi.id + 1) ∧
      ((attemptAll start edits).togglePoi poi).pois.filter (fun p => p.id ≠ poi.id) =
        (attemptAll start edits).pois.filter fun p => p.id ≠ poi.id) ∧
    ((∀ (edits : List Edit) (poi : Poi), (attemptAll start edits).Flips poi) ↔
      (start.pois.map Poi.id).Nodup) := by
  have hflips : ∀ (edits : List Edit) (poi : Poi), (attemptAll start edits).Flips poi ↔
      (start.pois.map Poi.id).count poi.id ≤
        ((edits.flatMap toggles).map Poi.id).count poi.id + 1 := by
    intro edits poi
    rw [Definition.flips_iff, pois_attemptAll, Definition.count_foldl_togglePois,
      Definition.iterate_toggleCount_le_one_iff]
  refine ⟨fun edits poi => ⟨hflips edits poi, Definition.filter_togglePoi _ poi⟩, ?_⟩
  rw [List.nodup_iff_count_le_one]
  constructor
  · intro hall id
    exact (hflips [] ⟨id, ⟨0.0, 0.0⟩, "", ""⟩).mp (hall [] _)
  · intro honce edits poi
    exact (hflips edits poi).mpr ((honce poi.id).trans (Nat.le_add_left _ _))

end Edit

namespace Definition

/-- The text of a style in which one identity is saved in two places. -/
def savedTwice : String :=
  "\x7b\"revision\":\"r\",\"rules\":[],\"savedPOIs\":[" ++
  "\x7b\"id\":\"1\",\"position\":[0,0],\"text\":\"A\",\"sprite\":\"a\"\x7d," ++
  "\x7b\"id\":\"1\",\"position\":[1,1],\"text\":\"B\",\"sprite\":\"b\"\x7d]\x7d"

/-- The text is accepted, and a toggle takes out only the first of the two. -/
theorem not_flips_savedTwice : ∃ d, ofText savedTwice = .ok d ∧
    d.pois.map Poi.id = ["1", "1"] ∧
    (d.togglePoi ⟨"1", ⟨0.0, 0.0⟩, "A", "a"⟩).pois.map Poi.id = ["1"] ∧
    ¬d.Flips ⟨"1", ⟨0.0, 0.0⟩, "A", "a"⟩ := by
  have hread : ((ofText savedTwice).toOption.map fun d => d.pois.map Poi.id) =
      some ["1", "1"] := by decide +kernel
  obtain ⟨d, hdefinition, hids⟩ := exists_ok_of_map_toOption hread
  refine ⟨d, hdefinition, hids, ?_, ?_⟩
  · have htoggle : (d.togglePoi ⟨"1", ⟨0.0, 0.0⟩, "A", "a"⟩).pois =
        togglePois d.pois ⟨"1", ⟨0.0, 0.0⟩, "A", "a"⟩ := rfl
    rw [htoggle, map_id_togglePois, hids]
    rfl
  · rw [flips_iff, hids]
    decide

end Definition

end MapStyle
