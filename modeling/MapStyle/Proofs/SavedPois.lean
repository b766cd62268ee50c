import MapStyle.Proofs.Edits
import MapStyle.Proofs.ExportLayers
import MapStyle.Session.Run

/-!
# Points of interest that a session saves

A session toggles the points of interest that it is asked to save. What is saved in the end depends
on how often an identifier is given and on what the style that it starts with has saved.
-/

namespace MapStyle

lemma Text.wordText_injective : Function.Injective wordText := by
  intro v w h
  have hread := congrArg readWord? h
  rw [readWord?_wordText, readWord?_wordText] at hread
  exact Option.some.inj hread

lemma MapFeature.id_of_poi? {f : MapFeature Float} {poi : Poi} (h : f.poi? = some poi) :
    ∃ id, f.id = some id ∧ poi.id = Text.wordText id := by
  unfold poi? at h
  split at h
  · obtain ⟨position, -, hpoi⟩ := Option.bind_eq_some_iff.mp h
    obtain ⟨id, hid, rfl⟩ := Option.map_eq_some_iff.mp hpoi
    exact ⟨id, hid, rfl⟩
  · cases h

namespace Session

/-! ### Identified point features -/

/-- Whether some feature can be saved under an identifier. -/
def HasPoi (features : List (MapFeature Float)) (id : Int64) : Prop :=
  ∃ f ∈ features, f.id = some id ∧ f.poi?.isSome = true

lemma isSome_poiWithId?_iff (features : List (MapFeature Float)) (id : Int64) :
    (poiWithId? features id).isSome = true ↔ HasPoi features id := by
  unfold poiWithId? HasPoi
  simp [List.findSome?_isSome_iff, and_assoc]

lemma id_of_poiWithId? {features : List (MapFeature Float)} {id : Int64} {poi : Poi}
    (h : poiWithId? features id = some poi) : poi.id = Text.wordText id := by
  obtain ⟨f, hf, hpoi⟩ := List.exists_of_findSome?_eq_some h
  have hid : f.id = some id := by simpa using (List.mem_filter.mp hf).2
  obtain ⟨own, hown, htext⟩ := MapFeature.id_of_poi? hpoi
  rw [hid] at hown
  rw [htext, Option.some.inj hown]

/-! ### The toggles of a session -/

/-- The points of interest that a session toggles. -/
def toggles (features : List (MapFeature Float)) (ids : List Int64) : List Poi :=
  ids.filterMap (poiWithId? features)

lemma savePois_eq (features : List (MapFeature Float)) (d : Definition) (ids : List Int64) :
    savePois features d ids = d.toggleAll (toggles features ids) := by
  unfold savePois Definition.toggleAll toggles
  rw [List.foldl_filterMap]
  congr 1
  funext d id
  unfold savePoi
  cases poiWithId? features id <;> rfl

lemma count_toggles {features : List (MapFeature Float)} {id : Int64} (h : HasPoi features id)
    (ids : List Int64) :
    ((toggles features ids).map Poi.id).count (Text.wordText id) = ids.count id := by
  unfold toggles
  induction ids with
  | nil => rfl
  | cons first ids ih =>
    cases hfirst : poiWithId? features first with
    | some poi =>
      rw [List.filterMap_cons_some hfirst, List.map_cons, id_of_poiWithId? hfirst]
      by_cases heq : first = id
      · rw [heq, List.count_cons_self, List.count_cons_self, ih]
      · rw [List.count_cons_of_ne (Text.wordText_injective.ne heq), List.count_cons_of_ne heq, ih]
    | none =>
      have hne : first ≠ id := by
        rintro rfl
        simp [← isSome_poiWithId?_iff, hfirst] at h
      rw [List.filterMap_cons_none hfirst, List.count_cons_of_ne hne, ih]

lemma mem_ids_of_mem_toggles {features : List (MapFeature Float)} {ids : List Int64} {id : String}
    (h : id ∈ (toggles features ids).map Poi.id) : id ∈ ids.map Text.wordText := by
  obtain ⟨poi, hpoi, rfl⟩ := List.mem_map.mp h
  obtain ⟨word, hword, hfound⟩ := List.mem_filterMap.mp hpoi
  exact List.mem_map.mpr ⟨word, hword, (id_of_poiWithId? hfound).symm⟩

lemma mem_savePois_iff {features : List (MapFeature Float)} {id : Int64} (h : HasPoi features id)
    (d : Definition) (ids : List Int64) :
    Text.wordText id ∈ (savePois features d ids).pois.map Poi.id ↔
      ids.count id < (d.pois.map Poi.id).count (Text.wordText id) ∨
        Odd (ids.count id - (d.pois.map Poi.id).count (Text.wordText id)) := by
  rw [savePois_eq, Definition.pois_toggleAll, Definition.mem_foldl_togglePois_iff, count_toggles h]

lemma filter_savePois (features : List (MapFeature Float)) (d : Definition) (ids : List Int64) :
    (savePois features d ids).pois.filter (fun p => p.id ∉ ids.map Text.wordText) =
      d.pois.filter fun p => p.id ∉ ids.map Text.wordText := by
  rw [savePois_eq, Definition.pois_toggleAll]
  apply Definition.filter_foldl_togglePois
  intro p hp
  simpa using mem_ids_of_mem_toggles hp

/-! ### Whole sessions -/

lemma loadFeatures_eq_ok_iff {center : Point Float} {path text : String}
    {features : List (MapFeature Float)} :
    loadFeatures center (some ⟨path, some text⟩) = .ok features ↔
      GeoJson.ofText? text = some features := by
  change orFail (.features path) (GeoJson.ofText? text) = .ok features ↔ _
  unfold orFail
  cases GeoJson.ofText? text <;> simp

lemma exists_of_prepare {r : Request} {p : Prepared} (h : prepare r = .ok p) :
    ∃ config start icons,
      loadConfig r.config r.overrides = .ok config ∧ loadStyle r.style = .ok start ∧
      loadFeatures config.view.center r.features = .ok p.features ∧
      loadIcons r.icons = .ok icons ∧ p.style = savePois p.features start r.saved ∧
      Renderer.compile config.style p.style = .ok p.document ∧
      p.exporter = ⟨config.options, icons, .estimate⟩ ∧
      p.canvas = ⟨config.view.project, config.view.bounds⟩ := by
  unfold prepare at h
  simp only [bind_eq_ok_iff, mapError_eq_ok_iff] at h
  obtain ⟨config, hconfig, start, hstart, features, hfeatures, icons, hicons, doc, hdoc, hp⟩ := h
  cases hp
  exact ⟨config, start, icons, hconfig, hstart, hfeatures, hicons, rfl, hdoc, rfl, rfl⟩

lemma run?_eq_some_ok_iff {r : Request} {o : Outcome} :
    run? r = some (.ok o) ↔ ∃ p, prepare r = .ok p ∧
      ∃ result, p.exporter.run? p.canvas p.style p.features = some result ∧
        o = p.outcome result := by
  unfold run?
  cases prepare r with
  | error failure => simp
  | ok p => simp [eq_comm]

/-- What a session that ends saves. The style that it writes, compiles and exports has, of the
points of interest that it is asked to save and has features for, those that are asked for less often
than they are saved at the start, or more often by an odd number. All others stay as they are. -/
theorem saved_of_run {r : Request} {o : Outcome} (h : run? r = some (.ok o)) :
    ∃ config start features icons doc, ∃ saved : Definition, ∃ result,
      loadConfig r.config r.overrides = .ok config ∧ loadStyle r.style = .ok start ∧
      loadFeatures config.view.center r.features = .ok features ∧
      loadIcons r.icons = .ok icons ∧
      o.definition = saved.toJson.pretty ∧
      (Renderer.compile config.style saved = .ok doc ∧ o.style = doc.toJson.pretty) ∧
      ((⟨config.options, icons, .estimate⟩ : Exporter).run?
          ⟨config.view.project, config.view.bounds⟩ saved features = some result ∧
        o.drawing = result.artifact) ∧
      (∀ id ∈ r.saved, HasPoi features id →
        (Text.wordText id ∈ saved.pois.map Poi.id ↔
          r.saved.count id < (start.pois.map Poi.id).count (Text.wordText id) ∨
            Odd (r.saved.count id - (start.pois.map Poi.id).count (Text.wordText id)))) ∧
      saved.pois.filter (fun p => p.id ∉ r.saved.map Text.wordText) =
        start.pois.filter fun p => p.id ∉ r.saved.map Text.wordText := by
  obtain ⟨p, hp, result, hresult, rfl⟩ := run?_eq_some_ok_iff.mp h
  obtain ⟨config, start, icons, hconfig, hstart, hfeatures, hicons, hstyle, hdoc, hexporter,
    hcanvas⟩ := exists_of_prepare hp
  rw [hexporter, hcanvas] at hresult
  refine ⟨config, start, p.features, icons, p.document, p.style, result, hconfig, hstart,
    hfeatures, hicons, rfl, ⟨hdoc, rfl⟩, ⟨hresult, rfl⟩, fun id _ hid => ?_, ?_⟩
  · rw [hstyle]
    exact mem_savePois_iff hid start r.saved
  · rw [hstyle]
    exact filter_savePois p.features start r.saved

/-- A file with a single feature, which is a point of interest. -/
def cafeText : String :=
  "\x7b\"type\":\"FeatureCollection\",\"features\":[\x7b\"type\":\"Feature\",\"id\":1007," ++
  "\"properties\":\x7b\"name\":\"Seward Park Cafe\",\"maki\":\"cafe\"\x7d," ++
  "\"geometry\":\x7b\"type\":\"Point\",\"coordinates\":[-73.75,40.75]\x7d\x7d]\x7d"

/-- A session with this file and identifiers to save. -/
def saving (ids : List Int64) : Request :=
  ⟨none, none, some ⟨"cafe.geojson", some cafeText⟩, none, ids, ⟨none, none, none⟩⟩

/-- The file has a feature to save and nothing to clip. -/
lemma hasPoi_cafe {features : List (MapFeature Float)}
    (h : GeoJson.ofText? cafeText = some features) :
    HasPoi features 1007 ∧ ∀ f ∈ features, Export.lineSegments f.shape = [] := by
  have hread : ((GeoJson.ofText? cafeText).map fun features => features.map fun f =>
      (f.id, f.poi?.isSome, (Export.lineSegments f.shape).isEmpty)) =
      some [(some 1007, true, true)] := by decide +kernel
  rw [h] at hread
  obtain ⟨f, rfl, hf⟩ := List.map_eq_singleton_iff.mp (Option.some.inj hread)
  simp only [Prod.mk.injEq, List.isEmpty_iff] at hf
  obtain ⟨hid, hpoi, hsegments⟩ := hf
  exact ⟨⟨f, List.mem_singleton_self f, hid, hpoi⟩, List.forall_mem_singleton.mpr hsegments⟩

lemma exists_run?_saving {ids : List Int64} {p : Prepared} (h : prepare (saving ids) = .ok p) :
    ∃ result, run? (saving ids) = some (.ok (p.outcome result)) := by
  obtain ⟨config, start, icons, -, -, hfeatures, -⟩ := exists_of_prepare h
  obtain ⟨-, hsegments⟩ := hasPoi_cafe (loadFeatures_eq_ok_iff.mp hfeatures)
  obtain ⟨result, hresult⟩ : ∃ result,
      p.exporter.run? p.canvas p.style p.features = some result := by
    apply Exporter.exists_run?_of_within 0
    intro f hf
    rw [hsegments f hf]
    exact List.forall_mem_nil _
  exact ⟨result, run?_eq_some_ok_iff.mpr ⟨p, h, result, hresult, rfl⟩⟩

theorem saved_of_run_once : ∃ o, run? (saving [1007]) = some (.ok o) ∧
    ∃ saved : Definition, o.definition = saved.toJson.pretty ∧ "1007" ∈ saved.pois.map Poi.id := by
  have hread : ((prepare (saving [1007])).toOption.map fun p => p.style.revision.token) =
      some "style-default-1" := by decide +kernel
  obtain ⟨p, hp, -⟩ := exists_ok_of_map_toOption hread
  obtain ⟨result, h⟩ := exists_run?_saving hp
  obtain ⟨config, start, features, -, -, saved, -, -, hstart, hfeatures, -, hdefinition, -, -,
    hsaved, -⟩ := saved_of_run h
  cases hstart
  obtain ⟨hcafe, -⟩ := hasPoi_cafe (loadFeatures_eq_ok_iff.mp hfeatures)
  exact ⟨_, h, saved, hdefinition, (hsaved 1007 (List.mem_singleton_self _) hcafe).mpr (by decide)⟩

/-- An identifier that is given twice is not saved. -/
theorem saved_twice_removed : ∃ o, run? (saving [1007, 1007]) = some (.ok o) ∧
    ∃ features, GeoJson.ofText? cafeText = some features ∧ HasPoi features 1007 ∧
    ∃ saved : Definition, o.definition = saved.toJson.pretty ∧
      saved = savePois features Sample.style [1007, 1007] ∧ saved.pois = [] := by
  have hread : ((prepare (saving [1007, 1007])).toOption.map fun p => p.style.pois.map Poi.id) =
      some [] := by decide +kernel
  obtain ⟨p, hp, hpois⟩ := exists_ok_of_map_toOption hread
  obtain ⟨result, h⟩ := exists_run?_saving hp
  obtain ⟨config, start, icons, -, hstart, hfeatures, -, hstyle, -⟩ := exists_of_prepare hp
  cases hstart
  have hcafe := loadFeatures_eq_ok_iff.mp hfeatures
  exact ⟨_, h, p.features, hcafe, (hasPoi_cafe hcafe).1, p.style, rfl, hstyle,
    List.map_eq_nil_iff.mp hpois⟩

end Session

end MapStyle
