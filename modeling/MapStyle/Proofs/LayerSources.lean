import MapStyle.Proofs.RendererLayers

/-!
# Where layers read from

Layers name the source that they read from, and the sources of a compiled style are listed by the
same names. The source of points of interest is entered last, so it takes the place of the tiles if
it has their name.
-/

namespace MapStyle.Renderer

/-- The layers that are drawn from tiles: the ghosts and the layers of the rules. -/
def Config.tileLayers (c : Config) (rules : List Rule) : List Layer :=
  c.ghostLayers rules ++ (List.range rules.length).flatMap (c.emitted rules)

/-- Whether a layer names a source with these templates of tile addresses. -/
def Document.ReadsTiles (doc : Document) (l : Layer) (tiles : List String) : Prop :=
  ∃ s, doc.sources.find? l.source = some s ∧ s.tiles = tiles

/-- Whether a layer names a source that is described at this address. -/
def Document.ReadsUrl (doc : Document) (l : Layer) (url : String) : Prop :=
  ∃ s, doc.sources.find? l.source = some s ∧ s.url = some url

lemma find?_sources_tiles {c : Config} (h : ∀ p ∈ c.pois, p.id ≠ c.tiles.id) :
    c.sources.find? c.tiles.id = some ⟨c.tiles.tiles, none⟩ := by
  unfold Config.sources
  cases hpois : c.pois with
  | none => simp [Dictionary.find?_insert]
  | some p =>
    have hne : c.tiles.id ≠ p.id := (h p hpois).symm
    simp [Dictionary.find?_insert, hne]

lemma find?_sources_pois {c : Config} {p : PoiSource} (hp : p ∈ c.pois) :
    c.sources.find? p.id = some ⟨[], some p.url⟩ := by
  rw [Option.mem_def] at hp
  simp [Config.sources, hp, Dictionary.find?_insert]

lemma source_of_mem_tileLayers {c : Config} {rules : List Rule} {l : Layer}
    (hl : l ∈ c.tileLayers rules) : l.source = c.tiles.id := by
  rcases List.mem_append.mp hl with hghost | hrule
  · obtain ⟨g, _, rfl⟩ := List.mem_map.mp hghost
    rfl
  · rw [← flatMap_ruleLayers] at hrule
    obtain ⟨e, _, hlayer⟩ := List.mem_flatMap.mp hrule
    obtain ⟨p, _, rfl⟩ := List.mem_map.mp hlayer
    cases p <;> rfl

lemma layers_eq_append (c : Config) (d : Definition) :
    c.layers d = c.tileLayers d.rules ++ (c.pois.map (c.poiLayer d.pois)).toList := by
  rw [Config.layers, flatMap_ruleLayers, Config.tileLayers]

/-- Which source a layer reads from. The layer of points of interest always reads from the
configured address. A ghost or a rule's layer reads from the configured tiles unless both sources
have one name: then it reads from the address of points of interest, where it has no tiles. -/
theorem readsTiles_iff_of_compile {c : Config} {d : Definition} {doc : Document}
    (h : compile c d = .ok doc) :
    doc.layers = c.tileLayers d.rules ++ (c.pois.map (c.poiLayer d.pois)).toList ∧
    (∀ p ∈ c.pois, doc.ReadsUrl (c.poiLayer d.pois p) p.url) ∧
    ∀ l ∈ c.tileLayers d.rules,
      (doc.ReadsTiles l c.tiles.tiles ↔ ∀ p ∈ c.pois, p.id = c.tiles.id → c.tiles.tiles = []) ∧
      ∀ p ∈ c.pois, p.id = c.tiles.id → doc.ReadsUrl l p.url ∧ doc.ReadsTiles l [] := by
  obtain rfl := ((compile_eq_ok_iff c d doc).mp h).2
  refine ⟨layers_eq_append c d, fun p hp => ⟨_, find?_sources_pois hp, rfl⟩, ?_⟩
  intro l hl
  have hsource := source_of_mem_tileLayers hl
  have hshared : ∀ p ∈ c.pois, p.id = c.tiles.id →
      c.sources.find? l.source = some ⟨[], some p.url⟩ := by
    intro p hp hid
    rw [hsource, ← hid, find?_sources_pois hp]
  refine ⟨⟨?_, ?_⟩, fun p hp hid => ⟨⟨_, hshared p hp hid, rfl⟩, ⟨_, hshared p hp hid, rfl⟩⟩⟩
  · rintro ⟨s, hs, htiles⟩ p hp hid
    obtain rfl := Option.some.inj ((hshared p hp hid).symm.trans hs)
    exact htiles.symm
  · intro hempty
    by_cases hid : ∃ p ∈ c.pois, p.id = c.tiles.id
    · obtain ⟨p, hp, hid⟩ := hid
      exact ⟨_, hshared p hp hid, (hempty p hp hid).symm⟩
    · refine ⟨⟨c.tiles.tiles, none⟩, ?_, rfl⟩
      rw [hsource]
      exact find?_sources_tiles fun p hp heq => hid ⟨p, hp, heq⟩

theorem readsTiles_overlapping : ∃ doc, compile .default overlappingStyle = .ok doc ∧
    ∀ l ∈ Config.default.tileLayers overlappingRules,
      doc.ReadsTiles l Config.default.tiles.tiles := by
  have h : compile .default overlappingStyle = .ok _ := rfl
  obtain ⟨-, -, htiles⟩ := readsTiles_iff_of_compile h
  refine ⟨_, h, fun l hl => (htiles l hl).1.mpr ?_⟩
  intro p hp hid
  obtain rfl := Option.some.inj hp
  exact absurd hid (by decide)

/-- Settings in which both sources are called `map`. -/
def oneName : Config :=
  (Config.default.withTiles { TileSource.default with id := "map" }).withPois
    (some { PoiSource.default with id := "map" })

/-- The layer of roads does not read from the tiles if both sources are called `map`. -/
theorem not_readsTiles_oneName : ∃ doc, compile oneName overlappingStyle = .ok doc ∧
    ∃ l ∈ doc.layers, l.id = "ghost-highways" ∧ ¬doc.ReadsTiles l oneName.tiles.tiles := by
  have h : compile oneName overlappingStyle = .ok _ := rfl
  refine ⟨_, h, _, List.mem_cons_self, rfl, ?_⟩
  rintro ⟨s, hs, htiles⟩
  have hfound : oneName.sources.find? "map" = some ⟨[], some PoiSource.default.url⟩ := rfl
  obtain rfl := Option.some.inj (hfound.symm.trans hs)
  exact absurd htiles (by decide)

end MapStyle.Renderer
