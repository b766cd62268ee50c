import MapStyle.Proofs.Expressions
import MapStyle.Proofs.Opacity
import MapStyle.Proofs.RendererLayers

/-!
# Renderer styles read back from their text

The document that a definition compiles to reads back from its text, with or without line breaks,
and however many rules there are its text is nested less deeply than a reader allows.
-/

namespace MapStyle.Renderer

open Json

/-- Whether the free-form parts of a layer are expressions. -/
structure Layer.Expressive (l : Layer) : Prop where
  filter : ∀ p ∈ l.filter, Expression 5 p.toJson
  layout : ∀ e ∈ l.layout.entries, Expression 5 e.2
  paint : ∀ e ∈ l.paint.entries, Expression 5 e.2

/-! ### Decoding -/

lemma byte?_ofByte (n : UInt8) : Tree.byte? (.ofJson (ofByte n)) = some n := by
  have hn := n.toNat_lt
  have hbyte : (0 : Int) ≤ n.toNat ∧ (n.toNat : Int) < 256 := by omega
  change (if (0 : Int) ≤ n.toNat ∧ (n.toNat : Int) < 256 then
    some (UInt8.ofNat (n.toNat : Int).toNat) else none) = some n
  rw [if_pos hbyte, Int.toNat_natCast, UInt8.ofNat_toNat]

lemma strings?_ofStrings (texts : List String) :
    Tree.list? Tree.string? (.ofJson (.ofStrings texts)) = some texts := by
  have h : ∀ s ∈ texts, Tree.string? (.ofJson (.string s)) = some (id s) := fun _ _ => rfl
  rw [ofStrings, Tree.list?_ofJson h, List.map_id]

lemma predicate?_toJson {room : Nat} {p : Predicate} (h : Expression room p.toJson) :
    predicate? (.ofJson p.toJson) = some p := by
  rw [predicate?, Tree.value?_ofJson h.ordered, Option.bind_some, Predicate.ofJson_toJson]
  rfl

lemma dictionary?_entries {d : Dictionary Json} {room : Nat}
    (h : ∀ e ∈ d.entries, Expression room e.2) :
    Tree.dictionary? Tree.value? (.ofJson (.object d.entries)) = some d := by
  have hread := Tree.dictionary?_ofJson Tree.value? id d fun e he =>
    Tree.value?_ofJson (h e he).ordered
  simpa using hread

lemma toJson_ne_null (p : Predicate) : p.toJson ≠ .null := by
  cases p <;> simp [Predicate.toJson]

lemma optionalByte?_present {slots : List (String × Option Json)} {name : String}
    {x : Option UInt8} (h : slots.lookup name = some (x.map ofByte))
    (hnames : (slots.map Prod.fst).Nodup) :
    Fields.withDefault? (Tree.ofMembers (present slots)) name none (Tree.nullable? Tree.byte?) =
      some x := by
  have hdecode : ∀ n ∈ x, ofByte n ≠ .null ∧ Tree.byte? (.ofJson (ofByte n)) = some n :=
    fun n _ => ⟨nofun, byte?_ofByte n⟩
  exact Fields.optional?_present_self hdecode h hnames

def Source.slots (s : Source) : List (String × Option Json) := [
  ("type", some (.string vectorType)),
  ("tiles", if s.tiles.isEmpty then none else some (.ofStrings s.tiles)),
  ("url", s.url.map .string)]

lemma Source.toJson_eq (s : Source) : s.toJson = .object (present s.slots) := by
  unfold toJson slots
  cases s.tiles.isEmpty <;> cases s.url <;> rfl

lemma Source.ofTree?_toJson (s : Source) : Source.ofTree? (.ofJson s.toJson) = some s := by
  have hnames : (s.slots.map Prod.fst).Nodup := by
    change ["type", "tiles", "url"].Nodup
    decide
  have htiles : Fields.withDefault? (Tree.ofMembers (present s.slots)) "tiles" []
      (Tree.list? Tree.string?) = some s.tiles := by
    rw [Fields.withDefault?_present _ _ (by rfl) hnames]
    cases h : s.tiles.isEmpty with
    | true => simp [List.isEmpty_iff.mp h]
    | false => simp [strings?_ofStrings]
  rw [toJson_eq, ofTree?, Fields.ofTree?_present _ (by rfl) (by decide)]
  simp only [Option.bind_eq_bind, Option.bind_some]
  rw [Fields.required?_present _ (by rfl) hnames, htiles,
    Fields.optionalText?_present (by rfl) hnames]
  rfl

def Layer.slots (l : Layer) : List (String × Option Json) := [
  ("id", some (.string l.id)),
  ("type", some (.string l.kind.name)),
  ("source", some (.string l.source)),
  ("source-layer", some (.string l.sourceLayer)),
  ("filter", l.filter.map Predicate.toJson),
  ("layout", if l.layout.entries.isEmpty then none else some (.object l.layout.entries)),
  ("paint", some (.object l.paint.entries)),
  ("minzoom", l.minZoom.map ofByte),
  ("maxzoom", l.maxZoom.map ofByte)]

lemma Layer.toJson_eq (l : Layer) : l.toJson = .object (present l.slots) := by
  unfold toJson slots
  cases l.filter <;> cases l.layout.entries.isEmpty <;> cases l.minZoom <;> cases l.maxZoom <;> rfl

lemma Layer.ofTree?_toJson {l : Layer} (h : l.Expressive) :
    Layer.ofTree? (.ofJson l.toJson) = some l := by
  have hnames : (l.slots.map Prod.fst).Nodup := by
    change ["id", "type", "source", "source-layer", "filter", "layout", "paint", "minzoom",
      "maxzoom"].Nodup
    decide
  have hkind : (Tree.choice? (.ofJson (.string l.kind.name))).bind LayerKind.ofName? =
      some l.kind := by
    cases l.kind <;> rfl
  have hfilter : Fields.withDefault? (Tree.ofMembers (present l.slots)) "filter" none
      (Tree.nullable? predicate?) = some l.filter :=
    Fields.optional?_present_self
      (fun p hp => ⟨toJson_ne_null p, predicate?_toJson (h.filter p hp)⟩) (by rfl) hnames
  have hlayout : Fields.withDefault? (Tree.ofMembers (present l.slots)) "layout" .empty
      (Tree.dictionary? Tree.value?) = some l.layout := by
    rw [Fields.withDefault?_present _ _ (by rfl) hnames]
    cases hempty : l.layout.entries.isEmpty with
    | true =>
      have hlayout : l.layout = .empty := Dictionary.ext_entries (List.isEmpty_iff.mp hempty)
      simp [hlayout]
    | false => simp [dictionary?_entries h.layout]
  have hpaint : Fields.withDefault? (Tree.ofMembers (present l.slots)) "paint" .empty
      (Tree.dictionary? Tree.value?) = some l.paint := by
    rw [Fields.withDefault?_present _ _ (by rfl) hnames]
    exact dictionary?_entries h.paint
  rw [toJson_eq, ofTree?, Fields.ofTree?_present _ (by rfl) (by decide)]
  simp only [Option.bind_eq_bind, Option.bind_some]
  rw [hfilter, hlayout, hpaint, Fields.required?_present _ (by rfl) hnames,
    Fields.required?_present _ (by rfl) hnames, Fields.required?_present _ (by rfl) hnames,
    Fields.required?_present _ (by rfl) hnames, optionalByte?_present (by rfl) hnames,
    optionalByte?_present (by rfl) hnames, hkind]
  rfl

def Document.slots (d : Document) : List (String × Option Json) := [
  ("version", some (ofByte d.version)),
  ("sources", some (.object (d.sources.entries.map fun e => (e.1, e.2.toJson)))),
  ("glyphs", d.glyphs.map .string),
  ("sprite", d.sprite.map .string),
  ("layers", some (.array (d.layers.map Layer.toJson)))]

lemma Document.toJson_eq (d : Document) : d.toJson = .object (present d.slots) := by
  unfold toJson slots
  cases d.glyphs <;> cases d.sprite <;> rfl

lemma Document.ofTree?_toJson {d : Document} (h : ∀ l ∈ d.layers, l.Expressive) :
    Document.ofTree? (.ofJson d.toJson) = some d := by
  have hnames : (d.slots.map Prod.fst).Nodup := by
    change ["version", "sources", "glyphs", "sprite", "layers"].Nodup
    decide
  have hsources := Tree.dictionary?_ofJson Source.ofTree? Source.toJson d.sources
    fun e _ => e.2.ofTree?_toJson
  have hlayers : Tree.list? Layer.ofTree? (.ofJson (.array (d.layers.map Layer.toJson))) =
      some d.layers := by
    have hlayer : ∀ l ∈ d.layers, Layer.ofTree? (.ofJson l.toJson) = some (id l) :=
      fun l hl => Layer.ofTree?_toJson (h l hl)
    rw [Tree.list?_ofJson hlayer, List.map_id]
  rw [toJson_eq, ofTree?, Fields.ofTree?_present _ (by rfl) (by decide)]
  simp only [Option.bind_eq_bind, Option.bind_some]
  rw [Fields.required?_present _ (by rfl) hnames, Fields.required?_present _ (by rfl) hnames,
    Fields.required?_present _ (by rfl) hnames, Fields.optionalText?_present (by rfl) hnames,
    Fields.optionalText?_present (by rfl) hnames, byte?_ofByte, hsources, hlayers]
  rfl

/-! ### Nesting -/

variable {room : Nat}

lemma fits_ofByte (n : UInt8) : Fits room (ofByte n) := by
  have hn := n.toNat_lt
  exact (Expression.ofNat (by omega)).fits

lemma fits_texts (texts : List String) : Fits (room + 1) (.ofStrings texts) := by
  apply Fits.array
  simp [Fits.string]

lemma Source.fits_toJson (s : Source) : Fits 2 s.toJson := by
  rw [toJson_eq]
  apply fits_present
  simp [slots, Fits.string, fits_texts]

lemma Layer.fits_toJson {l : Layer} (h : l.Expressive) : Fits 7 l.toJson := by
  rw [toJson_eq]
  apply fits_present
  have hentries {d : Dictionary Json} (hd : ∀ e ∈ d.entries, Expression 5 e.2) :
      Fits 6 (.object d.entries) := .object fun e he => (hd e he).fits
  have hfilter : ∀ p ∈ l.filter, Fits 6 p.toJson := fun p hp =>
    (h.filter p hp).fits.mono (by omega)
  simpa [slots, Fits.string, fits_ofByte, hentries h.layout, hentries h.paint] using hfilter

lemma Document.fits_toJson {d : Document} (h : ∀ l ∈ d.layers, l.Expressive) :
    Fits 9 d.toJson := by
  rw [toJson_eq]
  apply fits_present
  have hsources : Fits 8 (.object (d.sources.entries.map fun e => (e.1, e.2.toJson))) := by
    apply Fits.object
    intro m hm
    obtain ⟨e, -, rfl⟩ := List.mem_map.mp hm
    exact e.2.fits_toJson.mono (by omega)
  have hlayers : Fits 8 (.array (d.layers.map Layer.toJson)) := by
    apply Fits.array
    intro j hj
    obtain ⟨l, hl, rfl⟩ := List.mem_map.mp hj
    exact Layer.fits_toJson (h l hl)
  simp [slots, Fits.string, fits_ofByte, hsources, hlayers]

/-! ### The layers of a style -/

lemma readsBack_fraction (alpha : UInt8) : (Number.float (Color.fraction alpha)).ReadsBack := by
  apply Color.forall_byte (P := fun a => (Number.float (Color.fraction a)).ReadsBack)
  decide +kernel

lemma readsBack_opacity {c : Color} {o : Float} (h : c.opacity = some o) :
    (Number.float o).ReadsBack := by
  rw [Color.eq_fraction_of_opacity h]
  exact readsBack_fraction _

lemma expression_hoverCase {highlight value : Json} (hroom : 2 ≤ room)
    (hhighlight : Expression room highlight) (hvalue : Expression room value) :
    Expression (room + 1) (hoverCase highlight value) := by
  have hstate : Expression 1 (call "feature-state" [.string "hover"]) :=
    .call (by simp [Expression.string])
  have hhovered : Expression 2 (call "boolean" [call "feature-state" [.string "hover"],
      .bool false]) := .call (by simp [hstate, Expression.bool])
  apply Expression.call
  simp [hhovered.mono hroom, hhighlight, hvalue]

lemma expression_hover (c : Config) (color : String) : Expression 5 (c.hover color) :=
  expression_hoverCase (show 2 ≤ 4 by omega) (.string _) (.string _)

lemma expressive_tileLayer (c : Config) (id : String) (kind : LayerKind) {filter : Predicate}
    {paint : List (String × Json)} (hfilter : Expression 5 filter.toJson)
    (hpaint : ∀ e ∈ paint, Expression 5 e.2) : (c.tileLayer id kind filter paint).Expressive := by
  constructor
  · intro p hp
    obtain rfl := Option.some.inj hp
    exact hfilter
  · intro e he
    cases he
  · intro e he
    exact hpaint e (Dictionary.mem_of_mem_ofList he)

lemma expression_optionalMember (name : String) {x : Option Float}
    (h : ∀ y ∈ x, (Number.float y).ReadsBack) :
    ∀ e ∈ optionalMember name x .ofFloat, Expression 5 e.2 := by
  cases x with
  | none => simp [optionalMember]
  | some y => simpa [optionalMember] using Expression.ofFloat (h y rfl)

lemma expression_category (g : Ghost) : Expression 2 g.category.toJson := by
  unfold Ghost.category
  split
  · exact (Predicate.expression_has _).mono (by omega)
  · apply Predicate.expression_any
    simp [Predicate.expression_has]

lemma readsBack_ghost_width : ∀ g ∈ ghosts, ∀ w ∈ g.width, (Number.float w).ReadsBack := by
  have hwidth : (Number.float 3.0).ReadsBack := by decide +kernel
  simpa [ghosts] using hwidth

lemma expressive_ghostLayer (c : Config) (rules : List Rule) {g : Ghost} (hg : g ∈ ghosts) :
    (c.ghostLayer (.not (Priority.anyRule rules)) g).Expressive := by
  have hwidth := expression_optionalMember "line-width" (readsBack_ghost_width g hg)
  apply expressive_tileLayer
  · apply Predicate.expression_all
    have hunclaimed := Predicate.expression_not (Predicate.expression_anyRule rules)
    simpa using ⟨hunclaimed, (expression_category g).mono (by omega)⟩
  · rw [List.forall_mem_append]
    refine ⟨?_, hwidth⟩
    cases g.kind <;> simp [expression_hover]

lemma expression_fillPaint (c : Config) (f : Fill) :
    ∀ e ∈ c.fillPaint f, Expression 5 e.2 := by
  rw [Config.fillPaint, List.forall_mem_cons]
  exact ⟨expression_hover c _, expression_optionalMember _ fun o ho => readsBack_opacity ho⟩

lemma expression_linePaint (c : Config) {l : Line} (h : (Number.float l.width).ReadsBack) :
    ∀ e ∈ c.linePaint l, Expression 5 e.2 := by
  have hopacity := expression_optionalMember "line-opacity" (x := l.color.opacity)
    fun o ho => readsBack_opacity ho
  have hdashes : Expression 5 dashArray := by
    have hlong : (Number.float 2.0).ReadsBack := by decide +kernel
    have hshort : (Number.float 1.0).ReadsBack := by decide +kernel
    apply Expression.array
    simp [Expression.ofFloat, hlong, hshort]
  unfold Config.linePaint
  simp only [List.forall_mem_append]
  refine ⟨⟨?_, hopacity⟩, ?_⟩
  · simp [expression_hover, Expression.ofFloat h]
  · cases l.dashed <;> simp [hdashes]

lemma expressive_ruleLayers (c : Config) {e : EffectiveRule} (hfilter : Expression 5 e.predicate.toJson)
    (hwidth : ∀ line ∈ e.rule.treatment.line, (Number.float line.width).ReadsBack) :
    ∀ l ∈ c.ruleLayers e, l.Expressive := by
  intro l hl
  obtain ⟨paint, hpaint, rfl⟩ := List.mem_map.mp hl
  cases paint with
  | fill f => exact expressive_tileLayer c _ _ hfilter (expression_fillPaint c f)
  | line line =>
    have hline : line ∈ e.rule.treatment.line := by
      simpa [Treatment.paints] using hpaint
    exact expressive_tileLayer c _ _ hfilter (expression_linePaint c (hwidth line hline))

/-! ### Points of interest -/

lemma expression_get (key : String) : Expression 1 (get key) :=
  .call (by simp [Expression.string])

lemma expression_byZoom {lower upper : Json} (hlower : Expression 2 lower)
    (hupper : Expression 2 upper) : Expression 4 (byZoom lower upper) := by
  have hrank (rank : Nat) (h : rank < 2 ^ 64) : Expression 3 (bySizeRank lower rank upper) := by
    apply Expression.call
    simp [hlower, hupper, (expression_get _).mono, Expression.ofNat h]
  have hzoom : Expression 3 (call "zoom" []) := .call (by simp)
  apply Expression.call
  simp [hzoom, hrank, Expression.ofNat]

lemma expression_icon (key : String) : Expression 3 (icon key) := by
  have hconcat : Expression 2 (call "concat" [get key, .string "-15"]) :=
    .call (by simp [expression_get, Expression.string])
  exact .call (by simpa using hconcat)

lemma expression_savedPredicate (pois : List Poi) : Expression 3 (savedPredicate pois).toJson := by
  apply Predicate.expression_any
  intro p hp
  obtain ⟨poi, -, hid⟩ := List.mem_filterMap.mp hp
  obtain ⟨id, -, rfl⟩ := Option.map_eq_some_iff.mp hid
  exact Predicate.expression_compile (.identity id)

lemma expression_literal {x y : Json} (hx : Expression 0 x) (hy : Expression 0 y) :
    Expression 2 (call "literal" [.array [x, y]]) := by
  have hpair : Expression 1 (.array [x, y]) := .array (by simp [hx, hy])
  exact .call (by simpa using hpair)

lemma expression_poiLayout : ∀ e ∈ poiLayout.entries, Expression 5 e.2 := by
  intro e he
  have hmem := Dictionary.mem_of_mem_ofList he
  have hname : Expression 2 (call "coalesce" [get "name_en", get "name"]) :=
    .call (by simp [expression_get])
  have hsymbol : Expression 4 (call "case" [call "has" [.string "maki_beta"], icon "maki_beta",
      icon "maki"]) := by
    have hhas : Expression 1 (call "has" [.string "maki_beta"]) := .call (by simp [Expression.string])
    exact .call (by simp [hhas.mono, expression_icon])
  have hshift : (Number.float 0.75).ReadsBack := by decide +kernel
  have hzero : Expression 0 (.ofNat 0) := .ofNat (by omega)
  have hoffset := expression_byZoom (expression_literal hzero hzero)
    (expression_literal hzero (.ofFloat hshift))
  simp only [List.mem_cons, List.not_mem_nil, or_false] at hmem
  rcases hmem with rfl | rfl | rfl | rfl | rfl | rfl
  · exact hname.mono (by omega)
  · exact hsymbol.mono (by omega)
  · exact .bool false
  · exact .bool false
  · exact (expression_byZoom (.string _) (.string _)).mono (by omega)
  · exact hoffset.mono (by omega)

lemma expression_poiPaint (c : Config) (pois : List Poi) :
    ∀ e ∈ (c.poiPaint pois).entries, Expression 5 e.2 := by
  intro e he
  have hmem := Dictionary.mem_of_mem_ofList he
  have hfull : (Number.float 1.0).ReadsBack := by decide +kernel
  have hhalf : (Number.float 0.5).ReadsBack := by decide +kernel
  have hsaved : Expression 4 (call "case" [(savedPredicate pois).toJson, .ofFloat 1.0, .ofFloat 0.5]) :=
    .call (by simp [expression_savedPredicate, Expression.ofFloat, hfull, hhalf])
  have hopacity := expression_hoverCase (show 2 ≤ 4 by omega) (Expression.ofFloat hfull) hsaved
  simp only [List.mem_cons, List.not_mem_nil, or_false] at hmem
  rcases hmem with rfl | rfl | rfl | rfl | rfl
  · exact hopacity
  · exact .string _
  · exact Expression.ofNat (by omega)
  · exact Expression.ofFloat hhalf
  · exact expression_hover c "white"

lemma expressive_poiLayer (c : Config) (pois : List Poi) (s : PoiSource) :
    (c.poiLayer pois s).Expressive := by
  refine ⟨?_, expression_poiLayout, expression_poiPaint c pois⟩
  intro p hp
  cases hp

lemma expressive_layers (c : Config) {d : Definition}
    (hwidths : ∀ r ∈ d.rules, ∀ line ∈ r.treatment.line, (Number.float line.width).ReadsBack) :
    ∀ l ∈ c.layers d, l.Expressive := by
  intro l hl
  simp only [Config.layers, List.mem_append, List.mem_flatMap, Option.mem_toList,
    Option.map_eq_some_iff] at hl
  rcases hl with (hghost | ⟨e, he, hrule⟩) | ⟨s, -, rfl⟩
  · obtain ⟨g, hg, rfl⟩ := List.mem_map.mp hghost
    exact expressive_ghostLayer c d.rules hg
  · have hmem : e.rule ∈ d.rules := by
      rw [← Priority.map_rule_effective d.rules]
      exact List.mem_map_of_mem he
    exact expressive_ruleLayers c (Predicate.expression_effective he) (hwidths e.rule hmem) l hrule
  · exact expressive_poiLayer c d.pois s

/-- A compiled style survives its text. Decoding gives the compiled document, whose layers have the
same filters, and the text has at most nine levels, however many rules there are. Only the widths
of lines are arbitrary doubles, so only of these it is assumed that they read back. -/
theorem ofText?_toJson_of_compile {c : Config} {d : Definition} {doc : Document}
    (h : compile c d = .ok doc)
    (hwidths : ∀ r ∈ d.rules, ∀ line ∈ r.treatment.line, (Number.float line.width).ReadsBack) :
    Document.ofText? doc.toJson.compact = some doc ∧
    Document.ofText? doc.toJson.pretty = some doc ∧
    doc.toJson.depth ≤ 9 ∧ 9 < maxDepth := by
  have hlayers : ∀ l ∈ doc.layers, l.Expressive := by
    rw [layers_of_compile h]
    exact expressive_layers c hwidths
  have hfits := Document.fits_toJson hlayers
  have hread := Document.ofTree?_toJson hlayers
  have hroom : 9 < maxDepth := by decide
  refine ⟨?_, ?_, hfits.depth_le, hroom⟩
  · rw [Document.ofText?, ofText?_compact (hfits.mono hroom.le), Option.bind_some, hread]
  · rw [Document.ofText?, ofText?_pretty (hfits.mono hroom.le), Option.bind_some, hread]

/-- The style of the overlapping rules, which have a dashed line and a translucent fill. -/
theorem ofText?_toJson_overlapping : ∃ doc, compile .default overlappingStyle = .ok doc ∧
    (∀ r ∈ overlappingStyle.rules, ∀ line ∈ r.treatment.line,
      (Number.float line.width).ReadsBack) ∧
    Document.ofText? doc.toJson.compact = some doc ∧
    Document.ofText? doc.toJson.pretty = some doc := by
  have h : compile .default overlappingStyle = .ok _ := rfl
  have hwidths : ∀ r ∈ overlappingStyle.rules, ∀ line ∈ r.treatment.line,
      (Number.float line.width).ReadsBack := by
    have hnarrow : (Number.float 2.0).ReadsBack := by decide +kernel
    have hwide : (Number.float 4.0).ReadsBack := by decide +kernel
    simp [overlappingStyle, overlappingRules, Rule.plain, Rule.withLine, Rule.withFill,
      Treatment.unstyled, hnarrow, hwide]
  obtain ⟨hcompact, hpretty, -⟩ := ofText?_toJson_of_compile h hwidths
  exact ⟨_, h, hwidths, hcompact, hpretty⟩

end MapStyle.Renderer
