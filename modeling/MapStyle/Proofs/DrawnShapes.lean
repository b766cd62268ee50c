import MapStyle.Proofs.CanvasBounds
import Mathlib.Data.List.Forall2

/-!
# What a drawn shape looks like

The nodes of an export. Each visible part of a shape is drawn by one path, as no visible part is
lost when it is simplified. So paths, groups of paths and the nodes of a layer match the parts, the
polygons and the features of which something is visible, one by one and in order, and no group is
empty.
-/

namespace MapStyle

open Drawing

universe u v

variable {α : Type u}

/-- Whether a node is a path, or a group of such nodes that is not empty. -/
inductive Drawing.Node.Full : Node α → Prop where
  | path (p : Path α) : Full (.path p)
  | group {head : GroupHead α} {children : List (Node α)} (hne : children ≠ [])
      (h : ∀ n ∈ children, Full n) : Full (.group head children)

lemma Drawing.Node.Full.paths_ne_nil {n : Node α} (h : n.Full) : n.paths ≠ [] := by
  induction h with
  | path p => exact List.cons_ne_nil p []
  | @group head children hne h ih =>
    obtain ⟨n, children, rfl⟩ := List.exists_cons_of_ne_nil hne
    rw [Node.paths, pathsOf]
    exact List.append_ne_nil_of_left_ne_nil (ih n List.mem_cons_self) _

/-! ### The ends of a line stay -/

namespace Simplify

variable [Zero α] [One α] [Add α] [Sub α] [Neg α] [Mul α] [Div α] [LT α] [LE α]
  [DecidableLT α] [DecidableLE α] [BEq α] [Hypot α]

lemma head?_line (tolerance : α) (points : List (Point α)) :
    (line tolerance points).head? = points.head? := by
  unfold line
  split
  · rw [List.cons_append, List.head?_cons, List.head?_eq_getElem?, List.getElem?_eq_getElem]
  · rfl

lemma getLast?_line (tolerance : α) (points : List (Point α)) :
    (line tolerance points).getLast? = points.getLast? := by
  unfold line
  split
  · rw [List.getLast?_concat, List.getLast?_eq_getElem?, List.getElem?_eq_getElem]
  · rfl

end Simplify

namespace Export

/-! ### Tolerances that are not numbers -/

open Float.Model in
lemma compare_notANumber (u : UnpackedFloat) : u.compare .notANumber = none := by
  cases u <;> rfl

lemma not_pos_of_isNaN {x : Float} (h : x.isNaN = true) : ¬0.0 < x := by
  intro hpos
  have hless : (0.0 : Float).toModel.unpack.lt x.toModel.unpack = true := of_decide_eq_true hpos
  have hnan : x.toModel.unpack.isNaN = true := h
  cases hx : x.toModel.unpack with
  | notANumber =>
    rw [hx, Float.Model.UnpackedFloat.lt, compare_notANumber] at hless
    cases hless
  | _ =>
    rw [hx] at hnan
    cases hnan

/-! ### Items of which something is made -/

/-- What is made of items matches the items of which something is made. -/
lemma forall₂_filter_filterMap {β : Type u} {γ : Type v} {R : β → γ → Prop} {made : β → Bool}
    {make? : β → Option γ} {items : List β}
    (hsome : ∀ b ∈ items, made b = true → ∃ c, make? b = some c ∧ R b c)
    (hnone : ∀ b ∈ items, made b = false → make? b = none) :
    List.Forall₂ R (items.filter made) (items.filterMap make?) := by
  induction items with
  | nil => exact .nil
  | cons b items ih =>
    obtain ⟨hbsome, hsome⟩ := List.forall_mem_cons.mp hsome
    obtain ⟨hbnone, hnone⟩ := List.forall_mem_cons.mp hnone
    cases hb : made b with
    | true =>
      obtain ⟨c, hc, hR⟩ := hbsome hb
      rw [List.filter_cons_of_pos hb, List.filterMap_cons_some hc]
      exact .cons hR (ih hsome hnone)
    | false =>
      rw [List.filter_cons_of_neg (by simp [hb]), List.filterMap_cons_none (hbnone hb)]
      exact ih hsome hnone

lemma forall_mem_of_forall₂ {β : Type u} {γ : Type v} {R : β → γ → Prop} {P : γ → Prop}
    (hR : ∀ b c, R b c → P c) {items : List β} {made : List γ} (h : List.Forall₂ R items made) :
    ∀ c ∈ made, P c := by
  induction h with
  | nil => exact List.forall_mem_nil _
  | cons hbc _ ih => exact List.forall_mem_cons.mpr ⟨hR _ _ hbc, ih⟩

lemma ne_nil_of_forall₂ {β : Type u} {γ : Type v} {R : β → γ → Prop} {items : List β}
    {made : List γ} (h : List.Forall₂ R items made) (hne : items ≠ []) : made ≠ [] := by
  rintro rfl
  exact hne (List.forall₂_nil_right_iff.mp h)

lemma group?_of_ne_nil {nodes : List (Node α)} (h : nodes ≠ []) :
    group? nodes = some (.group .plain nodes) := by
  unfold group?
  rw [if_neg (by simpa using h)]

/-! ### What is drawn -/

/-- Whether vertices trace points. They are some of the points in order, the first and the last
among them, and all of them unless there is a positive tolerance. -/
structure Traces (o : ExportOptions) (points vertices : List (Point α)) : Prop where
  sublist : vertices.Sublist points
  first : vertices.head? = points.head?
  last : vertices.getLast? = points.getLast?
  all : (∀ tolerance ∈ o.simplifyTolerance, tolerance.isNaN = true ∨ ¬0.0 < tolerance) →
    vertices = points

section Groups

variable [Sub α]

/-- Whether a path draws a visible part of a shape. It moves to the first vertex, goes on to the
others, of which there is one at least, and closes at the end if and only if it is filled. -/
structure Draws (o : ExportOptions) (c : Canvas α) (t : Treatment) (part : List (Point α))
    (p : Path α) : Prop where
  steps : ∃ first rest, rest ≠ [] ∧ Traces o (part.map c.place) (first :: rest) ∧
    p.steps = .move first :: rest.map .line ++ if t.fill.isSome then [.close] else []
  fill : p.fill = t.fill.map Fill.color
  stroke : p.stroke = t.line.map fun l =>
    ⟨l.color, l.width, if l.dashed then some (5.0, 2.5) else none⟩

/-- Whether a node is a group of paths that draw parts, of which there is one at least. -/
def IsPathGroup (o : ExportOptions) (c : Canvas α) (t : Treatment) (parts : List (List (Point α)))
    (node : Node α) : Prop :=
  parts ≠ [] ∧ ∃ paths, node = .group .plain (paths.map .path) ∧
    List.Forall₂ (Draws o c t) parts paths

lemma IsPathGroup.full {o : ExportOptions} {c : Canvas α} {t : Treatment}
    {parts : List (List (Point α))} {node : Node α} (h : IsPathGroup o c t parts node) :
    node.Full := by
  obtain ⟨hne, paths, rfl, hdrawn⟩ := h
  refine .group (by simpa using ne_nil_of_forall₂ hdrawn hne) fun n hn => ?_
  obtain ⟨p, -, rfl⟩ := List.mem_map.mp hn
  exact .path p

end Groups

section Shapes

variable [Add α] [Sub α] [Mul α] [Div α] [LE α] [DecidableLE α] [BEq α]

/-- The polygons of which something is visible. -/
def visiblePolygons (r : Rect α) (polygons : List (List (List (List α)))) :
    List (List (List (List α))) :=
  polygons.filter fun rings => !(visibleRings r rings).isEmpty

lemma visiblePolygons_eq_nil_iff {r : Rect α} {polygons : List (List (List (List α)))} :
    visiblePolygons r polygons = [] ↔ polygons.flatMap (visibleRings r) = [] := by
  simp [visiblePolygons]

variable [LT α] [DecidableLT α]

/-- Whether clipping leaves something of a shape. -/
def isVisible (r : Rect α) (s : Shape α) : Bool :=
  (visibleParts? r s).any fun parts => !parts.isEmpty

lemma isVisible_iff {r : Rect α} {s : Shape α} :
    isVisible r s = true ↔ ∃ parts, visibleParts? r s = some parts ∧ parts ≠ [] := by
  unfold isVisible
  cases visibleParts? r s <;> simp

/-- Whether a node portrays a shape. A single line is portrayed by the path of its only piece or by
a group of the paths of its pieces, lines and polygons by a group of paths, and several polygons by
a group of such groups, one for each polygon of which something is visible. -/
def Portrays (o : ExportOptions) (c : Canvas α) (t : Treatment) : Shape α → Node α → Prop
  | .lineString line, node => ∃ pieces, Clip.line? c.bounds (Shape.places line) = some pieces ∧
    ((∃ piece p, pieces = [piece] ∧ node = .path p ∧ Draws o c t piece p) ∨
      (2 ≤ pieces.length ∧ IsPathGroup o c t pieces node))
  | .multiLineString lines, node => ∃ pieces,
    (lines.mapM fun line => Clip.line? c.bounds (Shape.places line)) = some pieces ∧
      IsPathGroup o c t pieces.flatten node
  | .polygon rings, node => IsPathGroup o c t (visibleRings c.bounds rings) node
  | .multiPolygon polygons, node =>
    visiblePolygons c.bounds polygons ≠ [] ∧ ∃ groups, node = .group .plain groups ∧
      List.Forall₂ (fun rings => IsPathGroup o c t (visibleRings c.bounds rings))
        (visiblePolygons c.bounds polygons) groups
  | _, _ => False

lemma Portrays.full {o : ExportOptions} {c : Canvas α} {t : Treatment} {s : Shape α}
    {node : Node α} (h : Portrays o c t s node) : node.Full := by
  cases s with
  | lineString line =>
    obtain ⟨pieces, -, ⟨piece, p, -, rfl, -⟩ | ⟨-, hgroup⟩⟩ := h
    · exact .path p
    · exact hgroup.full
  | multiLineString lines =>
    obtain ⟨pieces, -, hgroup⟩ := h
    exact hgroup.full
  | polygon rings => exact IsPathGroup.full h
  | multiPolygon polygons =>
    obtain ⟨hne, groups, rfl, hgroups⟩ := h
    exact .group (ne_nil_of_forall₂ hgroups hne)
      (forall_mem_of_forall₂ (fun _ _ hgroup => hgroup.full) hgroups)
  | point => cases h
  | multiPoint => cases h
  | collection => cases h

end Shapes

/-! ### Paths -/

variable [Zero α] [One α] [Add α] [Sub α] [Neg α] [Mul α] [Div α] [LT α] [LE α]
  [DecidableLT α] [DecidableLE α] [BEq α] [Hypot α] [OfDouble α]

lemma simplified_cases (o : ExportOptions) (points : List (Point α)) :
    simplified o points = points ∨
      ∃ tolerance, simplified o points = Simplify.line tolerance points := by
  unfold simplified
  split
  · split
    · exact .inr ⟨_, rfl⟩
    · exact .inl rfl
  · exact .inl rfl

lemma traces_simplified (o : ExportOptions) (points : List (Point α)) :
    Traces o points (simplified o points) where
  sublist := simplified_sublist o points
  first := by
    rcases simplified_cases o points with h | ⟨tolerance, h⟩ <;> rw [h]
    exact Simplify.head?_line tolerance points
  last := by
    rcases simplified_cases o points with h | ⟨tolerance, h⟩ <;> rw [h]
    exact Simplify.getLast?_line tolerance points
  all hall := by
    unfold simplified
    split
    · next tolerance htolerance =>
      exact if_neg ((hall tolerance htolerance).elim not_pos_of_isNaN id)
    · rfl

lemma draws_of_path? {o : ExportOptions} {c : Canvas α} {t : Treatment} {part : List (Point α)}
    {p : Path α} (h : path? o c t part = some p) : Draws o c t part p := by
  have htraces := traces_simplified o (part.map c.place)
  obtain ⟨steps, hsteps, rfl⟩ := Option.map_eq_some_iff.mp h
  match hpoints : simplified o (part.map c.place) with
  | [] =>
    rw [hpoints] at hsteps
    cases hsteps
  | [_] =>
    rw [hpoints] at hsteps
    cases hsteps
  | first :: second :: rest =>
    rw [hpoints] at hsteps htraces
    obtain rfl := Option.some.inj hsteps
    exact ⟨⟨first, second :: rest, List.cons_ne_nil _ _, htraces, rfl⟩, rfl, rfl⟩

/-- No part of two points or more is lost. -/
lemma forall₂_draws (o : ExportOptions) (c : Canvas α) (t : Treatment)
    {parts : List (List (Point α))} (h : ∀ part ∈ parts, 2 ≤ part.length) :
    List.Forall₂ (Draws o c t) parts (parts.filterMap (path? o c t)) := by
  have hdrawn : List.Forall₂ (Draws o c t) (parts.filter fun _ => true)
      (parts.filterMap (path? o c t)) := by
    refine forall₂_filter_filterMap (fun part hpart _ => ?_) (by simp)
    obtain ⟨p, hp⟩ := Option.isSome_iff_exists.mp (path?_isSome o c t (h part hpart))
    exact ⟨p, hp, draws_of_path? hp⟩
  rwa [List.filter_true] at hdrawn

/-! ### Nodes -/

lemma exists_pathGroup (o : ExportOptions) (c : Canvas α) (t : Treatment)
    {parts : List (List (Point α))} (hparts : ∀ part ∈ parts, 2 ≤ part.length) (hne : parts ≠ []) :
    ∃ node, pathGroup? (parts.filterMap (path? o c t)) = some node ∧
      IsPathGroup o c t parts node := by
  have hdrawn := forall₂_draws o c t hparts
  exact ⟨_, group?_of_ne_nil (by simpa using ne_nil_of_forall₂ hdrawn hne), hne, _, rfl, hdrawn⟩

/-- The groups of several polygons. -/
lemma forall₂_polygons (o : ExportOptions) (c : Canvas α) (t : Treatment)
    (polygons : List (List (List (List α)))) :
    List.Forall₂ (fun rings => IsPathGroup o c t (visibleRings c.bounds rings))
      (visiblePolygons c.bounds polygons)
      (polygons.filterMap fun rings => pathGroup? (ringPaths o c t rings)) := by
  refine forall₂_filter_filterMap (fun rings _ hvisible => ?_) fun rings _ hhidden => ?_
  · have hne : visibleRings c.bounds rings ≠ [] := by simpa using hvisible
    rw [ringPaths_eq]
    exact exists_pathGroup o c t (fun _ => two_le_length_of_mem_visibleRings) hne
  · have hnil : visibleRings c.bounds rings = [] := by simpa using hhidden
    rw [ringPaths_eq, hnil]
    rfl

lemma shapeNode?_multiLineString {o : ExportOptions} {c : Canvas α} (t : Treatment)
    {lines : List (List (List α))} {pieces : List (List (List (Point α)))}
    (h : (lines.mapM fun line => Clip.line? c.bounds (Shape.places line)) = some pieces) :
    shapeNode? o c t (.multiLineString lines) =
      some (pathGroup? (pieces.flatten.filterMap (path? o c t))) := by
  have hparts : visibleParts? c.bounds (.multiLineString lines) = some pieces.flatten := by
    rw [visibleParts?, h, Option.map_some]
  have hpaths := linePaths?_eq o c t lines
  rw [hparts, Option.map_some] at hpaths
  obtain ⟨paths, hpaths, hflatten⟩ := Option.map_eq_some_iff.mp hpaths
  rw [shapeNode?, hpaths, Option.map_some, hflatten]

/-- A single line is drawn by a path if one piece of it is visible, else by a group. -/
lemma exists_portrays_lineString (o : ExportOptions) {c : Canvas α} (t : Treatment)
    {line : List (List α)} {pieces : List (List (Point α))}
    (h : Clip.line? c.bounds (Shape.places line) = some pieces) (hne : pieces ≠ []) :
    ∃ node, shapeNode? o c t (.lineString line) = some (some node) ∧
      Portrays o c t (.lineString line) node := by
  have hparts : ∀ piece ∈ pieces, 2 ≤ piece.length := Clip.two_le_length_of_line? h
  have hdrawn := forall₂_draws o c t hparts
  rw [shapeNode?, linePaths?, h, Option.map_some, Option.map_some]
  unfold lineNode?
  split
  · next p hpaths =>
    rw [hpaths] at hdrawn
    obtain ⟨piece, _, hp, hnil, hpieces⟩ := List.forall₂_cons_right_iff.mp hdrawn
    rw [List.forall₂_nil_right_iff.mp hnil] at hpieces
    exact ⟨_, rfl, pieces, h, .inl ⟨piece, p, hpieces, rfl, hp⟩⟩
  · next hmany =>
    obtain ⟨group, hgroup, hisGroup⟩ := exists_pathGroup o c t hparts hne
    refine ⟨group, congrArg some hgroup, pieces, h, .inr ⟨?_, hisGroup⟩⟩
    -- otherwise there would be one piece and so one path
    by_contra! hone
    have hpos := List.length_pos_iff.mpr hne
    have hlength := hdrawn.length_eq
    obtain ⟨p, hp⟩ := List.length_eq_one_iff.mp
      (show (pieces.filterMap (path? o c t)).length = 1 by omega)
    exact hmany p hp

/-- A shape of which something is visible is portrayed. -/
lemma exists_portrays (o : ExportOptions) (c : Canvas α) (t : Treatment) {s : Shape α}
    {parts : List (List (Point α))} (h : visibleParts? c.bounds s = some parts) (hne : parts ≠ []) :
    ∃ node, shapeNode? o c t s = some (some node) ∧ Portrays o c t s node := by
  have hparts : ∀ part ∈ parts, 2 ≤ part.length := two_le_length_of_visibleParts? h
  cases s with
  | lineString line => exact exists_portrays_lineString o t h hne
  | multiLineString lines =>
    obtain ⟨pieces, hpieces, rfl⟩ := Option.map_eq_some_iff.mp h
    obtain ⟨node, hnode, hgroup⟩ := exists_pathGroup o c t hparts hne
    exact ⟨node, (shapeNode?_multiLineString t hpieces).trans (congrArg some hnode), pieces,
      hpieces, hgroup⟩
  | polygon rings =>
    obtain rfl := Option.some.inj h
    obtain ⟨node, hnode, hgroup⟩ := exists_pathGroup o c t hparts hne
    rw [shapeNode?, ringPaths_eq]
    exact ⟨node, congrArg some hnode, hgroup⟩
  | multiPolygon polygons =>
    obtain rfl := Option.some.inj h
    have hgroups := forall₂_polygons o c t polygons
    have hne : visiblePolygons c.bounds polygons ≠ [] := visiblePolygons_eq_nil_iff.not.mpr hne
    exact ⟨_, congrArg some (group?_of_ne_nil (ne_nil_of_forall₂ hgroups hne)), hne, _, rfl,
      hgroups⟩
  | _ => exact absurd (Option.some.inj h).symm hne

lemma shapeNode?_of_hidden (o : ExportOptions) (c : Canvas α) (t : Treatment) {s : Shape α}
    (h : visibleParts? c.bounds s = some []) : shapeNode? o c t s = some none := by
  cases s with
  | lineString line =>
    have hpieces : Clip.line? c.bounds (Shape.places line) = some [] := h
    rw [shapeNode?, linePaths?, hpieces]
    rfl
  | multiLineString lines =>
    obtain ⟨pieces, hpieces, hnil⟩ := Option.map_eq_some_iff.mp h
    rw [shapeNode?_multiLineString t hpieces, hnil]
    rfl
  | polygon rings =>
    have hrings : visibleRings c.bounds rings = [] := Option.some.inj h
    rw [shapeNode?, ringPaths_eq, hrings]
    rfl
  | multiPolygon polygons =>
    have hgroups := forall₂_polygons o c t polygons
    rw [visiblePolygons_eq_nil_iff.mpr (Option.some.inj h)] at hgroups
    rw [shapeNode?, List.forall₂_nil_left_iff.mp hgroups]
    rfl
  | _ => rfl

end Export

open Export

namespace Exporter

variable [Zero α] [One α] [Add α] [Sub α] [Neg α] [Mul α] [Div α] [LT α] [LE α]
  [DecidableLT α] [DecidableLE α] [BEq α] [Hypot α] [OfDouble α]

/-- The features that are drawn for a rule that paints: those that it wins, if something of them is
visible. -/
lemma forall₂_portrays {o : ExportOptions} {c : Canvas α} {t : Treatment}
    {features : List (MapFeature α)} {nodes : List (Node α)}
    (h : featureNodes? o c t features = some nodes) :
    List.Forall₂ (fun f node => Portrays o c t f.shape node)
      (if t.isUnstyled then [] else features.filter fun f => isVisible c.bounds f.shape) nodes := by
  rw [eq_of_featureNodes? h]
  split
  · exact .nil
  · refine forall₂_filter_filterMap (fun f _ hvisible => ?_) fun f _ hhidden => ?_
    · obtain ⟨parts, hparts, hne⟩ := isVisible_iff.mp hvisible
      obtain ⟨node, hnode, hportrays⟩ := exists_portrays o c t hparts hne
      exact ⟨node, Option.join_eq_some_iff.mpr hnode, hportrays⟩
    · cases hparts : visibleParts? c.bounds f.shape with
      | none =>
        have hnone : shapeNode? o c t f.shape = none := by
          rw [← Option.not_isSome_iff_eq_none, isSome_shapeNode?_iff, hparts]
          exact Bool.false_ne_true
        rw [hnone, Option.join_none]
      | some parts =>
        obtain rfl : parts = [] := by simpa [isVisible, hparts] using hhidden
        rw [shapeNode?_of_hidden o c t hparts]
        rfl

/-- What is in the layers of an export. It ends if and only if every shape is clipped that a rule
that paints draws. Then a rule's layer has one node for each feature that the rule wins and of which
something is visible, in order. The node portrays the shape of the feature by paths, each of which
draws one piece or ring in the paint of the rule. It has one path at least, and no group in it is
empty. -/
theorem layers_portray (e : Exporter) (c : Canvas α) (d : Definition)
    (features : List (MapFeature α)) :
    ((e.run? c d features).isSome = true ↔
      ∀ (i : Nat) (r : Rule), d.rules[i]? = some r → r.treatment.isUnstyled = false →
        ∀ f ∈ wonBy d.rules i features, (visibleParts? c.bounds f.shape).isSome = true) ∧
    ∀ x, e.run? c d features = some x →
      ∃ layers : List (Node α), x.drawing.group? "Features" = some layers ∧
        layers.length = d.rules.length ∧
        ∀ i (r : Rule), d.rules[i]? = some r → ∃ nodes,
          layers[i]? = some (.group (.layer r.filter.label) nodes) ∧
          List.Forall₂ (fun f node => Portrays e.options c r.treatment f.shape node)
            (if r.treatment.isUnstyled then []
              else (wonBy d.rules i features).filter fun f => isVisible c.bounds f.shape) nodes ∧
          ∀ node ∈ nodes, node.paths ≠ [] ∧ node.Full := by
  constructor
  · simp only [isSome_visibleParts?_iff]
    exact isSome_run?_iff e c d features
  · intro x h
    obtain ⟨layers, hgroup, hlength, hlayers⟩ := exists_layers h
    refine ⟨layers, hgroup, hlength, fun i r hr => ?_⟩
    obtain ⟨nodes, hlayer, hnodes⟩ := hlayers i r hr
    have hportrays := forall₂_portrays hnodes
    refine ⟨nodes, hlayer, hportrays, ?_⟩
    refine forall_mem_of_forall₂ (fun f node hportrays => ?_) hportrays
    exact ⟨(Portrays.full hportrays).paths_ne_nil, Portrays.full hportrays⟩

theorem layers_portray_motorway :
    ∃ x, plainExporter.run? unitCanvas Renderer.overlappingStyle [motorwayLine, junction] = some x ∧
    ∃ layers : List (Node Float), x.drawing.group? "Features" = some layers ∧
    ∃ r, Renderer.overlappingRules[1]? = some r ∧
    ∃ node, layers[1]? = some (.group (.layer r.filter.label) [node]) ∧
      Portrays plainExporter.options unitCanvas r.treatment motorwayLine.shape node ∧
      node.Full := by
  obtain ⟨-, hended⟩ := layers_portray plainExporter unitCanvas Renderer.overlappingStyle
    [motorwayLine, junction]
  obtain ⟨x, h⟩ := exists_run?_motorway Renderer.overlappingStyle
    (List.Subset.refl [motorwayLine, junction])
  obtain ⟨layers, hgroup, -, hlayers⟩ := hended x h
  obtain ⟨nodes, hlayer, hportrays, hfull⟩ := hlayers 1 _ rfl
  have hvisible : isVisible unitCanvas.bounds motorwayLine.shape = true :=
    isVisible_iff.mpr ⟨_, line?_motorwayLine, List.cons_ne_nil _ _⟩
  have hdrawn : (wonBy Renderer.overlappingStyle.rules 1 [motorwayLine, junction]).filter
      (fun f => isVisible unitCanvas.bounds f.shape) = [motorwayLine] :=
    List.filter_cons_of_pos hvisible
  rw [if_neg (by decide), hdrawn] at hportrays
  obtain ⟨node, _, hnode, hnil, rfl⟩ := List.forall₂_cons_left_iff.mp hportrays
  obtain rfl := List.forall₂_nil_left_iff.mp hnil
  exact ⟨x, h, layers, hgroup, _, rfl, node, hlayer, hnode, (hfull node List.mem_cons_self).2⟩

end Exporter

end MapStyle
