import MapStyle.Proofs.MarkupReading
import MapStyle.Proofs.PlainText

/-!
# Drawings read back from SVG

An SVG text determines the drawing that it was written of, up to the numbers and colors, of which it
has the texts: groups with their labels and layer marks, paths, and texts, in the same order and
with the same nesting. No label and no text can be taken for markup.
-/

namespace MapStyle

/-- What an SVG text says of a part of a drawing. Attributes other than labels and layer marks stay
texts. -/
inductive Outline where
  | group (label : Option String) (isLayer : Bool) (others : List (String × String))
      (children : List Outline)
  | path (attributes : List (String × String))
  | text (attributes : List (String × String)) (content : String)

namespace Outline

def labelName : String := "inkscape:label"

def modeName : String := "inkscape:groupmode"

mutual

/-- The outline that an element gives, if it is one that drawings have. -/
def ofMarkup? : Markup → Option Outline
  | .element name attributes children =>
    if name = "g" then
      (ofMarkups? children).map (.group (attributes.lookup labelName)
        (attributes.lookup modeName == some "layer")
        (attributes.filter fun a => a.1 ≠ labelName ∧ a.1 ≠ modeName))
    else if name = "path" ∧ children.isEmpty then some (.path attributes)
    else none
  | .text name attributes content =>
    if name = "text" then some (.text attributes content) else none
  | .verbatim _ => none

def ofMarkups? : List Markup → Option (List Outline)
  | [] => some []
  | m :: ms =>
    match ofMarkup? m, ofMarkups? ms with
    | some outline, some outlines => some (outline :: outlines)
    | _, _ => none

end

/-- The attributes of the root of an SVG text, and the outlines of what it draws. -/
def ofSvg? (svg : String) : Option (List (String × String) × List Outline) :=
  match Markup.read? svg with
  | some (.element name attributes children) =>
    if name = "svg" then (ofMarkups? children).map (attributes, ·) else none
  | _ => none

end Outline

namespace Drawing

mutual

/-- Whether a part of a drawing has no ready markup. -/
def Node.isStructured : Node Float → Bool
  | .group _ children => areStructured children
  | .path _ => true
  | .label _ => true
  | .verbatim _ => false

def areStructured : List (Node Float) → Bool
  | [] => true
  | node :: nodes => node.isStructured && areStructured nodes

end

mutual

/-- The outline of a part of a drawing, unless it has ready markup. -/
def Node.outline? : Node Float → Option Outline
  | .group head children =>
    (outlines? children).map (.group head.label head.isLayer
      (head.transform.map fun t => ("transform", transformText t)).toList)
  | .path p => some (.path p.attributes)
  | .label l => some (.text l.attributes l.text)
  | .verbatim _ => none

def outlines? : List (Node Float) → Option (List Outline)
  | [] => some []
  | node :: nodes =>
    match node.outline?, outlines? nodes with
    | some outline, some outlines => some (outline :: outlines)
    | _, _ => none

end

/-! ### Markup of drawings -/

lemma attributes_group (h : GroupHead Float) :
    h.attributes = (h.label.map fun label => (Outline.labelName, label)).toList ++
      ({ h with label := none } : GroupHead Float).attributes := by
  simp [GroupHead.attributes, Outline.labelName]

lemma isName_group (h : GroupHead Float) : ∀ a ∈ h.attributes, Markup.IsName a.1 := by
  rw [attributes_group, List.forall_mem_append]
  constructor
  · cases h.label with
    | none => exact List.forall_mem_nil _
    | some label => simpa using (by decide : Markup.IsName Outline.labelName)
  · exact fun a ha => (plainAttributes_group h a ha).1

-- the names of a group's attributes differ, so looking one up finds its own value
lemma outline_group (h : GroupHead Float) :
    h.attributes.lookup Outline.labelName = h.label ∧
    (h.attributes.lookup Outline.modeName == some "layer") = h.isLayer ∧
    h.attributes.filter (fun a => a.1 ≠ Outline.labelName ∧ a.1 ≠ Outline.modeName) =
      (h.transform.map fun t => ("transform", transformText t)).toList := by
  obtain ⟨label, isLayer, transform⟩ := h
  cases label <;> cases isLayer <;> cases transform <;>
    simp [GroupHead.attributes, Outline.labelName, Outline.modeName, List.lookup_cons]

mutual

theorem Node.readable_markup : ∀ node : Node Float, node.isStructured = true →
    Markup.Readable node.markup
  | .group head children, h => by
    rw [Node.isStructured] at h
    rw [Node.markup]
    exact .element (by decide) (by decide) (isName_group head) (readable_markupOf children h)
  | .path p, _ => by
    rw [Node.markup]
    exact .element (by decide) (by decide) (fun a ha => (plainAttributes_path p a ha).1)
      (List.forall_mem_nil _)
  | .label l, _ => by
    rw [Node.markup]
    exact .text fun a ha => (plainAttributes_label l a ha).1
  | .verbatim _, h => by cases h

theorem readable_markupOf : ∀ nodes : List (Node Float), areStructured nodes = true →
    ∀ m ∈ markupOf nodes, Markup.Readable m
  | [], _ => List.forall_mem_nil _
  | node :: nodes, h => by
    rw [areStructured, Bool.and_eq_true] at h
    rw [markupOf, List.forall_mem_cons]
    exact ⟨Node.readable_markup node h.1, readable_markupOf nodes h.2⟩

end

mutual

theorem Node.ofMarkup?_markup : ∀ node : Node Float,
    Outline.ofMarkup? node.markup = node.outline?
  | .group head children => by
    obtain ⟨hlabel, hlayer, hothers⟩ := outline_group head
    rw [Node.markup, Outline.ofMarkup?, if_pos rfl, ofMarkups?_markupOf children, hlabel, hlayer,
      hothers, Node.outline?]
  | .path p => by
    rw [Node.markup, Outline.ofMarkup?, if_neg (by decide), if_pos ⟨rfl, rfl⟩, Node.outline?]
  | .label l => by
    rw [Node.markup, Outline.ofMarkup?, if_pos rfl, Node.outline?]
  | .verbatim markup => by
    rw [Node.markup, Outline.ofMarkup?, Node.outline?]

theorem ofMarkups?_markupOf : ∀ nodes : List (Node Float),
    Outline.ofMarkups? (markupOf nodes) = outlines? nodes
  | [] => by rw [markupOf, Outline.ofMarkups?, outlines?]
  | node :: nodes => by
    rw [markupOf, Outline.ofMarkups?, outlines?, Node.ofMarkup?_markup node,
      ofMarkups?_markupOf nodes]

end

mutual

theorem Node.exists_outline : ∀ node : Node Float, node.isStructured = true →
    ∃ outline, node.outline? = some outline
  | .group head children, h => by
    rw [Node.isStructured] at h
    obtain ⟨outlines, houtlines⟩ := exists_outlines children h
    exact ⟨_, by rw [Node.outline?, houtlines, Option.map_some]⟩
  | .path p, _ => ⟨_, by rw [Node.outline?]⟩
  | .label l, _ => ⟨_, by rw [Node.outline?]⟩
  | .verbatim _, h => by cases h

theorem exists_outlines : ∀ nodes : List (Node Float), areStructured nodes = true →
    ∃ outlines, outlines? nodes = some outlines
  | [], _ => ⟨[], by rw [outlines?]⟩
  | node :: nodes, h => by
    rw [areStructured, Bool.and_eq_true] at h
    obtain ⟨outline, houtline⟩ := Node.exists_outline node h.1
    obtain ⟨outlines, houtlines⟩ := exists_outlines nodes h.2
    exact ⟨_, by rw [outlines?, houtline, houtlines]⟩

end

/-- The attributes of the element that a part of a drawing is written as. -/
def Node.attributes : Node Float → List (String × String)
  | .group head _ => head.attributes
  | .path p => p.attributes
  | .label l => l.attributes
  | .verbatim _ => []

lemma Node.escaped_attribute {node : Node Float} {a : String × String} (ha : a ∈ node.attributes)
    (hlabel : a.1 ≠ Outline.labelName) : Markup.escaped a.2 = a.2.toList := by
  apply Markup.escaped_of_isPlain
  cases node with
  | group head children =>
    rw [attributes, attributes_group, List.mem_append] at ha
    rcases ha with ha | ha
    · obtain ⟨label, -, rfl⟩ := Option.map_eq_some_iff.mp (Option.mem_toList.mp ha)
      exact absurd rfl hlabel
    · exact (plainAttributes_group head a ha).2
  | path p => exact (plainAttributes_path p a ha).2
  | label l => exact (plainAttributes_label l a ha).2
  | verbatim markup => cases ha

/-- The text of a drawing without ready markup reads back. A reader that splits it at angle brackets
and quotes and undoes the escapes finds all elements closed in their order and gives the outline of
the drawing: the same tree with the same labels, layer marks and texts, whatever characters these
have, and all other attributes as they are written. These are written without escapes, so what is
read of them is what stands between the quotes. -/
theorem ofSvg?_toSvg {d : Drawing Float} (h : areStructured d.children = true) :
    (∃ outlines, outlines? d.children = some outlines ∧
      Outline.ofSvg? d.toSvg = some (rootAttributes d.size, outlines)) ∧
    (∀ a ∈ rootAttributes d.size, Markup.escaped a.2 = a.2.toList) ∧
    ∀ node : Node Float, ∀ a ∈ node.attributes, a.1 ≠ Outline.labelName →
      Markup.escaped a.2 = a.2.toList := by
  have hroot := plainAttributes_root d.size
  refine ⟨?_, fun a ha => Markup.escaped_of_isPlain (hroot a ha).2,
    fun _ _ ha hlabel => Node.escaped_attribute ha hlabel⟩
  obtain ⟨outlines, houtlines⟩ := exists_outlines d.children h
  have hread : Markup.read? d.toSvg =
      some (.element "svg" (rootAttributes d.size) (markupOf d.children)) :=
    Markup.read?_document (by decide) (by decide) (fun a ha => (hroot a ha).1)
      (readable_markupOf d.children h)
  refine ⟨outlines, houtlines, ?_⟩
  rw [Outline.ofSvg?, hread]
  simp only [if_pos, ofMarkups?_markupOf, houtlines, Option.map_some]

/-- A text that looks like the end of its element and the beginning of others. -/
def trickyLabel : Label Float :=
  ⟨⟨0.0, 5.0⟩, "</text></g><g inkscape:label=\"&lt;\">\n", 12.0, .middle, .black⟩

/-- A layer with an empty group and a text, whose label ends its attribute if it is not escaped. -/
def trickyDrawing : Drawing Float :=
  ⟨⟨800.0, 600.0⟩, [.group (.layer "A \"&quot;\"/>\n") [.group .plain [], .label trickyLabel]]⟩

theorem ofSvg?_toSvg_tricky : areStructured trickyDrawing.children = true ∧
    Outline.ofSvg? trickyDrawing.toSvg = some (rootAttributes ⟨800.0, 600.0⟩,
      [.group (some "A \"&quot;\"/>\n") true []
        [.group none false [] [],
          .text trickyLabel.attributes "</text></g><g inkscape:label=\"&lt;\">\n"]]) := by
  have h : areStructured trickyDrawing.children = true := by decide
  obtain ⟨⟨outlines, houtlines, hread⟩, -⟩ := ofSvg?_toSvg h
  cases houtlines
  exact ⟨h, hread⟩

end Drawing

end MapStyle
