import MapStyle.Json.Reader
import MapStyle.Json.Record
import MapStyle.Predicate

/-!
# Renderer styles

Renderer styles: data sources and the layers drawn from them, the bottom layer first. Paint and
layout properties stay JSON values under their names in the style specification.
-/

namespace MapStyle.Renderer

open Json

/--
A source of vector tiles, by templates of tile addresses or by the address of its description.
-/
structure Source where
  tiles : List String
  url : Option String

/-- What a layer draws. -/
inductive LayerKind where
  | fill
  | line
  | symbol
deriving DecidableEq

/-- One layer. Without a filter it draws all features of its source layer. -/
structure Layer where
  id : String
  kind : LayerKind
  source : String
  sourceLayer : String
  filter : Option Predicate
  layout : Dictionary Json
  paint : Dictionary Json
  minZoom : Option UInt8
  maxZoom : Option UInt8

/-- A renderer style. -/
structure Document where
  version : UInt8
  sources : Dictionary Source
  glyphs : Option String
  sprite : Option String
  layers : List Layer

/-- The version of the style specification. -/
def specVersion : UInt8 := 8

def LayerKind.name : LayerKind → String
  | .fill => "fill"
  | .line => "line"
  | .symbol => "symbol"

def LayerKind.ofName? : String → Option LayerKind
  | "fill" => some .fill
  | "line" => some .line
  | "symbol" => some .symbol
  | _ => none

def vectorType : String := "vector"

def Document.layer? (d : Document) (id : String) : Option Layer :=
  d.layers.find? (·.id == id)

/-- Whether a layer has a filter that is true of a feature. -/
def Layer.draws (l : Layer) (f : Feature) : Bool :=
  (l.filter.map fun p => p.holds f).getD false

/-- The layers whose filter is true of a feature, bottom first. -/
def Document.drawing (d : Document) (f : Feature) : List Layer :=
  d.layers.filter fun l => l.draws f

/-- A member that is left out where there is nothing to say. -/
def optionalMember {α : Type} (name : String) (x : Option α) (encode : α → Json) :
    List (String × Json) :=
  (x.map fun a => (name, encode a)).toList

def ofByte (n : UInt8) : Json :=
  .ofNat n.toNat

def Source.toJson (s : Source) : Json :=
  .object ([("type", .string vectorType)] ++
    (if s.tiles.isEmpty then [] else [("tiles", .ofStrings s.tiles)]) ++
    optionalMember "url" s.url .string)

def Layer.toJson (l : Layer) : Json :=
  .object ([("id", .string l.id), ("type", .string l.kind.name), ("source", .string l.source),
      ("source-layer", .string l.sourceLayer)] ++
    optionalMember "filter" l.filter Predicate.toJson ++
    (if l.layout.entries.isEmpty then [] else [("layout", .object l.layout.entries)]) ++
    [("paint", .object l.paint.entries)] ++
    optionalMember "minzoom" l.minZoom ofByte ++ optionalMember "maxzoom" l.maxZoom ofByte)

def Document.toJson (d : Document) : Json :=
  .object ([("version", ofByte d.version),
      ("sources", .object (d.sources.entries.map fun e => (e.1, e.2.toJson)))] ++
    optionalMember "glyphs" d.glyphs .string ++ optionalMember "sprite" d.sprite .string ++
    [("layers", .array (d.layers.map Layer.toJson))])

def Source.ofTree? (t : Tree) : Option Source := do
  let fs ← Fields.ofTree? ["type", "tiles", "url"] false t
  let kind ← fs.required? "type" Tree.choice?
  if kind ≠ vectorType then none
  return {
    tiles := ← fs.withDefault? "tiles" [] (Tree.list? Tree.string?)
    url := ← fs.withDefault? "url" none (Tree.nullable? Tree.string?) }

def predicate? (t : Tree) : Option Predicate :=
  t.value?.bind fun j => (Predicate.ofJson j).toOption

def Layer.ofTree? (t : Tree) : Option Layer := do
  let fs ← Fields.ofTree? ["id", "type", "source", "source-layer", "filter", "layout", "paint",
    "minzoom", "maxzoom"] false t
  return {
    id := ← fs.required? "id" Tree.string?
    kind := ← fs.required? "type" fun t => t.choice?.bind LayerKind.ofName?
    source := ← fs.required? "source" Tree.string?
    sourceLayer := ← fs.required? "source-layer" Tree.string?
    filter := ← fs.withDefault? "filter" none (Tree.nullable? predicate?)
    layout := ← fs.withDefault? "layout" .empty (Tree.dictionary? Tree.value?)
    paint := ← fs.withDefault? "paint" .empty (Tree.dictionary? Tree.value?)
    minZoom := ← fs.withDefault? "minzoom" none (Tree.nullable? Tree.byte?)
    maxZoom := ← fs.withDefault? "maxzoom" none (Tree.nullable? Tree.byte?) }

def Document.ofTree? (t : Tree) : Option Document := do
  let fs ← Fields.ofTree? ["version", "sources", "glyphs", "sprite", "layers"] false t
  return {
    version := ← fs.required? "version" Tree.byte?
    sources := ← fs.required? "sources" (Tree.dictionary? Source.ofTree?)
    glyphs := ← fs.withDefault? "glyphs" none (Tree.nullable? Tree.string?)
    sprite := ← fs.withDefault? "sprite" none (Tree.nullable? Tree.string?)
    layers := ← fs.required? "layers" (Tree.list? Layer.ofTree?) }

def Document.ofText? (text : String) : Option Document :=
  (Tree.ofText? text).bind Document.ofTree?

end MapStyle.Renderer
