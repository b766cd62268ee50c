import MapStyle.Json.Reader
import MapStyle.MapFeature

/-!
# GeoJSON

Map features read from GeoJSON. Every part that the format describes is checked, and one that is
malformed makes the whole text invalid; other members may hold anything.
-/

namespace MapStyle.GeoJson

/-- A position: numbers only, and two at least. -/
def position? (j : Json) : Option (List Float) := do
  let p ← j.list? Json.float?
  if p.length < 2 then none else some p

/-- Whether a bounding box, if there is one, is null or an array of numbers. -/
def hasValidBox (members : List (String × Json)) : Bool :=
  match members.lookup "bbox" with
  | none => true
  | some .null => true
  | some j => (j.list? Json.float?).isSome

def typeOf? (members : List (String × Json)) : Option String :=
  (members.lookup "type").bind Json.string?

/-- The geometry that coordinates have by its name. -/
def ofCoordinates? (kind : String) (j : Json) : Option (Shape Float) :=
  match kind with
  | "Point" => (position? j).map .point
  | "MultiPoint" => (j.list? position?).map .multiPoint
  | "LineString" => (j.list? position?).map .lineString
  | "MultiLineString" => (j.list? (Json.list? position?)).map .multiLineString
  | "Polygon" => (j.list? (Json.list? position?)).map .polygon
  | "MultiPolygon" => (j.list? (Json.list? (Json.list? position?))).map .multiPolygon
  | _ => none

theorem sizeOf_lookup_lt {members : List (String × Json)} {key : String} {j : Json}
    (h : members.lookup key = some j) : sizeOf j < sizeOf members := by
  induction members with
  | nil => simp at h
  | cons m members ih =>
    obtain ⟨k, v⟩ := m
    rw [List.lookup_cons] at h
    split at h
    · cases h
      simp only [List.cons.sizeOf_spec, Prod.mk.sizeOf_spec]
      omega
    · have := ih h
      simp only [List.cons.sizeOf_spec]
      omega

def shape? : Json → Option (Shape Float)
  | .object members =>
    if hasValidBox members then
      match typeOf? members with
      | some "GeometryCollection" =>
        match _h : members.lookup "geometries" with
        | some (.array items) =>
          let shapes : Option (List (Shape Float)) := items.attach.mapM fun item => shape? item.1
          shapes.map .collection
        | _ => none
      | some kind => (members.lookup "coordinates").bind (ofCoordinates? kind)
      | none => none
    else none
  | _ => none
termination_by j => sizeOf j
decreasing_by
  have hitems := sizeOf_lookup_lt _h
  have hitem := List.sizeOf_lt_of_mem item.2
  simp only [Json.array.sizeOf_spec] at hitems
  simp only [Json.object.sizeOf_spec]
  omega

/-- The geometry of a feature's object, which may be null but not missing. -/
def geometry? (members : List (String × Json)) : Option (Option (Shape Float)) :=
  match members.lookup "geometry" with
  | some .null => some none
  | some j => (shape? j).map some
  | none => none

/-- The properties of a feature's object, which may be null or missing. -/
def properties? (members : List (String × Json)) : Option (Dictionary PropertyValue) :=
  match members.lookup "properties" with
  | none => some .empty
  | some .null => some .empty
  | some (.object properties) => some (Feature.propertiesOf properties)
  | some _ => none

/-- The identifier of a feature's object: a whole number or a string that denotes one. -/
def id? (members : List (String × Json)) : Option (Option Int64) :=
  match members.lookup "id" with
  | none => some none
  | some (.number n) => some n.word?
  | some (.string s) => some (Text.readWord? s)
  | some _ => none

/-- The feature of an object, or `none` inside for one without geometry. -/
def feature? : Json → Option (Option (MapFeature Float))
  | .object members => do
    let kind ← typeOf? members
    if kind ≠ "Feature" ∨ ¬hasValidBox members then none
    let shape ← geometry? members
    let properties ← properties? members
    let id ← id? members
    return shape.map fun shape => {
      id
      properties
      shape
      source := (members.lookup "source").bind Json.string?
      sourceLayer := (members.lookup "sourceLayer").bind Json.string? }
  | _ => none

/-- The features with geometry in a collection, a single feature or a bare geometry. -/
def features? : Json → Option (List (MapFeature Float))
  | .object members =>
    match typeOf? members with
    | some "FeatureCollection" =>
      if hasValidBox members then
        ((members.lookup "features").bind (Json.list? feature?)).map (·.filterMap id)
      else none
    | some "Feature" => (feature? (.object members)).map Option.toList
    | _ => (shape? (.object members)).map fun shape => [.bare shape]
  | _ => none

def ofText? (text : String) : Option (List (MapFeature Float)) :=
  (Json.ofText? text).bind features?

end MapStyle.GeoJson
