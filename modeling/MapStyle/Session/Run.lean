import MapStyle.Export
import MapStyle.GeoJson
import MapStyle.Json.Writer
import MapStyle.Renderer.Compile
import MapStyle.Session.Config
import MapStyle.Session.Sample

/-!
# Sessions

A session: points of interest are saved in a style, which is compiled for the renderer and exported
as a drawing. It depends only on what it is given, which includes the content of all files.
-/

namespace MapStyle.Session

/-- A file that is named to a session. One that cannot be read has no text. -/
structure InputFile where
  path : String
  text : Option String

/-- A directory that is named to a session. One that cannot be listed has no entries. -/
structure InputDirectory where
  path : String
  entries : Option (List DirectoryEntry)

/-- What a session is given. -/
structure Request where
  config : Option InputFile
  style : Option InputFile
  features : Option InputFile
  icons : Option InputDirectory
  /-- The identifiers of the point features to save, in order. -/
  saved : List Int64
  overrides : Overrides

/-- Why a session fails. -/
inductive Failure where
  | unreadableConfig (path : String)
  | malformedConfig (path : String)
  | unreadable (path : String)
  | style (path : String)
  | features (path : String)
  | compilation
  | icons (e : ExportError)

/-- The failure in words. -/
def Failure.message : Failure → String
  | .unreadableConfig path => "reading config `" ++ path ++ "`"
  | .malformedConfig path => "parsing config `" ++ path ++ "`"
  | .unreadable path => "reading `" ++ path ++ "`"
  | .style path => "loading style `" ++ path ++ "`"
  | .features path => "loading features `" ++ path ++ "`"
  | .compilation => "compiling style"
  | .icons e => e.message

def Failure.report (f : Failure) : String :=
  "Error: " ++ f.message

/-- The texts that a session makes, and the problems met while drawing. -/
structure Outcome where
  /-- The style definition as edited, as JSON. -/
  definition : String
  /-- The renderer style, as JSON. -/
  style : String
  drawing : Artifact
  diagnostics : List Diagnostic

/-- Some value, or a failure for none. -/
def orFail {α : Type} (failure : Failure) (x : Option α) : Except Failure α :=
  match x with
  | some a => .ok a
  | none => .error failure

def InputFile.read (f : InputFile) : Except Failure String :=
  orFail (.unreadable f.path) f.text

/-- The settings from a file or by default, with those of the environment. -/
def loadConfig (file : Option InputFile) (overrides : Overrides) : Except Failure Config := do
  let config ← match file with
    | some f => do
      let text ← orFail (.unreadableConfig f.path) f.text
      orFail (.malformedConfig f.path) ((Json.Tree.ofText? text).bind Config.ofTree?)
    | none => pure Config.default
  return config.override overrides

/-- The style from a file, or the one of a new session. -/
def loadStyle : Option InputFile → Except Failure Definition
  | some f => do
    let text ← f.read
    (Definition.ofText text).mapError fun _ => .style f.path
  | none => .ok Sample.style

/-- The features from a file, or those of a new session around a center. -/
def loadFeatures (center : Point Float) :
    Option InputFile → Except Failure (List (MapFeature Float))
  | some f => do
    let text ← f.read
    orFail (.features f.path) (GeoJson.ofText? text)
  | none => .ok (Sample.features center)

def loadIcons : Option InputDirectory → Except Failure IconAtlas
  | some d => (IconAtlas.load d.path d.entries).mapError .icons
  | none => .ok .empty

/-- The point of interest of the first point feature with an identifier. -/
def poiWithId? (features : List (MapFeature Float)) (id : Int64) : Option Poi :=
  (features.filter fun f => f.id == some id).findSome? MapFeature.poi?

/-- Toggles the point of interest with an identifier; without such a feature nothing changes. -/
def savePoi (features : List (MapFeature Float)) (d : Definition) (id : Int64) : Definition :=
  match poiWithId? features id with
  | some poi => d.togglePoi poi
  | none => d

def savePois (features : List (MapFeature Float)) (d : Definition) (ids : List Int64) :
    Definition :=
  ids.foldl (savePoi features) d

/-- What a session writes and exports. -/
structure Prepared where
  exporter : Exporter
  canvas : Canvas Float
  style : Definition
  features : List (MapFeature Float)
  document : Renderer.Document

/-- Prepares an export. The first part that fails, in this order, decides the failure. -/
def prepare (r : Request) : Except Failure Prepared := do
  let config ← loadConfig r.config r.overrides
  let style ← loadStyle r.style
  let features ← loadFeatures config.view.center r.features
  let style := savePois features style r.saved
  let icons ← loadIcons r.icons
  let document ← (Renderer.compile config.style style).mapError fun _ => .compilation
  return {
    exporter := ⟨config.options, icons, .estimate⟩
    canvas := ⟨config.view.project, config.view.bounds⟩
    style, features, document }

/-- The outcome of an export. -/
def Prepared.outcome (p : Prepared) (result : Export Float) : Outcome where
  definition := p.style.toJson.pretty
  style := p.document.toJson.pretty
  drawing := result.artifact
  diagnostics := result.diagnostics

/-- Runs a session, if its export ends. -/
def run? (r : Request) : Option (Except Failure Outcome) :=
  match prepare r with
  | .ok p => (p.exporter.run? p.canvas p.style p.features).map fun result => .ok (p.outcome result)
  | .error failure => some (.error failure)

end MapStyle.Session
