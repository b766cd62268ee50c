import MapStyle.MapFeature
import MapStyle.Rule

/-!
# Diagnostics

Trouble that an export reports next to the drawing.
-/

namespace MapStyle

/-- A problem that does not keep the rest of a drawing from being made. -/
inductive Diagnostic where
  /-- A rule claims a feature of a kind that is not drawn. -/
  | unsupportedGeometry (rule : String) (feature : Option Int64) (geometry : String)
  /-- A rule paints nothing. -/
  | unstyledRule (rule : String)
  /-- There is no icon for a saved point of interest. Its label is drawn all the same. -/
  | missingIcon (poi sprite : String)
deriving DecidableEq

/-- The problem in words. -/
def Diagnostic.message : Diagnostic → String
  | .unsupportedGeometry rule feature geometry =>
    let featureText := match feature with
      | some id => "feature " ++ Text.wordText id
      | none => "a feature"
    "rule `" ++ rule ++ "` matched " ++ featureText ++ " with unsupported geometry " ++ geometry
  | .unstyledRule rule => "rule `" ++ rule ++ "` has no line or fill"
  | .missingIcon poi sprite => "POI `" ++ poi ++ "` uses unknown sprite `" ++ sprite ++ "`"

end MapStyle
