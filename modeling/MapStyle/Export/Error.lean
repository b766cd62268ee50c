/-!
# Errors of exports

What can go wrong while the inputs of an export are read.
-/

namespace MapStyle

/-- Why an export cannot be made. Trouble with single features or icons is no reason. -/
inductive ExportError where
  | featureQuery
  | icon (path : String)
  | directory (path : String)
  | geoJson
deriving DecidableEq

/-- The error in words. -/
def ExportError.message : ExportError → String
  | .featureQuery => "feature query failed"
  | .icon path => "failed to read icon `" ++ path ++ "`"
  | .directory path => "failed to read directory `" ++ path ++ "`"
  | .geoJson => "invalid GeoJSON"

end MapStyle
