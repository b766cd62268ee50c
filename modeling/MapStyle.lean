import MapStyle.Main
import MapStyle.Proofs.Priority
import MapStyle.Proofs.RendererLayers
import MapStyle.Proofs.ExportLayers
import MapStyle.Proofs.VisibleParts
import MapStyle.Proofs.Opacity
import MapStyle.Proofs.Paint
import MapStyle.Proofs.Agreement
import MapStyle.Proofs.JsonTokens
import MapStyle.Proofs.JsonText
import MapStyle.Proofs.JsonRecords
import MapStyle.Proofs.ColorText
import MapStyle.Proofs.Expressions
import MapStyle.Proofs.DocumentText
import MapStyle.Proofs.FiniteNumbers
import MapStyle.Proofs.DefinitionText
import MapStyle.Proofs.Toggles
import MapStyle.Proofs.Edits
import MapStyle.Proofs.UnaffectedFeatures
import MapStyle.Proofs.SavedPois
import MapStyle.Proofs.Reload
import MapStyle.Proofs.LayerIds
import MapStyle.Proofs.Suggestions
import MapStyle.Proofs.Highlights
import MapStyle.Proofs.MarkupReading
import MapStyle.Proofs.PlainText
import MapStyle.Proofs.Revisions
import MapStyle.Proofs.UndoneEdits
import MapStyle.Proofs.DrawingText
import MapStyle.Proofs.ClippedPoints
import MapStyle.Proofs.ExpressionForms
import MapStyle.Proofs.LayerSources
import MapStyle.Proofs.CanvasBounds
import MapStyle.Proofs.LegalCharacters
import MapStyle.Proofs.VisibleSegments
import MapStyle.Proofs.VisiblePieces
import MapStyle.Proofs.WindingNumber
import MapStyle.Proofs.SimplifiedRings
import MapStyle.Proofs.FlippingToggles
import MapStyle.Proofs.ClippedRings
import MapStyle.Proofs.FirstDefect
import MapStyle.Proofs.DrawnShapes
import MapStyle.Proofs.CapitalKeys
import MapStyle.Proofs.ScreenPositions
import MapStyle.Proofs.IconListings
import MapStyle.Proofs.Cuts
import MapStyle.Proofs.DecimalNumbers
import MapStyle.Proofs.IconSizes
import MapStyle.Proofs.RoundedDoubles
import MapStyle.Proofs.DoubleArithmetic
import MapStyle.Proofs.ShortestDecimals
import MapStyle.Proofs.StrokeWidths
import MapStyle.Proofs.EndlessCuts
