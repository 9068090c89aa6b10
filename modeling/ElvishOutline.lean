import ElvishOutline.Main
import ElvishOutline.Proofs.LineEnds
import ElvishOutline.Proofs.Lookahead
import ElvishOutline.Proofs.Segmentation
import ElvishOutline.Proofs.Totality
import ElvishOutline.Proofs.Shifting
import ElvishOutline.Proofs.Composition
import ElvishOutline.Proofs.Matching
import ElvishOutline.Proofs.FoldPairs
import ElvishOutline.Proofs.FoldText
import ElvishOutline.Proofs.Collapsing
import ElvishOutline.Proofs.HiddenLines
import ElvishOutline.Proofs.Partition
import ElvishOutline.Proofs.OpenDelimiters
import ElvishOutline.Proofs.Spans
import ElvishOutline.Proofs.Trails
import ElvishOutline.Proofs.Acceptance
import ElvishOutline.Proofs.RegionForm
import ElvishOutline.Proofs.RenderedText
import ElvishOutline.Proofs.RenderedLines
import ElvishOutline.Proofs.Cursors
import ElvishOutline.Proofs.ReportedLines
import ElvishOutline.Proofs.JoinedPaths
import ElvishOutline.Proofs.ByteOrder
import ElvishOutline.Proofs.Places
import ElvishOutline.Proofs.Filters
import ElvishOutline.Proofs.PrunedWalk
import ElvishOutline.Proofs.FaultyIgnoreFile
import ElvishOutline.Proofs.LoneTokens
import ElvishOutline.Proofs.QuotedText
import ElvishOutline.Proofs.JsonText
import ElvishOutline.Proofs.SurvivingResults
import ElvishOutline.Proofs.RootText
import ElvishOutline.Proofs.Slices
import ElvishOutline.Proofs.LocalFolds
import ElvishOutline.Proofs.WholeWords
import ElvishOutline.Proofs.Numerals
import ElvishOutline.Proofs.NestedPairs
import ElvishOutline.Proofs.FoldLabels
import ElvishOutline.Proofs.FunctionNames
import ElvishOutline.Proofs.Spacing
import ElvishOutline.Proofs.CursorOffsets
import ElvishOutline.Proofs.OutlineOrder
import ElvishOutline.Proofs.Colours
import ElvishOutline.Proofs.FirstBreach
import ElvishOutline.Proofs.Totals
import ElvishOutline.Proofs.DirectoryPatterns
import ElvishOutline.Proofs.FewerFiles
import ElvishOutline.Proofs.IntroducingKeywords
