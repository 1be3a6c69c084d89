import LiveHighlight.CommandLine
import LiveHighlight.Editor
import LiveHighlight.Editor.Drain
import LiveHighlight.Main
import LiveHighlight.Session
import LiveHighlight.Proofs.Batches
import LiveHighlight.Proofs.StaleRegions
import LiveHighlight.Proofs.Switching
import LiveHighlight.Proofs.UndoChain
import LiveHighlight.Proofs.Delimiters
import LiveHighlight.Proofs.RegionsOfText
import LiveHighlight.Proofs.TokenCover
import LiveHighlight.Proofs.Recovery
import LiveHighlight.Proofs.LexingThrough
import LiveHighlight.Proofs.Isolation
import LiveHighlight.Proofs.Saving
import LiveHighlight.Proofs.TaskChain
import LiveHighlight.Proofs.CleanBreaks
import LiveHighlight.Proofs.SolidTokens
import LiveHighlight.Proofs.TokenStyles
import LiveHighlight.Proofs.RepaintRows
import LiveHighlight.Proofs.LeastWindow
import LiveHighlight.Proofs.RegionQueries
import LiveHighlight.Proofs.FragmentBlocks
import LiveHighlight.Proofs.Coalescing
import LiveHighlight.Proofs.TwoStacks
import LiveHighlight.Proofs.CallsAndBrackets
import LiveHighlight.Proofs.Respacing
import LiveHighlight.Proofs.FailedRequests
import LiveHighlight.Proofs.Printing
import LiveHighlight.Proofs.Bucketing
import LiveHighlight.Proofs.OffsetMaps
import LiveHighlight.Proofs.ShiftedRegions
import LiveHighlight.Proofs.StyledCells
