import PanelGemm.Main
import PanelGemm.Matrix.Transposition
import PanelGemm.Proofs.Kernel.Call
import PanelGemm.Proofs.Kernel.Scalar
import PanelGemm.Proofs.Kernel.Vector
import PanelGemm.Proofs.Engine.Rewriting
import PanelGemm.Proofs.Panel.Blocks
import PanelGemm.Proofs.Engine.Staging
import PanelGemm.Proofs.Engine.Pass
import PanelGemm.Proofs.Matrix.Storage
import PanelGemm.Proofs.Engine.WellShaped
import PanelGemm.Proofs.Engine.Tile
import PanelGemm.Proofs.Engine.Span
import PanelGemm.Proofs.Threads.Spans
import PanelGemm.Proofs.Engine.Stack
import PanelGemm.Proofs.Threads.Bands
import PanelGemm.Proofs.Engine.Run
import PanelGemm.Proofs.Engine.BlockwiseFold
import PanelGemm.Proofs.Engine.Confined
import PanelGemm.Proofs.Engine.Safety
import PanelGemm.Proofs.Threads.Crew
import PanelGemm.Proofs.Threads.Schedule
import PanelGemm.Proofs.Binary.Integers
import PanelGemm.Proofs.Kernel.Integers
import PanelGemm.Proofs.Matrix.Naive
import PanelGemm.Proofs.Engine.Exactness
import PanelGemm.Proofs.Binary.Unit
import PanelGemm.Proofs.Panel.Layout
import PanelGemm.Proofs.Panel.Packing
import PanelGemm.Proofs.Engine.ScalarFold
import PanelGemm.Proofs.Engine.Acceptance
import PanelGemm.Proofs.Panel.Rows
import PanelGemm.Proofs.Engine.Splitting
import PanelGemm.Proofs.Binary.ZeroSign
import PanelGemm.Proofs.Engine.Agreement
import PanelGemm.Proofs.Engine.Dependence
import PanelGemm.Proofs.Engine.Fitting
import PanelGemm.Proofs.Threads.Misfits
import PanelGemm.Proofs.Threads.Shares
import PanelGemm.Proofs.Dispatch.InTurn
import PanelGemm.Proofs.Tiling.Partition
import PanelGemm.Proofs.Matrix.Transposition
import PanelGemm.Proofs.Engine.Orientations
import PanelGemm.Proofs.Dispatch.Answers
import PanelGemm.Proofs.Dispatch.Coherence
import PanelGemm.Proofs.Dispatch.Session
import PanelGemm.Proofs.Threads.ForkJoin
import PanelGemm.Proofs.Engine.Overreach
import PanelGemm.Proofs.Tiling.OneAtATime
import PanelGemm.Proofs.Binary.Order
import PanelGemm.Proofs.Binary.Estimates
import PanelGemm.Proofs.Threads.Budget
import PanelGemm.Proofs.Dispatch.Acceptance
import PanelGemm.Proofs.Dispatch.Multiply
import PanelGemm.Proofs.Matrix.Shortage
import PanelGemm.Proofs.Text.Trim
import PanelGemm.Proofs.Level.Spelling
import PanelGemm.Proofs.Kernel.ElementFold
import PanelGemm.Proofs.Engine.Placement
import PanelGemm.Proofs.Threads.Boundaries
import PanelGemm.Proofs.Tiling.Fewest
import PanelGemm.Proofs.Engine.Statistics
import PanelGemm.Proofs.Dispatch.Settings
import PanelGemm.Proofs.Decimal.Numeral
import PanelGemm.Proofs.Panel.Slices
