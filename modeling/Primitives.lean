import Primitives.Session
import Primitives.Main
import Primitives.Proofs.FrontEnd
import Primitives.Proofs.Isolation
import Primitives.Proofs.Session
import Primitives.Proofs.Reproducibility
import Primitives.Proofs.Lines
import Primitives.Proofs.Ending
import Primitives.Proofs.SeedSource
import Primitives.Proofs.Absence
import Primitives.Proofs.Listing
import Primitives.Proofs.Registry
import Primitives.Proofs.Registration
import Primitives.Proofs.RoundTrip
import Primitives.Proofs.DefaultContext
import Primitives.Proofs.Unescaped
import Primitives.Proofs.UnescapedCall
import Primitives.Proofs.UnescapedPlan
import Primitives.Proofs.Colors
import Primitives.Proofs.ExactPower
import Primitives.Proofs.Grammar
import Primitives.Proofs.Output
import Primitives.Proofs.Rejection
import Primitives.Proofs.Rounding
import Primitives.Proofs.Symbols
import Primitives.Proofs.Literal
import Primitives.Proofs.ByteView
import Primitives.Proofs.FirstFault
import Primitives.Proofs.OperandRange
import Primitives.Proofs.Root
import Primitives.Proofs.Extremum
import Primitives.Proofs.Reseeding
import Primitives.Proofs.SeedSpelling
import Primitives.Proofs.KeptWords
import Primitives.Proofs.CaseFolding
import Primitives.Proofs.Readability
import Primitives.Proofs.SquaringRounds
