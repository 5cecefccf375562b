import LineBasic.Main
import LineBasic.Proofs.FinalNewline
import LineBasic.Proofs.LineEndings
import LineBasic.Proofs.Refinement
import LineBasic.Proofs.Invariant
import LineBasic.Proofs.Invariant.Statement
import LineBasic.Proofs.Registers
import LineBasic.Proofs.Tiling
import LineBasic.Proofs.Rendering
import LineBasic.Proofs.Moves
import LineBasic.Proofs.Progress
import LineBasic.Proofs.ForwardJumps
import LineBasic.Proofs.Twins
import LineBasic.Proofs.LetterCase
import LineBasic.Proofs.Remarks
import LineBasic.Proofs.Effects
import LineBasic.Proofs.Effects.Statement
import LineBasic.Proofs.Reporting
import LineBasic.Proofs.Typing
import LineBasic.Proofs.Stored
import LineBasic.Proofs.Editing
import LineBasic.Proofs.Tracing
import LineBasic.Proofs.Tracing.Statement
import LineBasic.Proofs.Finishing
import LineBasic.Proofs.Inertness
import LineBasic.Proofs.Endings
import LineBasic.Proofs.Decoding
import LineBasic.Proofs.ExitStatus
import LineBasic.Proofs.Survival
import LineBasic.Proofs.Derivation
import LineBasic.Proofs.Acceptance
import LineBasic.Proofs.Inward
import LineBasic.Proofs.Landing
import LineBasic.Proofs.Arrival
import LineBasic.Proofs.Printing
import LineBasic.Proofs.Confinement
import LineBasic.Proofs.Words
import LineBasic.Proofs.Wrapping
import LineBasic.Proofs.Positions
import LineBasic.Proofs.Retries
import LineBasic.Proofs.Indexing
import LineBasic.Proofs.Histories
import LineBasic.Proofs.Masking
