import TiePoints.CachedGrid
import TiePoints.Error.Message
import TiePoints.Grid.Description
import TiePoints.LeastSquares.SingularValues
import TiePoints.Record.Decode
import TiePoints.Proofs.Scene.Chunks
import TiePoints.Proofs.Exact.Subset
import TiePoints.Proofs.Exact.Hat
import TiePoints.Proofs.Exact.Arc
import TiePoints.Proofs.Block.Atomicity
import TiePoints.Proofs.Grid.Admission
import TiePoints.Proofs.Cached.Runs
import TiePoints.Proofs.Checked.Replies
import TiePoints.Proofs.Checked.Derivations
import TiePoints.Proofs.Angle.Answers
import TiePoints.Proofs.Block.Formats
import TiePoints.Proofs.Exact.Surface
import TiePoints.Proofs.Grid.Reads
import TiePoints.Proofs.Cached.Lookups
import TiePoints.Proofs.Exact.Bounds
import TiePoints.Proofs.Exact.Slopes
import TiePoints.Proofs.Scene.Extraction
import TiePoints.Proofs.Exact.Identity
import TiePoints.Proofs.Exact.Rotation
import TiePoints.Proofs.Exact.Conventions
import TiePoints.Proofs.Exact.KeptPoints
import TiePoints.Proofs.Text.Words
import TiePoints.Proofs.Text.ModeNames
import TiePoints.Proofs.Double.Rows
import TiePoints.Proofs.Exact.Zenith
