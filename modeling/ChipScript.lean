import ChipScript.Chip
import ChipScript.CommandLine
import ChipScript.Shell
import ChipScript.Main
import ChipScript.Proofs.Actions
import ChipScript.Proofs.Counter
import ChipScript.Proofs.Host
import ChipScript.Proofs.Reports
import ChipScript.Proofs.Step
import ChipScript.Proofs.Records
import ChipScript.Proofs.Rounding
import ChipScript.Proofs.Binary64
import ChipScript.Proofs.Bounds
import ChipScript.Proofs.World
import ChipScript.Proofs.Guarantee
import ChipScript.Proofs.Safety
import ChipScript.Proofs.Jumps
import ChipScript.Proofs.Footprint
import ChipScript.Proofs.Interleaving
import ChipScript.Proofs.Integers
import ChipScript.Proofs.Halts
import ChipScript.Proofs.Grammar
import ChipScript.Proofs.Decoding
import ChipScript.Proofs.Frame
import ChipScript.Proofs.Networks
import ChipScript.Proofs.Agreement
import ChipScript.Proofs.Encoding
import ChipScript.Proofs.Mentions
import ChipScript.Proofs.Gating
import ChipScript.Proofs.Accesses
import ChipScript.Proofs.Blame
import ChipScript.Proofs.Namespaces
import ChipScript.Proofs.Readings
import ChipScript.Proofs.Failures
import ChipScript.Proofs.Assignments
import ChipScript.Proofs.Targets
import ChipScript.Proofs.History
import ChipScript.Proofs.Json
import ChipScript.Proofs.Loading
import ChipScript.Proofs.Orderings
import ChipScript.Proofs.Numerals
import ChipScript.Proofs.Seeding
import ChipScript.Proofs.Shown
import ChipScript.Proofs.Shapes
import ChipScript.Proofs.Normalizing
