import OperatorScript.Channel
import OperatorScript.Command.Canned
import OperatorScript.Json.Equality
import OperatorScript.Main
import OperatorScript.Proofs.Atomicity
import OperatorScript.Proofs.Confidentiality
import OperatorScript.Proofs.Delivery
import OperatorScript.Proofs.Frame
import OperatorScript.Proofs.Integrity
import OperatorScript.Proofs.Nesting
import OperatorScript.Proofs.Scan
import OperatorScript.Proofs.Splice
import OperatorScript.Proofs.Stages
import OperatorScript.Proofs.Interleaving
import OperatorScript.Proofs.Concurrency
import OperatorScript.Proofs.LinkTable
import OperatorScript.Proofs.LinkCycles
import OperatorScript.Proofs.PlainText
import OperatorScript.Proofs.ReadBack
import OperatorScript.Proofs.Channel
import OperatorScript.Proofs.Driving
import OperatorScript.Proofs.Payload
import OperatorScript.Proofs.Printing
import OperatorScript.Proofs.RecordUpdate
import OperatorScript.Proofs.Lens
import OperatorScript.Proofs.Rounding
import OperatorScript.Proofs.Increment
import OperatorScript.Proofs.Exactness
import OperatorScript.Proofs.Reaching
import OperatorScript.Proofs.Accumulation
import OperatorScript.Proofs.Rise
import OperatorScript.Proofs.Spelling
import OperatorScript.Proofs.Unlinking
import OperatorScript.Proofs.Lexing
import OperatorScript.Proofs.Substitution
import OperatorScript.Proofs.AppendedFlag
import OperatorScript.Proofs.FlatSpans
import OperatorScript.Proofs.WrittenStatement
import OperatorScript.Proofs.Registration
import OperatorScript.Proofs.Digits
import OperatorScript.Proofs.Inspection
import OperatorScript.Proofs.RoundingInterval
import OperatorScript.Proofs.ShortestDecimal
import OperatorScript.Proofs.NumberText
import OperatorScript.Proofs.Segments
import OperatorScript.Proofs.Picking
import OperatorScript.Proofs.Decoding
import OperatorScript.Proofs.Layers
