import Augury.Main
import Augury.Random.Script
import Augury.Session
import Augury.Proofs.DigitRuns
import Augury.Proofs.DiceNotation
import Augury.Proofs.Reading
import Augury.Proofs.Spelling
import Augury.Proofs.Readable
import Augury.Proofs.ReadBack
import Augury.Proofs.RoundTrip
import Augury.Proofs.Draws
import Augury.Proofs.Emission
import Augury.Proofs.Flattening
import Augury.Proofs.Faults
import Augury.Proofs.Provenance
import Augury.Proofs.NestingLimit
import Augury.Proofs.DiceExpression
import Augury.Proofs.Outcomes
import Augury.Proofs.Reachability
import Augury.Proofs.Concatenation
import Augury.Proofs.DiceGrammar
import Augury.Proofs.UnclosedBlocks
import Augury.Proofs.Interruption
import Augury.Proofs.LiteralText
import Augury.Proofs.Rolling
import Augury.Proofs.SeededDraws
import Augury.Proofs.Unfolding
import Augury.Proofs.Reports
import Augury.Proofs.Drawing
import Augury.Proofs.ObjectMembers
import Augury.Proofs.NodeEncoding
import Augury.Proofs.PrintedJson
import Augury.Proofs.CommandOutput
import Augury.Proofs.DiceScanning
import Augury.Proofs.ByteOffsets
import Augury.Proofs.ByteScanning
import Augury.Proofs.Lexing
import Augury.Proofs.ScanStep
import Augury.Proofs.ScanLoop
