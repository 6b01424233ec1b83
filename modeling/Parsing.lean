import Parsing.Options
import Parsing.CommandLine
import Parsing.Step
import Parsing.WordState
import Parsing.Main
import Parsing.Proofs.Contents
import Parsing.Proofs.Lawful
import Parsing.Proofs.Reachable
import Parsing.Proofs.Outcome
import Parsing.Proofs.Matching
import Parsing.Proofs.Derivation
import Parsing.Proofs.Spelling
import Parsing.Proofs.Shift
import Parsing.Proofs.FailureTree
import Parsing.Proofs.Split
import Parsing.Proofs.Language
import Parsing.Proofs.Spine
import Parsing.Proofs.ErrorMapFree
import Parsing.Proofs.Legible
import Parsing.Proofs.History
import Parsing.Proofs.Composition
import Parsing.Proofs.JsonText
import Parsing.Proofs.LineFeeds
import Parsing.Proofs.Arguments
import Parsing.Proofs.Sources
import Parsing.Proofs.ExitStatus
import Parsing.Proofs.Repetition
import Parsing.Proofs.Progress
import Parsing.Proofs.Regrouping
import Parsing.Proofs.Mapping
import Parsing.Proofs.OutputStyle
import Parsing.Proofs.Truncation
import Parsing.Proofs.Recognition
import Parsing.Proofs.Advance
