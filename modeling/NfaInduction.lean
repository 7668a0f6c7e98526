import NfaInduction.Command.Desk
import NfaInduction.Main
import NfaInduction.Random.WordCycle
import NfaInduction.StateSet.Checked
import NfaInduction.StateSet.Cursor
import NfaInduction.StateSet.ListingLaws
import NfaInduction.Proofs.Automaton.Coherence
import NfaInduction.Proofs.Training.Coverage
import NfaInduction.Proofs.Training.Safety
import NfaInduction.Proofs.Training.Listing
import NfaInduction.Proofs.Evaluation.Saved
import NfaInduction.Proofs.Automaton.Switching
import NfaInduction.Proofs.Automaton.MergeOrder
import NfaInduction.Proofs.Model.Grammar
import NfaInduction.Proofs.Sample.Grammar
import NfaInduction.Proofs.Text.Line
import NfaInduction.Proofs.Model.Loading
import NfaInduction.Proofs.Model.Numbering
import NfaInduction.Proofs.Model.Printing
import NfaInduction.Proofs.Model.RoundTrip
import NfaInduction.Proofs.Training.Bookkeeping
import NfaInduction.Proofs.Training.Retention
import NfaInduction.Proofs.Training.Saturation
import NfaInduction.Proofs.Automaton.Chronicle
import NfaInduction.Proofs.Training.Slots
import NfaInduction.Proofs.Evaluation.Loaded
import NfaInduction.Proofs.Text.Fault
import NfaInduction.Proofs.Automaton.Walk
import NfaInduction.Proofs.Training.Start
import NfaInduction.Proofs.Training.SearchState
import NfaInduction.Proofs.Training.Selection
import NfaInduction.Proofs.Command.FileTree
import NfaInduction.Proofs.Command.Desk
import NfaInduction.Proofs.Command.Assignment
import NfaInduction.Proofs.Command.Series
import NfaInduction.Proofs.Automaton.Frontier
import NfaInduction.Proofs.Model.Drawing
import NfaInduction.Proofs.Training.Rounds
import NfaInduction.Proofs.Training.Sweep
import NfaInduction.Proofs.Training.InPlaceSession
import NfaInduction.Proofs.StateSet.Collection
import NfaInduction.Proofs.StateSet.Scan
import NfaInduction.Proofs.TransitionMatrix.Packed
import NfaInduction.Proofs.Evaluation.Report
