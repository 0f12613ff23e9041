import Reckoner.Main
import Reckoner.Proofs.Reply
import Reckoner.Proofs.Slots
import Reckoner.Proofs.Grammar
import Reckoner.Proofs.TreeEvaluation
import Reckoner.Proofs.Longest
import Reckoner.Proofs.LineBreak
import Reckoner.Proofs.Transfer
import Reckoner.Proofs.Statements
import Reckoner.Proofs.JoinedLines
import Reckoner.Proofs.Clearing
import Reckoner.Proofs.FloatFields
import Reckoner.Proofs.ExactRatios
import Reckoner.Proofs.NearestFloats
import Reckoner.Proofs.ExactIntegers
import Reckoner.Proofs.Progress
import Reckoner.Proofs.Unmentioned
import Reckoner.Proofs.Ending
import Reckoner.Proofs.Assignment
import Reckoner.Proofs.HistoryLog
import Reckoner.Proofs.InputLines
import Reckoner.Proofs.InputModes
import Reckoner.Proofs.Failures
import Reckoner.Proofs.PrintedDigits
import Reckoner.Proofs.PrintedWords
import Reckoner.Proofs.WideLiterals
import Reckoner.Proofs.PrintedNumbers
import Reckoner.Proofs.Spellings
import Reckoner.Proofs.Calls
import Reckoner.Proofs.HeldSlots
import Reckoner.Proofs.Termination
import Reckoner.Proofs.Isolation
import Reckoner.Proofs.Footprint
import Reckoner.Proofs.AssignmentChains
import Reckoner.Proofs.WordChains
import Reckoner.Proofs.ProductChains
import Reckoner.Proofs.FactorialProducts
import Reckoner.Proofs.UnaryChains
import Reckoner.Proofs.PolicyAgreement
import Reckoner.Proofs.FloatOrder
import Reckoner.Proofs.Wrapping
import Reckoner.Proofs.StreamEvaluation
