import LineBasic.Command
import LineBasic.Limits
import LineBasic.Main
import LineBasic.Scanner
import LineBasic.Proofs.Word
import LineBasic.Proofs.Lexeme
import LineBasic.Proofs.Layout
import LineBasic.Proofs.Line
import LineBasic.Proofs.Grammar
import LineBasic.Proofs.WellFormed
import LineBasic.Proofs.Spelling
import LineBasic.Proofs.Tiling
import LineBasic.Proofs.Refusal
import LineBasic.Proofs.Leniency
import LineBasic.Proofs.LeftmostFault
import LineBasic.Proofs.Shift
import LineBasic.Proofs.Concatenation
import LineBasic.Proofs.Interpolation
import LineBasic.Proofs.Placeholders
import LineBasic.Proofs.Pieces
import LineBasic.Proofs.Splitting
import LineBasic.Proofs.Account
import LineBasic.Proofs.FailFast
import LineBasic.Proofs.Respacing
import LineBasic.Proofs.Payload
import LineBasic.Proofs.Integers
import LineBasic.Proofs.Insertion
import LineBasic.Proofs.Document
import LineBasic.Proofs.Listing
import LineBasic.Proofs.Message
import LineBasic.Proofs.Rows
import LineBasic.Proofs.Caret
import LineBasic.Proofs.Sizes
import LineBasic.Proofs.Execution
import LineBasic.Proofs.Growth
import LineBasic.Proofs.Room
import LineBasic.Proofs.Overflow
import LineBasic.Proofs.Totality
import LineBasic.Proofs.LineEndings
import LineBasic.Proofs.Consumption
