import Calculator.Main
import Calculator.Proofs.Basic
import Calculator.Proofs.Numeral
import Calculator.Proofs.Token
import Calculator.Proofs.ParseTree
import Calculator.Proofs.Scan
import Calculator.Proofs.SignGroup
import Calculator.Proofs.Arrangement
import Calculator.Proofs.Conversion
import Calculator.Proofs.WellFormed
import Calculator.Proofs.Recognition
import Calculator.Proofs.Stages
import Calculator.Proofs.Compilation
import Calculator.Proofs.ZeroDivisor
import Calculator.Proofs.StackHeight
import Calculator.Proofs.Execution
import Calculator.Proofs.Call
import Calculator.Proofs.Binary64
import Calculator.Proofs.Calculation
import Calculator.Proofs.Spelling
import Calculator.Proofs.Printing
import Calculator.Proofs.Parentheses
import Calculator.Proofs.Balance
import Calculator.Proofs.Insertion
import Calculator.Proofs.Bracketing
import Calculator.Proofs.Plausible
import Calculator.Proofs.Lexicon
import Calculator.Proofs.Conservation
import Calculator.Proofs.Meaning
import Calculator.Proofs.Substitution
import Calculator.Proofs.ProgramArrangement
import Calculator.Proofs.Rounding
import Calculator.Proofs.Accuracy
import Calculator.Proofs.TotalOrder
import Calculator.Proofs.Median
import Calculator.Proofs.Mode
import Calculator.Proofs.Table
import Calculator.Proofs.Quadratic
import Calculator.Proofs.Frames
import Calculator.Proofs.Trimming
import Calculator.Proofs.OneLine
import Calculator.Proofs.Quotation
import Calculator.Proofs.Lines
import Calculator.Proofs.Session
