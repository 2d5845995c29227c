import OneBit.Text.CodeRanges
import OneBit.Text.Blank
import OneBit.Text.Alphanumeric
import OneBit.Text.DecimalDigit
import OneBit.Text.Printable
import OneBit.Text.Capitals
import OneBit.Text.Radix
import OneBit.Text.Raw
import OneBit.Text.Layout
import OneBit.Text.Figures
import OneBit.Text.Typeset
import OneBit.Text.Quoted
import OneBit.Text.Split
import OneBit.Text.Offset
import OneBit.Text.Position
import OneBit.Text.Encoding
import OneBit.Field
import OneBit.Instruction
import OneBit.Address
import OneBit.Control
import OneBit.Word
import OneBit.FieldFormat
import OneBit.Diagnostic
import OneBit.Log
import OneBit.SyntaxError
import OneBit.Numeral
import OneBit.Mnemonic
import OneBit.Source.Cursor
import OneBit.Source.Scan
import OneBit.Source.Reading
import OneBit.Source.Requests
import OneBit.Bit.Writer
import OneBit.Bit.Reader
import OneBit.Image
import OneBit.ByteStream
import OneBit.Dump
import OneBit.Listing
import OneBit.Assembler
import OneBit.FileTree
import OneBit.Files
import OneBit.Loader
import OneBit.Session
import OneBit.Command.Usage
import OneBit.Command.Invocation
import OneBit.Command.Option
import OneBit.Command.Token
import OneBit.Command.Arguments
import OneBit.Command.Host
import OneBit.Command.Run
import OneBit.Main
import OneBit.Proofs.Text.Runs
import OneBit.Proofs.Text.Lines
import OneBit.Proofs.Text.Position
import OneBit.Proofs.Source.Grammar
import OneBit.Proofs.Source.Token
import OneBit.Proofs.Source.Step
import OneBit.Proofs.Source.Line
import OneBit.Proofs.Source.Program
import OneBit.Proofs.Bit.Bits
import OneBit.Proofs.Bit.Reader
import OneBit.Proofs.Source.Outcome
import OneBit.Proofs.Image
import OneBit.Proofs.Source.Printing
import OneBit.Proofs.Bit.Writer
import OneBit.Proofs.Word
import OneBit.Proofs.Assembler
import OneBit.Proofs.Warnings
import OneBit.Proofs.Text.Returns
import OneBit.Proofs.LineEnds
import OneBit.Proofs.Entries
import OneBit.Proofs.Text.Padded
import OneBit.Proofs.Outputs
import OneBit.Proofs.Session
import OneBit.Proofs.FileTree
import OneBit.Proofs.Command.Arguments
import OneBit.Proofs.Command.Host
import OneBit.Proofs.Command.Task
import OneBit.Proofs.Command.Output
import OneBit.Proofs.Command.Exit
import OneBit.Proofs.Command.Listing
import OneBit.Proofs.Bit.Sequences
import OneBit.Proofs.Concatenation
import OneBit.Proofs.Bit.Fields
import OneBit.Proofs.Source.Requests
import OneBit.Proofs.Source.Completion
import OneBit.Proofs.Numeral
import OneBit.Proofs.Source.Surroundings
import OneBit.Proofs.Source.LaterLines
import OneBit.Proofs.Source.SingleLine
import OneBit.Proofs.ByteStream
import OneBit.Proofs.Text.Grid
import OneBit.Proofs.Masking
import OneBit.Proofs.Mnemonic
import OneBit.Proofs.Updates
import OneBit.Proofs.Source.Progress
