import InstrTable.Main
import InstrTable.Proofs.BitTemplate.Tiling
import InstrTable.Proofs.ByteOpcode.Description
import InstrTable.Proofs.ByteOpcode.Fpu
import InstrTable.Proofs.ByteOpcode.Overwriting
import InstrTable.Proofs.Database.Intake
import InstrTable.Proofs.Database.Reports
import InstrTable.Proofs.Metadata.Words
import InstrTable.Proofs.Record.Consistency
import InstrTable.Proofs.Metadata.Abbreviation
import InstrTable.Proofs.Text.Digits
import InstrTable.Proofs.BitTemplate.Spelling
import InstrTable.Proofs.Database.Tallies
import InstrTable.Proofs.BitTemplate.Rereading
import InstrTable.Proofs.ByteOpcode.Rearrangement
import InstrTable.Proofs.ByteOpcode.WellFormed
import InstrTable.Proofs.Record.Malformed
import InstrTable.Proofs.Record.Fields
import InstrTable.Proofs.Row.Aliases
import InstrTable.Proofs.ByteOpcode.Spacing
import InstrTable.Proofs.ByteOpcode.Immediates
import InstrTable.Proofs.Metadata.DialectKeys
import InstrTable.Proofs.Record.Attributes
import InstrTable.Proofs.Record.Declared
import InstrTable.Proofs.ByteOpcode.LastOfKind
import InstrTable.Proofs.Operand.Alternatives
import InstrTable.Proofs.Operand.Wrapping
import InstrTable.Proofs.Database.InsertionOrder
import InstrTable.Proofs.TopLevel.Joining
import InstrTable.Proofs.BitTemplate.Composition
import InstrTable.Proofs.Record.Ranges
import InstrTable.Proofs.Dictionaries.Reading
import InstrTable.Proofs.Register.Spelling
import InstrTable.Proofs.CommandLine.HandingOn
import InstrTable.Proofs.Bracket.Balance
import InstrTable.Proofs.BitTemplate.Writing
