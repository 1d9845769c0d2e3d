import ContractSyntax.Main
import ContractSyntax.Proofs.Commands.Agreement
import ContractSyntax.Proofs.Decimal.Literals
import ContractSyntax.Proofs.Failure.Prefix
import ContractSyntax.Proofs.Fragments.Reading
import ContractSyntax.Proofs.Language.Headwords
import ContractSyntax.Proofs.Language.Recognition
import ContractSyntax.Proofs.Lexing.Longest
import ContractSyntax.Proofs.Lexing.Spacing
import ContractSyntax.Proofs.Nesting.Alarm
import ContractSyntax.Proofs.Nesting.Bounds
import ContractSyntax.Proofs.Nesting.Cost
import ContractSyntax.Proofs.Places.Lines
import ContractSyntax.Proofs.Printing.Foreign
import ContractSyntax.Proofs.Printing.Limit
import ContractSyntax.Proofs.Printing.Needed
import ContractSyntax.Proofs.Recovery.Diagnostics
import ContractSyntax.Proofs.Recovery.Progress
import ContractSyntax.Proofs.Relocation.Joining
import ContractSyntax.Proofs.Relocation.Layout
import ContractSyntax.Proofs.Serial.Lossless
import ContractSyntax.Proofs.Sessions.Calls
import ContractSyntax.Proofs.Sessions.Window
import ContractSyntax.Proofs.Shape.Calls
import ContractSyntax.Proofs.Shape.Grouping
import ContractSyntax.Proofs.Shape.Tree
