import EntitySchema.Main
import EntitySchema.Program.Folder
import EntitySchema.Json.Decode
import EntitySchema.Proofs.Text.Trimming
import EntitySchema.Proofs.Source.FieldPrinting
import EntitySchema.Proofs.Source.HeaderPrinting
import EntitySchema.Proofs.Declarations.Repeats
import EntitySchema.Proofs.Declarations.Tables
import EntitySchema.Proofs.Declarations.Columns
import EntitySchema.Proofs.Declarations.Resolution
import EntitySchema.Proofs.Blocks
import EntitySchema.Proofs.ReadingOfBlocks
import EntitySchema.Proofs.Meaning
import EntitySchema.Proofs.Integrity
import EntitySchema.Proofs.Source.LinePrinting
import EntitySchema.Proofs.Printing
import EntitySchema.Proofs.RoundTrip
import EntitySchema.Proofs.Source.Lines
import EntitySchema.Proofs.Source.Errors
import EntitySchema.Proofs.Refusals
import EntitySchema.Proofs.ErrorPlaces
import EntitySchema.Proofs.Invariant
import EntitySchema.Proofs.AlikeLines
import EntitySchema.Proofs.Sections
import EntitySchema.Proofs.Reordering
import EntitySchema.Proofs.Layout
import EntitySchema.Proofs.Policies
import EntitySchema.Proofs.Json.RoundTrip
import EntitySchema.Proofs.Rows
import EntitySchema.Proofs.Source.FieldGrammar
import EntitySchema.Proofs.Source.HeaderGrammar
import EntitySchema.Proofs.CommandLine.Words
import EntitySchema.Proofs.CommandLine.Acceptance
import EntitySchema.Proofs.CommandLine.Switches
import EntitySchema.Proofs.Runs
import EntitySchema.Proofs.LinkColumns
import EntitySchema.Proofs.Checked.Lines
import EntitySchema.Proofs.Checked.Reading
import EntitySchema.Proofs.Declarations.Changes
import EntitySchema.Proofs.Source.Lexing
import EntitySchema.Proofs.Source.Covering
import EntitySchema.Proofs.Declarations.EditedTables
import EntitySchema.Proofs.Declarations.Registration
