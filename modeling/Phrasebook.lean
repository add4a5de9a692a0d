import Phrasebook.Calendar.Date
import Phrasebook.Calendar.Instant
import Phrasebook.Catalog.Basic
import Phrasebook.Catalog.Loading
import Phrasebook.Command.Basic
import Phrasebook.Command.Execution
import Phrasebook.Command.Invocation
import Phrasebook.Command.Substitution
import Phrasebook.Digest.Sha256
import Phrasebook.Document.Audit
import Phrasebook.Document.Canonical
import Phrasebook.Document.Draft
import Phrasebook.Document.Entry
import Phrasebook.Document.Fault
import Phrasebook.Document.Reading
import Phrasebook.Library.Basic
import Phrasebook.Library.Journal
import Phrasebook.Library.Loading
import Phrasebook.Library.Lookup
import Phrasebook.Main
import Phrasebook.Markup.Attribute
import Phrasebook.Markup.Page
import Phrasebook.Markup.Problem
import Phrasebook.Markup.Reference
import Phrasebook.Markup.Stream
import Phrasebook.Numeral.Binary
import Phrasebook.Numeral.Digits
import Phrasebook.Numeral.Reading
import Phrasebook.Numeral.Shortest
import Phrasebook.Output.Basic
import Phrasebook.Output.Bindings
import Phrasebook.Output.BufferPool
import Phrasebook.Output.NumberFormat
import Phrasebook.Output.Rendering
import Phrasebook.Settings.Basic
import Phrasebook.Settings.TomlSyntax
import Phrasebook.Settings.TomlTable
import Phrasebook.Storage.FileTree
import Phrasebook.Storage.Store
import Phrasebook.Template.Compilation
import Phrasebook.Template.Fault
import Phrasebook.Template.Interning
import Phrasebook.Template.Phrase
import Phrasebook.Template.Token
import Phrasebook.Text.Blank
import Phrasebook.Text.Combining
import Phrasebook.Text.Quoted
import Phrasebook.Text.Ranges
import Phrasebook.Text.Unassigned
import Phrasebook.Text.Utf8
import Phrasebook.Proofs.Template.Grammar
import Phrasebook.Proofs.Template.Refusal
import Phrasebook.Proofs.Template.Meaning
import Phrasebook.Proofs.Template.Printing
import Phrasebook.Proofs.Template.Concatenation
import Phrasebook.Proofs.Template.Faults
import Phrasebook.Proofs.Template.Doubling
import Phrasebook.Proofs.Template.Placeholders
import Phrasebook.Proofs.Template.Compilation
import Phrasebook.Proofs.Template.Interning
import Phrasebook.Proofs.Library.Frame
import Phrasebook.Proofs.Library.Reloading
import Phrasebook.Proofs.Library.Lookup
import Phrasebook.Proofs.Library.Fallbacks
import Phrasebook.Proofs.Catalog.Filling
import Phrasebook.Proofs.Catalog.Segments
import Phrasebook.Proofs.Catalog.Sequential
import Phrasebook.Proofs.Catalog.Coherence
import Phrasebook.Proofs.Catalog.FailedLoads
import Phrasebook.Proofs.Catalog.Interleaving
import Phrasebook.Proofs.Catalog.Evolution
import Phrasebook.Proofs.Catalog.Identity
import Phrasebook.Proofs.Catalog.Orderly
import Phrasebook.Proofs.Catalog.LocaleSwitch
import Phrasebook.Proofs.Catalog.Wiring
import Phrasebook.Proofs.Markup.Reference
import Phrasebook.Proofs.Markup.Attribute
import Phrasebook.Proofs.Markup.Piece
import Phrasebook.Proofs.Calendar.Date
import Phrasebook.Proofs.Calendar.Instant
import Phrasebook.Proofs.Document.Spelling
import Phrasebook.Proofs.Document.Reading
import Phrasebook.Proofs.Document.Writing
import Phrasebook.Proofs.Document.Outline
import Phrasebook.Proofs.Document.Mirror
import Phrasebook.Proofs.Document.RoundTrip
import Phrasebook.Proofs.Document.Layout
import Phrasebook.Proofs.Document.Tidy
import Phrasebook.Proofs.Document.Normal
import Phrasebook.Proofs.Document.Canonical
import Phrasebook.Proofs.Document.Stability
import Phrasebook.Proofs.Library.Populating
import Phrasebook.Proofs.Library.Normalizing
import Phrasebook.Proofs.Numeral.Digits
import Phrasebook.Proofs.Output.NumberFormat
import Phrasebook.Proofs.Numeral.Integral
import Phrasebook.Proofs.Output.Concatenation
import Phrasebook.Proofs.Output.Circulation
import Phrasebook.Proofs.Output.Workplace
import Phrasebook.Proofs.Output.Constants
import Phrasebook.Proofs.Output.Wording
import Phrasebook.Proofs.Output.Interpretation
import Phrasebook.Proofs.Output.Nesting
import Phrasebook.Proofs.Library.Auditing
import Phrasebook.Proofs.Library.Truncation
import Phrasebook.Proofs.Library.Glossary
import Phrasebook.Proofs.Library.SmallSteps
import Phrasebook.Proofs.Library.TableCalls
import Phrasebook.Proofs.Library.Sparing
import Phrasebook.Proofs.Library.Hearing
import Phrasebook.Proofs.Library.StandIns
import Phrasebook.Proofs.Library.Deeds
import Phrasebook.Proofs.Document.Moves
import Phrasebook.Proofs.Document.Grammar
import Phrasebook.Proofs.Document.Delivery
import Phrasebook.Proofs.Document.Ledger
import Phrasebook.Proofs.Document.Register
import Phrasebook.Proofs.Document.Uniqueness
import Phrasebook.Proofs.Catalog.Listening
import Phrasebook.Proofs.Library.Rendering
import Phrasebook.Proofs.Output.Sealing
import Phrasebook.Proofs.Library.Intake
import Phrasebook.Proofs.Library.Stock
import Phrasebook.Proofs.Library.Tally
import Phrasebook.Proofs.Catalog.Verdicts
import Phrasebook.Proofs.Catalog.Openings
import Phrasebook.Proofs.Catalog.BrokenResources
import Phrasebook.Proofs.Document.Reordering
import Phrasebook.Proofs.Document.Interchange
import Phrasebook.Proofs.Document.Postponing
import Phrasebook.Proofs.Document.Whereabouts
import Phrasebook.Proofs.Document.Comments
import Phrasebook.Proofs.Document.CharacterSections
import Phrasebook.Proofs.Numeral.Decimals
import Phrasebook.Proofs.Numeral.Widening
import Phrasebook.Proofs.Output.Numbers
import Phrasebook.Proofs.Settings.Validity
import Phrasebook.Proofs.Command.Substitution
