import TabularOntology.Axiom
import TabularOntology.BlankNode
import TabularOntology.Build.Outcome
import TabularOntology.Build.Run
import TabularOntology.Build.Stage
import TabularOntology.Catalog
import TabularOntology.Cell.Expression
import TabularOntology.Cell.Lexer
import TabularOntology.Cell.Parser
import TabularOntology.Cell.Quoted
import TabularOntology.Cell.SyntaxError
import TabularOntology.Cell.Term
import TabularOntology.Cell.Token
import TabularOntology.Cell.Values
import TabularOntology.ClassExpression
import TabularOntology.Compilation.Basic
import TabularOntology.Compilation.Declaration
import TabularOntology.Compilation.Statements
import TabularOntology.Compilation.Tables
import TabularOntology.Config
import TabularOntology.Entity
import TabularOntology.FunctionalSyntax
import TabularOntology.Import.Closure
import TabularOntology.Import.Extraction
import TabularOntology.Import.Related
import TabularOntology.Iri.Basic
import TabularOntology.Iri.Identifier
import TabularOntology.Iri.Obo
import TabularOntology.Iri.Prefixes
import TabularOntology.Iri.Reference
import TabularOntology.Iri.Vocabulary
import TabularOntology.LanguageTag
import TabularOntology.Literal
import TabularOntology.Locality
import TabularOntology.Name
import TabularOntology.Ontology
import TabularOntology.Proofs.Closure.Routing
import TabularOntology.Proofs.Closure.Union
import TabularOntology.Proofs.Closure.Families
import TabularOntology.Proofs.Closure.Terms
import TabularOntology.Proofs.Closure.Growth
import TabularOntology.Proofs.Compilation.Cells
import TabularOntology.Proofs.Compilation.Declared
import TabularOntology.Proofs.Compilation.Order
import TabularOntology.Proofs.Compilation.Pass
import TabularOntology.Proofs.Compilation.Plain
import TabularOntology.Proofs.Extraction.Conservative
import TabularOntology.Proofs.Extraction.Least
import TabularOntology.Proofs.Extraction.Order
import TabularOntology.Proofs.Iri.Plain
import TabularOntology.Proofs.Key.Atoms
import TabularOntology.Proofs.Key.Forms
import TabularOntology.Proofs.Key.Injective
import TabularOntology.Proofs.Locality.Shared
import TabularOntology.Proofs.Locality.Soundness
import TabularOntology.Proofs.Ontology.Members
import TabularOntology.Proofs.Outcome
import TabularOntology.Proofs.Reasoner.Calculus
import TabularOntology.Proofs.Reasoner.Completeness
import TabularOntology.Proofs.Reasoner.Meaning
import TabularOntology.Proofs.Reasoner.Saturated
import TabularOntology.Proofs.Reasoner.Soundness
import TabularOntology.Proofs.Semantics.Agreement
import TabularOntology.Proofs.Semantics.Interpretation
import TabularOntology.Proofs.Signature
import TabularOntology.Reasoner.Facts
import TabularOntology.Reasoner.Options
import TabularOntology.Reasoner.Saturation
import TabularOntology.Reasoner.Structural
import TabularOntology.Record.Basic
import TabularOntology.Record.Conversion
import TabularOntology.Record.Error
import TabularOntology.Record.Heading
import TabularOntology.ReferenceScope
import TabularOntology.Report
import TabularOntology.Signature
import TabularOntology.Text.Alphanumeric
import TabularOntology.Text.Blank
import TabularOntology.Text.Casing
import TabularOntology.Text.Cut
import TabularOntology.Text.Duration
import TabularOntology.Text.LowerCase
import TabularOntology.Text.Ranges
import TabularOntology.Proofs.Cell.Grammar
import TabularOntology.Proofs.Cell.Reading
import TabularOntology.Proofs.Cell.Written
import TabularOntology.Proofs.Cell.Lexing
import TabularOntology.Proofs.Cell.RoundTrip
import TabularOntology.Proofs.Build.Stages
import TabularOntology.Proofs.Build.Strict
import TabularOntology.Proofs.Build.Steps
import TabularOntology.Proofs.Build.Release
import TabularOntology.Proofs.Compilation.Emissions
import TabularOntology.Proofs.Build.References
import TabularOntology.Proofs.Closure.Repetition
import TabularOntology.Proofs.Compilation.Duplicates
import TabularOntology.Proofs.Compilation.Kinds
import TabularOntology.Proofs.Compilation.Refusals
import TabularOntology.Ontology.Edit
import TabularOntology.Proofs.Ontology.Edits
import TabularOntology.Proofs.Compilation.Occurrences
import TabularOntology.Proofs.Compilation.Labels
import TabularOntology.Proofs.Compilation.Accounts
import TabularOntology.Proofs.Compilation.Conversion
import TabularOntology.Proofs.Compilation.Restrictions
import TabularOntology.Proofs.Compilation.BlankNodes
import TabularOntology.Proofs.Reasoner.Consequences
import TabularOntology.Proofs.Reasoner.Materialization
import TabularOntology.Proofs.Reasoner.Rounds
import TabularOntology.Proofs.Cell.Splitting
import TabularOntology.Proofs.Cell.Listing
import TabularOntology.Proofs.Record.Quotes
import TabularOntology.Proofs.Cell.References
import TabularOntology.Proofs.Extraction.Related
import TabularOntology.Proofs.Record.Comments
import TabularOntology.Proofs.Extraction.Reversal
import TabularOntology.Proofs.Key.Operands
import TabularOntology.Proofs.Iri.Obo
import TabularOntology.Proofs.Cell.Depth
import TabularOntology.Proofs.Compilation.Depth
import TabularOntology.Proofs.Cell.Layout
