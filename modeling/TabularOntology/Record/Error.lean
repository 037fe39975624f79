import TabularOntology.Cell.Expression
import TabularOntology.Cell.SyntaxError
import TabularOntology.Iri.Prefixes
import TabularOntology.LanguageTag
import TabularOntology.Record.Basic

/-! Errors of single records. They never stop the reading of other records: a build
reports them as warnings. -/

namespace TabularOntology

/-- What is malformed about a record, or about a value in one of its cells. -/
inductive RecordFault
  | missingId
  | missingKind (id : String)
  /-- A label stands where only an identifier can stand. -/
  | labelAsId (text : String)
  /-- A value of the column of annotations is not a property with a text. -/
  | annotationShape (value : String)
  | annotationName (key : String)
  | languageTag (tag : String) (fault : LanguageTag.Fault)
  /-- An anonymous individual stands where only a named term can stand. -/
  | anonymousTerm (reference : Cell.TermReference)
  | blankNode (reference : Cell.TermReference)
  | inverseOfData (property : Cell.TermReference)
  | literalOfObject (property : Cell.PropertyReference)
  | individualOfData (property : Cell.PropertyReference)
  /-- An individual or a literal stands after a quantifier other than `value`. -/
  | misplacedValue (restriction : Cell.Expression)
  | missingFiller (restriction : Cell.Expression)
  | notDataRange (expression : Cell.Expression)
  | dataCharacteristic (value : String)
  | relationToLiteral (fact : Cell.Fact)
  | dataFactToIndividual (fact : Cell.Fact)
  /-- Columns that say nothing about entities of the kind are filled in. -/
  | unusedColumns (columns : List Column) (kind : EntityKind)
  deriving DecidableEq

def RecordFault.message : RecordFault → String
  | .missingId => "the ID column is empty"
  | .missingKind id => "no entity type is given for " ++ id
  | .labelAsId text => s!"the label {text} cannot be used as an identifier"
  | .annotationShape value =>
    s!"annotations must be written 'property \"text\"', found '{value}'"
  | .annotationName key => s!"'{key}' is not a valid annotation name"
  | .languageTag tag fault => s!"invalid language tag '{tag}': " ++ fault.message
  | .anonymousTerm reference =>
    "anonymous individual " ++ reference.text ++ " is not allowed here"
  | .blankNode reference =>
    "invalid anonymous individual " ++ reference.text ++ ": The blank node identifier is invalid"
  | .inverseOfData property => property.text ++ " is a data property, it has no inverse"
  | .literalOfObject property =>
    property.text ++ " is an object property, its value cannot be a literal"
  | .individualOfData property =>
    property.text ++ " is a data property, its value must be a literal"
  | .misplacedValue restriction =>
    "a single value is only allowed after 'value', in " ++ restriction.text
  | .missingFiller restriction => restriction.text ++ " has no filler"
  | .notDataRange expression => expression.text ++ " is not a data range"
  | .dataCharacteristic value =>
    s!"'{value}' does not apply to data properties, only 'functional' does"
  | .relationToLiteral fact => s!"relations must relate to an individual, found '{fact.text}'"
  | .dataFactToIndividual fact => s!"data facts must have a literal value, found '{fact.text}'"
  | .unusedColumns columns kind =>
    "the " ++ Text.join ", " (columns.map Column.name) ++ " columns do not apply to a " ++ kind.name

/-- Why a record, or a value in one of its cells, cannot be used. -/
inductive RecordError
  | badSyntax (error : Cell.SyntaxError)
  | unknownName (error : UnknownName)
  | identifier (error : IdentifierError)
  | unknownLabel (reference : Cell.TermReference)
  | ambiguousLabel (reference : Cell.TermReference) (carriers : List Iri)
  | malformed (fault : RecordFault)
  deriving DecidableEq

namespace RecordError

/-- The message about a reference that leads to no term. -/
def unresolved (reference reason : String) : String :=
  s!"unresolved reference {reference}: {reason}"

def message : RecordError → String
  | .badSyntax error => error.message
  | .unknownName error => error.message
  | .identifier (.unknownPrefix space text) =>
    unresolved text (IdentifierError.unknownPrefix space text).message
  | .identifier error => error.message
  | .unknownLabel reference => unresolved reference.text "no term has this label"
  | .ambiguousLabel reference carriers =>
    unresolved reference.text ("the label is ambiguous, it is used by " ++
      Text.join ", " (carriers.map Iri.bracketed))
  | .malformed fault => fault.message

/-- The kind of problem that the error is reported as. -/
def problem : RecordError → Problem
  | .identifier (.unknownPrefix ..) | .unknownLabel _ | .ambiguousLabel .. => .unresolvedReference
  | .badSyntax _ | .unknownName _ | .identifier _ | .malformed _ => .badSyntax

end RecordError

end TabularOntology
