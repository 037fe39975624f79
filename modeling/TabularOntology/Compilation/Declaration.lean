import TabularOntology.Compilation.Basic
import TabularOntology.Record.Conversion
import TabularOntology.Record.Heading
import TabularOntology.Text.Alphanumeric

/-! The first pass over the tables: what records declare and annotate. It needs nothing
but the record itself, so that the second pass can refer to terms of later rows and of
other tables. An annotation is named by an identifier or by any other text, whose letters
and digits then make up a name below the base. -/

namespace TabularOntology

namespace Declaration

/-- An annotation name that is an identifier. -/
def isIdentifier (key : String) : Bool :=
  match key.toList with
  | '<' :: _ => true
  | cs => cs.contains ':' && !cs.any Text.isBlank

/-- A text without the single quotes at its ends. -/
def unquoted (cs : List Char) : List Char :=
  ((cs.dropWhile (· == '\'')).reverse.dropWhile (· == '\'')).reverse

/-- The words of a text in small letters, joined by underscores. -/
def slug (key : String) : String :=
  let words := Text.words (fun c => !Text.isAlphanumeric c) (unquoted key.toList)
  Text.join "_" (words.map fun w => Text.lower (String.ofList w))

/-- The property that an annotation name stands for. -/
def property (scope : IdentifierScope) (key : String) : Except RecordError Iri :=
  let key := Text.trim key
  if isIdentifier key then scope.read key
  else if (slug key).isEmpty then .error (.malformed (.annotationName key))
  else scope.read (slug key)

/-- The axioms of the values of one annotation. -/
def annotationAxioms (scope : IdentifierScope) (iri : Iri) (key : String)
    (texts : List AnnotationText) : Except RecordError (List Axiom) := do
  let p ← property scope key
  let values ← texts.mapM fun t => Literal.ofText t.value t.language
  let declared := if Vocabulary.isBuiltin p then [] else [.declaration .annotationProperty p]
  .ok (declared ++ values.map fun v => .annotationAssertion p iri v)

/-- The axioms of label, definition and comments. -/
def textAxioms (iri : Iri) (r : TermRecord) : List Axiom :=
  let saying (p : Iri) (text : String) : Axiom := .annotationAssertion p iri (.plain text)
  (r.label.map (saying Vocabulary.label)).toList ++
    (match r.definition with
      | some text =>
        [.declaration .annotationProperty Vocabulary.definition, saying Vocabulary.definition text]
      | none => []) ++
    r.comments.map (saying Vocabulary.comment)

/-- The term that a record declares, and the axioms that the declaration brings. -/
def ofRecord (scope : IdentifierScope) (r : TermRecord) :
    Except RecordError (Iri × List Axiom) := do
  let iri ← scope.readId r.id
  let annotations ← r.annotations.toList.mapM fun (key, texts) =>
    annotationAxioms scope iri key texts
  .ok (iri, .declaration r.kind iri :: textAxioms iri r ++ annotations.flatten)

end Declaration

namespace Compilation

/-- Declares records in order, up to the first conflict. A record that cannot be declared
costs a warning. -/
def declareRecords (c : Compilation) (scope : IdentifierScope) :
    List TermRecord → Compilation × Option Conflict
  | [] => (c, none)
  | r :: rs =>
    match Declaration.ofRecord scope r with
    | .error e => declareRecords (c.warn e.problem e.message r.provenance) scope rs
    | .ok (iri, axioms) =>
      match c.declare iri r with
      | .error conflict => (c, some conflict)
      | .ok c => declareRecords (c.emitAll r.provenance axioms) scope rs

/-- Declares the records of tables in order, up to the first conflict. -/
def declareTables (c : Compilation) (scope : IdentifierScope) :
    List Table → Compilation × Option Conflict
  | [] => (c, none)
  | t :: ts =>
    match c.startTable.declareRecords scope t.records with
    | (c, some conflict) => (c, some conflict)
    | (c, none) => declareTables c scope ts

end Compilation

end TabularOntology
