import TabularOntology.Catalog
import TabularOntology.Iri.Identifier
import TabularOntology.Record.Error

/-! What references are read against: identifiers, then the labels of the compiled
terms, then the labels of the source ontologies. A label that compiled terms carry hides
the same label in the sources. -/

namespace TabularOntology

structure ReferenceScope where
  identifiers : IdentifierScope
  /-- The labels of the compiled terms. -/
  termLabels : Labels
  /-- The labels in the source ontologies. -/
  sourceLabels : Labels

namespace IdentifierScope

/-- Whether an IRI belongs to an id space, which is either one of OBO identifiers or the
prefix of a namespace. -/
def inSpace (scope : IdentifierScope) (space : String) (iri : Iri) : Bool :=
  let startsWith (ns : String) := (Text.stripStart? ns iri.text).isSome
  startsWith (Vocabulary.obo ++ space ++ "_") || (scope.prefixes[space]?).any startsWith

/-- The terms that carry a label and belong to the id space, if one is given. -/
def carriers (scope : IdentifierScope) (labels : Labels) (space : Option String)
    (label : String) : List Iri :=
  (labels.carriers label).toList.filter fun iri => space.all fun s => scope.inSpace s iri

/-- The IRI of an identifier in a record. -/
def read (scope : IdentifierScope) (identifier : String) : Except RecordError Iri :=
  (scope.resolve identifier).mapError .identifier

/-- The IRI that a record is about; its identifier is no label. -/
def readId (scope : IdentifierScope) (text : String) : Except RecordError Iri :=
  let id := Text.trim text
  if id.toList.head? = some '\'' ∨ Text.occurs [':', '\''] id.toList then
    .error (.malformed (.labelAsId id))
  else scope.read id

end IdentifierScope

namespace ReferenceScope

/-- The terms that a label can stand for. -/
def candidates (scope : ReferenceScope) (space : Option String) (label : String) : List Iri :=
  match scope.identifiers.carriers scope.termLabels space label with
  | [] => scope.identifiers.carriers scope.sourceLabels space label
  | iris => iris

/-- The IRI that a reference stands for. -/
def resolve (scope : ReferenceScope) (reference : Cell.TermReference) : Except RecordError Iri :=
  match reference with
  | .iri text => scope.identifiers.read ("<" ++ text ++ ">")
  | .name text => scope.identifiers.read text
  | .label space label =>
    match scope.candidates space label with
    | [iri] => .ok iri
    | [] => .error (.unknownLabel reference)
    | iris => .error (.ambiguousLabel reference iris)
  | .anonymous _ => .error (.malformed (.anonymousTerm reference))

end ReferenceScope

end TabularOntology
