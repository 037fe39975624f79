import TabularOntology.Iri.Obo
import TabularOntology.Iri.Prefixes
import TabularOntology.Text.Blank

/-! Identifiers other than labels, as tables write them. The forms are tried in
this order: a reference in angle brackets; an OBO identifier; a CURIE with a known
prefix; an absolute IRI with `://` in it or with the scheme `urn`; and, without any
colon, a reference relative to the base. -/

namespace TabularOntology

/-- What identifiers are read against. -/
structure IdentifierScope where
  /-- The base as it was given. -/
  baseText : String
  base : Iri.Parts
  prefixes : Prefixes

namespace IdentifierScope

def ofBase (base : String) (prefixes : Prefixes) : Except IdentifierError IdentifierScope :=
  match Iri.parts base.toList with
  | .ok parts => .ok ⟨base, parts, prefixes⟩
  | .error fault => .error (.invalidIri base fault)

/-- Resolves a reference against the base. -/
def relative (scope : IdentifierScope) (reference : String) : Except IdentifierError Iri :=
  match scope.base.resolve reference.toList with
  | .ok parts => .ok parts.toIri
  | .error fault => .error (.invalidIri reference fault)

/-- What stands between angle brackets. -/
def bracketed? (identifier : String) : Option String :=
  match identifier.toList with
  | '<' :: cs => if cs.getLast? = some '>' then some (String.ofList cs.dropLast) else none
  | _ => none

/-- An identifier that is read as an absolute IRI although it has no brackets. -/
def looksAbsolute (identifier : String) : Bool :=
  Text.occurs [':', '/', '/'] identifier.toList || (Text.stripStart? "urn:" identifier).isSome

/-- The IRI that an identifier stands for. -/
def resolve (scope : IdentifierScope) (text : String) : Except IdentifierError Iri :=
  let identifier := Text.trim text
  if identifier.isEmpty then .error .empty
  else if let some reference := bracketed? identifier then scope.relative reference
  else if let some iri := Obo.toIri? identifier then .ok iri
  else
    match Text.cutFirst? ':' identifier.toList with
    | none => scope.relative identifier
    | some (space, _) =>
      let space := String.ofList space
      if scope.prefixes.contains space then scope.prefixes.expand identifier
      else if looksAbsolute identifier then Prefixes.absolute identifier
      else .error (.unknownPrefix space identifier)

end IdentifierScope

end TabularOntology
