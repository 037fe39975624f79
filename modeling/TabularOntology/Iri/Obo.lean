import TabularOntology.Iri.Vocabulary

/-! OBO identifiers: an id space of letters, or of two groups of letters with an
underscore between them, then a colon and digits. Such an identifier stands for
the IRI that joins the two halves with an underscore below the OBO namespace. -/

namespace TabularOntology.Obo

open Text

def isLetters (cs : List Char) : Bool := !cs.isEmpty && cs.all Char.isAlpha

def isDigits (cs : List Char) : Bool := !cs.isEmpty && cs.all Char.isDigit

/-- Letters, or two groups of letters around an underscore. -/
def isIdSpace (cs : List Char) : Bool :=
  match cutFirst? '_' cs with
  | none => isLetters cs
  | some (l, r) => isLetters l && isLetters r

/-- The id space and the number of an OBO identifier. -/
def halves? (id : String) : Option (List Char × List Char) :=
  match cutFirst? ':' id.toList with
  | some (space, number) =>
    if isIdSpace space && isDigits number then some (space, number) else none
  | none => none

def isId (id : String) : Bool := (halves? id).isSome

/-- The IRI of an OBO identifier. -/
def toIri? (id : String) : Option Iri :=
  (halves? id).map fun (space, number) =>
    ⟨Vocabulary.obo ++ String.ofList (space ++ '_' :: number)⟩

/-- The OBO identifier of an IRI below the OBO namespace. -/
def ofIri? (iri : String) : Option String :=
  match stripStart? Vocabulary.obo iri with
  | none => none
  | some tail =>
    match cutLast? '_' tail.toList with
    | none => none
    | some (space, number) =>
      let id := String.ofList (space ++ ':' :: number)
      if isId id then some id else none

end TabularOntology.Obo
