import Std.Data.TreeMap
import TabularOntology.Iri.Reference
import TabularOntology.Iri.Vocabulary

/-! CURIEs and the namespaces their prefixes stand for. Only absolute IRIs can be
bound to a prefix, and what a CURIE expands to has to be an absolute IRI too. -/

namespace TabularOntology

/-- Why an identifier names nothing. -/
inductive IdentifierError
  | empty
  | unknownPrefix (space identifier : String)
  | invalidIri (text : String) (fault : Iri.Fault)
  deriving DecidableEq, Repr

def IdentifierError.message : IdentifierError → String
  | .empty => "empty identifier"
  | .unknownPrefix space identifier => s!"unknown prefix '{space}' in '{identifier}'"
  | .invalidIri text fault => s!"invalid IRI '{text}': {fault.message}"

/-- Namespaces by prefix. -/
abbrev Prefixes := Std.TreeMap String String

namespace Prefixes

/-- The prefixes that are known without a declaration. -/
def standard : Prefixes :=
  .ofList [("owl", Vocabulary.owl), ("rdf", Vocabulary.rdf), ("rdfs", Vocabulary.rdfs),
    ("xsd", Vocabulary.xsd), ("obo", Vocabulary.obo), ("dc", Vocabulary.dc),
    ("dcterms", Vocabulary.dcterms), ("skos", Vocabulary.skos)]

/-- The absolute IRI that a text is, or why it is none. -/
def absolute (text : String) : Except IdentifierError Iri :=
  match Iri.ofString text with
  | .ok iri => .ok iri
  | .error fault => .error (.invalidIri text fault)

/-- Binds a prefix to a namespace, in place of an earlier one. -/
def bind (ps : Prefixes) (space ns : String) : Except IdentifierError Prefixes := do
  let _ ← absolute ns
  .ok (ps.insert space ns)

/-- Binds a list of prefixes in order, up to the first fault. -/
def bindAll (ps : Prefixes) : List (String × String) → Except IdentifierError Prefixes
  | [] => .ok ps
  | (space, ns) :: rest => do bindAll (← ps.bind space ns) rest

/-- The prefix and the local part of a CURIE; without a colon the prefix is empty. -/
def halves (curie : String) : String × String :=
  match Text.cutFirst? ':' curie.toList with
  | some (space, name) => (String.ofList space, String.ofList name)
  | none => ("", curie)

/-- The IRI of a CURIE. -/
def expand (ps : Prefixes) (curie : String) : Except IdentifierError Iri :=
  let (space, name) := halves curie
  match ps[space]? with
  | some ns => absolute (ns ++ name)
  | none => .error (.unknownPrefix space curie)

end Prefixes

end TabularOntology
