import TabularOntology.Ontology

/-! Edits of an ontology, one after the other. -/

namespace TabularOntology

/-- A change of an ontology. -/
inductive Edit
  | insert (a : Axiom)
  | extend (as : List Axiom)
  | merge (other : Ontology)
  | retain (p : Axiom → Bool)
  | addImport (iri : Iri)
  | setIri (iri : Option Iri)
  | setVersionIri (iri : Option Iri)
  | setSource (iri : Option Iri)

namespace Ontology

/-- Adds an axiom and tells whether it is new. -/
def insertNew (o : Ontology) (a : Axiom) : Ontology × Bool := (o.insert a, !o.contains a)

def edit (o : Ontology) : Edit → Ontology
  | .insert a => (o.insertNew a).1
  | .extend as => o.insertAll as
  | .merge other => o.merge other
  | .retain p => o.retain p
  | .addImport iri => o.addImport iri
  | .setIri iri => { o with iri }
  | .setVersionIri iri => { o with versionIri := iri }
  | .setSource iri => { o with source := iri }

/-- What edits make of the empty ontology. -/
def ofEdits (es : List Edit) : Ontology := es.foldl edit {}

end Ontology

end TabularOntology
