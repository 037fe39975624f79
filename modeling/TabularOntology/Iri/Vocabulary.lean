import TabularOntology.Iri.Basic
import TabularOntology.Text.Cut

/-! The vocabularies that belong to the modelling language itself, and the few
terms of other vocabularies that have a meaning of their own here. -/

namespace TabularOntology.Vocabulary

def owl : String := "http://www.w3.org/2002/07/owl#"

def rdf : String := "http://www.w3.org/1999/02/22-rdf-syntax-ns#"

def rdfs : String := "http://www.w3.org/2000/01/rdf-schema#"

def xsd : String := "http://www.w3.org/2001/XMLSchema#"

def obo : String := "http://purl.obolibrary.org/obo/"

def dc : String := "http://purl.org/dc/elements/1.1/"

def dcterms : String := "http://purl.org/dc/terms/"

def skos : String := "http://www.w3.org/2004/02/skos/core#"

/-- The class of all individuals. -/
def thing : Iri := ⟨owl ++ "Thing"⟩

/-- The empty class. -/
def nothing : Iri := ⟨owl ++ "Nothing"⟩

def label : Iri := ⟨rdfs ++ "label"⟩

def comment : Iri := ⟨rdfs ++ "comment"⟩

def string : Iri := ⟨xsd ++ "string"⟩

def integer : Iri := ⟨xsd ++ "integer"⟩

def decimal : Iri := ⟨xsd ++ "decimal"⟩

def boolean : Iri := ⟨xsd ++ "boolean"⟩

/-- The annotation property of textual definitions. -/
def definition : Iri := ⟨obo ++ "IAO_0000115"⟩

/-- A resource that the described one is derived from. -/
def source : Iri := ⟨dc ++ "source"⟩

/-- The namespaces whose terms never need a declaration or an import. -/
def builtinNamespaces : List String := [owl, rdf, rdfs, xsd]

def isBuiltin (iri : Iri) : Bool :=
  builtinNamespaces.any fun ns => (Text.stripStart? ns iri.text).isSome

end TabularOntology.Vocabulary
