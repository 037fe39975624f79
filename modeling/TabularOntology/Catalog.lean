import TabularOntology.Ontology

/-! The catalog of source ontologies by name, and the labels that terms carry. A
label may be carried by several terms. -/

namespace TabularOntology

/-- The terms that carry each label. -/
abbrev Labels := Std.TreeMap String Signature

namespace Labels

/-- The terms that carry a label. -/
def carriers (ls : Labels) (label : String) : Signature := ls.getD label ∅

def add (ls : Labels) (label : String) (iri : Iri) : Labels :=
  ls.insert label ((ls.carriers label).insert iri)

def ofPairs (ps : List (String × Iri)) : Labels := ps.foldl (fun ls p => ls.add p.1 p.2) ∅

end Labels

/-- Source ontologies by name. -/
abbrev Catalog := Ontologies

namespace Catalog

/-- The kind that the first source that declares an IRI gives it. -/
def kindOf? (c : Catalog) (iri : Iri) : Option EntityKind := c.all.findSome? (·.kindOf? iri)

/-- The labels in all sources. -/
def labels (c : Catalog) : Labels :=
  .ofPairs (c.all.flatMap fun o => o.labels.map fun (iri, l) => (l.value, iri))

/-- An IRI that some source mentions. -/
def mentions (c : Catalog) (iri : Iri) : Bool := c.all.any fun o => o.signature.contains iri

/-- The sources of the given names, or the first name that is not in the catalog. -/
def restrict (sources : Catalog) : List String → Except String Catalog
  | [] => .ok ∅
  | name :: names =>
    match sources[name]? with
    | none => .error name
    | some o => (sources.restrict names).map (·.insert name o)

end Catalog

end TabularOntology
