import TabularOntology.Cell.Quoted

/-! References to terms as cells write them: an IRI in angle brackets, a name, a
quoted label that may carry an id space, or an anonymous individual. References
are kept as written; resolving them needs all terms of all tables. -/

namespace TabularOntology.Cell

/-- A reference to a term, as written. -/
inductive TermReference
  /-- An IRI in angle brackets, held without them. -/
  | iri (text : String)
  /-- A CURIE, an OBO identifier or a bare name. -/
  | name (text : String)
  /-- A quoted label; `space` is what stood before a colon in front of it. -/
  | label (space : Option String) (text : String)
  /-- An anonymous individual, held without `_:`. -/
  | anonymous (name : String)
  deriving DecidableEq, Repr

/-- The reference as a cell writes it. -/
def TermReference.text : TermReference → String
  | .iri s => "<" ++ s ++ ">"
  | .name s => s
  | .label none s => Quoted.write '\'' s
  | .label (some space) s => space ++ ":" ++ Quoted.write '\'' s
  | .anonymous s => "_:" ++ s

end TabularOntology.Cell
