import TabularOntology.Iri.Basic
import TabularOntology.Text.Cut

/-! Signatures: finite sets of IRIs, listed in the order of IRIs. -/

namespace TabularOntology

/-- A finite set of IRIs. -/
abbrev Signature := Std.TreeSet Iri

namespace Signature

@[simp] theorem contains_eq_false {s : Signature} {x : Iri} : s.contains x = false ↔ x ∉ s := by
  rw [← Std.TreeSet.contains_iff_mem, Bool.not_eq_true]

/-- Two signatures that share an IRI. -/
def intersects (s t : Signature) : Bool := s.toList.any fun iri => t.contains iri

def isSubset (s t : Signature) : Bool := s.toList.all fun iri => t.contains iri

/-- The IRIs in brackets, between braces. -/
def text (s : Signature) : String :=
  "\x7b" ++ Text.join ", " (s.toList.map Iri.bracketed) ++ "\x7d"

end Signature

end TabularOntology
