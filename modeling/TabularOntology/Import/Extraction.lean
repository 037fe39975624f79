import TabularOntology.Locality
import TabularOntology.Ontology

/-! Extraction of modules from one ontology. The module of a signature grows from
the symbols of the signature: each symbol that joins is looked up, the axioms that
mention it are classified once more, and those that are not local for the symbols
known so far are chosen and bring their own symbols along. The extraction of single
entities chooses what describes an entity, and then what describes the annotation
properties used there. Both end because an axiom is chosen once only. -/

namespace TabularOntology.Import

/-- Either nothing was split off, or what is left is shorter. -/
theorem partition_shrinks {α : Type} (p : α → Bool) (xs : List α) :
    (xs.partition p).1 = [] ∧ (xs.partition p).2 = xs ∨
      (xs.partition p).2.length < xs.length := by
  rw [List.partition_eq_filter_filter]
  induction xs with
  | nil => simp
  | cons x xs ih => by_cases h : p x <;> grind

/-- The axioms that are chosen from `rest` while the symbols in `pending`, which are
known already, are looked up. -/
def grow (rest : List Axiom) (known : Signature) : List Iri → List Axiom
  | [] => []
  | x :: pending =>
    let split := rest.partition fun a => a.iris.contains x && !a.isLocal known
    let joining := (split.1.flatMap Axiom.iris).filter fun iri => !known.contains iri
    split.1 ++ grow split.2 (known.insertMany joining) (joining ++ pending)
termination_by pending => (rest.length, pending.length)
decreasing_by
  rcases partition_shrinks (fun a => a.iris.contains x && !a.isLocal known) rest with h | h
  · simp only [h, List.flatMap_nil, List.filter_nil, List.nil_append]
    exact Prod.Lex.right _ (Nat.lt_succ_self _)
  · exact Prod.Lex.left _ _ h

/-- The locality module of a seed. -/
def extract (o : Ontology) (seed : Signature) : Ontology :=
  .ofAxioms (grow o.axioms seed seed.toList)

/-- The axioms that describe an entity by themselves: its declaration, the annotations
with it as their subject, and its characteristics. -/
def describes (x : Iri) : Axiom → Bool
  | .declaration _ iri => iri = x
  | .annotationAssertion _ subject _ => subject = x
  | .characteristic _ p => p = x
  | .functionalDataProperty p => p = x
  | _ => false

/-- The property of an annotation. -/
def annotationProperty? : Axiom → Option Iri
  | .annotationAssertion p _ _ => some p
  | _ => none

/-- The axioms that are chosen from `rest` to describe the pending entities and the
annotation properties used on the way. -/
def describe (rest : List Axiom) : List Iri → List Axiom
  | [] => []
  | x :: pending =>
    let split := rest.partition (describes x)
    split.1 ++ describe split.2 (split.1.filterMap annotationProperty? ++ pending)
termination_by pending => (rest.length, pending.length)
decreasing_by
  rcases partition_shrinks (describes x) rest with h | h
  · simp only [h, List.filterMap_nil, List.nil_append]
    exact Prod.Lex.right _ (Nat.lt_succ_self _)
  · exact Prod.Lex.left _ _ h

/-- What describes the given entities. -/
def extractSingle (o : Ontology) (entities : Signature) : Ontology :=
  .ofAxioms (describe o.axioms entities.toList)

end TabularOntology.Import
