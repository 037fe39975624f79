import TabularOntology.Ontology

/-! Related entities. An axiom gives edges between entities for each type of
relationship; the entities related to a start are those that can be reached from it
along edges of the wanted types, and what is traversed are the axioms with an edge
that leaves one of them. The search ends because an entity is queued once only. -/

namespace TabularOntology.Import

/-- The relationships that can be followed from an entity. -/
inductive RelatedType
  | ancestors
  | descendants
  | equivalents
  | disjoints
  | domains
  | ranges
  | inverses
  | types
  | propertyAssertions
  deriving DecidableEq, Repr

namespace RelatedType

/-- All types, in their order. -/
def all : List RelatedType :=
  [.ancestors, .descendants, .equivalents, .disjoints, .domains, .ranges, .inverses, .types,
    .propertyAssertions]

/-- The type that a name stands for. -/
def ofName (name : String) : Except UnknownName RelatedType :=
  match foldName name with
  | "ancestors" => .ok .ancestors
  | "descendants" => .ok .descendants
  | "equivalents" => .ok .equivalents
  | "disjoints" => .ok .disjoints
  | "domains" => .ok .domains
  | "ranges" => .ok .ranges
  | "inverses" => .ok .inverses
  | "types" => .ok .types
  | "propertyassertions" => .ok .propertyAssertions
  | _ => .error ⟨.relatedType, name⟩

/-- The types in a list with commas or semicolons, in their order and once each; the
first unknown name is the error. -/
def ofList (names : String) : Except UnknownName (List RelatedType) := do
  let names := (Text.pieces (fun c => c == ',' || c == ';') names.toList).map String.ofList
  let found ← (names.filter fun name => !Text.isBlankText name).mapM ofName
  .ok (all.filter found.contains)

end RelatedType

/-- The name of a named class. -/
def className? : ClassExpression → Option Iri
  | .named c => some c
  | _ => none

/-- All pairs of different members of a list. -/
def pairs (xs : List Iri) : List (Iri × Iri) :=
  xs.flatMap fun x => (xs.filter (· ≠ x)).map fun y => (x, y)

/-- The edges from a more special to a more general entity. -/
def upward : Axiom → List (Iri × Iri)
  | .subClass (.named c) (.named d) => [(c, d)]
  | .subObjectProperty (.named p) (.named q) => [(p, q)]
  | .subDataProperty p q | .subAnnotationProperty p q => [(p, q)]
  | _ => []

/-- The edges that an axiom gives for a type, from the entity to the related one. -/
def edges : RelatedType → Axiom → List (Iri × Iri)
  | .ancestors, a => upward a
  | .descendants, a => (upward a).map Prod.swap
  | .equivalents, .equivalentClasses cs | .disjoints, .disjointClasses cs =>
    pairs (cs.filterMap className?)
  | .equivalents, .equivalentObjectProperties ps | .equivalents, .equivalentDataProperties ps
  | .disjoints, .disjointObjectProperties ps | .disjoints, .disjointDataProperties ps => pairs ps
  | .domains, .objectPropertyDomain p (.named c) | .domains, .dataPropertyDomain p (.named c)
  | .ranges, .objectPropertyRange p (.named c) => [(p, c)]
  | .ranges, .dataPropertyRange p (.datatype d) => [(p, d)]
  | .inverses, .inverseObjectProperties p q => [(p, q), (q, p)]
  | .types, .classAssertion (.named c) (.named i) => [(i, c)]
  | .propertyAssertions, .objectPropertyAssertion _ (.named i) (.named j) => [(i, j)]
  | _, _ => []

/-- The edges that an axiom gives for any of the types. -/
def edgesOf (types : List RelatedType) (a : Axiom) : List (Iri × Iri) :=
  types.flatMap fun t => edges t a

/-- The entities that the edges from an entity lead to. -/
def targets (es : List (Iri × Iri)) (x : Iri) : List Iri :=
  (es.filter (·.1 = x)).map Prod.snd

theorem length_partition {α : Type} (p : α → Bool) (xs : List α) :
    (xs.partition p).1.length + (xs.partition p).2.length = xs.length := by
  rw [List.partition_eq_filter_filter]
  induction xs with
  | nil => rfl
  | cons x xs ih => by_cases h : p x <;> grind

/-- Breadth-first search: `unseen` holds the entities that were not queued yet. -/
def reach (es : List (Iri × Iri)) (unseen : List Iri) : List Iri → List Iri
  | [] => []
  | x :: queue =>
    let next := targets es x
    let split := unseen.partition next.contains
    x :: reach es split.2 (queue ++ split.1)
termination_by queue => unseen.length + queue.length
decreasing_by
  have := length_partition (targets es x).contains unseen
  simp only [List.length_append, List.length_cons]
  omega

/-- The entities that can be reached from a start, itself included. -/
def reachable (o : Ontology) (start : Iri) (types : List RelatedType) : Signature :=
  let es := o.axioms.flatMap (edgesOf types)
  .ofList (reach es (es.map Prod.snd |>.filter (· ≠ start)) [start])

/-- The axioms with an edge that leaves one of the given entities. -/
def traversed (o : Ontology) (types : List RelatedType) (reached : Signature) : List Axiom :=
  o.axioms.filter fun a => (edgesOf types a).any fun e => reached.contains e.1

end TabularOntology.Import
