import TabularOntology.Reasoner.Options
import TabularOntology.Reasoner.Saturation

/-! The structural reasoner: the verdict on an ontology that its saturated sets give. It
may miss a class without members, since it passes over many axioms, but it never calls a
class empty that is not. Work is bounded by the number of rounds. Of the limits in time
only that of no time at all matters, which is always exceeded. -/

namespace TabularOntology.Reasoner

namespace Saturation

/-- The registered classes that can have no members, other than the empty class. -/
def unsatisfiable (s : Saturation) : Signature :=
  s.facts.classes.filter fun c =>
    c != Vocabulary.nothing && (s.supers.of c).contains Vocabulary.nothing

/-- The first two disjoint classes in a set, the smaller one first. -/
def disjointPair? (f : Facts) (classes : List Iri) : Option (Iri × Iri) :=
  classes.findSome? fun c =>
    (classes.find? fun d => compare c d == .lt && f.disjoint.contains (c, d)).map fun d => (c, d)

/-- Why an individual with the given classes cannot exist. -/
def explain? (f : Facts) (i : Individual) (classes : Signature) : Option String :=
  let complements := (f.nonmembers.filter fun n => n.1 = i).map (·.2)
  match classes.toList.find? complements.contains with
  | some c => some s!"{i.text} is an instance of {c.bracketed} and of its complement"
  | none =>
    if !classes.contains Vocabulary.nothing then none
    else
      match disjointPair? f classes.toList with
      | some (c, d) =>
        some s!"{i.text} is an instance of the disjoint classes {c.bracketed} and {d.bracketed}"
      | none => some s!"{i.text} is an instance of {Vocabulary.nothing.bracketed}"

/-- Why the first individual that cannot exist cannot. -/
def explanation (s : Saturation) : Option String :=
  s.members.findSome? fun (i, classes) => explain? s.facts i classes

/-- The subsumptions of registered classes that are worth stating. -/
def subsumptions (s : Saturation) : List Axiom :=
  (s.facts.classes.toList.filter (· != Vocabulary.nothing)).flatMap fun c =>
    ((s.supers.of c).toList.filter fun d => d != c && d != Vocabulary.thing).map fun d =>
      .subClass (.named c) (.named d)

/-- The class assertions that are worth stating. -/
def assertions (s : Saturation) : List Axiom :=
  s.members.flatMap fun (i, classes) =>
    (classes.toList.filter (· != Vocabulary.thing)).map fun c => .classAssertion (.named c) i

/-- The entailed axioms that are not in the ontology, in the order of their keys. -/
def inferred (s : Saturation) (o : Ontology) : List Axiom :=
  let new := (s.subsumptions ++ s.assertions).filter fun a => !o.contains a
  let keyed := new.map fun a => (a.key, a)
  (keyed.mergeSort fun a b => (compare a.1 b.1).isLE).map (·.2)

def verdict (s : Saturation) (materialize : Bool) (o : Ontology) : Verdict :=
  let explanation := s.explanation
  { consistent := explanation.isNone
    unsatisfiable := s.unsatisfiable
    inferred := if materialize && explanation.isNone then some (s.inferred o) else none
    explanation }

end Saturation

/-- Checks an ontology. -/
def check (options : Options) (o : Ontology) : Except Failure Verdict :=
  if options.timeout = some 0 then .error (.timeout 0)
  else
    match saturate options.maxIterations o with
    | none => .error (.noFixpoint options.maxIterations)
    | some s => .ok (s.verdict options.materialize o)

end TabularOntology.Reasoner
