import TabularOntology.Ontology

/-! What the structural reasoner takes from an ontology: the facts that axioms tell about
named classes, properties and individuals. Intersections on the right of a subsumption
are taken apart, a complement on the right counts as disjointness, and all other
expressions tell nothing. A class that is named in a fact is registered: superclasses are
computed for registered classes only. -/

namespace TabularOntology

/-- IRIs linked to sets of IRIs. -/
abbrev Links := Std.TreeMap Iri Signature

namespace Links

/-- The IRIs that an IRI is linked to. -/
def of (ls : Links) (iri : Iri) : Signature := ls.getD iri ∅

def add (ls : Links) (iri target : Iri) : Links := ls.insert iri ((ls.of iri).insert target)

def ofPairs (ps : List (Iri × Iri)) : Links := ps.foldl (fun ls p => ls.add p.1 p.2) ∅

theorem mem_of_add {ls : Links} {iri target i t : Iri} :
    t ∈ (ls.add iri target).of i ↔ (i = iri ∧ t = target) ∨ t ∈ ls.of i := by
  by_cases h : i = iri
  · subst h
    simp [add, of, @eq_comm _ target t]
  · simp [add, of, Std.TreeMap.getD_insert, h, Ne.symm h]

theorem mem_of_foldl_add {ps : List (Iri × Iri)} {ls : Links} {i t : Iri} :
    t ∈ (ps.foldl (fun ls p => ls.add p.1 p.2) ls).of i ↔ (i, t) ∈ ps ∨ t ∈ ls.of i := by
  induction ps generalizing ls with
  | nil => simp
  | cons p ps ih =>
    rw [List.foldl_cons, ih, mem_of_add]
    simp only [List.mem_cons, Prod.ext_iff, or_left_comm, or_assoc]

theorem mem_of_ofPairs {ps : List (Iri × Iri)} {i t : Iri} :
    t ∈ (ofPairs ps).of i ↔ (i, t) ∈ ps := by
  rw [ofPairs, mem_of_foldl_add]
  simp [of]

end Links

namespace Reasoner

/-- One thing that an axiom tells. -/
inductive Fact
  /-- The class is registered. -/
  | registered (c : Iri)
  | subclass (c d : Iri)
  /-- What is in all the operands is in `d`. -/
  | conjunction (operands : List Iri) (d : Iri)
  /-- Every member of `c` is related by `p` to some member of `d`. -/
  | existential (c p d : Iri)
  | disjoint (c d : Iri)
  | domain (p c : Iri)
  | range (p c : Iri)
  | individual (i : Individual)
  | member (i : Individual) (c : Iri)
  /-- The individual is a member of the complement. -/
  | nonmember (i : Individual) (c : Iri)
  | related (p : Iri) (i j : Individual)
  deriving DecidableEq, Repr

/-- The IRI of a named class. -/
def name? : ClassExpression → Option Iri
  | .named c => some c
  | _ => none

mutual

/-- What is told of a named class by an expression that it is a subclass of. -/
def superFacts (c : Iri) : ClassExpression → List Fact
  | .named d => [.registered d, .subclass c d]
  | .intersection es => superFactsAll c es
  | .complement (.named d) => [.registered d, .disjoint c d, .disjoint d c]
  | .some (.named p) (.named d) => [.registered d, .existential c p d]
  | _ => []

def superFactsAll (c : Iri) : List ClassExpression → List Fact
  | [] => []
  | e :: es => superFacts c e ++ superFactsAll c es

end

mutual

/-- What is told of an individual by an expression that it is a member of. -/
def memberFacts (i : Individual) : ClassExpression → List Fact
  | .named c => [.registered c, .member i c]
  | .intersection es => memberFactsAll i es
  | .complement (.named c) => [.registered c, .nonmember i c]
  | _ => []

def memberFactsAll (i : Individual) : List ClassExpression → List Fact
  | [] => []
  | e :: es => memberFacts i e ++ memberFactsAll i es

end

/-- What a subsumption tells. -/
def subsumptionFacts : ClassExpression → ClassExpression → List Fact
  | .named c, e => .registered c :: superFacts c e
  | .intersection es, .named d =>
    match es.mapM name? with
    | some cs => .registered d :: cs.map .registered ++ [.conjunction cs d]
    | none => []
  | _, _ => []

/-- What two operands of an equivalence tell, the first one as a subclass. A named class
tells nothing about itself. -/
def equivalenceFacts (c d : ClassExpression) : List Fact :=
  match c, d with
  | .named a, .named b => if a = b then [] else subsumptionFacts (.named a) (.named b)
  | c, d => subsumptionFacts c d

/-- What an axiom tells. -/
def factsOf : Axiom → List Fact
  | .declaration .cls c => [.registered c]
  | .subClass c d => subsumptionFacts c d
  | .equivalentClasses es => es.flatMap fun c => es.flatMap fun d => equivalenceFacts c d
  | .disjointClasses es =>
    let cs := es.filterMap name?
    cs.map .registered ++ cs.flatMap fun c => (cs.filter (· ≠ c)).map fun d => .disjoint c d
  | .objectPropertyDomain p (.named c) => [.registered c, .domain p c]
  | .objectPropertyRange p (.named c) => [.registered c, .range p c]
  | .classAssertion e i => .individual i :: memberFacts i e
  | .objectPropertyAssertion p i j => [.individual i, .individual j, .related p i j]
  | _ => []

/-- The facts of an ontology by sort. -/
structure Facts where
  /-- The registered classes, the empty class among them. -/
  classes : Signature
  /-- For each registered class itself and the classes it is told to be a subclass of. -/
  supers : Links
  conjunctions : List (List Iri × Iri)
  existentials : List (Iri × Iri × Iri)
  disjoint : List (Iri × Iri)
  domains : Links
  /-- The individuals in the order in which they are first met, each with the classes that
  it is told to be a member of or to be an end of a relation in. -/
  members : List (Individual × Signature)
  /-- The complements that individuals are told to be members of. -/
  nonmembers : List (Individual × Iri)

namespace Facts

/-- The classes of an individual that facts give directly. -/
def classesOf (domains ranges : Links) (i : Individual) : Fact → List Iri
  | .member j c => if j = i then [c] else []
  | .related p j k =>
    (if j = i then (domains.of p).toList else []) ++ (if k = i then (ranges.of p).toList else [])
  | _ => []

/-- Sorts a list of facts. -/
def ofList (fs : List Fact) : Facts :=
  let classes := Vocabulary.nothing :: fs.filterMap fun
    | .registered c => some c
    | _ => none
  let told := fs.filterMap fun
    | .subclass c d => some (c, d)
    | _ => none
  let domains := Links.ofPairs (fs.filterMap fun
    | .domain p c => some (p, c)
    | _ => none)
  let ranges := Links.ofPairs (fs.filterMap fun
    | .range p c => some (p, c)
    | _ => none)
  let individuals := fs.filterMap fun
    | .individual i => some i
    | _ => none
  { classes := .ofList classes
    supers := .ofPairs (classes.map (fun c => (c, c)) ++ told)
    conjunctions := fs.filterMap fun
      | .conjunction cs d => some (cs, d)
      | _ => none
    existentials := fs.filterMap fun
      | .existential c p d => some (c, p, d)
      | _ => none
    disjoint := fs.filterMap fun
      | .disjoint c d => some (c, d)
      | _ => none
    domains
    members := individuals.eraseDups.map fun i =>
      (i, .ofList (fs.flatMap (classesOf domains ranges i)))
    nonmembers := fs.filterMap fun
      | .nonmember i c => some (i, c)
      | _ => none }

def ofOntology (o : Ontology) : Facts := ofList (o.axioms.flatMap factsOf)

end Facts

end Reasoner

end TabularOntology
