import TabularOntology.ClassExpression
import TabularOntology.Signature

/-! Axioms. The functional syntax of an axiom is its key: ontologies keep one axiom
for each key, in the order of keys. Axioms over a set of operands are built with
their operands in the order of their texts and each text once, so that the same set
gives the same axiom. -/

namespace TabularOntology

inductive Characteristic
  | functional
  | inverseFunctional
  | reflexive
  | irreflexive
  | symmetric
  | asymmetric
  | transitive
  deriving DecidableEq, Repr

namespace Characteristic

def word : Characteristic → String
  | .functional => "Functional"
  | .inverseFunctional => "InverseFunctional"
  | .reflexive => "Reflexive"
  | .irreflexive => "Irreflexive"
  | .symmetric => "Symmetric"
  | .asymmetric => "Asymmetric"
  | .transitive => "Transitive"

/-- The characteristic that a name in a table stands for. -/
def ofName (name : String) : Except UnknownName Characteristic :=
  match foldName name with
  | "functional" => .ok .functional
  | "inversefunctional" => .ok .inverseFunctional
  | "reflexive" => .ok .reflexive
  | "irreflexive" => .ok .irreflexive
  | "symmetric" => .ok .symmetric
  | "asymmetric" => .ok .asymmetric
  | "transitive" => .ok .transitive
  | _ => .error ⟨.propertyCharacteristic, name⟩

end Characteristic

inductive Axiom
  | declaration (kind : EntityKind) (iri : Iri)
  | annotationAssertion (property subject : Iri) (value : Literal)
  | subAnnotationProperty (sub super : Iri)
  | subClass (sub super : ClassExpression)
  | equivalentClasses (operands : List ClassExpression)
  | disjointClasses (operands : List ClassExpression)
  | subObjectProperty (sub super : ObjectProperty)
  | equivalentObjectProperties (operands : List Iri)
  | disjointObjectProperties (operands : List Iri)
  | objectPropertyDomain (property : Iri) (domain : ClassExpression)
  | objectPropertyRange (property : Iri) (range : ClassExpression)
  | inverseObjectProperties (first second : Iri)
  | characteristic (c : Characteristic) (property : Iri)
  | subDataProperty (sub super : Iri)
  | equivalentDataProperties (operands : List Iri)
  | disjointDataProperties (operands : List Iri)
  | dataPropertyDomain (property : Iri) (domain : ClassExpression)
  | dataPropertyRange (property : Iri) (range : DataRange)
  | functionalDataProperty (property : Iri)
  | classAssertion (cls : ClassExpression) (individual : Individual)
  | objectPropertyAssertion (property : Iri) (source target : Individual)
  | negativeObjectPropertyAssertion (property : Iri) (source target : Individual)
  | dataPropertyAssertion (property : Iri) (source : Individual) (target : Literal)
  | negativeDataPropertyAssertion (property : Iri) (source : Individual) (target : Literal)

/-! ### Canonical operands -/

/-- Puts an operand into a list that is strictly increasing by `key`; an operand with a
key that is there already changes nothing. -/
def insertOperand {α : Type} (key : α → String) (x : α) : List α → List α
  | [] => [x]
  | y :: ys =>
    match compare (key x) (key y) with
    | .lt => x :: y :: ys
    | .eq => y :: ys
    | .gt => y :: insertOperand key x ys

/-- The operands in the order of their keys, the first one of each key. -/
def canonicalOperands {α : Type} (key : α → String) (xs : List α) : List α :=
  xs.foldl (fun ys x => insertOperand key x ys) []

namespace Axiom

def ofEquivalentClasses (cs : List ClassExpression) : Axiom :=
  .equivalentClasses (canonicalOperands ClassExpression.text cs)

def ofDisjointClasses (cs : List ClassExpression) : Axiom :=
  .disjointClasses (canonicalOperands ClassExpression.text cs)

def ofEquivalentObjectProperties (ps : List Iri) : Axiom :=
  .equivalentObjectProperties (canonicalOperands Iri.bracketed ps)

def ofDisjointObjectProperties (ps : List Iri) : Axiom :=
  .disjointObjectProperties (canonicalOperands Iri.bracketed ps)

def ofEquivalentDataProperties (ps : List Iri) : Axiom :=
  .equivalentDataProperties (canonicalOperands Iri.bracketed ps)

def ofDisjointDataProperties (ps : List Iri) : Axiom :=
  .disjointDataProperties (canonicalOperands Iri.bracketed ps)

/-- Two inverse properties, the smaller IRI first. -/
def ofInverseObjectProperties (p q : Iri) : Axiom :=
  match compare q p with
  | .lt => .inverseObjectProperties q p
  | _ => .inverseObjectProperties p q

/-! ### Key and signature -/

/-- A word applied to IRIs. -/
def irisForm (word : String) (ps : List Iri) : Form :=
  .node word (ps.map fun p => .atom p.bracketed)

def form : Axiom → Form
  | .declaration kind iri => .node "Declaration" [.node kind.keyword [.atom iri.bracketed]]
  | .annotationAssertion p s v =>
    .node "AnnotationAssertion" [.atom p.bracketed, .atom s.bracketed, .atom v.text]
  | .subAnnotationProperty p q => irisForm "SubAnnotationPropertyOf" [p, q]
  | .subClass c d => .node "SubClassOf" [c.form, d.form]
  | .equivalentClasses cs => .node "EquivalentClasses" (cs.map ClassExpression.form)
  | .disjointClasses cs => .node "DisjointClasses" (cs.map ClassExpression.form)
  | .subObjectProperty p q => .node "SubObjectPropertyOf" [p.form, q.form]
  | .equivalentObjectProperties ps => irisForm "EquivalentObjectProperties" ps
  | .disjointObjectProperties ps => irisForm "DisjointObjectProperties" ps
  | .objectPropertyDomain p c => .node "ObjectPropertyDomain" [.atom p.bracketed, c.form]
  | .objectPropertyRange p c => .node "ObjectPropertyRange" [.atom p.bracketed, c.form]
  | .inverseObjectProperties p q => irisForm "InverseObjectProperties" [p, q]
  | .characteristic c p => irisForm (c.word ++ "ObjectProperty") [p]
  | .subDataProperty p q => irisForm "SubDataPropertyOf" [p, q]
  | .equivalentDataProperties ps => irisForm "EquivalentDataProperties" ps
  | .disjointDataProperties ps => irisForm "DisjointDataProperties" ps
  | .dataPropertyDomain p c => .node "DataPropertyDomain" [.atom p.bracketed, c.form]
  | .dataPropertyRange p d => .node "DataPropertyRange" [.atom p.bracketed, d.form]
  | .functionalDataProperty p => irisForm "FunctionalDataProperty" [p]
  | .classAssertion c i => .node "ClassAssertion" [c.form, .atom i.text]
  | .objectPropertyAssertion p i j =>
    .node "ObjectPropertyAssertion" [.atom p.bracketed, .atom i.text, .atom j.text]
  | .negativeObjectPropertyAssertion p i j =>
    .node "NegativeObjectPropertyAssertion" [.atom p.bracketed, .atom i.text, .atom j.text]
  | .dataPropertyAssertion p i v =>
    .node "DataPropertyAssertion" [.atom p.bracketed, .atom i.text, .atom v.text]
  | .negativeDataPropertyAssertion p i v =>
    .node "NegativeDataPropertyAssertion" [.atom p.bracketed, .atom i.text, .atom v.text]

/-- The functional syntax, by which ontologies tell axioms apart. -/
def key (a : Axiom) : String := a.form.text

/-- The IRIs of the entities mentioned, with repetitions. -/
def iris : Axiom → List Iri
  | .declaration _ iri => [iri]
  | .annotationAssertion p s _ => [p, s]
  | .subAnnotationProperty p q => [p, q]
  | .subClass c d => c.iris ++ d.iris
  | .equivalentClasses cs | .disjointClasses cs => ClassExpression.irisOf cs
  | .subObjectProperty p q => [p.iri, q.iri]
  | .equivalentObjectProperties ps | .disjointObjectProperties ps => ps
  | .objectPropertyDomain p c | .objectPropertyRange p c => p :: c.iris
  | .inverseObjectProperties p q => [p, q]
  | .characteristic _ p => [p]
  | .subDataProperty p q => [p, q]
  | .equivalentDataProperties ps | .disjointDataProperties ps => ps
  | .dataPropertyDomain p c => p :: c.iris
  | .dataPropertyRange p d => p :: d.iris
  | .functionalDataProperty p => [p]
  | .classAssertion c i => c.iris ++ i.iris
  | .objectPropertyAssertion p i j | .negativeObjectPropertyAssertion p i j => p :: i.iris ++ j.iris
  | .dataPropertyAssertion p i _ | .negativeDataPropertyAssertion p i _ => p :: i.iris

/-- The entities declared: at most one. -/
def declares : Axiom → List Entity
  | .declaration kind iri => [⟨iri, kind⟩]
  | _ => []

/-- The set of the IRIs mentioned. -/
def signature (a : Axiom) : Signature := .ofList a.iris

theorem mem_signature {a : Axiom} {iri : Iri} : iri ∈ a.signature ↔ iri ∈ a.iris := by
  simp [signature, Std.TreeSet.mem_ofList]

/-- All axioms but declarations and annotations, which every model satisfies. -/
def isLogical : Axiom → Bool
  | .declaration .. | .annotationAssertion .. | .subAnnotationProperty .. => false
  | _ => true

/-- The characteristic that an axiom states of a property, of either sort. -/
def characteristic? : Axiom → Option Characteristic
  | .characteristic c _ => some c
  | .functionalDataProperty _ => some .functional
  | _ => none

end Axiom

end TabularOntology
