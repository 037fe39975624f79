import TabularOntology.Axiom
import TabularOntology.Iri.Vocabulary

/-! Locality. Given a signature, let every class and every property outside it be
empty. The rules below recognise, by syntax alone, expressions that must then be
empty or must then hold everything, and axioms that must then be true whatever the
symbols of the signature mean. Such an axiom says nothing about the signature, and a
module for the signature can leave it out. Declarations and annotations are true in
any case and are kept for what they are about. -/

namespace TabularOntology

/-- What is known of an expression once the symbols outside a signature are empty:
that it has no members, or that it has all individuals as members. -/
structure Extent where
  isEmpty : Bool
  isFull : Bool
  deriving DecidableEq, Repr

namespace ClassExpression

mutual

/-- The extent of an expression by the rules of locality. -/
def extent (s : Signature) : ClassExpression → Extent
  | .named c =>
    ⟨c = Vocabulary.nothing || (c ≠ Vocabulary.thing && !s.contains c), c = Vocabulary.thing⟩
  | .intersection cs =>
    let es := extents s cs
    ⟨es.any (·.isEmpty), es.all (·.isFull)⟩
  | .union cs =>
    let es := extents s cs
    ⟨es.all (·.isEmpty), es.any (·.isFull)⟩
  | .complement c =>
    let e := c.extent s
    ⟨e.isFull, e.isEmpty⟩
  | .some p c => ⟨!s.contains p.iri || (c.extent s).isEmpty, false⟩
  | .only p c => ⟨false, !s.contains p.iri || (c.extent s).isFull⟩
  | .hasValue p _ => ⟨!s.contains p.iri, false⟩
  | .cardinality .min n p none => ⟨0 < n && !s.contains p.iri, n = 0⟩
  | .cardinality .min n p (Option.some c) =>
    ⟨0 < n && (!s.contains p.iri || (c.extent s).isEmpty), n = 0⟩
  | .cardinality .max _ p none => ⟨false, !s.contains p.iri⟩
  | .cardinality .max _ p (Option.some c) => ⟨false, !s.contains p.iri || (c.extent s).isEmpty⟩
  | .cardinality .exactly n p none => ⟨0 < n && !s.contains p.iri, false⟩
  | .cardinality .exactly n p (Option.some c) =>
    ⟨0 < n && (!s.contains p.iri || (c.extent s).isEmpty), false⟩
  | .dataSome p _ => ⟨!s.contains p, false⟩
  | .dataOnly p _ => ⟨false, !s.contains p⟩
  | .dataHasValue p _ => ⟨!s.contains p, false⟩
  | .dataCardinality .min n p _ => ⟨0 < n && !s.contains p, n = 0⟩
  | .dataCardinality .max _ p _ => ⟨false, !s.contains p⟩
  | .dataCardinality .exactly n p _ => ⟨0 < n && !s.contains p, false⟩

def extents (s : Signature) : List ClassExpression → List Extent
  | [] => []
  | c :: cs => c.extent s :: extents s cs

end

/-- An expression without members. -/
def isBottom (s : Signature) (c : ClassExpression) : Bool := (c.extent s).isEmpty

/-- An expression that all individuals are members of. -/
def isTop (s : Signature) (c : ClassExpression) : Bool := (c.extent s).isFull

/-! ### The rules, one constructor at a time -/

section Rules
variable {s : Signature} {c : ClassExpression} {cs : List ClassExpression}
variable {b : Bound} {n : Nat} {p : ObjectProperty} {q : Iri}

attribute [local simp] isBottom isTop extent

theorem extents_eq_map (s : Signature) (cs : List ClassExpression) :
    extents s cs = cs.map (extent s) := by
  induction cs with
  | nil => rfl
  | cons c cs ih => rw [extents, ih, List.map_cons]

attribute [local simp] extents_eq_map

@[simp] theorem isBottom_named {x : Iri} : (named x).isBottom s ↔
    x = Vocabulary.nothing ∨ x ≠ Vocabulary.thing ∧ x ∉ s := by
  simp

@[simp] theorem isTop_named {x : Iri} : (named x).isTop s ↔ x = Vocabulary.thing := by
  simp

@[simp] theorem isBottom_intersection :
    (intersection cs).isBottom s ↔ ∃ c ∈ cs, c.isBottom s := by
  simp

@[simp] theorem isTop_intersection : (intersection cs).isTop s ↔ ∀ c ∈ cs, c.isTop s := by
  simp

@[simp] theorem isBottom_union : (union cs).isBottom s ↔ ∀ c ∈ cs, c.isBottom s := by
  simp

@[simp] theorem isTop_union : (union cs).isTop s ↔ ∃ c ∈ cs, c.isTop s := by
  simp

@[simp] theorem isBottom_complement : (complement c).isBottom s ↔ c.isTop s := by
  simp

@[simp] theorem isTop_complement : (complement c).isTop s ↔ c.isBottom s := by
  simp

@[simp] theorem isBottom_some : (some p c).isBottom s ↔ p.iri ∉ s ∨ c.isBottom s := by
  simp

@[simp] theorem isTop_some : ¬ (some p c).isTop s := by simp

@[simp] theorem isBottom_only : ¬ (only p c).isBottom s := by simp

@[simp] theorem isTop_only : (only p c).isTop s ↔ p.iri ∉ s ∨ c.isTop s := by
  simp

@[simp] theorem isBottom_hasValue {i : Individual} : (hasValue p i).isBottom s ↔ p.iri ∉ s := by
  simp

@[simp] theorem isTop_hasValue {i : Individual} : ¬ (hasValue p i).isTop s := by
  simp

@[simp] theorem isBottom_cardinality {filler : Option ClassExpression} :
    (cardinality b n p filler).isBottom s ↔
      b ≠ .max ∧ 0 < n ∧ (p.iri ∉ s ∨ ∃ c ∈ filler, c.isBottom s) := by
  cases b <;> cases filler <;> simp

@[simp] theorem isTop_cardinality {filler : Option ClassExpression} :
    (cardinality b n p filler).isTop s ↔
      b = .min ∧ n = 0 ∨ b = .max ∧ (p.iri ∉ s ∨ ∃ c ∈ filler, c.isBottom s) := by
  cases b <;> cases filler <;> simp

@[simp] theorem isBottom_dataSome {d : DataRange} : (dataSome q d).isBottom s ↔ q ∉ s := by
  simp

@[simp] theorem isTop_dataSome {d : DataRange} : ¬ (dataSome q d).isTop s := by
  simp

@[simp] theorem isBottom_dataOnly {d : DataRange} : ¬ (dataOnly q d).isBottom s := by
  simp

@[simp] theorem isTop_dataOnly {d : DataRange} : (dataOnly q d).isTop s ↔ q ∉ s := by
  simp

@[simp] theorem isBottom_dataHasValue {l : Literal} : (dataHasValue q l).isBottom s ↔ q ∉ s := by
  simp

@[simp] theorem isTop_dataHasValue {l : Literal} : ¬ (dataHasValue q l).isTop s := by
  simp

@[simp] theorem isBottom_dataCardinality {filler : Option DataRange} :
    (dataCardinality b n q filler).isBottom s ↔ b ≠ .max ∧ 0 < n ∧ q ∉ s := by
  cases b <;> simp

@[simp] theorem isTop_dataCardinality {filler : Option DataRange} :
    (dataCardinality b n q filler).isTop s ↔ b = .min ∧ n = 0 ∨ b = .max ∧ q ∉ s := by
  cases b <;> simp

end Rules

end ClassExpression

namespace Axiom

/-- An axiom that a module for the signature can leave out. -/
def isLocal (s : Signature) : Axiom → Bool
  | .declaration _ iri => !s.contains iri
  | .annotationAssertion _ subject _ => !s.contains subject
  | .subAnnotationProperty p _ => !s.contains p
  | .subClass c d => c.isBottom s || d.isTop s
  | .equivalentClasses cs => cs.all (·.isBottom s) || cs.all (·.isTop s)
  | .disjointClasses cs => cs.countP (fun c => !c.isBottom s) ≤ 1
  | .subObjectProperty p _ => !s.contains p.iri
  | .equivalentObjectProperties ps | .equivalentDataProperties ps => ps.all fun p => !s.contains p
  | .disjointObjectProperties ps | .disjointDataProperties ps => ps.countP s.contains ≤ 1
  | .objectPropertyDomain p c | .objectPropertyRange p c | .dataPropertyDomain p c =>
    !s.contains p || c.isTop s
  | .inverseObjectProperties p q => !s.contains p && !s.contains q
  | .characteristic .reflexive _ => false
  | .characteristic _ p => !s.contains p
  | .subDataProperty p _ => !s.contains p
  | .dataPropertyRange p _ => !s.contains p
  | .functionalDataProperty p => !s.contains p
  | .classAssertion c _ => c.isTop s
  | .objectPropertyAssertion .. | .dataPropertyAssertion .. => false
  | .negativeObjectPropertyAssertion p _ _ => !s.contains p
  | .negativeDataPropertyAssertion p _ _ => !s.contains p

section Rules
variable {s : Signature} {x y : Iri} {xs : List Iri} {c d : ClassExpression}
variable {cs : List ClassExpression} {p q : ObjectProperty} {i j : Individual} {l : Literal}

attribute [local simp] isLocal

@[simp] theorem isLocal_declaration {kind : EntityKind} :
    (declaration kind x).isLocal s ↔ x ∉ s := by
  simp

@[simp] theorem isLocal_annotationAssertion : (annotationAssertion x y l).isLocal s ↔ y ∉ s := by
  simp

@[simp] theorem isLocal_subAnnotationProperty : (subAnnotationProperty x y).isLocal s ↔ x ∉ s := by
  simp

@[simp] theorem isLocal_subClass : (subClass c d).isLocal s ↔ c.isBottom s ∨ d.isTop s := by
  simp

@[simp] theorem isLocal_equivalentClasses : (equivalentClasses cs).isLocal s ↔
    (∀ c ∈ cs, c.isBottom s) ∨ ∀ c ∈ cs, c.isTop s := by
  simp

@[simp] theorem isLocal_disjointClasses : (disjointClasses cs).isLocal s ↔
    cs.countP (fun c => !c.isBottom s) ≤ 1 := by
  simp

@[simp] theorem isLocal_subObjectProperty : (subObjectProperty p q).isLocal s ↔ p.iri ∉ s := by
  simp

@[simp] theorem isLocal_equivalentObjectProperties :
    (equivalentObjectProperties xs).isLocal s ↔ ∀ x ∈ xs, x ∉ s := by
  simp

@[simp] theorem isLocal_disjointObjectProperties :
    (disjointObjectProperties xs).isLocal s ↔ xs.countP s.contains ≤ 1 := by
  simp

@[simp] theorem isLocal_objectPropertyDomain :
    (objectPropertyDomain x c).isLocal s ↔ x ∉ s ∨ c.isTop s := by
  simp

@[simp] theorem isLocal_objectPropertyRange :
    (objectPropertyRange x c).isLocal s ↔ x ∉ s ∨ c.isTop s := by
  simp

@[simp] theorem isLocal_inverseObjectProperties :
    (inverseObjectProperties x y).isLocal s ↔ x ∉ s ∧ y ∉ s := by
  simp

@[simp] theorem isLocal_characteristic {k : Characteristic} :
    (characteristic k x).isLocal s ↔ k ≠ .reflexive ∧ x ∉ s := by
  cases k <;> simp

@[simp] theorem isLocal_subDataProperty : (subDataProperty x y).isLocal s ↔ x ∉ s := by
  simp

@[simp] theorem isLocal_equivalentDataProperties :
    (equivalentDataProperties xs).isLocal s ↔ ∀ x ∈ xs, x ∉ s := by
  simp

@[simp] theorem isLocal_disjointDataProperties :
    (disjointDataProperties xs).isLocal s ↔ xs.countP s.contains ≤ 1 := by
  simp

@[simp] theorem isLocal_dataPropertyDomain :
    (dataPropertyDomain x c).isLocal s ↔ x ∉ s ∨ c.isTop s := by
  simp

@[simp] theorem isLocal_dataPropertyRange {r : DataRange} :
    (dataPropertyRange x r).isLocal s ↔ x ∉ s := by
  simp

@[simp] theorem isLocal_functionalDataProperty : (functionalDataProperty x).isLocal s ↔ x ∉ s := by
  simp

@[simp] theorem isLocal_classAssertion : (classAssertion c i).isLocal s ↔ c.isTop s := by
  simp

@[simp] theorem isLocal_objectPropertyAssertion : ¬ (objectPropertyAssertion x i j).isLocal s := by
  simp

@[simp] theorem isLocal_negativeObjectPropertyAssertion :
    (negativeObjectPropertyAssertion x i j).isLocal s ↔ x ∉ s := by
  simp

@[simp] theorem isLocal_dataPropertyAssertion : ¬ (dataPropertyAssertion x i l).isLocal s := by
  simp

@[simp] theorem isLocal_negativeDataPropertyAssertion :
    (negativeDataPropertyAssertion x i l).isLocal s ↔ x ∉ s := by
  simp

end Rules

end Axiom

end TabularOntology
