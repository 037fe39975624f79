import Mathlib.Data.Set.Card
import Mathlib.Order.CompletePartialOrder
import TabularOntology.Axiom

/-! The direct semantics. An interpretation gives classes and datatypes as sets,
properties as sets of pairs, and a value to every individual and literal; blank nodes
are read as constants. The class of all individuals and the empty class are fixed, and
nothing else is: properties, datatypes and literals mean whatever the interpretation
says. The domains are not empty, since individuals and literals have values in them.
Class expressions, data ranges and axioms then mean what the modelling language says
they mean. -/

namespace TabularOntology

universe u v

/-- A meaning for all symbols, in a domain of individuals and one of data values. -/
structure Interpretation (Δ : Type u) (V : Type v) where
  classes : Iri → Set Δ
  objectProperties : Iri → Set (Δ × Δ)
  dataProperties : Iri → Set (Δ × V)
  datatypes : Iri → Set V
  individuals : Individual → Δ
  literals : Literal → V
  classes_thing : classes Vocabulary.thing = Set.univ
  classes_nothing : classes Vocabulary.nothing = ∅

variable {α β : Type*}

/-- A set with a number of members that keeps to a bound. -/
def Bound.Holds (n : ℕ) (s : Set α) : Bound → Prop
  | .min => n ≤ s.encard
  | .max => s.encard ≤ n
  | .exactly => s.encard = n

def Characteristic.Holds (r : Set (α × α)) : Characteristic → Prop
  | .functional => ∀ x y z, (x, y) ∈ r → (x, z) ∈ r → y = z
  | .inverseFunctional => ∀ x y z, (x, z) ∈ r → (y, z) ∈ r → x = y
  | .reflexive => ∀ x, (x, x) ∈ r
  | .irreflexive => ∀ x, (x, x) ∉ r
  | .symmetric => ∀ x y, (x, y) ∈ r → (y, x) ∈ r
  | .asymmetric => ∀ x y, (x, y) ∈ r → (y, x) ∉ r
  | .transitive => ∀ x y z, (x, y) ∈ r → (y, z) ∈ r → (x, z) ∈ r

/-- Operands that all have the same extension. -/
def AllSame (ext : α → Set β) (xs : List α) : Prop := ∀ x ∈ xs, ∀ y ∈ xs, ext x = ext y

/-- Operands of which no two have a common member. -/
def AllApart (ext : α → Set β) (xs : List α) : Prop :=
  xs.Pairwise fun x y => Disjoint (ext x) (ext y)

section Operands
variable {f g : α → Set β} {xs : List α}

theorem allSame_congr (h : ∀ x ∈ xs, f x = g x) : AllSame f xs ↔ AllSame g xs :=
  forall₂_congr fun x hx => forall₂_congr fun y hy => by rw [h x hx, h y hy]

theorem allApart_congr (h : ∀ x ∈ xs, f x = g x) : AllApart f xs ↔ AllApart g xs :=
  List.Pairwise.iff_of_mem fun hx hy => by rw [h _ hx, h _ hy]

end Operands

namespace Interpretation

variable {Δ : Type u} {V : Type v}

/-! ### Expressions -/

/-- The pairs of a property, or of the inverse of one. -/
def role (I : Interpretation Δ V) : ObjectProperty → Set (Δ × Δ)
  | .named p => I.objectProperties p
  | .inverse p => {e | e.swap ∈ I.objectProperties p}

mutual

/-- The values of a data range. -/
def range (I : Interpretation Δ V) : DataRange → Set V
  | .datatype d => I.datatypes d
  | .intersection ds => {v | ∀ s ∈ I.ranges ds, v ∈ s}
  | .union ds => {v | ∃ s ∈ I.ranges ds, v ∈ s}
  | .complement d => (I.range d)ᶜ

def ranges (I : Interpretation Δ V) : List DataRange → List (Set V)
  | [] => []
  | d :: ds => I.range d :: I.ranges ds

end

mutual

/-- The members of a class expression. -/
def extension (I : Interpretation Δ V) : ClassExpression → Set Δ
  | .named c => I.classes c
  | .intersection cs => {x | ∀ s ∈ I.extensions cs, x ∈ s}
  | .union cs => {x | ∃ s ∈ I.extensions cs, x ∈ s}
  | .complement c => (I.extension c)ᶜ
  | .some p c => {x | ∃ y, (x, y) ∈ I.role p ∧ y ∈ I.extension c}
  | .only p c => {x | ∀ y, (x, y) ∈ I.role p → y ∈ I.extension c}
  | .hasValue p i => {x | (x, I.individuals i) ∈ I.role p}
  | .cardinality b n p none => {x | b.Holds n {y | (x, y) ∈ I.role p}}
  | .cardinality b n p (Option.some c) =>
    {x | b.Holds n {y | (x, y) ∈ I.role p ∧ y ∈ I.extension c}}
  | .dataSome p d => {x | ∃ v, (x, v) ∈ I.dataProperties p ∧ v ∈ I.range d}
  | .dataOnly p d => {x | ∀ v, (x, v) ∈ I.dataProperties p → v ∈ I.range d}
  | .dataHasValue p l => {x | (x, I.literals l) ∈ I.dataProperties p}
  | .dataCardinality b n p none => {x | b.Holds n {v | (x, v) ∈ I.dataProperties p}}
  | .dataCardinality b n p (Option.some d) =>
    {x | b.Holds n {v | (x, v) ∈ I.dataProperties p ∧ v ∈ I.range d}}

def extensions (I : Interpretation Δ V) : List ClassExpression → List (Set Δ)
  | [] => []
  | c :: cs => I.extension c :: I.extensions cs

end

section Members
variable {I : Interpretation Δ V} {x : Δ} {v : V}
variable {c : ClassExpression} {cs : List ClassExpression} {ds : List DataRange}
variable {b : Bound} {n : ℕ} {p : ObjectProperty} {q : Iri}

attribute [local simp] range ranges extension extensions

theorem ranges_eq_map (I : Interpretation Δ V) (ds : List DataRange) :
    I.ranges ds = ds.map I.range := by
  induction ds with
  | nil => rfl
  | cons d ds ih => rw [ranges, ih, List.map_cons]

theorem extensions_eq_map (I : Interpretation Δ V) (cs : List ClassExpression) :
    I.extensions cs = cs.map I.extension := by
  induction cs with
  | nil => rfl
  | cons c cs ih => rw [extensions, ih, List.map_cons]

attribute [local simp] ranges_eq_map extensions_eq_map

theorem mem_range_intersection : v ∈ I.range (.intersection ds) ↔ ∀ d ∈ ds, v ∈ I.range d := by
  simp

theorem mem_range_union : v ∈ I.range (.union ds) ↔ ∃ d ∈ ds, v ∈ I.range d := by simp

theorem mem_extension_intersection :
    x ∈ I.extension (.intersection cs) ↔ ∀ c ∈ cs, x ∈ I.extension c := by
  simp

theorem mem_extension_union : x ∈ I.extension (.union cs) ↔ ∃ c ∈ cs, x ∈ I.extension c := by simp

theorem mem_extension_cardinality {filler : Option ClassExpression} :
    x ∈ I.extension (.cardinality b n p filler) ↔
      b.Holds n {y | (x, y) ∈ I.role p ∧ ∀ c ∈ filler, y ∈ I.extension c} := by
  cases filler <;> simp

theorem mem_extension_dataCardinality {filler : Option DataRange} :
    x ∈ I.extension (.dataCardinality b n q filler) ↔
      b.Holds n {v | (x, v) ∈ I.dataProperties q ∧ ∀ d ∈ filler, v ∈ I.range d} := by
  cases filler <;> simp

end Members

/-! ### Axioms -/

/-- The truth of an axiom. Declarations and annotations are always true. -/
def Satisfies (I : Interpretation Δ V) : Axiom → Prop
  | .declaration .. | .annotationAssertion .. | .subAnnotationProperty .. => True
  | .subClass c d => I.extension c ⊆ I.extension d
  | .equivalentClasses cs => AllSame I.extension cs
  | .disjointClasses cs => AllApart I.extension cs
  | .subObjectProperty p q => I.role p ⊆ I.role q
  | .equivalentObjectProperties ps => AllSame I.objectProperties ps
  | .disjointObjectProperties ps => AllApart I.objectProperties ps
  | .objectPropertyDomain p c => ∀ x y, (x, y) ∈ I.objectProperties p → x ∈ I.extension c
  | .objectPropertyRange p c => ∀ x y, (x, y) ∈ I.objectProperties p → y ∈ I.extension c
  | .inverseObjectProperties p q =>
    ∀ x y, (x, y) ∈ I.objectProperties p ↔ (y, x) ∈ I.objectProperties q
  | .characteristic c p => c.Holds (I.objectProperties p)
  | .subDataProperty p q => I.dataProperties p ⊆ I.dataProperties q
  | .equivalentDataProperties ps => AllSame I.dataProperties ps
  | .disjointDataProperties ps => AllApart I.dataProperties ps
  | .dataPropertyDomain p c => ∀ x v, (x, v) ∈ I.dataProperties p → x ∈ I.extension c
  | .dataPropertyRange p d => ∀ x v, (x, v) ∈ I.dataProperties p → v ∈ I.range d
  | .functionalDataProperty p =>
    ∀ x v w, (x, v) ∈ I.dataProperties p → (x, w) ∈ I.dataProperties p → v = w
  | .classAssertion c i => I.individuals i ∈ I.extension c
  | .objectPropertyAssertion p i j => (I.individuals i, I.individuals j) ∈ I.objectProperties p
  | .negativeObjectPropertyAssertion p i j =>
    (I.individuals i, I.individuals j) ∉ I.objectProperties p
  | .dataPropertyAssertion p i l => (I.individuals i, I.literals l) ∈ I.dataProperties p
  | .negativeDataPropertyAssertion p i l => (I.individuals i, I.literals l) ∉ I.dataProperties p

/-- A model of a list of axioms. -/
def Models (I : Interpretation Δ V) (as : List Axiom) : Prop := ∀ a ∈ as, I.Satisfies a

end Interpretation

/-- An axiom that is true in every model of the given ones. -/
def Entails (as : List Axiom) (a : Axiom) : Prop :=
  ∀ (Δ : Type u) (V : Type v) (I : Interpretation Δ V), I.Models as → I.Satisfies a

end TabularOntology
