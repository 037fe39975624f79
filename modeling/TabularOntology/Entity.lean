import TabularOntology.Iri.Basic
import TabularOntology.Name

/-! Entities: an IRI together with the kind it is declared as. Entities are ordered
by their IRIs, and those of one IRI by kind. -/

namespace TabularOntology

inductive EntityKind
  | cls
  | objectProperty
  | dataProperty
  | annotationProperty
  | individual
  deriving DecidableEq, Repr

namespace EntityKind

/-- All kinds, in their order. -/
def all : List EntityKind :=
  [.cls, .objectProperty, .dataProperty, .annotationProperty, .individual]

/-- The name that tables and messages use. -/
def name : EntityKind → String
  | .cls => "class"
  | .objectProperty => "object property"
  | .dataProperty => "data property"
  | .annotationProperty => "annotation property"
  | .individual => "individual"

/-- The word of functional syntax. -/
def keyword : EntityKind → String
  | .cls => "Class"
  | .objectProperty => "ObjectProperty"
  | .dataProperty => "DataProperty"
  | .annotationProperty => "AnnotationProperty"
  | .individual => "NamedIndividual"

def isProperty : EntityKind → Bool
  | .objectProperty | .dataProperty | .annotationProperty => true
  | .cls | .individual => false

/-- The kind that a name in a table stands for. -/
def ofName (name : String) : Except UnknownName EntityKind :=
  match foldName name with
  | "class" | "owlclass" => .ok .cls
  | "objectproperty" | "owlobjectproperty" => .ok .objectProperty
  | "dataproperty" | "datatypeproperty" | "owldatatypeproperty" => .ok .dataProperty
  | "annotationproperty" | "owlannotationproperty" => .ok .annotationProperty
  | "individual" | "namedindividual" | "owlnamedindividual" => .ok .individual
  | _ => .error ⟨.entityKind, name⟩

/-- The place of a kind in the order. -/
def rank : EntityKind → Nat
  | .cls => 0
  | .objectProperty => 1
  | .dataProperty => 2
  | .annotationProperty => 3
  | .individual => 4

theorem rank_inj {a b : EntityKind} (h : a.rank = b.rank) : a = b := by
  cases a <;> cases b <;> simp_all [rank]

theorem mem_all (k : EntityKind) : k ∈ all := by cases k <;> decide

end EntityKind

/-- An IRI declared as a kind. -/
structure Entity where
  iri : Iri
  kind : EntityKind
  deriving DecidableEq, Repr

namespace Entity

/-- First by IRI, then by kind. -/
def order : Entity → Entity → Ordering :=
  compareLex (compareOn Entity.iri) (compareOn fun e => e.kind.rank)

instance : Ord Entity := ⟨order⟩

instance : Std.TransOrd Entity :=
  inferInstanceAs (Std.TransCmp
    (compareLex (compareOn Entity.iri) (compareOn fun e : Entity => e.kind.rank)))

instance : Std.LawfulEqOrd Entity where
  eq_of_compare {a b} h := by
    have h : (compare a.iri b.iri).then (compare a.kind.rank b.kind.rank) = .eq := h
    rw [Ordering.then_eq_eq] at h
    have hi := Std.LawfulEqOrd.eq_of_compare h.1
    have hk := EntityKind.rank_inj (Std.LawfulEqOrd.eq_of_compare h.2)
    cases a
    cases b
    simp_all

/-- The entity in functional syntax. -/
def text (e : Entity) : String := e.kind.keyword ++ "(" ++ e.iri.bracketed ++ ")"

end Entity

/-- An individual with a name, or one that is known by a blank node. -/
inductive Individual
  | named (iri : Iri)
  | anonymous (node : String)
  deriving DecidableEq, Repr

def Individual.text : Individual → String
  | .named iri => iri.bracketed
  | .anonymous node => "_:" ++ node

/-- The IRI of a named individual. -/
def Individual.iris : Individual → List Iri
  | .named iri => [iri]
  | .anonymous _ => []

end TabularOntology
