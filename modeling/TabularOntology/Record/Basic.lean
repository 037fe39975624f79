import TabularOntology.Entity
import TabularOntology.Report

/-! Term records, the rows of the term tables. Each row describes one entity. Cells that
hold expressions are kept as text, since they can be read only when the records of all
tables are known. -/

namespace TabularOntology

/-- The columns whose cells hold lists of expressions, terms, facts or characteristics. -/
inductive Column
  | parent
  /-- What the entity is a parent of. -/
  | children
  | equivalent
  | disjoint
  | domain
  | range
  | inverse
  | characteristics
  | instanceOf
  | relations
  | dataFacts
  deriving DecidableEq, Repr

namespace Column

/-- All columns, in the order in which they are read. -/
def all : List Column :=
  [.parent, .children, .equivalent, .disjoint, .domain, .range, .inverse, .characteristics,
    .instanceOf, .relations, .dataFacts]

def name : Column → String
  | .parent => "parent"
  | .children => "children"
  | .equivalent => "equivalent"
  | .disjoint => "disjoint"
  | .domain => "domain"
  | .range => "range"
  | .inverse => "inverse"
  | .characteristics => "characteristics"
  | .instanceOf => "instance of"
  | .relations => "relations"
  | .dataFacts => "data facts"

theorem mem_all (c : Column) : c ∈ all := by cases c <;> decide

end Column

/-- The value of an annotation, with its language if one is given. -/
structure AnnotationText where
  value : String
  language : Option String := none
  deriving DecidableEq, Repr

/-- One row of a table. -/
structure TermRecord where
  id : String
  kind : EntityKind
  label : Option String := none
  definition : Option String := none
  comments : List String := []
  /-- The text of each column that is filled in. -/
  cells : Column → Option String := fun _ => none
  /-- The values of each annotation, by its identifier or the name of its column. -/
  annotations : Std.TreeMap String (List AnnotationText) := ∅
  provenance : Provenance

namespace TermRecord

/-- Fills in a column, in place of an earlier text. -/
def setCell (r : TermRecord) (column : Column) (text : String) : TermRecord :=
  { r with cells := fun c => if c = column then some text else r.cells c }

/-- Adds a value to those of an annotation. -/
def annotate (r : TermRecord) (key : String) (text : AnnotationText) : TermRecord :=
  { r with annotations := r.annotations.insert key (r.annotations.getD key [] ++ [text]) }

@[simp] theorem cells_setCell (r : TermRecord) (column c : Column) (text : String) :
    (r.setCell column text).cells c = if c = column then some text else r.cells c := rfl

theorem annotations_annotate (r : TermRecord) (key k : String) (text : AnnotationText) :
    (r.annotate key text).annotations.getD k [] =
      r.annotations.getD k [] ++ if k = key then [text] else [] := by
  by_cases h : k = key
  · subst h
    simp [annotate]
  · simp [annotate, Std.TreeMap.getD_insert, h, Ne.symm h]

end TermRecord

/-- The rows of one table, in order. -/
structure Table where
  name : String
  records : List TermRecord

end TabularOntology
