import TabularOntology.Entity
import TabularOntology.FunctionalSyntax
import TabularOntology.Literal

/-! Class expressions, data ranges and expressions for object properties, with their
functional syntax and the IRIs they mention. The datatype of a literal is not
mentioned: a literal brings no entity into an ontology. -/

namespace TabularOntology

/-- An object property or the inverse of one. -/
inductive ObjectProperty
  | named (iri : Iri)
  | inverse (iri : Iri)
  deriving DecidableEq, Repr

namespace ObjectProperty

/-- The property itself, whichever way it is taken. -/
def iri : ObjectProperty → Iri
  | .named p | .inverse p => p

def form : ObjectProperty → Form
  | .named p => .atom p.bracketed
  | .inverse p => .node "ObjectInverseOf" [.atom p.bracketed]

end ObjectProperty

inductive DataRange
  | datatype (iri : Iri)
  | intersection (operands : List DataRange)
  | union (operands : List DataRange)
  | complement (operand : DataRange)
  deriving Inhabited

namespace DataRange

mutual

def form : DataRange → Form
  | .datatype d => .atom d.bracketed
  | .intersection ds => .node "DataIntersectionOf" (forms ds)
  | .union ds => .node "DataUnionOf" (forms ds)
  | .complement d => .node "DataComplementOf" [d.form]

def forms : List DataRange → List Form
  | [] => []
  | d :: ds => d.form :: forms ds

end

mutual

/-- The datatypes mentioned. -/
def iris : DataRange → List Iri
  | .datatype d => [d]
  | .intersection ds | .union ds => irisOf ds
  | .complement d => d.iris

def irisOf : List DataRange → List Iri
  | [] => []
  | d :: ds => d.iris ++ irisOf ds

end

/-- Induction over data ranges, with the operands of a list taken together. -/
@[elab_as_elim, induction_eliminator]
theorem induct {motive : DataRange → Prop}
    (datatype : ∀ d, motive (.datatype d))
    (intersection : ∀ ds, (∀ d ∈ ds, motive d) → motive (.intersection ds))
    (union : ∀ ds, (∀ d ∈ ds, motive d) → motive (.union ds))
    (complement : ∀ d, motive d → motive (.complement d)) (d : DataRange) : motive d :=
  DataRange.rec (motive_2 := fun ds => ∀ d ∈ ds, motive d) datatype intersection union complement
    (by simp) (fun _ _ hd hds => List.forall_mem_cons.2 ⟨hd, hds⟩) d

@[simp] theorem forms_eq_map (ds : List DataRange) : forms ds = ds.map form := by
  induction ds with
  | nil => rfl
  | cons d ds ih => simp [forms, ih]

@[simp] theorem irisOf_eq_flatMap (ds : List DataRange) : irisOf ds = ds.flatMap iris := by
  induction ds with
  | nil => rfl
  | cons d ds ih => simp [irisOf, ih]

end DataRange

/-- The ways to bound a number of values. -/
inductive Bound
  | min | max | exactly
  deriving DecidableEq, Repr

def Bound.word : Bound → String
  | .min => "Min"
  | .max => "Max"
  | .exactly => "Exact"

/-- A class expression; a cardinality without a filler counts all values. -/
inductive ClassExpression
  | named (iri : Iri)
  | intersection (operands : List ClassExpression)
  | union (operands : List ClassExpression)
  | complement (operand : ClassExpression)
  | some (property : ObjectProperty) (filler : ClassExpression)
  | only (property : ObjectProperty) (filler : ClassExpression)
  | hasValue (property : ObjectProperty) (individual : Individual)
  | cardinality (bound : Bound) (n : Nat) (property : ObjectProperty)
      (filler : Option ClassExpression)
  | dataSome (property : Iri) (filler : DataRange)
  | dataOnly (property : Iri) (filler : DataRange)
  | dataHasValue (property : Iri) (value : Literal)
  | dataCardinality (bound : Bound) (n : Nat) (property : Iri) (filler : Option DataRange)
  deriving Inhabited

namespace ClassExpression

mutual

def form : ClassExpression → Form
  | .named c => .atom c.bracketed
  | .intersection cs => .node "ObjectIntersectionOf" (forms cs)
  | .union cs => .node "ObjectUnionOf" (forms cs)
  | .complement c => .node "ObjectComplementOf" [c.form]
  | .some p c => .node "ObjectSomeValuesFrom" [p.form, c.form]
  | .only p c => .node "ObjectAllValuesFrom" [p.form, c.form]
  | .hasValue p i => .node "ObjectHasValue" [p.form, .atom i.text]
  | .cardinality b n p none =>
    .node ("Object" ++ b.word ++ "Cardinality") [.atom (toString n), p.form]
  | .cardinality b n p (Option.some c) =>
    .node ("Object" ++ b.word ++ "Cardinality") [.atom (toString n), p.form, c.form]
  | .dataSome p d => .node "DataSomeValuesFrom" [.atom p.bracketed, d.form]
  | .dataOnly p d => .node "DataAllValuesFrom" [.atom p.bracketed, d.form]
  | .dataHasValue p l => .node "DataHasValue" [.atom p.bracketed, .atom l.text]
  | .dataCardinality b n p none =>
    .node ("Data" ++ b.word ++ "Cardinality") [.atom (toString n), .atom p.bracketed]
  | .dataCardinality b n p (Option.some d) =>
    .node ("Data" ++ b.word ++ "Cardinality") [.atom (toString n), .atom p.bracketed, d.form]

def forms : List ClassExpression → List Form
  | [] => []
  | c :: cs => c.form :: forms cs

end

/-- The expression in functional syntax. -/
def text (c : ClassExpression) : String := c.form.text

mutual

/-- The IRIs mentioned: classes, properties, individuals and the datatypes of ranges. -/
def iris : ClassExpression → List Iri
  | .named c => [c]
  | .intersection cs | .union cs => irisOf cs
  | .complement c => c.iris
  | .some p c | .only p c => p.iri :: c.iris
  | .hasValue p i => p.iri :: i.iris
  | .cardinality _ _ p none => [p.iri]
  | .cardinality _ _ p (Option.some c) => p.iri :: c.iris
  | .dataSome p d | .dataOnly p d => p :: d.iris
  | .dataHasValue p _ => [p]
  | .dataCardinality _ _ p none => [p]
  | .dataCardinality _ _ p (Option.some d) => p :: d.iris

def irisOf : List ClassExpression → List Iri
  | [] => []
  | c :: cs => c.iris ++ irisOf cs

end

/-- Induction over class expressions, with the operands of a list taken together. -/
@[elab_as_elim, induction_eliminator]
theorem induct {motive : ClassExpression → Prop}
    (named : ∀ c, motive (.named c))
    (intersection : ∀ cs, (∀ c ∈ cs, motive c) → motive (.intersection cs))
    (union : ∀ cs, (∀ c ∈ cs, motive c) → motive (.union cs))
    (complement : ∀ c, motive c → motive (.complement c))
    (some : ∀ p c, motive c → motive (.some p c))
    (only : ∀ p c, motive c → motive (.only p c))
    (hasValue : ∀ p i, motive (.hasValue p i))
    (cardinality : ∀ b n p filler, (∀ c ∈ filler, motive c) → motive (.cardinality b n p filler))
    (dataSome : ∀ p d, motive (.dataSome p d))
    (dataOnly : ∀ p d, motive (.dataOnly p d))
    (dataHasValue : ∀ p l, motive (.dataHasValue p l))
    (dataCardinality : ∀ b n p filler, motive (.dataCardinality b n p filler))
    (c : ClassExpression) : motive c :=
  ClassExpression.rec (motive_2 := fun cs => ∀ c ∈ cs, motive c)
    (motive_3 := fun filler => ∀ c ∈ filler, motive c)
    named intersection union complement some only hasValue cardinality dataSome dataOnly
    dataHasValue dataCardinality (by simp) (fun _ _ hc hcs => List.forall_mem_cons.2 ⟨hc, hcs⟩)
    (by simp) (by simp) c

@[simp] theorem forms_eq_map (cs : List ClassExpression) : forms cs = cs.map form := by
  induction cs with
  | nil => rfl
  | cons c cs ih => simp [forms, ih]

@[simp] theorem irisOf_eq_flatMap (cs : List ClassExpression) : irisOf cs = cs.flatMap iris := by
  induction cs with
  | nil => rfl
  | cons c cs ih => simp [irisOf, ih]

@[simp] theorem form_cardinality (b : Bound) (n : Nat) (p : ObjectProperty)
    (filler : Option ClassExpression) : (cardinality b n p filler).form =
      .node ("Object" ++ b.word ++ "Cardinality")
        (.atom (toString n) :: p.form :: filler.toList.map form) := by
  cases filler <;> rfl

@[simp] theorem form_dataCardinality (b : Bound) (n : Nat) (p : Iri) (filler : Option DataRange) :
    (dataCardinality b n p filler).form =
      .node ("Data" ++ b.word ++ "Cardinality")
        (.atom (toString n) :: .atom p.bracketed :: filler.toList.map DataRange.form) := by
  cases filler <;> rfl

@[simp] theorem iris_cardinality (b : Bound) (n : Nat) (p : ObjectProperty)
    (filler : Option ClassExpression) :
    (cardinality b n p filler).iris = p.iri :: filler.toList.flatMap iris := by
  cases filler <;> simp [iris]

@[simp] theorem iris_dataCardinality (b : Bound) (n : Nat) (p : Iri) (filler : Option DataRange) :
    (dataCardinality b n p filler).iris = p :: filler.toList.flatMap DataRange.iris := by
  cases filler <;> simp [iris]

end ClassExpression

end TabularOntology
