import TabularOntology.Axiom
import TabularOntology.Cell.Parser
import TabularOntology.Cell.Values
import TabularOntology.Record.Conversion

/-! What the cells of a record state. Which columns say something, and what a value in
them says, depends on the kind of the entity. Each value of such a column gives one axiom
or one error, whatever the other values are. -/

namespace TabularOntology

namespace CellScope

/-- The class expression in a cell. -/
def readClass (s : CellScope) (value : String) : Except RecordError ClassExpression := do
  let e ← (Cell.parseExpression s.maxDepth value).mapError .badSyntax
  s.classExpression e

/-- The data range in a cell. -/
def readRange (s : CellScope) (value : String) : Except RecordError DataRange := do
  let e ← (Cell.parseExpression s.maxDepth value).mapError .badSyntax
  s.dataRange e

/-- The term in a cell. -/
def readTerm (s : CellScope) (value : String) : Except RecordError Iri := do
  let t ← (Cell.parseTerm value).mapError .badSyntax
  s.term t

/-- The fact in a cell, and the property it is about. -/
def readFact (s : CellScope) (value : String) : Except RecordError (Cell.Fact × Iri) := do
  let fact ← (Cell.parseFact value).mapError .badSyntax
  let p ← s.term fact.property
  .ok (fact, p)

/-- The relation to an individual that a cell states of an individual. -/
def readRelation (s : CellScope) (source : Individual) (value : String) :
    Except RecordError Axiom := do
  let (fact, p) ← s.readFact value
  match fact.value with
  | .literal _ => .error (.malformed (.relationToLiteral fact))
  | .individual i =>
    let target ← s.individual i
    .ok (if fact.negated then .negativeObjectPropertyAssertion p source target
      else .objectPropertyAssertion p source target)

/-- The data value that a cell states of an individual. -/
def readDataFact (s : CellScope) (source : Individual) (value : String) :
    Except RecordError Axiom := do
  let (fact, p) ← s.readFact value
  match fact.value with
  | .individual _ => .error (.malformed (.dataFactToIndividual fact))
  | .literal l =>
    let target ← s.literal l
    .ok (if fact.negated then .negativeDataPropertyAssertion p source target
      else .dataPropertyAssertion p source target)

def readCharacteristic (value : String) : Except RecordError Characteristic :=
  (Characteristic.ofName value).mapError .unknownName

/-- The only characteristic that a data property can have. -/
def readDataCharacteristic (p : Iri) (value : String) : Except RecordError Axiom := do
  match ← readCharacteristic value with
  | .functional => .ok (.functionalDataProperty p)
  | _ => .error (.malformed (.dataCharacteristic value))

/-- What a value states; nothing for a column that does not apply. -/
abbrev Statement := Option (String → Except RecordError Axiom)

def classStatement (s : CellScope) (iri : Iri) : Column → Statement
  | .parent => some fun v => (s.readClass v).map fun c => .subClass (.named iri) c
  | .children => some fun v => (s.readClass v).map fun c => .subClass c (.named iri)
  | .equivalent => some fun v => (s.readClass v).map fun c => .ofEquivalentClasses [.named iri, c]
  | .disjoint => some fun v => (s.readClass v).map fun c => .ofDisjointClasses [.named iri, c]
  | .domain | .range | .inverse | .characteristics | .instanceOf | .relations | .dataFacts => none

def objectPropertyStatement (s : CellScope) (p : Iri) : Column → Statement
  | .parent => some fun v => (s.readTerm v).map fun q => .subObjectProperty (.named p) (.named q)
  | .children => some fun v => (s.readTerm v).map fun q => .subObjectProperty (.named q) (.named p)
  | .equivalent => some fun v => (s.readTerm v).map fun q => .ofEquivalentObjectProperties [p, q]
  | .disjoint => some fun v => (s.readTerm v).map fun q => .ofDisjointObjectProperties [p, q]
  | .domain => some fun v => (s.readClass v).map (.objectPropertyDomain p)
  | .range => some fun v => (s.readClass v).map (.objectPropertyRange p)
  | .inverse => some fun v => (s.readTerm v).map (.ofInverseObjectProperties p)
  | .characteristics => some fun v => (readCharacteristic v).map fun c => .characteristic c p
  | .instanceOf | .relations | .dataFacts => none

def dataPropertyStatement (s : CellScope) (p : Iri) : Column → Statement
  | .parent => some fun v => (s.readTerm v).map (.subDataProperty p)
  | .children => some fun v => (s.readTerm v).map fun q => .subDataProperty q p
  | .equivalent => some fun v => (s.readTerm v).map fun q => .ofEquivalentDataProperties [p, q]
  | .disjoint => some fun v => (s.readTerm v).map fun q => .ofDisjointDataProperties [p, q]
  | .domain => some fun v => (s.readClass v).map (.dataPropertyDomain p)
  | .range => some fun v => (s.readRange v).map (.dataPropertyRange p)
  | .characteristics => some (readDataCharacteristic p)
  | .inverse | .instanceOf | .relations | .dataFacts => none

def annotationPropertyStatement (s : CellScope) (p : Iri) : Column → Statement
  | .parent => some fun v => (s.readTerm v).map (.subAnnotationProperty p)
  | .children => some fun v => (s.readTerm v).map fun q => .subAnnotationProperty q p
  | .equivalent | .disjoint | .domain | .range | .inverse | .characteristics | .instanceOf
  | .relations | .dataFacts => none

def individualStatement (s : CellScope) (iri : Iri) : Column → Statement
  | .parent | .instanceOf =>
    some fun v => (s.readClass v).map fun c => .classAssertion c (.named iri)
  | .relations => some (s.readRelation (.named iri))
  | .dataFacts => some (s.readDataFact (.named iri))
  | .children | .equivalent | .disjoint | .domain | .range | .inverse | .characteristics => none

/-- What a value of a column states of an entity. -/
def statement (s : CellScope) (kind : EntityKind) (iri : Iri) : Column → Statement :=
  match kind with
  | .cls => s.classStatement iri
  | .objectProperty => s.objectPropertyStatement iri
  | .dataProperty => s.dataPropertyStatement iri
  | .annotationProperty => s.annotationPropertyStatement iri
  | .individual => s.individualStatement iri

/-- What the values of a cell amount to, one by one. -/
def cellOutcomes (state : String → Except RecordError Axiom) (cell : String) :
    List (Except RecordError Axiom) :=
  match Cell.splitValues cell with
  | .error e => [.error (.badSyntax e)]
  | .ok values => values.map state

/-- What a column of a record amounts to; nothing if it is empty or does not apply. -/
def columnOutcomes (s : CellScope) (iri : Iri) (r : TermRecord) (column : Column) :
    List (Except RecordError Axiom) :=
  match s.statement r.kind iri column, r.cells column with
  | some state, some cell => cellOutcomes state cell
  | _, _ => []

/-- The columns that are filled in although they do not apply. -/
def unusedColumns (s : CellScope) (iri : Iri) (r : TermRecord) : List Column :=
  Column.all.filter fun column =>
    (s.statement r.kind iri column).isNone && (r.cells column).isSome

/-- What the cells of a record amount to, the columns that do not apply last. -/
def outcomes (s : CellScope) (iri : Iri) (r : TermRecord) : List (Except RecordError Axiom) :=
  Column.all.flatMap (s.columnOutcomes iri r) ++
    match s.unusedColumns iri r with
    | [] => []
    | columns => [.error (.malformed (.unusedColumns columns r.kind))]

end CellScope

end TabularOntology
