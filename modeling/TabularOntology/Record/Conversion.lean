import TabularOntology.BlankNode
import TabularOntology.ClassExpression
import TabularOntology.ReferenceScope

/-! What the expressions in cells stand for. References become IRIs, and a restriction
becomes one of an object property or of a data property by the kind that its property is
declared as; a property that is declared nowhere is taken for a data property if its
value is a literal. Anonymous individuals become blank nodes of their record. -/

namespace TabularOntology

/-- What the cells of one record are read against. -/
structure CellScope where
  references : ReferenceScope
  /-- The kind that a term is declared as, in the tables or else in a source. -/
  kindOf? : Iri → Option EntityKind
  /-- The number of levels that an expression may have. -/
  maxDepth : Nat
  /-- The number that keeps the anonymous individuals of the record apart from those of
  other records. -/
  recordNumber : Nat

/-- A text with the language it is in, if one is given. -/
def Literal.ofText (value : String) : Option String → Except RecordError Literal
  | none => .ok (.plain value)
  | some tag =>
    match LanguageTag.ofString tag with
    | .ok language => .ok (.tagged value language)
    | .error fault => .error (.malformed (.languageTag tag fault))

namespace CellScope

def term (s : CellScope) (reference : Cell.TermReference) : Except RecordError Iri :=
  s.references.resolve reference

def literal (s : CellScope) : Cell.LiteralValue → Except RecordError Literal
  | .string text language => Literal.ofText text language
  | .typed text datatype => (s.term datatype).map (.ofTyped text)
  | .integer digits => .ok (.typed digits Vocabulary.integer)
  | .decimal digits => .ok (.typed digits Vocabulary.decimal)
  | .boolean b => .ok (.ofBool b)

/-- The identifier of the blank node for an anonymous individual of the record. -/
def nodeId (s : CellScope) (name : String) : String := s!"t{s.recordNumber}x{name}"

def individual (s : CellScope) (reference : Cell.TermReference) : Except RecordError Individual :=
  match reference with
  | .anonymous name =>
    if BlankNode.isId (s.nodeId name) then .ok (.anonymous (s.nodeId name))
    else .error (.malformed (.blankNode reference))
  | reference => (s.term reference).map .named

/-- Whether a restriction of a property, with the given filler, is one of a data property. -/
def isData (s : CellScope) (property : Iri) (filler : Cell.Filler) : Bool :=
  match s.kindOf? property, filler with
  | some kind, _ => kind == .dataProperty
  | none, .value (.literal _) => true
  | none, _ => false

mutual

/-- The data range that an expression stands for; restrictions stand for none. -/
def dataRange (s : CellScope) : Cell.Expression → Except RecordError DataRange
  | .term t => (s.term t).map .datatype
  | .intersection es => (s.dataRanges es).map .intersection
  | .union es => (s.dataRanges es).map .union
  | .complement e => (s.dataRange e).map .complement
  | .restriction p q n f => .error (.malformed (.notDataRange (.restriction p q n f)))

def dataRanges (s : CellScope) : List Cell.Expression → Except RecordError (List DataRange)
  | [] => .ok []
  | e :: es => do
    let d ← s.dataRange e
    let ds ← s.dataRanges es
    .ok (d :: ds)

end

/-- The bound of a quantifier that counts. -/
def bound? : Cell.Quantifier → Option Bound
  | .exactly => some .exactly
  | .min => some .min
  | .max => some .max
  | .some | .only | .value => none

/-- A restriction of an object property whose filler is a class expression or missing;
`restriction` is what is complained about. -/
def ofObjectFiller (restriction : Cell.Expression) (property : ObjectProperty)
    (quantifier : Cell.Quantifier) (n : Nat) (filler : Option ClassExpression) :
    Except RecordError ClassExpression :=
  match bound? quantifier, quantifier, filler with
  | some b, _, filler => .ok (.cardinality b n property filler)
  | none, .some, some c => .ok (.some property c)
  | none, .only, some c => .ok (.only property c)
  | none, _, _ => .error (.malformed (.missingFiller restriction))

/-- A restriction of a data property whose filler is a data range or missing. -/
def ofDataFiller (restriction : Cell.Expression) (property : Iri)
    (quantifier : Cell.Quantifier) (n : Nat) (filler : Option DataRange) :
    Except RecordError ClassExpression :=
  match bound? quantifier, quantifier, filler with
  | some b, _, filler => .ok (.dataCardinality b n property filler)
  | none, .some, some d => .ok (.dataSome property d)
  | none, .only, some d => .ok (.dataOnly property d)
  | none, _, _ => .error (.malformed (.missingFiller restriction))

/-- A restriction of an object property to a single value. -/
def ofObjectValue (s : CellScope) (restriction : Cell.Expression) (p : Cell.PropertyReference)
    (property : ObjectProperty) (quantifier : Cell.Quantifier) (v : Cell.Value) :
    Except RecordError ClassExpression :=
  match v, quantifier with
  | .individual i, .value => (s.individual i).map (.hasValue property)
  | .individual _, _ => .error (.malformed (.misplacedValue restriction))
  | .literal _, _ => .error (.malformed (.literalOfObject p))

/-- A restriction of a data property to a single value. -/
def ofDataValue (s : CellScope) (restriction : Cell.Expression) (p : Cell.PropertyReference)
    (property : Iri) (quantifier : Cell.Quantifier) (v : Cell.Value) :
    Except RecordError ClassExpression :=
  match v, quantifier with
  | .literal l, .value => (s.literal l).map (.dataHasValue property)
  | .literal _, _ => .error (.malformed (.misplacedValue restriction))
  | .individual _, _ => .error (.malformed (.individualOfData p))

/-- A restriction of a data property. -/
def dataRestriction (s : CellScope) (p : Cell.PropertyReference) (property : Iri)
    (q : Cell.Quantifier) (n : Option Nat) : Cell.Filler → Except RecordError ClassExpression
  | .none => ofDataFiller (.restriction p q n .none) property q (n.getD 0) none
  | .expression e => do
    let d ← s.dataRange e
    ofDataFiller (.restriction p q n (.expression e)) property q (n.getD 0) (some d)
  | .value v => s.ofDataValue (.restriction p q n (.value v)) p property q v

mutual

/-- The class expression that an expression stands for. -/
def classExpression (s : CellScope) : Cell.Expression → Except RecordError ClassExpression
  | .term t => (s.term t).map .named
  | .intersection es => (s.classExpressions es).map .intersection
  | .union es => (s.classExpressions es).map .union
  | .complement e => (s.classExpression e).map .complement
  | .restriction p q n f => do
    let iri ← s.term p.term
    if s.isData iri f then
      if p.inverse then .error (.malformed (.inverseOfData p.term))
      else s.dataRestriction p iri q n f
    else s.objectRestriction p (if p.inverse then .inverse iri else .named iri) q n f

def classExpressions (s : CellScope) :
    List Cell.Expression → Except RecordError (List ClassExpression)
  | [] => .ok []
  | e :: es => do
    let c ← s.classExpression e
    let cs ← s.classExpressions es
    .ok (c :: cs)

/-- A restriction of an object property. -/
def objectRestriction (s : CellScope) (p : Cell.PropertyReference) (property : ObjectProperty)
    (q : Cell.Quantifier) (n : Option Nat) : Cell.Filler → Except RecordError ClassExpression
  | .none => ofObjectFiller (.restriction p q n .none) property q (n.getD 0) none
  | .expression e => do
    let c ← s.classExpression e
    ofObjectFiller (.restriction p q n (.expression e)) property q (n.getD 0) (some c)
  | .value v => s.ofObjectValue (.restriction p q n (.value v)) p property q v

end

end CellScope

end TabularOntology
