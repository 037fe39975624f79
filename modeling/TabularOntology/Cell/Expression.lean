import TabularOntology.Cell.Term
import TabularOntology.Text.Cut

/-! Class expressions and facts as cells write them. The printed form of a tree
puts parentheses around a chain of `and` or `or` that stands inside another node,
and nowhere else. References come in reading order: the property of a restriction
stands before its filler. -/

namespace TabularOntology.Cell

/-- A literal as written. -/
inductive LiteralValue
  | string (text : String) (language : Option String)
  | typed (text : String) (datatype : TermReference)
  | integer (digits : String)
  | decimal (digits : String)
  | boolean (b : Bool)
  deriving DecidableEq, Repr

/-- An individual or a literal. -/
inductive Value
  | individual (reference : TermReference)
  | literal (l : LiteralValue)
  deriving DecidableEq, Repr

inductive Quantifier
  | some | only | value | exactly | min | max
  deriving DecidableEq, Repr

/-- The property of a restriction. -/
structure PropertyReference where
  term : TermReference
  inverse : Bool
  deriving DecidableEq, Repr

mutual

/-- A class expression, or a data range in the filler of a data property. -/
inductive Expression
  | term (reference : TermReference)
  | intersection (operands : List Expression)
  | union (operands : List Expression)
  | complement (operand : Expression)
  /-- Parsed restrictions have a cardinality exactly if their quantifier counts. -/
  | restriction (property : PropertyReference) (quantifier : Quantifier)
      (cardinality : Option Nat) (filler : Filler)

/-- What a restriction asks of the values of its property. -/
inductive Filler
  | none
  | expression (e : Expression)
  | value (v : Value)

end

/-- A property assertion, maybe a negative one. -/
structure Fact where
  negated : Bool
  property : TermReference
  value : Value
  deriving DecidableEq, Repr

/-! ### Printed form -/

def LiteralValue.text : LiteralValue → String
  | .string s none => Quoted.write '"' s
  | .string s (some tag) => Quoted.write '"' s ++ "@" ++ tag
  | .typed s datatype => Quoted.write '"' s ++ "^^" ++ datatype.text
  | .integer digits => digits
  | .decimal digits => digits
  | .boolean true => "true"
  | .boolean false => "false"

def Value.text : Value → String
  | .individual t => t.text
  | .literal l => l.text

def Quantifier.text : Quantifier → String
  | .some => "some"
  | .only => "only"
  | .value => "value"
  | .exactly => "exactly"
  | .min => "min"
  | .max => "max"

def PropertyReference.text (p : PropertyReference) : String :=
  if p.inverse then "inverse " ++ p.term.text else p.term.text

/-- A chain of `and` or `or`, which needs parentheses inside other nodes. -/
def Expression.isChain : Expression → Bool
  | .intersection _ | .union _ => true
  | _ => false

/-- The text of an operand, in parentheses if it is a chain. -/
def Expression.group (e : Expression) (text : String) : String :=
  if e.isChain then "(" ++ text ++ ")" else text

mutual

def Expression.text : Expression → String
  | .term t => t.text
  | .intersection es => Text.join " and " (operandTexts es)
  | .union es => Text.join " or " (operandTexts es)
  | .complement e => "not " ++ e.group e.text
  | .restriction p q none f => p.text ++ " " ++ q.text ++ f.text
  | .restriction p q (some n) f => p.text ++ " " ++ q.text ++ " " ++ toString n ++ f.text

/-- A filler with the blank before it. -/
def Filler.text : Filler → String
  | .none => ""
  | .expression e => " " ++ e.group e.text
  | .value v => " " ++ v.text

def operandTexts : List Expression → List String
  | [] => []
  | e :: es => e.group e.text :: operandTexts es

end

def Fact.text (f : Fact) : String :=
  (if f.negated then "not " else "") ++ f.property.text ++ " " ++ f.value.text

/-! ### Depth and references -/

mutual

/-- The depth of the tree; a single term has depth one. -/
def Expression.depth : Expression → Nat
  | .term _ => 1
  | .intersection es | .union es => 1 + maxDepth es
  | .complement e => 1 + e.depth
  | .restriction _ _ _ (.expression e) => 1 + e.depth
  | .restriction _ _ _ _ => 1

def maxDepth : List Expression → Nat
  | [] => 0
  | e :: es => max e.depth (maxDepth es)

end

/-- The references in a value. -/
def Value.references : Value → List TermReference
  | .individual t => [t]
  | .literal (.typed _ datatype) => [datatype]
  | .literal _ => []

mutual

/-- The references in the expression, in reading order. -/
def Expression.references : Expression → List TermReference
  | .term t => [t]
  | .intersection es | .union es => referencesOf es
  | .complement e => e.references
  | .restriction p _ _ (.expression e) => p.term :: e.references
  | .restriction p _ _ (.value v) => p.term :: v.references
  | .restriction p _ _ .none => [p.term]

def referencesOf : List Expression → List TermReference
  | [] => []
  | e :: es => e.references ++ referencesOf es

end

theorem referencesOf_eq_flatMap (es : List Expression) :
    referencesOf es = es.flatMap Expression.references := by
  induction es with
  | nil => rfl
  | cons e es ih => rw [referencesOf, ih, List.flatMap_cons]

/-! ### Equality -/

mutual

def Expression.decEq : (a b : Expression) → Decidable (a = b)
  | .term s, .term t => decidable_of_iff (s = t) (by simp)
  | .intersection l, .intersection m =>
    have := decEqList l m
    decidable_of_iff (l = m) (by simp)
  | .union l, .union m =>
    have := decEqList l m
    decidable_of_iff (l = m) (by simp)
  | .complement e, .complement f =>
    have := Expression.decEq e f
    decidable_of_iff (e = f) (by simp)
  | .restriction p q n f, .restriction p' q' n' f' =>
    have := Filler.decEq f f'
    decidable_of_iff (p = p' ∧ q = q' ∧ n = n' ∧ f = f') (by simp)
  | .term _, .intersection _ | .term _, .union _ | .term _, .complement _
  | .term _, .restriction .. | .intersection _, .term _ | .intersection _, .union _
  | .intersection _, .complement _ | .intersection _, .restriction .. | .union _, .term _
  | .union _, .intersection _ | .union _, .complement _ | .union _, .restriction ..
  | .complement _, .term _ | .complement _, .intersection _ | .complement _, .union _
  | .complement _, .restriction .. | .restriction .., .term _ | .restriction .., .intersection _
  | .restriction .., .union _ | .restriction .., .complement _ => isFalse nofun

def Filler.decEq : (a b : Filler) → Decidable (a = b)
  | .none, .none => isTrue rfl
  | .expression e, .expression f =>
    have := Expression.decEq e f
    decidable_of_iff (e = f) (by simp)
  | .value v, .value w => decidable_of_iff (v = w) (by simp)
  | .none, .expression _ | .none, .value _ | .expression _, .none
  | .expression _, .value _ | .value _, .none | .value _, .expression _ => isFalse nofun

def decEqList : (a b : List Expression) → Decidable (a = b)
  | [], [] => isTrue rfl
  | e :: l, f :: m =>
    have := Expression.decEq e f
    have := decEqList l m
    decidable_of_iff (e = f ∧ l = m) (by simp)
  | [], _ :: _ | _ :: _, [] => isFalse nofun

end

instance : DecidableEq Expression := Expression.decEq

instance : Inhabited Expression := ⟨.union []⟩

end TabularOntology.Cell
