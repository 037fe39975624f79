import TabularOntology.Cell.Token

/-! Syntax errors of cells. An error is a fault at a position; positions count
characters from the start of the cell, and an error at the end of the cell has
the number of its characters. -/

namespace TabularOntology.Cell

/-- What the grammar asked for. -/
inductive Expected
  | term
  | property
  | propertyAfterInverse
  | datatype
  | cardinality
  | value
  deriving DecidableEq, Repr

def Expected.text : Expected → String
  | .term => "a term"
  | .property => "a property"
  | .propertyAfterInverse => "a property after 'inverse'"
  | .datatype => "a datatype after '^^'"
  | .cardinality => "a cardinality"
  | .value => "an individual or a literal"

/-- What is wrong with a cell. -/
inductive Fault
  | unexpectedCharacter (c : Char)
  | blankInIri
  | unclosedIri
  | danglingEscape
  | unclosedQuote (quote : Char)
  | emptyLanguageTag
  | unnamedIndividual
  /-- A quote in a cell of many values has no partner. -/
  | unclosedSection (quote : Char)
  | empty
  | tooDeep (limit : Nat)
  | expected (what : Expected) (found : Option Lexeme)
  | expectedExpression (found : Lexeme)
  | endOfExpression
  | strayRightParen
  | missingRightParen
  | expectedRightParen (found : Lexeme)
  | expectedRestriction
  | notACardinality (number : String)
  | trailing (found : Lexeme)
  deriving DecidableEq, Repr

def Fault.message : Fault → String
  | .unexpectedCharacter c => s!"unexpected character '{c}'"
  | .blankInIri => "whitespace inside of an IRI"
  | .unclosedIri => "unterminated IRI, missing '>'"
  | .danglingEscape => "unterminated escape sequence"
  | .unclosedQuote quote => s!"unterminated quoted text, missing {quote}"
  | .emptyLanguageTag => "empty language tag"
  | .unnamedIndividual => "anonymous individuals need a name after '_:'"
  | .unclosedSection quote => s!"unterminated quote, missing {quote}"
  | .empty => "empty expression"
  | .tooDeep limit => s!"the expression exceeds the maximum nesting depth of {limit}"
  | .expected what none => "expected " ++ what.text
  | .expected what (some found) => "expected " ++ what.text ++ ", found " ++ found.describe
  | .expectedExpression found => "expected a class expression, found " ++ found.describe
  | .endOfExpression => "unexpected end of the expression"
  | .strayRightParen => "unbalanced parenthesis: unexpected ')'"
  | .missingRightParen => "unbalanced parenthesis: missing ')'"
  | .expectedRightParen found => "expected ')', found " ++ found.describe
  | .expectedRestriction => "expected a restriction after 'inverse <property>'"
  | .notACardinality number =>
    s!"cardinality must be a non-negative integer, found '{number}'"
  | .trailing found => "unexpected " ++ found.describe ++ " after the end of the expression"

/-- A fault and where it was met. -/
structure SyntaxError where
  position : Nat
  fault : Fault
  deriving DecidableEq, Repr

/-- What is wrong, without the position. -/
def SyntaxError.detail (e : SyntaxError) : String := e.fault.message

/-- The whole message; columns count from one. -/
def SyntaxError.message (e : SyntaxError) : String :=
  s!"Parser error at column {e.position + 1}: " ++ e.detail

end TabularOntology.Cell
