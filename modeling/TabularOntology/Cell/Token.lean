import TabularOntology.Cell.Term

/-! Tokens of cell expressions: parentheses, keywords, references to terms, quoted
strings with what may be glued to them, and numbers. A token carries the position
of its first character, counted in characters from the start of the cell. -/

namespace TabularOntology.Cell

inductive Keyword
  | and | or | not | some | only | value | exactly | min | max | inverse
  deriving DecidableEq, Repr

/-- The keyword as it is printed. -/
def Keyword.text : Keyword → String
  | .and => "and"
  | .or => "or"
  | .not => "not"
  | .some => "some"
  | .only => "only"
  | .value => "value"
  | .exactly => "exactly"
  | .min => "min"
  | .max => "max"
  | .inverse => "inverse"

/-- The keyword of a word in small letters; `all` is a second spelling of `only`. -/
def Keyword.ofLower? : String → Option Keyword
  | "and" => Option.some .and
  | "or" => Option.some .or
  | "not" => Option.some .not
  | "some" => Option.some .some
  | "only" | "all" => Option.some .only
  | "value" => Option.some .value
  | "exactly" => Option.some .exactly
  | "min" => Option.some .min
  | "max" => Option.some .max
  | "inverse" => Option.some .inverse
  | _ => none

theorem Keyword.ofLower?_text (k : Keyword) : ofLower? k.text = Option.some k := by
  cases k <;> rfl

/-- What a token is. -/
inductive Lexeme
  | leftParen
  | rightParen
  | keyword (k : Keyword)
  | term (t : TermReference)
  | string (text : String)
  | languageTag (tag : String)
  | datatypeMark
  | integer (digits : String)
  | decimal (digits : String)
  deriving DecidableEq, Repr

/-- How a message names what was found. -/
def Lexeme.describe : Lexeme → String
  | .leftParen => "'('"
  | .rightParen => "')'"
  | .keyword k => "keyword '" ++ k.text ++ "'"
  | .term t => "term " ++ t.text
  | .string _ => "string literal"
  | .languageTag tag => "language tag '@" ++ tag ++ "'"
  | .datatypeMark => "'^^'"
  | .integer digits => "number " ++ digits
  | .decimal digits => "number " ++ digits

/-- A lexeme and the position of its first character. -/
structure Token where
  lexeme : Lexeme
  position : Nat
  deriving DecidableEq, Repr

end TabularOntology.Cell
