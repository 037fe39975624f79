import TabularOntology.Cell.Expression
import TabularOntology.Cell.Lexer

/-! The grammar of cells, from the loosest to the tightest binding:

    expression  := conjunction ("or" conjunction)*
    conjunction := operand ("and" operand)*
    operand     := "not" operand | "(" expression ")" | term | "inverse"? term restriction
    restriction := ("some" | "only" | "all") operand | "value" (literal | term)
                 | ("exactly" | "min" | "max") integer operand?

Every `not`, every pair of parentheses and every filler goes one level deeper, and
the number of levels is limited. A parser takes the tokens that are left and gives
what it read with a strictly shorter rest, which is why chains of operands end. -/

namespace TabularOntology.Cell

open Text

/-- The tokens left over after reading something. -/
abbrev Rest (ts : List Token) := { rest : List Token // rest.length < ts.length }

/-- Reads at least one token. -/
abbrev Parser (α : Type) := (ts : List Token) → Except SyntaxError (α × Rest ts)

namespace Parser

/-- The position of the next token; a cell of `stop` characters ends at `stop`. -/
def next (stop : Nat) : List Token → Nat
  | [] => stop
  | t :: _ => t.position

/-- A rest of less is a rest of more. -/
def Rest.widen {ss ts : List Token} (h : ss.length ≤ ts.length) (r : Rest ss) : Rest ts :=
  ⟨r.val, Nat.lt_of_lt_of_le r.property h⟩

/-- Applies a function to what was read, as part of a longer list of tokens. -/
def lift {α β : Type} {ss ts : List Token} (h : ss.length ≤ ts.length) (f : α → β) :
    Except SyntaxError (α × Rest ss) → Except SyntaxError (β × Rest ts)
  | .error e => .error e
  | .ok (a, rest) => .ok (f a, Rest.widen h rest)

/-- A single reference. -/
def term (stop : Nat) (what : Expected) : Parser TermReference
  | [] => .error ⟨stop, .expected what none⟩
  | ⟨.term t, _⟩ :: ts => .ok (t, ⟨ts, by simp⟩)
  | t :: _ => .error ⟨t.position, .expected what (some t.lexeme)⟩

/-- The value that a reference stands for where literals are allowed: the names
`true` and `false`, in any case, are booleans. -/
def valueOfTerm : TermReference → Value
  | .name s =>
    if lowerAscii s = "true" then .literal (.boolean true)
    else if lowerAscii s = "false" then .literal (.boolean false)
    else .individual (.name s)
  | t => .individual t

/-- An individual or a literal. -/
def value (stop : Nat) : Parser Value
  | [] => .error ⟨stop, .expected .value none⟩
  | ⟨.string s, _⟩ :: ⟨.languageTag tag, _⟩ :: ts =>
    .ok (.literal (.string s (some tag)), ⟨ts, by simp only [List.length_cons]; omega⟩)
  | ⟨.string s, _⟩ :: ⟨.datatypeMark, _⟩ :: ts =>
    lift (by simp; omega) (fun d => .literal (.typed s d)) (term stop .datatype ts)
  | ⟨.string s, _⟩ :: ts => .ok (.literal (.string s none), ⟨ts, by simp⟩)
  | ⟨.integer s, _⟩ :: ts => .ok (.literal (.integer s), ⟨ts, by simp⟩)
  | ⟨.decimal s, _⟩ :: ts => .ok (.literal (.decimal s), ⟨ts, by simp⟩)
  | ⟨.term t, _⟩ :: ts => .ok (valueOfTerm t, ⟨ts, by simp⟩)
  | t :: _ => .error ⟨t.position, .expected .value (some t.lexeme)⟩

/-- The number that decimal digits write. -/
def digitsValue (digits : List Char) : Nat :=
  digits.foldl (fun n c => 10 * n + (c.toNat - '0'.toNat)) 0

/-- The largest cardinality. -/
def maxCardinality : Nat := 4294967295

/-- The cardinality that an integer writes: no minus sign, and not too large. -/
def cardinality? (digits : String) : Option Nat :=
  match digits.toList with
  | '-' :: _ => none
  | cs =>
    let n := digitsValue (unsigned cs)
    if n ≤ maxCardinality then some n else none

def cardinality (stop : Nat) : Parser Nat
  | [] => .error ⟨stop, .expected .cardinality none⟩
  | ⟨.integer s, pos⟩ :: ts =>
    match cardinality? s with
    | some n => .ok (n, ⟨ts, by simp⟩)
    | none => .error ⟨pos, .notACardinality s⟩
  | ⟨.decimal s, pos⟩ :: _ => .error ⟨pos, .notACardinality s⟩
  | t :: _ => .error ⟨t.position, .expected .cardinality (some t.lexeme)⟩

/-- One or more items with a keyword between neighbours. -/
def chain {α : Type} (separator : Keyword) (item : Parser α) (ts : List Token) :
    Except SyntaxError (List α × Rest ts) :=
  match item ts with
  | .error e => .error e
  | .ok (x, ⟨⟨.keyword k, pos⟩ :: more, h⟩) =>
    if k = separator then
      lift (by simp at h; omega) (x :: ·) (chain separator item more)
    else .ok ([x], ⟨⟨.keyword k, pos⟩ :: more, h⟩)
  | .ok (x, rest) => .ok ([x], rest)
termination_by ts.length
decreasing_by simp at h; omega

/-- A chain of one item is the item itself. -/
def flatten (node : List Expression → Expression) : List Expression → Expression
  | [e] => e
  | es => node es

/-- Operands joined with `and`. -/
def conjunction (operand : Parser Expression) : Parser Expression := fun ts =>
  lift (Nat.le_refl _) (flatten .intersection) (chain .and operand ts)

/-- Conjunctions joined with `or`. -/
def expression (operand : Parser Expression) : Parser Expression := fun ts =>
  lift (Nat.le_refl _) (flatten .union) (chain .or (conjunction operand) ts)

/-- The keywords that make a restriction of a property. -/
def quantifier? : Keyword → Option Quantifier
  | .some => Option.some .some
  | .only => Option.some .only
  | .value => Option.some .value
  | .exactly => Option.some .exactly
  | .min => Option.some .min
  | .max => Option.some .max
  | _ => none

/-- The quantifier that stands first in the tokens. -/
def nextQuantifier? : List Token → Option Quantifier
  | ⟨.keyword k, _⟩ :: _ => quantifier? k
  | _ => none

/-- The lexemes that an operand can start with. -/
def startsOperand : List Token → Bool
  | ⟨.leftParen, _⟩ :: _ | ⟨.term _, _⟩ :: _ => true
  | ⟨.keyword .not, _⟩ :: _ | ⟨.keyword .inverse, _⟩ :: _ => true
  | _ => false

/-- What follows a quantifier; `inner` reads the operands of the level below. -/
def restriction (stop : Nat) (inner : Parser Expression) (p : PropertyReference)
    (q : Quantifier) : Parser Expression := fun ts =>
  match q with
  | .some | .only =>
    lift (Nat.le_refl _) (fun e => .restriction p q none (.expression e)) (inner ts)
  | .value =>
    lift (Nat.le_refl _) (fun v => .restriction p q none (.value v)) (value stop ts)
  | .exactly | .min | .max =>
    match cardinality stop ts with
    | .error e => .error e
    | .ok (n, rest) =>
      if startsOperand rest.val then
        lift (Nat.le_of_lt rest.property) (fun e => .restriction p q (some n) (.expression e))
          (inner rest.val)
      else .ok (.restriction p q (some n) .none, rest)

/-- An operand of one level; `inner` reads the operands of the level below. -/
def operandOver (stop : Nat) (inner : Parser Expression) : Parser Expression
  | [] => .error ⟨stop, .endOfExpression⟩
  | ⟨.keyword .not, _⟩ :: ts => lift (by simp) .complement (inner ts)
  | ⟨.leftParen, pos⟩ :: ts =>
    match expression inner ts with
    | .error e => .error e
    | .ok (_, ⟨[], _⟩) => .error ⟨pos, .missingRightParen⟩
    | .ok (e, ⟨⟨.rightParen, _⟩ :: rest, h⟩) => .ok (e, ⟨rest, by simp at h ⊢; omega⟩)
    | .ok (_, ⟨t :: _, _⟩) => .error ⟨t.position, .expectedRightParen t.lexeme⟩
  | ⟨.keyword .inverse, _⟩ :: ts =>
    match term stop .propertyAfterInverse ts with
    | .error e => .error e
    | .ok (t, rest) =>
      match nextQuantifier? rest.val with
      | none => .error ⟨next stop rest.val, .expectedRestriction⟩
      | some q =>
        lift (by have := rest.property; simp; omega) id
          (restriction stop inner ⟨t, true⟩ q rest.val.tail)
  | ⟨.term t, _⟩ :: ts =>
    match nextQuantifier? ts with
    | none => .ok (.term t, ⟨ts, by simp⟩)
    | some q => lift (by simp; omega) id (restriction stop inner ⟨t, false⟩ q ts.tail)
  | ⟨.rightParen, pos⟩ :: _ => .error ⟨pos, .strayRightParen⟩
  | t :: _ => .error ⟨t.position, .expectedExpression t.lexeme⟩

/-- An operand that may go down the given number of levels, its own included. -/
def operand (stop limit : Nat) : (levels : Nat) → Parser Expression
  | 0, ts => .error ⟨next stop ts, .tooDeep limit⟩
  | levels + 1, ts => operandOver stop (operand stop limit levels) ts

/-- Reads all tokens of a cell; the parser is told where the cell ends. -/
def all {α : Type} (p : Nat → Parser α) (cell : String) : Except SyntaxError α := do
  let ts ← tokenize cell
  if ts.isEmpty then .error ⟨0, .empty⟩
  let (a, rest) ← p cell.length ts
  match rest.val with
  | [] => .ok a
  | ⟨.rightParen, pos⟩ :: _ => .error ⟨pos, .strayRightParen⟩
  | t :: _ => .error ⟨t.position, .trailing t.lexeme⟩

/-- A property and a value. -/
def assertion (stop : Nat) (negated : Bool) : Parser Fact := fun ts =>
  match term stop .property ts with
  | .error e => .error e
  | .ok (property, rest) =>
    lift (Nat.le_of_lt rest.property) (fun v => ⟨negated, property, v⟩) (value stop rest.val)

def fact (stop : Nat) : Parser Fact
  | ⟨.keyword .not, _⟩ :: ts => lift (by simp) id (assertion stop true ts)
  | ts => assertion stop false ts

end Parser

/-- The number of levels where no other limit is set. -/
def defaultDepth : Nat := 64

/-- The class expression in a cell, at most `limit` levels deep. -/
def parseExpression (limit : Nat) (cell : String) : Except SyntaxError Expression :=
  Parser.all (fun stop => Parser.expression (Parser.operand stop limit (limit + 1))) cell

/-- The single reference in a cell. -/
def parseTerm (cell : String) : Except SyntaxError TermReference :=
  Parser.all (fun stop => Parser.term stop .term) cell

/-- The property assertion in a cell. -/
def parseFact (cell : String) : Except SyntaxError Fact :=
  Parser.all Parser.fact cell

end TabularOntology.Cell
