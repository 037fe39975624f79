import TabularOntology.Iri.Vocabulary

/-! Literals and their written form: the text in double quotes with escapes, then
nothing, a language tag or a datatype. A text typed as a string is the same literal
as the plain text. -/

namespace TabularOntology

inductive Literal
  | plain (value : String)
  | tagged (value language : String)
  | typed (value : String) (datatype : Iri)
  deriving DecidableEq, Repr

namespace Literal

/-- The literal of a text and a datatype. -/
def ofTyped (value : String) (datatype : Iri) : Literal :=
  if datatype = Vocabulary.string then .plain value else .typed value datatype

def ofBool (b : Bool) : Literal :=
  .typed (if b then "true" else "false") Vocabulary.boolean

/-- The text without language and datatype. -/
def value : Literal → String
  | .plain s | .tagged s _ | .typed s _ => s

/-- A digit from 0 to F. -/
def hexDigit (n : Nat) : Char :=
  if n < 10 then Char.ofNat ('0'.toNat + n) else Char.ofNat ('A'.toNat + (n - 10))

/-- The four hexadecimal digits of a number below 65536. -/
def hex4 (n : Nat) : List Char :=
  [hexDigit (n / 4096 % 16), hexDigit (n / 256 % 16), hexDigit (n / 16 % 16), hexDigit (n % 16)]

/-- The written form of one character of a text. -/
def escape (c : Char) : List Char :=
  if c = '"' then ['\\', '"']
  else if c = '\\' then ['\\', '\\']
  else
    let n := c.toNat
    if n = 8 then ['\\', 'b']
    else if n = 9 then ['\\', 't']
    else if n = 10 then ['\\', 'n']
    else if n = 12 then ['\\', 'f']
    else if n = 13 then ['\\', 'r']
    else if n < 32 ∨ n = 127 ∨ n = 0xFFFE ∨ n = 0xFFFF then '\\' :: 'u' :: hex4 n
    else [c]

/-- The text in double quotes, with escapes. -/
def quote (s : String) : String := String.ofList ('"' :: s.toList.flatMap escape ++ ['"'])

def text : Literal → String
  | .plain s => quote s
  | .tagged s language => quote s ++ "@" ++ language
  | .typed s datatype => quote s ++ "^^" ++ datatype.bracketed

end Literal

end TabularOntology
