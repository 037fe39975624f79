import TabularOntology.Text.Cut

/-! Functional syntax. A form is an atom, such as an IRI in brackets or a literal, or
a word applied to forms, written with parentheses and with blanks between the
arguments. Class expressions and axioms are printed through forms, so that the text
of an axiom can be read back in one way only. -/

namespace TabularOntology

inductive Form
  | atom (text : String)
  | node (word : String) (arguments : List Form)

namespace Form

mutual

def text : Form → String
  | .atom s => s
  | .node word args => word ++ "(" ++ Text.join " " (texts args) ++ ")"

def texts : List Form → List String
  | [] => []
  | f :: fs => f.text :: texts fs

end

end Form

end TabularOntology
