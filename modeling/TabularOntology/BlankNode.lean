import TabularOntology.Text.Ranges

/-! The identifiers that blank nodes may have: letters, digits, underscores and colons,
further marks after the first character, and no full stop at the end. -/

namespace TabularOntology.BlankNode

/-- The characters that an identifier can start with. -/
def startRanges : Text.Ranges :=
  [(0x30, 0x3A), (0x41, 0x5A), (0x5F, 0x5F), (0x61, 0x7A), (0xC0, 0xD6), (0xD8, 0xF6),
    (0xF8, 0x2FF), (0x370, 0x37D), (0x37F, 0x1FFF), (0x200C, 0x200D), (0x2070, 0x218F),
    (0x2C00, 0x2FEF), (0x3001, 0xD7FF), (0xF900, 0xFDCF), (0xFDF0, 0xFFFD), (0x10000, 0xEFFFF)]

/-- The further characters that can stand after the first one. -/
def markRanges : Text.Ranges :=
  [(0x2D, 0x2E), (0xB7, 0xB7), (0x300, 0x36F), (0x203F, 0x2040)]

def isStart (c : Char) : Bool := startRanges.contains c

def isMark (c : Char) : Bool := markRanges.contains c

/-- A text that can be the identifier of a blank node. -/
def isId (text : String) : Bool :=
  match text.toList with
  | [] => false
  | c :: cs =>
    isStart c && cs.all (fun d => isStart d || isMark d) && cs.getLast? != some '.'

end TabularOntology.BlankNode
