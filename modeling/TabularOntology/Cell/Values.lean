import TabularOntology.Cell.SyntaxError
import TabularOntology.Text.Blank

/-! Cells of many values. A semicolon ends a value, except inside quotes or after a
backslash. Outside quotes the backslash before a semicolon is dropped; every other
escape, and the quotes themselves, stay as they are, so that each value can be read
as an expression afterwards. Values are trimmed and empty ones are dropped. -/

namespace TabularOntology.Cell

/-- The raw pieces of a cell from position `pos` on; `section?` is the open quote and
its position. The first piece belongs to the value that the cell is in the middle of. -/
def cutCell (pos : Nat) (section? : Option (Char × Nat)) :
    List Char → Except SyntaxError (List (List Char))
  | [] =>
    match section? with
    | none => .ok [[]]
    | some (quote, start) => .error ⟨start, .unclosedSection quote⟩
  | ['\\'] =>
    match section? with
    | none => .ok [['\\']]
    | some (quote, start) => .error ⟨start, .unclosedSection quote⟩
  | '\\' :: c :: cs =>
    (cutCell (pos + 2) section? cs).map fun pieces =>
      if c = ';' ∧ section? = none then pieces.modifyHead (';' :: ·)
      else pieces.modifyHead fun piece => '\\' :: c :: piece
  | c :: cs =>
    match section? with
    | none =>
      if c = ';' then (cutCell (pos + 1) none cs).map ([] :: ·)
      else
        let opened := if c = '"' ∨ c = '\'' then some (c, pos) else none
        (cutCell (pos + 1) opened cs).map (·.modifyHead (c :: ·))
    | some (quote, start) =>
      let still := if c = quote then none else some (quote, start)
      (cutCell (pos + 1) still cs).map (·.modifyHead (c :: ·))

/-- The values of a cell. -/
def splitValues (cell : String) : Except SyntaxError (List String) :=
  (cutCell 0 none cell.toList).map fun pieces =>
    ((pieces.map Text.trimChars).filter (!·.isEmpty)).map String.ofList

end TabularOntology.Cell
