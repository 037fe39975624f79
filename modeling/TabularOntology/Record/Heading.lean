import TabularOntology.Cell.Parser
import TabularOntology.Cell.Values
import TabularOntology.Record.Error
import TabularOntology.Text.LowerCase

/-! Records from the headings and cells of a row. Headings are compared without regard to
case, blanks, underscores and hyphens at the ends, and with one blank between words. A
heading that has no meaning of its own names an annotation; an at sign in front of it is
dropped. Empty cells say nothing. -/

namespace TabularOntology

/-- What the cells below a heading are. -/
inductive Heading
  | id
  | kind
  | label
  | definition
  | comments
  | annotations
  | cell (column : Column)
  /-- The values of one annotation. -/
  | property (key : String)
  deriving DecidableEq, Repr

namespace Heading

/-- A character between the words of a heading. -/
def isGap (c : Char) : Bool := Text.isBlank c || c == '_' || c == '-'

/-- The form in which headings are compared. -/
def fold (text : String) : String :=
  Text.join " " ((Text.words isGap text.toList).map fun w => Text.lower (String.ofList w))

/-- The annotation that an unknown heading names. -/
def key (text : String) : String :=
  let text := Text.trim text
  Text.trim ((Text.stripStart? "@" text).getD text)

def ofText (text : String) : Heading :=
  match fold text with
  | "id" | "iri" => .id
  | "label" => .label
  | "type" | "kind" | "entity type" => .kind
  | "parent" | "subclass of" | "subproperty of" => .cell .parent
  | "superclass of" | "superproperty of" | "children" => .cell .children
  | "equivalent to" | "equivalent" => .cell .equivalent
  | "disjoint with" | "disjoint" => .cell .disjoint
  | "text definition" | "definition" => .definition
  | "comments" | "comment" => .comments
  | "annotations" => .annotations
  | "domain" => .cell .domain
  | "range" => .cell .range
  | "inverse" => .cell .inverse
  | "characteristics" => .cell .characteristics
  | "instance of" => .cell .instanceOf
  | "relations" => .cell .relations
  | "data facts" => .cell .dataFacts
  | _ => .property (key text)

end Heading

/-- The text between a quote at the start and the same quote at the end, each escaped
quote in it without its backslash. -/
def unquoteWith? (quote : Char) (text : List Char) : Option (List Char) :=
  match text with
  | [] => none
  | c :: cs =>
    if c = quote ∧ cs.getLast? = some quote then
      some (Text.replaceFrom ['\\', quote] [quote] 0 cs.dropLast)
    else none

/-- The trimmed text, without the quotes around it. -/
def unquote (text : String) : String :=
  let cs := Text.trimChars text.toList
  String.ofList ((unquoteWith? '"' cs <|> unquoteWith? '\'' cs).getD cs)

/-- A value in the column of annotations: a property and a text. -/
def readAnnotation (value : String) : Except RecordError (String × AnnotationText) :=
  match Cell.parseFact value with
  | .error e => .error (.badSyntax e)
  | .ok ⟨false, property, .literal (.string text language)⟩ => .ok (property.text, ⟨text, language⟩)
  | .ok _ => .error (.malformed (.annotationShape value))

/-- A row that is being read. -/
structure Draft where
  id : Option String
  kind : Option EntityKind
  /-- All but the identifier and the kind. -/
  record : TermRecord

namespace Draft

/-- The values of a cell. -/
def values (cell : String) : Except RecordError (List String) :=
  (Cell.splitValues cell).mapError .badSyntax

/-- Enters a cell that is not empty. -/
def enter (d : Draft) (cell : String) : Heading → Except RecordError Draft
  | .id => .ok { d with id := some cell }
  | .kind =>
    match EntityKind.ofName cell with
    | .ok kind => .ok { d with kind := some kind }
    | .error e => .error (.unknownName e)
  | .label => .ok { d with record.label := some (unquote cell) }
  | .definition => .ok { d with record.definition := some (unquote cell) }
  | .comments =>
    (values cell).map fun vs => { d with record.comments := d.record.comments ++ vs.map unquote }
  | .annotations => do
    let texts ← (← values cell).mapM readAnnotation
    .ok { d with record := texts.foldl (fun r (key, text) => r.annotate key text) d.record }
  | .cell column => .ok { d with record := d.record.setCell column cell }
  | .property key => .ok { d with record := d.record.annotate key ⟨unquote cell, none⟩ }

/-- Enters the cells of a row from left to right. -/
def enterAll (d : Draft) : List (String × String) → Except RecordError Draft
  | [] => .ok d
  | (heading, cell) :: rest =>
    let cell := Text.trim cell
    if cell.isEmpty then enterAll d rest
    else
      match d.enter cell (.ofText heading) with
      | .error e => .error e
      | .ok d => enterAll d rest

end Draft

/-- The record of a row, given by its headings and cells; `kind` is the kind of all
entities of a table that does not name kinds. -/
def TermRecord.ofColumns (columns : List (String × String)) (kind : Option EntityKind)
    (provenance : Provenance) : Except RecordError TermRecord := do
  let blank : TermRecord := { id := "", kind := .cls, provenance }
  let d ← Draft.enterAll ⟨none, kind, blank⟩ columns
  match d.id, d.kind with
  | none, _ => .error (.malformed .missingId)
  | some id, none => .error (.malformed (.missingKind id))
  | some id, some kind => .ok { d.record with id, kind }

end TabularOntology
