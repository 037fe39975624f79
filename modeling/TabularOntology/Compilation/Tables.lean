import TabularOntology.Compilation.Declaration
import TabularOntology.Compilation.Statements
import TabularOntology.Config

/-! The compilation of tables in two passes: first all records are declared, then their
cells are read against everything that is declared. Errors in cells are warnings at their
record. -/

namespace TabularOntology

/-- The axioms among the outcomes of a record. -/
def outcomeAxioms (os : List (Except RecordError Axiom)) : List Axiom :=
  os.filterMap Except.toOption

/-- The errors among the outcomes of a record. -/
def outcomeErrors (os : List (Except RecordError Axiom)) : List RecordError :=
  os.filterMap fun
    | .ok _ => none
    | .error e => some e

namespace Compilation

/-- What the cells of a record are read against; `sourceLabels` are those of the catalog. -/
def cellScope (c : Compilation) (settings : Settings) (catalog : Catalog) (sourceLabels : Labels)
    (r : DeclaredRecord) : CellScope where
  references := ⟨settings.scope, c.labels, sourceLabels⟩
  kindOf? iri := (c.terms[iri]?).map Term.kind <|> catalog.kindOf? iri
  maxDepth := settings.maxExpressionDepth
  recordNumber := r.number

/-- Enters what the cells of a record amount to: first the axioms, then the errors. -/
def enterOutcomes (c : Compilation) (provenance : Provenance)
    (os : List (Except RecordError Axiom)) : Compilation :=
  (outcomeErrors os).foldl (fun c e => c.warn e.problem e.message provenance)
    (c.emitAll provenance (outcomeAxioms os))

/-- The second pass: reads the cells of all records. -/
def readCells (c : Compilation) (settings : Settings) (catalog : Catalog) : Compilation :=
  let sourceLabels := catalog.labels
  let read := c.records.map fun r =>
    (r, (c.cellScope settings catalog sourceLabels r).outcomes r.iri r.record)
  read.foldl (fun c (r, os) => c.enterOutcomes r.record.provenance os) c

/-- Both passes over tables. -/
def ofTables (settings : Settings) (catalog : Catalog) (tables : List Table) :
    Except Conflict Compilation :=
  match (start settings.ontologyIri settings.versionIri).declareTables settings.scope tables with
  | (_, some conflict) => .error conflict
  | (c, none) => .ok (c.readCells settings catalog)

end Compilation

end TabularOntology
