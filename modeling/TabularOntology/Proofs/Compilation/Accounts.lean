import Mathlib.Data.List.Forall2
import TabularOntology.Proofs.Compilation.Order
import TabularOntology.Proofs.Compilation.Pass

/-! The second pass accounts for all that stands in the cells of the records. What there is to
account for is read off a record alone: the values of the cells in columns that apply, the cells
that cannot be split into values, and the columns that are filled in although they do not apply.
Each of these gives one axiom or one error, which depends on nothing else in the tables but what
is declared. The axioms go into the ontology and the errors become warnings at the record. -/

namespace TabularOntology

/-- The kinds of entities that a column says something about. -/
def Column.kinds : Column → List EntityKind
  | .parent => [.cls, .objectProperty, .dataProperty, .annotationProperty, .individual]
  | .children => [.cls, .objectProperty, .dataProperty, .annotationProperty]
  | .equivalent | .disjoint => [.cls, .objectProperty, .dataProperty]
  | .domain | .range | .characteristics => [.objectProperty, .dataProperty]
  | .inverse => [.objectProperty]
  | .instanceOf | .relations | .dataFacts => [.individual]

/-- What there is to account for in the cells of a record. -/
inductive TermRecord.Place
  /-- The cell of a column that applies, where it cannot be split into values. -/
  | unsplit (column : Column) (e : Cell.SyntaxError)
  /-- One value in the cell of a column that applies. -/
  | value (column : Column) (text : String)
  /-- All columns that are filled in although they do not apply. -/
  | unused (columns : List Column)

namespace TermRecord

/-- The values of a cell, or that there are none. -/
def cellPlaces (column : Column) (cell : String) : List Place :=
  match Cell.splitValues cell with
  | .error e => [.unsplit column e]
  | .ok values => values.map (.value column)

def columnPlaces (r : TermRecord) (column : Column) : List Place :=
  if r.kind ∈ column.kinds then (r.cells column).elim [] (cellPlaces column) else []

/-- The columns that are filled in although they do not apply. -/
def misplaced (r : TermRecord) : List Column :=
  Column.all.filter fun column => r.kind ∉ column.kinds ∧ (r.cells column).isSome

def places (r : TermRecord) : List Place :=
  Column.all.flatMap r.columnPlaces ++
    match r.misplaced with
    | [] => []
    | columns => [.unused columns]

end TermRecord

namespace CellScope

variable {s : CellScope} {iri : Iri} {kind : EntityKind} {column : Column} {r : TermRecord}

/-- What a place in the cells of an entity gives, whatever stands in the other places. -/
inductive Yields (s : CellScope) (iri : Iri) (kind : EntityKind) :
    TermRecord.Place → Except RecordError Axiom → Prop
  | unsplit (column : Column) (e : Cell.SyntaxError) :
    Yields s iri kind (.unsplit column e) (.error (.badSyntax e))
  | value {column : Column} {state : String → Except RecordError Axiom} (text : String)
    (applies : s.statement kind iri column = some state) :
    Yields s iri kind (.value column text) (state text)
  | unused (columns : List Column) :
    Yields s iri kind (.unused columns) (.error (.malformed (.unusedColumns columns kind)))

/-- A place gives an outcome and no other one. -/
def YieldsJust (s : CellScope) (iri : Iri) (kind : EntityKind) (p : TermRecord.Place)
    (o : Except RecordError Axiom) : Prop :=
  ∀ o', s.Yields iri kind p o' ↔ o' = o

theorem yieldsJust_unsplit (e : Cell.SyntaxError) :
    s.YieldsJust iri kind (.unsplit column e) (.error (.badSyntax e)) := fun o => by
  constructor
  · rintro ⟨⟩
    rfl
  · rintro rfl
    exact .unsplit column e

theorem yieldsJust_value {state : String → Except RecordError Axiom}
    (applies : s.statement kind iri column = some state) (text : String) :
    s.YieldsJust iri kind (.value column text) (state text) := fun o => by
  constructor
  · rintro (_ | ⟨_, applies'⟩)
    cases applies.symm.trans applies'
    rfl
  · rintro rfl
    exact .value text applies

theorem yieldsJust_unused (columns : List Column) : s.YieldsJust iri kind (.unused columns)
    (.error (.malformed (.unusedColumns columns kind))) := fun o => by
  constructor
  · rintro ⟨⟩
    rfl
  · rintro rfl
    exact .unused columns

theorem isSome_statement (s : CellScope) (kind : EntityKind) (iri : Iri) (column : Column) :
    (s.statement kind iri column).isSome ↔ kind ∈ column.kinds := by
  cases kind <;> cases column <;>
    simp [statement, classStatement, objectPropertyStatement, dataPropertyStatement,
      annotationPropertyStatement, individualStatement, Column.kinds]

theorem unusedColumns_eq_misplaced (s : CellScope) (iri : Iri) (r : TermRecord) :
    s.unusedColumns iri r = r.misplaced := by
  refine List.filter_congr fun column _ => ?_
  rw [Bool.eq_iff_iff, Bool.and_eq_true, decide_eq_true_iff, ← isSome_statement s r.kind iri column,
    Bool.not_eq_true, Option.isNone_iff_eq_none, Option.isSome_eq_false_iff,
    Option.isNone_iff_eq_none]

theorem cellOutcomes_of_places {state : String → Except RecordError Axiom}
    (applies : s.statement kind iri column = some state) (cell : String) :
    List.Forall₂ (s.YieldsJust iri kind) (TermRecord.cellPlaces column cell)
      (cellOutcomes state cell) := by
  unfold TermRecord.cellPlaces cellOutcomes
  cases Cell.splitValues cell with
  | error e => exact .cons (yieldsJust_unsplit e) .nil
  | ok values =>
    rw [List.forall₂_map_left_iff, List.forall₂_map_right_iff, List.forall₂_same]
    exact fun text _ => yieldsJust_value applies text

theorem columnOutcomes_of_places (s : CellScope) (iri : Iri) (r : TermRecord) (column : Column) :
    List.Forall₂ (s.YieldsJust iri r.kind) (r.columnPlaces column)
      (s.columnOutcomes iri r column) := by
  have applies := isSome_statement s r.kind iri column
  unfold TermRecord.columnPlaces columnOutcomes
  cases stated : s.statement r.kind iri column with
  | none =>
    have never : r.kind ∉ column.kinds := by
      rw [← applies, stated]
      exact Bool.false_ne_true
    rw [if_neg never]
    exact .nil
  | some state =>
    rw [if_pos (applies.1 (by rw [stated]; rfl))]
    cases r.cells column with
    | none => exact .nil
    | some cell => exact cellOutcomes_of_places stated cell

/-- The outcomes of a record are those of its places, in their order. -/
theorem outcomes_of_places (s : CellScope) (iri : Iri) (r : TermRecord) :
    List.Forall₂ (s.YieldsJust iri r.kind) r.places (s.outcomes iri r) := by
  have columns : List.Forall₂ Eq Column.all Column.all := List.forall₂_refl _
  refine List.rel_append (List.rel_flatMap columns ?_) ?_
  · rintro column _ rfl
    exact columnOutcomes_of_places s iri r column
  · rw [unusedColumns_eq_misplaced]
    cases r.misplaced with
    | nil => exact .nil
    | cons column columns => exact .cons (yieldsJust_unused _) .nil

end CellScope

namespace Compilation

variable {c : Compilation} {settings : Settings} {catalog : Catalog} {ts : List Table}

/-! ### Warnings -/

/-- The warning that an error in the cells of a record becomes. -/
def cellWarning (provenance : Provenance) (e : RecordError) : Report.Entry :=
  ⟨.warning, e.problem, e.message, some provenance⟩

/-- The warnings for the errors in the cells of all records. -/
def cellWarnings (c : Compilation) (settings : Settings) (catalog : Catalog) : Report :=
  c.records.flatMap fun r =>
    (outcomeErrors (c.cellsOf settings catalog r)).map (cellWarning r.record.provenance)

/-- Steps that each put something at the end of the report. -/
theorem report_foldl {α : Type} {step : Compilation → α → Compilation} {entries : α → Report}
    (each : ∀ c x, (step c x).report = c.report ++ entries x) (xs : List α) (c : Compilation) :
    (xs.foldl step c).report = c.report ++ xs.flatMap entries := by
  induction xs generalizing c with
  | nil => rw [List.foldl_nil, List.flatMap_nil, List.append_nil]
  | cons x xs ih => rw [List.foldl_cons, ih, each, List.flatMap_cons, List.append_assoc]

theorem report_enterOutcomes (c : Compilation) (provenance : Provenance)
    (os : List (Except RecordError Axiom)) : (c.enterOutcomes provenance os).report =
      c.report ++ (outcomeErrors os).map (cellWarning provenance) := by
  rw [enterOutcomes, report_foldl (fun c e => rfl), report_emitAll, List.map_eq_flatMap]
  rfl

theorem report_readCells (c : Compilation) (settings : Settings) (catalog : Catalog) :
    (c.readCells settings catalog).report = c.report ++ c.cellWarnings settings catalog := by
  unfold readCells
  rw [report_foldl (fun c r => report_enterOutcomes c r.1.record.provenance r.2), List.flatMap_map]
  rfl

/-! ### What the cells state -/

/-- A cell of some record states the axiom. -/
def CellsState (c : Compilation) (settings : Settings) (catalog : Catalog) (a : Axiom) : Prop :=
  ∃ r ∈ c.records, .ok a ∈ c.cellsOf settings catalog r

theorem cellsState_iff {a : Axiom} : c.CellsState settings catalog a ↔
    a ∈ c.records.flatMap fun r => outcomeAxioms (c.cellsOf settings catalog r) := by
  simp only [CellsState, List.mem_flatMap, mem_outcomeAxioms]

/-- A compilation accounts for all that stands in the cells of the records of another one. -/
structure Accounts (c : Compilation) (settings : Settings) (catalog : Catalog)
    (d : Compilation) : Prop where
  /-- Each place gives one outcome, and there are no other outcomes. -/
  outcomes : ∀ r ∈ c.records, List.Forall₂
    ((c.cellScope settings catalog catalog.labels r).YieldsJust r.iri r.record.kind)
    r.record.places (c.cellsOf settings catalog r)
  /-- The errors are the only new entries of the report. -/
  warnings : d.report = c.report ++ c.cellWarnings settings catalog
  /-- The ontology has an axiom with the key of each one that is stated. -/
  stored : ∀ a, c.CellsState settings catalog a → d.ontology.contains a
  /-- An axiom that is stated is kept if no other one has its key. -/
  kept : ∀ a, c.CellsState settings catalog a →
    (∀ b, b ∈ c.ontology.axioms ∨ c.CellsState settings catalog b → b.key = a.key → b = a) →
      a ∈ d.ontology.axioms
  /-- Nothing else comes into the ontology. -/
  source : ∀ a ∈ d.ontology.axioms, a ∈ c.ontology.axioms ∨ c.CellsState settings catalog a

theorem accounts_readCells (c : Compilation) (settings : Settings) (catalog : Catalog) :
    c.Accounts settings catalog (c.readCells settings catalog) := by
  obtain ⟨-, -, -, ontology⟩ := c.readCells_changes settings catalog
  refine ⟨fun r _ => CellScope.outcomes_of_places _ _ _, c.report_readCells settings catalog,
    fun a ha => ?_, fun a ha alone => ?_, fun a ha => ?_⟩
  · rw [ontology, Ontology.contains_iff_mem_keys, Ontology.mem_keys_insertAll]
    exact .inr ⟨a, cellsState_iff.1 ha, rfl⟩
  · rw [ontology]
    refine Ontology.mem_axioms_insertAll_of_key ?_ fun b hb => ?_
    · exact List.mem_append.2 (.inr (cellsState_iff.1 ha))
    · rw [List.mem_append, ← cellsState_iff] at hb
      exact alone b hb
  · rw [ontology] at ha
    have found := Ontology.axioms_insertAll_subset ha
    rwa [List.mem_append, ← cellsState_iff] at found

/-- After a first pass without a conflict the second pass accounts for all cells of all declared
records. If the terms that carry labels in the sources are plain, then all axioms that the cells
state are in the ontology. -/
theorem ofTables_accounts (catalog : Catalog) (passed :
    (start settings.ontologyIri settings.versionIri).declareTables settings.scope ts = (c, none)) :
    ∃ d, ofTables settings catalog ts = .ok d ∧ c.Accounts settings catalog d ∧
      (settings.scope.IsRead → PlainLabels catalog →
        ∀ a, c.CellsState settings catalog a → a ∈ d.ontology.axioms) := by
  refine ⟨c.readCells settings catalog, ofTables_eq_ok.2 ⟨c, passed, rfl⟩,
    c.accounts_readCells settings catalog, fun hs hl a ha => ?_⟩
  exact ((finishes_readCells passed catalog).mem_axioms hs hl).2 (mem_stated.2 (.inr ha))

/-- A class with three parents of which one can be read, a cell that does not end, and two
columns that do not apply. -/
def faulty : TermRecord :=
  let named : TermRecord := { id := "<urn:a>", kind := .cls, provenance := ⟨"t.csv", 2⟩ }
  (((named.setCell .parent "<urn:b>; 'none'; (").setCell .children "'open").setCell .domain
    "<urn:b>").setCell .inverse ""

/-- The good parent is kept, and each fault of the record is a warning. -/
theorem ofTables_accounts_faulty :
    let tables : List Table := [⟨"t", [faulty]⟩]
    ∃ c d, (start exampleSettings.ontologyIri exampleSettings.versionIri).declareTables
        exampleSettings.scope tables = (c, none) ∧
      ofTables exampleSettings ∅ tables = .ok d ∧ c.Accounts exampleSettings ∅ d ∧
      (∃ a ∈ d.ontology.axioms, a.key = "SubClassOf(<urn:a> <urn:b>)") ∧
      d.report.map (fun e => (e.problem, e.provenance)) =
        [(.unresolvedReference, some ⟨"t.csv", 2⟩), (.badSyntax, some ⟨"t.csv", 2⟩),
          (.badSyntax, some ⟨"t.csv", 2⟩), (.badSyntax, some ⟨"t.csv", 2⟩)] := by
  intro tables
  let first := (start exampleSettings.ontologyIri exampleSettings.versionIri).declareTables
    exampleSettings.scope tables
  have passed : first = (first.1, none) := Prod.ext rfl (by decide +kernel)
  have plain : PlainLabels ∅ := by unfold PlainLabels; decide +kernel
  have states : ∃ a, first.1.CellsState exampleSettings ∅ a ∧
      a.key = "SubClassOf(<urn:a> <urn:b>)" := by
    simp only [cellsState_iff]
    decide +kernel
  obtain ⟨a, ha, key⟩ := states
  obtain ⟨d, hd, accounts, kept⟩ := ofTables_accounts ∅ passed
  refine ⟨first.1, d, passed, hd, accounts, ⟨a, kept isRead_exampleSettings plain a ha, key⟩, ?_⟩
  rw [accounts.warnings]
  decide +kernel

/-- Two rows state axioms with one key, and what the second one states is not kept. -/
theorem cell_not_kept :
    let catalog := twoLabels ⟨"urn:m> <urn:n"⟩ ⟨"urn:n> <urn:z"⟩
    let tables : List Table := [⟨"t", [aboveLower 2, belowUpper 3]⟩]
    ∃ c d, (start exampleSettings.ontologyIri exampleSettings.versionIri).declareTables
        exampleSettings.scope tables = (c, none) ∧
      ofTables exampleSettings catalog tables = .ok d ∧
      ∃ a, c.CellsState exampleSettings catalog a ∧ a ∉ d.ontology.axioms := by
  intro catalog tables
  let first := (start exampleSettings.ontologyIri exampleSettings.versionIri).declareTables
    exampleSettings.scope tables
  have passed : first = (first.1, none) := Prod.ext rfl (by decide +kernel)
  have states : ∃ a, first.1.CellsState exampleSettings catalog a ∧
      ⟨"urn:n> <urn:z"⟩ ∈ a.iris := by
    simp only [cellsState_iff]
    decide +kernel
  obtain ⟨a, ha, mentions⟩ := states
  -- the axiom that is kept has the same key, but it mentions the other labelled term
  have unmentioned : ⟨"urn:n> <urn:z"⟩ ∉
      (first.1.readCells exampleSettings catalog).ontology.signature := by decide +kernel
  exact ⟨first.1, first.1.readCells exampleSettings catalog, passed,
    ofTables_eq_ok.2 ⟨first.1, passed, rfl⟩, a, ha, fun stored =>
      unmentioned (Ontology.mem_signature.2 ⟨a, stored, mentions⟩)⟩

end Compilation

end TabularOntology
