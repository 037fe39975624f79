import TabularOntology.Proofs.Compilation.Kinds

/-! Which records the first pass refuses, and what that costs. A record is refused as a whole: its
identifier must be one that can be read, and so must the name and the values of each of its
annotations. The records that are not refused are known in the end, each with its declaration and
its label. A refused record costs one warning, and for everything else it might as well not be
there, the references of other records included. -/

namespace TabularOntology

variable {scope : IdentifierScope} {r : TermRecord} {x : Iri}

/-! ### Records that can be declared -/

/-- The name of an annotation stands for a property, and its values are literals. -/
def Declaration.IsAnnotation (scope : IdentifierScope) (key : String)
    (texts : List AnnotationText) : Prop :=
  (∃ p, property scope key = .ok p) ∧ ∀ t ∈ texts, ∃ l, Literal.ofText t.value t.language = .ok l

/-- The record has an identifier, and all of its annotations can be read. -/
def TermRecord.IsDeclarable (r : TermRecord) (scope : IdentifierScope) (x : Iri) : Prop :=
  scope.readId r.id = .ok x ∧ ∀ (key : String) (texts : List AnnotationText),
    r.annotations[key]? = some texts → Declaration.IsAnnotation scope key texts

/-- The warning that a refused record costs. -/
def TermRecord.refusal? (r : TermRecord) (scope : IdentifierScope) : Option Report.Entry :=
  match Declaration.ofRecord scope r with
  | .error e => some ⟨.warning, e.problem, e.message, some r.provenance⟩
  | .ok _ => none

/-- The records of a table that are not refused. -/
def Table.declarable (scope : IdentifierScope) (t : Table) : Table :=
  { t with records := t.records.filter fun r => (r.iri? scope).isSome }

namespace Declaration

theorem exists_annotationAxioms {iri : Iri} {key : String} {texts : List AnnotationText} :
    (∃ as, annotationAxioms scope iri key texts = .ok as) ↔ IsAnnotation scope key texts := by
  unfold annotationAxioms IsAnnotation
  rw [← exists_mapM_iff]
  constructor
  · rintro ⟨as, h⟩
    obtain ⟨p, hp, h⟩ := bind_eq_ok.1 h
    obtain ⟨values, hvalues, _⟩ := bind_eq_ok.1 h
    exact ⟨⟨p, hp⟩, values, hvalues⟩
  · rintro ⟨⟨p, hp⟩, values, hvalues⟩
    exact ⟨_, bind_eq_ok.2 ⟨p, hp, bind_eq_ok.2 ⟨values, hvalues, rfl⟩⟩⟩

theorem exists_ofRecord :
    (∃ as, ofRecord scope r = .ok (x, as)) ↔ r.IsDeclarable scope x := by
  have readable (iri : Iri) : (∃ annotations, (r.annotations.toList.mapM fun entry =>
      annotationAxioms scope iri entry.1 entry.2) = .ok annotations) ↔
      ∀ (key : String) (texts : List AnnotationText), r.annotations[key]? = some texts →
        IsAnnotation scope key texts := by
    rw [exists_mapM_iff]
    simp only [Prod.forall, Std.TreeMap.mem_toList_iff_getElem?_eq_some, exists_annotationAxioms]
  unfold ofRecord TermRecord.IsDeclarable
  rw [← readable x]
  constructor
  · rintro ⟨as, h⟩
    obtain ⟨iri, hid, h⟩ := bind_eq_ok.1 h
    obtain ⟨annotations, hannotations, h⟩ := bind_eq_ok.1 h
    cases h
    exact ⟨hid, annotations, hannotations⟩
  · rintro ⟨hid, annotations, hannotations⟩
    exact ⟨_, bind_eq_ok.2 ⟨x, hid, bind_eq_ok.2 ⟨annotations, hannotations, rfl⟩⟩⟩

end Declaration

namespace TermRecord

theorem iri?_eq_some_iff : r.iri? scope = some x ↔ r.IsDeclarable scope x := by
  rw [← Declaration.exists_ofRecord]
  exact ⟨exists_of_iri?, fun ⟨_, h⟩ => iri?_of_ok h⟩

theorem refusal?_isSome : (r.refusal? scope).isSome ↔ ¬ ∃ x, r.IsDeclarable scope x := by
  simp only [← iri?_eq_some_iff, ← Option.isSome_iff_exists]
  cases declared : Declaration.ofRecord scope r with
  | error e => simp [refusal?, declared, iri?_of_error declared]
  | ok known => simp [refusal?, declared, iri?_of_ok declared]

end TermRecord

theorem RecordError.problem_ne_duplicateIri (e : RecordError) : e.problem ≠ .duplicateIri := by
  unfold problem
  split <;> decide

namespace Compilation

variable {c d : Compilation} {done : List TermRecord}

/-! ### Reports -/

/-- Apart from the warnings about merged records, the report is about the refused ones. -/
def ReportsRefusals (scope : IdentifierScope) (done : List TermRecord) (c : Compilation) : Prop :=
  c.report.filter (·.problem ≠ .duplicateIri) = done.filterMap (·.refusal? scope)

theorem reportsRefusals_start (ontologyIri : Iri) (versionIri : Option Iri) :
    ReportsRefusals scope [] (start ontologyIri versionIri) := rfl

theorem isKept_reportsRefusals : IsKept scope (ReportsRefusals scope) where
  startTable h := h
  skip {done c r e} h failed := by
    have problem := e.problem_ne_duplicateIri
    have refused : r.refusal? scope = some ⟨.warning, e.problem, e.message, some r.provenance⟩ := by
      rw [TermRecord.refusal?, failed]
    rw [ReportsRefusals, List.filterMap_append, ← h]
    simp [warn, Report.warn, Report.add, refused, problem]
  step {done c d r iri as} h declared accepted := by
    have passed : r.refusal? scope = none := by rw [TermRecord.refusal?, declared]
    rw [ReportsRefusals, List.filterMap_append, ← h, report_emitAll]
    rcases report_declare accepted with same | ⟨message, merged⟩
    · simp [same, passed]
    · simp [merged, Report.warn, Report.add, passed]

/-! ### Refused records -/

def withReport (c : Compilation) (report : Report) : Compilation := { c with report }

theorem map_withReport (result : Compilation × Option Conflict) (report report' : Report) :
    (result.map (·.withReport report') id).map (·.withReport report) id =
      result.map (·.withReport report) id := rfl

theorem learn_withReport (c : Compilation) (report : Report) (iri : Iri) (t : Term)
    (label : Option String) :
    (c.withReport report).learn iri t label = (c.learn iri t label).withReport report := by
  unfold learn
  split <;> rfl

theorem emitAll_withReport (c : Compilation) (report : Report) (provenance : Provenance)
    (as : List Axiom) :
    (c.withReport report).emitAll provenance as = (c.emitAll provenance as).withReport report := by
  induction as generalizing c with
  | nil => rfl
  | cons a as ih => exact ih (c.emit provenance a)

theorem declare_withReport (c : Compilation) (report : Report) (iri : Iri) (r : TermRecord) :
    ∃ report', (c.withReport report).declare iri r =
      (c.declare iri r).map fun d => d.withReport report' := by
  have terms : (c.withReport report).terms = c.terms := rfl
  unfold declare
  rw [terms]
  split
  · exact ⟨report, by rw [learn_withReport]; rfl⟩
  · split
    · exact ⟨report, rfl⟩
    · simp only [learn_withReport]
      exact ⟨_, rfl⟩

/-- How the pass goes on does not depend on the report. -/
theorem declareRecords_withReport (scope : IdentifierScope) (c : Compilation) (report : Report)
    (rs : List TermRecord) :
    ∃ report', (c.withReport report).declareRecords scope rs =
      (c.declareRecords scope rs).map (·.withReport report') id := by
  induction rs generalizing c report with
  | nil => exact ⟨report, rfl⟩
  | cons r rs ih =>
    unfold declareRecords
    split
    · next e _ => exact ih (c.warn e.problem e.message r.provenance) _
    · next iri as _ =>
      obtain ⟨report', same⟩ := declare_withReport c report iri r
      rw [same]
      cases c.declare iri r with
      | error conflict => exact ⟨report, rfl⟩
      | ok d =>
        obtain ⟨report'', rest⟩ := ih (d.emitAll r.provenance as) report'
        refine ⟨report'', ?_⟩
        rw [← rest, ← emitAll_withReport]
        rfl

/-- A record that is refused might as well not be there. -/
theorem declareRecords_declarable (scope : IdentifierScope) (c : Compilation)
    (rs : List TermRecord) :
    ∃ report, c.declareRecords scope (rs.filter fun r => (r.iri? scope).isSome) =
      (c.declareRecords scope rs).map (·.withReport report) id := by
  induction rs generalizing c with
  | nil => exact ⟨c.report, rfl⟩
  | cons r rs ih =>
    cases declared : Declaration.ofRecord scope r with
    | error e =>
      have refused : ¬ (r.iri? scope).isSome := by simp [TermRecord.iri?_of_error declared]
      have warned : c.declareRecords scope (r :: rs) =
          (c.warn e.problem e.message r.provenance).declareRecords scope rs := by
        rw [declareRecords, declared]
      obtain ⟨report, rest⟩ := ih c
      -- without the warning the state is the one before the record
      obtain ⟨report', same⟩ := declareRecords_withReport scope
        (c.warn e.problem e.message r.provenance) c.report rs
      have unwarned : c.declareRecords scope rs =
          (c.declareRecords scope (r :: rs)).map (·.withReport report') id := by
        rw [warned]
        exact same
      refine ⟨report, ?_⟩
      rw [List.filter_cons, if_neg refused, rest, unwarned, map_withReport]
    | ok known =>
      obtain ⟨iri, as⟩ := known
      have kept : (r.iri? scope).isSome := by simp [TermRecord.iri?_of_ok declared]
      rw [List.filter_cons, if_pos kept, declareRecords, declareRecords, declared]
      dsimp only
      cases c.declare iri r with
      | error conflict => exact ⟨c.report, rfl⟩
      | ok d => exact ih _

theorem declareTables_withReport (scope : IdentifierScope) (c : Compilation) (report : Report)
    (ts : List Table) :
    ∃ report', (c.withReport report).declareTables scope ts =
      (c.declareTables scope ts).map (·.withReport report') id := by
  induction ts generalizing c report with
  | nil => exact ⟨report, rfl⟩
  | cons t ts ih =>
    obtain ⟨report', same⟩ := declareRecords_withReport scope c.startTable report t.records
    have start : (c.withReport report).startTable = c.startTable.withReport report := rfl
    rw [declareTables, declareTables, start, same]
    rcases c.startTable.declareRecords scope t.records with ⟨d, _ | conflict⟩
    · exact ih d report'
    · exact ⟨report', rfl⟩

theorem declareTables_declarable (scope : IdentifierScope) (c : Compilation) (ts : List Table) :
    ∃ report, c.declareTables scope (ts.map (Table.declarable scope)) =
      (c.declareTables scope ts).map (·.withReport report) id := by
  induction ts generalizing c with
  | nil => exact ⟨c.report, rfl⟩
  | cons t ts ih =>
    obtain ⟨report, same⟩ := declareRecords_declarable scope c.startTable t.records
    rw [List.map_cons, declareTables, declareTables, Table.declarable, same]
    rcases c.startTable.declareRecords scope t.records with ⟨d, _ | conflict⟩
    · obtain ⟨report', rest⟩ := ih d
      obtain ⟨report'', restored⟩ := declareTables_withReport scope d report
        (ts.map (Table.declarable scope))
      refine ⟨report'', restored.trans ?_⟩
      rw [rest]
      rfl
    · exact ⟨report, rfl⟩

/-! ### The pass -/

/-- The term of a record is known, its declaration is stated and its label is carried. -/
structure HasDeclared (c : Compilation) (r : TermRecord) (x : Iri) : Prop where
  kind : c.kind? x = some r.kind
  declaration : .declaration r.kind x ∈ c.ontology.axioms
  label : ∀ l ∈ r.label, c.label? x = some l ∧ x ∈ c.labels.carriers l

theorem Declares.hasDeclared {o : Ontology} (h : Declares scope o done c) (hr : r ∈ done)
    (hx : r.iri? scope = some x) : c.HasDeclared r x where
  kind := (h.kind x r.kind).2 ⟨r, hr, hx, rfl⟩
  declaration := by
    rw [h.ontology, Ontology.declaration_mem_insertAll]
    exact .inr (List.mem_flatMap.2
      ⟨r, hr, TermRecord.declaration_mem_declaredAxioms.2 (.inl ⟨hx, rfl⟩)⟩)
  label l hl := by
    have label : c.label? x = some l := (h.label x l).2 ⟨r, hr, hx, hl⟩
    exact ⟨label, (h.carriers l x).2 label⟩

/-- The first pass declares the records with an identifier all of whose annotations can be read.
Each of the others costs one warning, and but for the report the pass ends as it does without
them. -/
theorem declareTables_refuses (scope : IdentifierScope) (ontologyIri : Iri)
    (versionIri : Option Iri) (ts : List Table) :
    let rs := ts.flatMap Table.records
    let result := (start ontologyIri versionIri).declareTables scope ts
    (∀ r : TermRecord, (r.refusal? scope).isSome ↔ ¬ ∃ x, r.IsDeclarable scope x) ∧
    (result.2 = none → (∀ r ∈ rs, ∀ x, r.IsDeclarable scope x → result.1.HasDeclared r x) ∧
      result.1.report.filter (·.problem ≠ .duplicateIri) = rs.filterMap (·.refusal? scope)) ∧
    ∃ report, (start ontologyIri versionIri).declareTables scope
      (ts.map (Table.declarable scope)) = (result.1.withReport report, result.2) := by
  intro rs result
  have absent := declareTables_declarable scope (start ontologyIri versionIri) ts
  refine ⟨fun r => TermRecord.refusal?_isSome, fun passed => ?_, absent⟩
  have declares : EndsWith scope (Declares scope _) rs result :=
    isKept_declares.declareTables (declares_start ontologyIri versionIri) ts
  have reports : EndsWith scope (ReportsRefusals scope) rs result :=
    isKept_reportsRefusals.declareTables (reportsRefusals_start ontologyIri versionIri) ts
  obtain ⟨c, conflict⟩ := result
  cases passed
  exact ⟨fun r hr x hx => declares.hasDeclared hr (TermRecord.iri?_eq_some_iff.2 hx), reports⟩

/-- A labelled class with an annotation whose name has no letters, and a class below it. -/
def belowRefused : List TermRecord :=
  let refused : TermRecord :=
    { id := "<urn:a>", kind := .cls, label := some "alpha", provenance := ⟨"t.csv", 2⟩ }
  let below : TermRecord := { id := "<urn:b>", kind := .cls, provenance := ⟨"t.csv", 3⟩ }
  [refused.annotate "!!!" { value := "x" }, below.setCell .parent "'alpha'"]

/-- The annotation costs the first class its declaration and its label, and the second one what it
says of the first. -/
theorem refused_with_annotation :
    exampleSettings.scope.readId belowRefused[0].id = .ok ⟨"urn:a"⟩ ∧
    ∃ c, ofTables exampleSettings ∅ [⟨"t.csv", belowRefused⟩] = .ok c ∧
      c.kind? ⟨"urn:a"⟩ = none ∧ c.ontology.declares ⟨"urn:a"⟩ = false ∧
      "alpha" ∉ c.labels ∧ c.report.map (fun e => (e.problem, e.provenance)) =
        [(.badSyntax, some ⟨"t.csv", 2⟩), (.unresolvedReference, some ⟨"t.csv", 3⟩)] := by
  obtain ⟨c, hc, facts⟩ : ∃ c, ofTables exampleSettings ∅ [⟨"t.csv", belowRefused⟩] = .ok c ∧
      ((c.kind? ⟨"urn:a"⟩, c.ontology.declares ⟨"urn:a"⟩, c.labels.contains "alpha"),
        c.report.map fun e => (e.problem, e.provenance)) = ((none, false, false),
          [(.badSyntax, some ⟨"t.csv", 2⟩), (.unresolvedReference, some ⟨"t.csv", 3⟩)]) :=
    exists_of_toOption_map (by decide +kernel)
  simp only [Prod.mk.injEq] at facts
  obtain ⟨⟨kind, declares, unlabelled⟩, report⟩ := facts
  have label : "alpha" ∉ c.labels := fun listed => by
    rw [Std.TreeMap.contains_iff_mem.2 listed] at unlabelled
    cases unlabelled
  exact ⟨by decide +kernel, c, hc, kind, declares, label, report⟩

end Compilation

end TabularOntology
