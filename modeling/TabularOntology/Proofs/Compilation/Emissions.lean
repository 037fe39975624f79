import TabularOntology.Proofs.Compilation.Kinds

/-! What records emit, in the order in which they emit it: first what each of them declares, then
what its cells amount to, record by record as the tables have them. While axioms are emitted a
compilation notes for each IRI that is no term the first record that mentions it. The terms are
not all known by then, so that an IRI may be noted that a later record declares. But a symbol that
is no term in the end was none all along, and for such a symbol the note is right. -/

namespace TabularOntology

/-- Axioms in the order in which they are emitted, each with the record that emits it. -/
abbrev Emissions := List (Provenance × Axiom)

/-- The record that is the first one to mention an IRI. -/
def Emissions.first? (es : Emissions) (x : Iri) : Option Provenance :=
  (es.find? fun e => e.2.iris.contains x).map Prod.fst

theorem Emissions.first?_append (es fs : Emissions) (x : Iri) :
    first? (es ++ fs) x = (es.first? x <|> fs.first? x) := by
  unfold first?
  rw [List.find?_append]
  cases es.find? fun e => e.2.iris.contains x <;> rfl

theorem Emissions.exists_first? {es : Emissions} {x : Iri} {a : Axiom}
    (ha : a ∈ es.map Prod.snd) (hx : x ∈ a.iris) : ∃ p, es.first? x = some p := by
  obtain ⟨e, he, rfl⟩ := List.mem_map.1 ha
  have found : (es.find? fun e => e.2.iris.contains x).isSome :=
    List.find?_isSome.2 ⟨e, he, List.contains_iff_mem.2 hx⟩
  obtain ⟨f, hf⟩ := Option.isSome_iff_exists.1 found
  exact ⟨f.1, by rw [first?, hf]; rfl⟩

namespace Compilation

variable {c d : Compilation} {es : Emissions} {scope : IdentifierScope} {iri x : Iri}
variable {p : Provenance} {a : Axiom} {as : List Axiom} {r : TermRecord} {rs done : List TermRecord}
variable {settings : Settings} {catalog : Catalog}

/-- What the first pass over records emits. -/
def declarations (scope : IdentifierScope) (rs : List TermRecord) : Emissions :=
  rs.flatMap fun r => (r.declaredAxioms scope).map fun a => (r.provenance, a)

/-- What the second pass over the declared records emits. -/
def statements (c : Compilation) (settings : Settings) (catalog : Catalog) : Emissions :=
  c.records.flatMap fun r =>
    (outcomeAxioms (c.cellsOf settings catalog r)).map fun a => (r.record.provenance, a)

/-- What both passes over tables emit. -/
def emissions (c : Compilation) (settings : Settings) (catalog : Catalog) (ts : List Table) :
    Emissions :=
  declarations settings.scope (ts.flatMap Table.records) ++ c.statements settings catalog

/-! ### First references -/

/-- The first references are right for what is no term. -/
def Refers (c : Compilation) (es : Emissions) : Prop :=
  ∀ x, x ∉ c.terms → c.firstReferences[x]? = es.first? x

theorem getElem?_foldl_insertIfNew (m : Std.TreeMap Iri Provenance) (xs : List Iri)
    (p : Provenance) (x : Iri) : (xs.foldl (fun m y => m.insertIfNew y p) m)[x]? =
      (m[x]? <|> if x ∈ xs then some p else none) := by
  induction xs generalizing m with
  | nil => simp
  | cons y xs ih =>
    rw [List.foldl_cons, ih, Std.TreeMap.getElem?_insertIfNew]
    by_cases same : x = y
    · subst same
      by_cases old : x ∈ m
      · simp [old]
      · simp [old]
    · simp [same, Ne.symm same]

/-- The step of one axiom. -/
theorem Refers.emit (h : c.Refers es) (p : Provenance) (a : Axiom) :
    (c.emit p a).Refers (es ++ [(p, a)]) := by
  intro x hx
  have unknown : c.terms.contains x = false :=
    Bool.eq_false_iff.2 fun known => hx (Std.TreeMap.contains_iff_mem.1 known)
  have noted : (c.emit p a).firstReferences[x]? =
      (c.firstReferences[x]? <|> if x ∈ a.iris then some p else none) := by
    rw [Compilation.emit, getElem?_foldl_insertIfNew]
    simp [unknown]
  rw [noted, Emissions.first?_append, h x hx]
  congr 1
  by_cases mentioned : x ∈ a.iris <;> simp [Emissions.first?, mentioned]

theorem Refers.emitAll (h : c.Refers es) (p : Provenance) (as : List Axiom) :
    (c.emitAll p as).Refers (es ++ as.map fun a => (p, a)) := by
  induction as generalizing c es with
  | nil =>
    rw [List.map_nil, List.append_nil]
    exact h
  | cons a as ih =>
    have rest := ih (h.emit p a)
    rwa [List.append_assoc] at rest

/-- Terms that are declared do no harm. -/
theorem Refers.grow (h : c.Refers es) (terms : ∀ x ∈ c.terms, x ∈ d.terms)
    (references : d.firstReferences = c.firstReferences) : d.Refers es := fun x hx => by
  rw [references]
  exact h x fun known => hx (terms x known)

theorem firstReferences_learn (c : Compilation) (iri : Iri) (t : Term) (label : Option String) :
    (c.learn iri t label).firstReferences = c.firstReferences := by
  unfold learn
  split <;> rfl

theorem firstReferences_declare (h : c.declare iri r = .ok d) :
    d.firstReferences = c.firstReferences := by
  unfold declare at h
  split at h
  · cases h
    exact firstReferences_learn _ _ _ _
  · split at h
    · cases h
    · cases h
      exact firstReferences_learn _ _ _ _

theorem mem_terms_iff_kind? : x ∈ c.terms ↔ (c.kind? x).isSome := by
  rw [kind?, Option.isSome_map, Std.TreeMap.mem_iff_isSome_getElem?]

theorem mem_terms_declare (h : c.declare iri r = .ok d) (hx : x ∈ c.terms) : x ∈ d.terms := by
  rw [mem_terms_iff_kind?] at hx ⊢
  rw [(declare_eq_ok h).2.kind]
  split
  · rfl
  · exact hx

/-! ### The first pass -/

/-- What the first pass over some records leaves behind. -/
structure Passes (scope : IdentifierScope) (done : List TermRecord) (c : Compilation) : Prop where
  records : c.records.map DeclaredRecord.record = done.filter fun r => (r.iri? scope).isSome
  refers : c.Refers (declarations scope done)

theorem passes_start (ontologyIri : Iri) (versionIri : Option Iri) :
    Passes scope [] (start ontologyIri versionIri) where
  records := rfl
  refers x _ := by simp [start, declarations, Emissions.first?]

theorem declarations_concat (done : List TermRecord) (r : TermRecord) :
    declarations scope (done ++ [r]) = declarations scope done ++
      (r.declaredAxioms scope).map fun a => (r.provenance, a) := by
  simp [declarations]

theorem Passes.skip (h : Passes scope done c) {e : RecordError}
    (he : Declaration.ofRecord scope r = .error e) :
    Passes scope (done ++ [r]) (c.warn e.problem e.message r.provenance) where
  records := by
    rw [List.filter_append, List.filter_singleton, TermRecord.iri?_of_error he]
    exact h.records.trans (List.append_nil _).symm
  refers := by
    rw [declarations_concat, TermRecord.declaredAxioms_of_error he, List.map_nil, List.append_nil]
    exact h.refers.grow (fun _ => id) rfl

theorem Passes.step (h : Passes scope done c) (hr : Declaration.ofRecord scope r = .ok (iri, as))
    (hd : c.declare iri r = .ok d) : Passes scope (done ++ [r]) (d.emitAll r.provenance as) where
  records := by
    obtain ⟨n, records⟩ := (declare_eq_ok hd).2.records
    rw [records_emitAll, records, List.map_append, h.records, List.filter_append,
      List.filter_singleton, TermRecord.iri?_of_ok hr]
    rfl
  refers := by
    rw [declarations_concat, TermRecord.declaredAxioms_of_ok hr]
    refine Refers.emitAll ?_ _ _
    exact h.refers.grow (fun _ => mem_terms_declare hd) (firstReferences_declare hd)

theorem isKept_passes : IsKept scope (Passes scope) where
  startTable h := ⟨(congrArg _ (records_startTable _)).trans h.records, h.refers⟩
  skip h failed := h.skip failed
  step h declared accepted := h.step declared accepted

/-! ### The second pass -/

theorem Refers.enterOutcomes (h : c.Refers es) (p : Provenance)
    (os : List (Except RecordError Axiom)) :
    (c.enterOutcomes p os).Refers (es ++ (outcomeAxioms os).map fun a => (p, a)) :=
  List.foldlRecOn (outcomeErrors os) _
    (motive := fun d : Compilation => d.Refers (es ++ (outcomeAxioms os).map fun a => (p, a)))
    (h.emitAll p (outcomeAxioms os)) fun _ hd _ _ => hd.grow (fun _ => id) rfl

theorem Refers.readCells (h : c.Refers es) (settings : Settings) (catalog : Catalog) :
    (c.readCells settings catalog).Refers (es ++ c.statements settings catalog) := by
  have run (read : List (DeclaredRecord × List (Except RecordError Axiom))) (d : Compilation)
      (es : Emissions) (hd : d.Refers es) :
      (read.foldl (fun c r => c.enterOutcomes r.1.record.provenance r.2) d).Refers
        (es ++ read.flatMap fun r =>
          (outcomeAxioms r.2).map fun a => (r.1.record.provenance, a)) := by
    induction read generalizing d es with
    | nil => simpa using hd
    | cons r read ih =>
      rw [List.flatMap_cons, ← List.append_assoc]
      exact ih _ _ (hd.enterOutcomes r.1.record.provenance r.2)
  have all := run (c.records.map fun r => (r, c.cellsOf settings catalog r)) c es h
  rwa [List.flatMap_map] at all

theorem cellsOf_congr (terms : d.terms = c.terms) (labels : d.labels = c.labels)
    (r : DeclaredRecord) : d.cellsOf settings catalog r = c.cellsOf settings catalog r := by
  rw [cellsOf, cellScope, terms, labels]
  rfl

/-- A finished compilation, told by what was emitted. -/
structure Emits (c : Compilation) (settings : Settings) (catalog : Catalog) (ts : List Table) :
    Prop where
  records : c.records.map DeclaredRecord.record =
    (ts.flatMap Table.records).filter fun r => (r.iri? settings.scope).isSome
  ontology : c.ontology = (start settings.ontologyIri settings.versionIri).ontology.insertAll
    ((c.emissions settings catalog ts).map Prod.snd)
  refers : c.Refers (c.emissions settings catalog ts)

theorem emits_of_ofTables {ts : List Table} (h : ofTables settings catalog ts = .ok c) :
    c.Emits settings catalog ts := by
  obtain ⟨d, passed, rfl⟩ := ofTables_eq_ok.1 h
  have started : Passes settings.scope [] (start settings.ontologyIri settings.versionIri) :=
    passes_start _ _
  have passes := isKept_passes.declareTables started ts
  rw [passed] at passes
  have declares := ((declares_start settings.ontologyIri settings.versionIri).declareTables
    passed).1 rfl
  obtain ⟨terms, labels, _, ontology⟩ := d.readCells_changes settings catalog
  have records := d.records_readCells settings catalog
  have same : (d.readCells settings catalog).emissions settings catalog ts =
      d.emissions settings catalog ts := by
    unfold emissions statements
    simp only [records, cellsOf_congr terms labels]
  refine ⟨(congrArg _ records).trans passes.records, ?_, ?_⟩
  · rw [same, ontology, declares.ontology, ← insertAll_append]
    simp [emissions, declarations, statements, List.map_flatMap, Function.comp_def]
  · rw [same]
    exact passes.refers.readCells settings catalog

/-- Whatever the ontology mentions was emitted by some record. -/
theorem Emits.exists_first? {ts : List Table} (h : c.Emits settings catalog ts)
    (hx : x ∈ c.ontology.signature) :
    ∃ p, (c.emissions settings catalog ts).first? x = some p := by
  obtain ⟨a, ha, hx⟩ := Ontology.mem_signature.1 hx
  rw [h.ontology] at ha
  have emitted := Ontology.axioms_insertAll_subset ha
  rw [axioms_start, List.nil_append] at emitted
  exact Emissions.exists_first? emitted hx

/-! ### Terms -/

/-- The ontology declares the terms of a compilation: what the first pass emits has plain names,
and so nothing takes the place of a declaration. -/
theorem declares_of_mem_terms {ts : List Table} (h : ofTables settings catalog ts = .ok c)
    (hs : settings.scope.IsRead) (hx : x ∈ c.terms) : c.ontology.declares x = true := by
  obtain ⟨d, finished⟩ := exists_finishes h
  rw [finished.terms, mem_terms_iff_kind?] at hx
  obtain ⟨k, hk⟩ := Option.isSome_iff_exists.1 hx
  obtain ⟨r, hr, named, -⟩ := (finished.declares.kind x k).1 hk
  have declaring : .declaration r.kind x ∈ r.declaredAxioms settings.scope :=
    TermRecord.declaration_mem_declaredAxioms.2 (.inl ⟨named, rfl⟩)
  exact Ontology.declares_of_mem (finished.mem_axioms_of_declared hs hr declaring)

end Compilation

end TabularOntology
