import TabularOntology.Proofs.Compilation.Refusals

/-! The labels that a compilation knows against those that its ontology states. A reference by label
is looked up among the labels that records give in their own column. The ontology states these
labels, but it also states a label for a record that is annotated with `rdfs:label`, and such a
label is found only by those who have the ontology as a source. -/

namespace TabularOntology

variable {scope : IdentifierScope} {iri p x : Iri} {v : Literal} {l key : String}
variable {texts : List AnnotationText} {as : List Axiom} {r : TermRecord}

/-- The ontology states a label of a term, in whatever language. -/
def Ontology.IsLabelled (o : Ontology) (x : Iri) (l : String) : Prop :=
  ∃ v, .annotationAssertion Vocabulary.label x v ∈ o.axioms ∧ v.value = l

/-- The record is annotated with a label, apart from the one in its own column. -/
def TermRecord.AnnotatesLabel (r : TermRecord) (scope : IdentifierScope) (l : String) : Prop :=
  ∃ (key : String) (texts : List AnnotationText), r.annotations[key]? = some texts ∧
    Declaration.property scope key = .ok Vocabulary.label ∧ ∃ text ∈ texts, text.value = l

/-! ### Labels in sources -/

theorem Ontology.mem_labels {o : Ontology} :
    (x, v) ∈ o.labels ↔ .annotationAssertion Vocabulary.label x v ∈ o.axioms := by
  rw [labels, List.mem_filterMap]
  constructor
  · rintro ⟨a, ha, stated⟩
    split at stated
    · split at stated
      · next label =>
        cases stated
        exact label ▸ ha
      · cases stated
    · cases stated
  · exact fun h => ⟨_, h, by simp⟩

theorem Ontologies.mem_all_insert_empty {o p : Ontology} {name : String} :
    o ∈ Ontologies.all (Std.TreeMap.empty.insert name p) ↔ o = p := by
  rw [mem_all]
  constructor
  · rintro ⟨n, hn⟩
    rw [Std.TreeMap.getElem?_insert] at hn
    split at hn
    · exact (Option.some.inj hn).symm
    · simp at hn
  · rintro rfl
    exact ⟨name, Std.TreeMap.getElem?_insert_self⟩

theorem Catalog.mem_carriers_labels {catalog : Catalog} :
    x ∈ catalog.labels.carriers l ↔ ∃ o ∈ catalog.all, o.IsLabelled x l := by
  rw [Catalog.labels, Labels.mem_carriers_ofPairs, List.mem_flatMap]
  refine exists_congr fun o => and_congr_right fun _ => ?_
  rw [List.mem_map]
  constructor
  · rintro ⟨⟨y, v⟩, hv, same⟩
    cases same
    exact ⟨v, Ontology.mem_labels.1 hv, rfl⟩
  · rintro ⟨v, hv, rfl⟩
    exact ⟨(x, v), Ontology.mem_labels.2 hv, rfl⟩

/-! ### Labels of records -/

theorem Literal.value_ofText {text : String} {language : Option String}
    (h : ofText text language = .ok v) : v.value = text := by
  unfold ofText at h
  split at h
  · cases h
    rfl
  · split at h
    · cases h
      rfl
    · cases h

namespace Declaration

theorem annotation_mem_annotationAxioms (h : annotationAxioms scope iri key texts = .ok as) :
    .annotationAssertion p x v ∈ as ↔ property scope key = .ok p ∧ iri = x ∧
      ∃ t ∈ texts, Literal.ofText t.value t.language = .ok v := by
  obtain ⟨q, hq, h⟩ := bind_eq_ok.1 h
  obtain ⟨values, hvalues, h⟩ := bind_eq_ok.1 h
  cases h
  have declared : .annotationAssertion p x v ∉
      (if Vocabulary.isBuiltin q then [] else [.declaration .annotationProperty q] : List Axiom) := by
    split <;> simp
  have read : v ∈ values ↔ ∃ t ∈ texts, Literal.ofText t.value t.language = .ok v := by
    constructor
    · exact exists_of_mem_mapM hvalues
    · rintro ⟨t, ht, hv⟩
      obtain ⟨w, hw, same⟩ := exists_mem_mapM hvalues ht
      cases hv.symm.trans same
      exact hw
  rw [List.mem_append, or_iff_right declared, List.mem_map, ← read, hq, Except.ok.injEq]
  constructor
  · rintro ⟨w, hw, same⟩
    cases same
    exact ⟨rfl, rfl, hw⟩
  · rintro ⟨rfl, rfl, hv⟩
    exact ⟨v, hv, rfl⟩

theorem label_mem_textAxioms : .annotationAssertion Vocabulary.label x v ∈ textAxioms iri r ↔
    iri = x ∧ ∃ l ∈ r.label, .plain l = v := by
  have definition : Vocabulary.label ≠ Vocabulary.definition := by decide
  have comment : Vocabulary.comment ≠ Vocabulary.label := by decide
  unfold textAxioms
  cases r.definition <;> simp [definition, comment, and_left_comm]

theorem label_mem_ofRecord (h : ofRecord scope r = .ok (iri, as)) :
    .annotationAssertion Vocabulary.label x v ∈ as ↔ iri = x ∧ ((∃ l ∈ r.label, .plain l = v) ∨
      ∃ (key : String) (texts : List AnnotationText), r.annotations[key]? = some texts ∧
        property scope key = .ok Vocabulary.label ∧
          ∃ t ∈ texts, Literal.ofText t.value t.language = .ok v) := by
  obtain ⟨iri, _, h⟩ := bind_eq_ok.1 h
  obtain ⟨annotations, hannotations, h⟩ := bind_eq_ok.1 h
  cases h
  have annotated : .annotationAssertion Vocabulary.label x v ∈ annotations.flatten ↔
      ∃ (key : String) (texts : List AnnotationText), r.annotations[key]? = some texts ∧
        property scope key = .ok Vocabulary.label ∧ iri = x ∧
          ∃ t ∈ texts, Literal.ofText t.value t.language = .ok v := by
    rw [List.mem_flatten]
    constructor
    · rintro ⟨as, has, hv⟩
      obtain ⟨⟨key, texts⟩, entry, made⟩ := exists_of_mem_mapM hannotations has
      exact ⟨key, texts, Std.TreeMap.mem_toList_iff_getElem?_eq_some.1 entry,
        (annotation_mem_annotationAxioms made).1 hv⟩
    · rintro ⟨key, texts, entry, hv⟩
      obtain ⟨as, has, made⟩ := exists_mem_mapM hannotations
        (Std.TreeMap.mem_toList_iff_getElem?_eq_some.2 entry)
      exact ⟨as, has, (annotation_mem_annotationAxioms made).2 hv⟩
  rw [List.cons_append, List.mem_cons, List.mem_append, label_mem_textAxioms, annotated,
    or_iff_right (by simp), and_or_left]
  simp only [and_left_comm (b := iri = x), exists_and_left]

end Declaration

/-- The labels among what a record declares. -/
theorem TermRecord.exists_label_mem_declaredAxioms :
    (∃ v, .annotationAssertion Vocabulary.label x v ∈ r.declaredAxioms scope ∧ v.value = l) ↔
      r.iri? scope = some x ∧ (r.label = some l ∨ r.AnnotatesLabel scope l) := by
  cases declared : Declaration.ofRecord scope r with
  | error e => simp [declaredAxioms_of_error declared, iri?_of_error declared]
  | ok known =>
    obtain ⟨iri, as⟩ := known
    simp only [declaredAxioms_of_ok declared, iri?_of_ok declared, Option.some.injEq,
      Declaration.label_mem_ofRecord declared]
    constructor
    · rintro ⟨v, ⟨rfl, ⟨l, hl, rfl⟩ | ⟨key, texts, entry, named, t, ht, hv⟩⟩, rfl⟩
      · exact ⟨rfl, .inl hl⟩
      · exact ⟨rfl, .inr ⟨key, texts, entry, named, t, ht, (Literal.value_ofText hv).symm⟩⟩
    · rintro ⟨rfl, hl | ⟨key, texts, entry, named, t, ht, rfl⟩⟩
      · exact ⟨.plain l, ⟨rfl, .inl ⟨l, hl, rfl⟩⟩, rfl⟩
      · have declarable := Declaration.exists_ofRecord.1 ⟨as, declared⟩
        obtain ⟨v, hv⟩ := (declarable.2 key texts entry).2 t ht
        exact ⟨v, ⟨rfl, .inr ⟨key, texts, entry, named, t, ht, hv⟩⟩, Literal.value_ofText hv⟩

namespace Compilation

variable {c : Compilation} {settings : Settings} {catalog : Catalog} {ts : List Table}

theorem isLabelled_iff (hs : settings.scope.IsRead) (h : ofTables settings catalog ts = .ok c) :
    c.ontology.IsLabelled x l ↔ ∃ r ∈ ts.flatMap Table.records,
      r.iri? settings.scope = some x ∧ (r.label = some l ∨ r.AnnotatesLabel settings.scope l) := by
  obtain ⟨d, finished⟩ := exists_finishes h
  have labels {v : Literal} : .annotationAssertion Vocabulary.label x v ∈ c.ontology.axioms ↔
      ∃ r ∈ ts.flatMap Table.records,
        .annotationAssertion Vocabulary.label x v ∈ r.declaredAxioms settings.scope := by
    refine ⟨fun stored => ?_, fun ⟨r, hr, declared⟩ =>
      finished.mem_axioms_of_declared hs hr declared⟩
    refine (mem_stated.1 (finished.axioms_subset stored)).resolve_right ?_
    rintro ⟨r, _, cell⟩
    exact absurd (CellScope.isStatement_of_mem_outcomes cell) (by simp [Axiom.isStatement])
  simp only [Ontology.IsLabelled, labels, ← TermRecord.exists_label_mem_declaredAxioms]
  constructor
  · rintro ⟨v, ⟨r, hr, hv⟩, value⟩
    exact ⟨r, hr, v, hv, value⟩
  · rintro ⟨r, hr, v, hv, value⟩
    exact ⟨v, ⟨r, hr, hv⟩, value⟩

theorem mem_carriers_ofTables (h : ofTables settings catalog ts = .ok c) :
    x ∈ c.labels.carriers l ↔
      ∃ r ∈ ts.flatMap Table.records, r.iri? settings.scope = some x ∧ r.label = some l := by
  obtain ⟨d, finished⟩ := exists_finishes h
  rw [finished.labels, finished.declares.carriers, finished.declares.label]

/-- The labels that references are looked up among are those of the label column. The ontology
states these labels and those of annotations, and so they are found by those who have it as a
source. The two are the same just if each label of an annotation stands in the label column of a
record of the term as well. -/
theorem labels_exact (hs : settings.scope.IsRead) (h : ofTables settings catalog ts = .ok c) :
    let rs := ts.flatMap Table.records
    (∀ l x, x ∈ c.labels.carriers l ↔
      ∃ r ∈ rs, r.iri? settings.scope = some x ∧ r.label = some l) ∧
    (∀ l x, c.ontology.IsLabelled x l ↔ x ∈ c.labels.carriers l ∨
      ∃ r ∈ rs, r.iri? settings.scope = some x ∧ r.AnnotatesLabel settings.scope l) ∧
    (∀ (name : String) (l : String) (x : Iri),
      x ∈ (Catalog.labels (Std.TreeMap.empty.insert name c.ontology)).carriers l ↔
        c.ontology.IsLabelled x l) ∧
    ((∀ l x, x ∈ c.labels.carriers l ↔ c.ontology.IsLabelled x l) ↔
      ∀ r ∈ rs, ∀ x l, r.iri? settings.scope = some x → r.AnnotatesLabel settings.scope l →
        ∃ r' ∈ rs, r'.iri? settings.scope = some x ∧ r'.label = some l) := by
  intro rs
  have carried (l : String) (x : Iri) : x ∈ c.labels.carriers l ↔
      ∃ r ∈ rs, r.iri? settings.scope = some x ∧ r.label = some l := mem_carriers_ofTables h
  have labelled (l : String) (x : Iri) : c.ontology.IsLabelled x l ↔ x ∈ c.labels.carriers l ∨
      ∃ r ∈ rs, r.iri? settings.scope = some x ∧ r.AnnotatesLabel settings.scope l := by
    rw [isLabelled_iff hs h, carried]
    simp only [and_or_left, exists_or]
    rfl
  refine ⟨carried, labelled, fun name l x => ?_, fun same r hr x l about annotated => ?_,
    fun each l x => ?_⟩
  · rw [Catalog.mem_carriers_labels]
    simp only [Ontologies.mem_all_insert_empty, exists_eq_left]
  · rw [← carried, same, labelled]
    exact .inr ⟨r, hr, about, annotated⟩
  · rw [labelled]
    refine (or_iff_left_of_imp ?_).symm
    rintro ⟨r, hr, about, annotated⟩
    exact (carried l x).2 (each r hr x l about annotated)

/-- A class with a label in an annotation, and a class below it. -/
def belowAnnotated : List TermRecord :=
  let labelled : TermRecord := { id := "<urn:a>", kind := .cls, provenance := ⟨"t.csv", 2⟩ }
  let below : TermRecord := { id := "<urn:b>", kind := .cls, provenance := ⟨"t.csv", 3⟩ }
  [labelled.annotate "rdfs:label" { value := "alpha" }, below.setCell .parent "'alpha'"]

/-- The label is found in the ontology as a source, and it comes from an annotation. -/
theorem labels_exact_annotated :
    exampleSettings.scope.IsRead ∧
    ∃ c, ofTables exampleSettings ∅ [⟨"t.csv", belowAnnotated⟩] = .ok c ∧
      ⟨"urn:a"⟩ ∈ (Catalog.labels (Std.TreeMap.empty.insert "o" c.ontology)).carriers "alpha" ∧
      ∃ r ∈ belowAnnotated, r.iri? exampleSettings.scope = some ⟨"urn:a"⟩ ∧
        r.AnnotatesLabel exampleSettings.scope "alpha" := by
  obtain ⟨c, hc, labels⟩ : ∃ c, ofTables exampleSettings ∅ [⟨"t.csv", belowAnnotated⟩] = .ok c ∧
      c.ontology.labels = [(⟨"urn:a"⟩, .plain "alpha")] :=
    exists_of_toOption_map (by decide +kernel)
  obtain ⟨carried, labelled, source, -⟩ := labels_exact isRead_exampleSettings hc
  have stated : (⟨"urn:a"⟩, .plain "alpha") ∈ c.ontology.labels := by simp [labels]
  have known : c.ontology.IsLabelled ⟨"urn:a"⟩ "alpha" := ⟨_, Ontology.mem_labels.1 stated, rfl⟩
  refine ⟨isRead_exampleSettings, c, hc, (source "o" _ _).2 known, ?_⟩
  refine ((labelled _ _).1 known).resolve_left fun column => ?_
  -- neither of the two records has a label in its own column
  obtain ⟨r, hr, -, label⟩ := (carried _ _).1 column
  exact absurd label ((by decide : ∀ r ∈ belowAnnotated, r.label ≠ some "alpha") r hr)

/-- The class below is not related to the one that the ontology labels. -/
theorem annotated_label_unknown :
    ∃ c, ofTables exampleSettings ∅ [⟨"t.csv", belowAnnotated⟩] = .ok c ∧
      c.ontology.IsLabelled ⟨"urn:a"⟩ "alpha" ∧ ⟨"urn:a"⟩ ∉ c.labels.carriers "alpha" ∧
      c.report.map (fun e => (e.problem, e.provenance)) =
        [(.unresolvedReference, some ⟨"t.csv", 3⟩)] := by
  obtain ⟨c, hc, facts⟩ : ∃ c, ofTables exampleSettings ∅ [⟨"t.csv", belowAnnotated⟩] = .ok c ∧
      ((c.ontology.labels, (c.labels.carriers "alpha").toList),
        c.report.map fun e => (e.problem, e.provenance)) =
          (([(⟨"urn:a"⟩, .plain "alpha")], []), [(.unresolvedReference, some ⟨"t.csv", 3⟩)]) :=
    exists_of_toOption_map (by decide +kernel)
  simp only [Prod.mk.injEq] at facts
  obtain ⟨⟨labels, carriers⟩, report⟩ := facts
  have stated : (⟨"urn:a"⟩, .plain "alpha") ∈ c.ontology.labels := by simp [labels]
  refine ⟨c, hc, ⟨_, Ontology.mem_labels.1 stated, rfl⟩, fun known => ?_, report⟩
  simp [← Std.TreeSet.mem_toList, carriers] at known

end Compilation

end TabularOntology
