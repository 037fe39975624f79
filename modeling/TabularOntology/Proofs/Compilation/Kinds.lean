import TabularOntology.Proofs.Compilation.Order

/-! What compiled tables declare. A record declares its term as its own kind, and it declares the
properties it is annotated with as annotation properties. Only the former is compared with what
other records say, and so a term of any kind that serves as an annotation property as well ends up
with two kinds. -/

namespace TabularOntology

/-! ### Declarations and their keys -/

/-- The words of axioms, of which one is that of declarations. -/
theorem Axiom.exists_word (a : Axiom) : ∃ word args, a.form = .node word args ∧ isWord word ∧
    (word = "Declaration" → ∃ kind x, a = .declaration kind x) := by
  cases a with
  | declaration kind x => exact ⟨_, _, rfl, isWord_ofList (by decide), fun _ => ⟨kind, x, rfl⟩⟩
  | characteristic c p =>
    have word : isWord c.word := by cases c <;> exact isWord_ofList (by decide)
    refine ⟨_, _, rfl, isWord_append word (isWord_ofList (by decide)), fun h => ?_⟩
    cases c <;> exact absurd h (by decide)
  | _ => exact ⟨_, _, rfl, isWord_ofList (by decide), nofun⟩

/-- A word applied to one argument. -/
theorem Form.node_text_inj {v w : String} {f g : Form} (hv : isWord v) (hw : isWord w)
    (h : (Form.node v [f]).text = (Form.node w [g]).text) : v = w ∧ f.text = g.text := by
  rw [← String.toList_inj, toList_text_node, toList_text_node, toList_join, toList_join] at h
  obtain ⟨words, h⟩ := word_append_inj hv hw h
  refine ⟨words, String.toList_inj.1 ?_⟩
  simpa [spaced] using h

/-- Declarations are known by their keys, whatever the names are. -/
theorem Axiom.eq_declaration {a : Axiom} {kind : EntityKind} {x : Iri}
    (h : a.key = (declaration kind x).key) : a = .declaration kind x := by
  have declaring : isWord "Declaration" := isWord_ofList (by decide)
  have keyword (kind : EntityKind) : isWord kind.keyword := by
    cases kind <;> exact isWord_ofList (by decide)
  obtain ⟨word, args, form, hw, only⟩ := a.exists_word
  have texts : (Form.node word args).text.toList = (declaration kind x).form.text.toList := by
    rw [← form]
    exact congrArg String.toList h
  rw [Axiom.form, Form.toList_text_node, Form.toList_text_node] at texts
  obtain ⟨kind', y, rfl⟩ := only (word_append_inj hw declaring texts).1
  obtain ⟨-, inner⟩ := Form.node_text_inj declaring declaring h
  obtain ⟨kinds, names⟩ := Form.node_text_inj (keyword kind') (keyword kind) inner
  rw [EntityKind.keyword_inj.1 kinds, Iri.bracketed_inj.1 names]

/-- A declaration is never kept out by another axiom. -/
theorem Ontology.declaration_mem_insertAll {o : Ontology} {as : List Axiom} {kind : EntityKind}
    {x : Iri} : .declaration kind x ∈ (o.insertAll as).axioms ↔
      .declaration kind x ∈ o.axioms ∨ .declaration kind x ∈ as := by
  rw [← List.mem_append]
  refine ⟨fun h => axioms_insertAll_subset h, fun h => ?_⟩
  exact mem_axioms_insertAll_of_key h fun b _ same => Axiom.eq_declaration same

/-! ### What cells state -/

/-- The axioms that cells may state: neither declarations nor annotations. -/
def Axiom.isStatement : Axiom → Bool
  | .declaration .. | .annotationAssertion .. => false
  | _ => true

namespace CellScope

variable {s : CellScope} {iri p : Iri} {source : Individual} {value : String} {a : Axiom}
variable {column : Column} {state : String → Except RecordError Axiom}

theorem isStatement_readRelation (ha : s.readRelation source value = .ok a) : a.isStatement := by
  obtain ⟨⟨fact, p⟩, _, ha⟩ := bind_eq_ok.1 ha
  dsimp only at ha
  split at ha
  · cases ha
  · obtain ⟨target, _, ha⟩ := bind_eq_ok.1 ha
    cases ha
    split <;> rfl

theorem isStatement_readDataFact (ha : s.readDataFact source value = .ok a) : a.isStatement := by
  obtain ⟨⟨fact, p⟩, _, ha⟩ := bind_eq_ok.1 ha
  dsimp only at ha
  split at ha
  · cases ha
  · obtain ⟨target, _, ha⟩ := bind_eq_ok.1 ha
    cases ha
    split <;> rfl

theorem isStatement_readDataCharacteristic (ha : readDataCharacteristic p value = .ok a) :
    a.isStatement := by
  obtain ⟨c, _, ha⟩ := bind_eq_ok.1 ha
  split at ha
  · cases ha
    rfl
  · cases ha

theorem isStatement_ofInverseObjectProperties (p q : Iri) :
    (Axiom.ofInverseObjectProperties p q).isStatement := by
  unfold Axiom.ofInverseObjectProperties
  split <;> rfl

theorem isStatement_of_map {α : Type} {e : Except RecordError α} {f : α → Axiom}
    (hf : ∀ c, (f c).isStatement) (ha : e.map f = .ok a) : a.isStatement := by
  obtain ⟨c, -, rfl⟩ := map_eq_ok.1 ha
  exact hf c

theorem isStatement_classStatement (hs : s.classStatement iri column = some state)
    (ha : state value = .ok a) : a.isStatement := by
  cases column with
  | parent | children | equivalent | disjoint =>
    cases hs
    exact isStatement_of_map (fun _ => rfl) ha
  | domain | range | inverse | characteristics | instanceOf | relations | dataFacts => cases hs

theorem isStatement_objectPropertyStatement (hs : s.objectPropertyStatement p column = some state)
    (ha : state value = .ok a) : a.isStatement := by
  cases column with
  | parent | children | equivalent | disjoint | domain | range =>
    cases hs
    exact isStatement_of_map (fun _ => rfl) ha
  | characteristics =>
    obtain rfl := Option.some.inj hs
    exact isStatement_of_map (fun _ => rfl) ha
  | inverse =>
    cases hs
    exact isStatement_of_map (isStatement_ofInverseObjectProperties p) ha
  | instanceOf | relations | dataFacts => cases hs

theorem isStatement_dataPropertyStatement (hs : s.dataPropertyStatement p column = some state)
    (ha : state value = .ok a) : a.isStatement := by
  cases column with
  | parent | children | equivalent | disjoint | domain | range =>
    cases hs
    exact isStatement_of_map (fun _ => rfl) ha
  | characteristics =>
    obtain rfl := Option.some.inj hs
    exact isStatement_readDataCharacteristic ha
  | inverse | instanceOf | relations | dataFacts => cases hs

theorem isStatement_annotationPropertyStatement
    (hs : s.annotationPropertyStatement p column = some state) (ha : state value = .ok a) :
    a.isStatement := by
  cases column with
  | parent | children =>
    cases hs
    exact isStatement_of_map (fun _ => rfl) ha
  | equivalent | disjoint | domain | range | inverse | characteristics | instanceOf | relations
  | dataFacts => cases hs

theorem isStatement_individualStatement (hs : s.individualStatement iri column = some state)
    (ha : state value = .ok a) : a.isStatement := by
  cases column with
  | parent | instanceOf =>
    cases hs
    exact isStatement_of_map (fun _ => rfl) ha
  | relations =>
    cases hs
    exact isStatement_readRelation ha
  | dataFacts =>
    cases hs
    exact isStatement_readDataFact ha
  | children | equivalent | disjoint | domain | range | inverse | characteristics => cases hs

/-- The values of cells state something of terms; they neither declare nor annotate them. -/
theorem isStatement_of_mem_outcomes {r : TermRecord} (ha : .ok a ∈ s.outcomes iri r) :
    a.isStatement := by
  obtain ⟨column, state, value, hs, ha⟩ := exists_of_mem_outcomes ha
  cases kind : r.kind with
  | cls => exact isStatement_classStatement (kind ▸ hs) ha
  | objectProperty => exact isStatement_objectPropertyStatement (kind ▸ hs) ha
  | dataProperty => exact isStatement_dataPropertyStatement (kind ▸ hs) ha
  | annotationProperty => exact isStatement_annotationPropertyStatement (kind ▸ hs) ha
  | individual => exact isStatement_individualStatement (kind ▸ hs) ha

end CellScope

/-! ### What records declare -/

/-- The record is annotated with a property that has to be declared for it. -/
def TermRecord.AnnotatesWith (r : TermRecord) (scope : IdentifierScope) (p : Iri) : Prop :=
  (r.iri? scope).isSome ∧ (r.definition.isSome ∧ p = Vocabulary.definition ∨
    ∃ key ∈ r.annotations, Declaration.property scope key = .ok p ∧ Vocabulary.isBuiltin p = false)

namespace Declaration

variable {scope : IdentifierScope} {iri x : Iri} {key : String} {texts : List AnnotationText}
variable {as : List Axiom} {r : TermRecord} {kind : EntityKind}

theorem declaration_mem_annotationAxioms (h : annotationAxioms scope iri key texts = .ok as) :
    .declaration kind x ∈ as ↔ kind = .annotationProperty ∧ property scope key = .ok x ∧
      Vocabulary.isBuiltin x = false := by
  obtain ⟨p, hp, h⟩ := bind_eq_ok.1 h
  obtain ⟨values, _, h⟩ := bind_eq_ok.1 h
  cases h
  rw [hp, Except.ok.injEq]
  by_cases builtin : Vocabulary.isBuiltin p
  · simp only [builtin, if_true, List.nil_append, List.mem_map, reduceCtorEq, and_false,
      exists_false, false_iff]
    rintro ⟨-, rfl, free⟩
    simp [builtin] at free
  · have free : Vocabulary.isBuiltin p = false := Bool.eq_false_iff.2 builtin
    simp only [free, Bool.false_eq_true, if_false, List.mem_append, List.mem_singleton,
      Axiom.declaration.injEq, List.mem_map, reduceCtorEq, and_false, exists_false, or_false]
    refine and_congr_right fun _ => ⟨?_, fun h => h.1.symm⟩
    rintro rfl
    exact ⟨rfl, free⟩

theorem declaration_mem_textAxioms : .declaration kind x ∈ textAxioms iri r ↔
    kind = .annotationProperty ∧ r.definition.isSome ∧ x = Vocabulary.definition := by
  unfold textAxioms
  cases r.definition <;> simp

theorem declaration_mem_ofRecord (h : ofRecord scope r = .ok (iri, as)) :
    .declaration kind x ∈ as ↔ iri = x ∧ r.kind = kind ∨ kind = .annotationProperty ∧
      (r.definition.isSome ∧ x = Vocabulary.definition ∨ ∃ key ∈ r.annotations,
        property scope key = .ok x ∧ Vocabulary.isBuiltin x = false) := by
  obtain ⟨iri, _, h⟩ := bind_eq_ok.1 h
  obtain ⟨annotations, hannotations, h⟩ := bind_eq_ok.1 h
  cases h
  have annotating : .declaration kind x ∈ annotations.flatten ↔ kind = .annotationProperty ∧
      ∃ key ∈ r.annotations, property scope key = .ok x ∧ Vocabulary.isBuiltin x = false := by
    rw [List.mem_flatten]
    constructor
    · rintro ⟨as, has, hx⟩
      obtain ⟨⟨key, texts⟩, entry, made⟩ := exists_of_mem_mapM hannotations has
      obtain ⟨kinds, named⟩ := (declaration_mem_annotationAxioms made).1 hx
      have listed : key ∈ r.annotations := by
        rw [Std.TreeMap.mem_iff_isSome_getElem?,
          Std.TreeMap.mem_toList_iff_getElem?_eq_some.1 entry]
        rfl
      exact ⟨kinds, key, listed, named⟩
    · rintro ⟨kinds, key, hkey, named⟩
      obtain ⟨texts, entry⟩ := Option.isSome_iff_exists.1
        (Std.TreeMap.mem_iff_isSome_getElem?.1 hkey)
      obtain ⟨as, has, made⟩ := exists_mem_mapM hannotations
        (Std.TreeMap.mem_toList_iff_getElem?_eq_some.2 entry)
      exact ⟨as, has, (declaration_mem_annotationAxioms made).2 ⟨kinds, named⟩⟩
  rw [List.cons_append, List.mem_cons, List.mem_append, declaration_mem_textAxioms, annotating,
    ← and_or_left, Axiom.declaration.injEq, and_comm, eq_comm, @eq_comm _ kind]

end Declaration

theorem TermRecord.declaration_mem_declaredAxioms {r : TermRecord} {scope : IdentifierScope}
    {kind : EntityKind} {x : Iri} : .declaration kind x ∈ r.declaredAxioms scope ↔
      r.iri? scope = some x ∧ r.kind = kind ∨
        kind = .annotationProperty ∧ r.AnnotatesWith scope x := by
  cases declared : Declaration.ofRecord scope r with
  | error e =>
    rw [declaredAxioms_of_error declared, AnnotatesWith, iri?_of_error declared]
    simp
  | ok known =>
    obtain ⟨iri, as⟩ := known
    rw [declaredAxioms_of_ok declared, AnnotatesWith, iri?_of_ok declared, Option.some.injEq,
      Option.isSome_some, and_iff_right rfl]
    exact Declaration.declaration_mem_ofRecord declared

/-! ### Compiled tables -/

namespace Compilation

variable {c : Compilation} {settings : Settings} {catalog : Catalog} {ts : List Table}
variable {kind : EntityKind} {x : Iri}

/-- A term is declared as the kinds of its records, and as an annotation property if some record is
annotated with it. -/
theorem mem_declaredKinds (h : ofTables settings catalog ts = .ok c) :
    kind ∈ c.ontology.declaredKinds x ↔
      (∃ r ∈ ts.flatMap Table.records, r.iri? settings.scope = some x ∧ r.kind = kind) ∨
        kind = .annotationProperty ∧
          ∃ r ∈ ts.flatMap Table.records, r.AnnotatesWith settings.scope x := by
  obtain ⟨d, finished⟩ := exists_finishes h
  have cells : ¬ ∃ r ∈ d.records, .ok (.declaration kind x) ∈ d.cellsOf settings catalog r := by
    rintro ⟨r, _, hr⟩
    exact absurd (CellScope.isStatement_of_mem_outcomes hr) (by simp [Axiom.isStatement])
  rw [Ontology.mem_declaredKinds, finished.ontology, Ontology.declaration_mem_insertAll,
    axioms_start, or_iff_right List.not_mem_nil, mem_stated, or_iff_left cells]
  simp only [TermRecord.declaration_mem_declaredAxioms, and_or_left, exists_or, and_left_comm,
    exists_and_left]

/-- The kinds of a term in a compiled ontology. There is one at most, unless some record declares
the term as anything but an annotation property while some record is annotated with it. -/
theorem declaredKinds_exact (h : ofTables settings catalog ts = .ok c) (x : Iri) :
    let rs := ts.flatMap Table.records
    (∀ kind, kind ∈ c.ontology.declaredKinds x ↔
      (∃ r ∈ rs, r.iri? settings.scope = some x ∧ r.kind = kind) ∨
        kind = .annotationProperty ∧ ∃ r ∈ rs, r.AnnotatesWith settings.scope x) ∧
    ((∀ k ∈ c.ontology.declaredKinds x, ∀ k' ∈ c.ontology.declaredKinds x, k = k') ↔
      ∀ r ∈ rs, r.iri? settings.scope = some x → r.kind ≠ .annotationProperty →
        ∀ r' ∈ rs, ¬ r'.AnnotatesWith settings.scope x) := by
  intro rs
  have succeeds : (ofTables settings catalog ts).isOk := by
    rw [h]
    rfl
  have agree : Agree settings.scope rs := isOk_ofTables.1 succeeds
  refine ⟨fun _ => mem_declaredKinds h, fun one r hr about other r' hr' annotates => ?_,
    fun apart k hk k' hk' => ?_⟩
  · have own : r.kind ∈ c.ontology.declaredKinds x :=
      (mem_declaredKinds h).2 (.inl ⟨r, hr, about, rfl⟩)
    have property : .annotationProperty ∈ c.ontology.declaredKinds x :=
      (mem_declaredKinds h).2 (.inr ⟨rfl, r', hr', annotates⟩)
    exact other (one _ own _ property)
  · have only {kind} (hkind : kind ∈ c.ontology.declaredKinds x)
        (annotating : ∃ r ∈ rs, r.AnnotatesWith settings.scope x) :
        kind = .annotationProperty := by
      obtain ⟨r', hr', annotates⟩ := annotating
      rcases (mem_declaredKinds h).1 hkind with ⟨r, hr, about, rfl⟩ | ⟨kind, _⟩
      · exact not_not.1 fun other => apart r hr about other r' hr' annotates
      · exact kind
    rcases (mem_declaredKinds h).1 hk with ⟨r, hr, about, rfl⟩ | ⟨rfl, annotating⟩
    · rcases (mem_declaredKinds h).1 hk' with ⟨r', hr', about', rfl⟩ | ⟨rfl, annotating⟩
      · exact (agree r hr r' hr' x about about').1
      · exact only hk annotating
    · exact (only hk' annotating).symm

/-- A class, and another one that is annotated with it. -/
def annotatedWithClass : List TermRecord :=
  [{ id := "<urn:a>", kind := .cls, provenance := ⟨"t.csv", 2⟩ },
    TermRecord.annotate { id := "<urn:b>", kind := .cls, provenance := ⟨"t.csv", 3⟩ } "<urn:a>"
      { value := "x" }]

/-- Nothing is annotated with the other class, since that has one kind. -/
theorem declaredKinds_exact_free :
    ∃ c, ofTables exampleSettings ∅ [⟨"t.csv", annotatedWithClass⟩] = .ok c ∧
      c.ontology.declaredKinds ⟨"urn:b"⟩ = [.cls] ∧
      ∀ r ∈ annotatedWithClass, ¬ r.AnnotatesWith exampleSettings.scope ⟨"urn:b"⟩ := by
  obtain ⟨c, hc, kinds⟩ : ∃ c, ofTables exampleSettings ∅ [⟨"t.csv", annotatedWithClass⟩] = .ok c ∧
      c.ontology.declaredKinds ⟨"urn:b"⟩ = [.cls] := exists_of_toOption_map (by decide +kernel)
  have one : ∀ k ∈ c.ontology.declaredKinds ⟨"urn:b"⟩, ∀ k' ∈ c.ontology.declaredKinds ⟨"urn:b"⟩,
      k = k' := by simp [kinds]
  have about : annotatedWithClass[1].iri? exampleSettings.scope = some ⟨"urn:b"⟩ := by
    decide +kernel
  have records := (declaredKinds_exact hc ⟨"urn:b"⟩).2.1 one _ (List.getElem_mem _) about
    (by decide)
  exact ⟨c, hc, kinds, records⟩

/-- The class that another one is annotated with has two kinds. -/
theorem two_kinds : ∃ c, ofTables exampleSettings ∅ [⟨"t.csv", annotatedWithClass⟩] = .ok c ∧
    c.ontology.declaredKinds ⟨"urn:a"⟩ = [.cls, .annotationProperty] :=
  exists_of_toOption_map (by decide +kernel)

end Compilation

end TabularOntology
