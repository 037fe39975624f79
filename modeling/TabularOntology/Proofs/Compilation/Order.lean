import TabularOntology.Proofs.Compilation.Cells
import TabularOntology.Proofs.Compilation.Declared
import TabularOntology.Proofs.Key.Injective
import TabularOntology.Proofs.Ontology.Members
import TabularOntology.Proofs.Signature

/-! Compilation does not depend on the order of the records, nor on how they are spread over
tables or how often they are repeated. The first pass knows what the set of records says, the
second one reads each cell against that, and so the axioms that are put into the ontology
are the same ones. An ontology keeps one axiom for each key, so the order could still show
in which of two axioms with one key is kept; axioms with plain names leave no such choice. -/

namespace TabularOntology

/-! ### The same records -/

/-- Lists that hold the same records but for their places. -/
structure SameRecords (rs rs' : List TermRecord) : Prop where
  left : ∀ r ∈ rs, ∃ r' ∈ rs', r.Same r'
  right : ∀ r' ∈ rs', ∃ r ∈ rs, r'.Same r

namespace SameRecords

variable {rs rs' : List TermRecord} {scope : IdentifierScope}

theorem symm (h : SameRecords rs rs') : SameRecords rs' rs := ⟨h.right, h.left⟩

theorem exists_iff (h : SameRecords rs rs') {p : TermRecord → Prop}
    (hp : ∀ r r', r.Same r' → p r → p r') : (∃ r ∈ rs, p r) ↔ ∃ r ∈ rs', p r := by
  constructor
  · rintro ⟨r, hr, known⟩
    obtain ⟨r', hr', same⟩ := h.left r hr
    exact ⟨r', hr', hp r r' same known⟩
  · rintro ⟨r', hr', known⟩
    obtain ⟨r, hr, same⟩ := h.right r' hr'
    exact ⟨r, hr, hp r' r same known⟩

theorem agree (h : SameRecords rs rs') (agree : Agree scope rs) : Agree scope rs' := by
  intro r hr r' hr' x hx hx'
  obtain ⟨q, hq, same⟩ := h.right r hr
  obtain ⟨q', hq', same'⟩ := h.right r' hr'
  rw [same.iri?] at hx
  rw [same'.iri?] at hx'
  rw [same.kind, same'.kind, same.label, same'.label]
  exact agree q hq q' hq' x hx hx'

end SameRecords

/-- The settings of a build have a base that was read. -/
theorem Config.isRead_settings {config : Config} {settings : Settings}
    (h : config.settings = .ok settings) : settings.scope.IsRead := by
  unfold Config.settings at h
  dsimp only at h
  split at h
  · cases h
  split at h
  · cases h
  split at h
  · next base read =>
    rw [ok_bind] at h
    split at h
    · obtain ⟨prefixes, _, h⟩ := bind_eq_ok.1 h
      obtain ⟨ontologyIri, _, h⟩ := bind_eq_ok.1 h
      obtain ⟨versionIri, _, h⟩ := bind_eq_ok.1 h
      obtain ⟨moduleBase, _, h⟩ := bind_eq_ok.1 h
      cases h
      exact ⟨Text.trim config.baseIri, prefixes, by rw [IdentifierScope.ofBase, read]⟩
    · cases h
  · cases h

namespace Compilation

variable {c d : Compilation} {settings : Settings} {catalog : Catalog} {x : Iri} {a : Axiom}
variable {ts us : List Table} {rs rs' : List TermRecord} {o o' : Ontology}

/-! ### The second pass -/

/-- The cells of a record, read against what is known. -/
def cellsOf (c : Compilation) (settings : Settings) (catalog : Catalog) (r : DeclaredRecord) :
    List (Except RecordError Axiom) :=
  (c.cellScope settings catalog catalog.labels r).outcomes r.iri r.record

theorem foldl_warn_unchanged (c : Compilation) (provenance : Provenance) (es : List RecordError) :
    let d := es.foldl (fun c e => c.warn e.problem e.message provenance) c
    d.terms = c.terms ∧ d.labels = c.labels ∧ d.tables = c.tables ∧ d.ontology = c.ontology := by
  refine List.foldlRecOn es _ (motive := fun d : Compilation => d.terms = c.terms ∧
    d.labels = c.labels ∧ d.tables = c.tables ∧ d.ontology = c.ontology) ⟨rfl, rfl, rfl, rfl⟩ ?_
  intro d h e _
  exact h

theorem enterOutcomes_changes (c : Compilation) (provenance : Provenance)
    (os : List (Except RecordError Axiom)) :
    let d := c.enterOutcomes provenance os
    d.terms = c.terms ∧ d.labels = c.labels ∧ d.tables = c.tables ∧
      d.ontology = c.ontology.insertAll (outcomeAxioms os) := by
  obtain ⟨terms, labels, tables⟩ := emitAll_unchanged c provenance (outcomeAxioms os)
  obtain ⟨terms', labels', tables', ontology⟩ := foldl_warn_unchanged
    (c.emitAll provenance (outcomeAxioms os)) provenance (outcomeErrors os)
  exact ⟨terms'.trans terms, labels'.trans labels, tables'.trans tables,
    ontology.trans (ontology_emitAll _ _ _)⟩

/-- The second pass adds what the cells of all records amount to, and nothing else. -/
theorem readCells_changes (c : Compilation) (settings : Settings) (catalog : Catalog) :
    let d := c.readCells settings catalog
    d.terms = c.terms ∧ d.labels = c.labels ∧ d.tables = c.tables ∧ d.ontology =
      c.ontology.insertAll
        (c.records.flatMap fun r => outcomeAxioms (c.cellsOf settings catalog r)) := by
  have run (read : List (DeclaredRecord × List (Except RecordError Axiom))) (d : Compilation) :
      let e := read.foldl (fun c r => c.enterOutcomes r.1.record.provenance r.2) d
      e.terms = d.terms ∧ e.labels = d.labels ∧ e.tables = d.tables ∧
        e.ontology = d.ontology.insertAll (read.flatMap fun r => outcomeAxioms r.2) := by
    induction read generalizing d with
    | nil => exact ⟨rfl, rfl, rfl, rfl⟩
    | cons r read ih =>
      obtain ⟨terms, labels, tables, ontology⟩ := enterOutcomes_changes d r.1.record.provenance r.2
      obtain ⟨terms', labels', tables', ontology'⟩ := ih (d.enterOutcomes r.1.record.provenance r.2)
      refine ⟨terms'.trans terms, labels'.trans labels, tables'.trans tables, ?_⟩
      rw [List.flatMap_cons, insertAll_append, ← ontology]
      exact ontology'
  have all := run (c.records.map fun r => (r, c.cellsOf settings catalog r)) c
  rwa [List.flatMap_map] at all

theorem records_readCells (c : Compilation) (settings : Settings) (catalog : Catalog) :
    (c.readCells settings catalog).records = c.records :=
  congrArg List.flatten (c.readCells_changes settings catalog).2.2.1

/-! ### A finished compilation -/

theorem axioms_start (ontologyIri : Iri) (versionIri : Option Iri) :
    (start ontologyIri versionIri).ontology.axioms = [] :=
  Ontology.axioms_empty

/-- The axioms that records state, once all of them are declared. -/
def stated (c : Compilation) (settings : Settings) (catalog : Catalog) (rs : List TermRecord) :
    List Axiom :=
  rs.flatMap (·.declaredAxioms settings.scope) ++
    c.records.flatMap fun r => outcomeAxioms (c.cellsOf settings catalog r)

theorem mem_outcomeAxioms {os : List (Except RecordError Axiom)} :
    a ∈ outcomeAxioms os ↔ .ok a ∈ os := by
  rw [outcomeAxioms, List.mem_filterMap]
  constructor
  · rintro ⟨x, hx, ha⟩
    rwa [mem_toOption.1 ha] at hx
  · exact fun ha => ⟨_, ha, rfl⟩

theorem mem_stated : a ∈ c.stated settings catalog rs ↔
    (∃ r ∈ rs, a ∈ r.declaredAxioms settings.scope) ∨
      ∃ r ∈ c.records, .ok a ∈ c.cellsOf settings catalog r := by
  simp only [stated, List.mem_append, List.mem_flatMap, mem_outcomeAxioms]

/-- A compilation that succeeds: the records were declared, and the ontology has what they
state. -/
structure Finishes (settings : Settings) (catalog : Catalog) (rs : List TermRecord)
    (d c : Compilation) : Prop where
  declares :
    Declares settings.scope (start settings.ontologyIri settings.versionIri).ontology rs d
  terms : c.terms = d.terms
  labels : c.labels = d.labels
  ontology : c.ontology = (start settings.ontologyIri settings.versionIri).ontology.insertAll
    (d.stated settings catalog rs)

theorem finishes_readCells (passed : (start settings.ontologyIri settings.versionIri).declareTables
    settings.scope ts = (d, none)) (catalog : Catalog) :
    Finishes settings catalog (ts.flatMap Table.records) d (d.readCells settings catalog) := by
  have declares := ((declares_start settings.ontologyIri settings.versionIri).declareTables
    passed).1 rfl
  obtain ⟨terms, labels, _, ontology⟩ := d.readCells_changes settings catalog
  refine ⟨declares, terms, labels, ?_⟩
  rw [ontology, stated, insertAll_append, declares.ontology]
  rfl

theorem exists_finishes (h : ofTables settings catalog ts = .ok c) :
    ∃ d, Finishes settings catalog (ts.flatMap Table.records) d c := by
  obtain ⟨d, passed, rfl⟩ := ofTables_eq_ok.1 h
  exact ⟨d, finishes_readCells passed catalog⟩

theorem Finishes.axioms_subset (h : Finishes settings catalog rs d c) :
    c.ontology.axioms ⊆ d.stated settings catalog rs := by
  rw [h.ontology, ← List.nil_append (d.stated settings catalog rs),
    ← axioms_start settings.ontologyIri settings.versionIri]
  exact Ontology.axioms_insertAll_subset

/-- A compilation succeeds just if no two records of one term say different things. -/
theorem isOk_ofTables : (ofTables settings catalog ts).isOk ↔
    Agree settings.scope (ts.flatMap Table.records) := by
  unfold ofTables
  split
  · next d conflict stopped =>
    refine iff_of_false (by simp [Except.isOk, Except.toBool]) ?_
    exact ((declares_start settings.ontologyIri settings.versionIri).declareTables stopped).2 nofun
  · next d passed =>
    refine iff_of_true (by simp [Except.isOk, Except.toBool]) ?_
    exact (((declares_start settings.ontologyIri settings.versionIri).declareTables passed).1
      rfl).agree

/-! ### Two compilations of the same records -/

section Declared
variable {scope : IdentifierScope} (same : SameRecords rs rs')
variable (hc : Declares scope o rs c) (hd : Declares scope o' rs' d)

include same hc hd

theorem kind?_eq (x : Iri) : c.kind? x = d.kind? x := by
  refine Option.ext fun k => ?_
  rw [hc.kind, hd.kind]
  refine same.exists_iff fun r r' h => ?_
  rw [h.iri?, h.kind]
  exact id

theorem label?_eq (x : Iri) : c.label? x = d.label? x := by
  refine Option.ext fun l => ?_
  rw [hc.label, hd.label]
  refine same.exists_iff fun r r' h => ?_
  rw [h.iri?, h.label]
  exact id

theorem mem_carriers_iff (l : String) (x : Iri) :
    x ∈ c.labels.carriers l ↔ x ∈ d.labels.carriers l := by
  rw [hc.carriers, hd.carriers, label?_eq same hc hd]

/-- References and kinds do not depend on the order in which the records were declared. -/
theorem agrees_cellScope (r r' : DeclaredRecord) :
    (c.cellScope settings catalog catalog.labels r).Agrees
      (d.cellScope settings catalog catalog.labels r') where
  term t := by
    have carriers (space : Option String) (l : String) : settings.scope.carriers c.labels space l =
        settings.scope.carriers d.labels space l := by
      unfold IdentifierScope.carriers
      rw [Signature.toList_eq_of_forall_mem (mem_carriers_iff same hc hd l)]
    have candidates (space : Option String) (l : String) :
        (ReferenceScope.mk settings.scope c.labels catalog.labels).candidates space l =
          (ReferenceScope.mk settings.scope d.labels catalog.labels).candidates space l := by
      unfold ReferenceScope.candidates
      simp only [carriers]
    change ReferenceScope.resolve _ t = ReferenceScope.resolve _ t
    cases t with
    | label space l =>
      unfold ReferenceScope.resolve
      simp only [cellScope, candidates]
    | _ => rfl
  kind x := congrArg (· <|> catalog.kindOf? x) (kind?_eq same hc hd x)
  depth := rfl

end Declared

/-- What the records of one compilation state, those of the other state as well. -/
theorem mem_stated_of_same (same : SameRecords rs rs') (hc : Declares settings.scope o rs c)
    (hd : Declares settings.scope o' rs' d)
    (named : ∀ r ∈ rs, r.IsNamed settings.maxExpressionDepth)
    (ha : a ∈ c.stated settings catalog rs) : a ∈ d.stated settings catalog rs' := by
  rw [mem_stated] at ha ⊢
  rcases ha with ⟨r, hr, ha⟩ | ⟨⟨x, r, n⟩, filed, ha⟩
  · obtain ⟨r', hr', h⟩ := same.left r hr
    exact .inl ⟨r', hr', h.declaredAxioms settings.scope ▸ ha⟩
  · obtain ⟨hr, hx⟩ := (hc.records x r).1 ⟨n, filed⟩
    obtain ⟨r', hr', h⟩ := same.left r hr
    obtain ⟨m, filed'⟩ := (hd.records x r').2 ⟨hr', (h.iri? settings.scope).symm.trans hx⟩
    refine .inr ⟨_, filed', ?_⟩
    -- the numbers of the records differ, which only anonymous individuals would show
    have scopes : (c.cellScope settings catalog catalog.labels ⟨x, r, n⟩).Agrees
        (d.cellScope settings catalog catalog.labels ⟨x, r', m⟩) :=
      agrees_cellScope same hc hd _ _
    have cells : c.cellsOf settings catalog ⟨x, r, n⟩ = d.cellsOf settings catalog ⟨x, r', m⟩ :=
      (scopes.outcomes (named r hr)).trans (h.outcomes _ x)
    exact cells ▸ ha

/-- The terms that carry labels in the sources are plain. -/
def PlainLabels (catalog : Catalog) : Prop := ∀ o ∈ catalog.all, ∀ l ∈ o.labels, l.1.isPlain

theorem PlainLabels.isPlain_carrier (h : PlainLabels catalog) {l : String}
    (hx : x ∈ catalog.labels.carriers l) : x.isPlain := by
  obtain ⟨o, ho, hx⟩ := List.mem_flatMap.1 (Labels.mem_carriers_ofPairs.1 hx)
  obtain ⟨⟨y, literal⟩, hy, pair⟩ := List.mem_map.1 hx
  cases pair
  exact h o ho _ hy

theorem isPlain_of_mem_declaredAxioms (hs : settings.scope.IsRead) {r : TermRecord}
    (ha : a ∈ r.declaredAxioms settings.scope) : a.isPlain := by
  obtain ⟨x, as, known, ha⟩ := TermRecord.exists_of_mem_declaredAxioms ha
  exact (Declaration.isPlain_ofRecord hs known).2 a ha

/-- All that is stated is plain. -/
theorem isPlain_of_mem_stated (hs : settings.scope.IsRead) (hl : PlainLabels catalog)
    (hc : Declares settings.scope o rs c) (ha : a ∈ c.stated settings catalog rs) :
    a.isPlain := by
  have declared {x : Iri} {r : TermRecord} (hx : r.iri? settings.scope = some x) : x.isPlain := by
    obtain ⟨as, known⟩ := TermRecord.exists_of_iri? hx
    exact (Declaration.isPlain_ofRecord hs known).1
  rcases mem_stated.1 ha with ⟨r, _, ha⟩ | ⟨⟨x, r, n⟩, filed, ha⟩
  · exact isPlain_of_mem_declaredAxioms hs ha
  · have references : ReferenceScope.IsPlain ⟨settings.scope, c.labels, catalog.labels⟩ := by
      refine ⟨hs, fun l y hy => ?_, fun l y => hl.isPlain_carrier⟩
      obtain ⟨r, _, hy, _⟩ := (hc.label y l).1 ((hc.carriers l y).1 hy)
      exact declared hy
    have plain : x.isPlain := declared ((hc.records x r).1 ⟨n, filed⟩).2
    exact CellScope.isPlain_of_mem_outcomes references plain ha

/-- A finished compilation has what was stated, where keys tell it apart. -/
theorem Finishes.mem_axioms (h : Finishes settings catalog rs d c) (hs : settings.scope.IsRead)
    (hl : PlainLabels catalog) : a ∈ c.ontology.axioms ↔ a ∈ d.stated settings catalog rs := by
  have plain (b : Axiom) (hb : b ∈ d.stated settings catalog rs) : b.isPlain :=
    isPlain_of_mem_stated hs hl h.declares hb
  rw [h.ontology, Ontology.mem_axioms_insertAll, axioms_start]
  · simp
  · rw [axioms_start, List.nil_append]
    exact fun a ha b hb => Axiom.eq_of_key_eq (plain a ha) (plain b hb)

/-- What records declare is plain and comes first, so that all of it is kept. -/
theorem Finishes.mem_axioms_of_declared (h : Finishes settings catalog rs d c)
    (hs : settings.scope.IsRead) {r : TermRecord} (hr : r ∈ rs)
    (ha : a ∈ r.declaredAxioms settings.scope) : a ∈ c.ontology.axioms := by
  let declared := rs.flatMap (·.declaredAxioms settings.scope)
  have plain (b : Axiom) (hb : b ∈ declared) : b.isPlain := by
    obtain ⟨r, _, hb⟩ := List.mem_flatMap.1 hb
    exact isPlain_of_mem_declaredAxioms hs hb
  have distinct : DistinctKeys declared :=
    fun a ha b hb => Axiom.eq_of_key_eq (plain a ha) (plain b hb)
  rw [h.ontology, stated, insertAll_append]
  refine Ontology.axioms_subset_insertAll _ _ ((Ontology.mem_axioms_insertAll ?_).2
    (.inr (List.mem_flatMap.2 ⟨r, hr, ha⟩)))
  rwa [axioms_start]

theorem mem_externalSignature : x ∈ c.externalSignature ↔ x ∈ c.ontology.signature ∧
    c.terms.contains x = false ∧ c.ontology.declares x = false ∧
      Vocabulary.isBuiltin x = false := by
  simp [externalSignature, Std.TreeSet.mem_filter, and_assoc, and_left_comm]

/-! ### Order independence -/

/-- The entry of a term in the index of terms, but for its place. -/
def term? (c : Compilation) (x : Iri) : Option (EntityKind × Option String) :=
  (c.terms[x]?).map fun t => (t.kind, t.label)

/-- Compilations that know the same of terms and labels and whose axioms have the same keys. -/
structure SameKnowledge (c d : Compilation) : Prop where
  terms : ∀ x, c.term? x = d.term? x
  labels : ∀ l : String, (c.labels[l]?).map Std.TreeSet.toList =
    (d.labels[l]?).map Std.TreeSet.toList
  keys : c.ontology.keys = d.ontology.keys

/-- Compilations with the same axioms and the same external signature. -/
structure SameContent (c d : Compilation) : Prop where
  axioms : ∀ a, a ∈ c.ontology.axioms ↔ a ∈ d.ontology.axioms
  external : c.externalSignature.toList = d.externalSignature.toList

section Finished
variable {c' d' : Compilation} (same : SameRecords rs rs')
variable (hc : Finishes settings catalog rs c' c) (hd : Finishes settings catalog rs' d' d)
variable (named : ∀ r ∈ rs, r.IsNamed settings.maxExpressionDepth)

include same hc hd

theorem term?_eq (x : Iri) : c.term? x = d.term? x := by
  have kind := kind?_eq same hc.declares hd.declares x
  have label := label?_eq same hc.declares hd.declares x
  rw [kind?, kind?] at kind
  rw [label?, label?] at label
  rw [term?, term?, hc.terms, hd.terms]
  cases hx : c'.terms[x]? <;> cases hy : d'.terms[x]? <;> simp_all

include named

theorem mem_stated_iff :
    a ∈ c'.stated settings catalog rs ↔ a ∈ d'.stated settings catalog rs' := by
  refine ⟨mem_stated_of_same same hc.declares hd.declares named, ?_⟩
  refine mem_stated_of_same same.symm hd.declares hc.declares fun r hr => ?_
  obtain ⟨r', hr', h⟩ := same.right r hr
  exact h.symm.isNamed (named r' hr')

theorem sameKnowledge : SameKnowledge c d where
  terms := term?_eq same hc hd
  labels := by
    rw [hc.labels, hd.labels]
    exact hc.declares.carried.toList_eq hd.declares.carried
      (mem_carriers_iff same hc.declares hd.declares)
  keys := by
    refine Ontology.keys_eq_of_forall_mem fun k => ?_
    rw [hc.ontology, hd.ontology, Ontology.mem_keys_insertAll, Ontology.mem_keys_insertAll]
    simp only [mem_stated_iff same hc hd named]

theorem sameContent (hs : settings.scope.IsRead) (hl : PlainLabels catalog) :
    SameContent c d := by
  have axioms (a : Axiom) : a ∈ c.ontology.axioms ↔ a ∈ d.ontology.axioms := by
    rw [hc.mem_axioms hs hl, hd.mem_axioms hs hl, mem_stated_iff same hc hd named]
  refine ⟨axioms, Signature.toList_eq_of_forall_mem fun x => ?_⟩
  have mentioned : x ∈ c.ontology.signature ↔ x ∈ d.ontology.signature := by
    simp only [Ontology.mem_signature, axioms]
  have known : c.terms.contains x = d.terms.contains x := by
    have entries := congrArg Option.isSome (term?_eq same hc hd x)
    rwa [term?, term?, Option.isSome_map, Option.isSome_map, Std.TreeMap.isSome_getElem?_eq_contains,
      Std.TreeMap.isSome_getElem?_eq_contains] at entries
  rw [mem_externalSignature, mem_externalSignature, mentioned, known,
    Ontology.declares_congr axioms]

end Finished

/-- Compilation does not depend on the order of the records, on how they are spread over
tables or on repetitions: it succeeds for both lists of tables or for none, and what is known
of terms and labels and the keys of the axioms are the same. If the terms that carry labels in
the sources are plain, then so are the axioms and the external signature. -/
theorem ofTables_order_independent (settings : Settings) (catalog : Catalog) (ts us : List Table)
    (same : SameRecords (ts.flatMap Table.records) (us.flatMap Table.records))
    (named : ∀ r ∈ ts.flatMap Table.records, r.IsNamed settings.maxExpressionDepth) :
    ((ofTables settings catalog ts).isOk ↔ (ofTables settings catalog us).isOk) ∧
      ∀ c d, ofTables settings catalog ts = .ok c → ofTables settings catalog us = .ok d →
        SameKnowledge c d ∧
          (settings.scope.IsRead → PlainLabels catalog → SameContent c d) := by
  constructor
  · rw [isOk_ofTables, isOk_ofTables]
    exact ⟨same.agree, same.symm.agree⟩
  · intro c d hc hd
    obtain ⟨c', finished⟩ := exists_finishes hc
    obtain ⟨d', finished'⟩ := exists_finishes hd
    exact ⟨sameKnowledge same finished finished' named,
      sameContent same finished finished' named⟩

/-! ### A case, and one with names that are not plain -/

/-- The settings of a build with the base `http://example.org/`. -/
def exampleSettings : Settings where
  scope := ⟨"http://example.org/",
    ⟨"http".toList, some "example.org".toList, "/".toList, none, none⟩, Prefixes.standard⟩
  ontologyIri := ⟨"http://example.org/ontology.owl"⟩
  versionIri := none
  moduleBase := "http://example.org/imports/"
  maxExpressionDepth := Cell.defaultDepth

theorem isRead_exampleSettings : exampleSettings.scope.IsRead :=
  ⟨"http://example.org/", Prefixes.standard, rfl⟩

/-- A source with two labels. -/
def twoLabels (lower upper : Iri) : Catalog :=
  Std.TreeMap.empty.insert "source" (.ofAxioms
    [.annotationAssertion Vocabulary.label lower (.plain "lower"),
      .annotationAssertion Vocabulary.label upper (.plain "upper")])

/-- A class above the term that is labelled as lower. -/
def aboveLower (row : Nat) : TermRecord :=
  TermRecord.setCell { id := "<urn:z>", kind := .cls, provenance := ⟨"t.csv", row⟩ } .children
    "'lower'"

/-- A class below the term that is labelled as upper. -/
def belowUpper (row : Nat) : TermRecord :=
  TermRecord.setCell { id := "<urn:m>", kind := .cls, provenance := ⟨"t.csv", row⟩ } .parent
    "'upper'"

theorem same_aboveLower (m n : Nat) : (aboveLower m).Same (aboveLower n) :=
  ⟨rfl, rfl, rfl, rfl, rfl, rfl, rfl⟩

theorem same_belowUpper (m n : Nat) : (belowUpper m).Same (belowUpper n) :=
  ⟨rfl, rfl, rfl, rfl, rfl, rfl, rfl⟩

theorem isNamed_example : ∀ r ∈ [aboveLower 2, belowUpper 3],
    r.IsNamed exampleSettings.maxExpressionDepth := by decide +kernel

/-- Two records in two orders, once with a repetition in another table. -/
theorem ofTables_order_independent_repeated :
    let catalog := twoLabels ⟨"urn:a"⟩ ⟨"urn:b"⟩
    ∃ c d, ofTables exampleSettings catalog [⟨"t", [aboveLower 2, belowUpper 3]⟩] = .ok c ∧
      ofTables exampleSettings catalog
        [⟨"s", [belowUpper 2]⟩, ⟨"t", [belowUpper 2, aboveLower 3]⟩] = .ok d ∧
      c.externalSignature.toList = [⟨"urn:a"⟩, ⟨"urn:b"⟩] ∧
      SameKnowledge c d ∧ SameContent c d := by
  intro catalog
  have same : SameRecords [aboveLower 2, belowUpper 3]
      [belowUpper 2, belowUpper 2, aboveLower 3] := by
    constructor <;> simp [same_aboveLower, same_belowUpper]
  have plain : PlainLabels catalog := by unfold PlainLabels; decide +kernel
  obtain ⟨c, hc, external⟩ : ∃ c, ofTables exampleSettings catalog
      [⟨"t", [aboveLower 2, belowUpper 3]⟩] = .ok c ∧
      c.externalSignature.toList = [⟨"urn:a"⟩, ⟨"urn:b"⟩] :=
    exists_of_toOption_map (by decide +kernel)
  obtain ⟨-, results⟩ := ofTables_order_independent exampleSettings catalog
    [⟨"t", [aboveLower 2, belowUpper 3]⟩]
    [⟨"s", [belowUpper 2]⟩, ⟨"t", [belowUpper 2, aboveLower 3]⟩] same isNamed_example
  obtain ⟨d, hd, -⟩ : ∃ d, ofTables exampleSettings catalog
      [⟨"s", [belowUpper 2]⟩, ⟨"t", [belowUpper 2, aboveLower 3]⟩] = .ok d ∧
      d.externalSignature.toList = [⟨"urn:a"⟩, ⟨"urn:b"⟩] :=
    exists_of_toOption_map (by decide +kernel)
  obtain ⟨knowledge, content⟩ := results c d hc hd
  exact ⟨c, d, hc, hd, external, knowledge, content isRead_exampleSettings plain⟩

/-- Two labels of terms whose names are not plain: what the records state has one key, and
the order of the records decides which of the two axioms is kept. -/
theorem ofTables_order_dependent :
    let catalog := twoLabels ⟨"urn:m> <urn:n"⟩ ⟨"urn:n> <urn:z"⟩
    exampleSettings.scope.IsRead ∧
      SameRecords [aboveLower 2, belowUpper 3] [belowUpper 3, aboveLower 2] ∧
      (∀ r ∈ [aboveLower 2, belowUpper 3],
        r.IsNamed exampleSettings.maxExpressionDepth) ∧
      ∃ c d, ofTables exampleSettings catalog [⟨"t", [aboveLower 2, belowUpper 3]⟩] = .ok c ∧
        ofTables exampleSettings catalog [⟨"t", [belowUpper 3, aboveLower 2]⟩] = .ok d ∧
        c.externalSignature.toList = [⟨"urn:m> <urn:n"⟩] ∧
        d.externalSignature.toList = [⟨"urn:n> <urn:z"⟩] := by
  intro catalog
  have same : SameRecords [aboveLower 2, belowUpper 3] [belowUpper 3, aboveLower 2] := by
    constructor <;> simp [same_aboveLower, same_belowUpper]
  obtain ⟨c, hc, external⟩ : ∃ c, ofTables exampleSettings catalog
      [⟨"t", [aboveLower 2, belowUpper 3]⟩] = .ok c ∧
      c.externalSignature.toList = [⟨"urn:m> <urn:n"⟩] :=
    exists_of_toOption_map (by decide +kernel)
  obtain ⟨d, hd, external'⟩ : ∃ d, ofTables exampleSettings catalog
      [⟨"t", [belowUpper 3, aboveLower 2]⟩] = .ok d ∧
      d.externalSignature.toList = [⟨"urn:n> <urn:z"⟩] :=
    exists_of_toOption_map (by decide +kernel)
  exact ⟨isRead_exampleSettings, same, isNamed_example, c, d, hc, hd, external, external'⟩

end Compilation

end TabularOntology
