import TabularOntology.Proofs.Compilation.Conversion
import TabularOntology.Proofs.Compilation.Emissions

/-! Anonymous individuals belong to their record. All names of anonymous individuals that a value
writes become blank nodes of the axiom that it states, one by one and in their order, and the
identifier of a blank node is made of the number of the record and of the name. Records are numbered
in the order in which they are declared, so two blank nodes are the same just if they stand for the
same name in the same record, whatever other records say of the same term. -/

namespace TabularOntology

/-! ### Blank nodes and names -/

def Individual.blankNodes : Individual → List String
  | .named _ => []
  | .anonymous n => [n]

mutual

/-- The blank nodes in an expression, in reading order. -/
def ClassExpression.blankNodes : ClassExpression → List String
  | .intersection cs | .union cs => ClassExpression.blankNodesOf cs
  | .complement c | .some _ c | .only _ c | .cardinality _ _ _ (Option.some c) => c.blankNodes
  | .hasValue _ i => i.blankNodes
  | .named _ | .cardinality _ _ _ none => []
  | .dataSome .. | .dataOnly .. | .dataHasValue .. | .dataCardinality .. => []

def ClassExpression.blankNodesOf : List ClassExpression → List String
  | [] => []
  | c :: cs => c.blankNodes ++ ClassExpression.blankNodesOf cs

end

/-- The blank nodes of an axiom, those in its class expressions first. -/
def Axiom.blankNodes (a : Axiom) : List String :=
  a.operands.flatMap ClassExpression.blankNodes ++ a.individuals.flatMap Individual.blankNodes

theorem Axiom.IsBare.blankNodes {a : Axiom} (h : a.IsBare) : a.blankNodes = [] := by
  rw [Axiom.blankNodes, h.1, h.2]
  rfl

namespace Cell

def TermReference.anonymousName? : TermReference → Option String
  | .anonymous n => some n
  | _ => none

/-- The names of anonymous individuals among references. -/
def anonymousNames (ts : List TermReference) : List String := ts.filterMap (·.anonymousName?)

theorem anonymousNames_cons_of_none {t : TermReference} (h : t.anonymousName? = none)
    (ts : List TermReference) : anonymousNames (t :: ts) = anonymousNames ts :=
  List.filterMap_cons_none h

theorem anonymousNames_eq_nil {ts : List TermReference} :
    anonymousNames ts = [] ↔ ∀ t ∈ ts, t.anonymousName? = none :=
  List.filterMap_eq_nil_iff

end Cell

namespace CellScope

open Cell (anonymousNames anonymousNames_cons_of_none anonymousNames_eq_nil)

variable {s s' : CellScope} {t : Cell.TermReference} {x : Iri} {i : Individual} {text : String}
variable {a : Axiom}

theorem anonymousName?_of_term (h : s.term t = .ok x) : t.anonymousName? = none := by
  cases t with
  | anonymous => cases h
  | iri | name | label => rfl

theorem nodeId_eq (s : CellScope) (name : String) :
    s.nodeId name = "t" ++ toString s.recordNumber ++ "x" ++ name := rfl

/-- A text tells the number of its record and the name apart. -/
theorem nodeId_inj {m n : String} :
    s.nodeId m = s'.nodeId n ↔ s.recordNumber = s'.recordNumber ∧ m = n := by
  constructor
  · intro same
    have digits : ∀ k : Nat, ∀ c ∈ (toString k).toList, ¬ c = 'x' := by
      rintro k c hc rfl
      exact absurd (isDigit_of_mem_number hc) (by decide)
    have texts : 't' :: ((toString s.recordNumber).toList ++ 'x' :: m.toList) =
        't' :: ((toString s'.recordNumber).toList ++ 'x' :: n.toList) := by
      simpa [nodeId_eq, ← String.toList_inj] using same
    obtain ⟨numbers, names⟩ := append_inj_of_stop (digits _) (digits _) (by simp) (by simp)
      (List.cons.inj texts).2
    exact ⟨Nat.repr_injective (String.toList_inj.1 numbers),
      String.toList_inj.1 (List.cons.inj names).2⟩
  · rintro ⟨numbers, rfl⟩
    rw [nodeId, nodeId, numbers]

/-! ### Conversion -/

theorem blankNodes_individual (h : s.individual t = .ok i) :
    i.blankNodes = (anonymousNames [t]).map s.nodeId := by
  unfold individual at h
  split at h
  · split at h
    · cases h
      rfl
    · cases h
  · obtain ⟨x, hx, rfl⟩ := map_eq_ok.1 h
    rw [anonymousNames_cons_of_none (anonymousName?_of_term hx)]
    rfl

theorem anonymousNames_literal {l : Cell.LiteralValue} {v : Literal} (h : s.literal l = .ok v) :
    anonymousNames (Cell.Value.literal l).references = [] := by
  cases l with
  | typed text datatype =>
    obtain ⟨x, hx, -⟩ := map_eq_ok.1 h
    exact anonymousNames_cons_of_none (anonymousName?_of_term hx) []
  | string | integer | decimal | boolean => rfl

/-- Data ranges have no individuals in them. -/
theorem anonymousNames_dataRange {e : Cell.Expression} {d : DataRange} (h : s.dataRange e = .ok d) :
    anonymousNames e.references = [] := by
  rw [anonymousNames_eq_nil]
  induction e generalizing d with
  | term t =>
    obtain ⟨x, hx, -⟩ := map_eq_ok.1 h
    exact List.forall_mem_singleton.2 (anonymousName?_of_term hx)
  | intersection es ih | union es ih =>
    obtain ⟨ds, hds, -⟩ := map_eq_ok.1 h
    rw [dataRanges_eq_mapM] at hds
    rw [Cell.Expression.references, Cell.referencesOf_eq_flatMap]
    intro t ht
    obtain ⟨e, he, ht⟩ := List.mem_flatMap.1 ht
    obtain ⟨d, _, hd⟩ := exists_mem_mapM hds he
    exact ih e he hd t ht
  | complement e ih =>
    obtain ⟨d, inner, -⟩ := map_eq_ok.1 h
    exact ih inner
  | restriction => cases h

theorem blankNodes_operands {es : List Cell.Expression} {cs : List ClassExpression}
    (h : List.Forall₂ (fun e c => c.blankNodes = (anonymousNames e.references).map s.nodeId)
      es cs) : ClassExpression.blankNodesOf cs =
        (anonymousNames (Cell.referencesOf es)).map s.nodeId := by
  induction h with
  | nil => rfl
  | cons first _ ih =>
    rw [ClassExpression.blankNodesOf, first, ih, ← List.map_append, Cell.referencesOf,
      anonymousNames, anonymousNames, anonymousNames, List.filterMap_append]

/-- The names in an expression become the blank nodes of what it is read as. -/
theorem blankNodes_classExpression {e : Cell.Expression} {c : ClassExpression}
    (h : s.classExpression e = .ok c) :
    c.blankNodes = (anonymousNames e.references).map s.nodeId := by
  refine classExpression_induction
    (P := fun e c => c.blankNodes = (anonymousNames e.references).map s.nodeId)
    ?_ blankNodes_operands blankNodes_operands id ?_ ?_ h
  · intro t x ht
    rw [Cell.Expression.references, anonymousNames_cons_of_none (anonymousName?_of_term ht)]
    rfl
  · intro p iri property q n f c hp _ _ filled
    have skip := anonymousNames_cons_of_none (anonymousName?_of_term hp)
    cases filled with
    | none =>
      rw [Cell.Expression.references, skip]
      rfl
    | some inner | only inner | cardinality _ _ inner =>
      rw [Cell.Expression.references, skip]
      exact inner
    | hasValue hi =>
      rw [Cell.Expression.references, skip]
      exact blankNodes_individual hi
  · intro p iri q n f c hp _ filled
    have skip := anonymousNames_cons_of_none (anonymousName?_of_term hp)
    cases filled with
    | none =>
      rw [Cell.Expression.references, skip]
      rfl
    | some hd | only hd | cardinality _ _ hd =>
      rw [Cell.Expression.references, skip, anonymousNames_dataRange hd]
      rfl
    | hasValue hl =>
      rw [Cell.Expression.references, skip, anonymousNames_literal hl]
      rfl

/-- The names in a value become the blank nodes of the axiom that it states. -/
theorem StatedBy.blankNodes {reading : Cell.Reading} (h : s.StatedBy text reading a) :
    a.blankNodes = (anonymousNames (reading.references s.maxDepth text)).map s.nodeId := by
  cases h with
  | @expression e c _ parsed read operands individuals =>
    have others : a.individuals.flatMap Individual.blankNodes = [] := by
      rw [List.flatMap_eq_nil_iff]
      intro i hi
      obtain ⟨x, rfl⟩ := individuals i hi
      rfl
    rw [Axiom.blankNodes, ClassExpression.flatMap_eq_of_filter_isComplex (fun _ => rfl) operands,
      others, List.append_nil, Cell.Reading.references, parsed]
    exact blankNodes_classExpression read
  | range parsed read bare =>
    rw [bare.blankNodes, Cell.Reading.references, parsed]
    exact (congrArg (List.map s.nodeId) (anonymousNames_dataRange read)).symm
  | term parsed read bare =>
    rw [bare.blankNodes, Cell.Reading.references, parsed]
    exact (congrArg (List.map s.nodeId)
      (anonymousNames_cons_of_none (anonymousName?_of_term read) [])).symm
  | @relation fact p x t i _ parsed property value read operands individuals =>
    rw [Axiom.blankNodes, operands, individuals, Cell.Reading.references, parsed]
    change Individual.blankNodes i ++ [] = (anonymousNames fact.references).map s.nodeId
    rw [Cell.Fact.references, anonymousNames_cons_of_none (anonymousName?_of_term property), value,
      List.append_nil]
    exact blankNodes_individual read
  | @dataFact fact p x l v _ parsed property value read operands individuals =>
    rw [Axiom.blankNodes, operands, individuals, Cell.Reading.references, parsed]
    change [] = (anonymousNames fact.references).map s.nodeId
    rw [Cell.Fact.references, anonymousNames_cons_of_none (anonymousName?_of_term property), value,
      anonymousNames_literal read]
    rfl
  | word bare => exact bare.blankNodes

end CellScope

/-! ### Numbers of records -/

namespace Compilation

variable {c d : Compilation} {scope : IdentifierScope} {settings : Settings} {catalog : Catalog}
variable {ts : List Table} {iri : Iri} {r : TermRecord}

/-- The declared records are numbered in their order. -/
def Counts (c : Compilation) : Prop :=
  c.records.map DeclaredRecord.number = List.range c.recordCount

theorem Counts.congr (h : c.Counts) (records : d.records = c.records)
    (count : d.recordCount = c.recordCount) : d.Counts := by
  rw [Counts, records, count]
  exact h

theorem Counts.file (h : c.Counts) (iri : Iri) (r : TermRecord) : (c.file iri r).Counts := by
  have count : (c.file iri r).recordCount = c.recordCount + 1 := rfl
  rw [Counts, records_file, List.map_append, h, count, List.range_succ]
  rfl

theorem Counts.learn (h : c.Counts) (iri : Iri) (t : Term) (label : Option String) :
    (c.learn iri t label).Counts := by
  refine h.congr (learn_unchanged c iri t label).2 ?_
  unfold Compilation.learn
  split <;> rfl

theorem Counts.declare (h : c.Counts) (declared : c.declare iri r = .ok d) : d.Counts := by
  unfold Compilation.declare at declared
  split at declared
  · cases declared
    exact (h.learn _ _ _).file _ _
  · split at declared
    · cases declared
    · cases declared
      exact ((h.learn _ _ _).congr rfl rfl).file _ _

theorem Counts.emitAll (h : c.Counts) (provenance : Provenance) (as : List Axiom) :
    (c.emitAll provenance as).Counts :=
  List.foldlRecOn as _ (motive := Counts) h fun _ hd _ _ => hd.congr rfl rfl

theorem isKept_counts : IsKept scope fun _ c => c.Counts where
  startTable h := h.congr (records_startTable _) rfl
  skip h _ := h.congr rfl rfl
  step h _ accepted := (h.declare accepted).emitAll _ _

theorem Counts.declareTables (h : c.Counts) (scope : IdentifierScope) (ts : List Table) :
    (c.declareTables scope ts).1.Counts := by
  have pass : EndsWith scope (fun _ c => c.Counts) ([] ++ ts.flatMap Table.records)
      (c.declareTables scope ts) := isKept_counts.declareTables h ts
  obtain ⟨_, counts⟩ := pass.exists_done
  exact counts

/-- The number of a record is its place among the declared ones. -/
theorem number_of_getElem? {i : Nat} {r : DeclaredRecord} (h : ofTables settings catalog ts = .ok c)
    (hr : c.records[i]? = some r) : r.number = i := by
  obtain ⟨d, passed, rfl⟩ := ofTables_eq_ok.1 h
  have nothing : (start settings.ontologyIri settings.versionIri).Counts := rfl
  have counts := nothing.declareTables settings.scope ts
  rw [passed] at counts
  have found : (d.records.map DeclaredRecord.number)[i]? = some r.number := by
    rw [List.getElem?_map, ← d.records_readCells settings catalog, hr]
    rfl
  rw [counts] at found
  obtain ⟨_, numbered⟩ := List.getElem?_eq_some_iff.1 found
  exact numbered.symm.trans (List.getElem_range _)

end Compilation

/-! ### Anonymous individuals of a compilation -/

/-- What a record states stands in one of its cells. -/
theorem CellScope.exists_yields_of_mem_outcomes {s : CellScope} {iri : Iri} {r : TermRecord}
    {a : Axiom} (ha : .ok a ∈ s.outcomes iri r) : ∃ column text,
      .value column text ∈ r.places ∧ s.Yields iri r.kind (.value column text) (.ok a) := by
  have pairs := outcomes_of_places s iri r
  obtain ⟨n, hn, outcome⟩ := List.mem_iff_getElem.1 ha
  have written : n < r.places.length := pairs.length_eq ▸ hn
  have yields := (pairs.get written hn (.ok a)).2 outcome.symm
  generalize place : r.places.get ⟨n, written⟩ = p at yields
  have listed : p ∈ r.places := place ▸ List.get_mem _ _
  generalize stated : (Except.ok a : Except RecordError Axiom) = o at yields ⊢
  cases yields with
  | value text applies => exact ⟨_, text, listed, .value text applies⟩
  | unsplit | unused => cases stated

namespace Compilation

variable {c d : Compilation} {settings : Settings} {catalog : Catalog} {ts : List Table}

/-- A value in a cell of the record at place `i` writes a name of an anonymous individual, and
`node` is what it becomes: the blank node that comes after as many others in the axiom that the
value states. -/
inductive Becomes (c : Compilation) (settings : Settings) (catalog : Catalog) (i : Nat)
    (name node : String) : Prop
  | intro {r : DeclaredRecord} {column : Column} {text : String} {a : Axiom} (k : Nat)
    (record : c.records[i]? = some r) (written : .value column text ∈ r.record.places)
    (states : (c.cellScope settings catalog catalog.labels r).Yields r.iri r.record.kind
      (.value column text) (.ok a))
    (reads : (Cell.anonymousNames ((column.reading r.record.kind).references
      settings.maxExpressionDepth text))[k]? = some name)
    (becomes : a.blankNodes[k]? = some node)

/-- The axiom that a value states has just the blank nodes for the names in the value. -/
theorem blankNodes_of_yields {r : DeclaredRecord} {column : Column} {text : String} {a : Axiom}
    (h : (c.cellScope settings catalog catalog.labels r).Yields r.iri r.record.kind
      (.value column text) (.ok a)) :
    a.blankNodes = (Cell.anonymousNames ((column.reading r.record.kind).references
      settings.maxExpressionDepth text)).map
        (c.cellScope settings catalog catalog.labels r).nodeId := by
  generalize outcome : (Except.ok a : Except RecordError Axiom) = o at h
  cases h with
  | value _ applies => exact (CellScope.statedBy_statement applies outcome.symm).blankNodes

theorem Becomes.eq_nodeId {i : Nat} {name node : String}
    (h : c.Becomes settings catalog i name node) : ∃ r, c.records[i]? = some r ∧
      node = (c.cellScope settings catalog catalog.labels r).nodeId name := by
  obtain @⟨r, column, text, a, k, record, -, states, reads, becomes⟩ := h
  rw [blankNodes_of_yields states, List.getElem?_map, reads] at becomes
  exact ⟨r, record, (Option.some.inj becomes).symm⟩

/-- Each blank node in what a record states stands for a name in it. -/
theorem exists_becomes_of_mem_cellsOf {i : Nat} {node : String} {r : DeclaredRecord} {a : Axiom}
    (hr : c.records[i]? = some r) (ha : .ok a ∈ c.cellsOf settings catalog r)
    (hn : node ∈ a.blankNodes) : ∃ name, c.Becomes settings catalog i name node := by
  obtain ⟨column, text, written, states⟩ := CellScope.exists_yields_of_mem_outcomes ha
  obtain ⟨k, becomes⟩ := List.mem_iff_getElem?.1 hn
  have reads := becomes
  rw [blankNodes_of_yields states, List.getElem?_map, Option.map_eq_some_iff] at reads
  obtain ⟨name, reads, -⟩ := reads
  exact ⟨name, .intro k hr written states reads becomes⟩

theorem exists_becomes_of_mem_axioms {node : String} {a : Axiom}
    (h : ofTables settings catalog ts = .ok c) (ha : a ∈ c.ontology.axioms)
    (hn : node ∈ a.blankNodes) : ∃ i name, c.Becomes settings catalog i name node := by
  obtain ⟨d, passed, rfl⟩ := ofTables_eq_ok.1 h
  rcases (finishes_readCells passed catalog).cellsState_or_isBare ha with ⟨r, hr, ha⟩ | bare
  · obtain ⟨terms, labels, _, _⟩ := d.readCells_changes settings catalog
    obtain ⟨i, hi⟩ := List.mem_iff_getElem?.1 hr
    rw [← d.records_readCells settings catalog] at hi
    rw [← cellsOf_congr terms labels] at ha
    exact ⟨i, exists_becomes_of_mem_cellsOf hi ha hn⟩
  · rw [bare.blankNodes] at hn
    exact absurd hn List.not_mem_nil

/-- All names of anonymous individuals in a value become blank nodes, the ontology has no other
blank nodes, and two of them are the same just if they stand for the same name in the same row. -/
theorem blank_nodes_local (h : ofTables settings catalog ts = .ok c) :
    c.records.map DeclaredRecord.record =
      (ts.flatMap Table.records).filter (fun r => (r.iri? settings.scope).isSome) ∧
    (∀ r column text a, (c.cellScope settings catalog catalog.labels r).Yields r.iri r.record.kind
      (.value column text) (.ok a) → a.blankNodes.length = (Cell.anonymousNames
        ((column.reading r.record.kind).references settings.maxExpressionDepth text)).length) ∧
    (∀ a ∈ c.ontology.axioms, ∀ n ∈ a.blankNodes, ∃ i name,
      c.Becomes settings catalog i name n) ∧
    ∀ i j a b m n, c.Becomes settings catalog i a m → c.Becomes settings catalog j b n →
      (m = n ↔ i = j ∧ a = b) := by
  refine ⟨(emits_of_ofTables h).records, fun r column text a states => ?_,
    fun a ha n hn => exists_becomes_of_mem_axioms h ha hn, ?_⟩
  · rw [blankNodes_of_yields states, List.length_map]
  · intro i j a b m n first second
    obtain ⟨r, hr, rfl⟩ := first.eq_nodeId
    obtain ⟨r', hr', rfl⟩ := second.eq_nodeId
    rw [CellScope.nodeId_inj]
    change r.number = r'.number ∧ a = b ↔ _
    rw [number_of_getElem? h hr, number_of_getElem? h hr']

/-- An individual that is related to an anonymous one, which stands in its type as well. -/
def related (row : Nat) : TermRecord :=
  let named : TermRecord := { id := "<urn:a>", kind := .individual, provenance := ⟨"a.csv", row⟩ }
  (named.setCell .relations "<urn:p> _:x").setCell .instanceOf
    "not (<urn:p> some (<urn:p> value _:x))"

/-- Two rows of one individual that write the same name give different blank nodes. -/
theorem blank_nodes_local_rows : ∃ c,
    ofTables exampleSettings ∅ [⟨"a.csv", [related 2, related 3]⟩] = .ok c ∧
    c.records.map DeclaredRecord.iri = [⟨"urn:a"⟩, ⟨"urn:a"⟩] ∧
    (∃ name, c.Becomes exampleSettings ∅ 0 name "t0xx") ∧
    (∃ name, c.Becomes exampleSettings ∅ 1 name "t1xx") ∧
    ∀ name, ¬ c.Becomes exampleSettings ∅ 1 name "t0xx" := by
  obtain ⟨c, hc, evaluated⟩ : ∃ c,
      ofTables exampleSettings ∅ [⟨"a.csv", [related 2, related 3]⟩] = .ok c ∧
      (c.records.map DeclaredRecord.iri, c.records.map fun r =>
          (outcomeAxioms (c.cellsOf exampleSettings ∅ r)).map Axiom.blankNodes) =
        ([⟨"urn:a"⟩, ⟨"urn:a"⟩], [[["t0xx"], ["t0xx"]], [["t1xx"], ["t1xx"]]]) :=
    exists_of_toOption_map (by decide +kernel)
  obtain ⟨terms, nodes⟩ := Prod.mk.inj evaluated
  have occurs (i : Nat) (node : String) (ns : List (List String))
      (hn : (c.records.map fun r => (outcomeAxioms (c.cellsOf exampleSettings ∅ r)).map
        Axiom.blankNodes)[i]? = some ([node] :: ns)) :
      ∃ name, c.Becomes exampleSettings ∅ i name node := by
    rw [List.getElem?_map, Option.map_eq_some_iff] at hn
    obtain ⟨r, hr, hn⟩ := hn
    obtain ⟨a, as, stated, own, -⟩ := List.map_eq_cons_iff.1 hn
    have ha : .ok a ∈ c.cellsOf exampleSettings ∅ r :=
      mem_outcomeAxioms.1 (stated ▸ List.mem_cons_self)
    exact exists_becomes_of_mem_cellsOf hr ha (own ▸ List.mem_singleton_self node)
  have first := occurs 0 "t0xx" [["t0xx"]] (by rw [nodes]; rfl)
  have second := occurs 1 "t1xx" [["t1xx"]] (by rw [nodes]; rfl)
  refine ⟨c, hc, terms, first, second, fun name other => ?_⟩
  obtain ⟨name', own⟩ := first
  obtain ⟨_, _, _, same⟩ := blank_nodes_local hc
  exact absurd ((same 1 0 name name' _ _ other own).1 rfl).1 (by decide)

end Compilation

end TabularOntology
