import TabularOntology.Proofs.Compilation.Conversion
import TabularOntology.Proofs.Ontology.Edits

/-! Restrictions are of the sort that their properties are declared for. Cells are read when all
records of all tables are declared, so it does not matter where a property is declared: whatever
its kind is in the end, every restriction of it in every cell is one of that kind, at every depth of
the expression. Terms of the tables come before those of the sources, and sources come in the order
of their names. -/

namespace TabularOntology

/-- The property of a restriction, and whether the restriction is one of a data property. -/
structure Restriction where
  property : Iri
  isData : Bool
  deriving DecidableEq, Repr

mutual

/-- The restrictions in an expression at all depths, in reading order. -/
def ClassExpression.restrictions : ClassExpression → List Restriction
  | .named _ => []
  | .intersection cs | .union cs => ClassExpression.restrictionsOf cs
  | .complement c => c.restrictions
  | .some p c | .only p c | .cardinality _ _ p (Option.some c) => ⟨p.iri, false⟩ :: c.restrictions
  | .hasValue p _ | .cardinality _ _ p none => [⟨p.iri, false⟩]
  | .dataSome p _ | .dataOnly p _ | .dataHasValue p _ | .dataCardinality _ _ p _ => [⟨p, true⟩]

def ClassExpression.restrictionsOf : List ClassExpression → List Restriction
  | [] => []
  | c :: cs => c.restrictions ++ ClassExpression.restrictionsOf cs

end

/-- The restrictions in all class expressions of an axiom. -/
def Axiom.restrictions (a : Axiom) : List Restriction :=
  a.operands.flatMap ClassExpression.restrictions

namespace CellScope

variable {s : CellScope} {x : Iri} {kind : EntityKind} {f : Cell.Filler} {b : Bool}
variable {rs : List Restriction} {text : String} {a : Axiom}

/-- Restrictions of properties of known kinds are of the sort of that kind. -/
def FollowsKinds (s : CellScope) (rs : List Restriction) : Prop :=
  ∀ r ∈ rs, ∀ kind, s.kindOf? r.property = some kind → (r.isData ↔ kind = .dataProperty)

theorem followsKinds_nil : s.FollowsKinds [] := by
  intro r hr
  exact absurd hr List.not_mem_nil

theorem isData_of_kindOf? (h : s.kindOf? x = some kind) :
    s.isData x f = (kind == .dataProperty) := by
  unfold isData
  rw [h]

theorem FollowsKinds.cons (h : s.FollowsKinds rs) (sort : s.isData x f = b) :
    s.FollowsKinds (⟨x, b⟩ :: rs) := by
  refine List.forall_mem_cons.2 ⟨fun kind known => ?_, h⟩
  rw [← sort, isData_of_kindOf? known, beq_iff_eq]

theorem followsKinds_flatMap {es : List Cell.Expression} {cs : List ClassExpression}
    (h : List.Forall₂ (fun _ c => s.FollowsKinds c.restrictions) es cs) :
    s.FollowsKinds (ClassExpression.restrictionsOf cs) := by
  induction h with
  | nil => exact followsKinds_nil
  | cons first _ ih => exact List.forall_mem_append.2 ⟨first, ih⟩

/-- Whatever an expression is read as, its restrictions follow the kinds of their properties. -/
theorem followsKinds_classExpression {e : Cell.Expression} {c : ClassExpression}
    (h : s.classExpression e = .ok c) : s.FollowsKinds c.restrictions := by
  refine classExpression_induction (P := fun _ c => s.FollowsKinds c.restrictions)
    (fun _ => followsKinds_nil) followsKinds_flatMap followsKinds_flatMap id ?_ ?_ h
  · intro p iri property q n f c _ same sort filled
    subst same
    cases filled with
    | none | hasValue => exact followsKinds_nil.cons sort
    | some inner | only inner | cardinality _ _ inner => exact inner.cons sort
  · intro p iri q n f c _ sort filled
    cases filled <;> exact followsKinds_nil.cons sort

theorem followsKinds_of_operands_eq_nil (h : a.operands = []) : s.FollowsKinds a.restrictions := by
  rw [Axiom.restrictions, h]
  exact followsKinds_nil

theorem StatedBy.followsKinds {reading : Cell.Reading} (h : s.StatedBy text reading a) :
    s.FollowsKinds a.restrictions := by
  cases h with
  | @expression e c _ _ read operands _ =>
    rw [Axiom.restrictions, ClassExpression.flatMap_eq_of_filter_isComplex (fun _ => rfl) operands]
    exact followsKinds_classExpression read
  | relation _ _ _ _ operands | dataFact _ _ _ _ operands =>
    exact followsKinds_of_operands_eq_nil operands
  | range _ _ bare | term _ _ bare | word bare => exact followsKinds_of_operands_eq_nil bare.1

end CellScope

/-! ### Kinds of terms -/

/-- The sources before one in a catalog are those whose names come before its name. -/
theorem Catalog.exists_append_of_getElem? {catalog : Catalog} {name : String} {o : Ontology}
    (h : catalog[name]? = some o) : ∃ before after, catalog.all = before ++ o :: after ∧
      ∀ o' ∈ before, ∃ name', catalog[name']? = some o' ∧ compare name' name = .lt := by
  obtain ⟨before, after, split⟩ :=
    List.append_of_mem (Std.TreeMap.mem_toList_iff_getElem?_eq_some.2 h)
  refine ⟨before.map Prod.snd, after.map Prod.snd, ?_, fun o' ho' => ?_⟩
  · rw [Ontologies.all, split, List.map_append, List.map_cons]
  · obtain ⟨⟨name', o'⟩, he, rfl⟩ := List.mem_map.1 ho'
    have listed : (name', o') ∈ catalog.toList := split ▸ List.mem_append_left _ he
    have ordered := Std.TreeMap.ordered_keys_toList (t := catalog)
    rw [split, List.pairwise_append] at ordered
    exact ⟨name', Std.TreeMap.mem_toList_iff_getElem?_eq_some.1 listed,
      ordered.2.2 _ he _ List.mem_cons_self⟩

theorem Ontology.kindOf?_eq_none {o : Ontology} {x : Iri}
    (h : ∀ kind, .declaration kind x ∉ o.axioms) : o.kindOf? x = none := by
  rw [Option.eq_none_iff_forall_ne_some]
  intro kind known
  exact h kind (kindOf?_eq_some_iff.1 known).1

namespace Compilation

variable {c d : Compilation} {settings : Settings} {catalog : Catalog} {ts : List Table}
variable {x : Iri} {kind : EntityKind} {a : Axiom}

/-- The kind of a term among the declared ones, or else its first kind in the first source that
declares it. -/
inductive HasKind (c : Compilation) (catalog : Catalog) (x : Iri) (kind : EntityKind) : Prop
  | term {t : Term} (known : c.terms[x]? = some t) (h : t.kind = kind)
  | source {name : String} {o : Ontology} (unknown : c.terms[x]? = none)
    (found : catalog[name]? = some o)
    (first : ∀ name' o', catalog[name']? = some o' → compare name' name = .lt →
      ∀ k, .declaration k x ∉ o'.axioms)
    (h : .declaration kind x ∈ o.axioms)
    (least : ∀ k, .declaration k x ∈ o.axioms → kind.rank ≤ k.rank)

/-- Cells are read against these kinds. -/
theorem HasKind.kindOf?_cellScope (h : c.HasKind catalog x kind) (labels : Labels)
    (r : DeclaredRecord) : (c.cellScope settings catalog labels r).kindOf? x = some kind := by
  cases h with
  | term known same =>
    unfold cellScope
    simp [known, same]
  | source unknown found first declared least =>
    obtain ⟨before, after, split, earlier⟩ := Catalog.exists_append_of_getElem? found
    have passed : before.findSome? (·.kindOf? x) = none := by
      rw [List.findSome?_eq_none_iff]
      intro o' ho'
      obtain ⟨name', found', lt⟩ := earlier o' ho'
      exact Ontology.kindOf?_eq_none (first name' o' found' lt)
    have own := Ontology.kindOf?_eq_some_iff.2 ⟨declared, least⟩
    have sources : catalog.kindOf? x = some kind := by
      rw [Catalog.kindOf?, split, List.findSome?_append, passed, Option.none_or,
        List.findSome?_cons, own]
    unfold cellScope
    simp [unknown, sources]

theorem HasKind.of_terms (h : c.HasKind catalog x kind) (terms : d.terms = c.terms) :
    d.HasKind catalog x kind := by
  cases h with
  | term known same => exact .term (terms ▸ known) same
  | source unknown found first declared least =>
    exact .source (terms ▸ unknown) found first declared least

theorem CellsState.follows_kinds (h : c.CellsState settings catalog a) :
    ∀ r ∈ a.restrictions, ∀ kind, c.HasKind catalog r.property kind →
      (r.isData ↔ kind = .dataProperty) := by
  obtain ⟨r, _, ha⟩ := h
  obtain ⟨column, state, text, applies, ha⟩ := CellScope.exists_of_mem_outcomes ha
  intro restriction hr kind known
  exact (CellScope.statedBy_statement applies ha).followsKinds restriction hr kind
    (known.kindOf?_cellScope _ r)

/-- In all that the cells state, and so in all axioms of the ontology, each restriction is one of a
data property if its property is known as one in the end, and one of an object property if it is
known as anything else. -/
theorem restrictions_follow_kinds (h : ofTables settings catalog ts = .ok c) :
    ∃ d, (start settings.ontologyIri settings.versionIri).declareTables settings.scope ts =
        (d, none) ∧ d.readCells settings catalog = c ∧
      ∀ a, d.CellsState settings catalog a ∨ a ∈ c.ontology.axioms →
        ∀ r ∈ a.restrictions, ∀ kind, c.HasKind catalog r.property kind →
          (r.isData ↔ kind = .dataProperty) := by
  obtain ⟨d, passed, rfl⟩ := ofTables_eq_ok.1 h
  have terms : d.terms = (d.readCells settings catalog).terms :=
    (d.readCells_changes settings catalog).1.symm
  have stated (a : Axiom) (ha : d.CellsState settings catalog a) (r : Restriction)
      (hr : r ∈ a.restrictions) (kind : EntityKind)
      (known : (d.readCells settings catalog).HasKind catalog r.property kind) :
      r.isData ↔ kind = .dataProperty :=
    ha.follows_kinds r hr kind (known.of_terms terms)
  refine ⟨d, passed, rfl, fun a ha => ?_⟩
  rcases ha with ha | ha
  · exact stated a ha
  · rcases (finishes_readCells passed catalog).cellsState_or_isBare ha with ha | bare
    · exact stated a ha
    · intro r hr
      rw [Axiom.restrictions, bare.1] at hr
      exact absurd hr List.not_mem_nil

/-- A source that declares a data property. -/
def measures : Catalog :=
  Std.TreeMap.empty.insert "source" (.ofAxioms [.declaration .dataProperty ⟨"urn:m"⟩])

/-- A class below a restriction of an unknown property that has two more restrictions in it, and a
later table that declares the property of one of those. -/
def restricted : List Table :=
  [⟨"a.csv", [TermRecord.setCell { id := "<urn:a>", kind := .cls, provenance := ⟨"a.csv", 2⟩ }
    .parent "<urn:p> some (<urn:d> some xsd:string and not <urn:m> min 2)"]⟩,
    ⟨"b.csv", [{ id := "<urn:d>", kind := .dataProperty, provenance := ⟨"b.csv", 2⟩ }]⟩]

theorem hasKind_measures {c : Compilation} (unknown : c.terms[(⟨"urn:m"⟩ : Iri)]? = none) :
    c.HasKind measures ⟨"urn:m"⟩ .dataProperty := by
  let o : Ontology := .ofAxioms [.declaration .dataProperty ⟨"urn:m"⟩]
  have own (a : Axiom) : a ∈ o.axioms ↔ a = .declaration .dataProperty ⟨"urn:m"⟩ := by
    rw [Ontology.mem_axioms_ofAxioms (by simp [DistinctKeys]), List.mem_singleton]
  have found : measures["source"]? = some o := Std.TreeMap.getElem?_insert_self
  refine .source unknown found (fun name' o' found' lt => ?_) ((own _).2 rfl) fun k hk => ?_
  · rw [measures, Std.TreeMap.getElem?_insert] at found'
    split at found'
    · next same =>
      obtain rfl := Std.LawfulEqOrd.eq_of_compare same
      exact absurd lt (by decide)
    · simp at found'
  · obtain ⟨rfl, _⟩ := Axiom.declaration.inj ((own _).1 hk)
    exact le_rfl

theorem restrictions_follow_kinds_later : ∃ c,
    ofTables exampleSettings measures restricted = .ok c ∧
    (∃ a ∈ c.ontology.axioms,
      a.restrictions = [⟨⟨"urn:p"⟩, false⟩, ⟨⟨"urn:d"⟩, true⟩, ⟨⟨"urn:m"⟩, true⟩]) ∧
    ∀ a ∈ c.ontology.axioms, ∀ r ∈ a.restrictions,
      r.property = ⟨"urn:d"⟩ ∨ r.property = ⟨"urn:m"⟩ → r.isData := by
  obtain ⟨c, hc, evaluated⟩ : ∃ c, ofTables exampleSettings measures restricted = .ok c ∧
      (c.ontology.axioms.map Axiom.restrictions, (c.terms[(⟨"urn:d"⟩ : Iri)]?).map Term.kind,
        (c.terms[(⟨"urn:m"⟩ : Iri)]?).map Term.kind) =
      ([[], [], [⟨⟨"urn:p"⟩, false⟩, ⟨⟨"urn:d"⟩, true⟩, ⟨⟨"urn:m"⟩, true⟩]],
        some .dataProperty, none) :=
    exists_of_toOption_map (by decide +kernel)
  simp only [Prod.mk.injEq] at evaluated
  obtain ⟨restrictions, later, foreign⟩ := evaluated
  have compiled : c.HasKind measures ⟨"urn:d"⟩ .dataProperty := by
    obtain ⟨t, known, kind⟩ := Option.map_eq_some_iff.1 later
    exact .term known kind
  have imported : c.HasKind measures ⟨"urn:m"⟩ .dataProperty :=
    hasKind_measures (Option.map_eq_none_iff.1 foreign)
  obtain ⟨d, _, _, follow⟩ := restrictions_follow_kinds hc
  refine ⟨c, hc, ?_, fun a ha r hr known => ?_⟩
  · exact List.mem_map.1 (restrictions ▸ by simp)
  · rcases known with known | known
    · exact (follow a (.inr ha) r hr _ (known ▸ compiled)).2 rfl
    · exact (follow a (.inr ha) r hr _ (known ▸ imported)).2 rfl

end Compilation

end TabularOntology
