import TabularOntology.Proofs.Compilation.Accounts
import TabularOntology.Proofs.Compilation.Plain

/-! What values are read as. A class expression is converted node by node, where a restriction
becomes one of an object property or one of a data property as a whole. A value states an axiom in
one of a few ways: it is read as a class expression, a data range, a term, a fact or a word, and
apart from names the axiom has only what the value is read as. -/

namespace TabularOntology

/-! ### Parts of axioms -/

namespace ClassExpression

/-- An expression that is more than the name of a class. -/
def isComplex : ClassExpression → Bool
  | .named _ => false
  | _ => true

theorem exists_word {c : ClassExpression} (h : c.isComplex) :
    ∃ word args, c.form = .node word args ∧ isWord word := by
  cases c with
  | named => cases h
  | cardinality b n p filler =>
    exact ⟨_, _, form_cardinality b n p filler, isWord_cardinality (isWord_ofList (by decide)) b⟩
  | dataCardinality b n p filler =>
    exact ⟨_, _, form_dataCardinality b n p filler,
      isWord_cardinality (isWord_ofList (by decide)) b⟩
  | _ => exact ⟨_, _, rfl, isWord_ofList (by decide)⟩

/-- The text of a name begins with a bracket, any other one with a letter. -/
theorem text_ne_of_isComplex {c : ClassExpression} (h : c.isComplex) (x : Iri) :
    c.text ≠ (named x).text := by
  obtain ⟨word, args, form, hw⟩ := exists_word h
  obtain ⟨d, ds, hd, hp⟩ := exists_cons_of_isWord hw
  intro same
  have first : d = '<' := by
    have texts : (Form.node word args).text.toList = x.bracketed.toList := by
      rw [← form]
      exact congrArg String.toList same
    rw [Form.toList_text_node, hd, toList_bracketed] at texts
    exact (List.cons.inj texts).1
  exact absurd (first ▸ hp) (by decide)

/-- Only complex operands matter for what names do not have. -/
theorem flatMap_filter_isComplex {β : Type} {g : ClassExpression → List β}
    (named : ∀ x, g (.named x) = []) (cs : List ClassExpression) :
    (cs.filter isComplex).flatMap g = cs.flatMap g := by
  induction cs with
  | nil => rfl
  | cons c cs ih =>
    cases c with
    | named x =>
      rw [List.filter_cons_of_neg Bool.false_ne_true, ih, List.flatMap_cons, named, List.nil_append]
    | _ => rw [List.filter_cons_of_pos rfl, List.flatMap_cons, ih, List.flatMap_cons]

theorem flatMap_eq_of_filter_isComplex {β : Type} {g : ClassExpression → List β}
    (named : ∀ x, g (.named x) = []) {cs : List ClassExpression} {c : ClassExpression}
    (h : cs.filter isComplex = [c].filter isComplex) : cs.flatMap g = g c := by
  rw [← flatMap_filter_isComplex named, h, flatMap_filter_isComplex named, List.flatMap_singleton]

/-- An expression beside a name is neither lost nor doubled. -/
theorem filter_canonicalOperands (x : Iri) (c : ClassExpression) :
    (canonicalOperands text [.named x, c]).filter isComplex = [c].filter isComplex := by
  have inserted : canonicalOperands text [.named x, c] = insertOperand text c [.named x] := rfl
  have name : isComplex (.named x) = false := rfl
  rw [inserted, insertOperand]
  split
  · simp [List.filter_cons, name]
  · next same =>
    have texts : c.text = (named x).text := Std.LawfulEqOrd.eq_of_compare same
    have simple : c.isComplex = false :=
      Bool.eq_false_iff.2 fun complex => text_ne_of_isComplex complex x texts
    simp [name, simple]
  · simp [insertOperand, List.filter_cons, name]

end ClassExpression

namespace Axiom

/-- The class expressions that an axiom is about. -/
def operands : Axiom → List ClassExpression
  | .subClass c d => [c, d]
  | .equivalentClasses cs | .disjointClasses cs => cs
  | .objectPropertyDomain _ c | .objectPropertyRange _ c | .dataPropertyDomain _ c => [c]
  | .classAssertion c _ => [c]
  | _ => []

/-- The individuals that an axiom is about, those inside class expressions left out. -/
def individuals : Axiom → List Individual
  | .classAssertion _ i | .dataPropertyAssertion _ i _ | .negativeDataPropertyAssertion _ i _ => [i]
  | .objectPropertyAssertion _ i j | .negativeObjectPropertyAssertion _ i j => [i, j]
  | _ => []

/-- The axiom is about neither class expressions nor individuals. -/
def IsBare (a : Axiom) : Prop := a.operands = [] ∧ a.individuals = []

end Axiom

/-! ### References in values -/

namespace Cell

/-- The references in the fact, in reading order. -/
def Fact.references (f : Fact) : List TermReference := f.property :: f.value.references

/-- What a value is read as. -/
inductive Reading
  /-- A class expression or a data range. -/
  | expression
  | term
  | fact
  /-- A name that refers to nothing. -/
  | word
  deriving DecidableEq, Repr

/-- The references in a value; there are none if it cannot be read. -/
def Reading.references (depth : Nat) (text : String) : Reading → List TermReference
  | .expression => (parseExpression depth text).toOption.elim [] Expression.references
  | .term => (parseTerm text).toOption.elim [] fun t => [t]
  | .fact => (parseFact text).toOption.elim [] Fact.references
  | .word => []

end Cell

/-- What the values of a column are read as that says something of entities of a kind. -/
def Column.reading (kind : EntityKind) : Column → Cell.Reading
  | .parent => if kind = .cls ∨ kind = .individual then .expression else .term
  | .children | .equivalent | .disjoint => if kind = .cls then .expression else .term
  | .domain | .range | .instanceOf => .expression
  | .inverse => .term
  | .characteristics => .word
  | .relations | .dataFacts => .fact

namespace CellScope

variable {s : CellScope} {property : ObjectProperty} {iri x : Iri} {c : ClassExpression}

/-! ### Expressions -/

/-- A restriction of an object property and its filler as written, where `P` relates an expression
in the filler to what it becomes. -/
inductive FillsObject (s : CellScope) (P : Cell.Expression → ClassExpression → Prop)
    (property : ObjectProperty) : Cell.Filler → ClassExpression → Prop
  | none (b : Bound) (n : Nat) : FillsObject s P property .none (.cardinality b n property none)
  | some {e : Cell.Expression} {c : ClassExpression} (h : P e c) :
    FillsObject s P property (.expression e) (.some property c)
  | only {e : Cell.Expression} {c : ClassExpression} (h : P e c) :
    FillsObject s P property (.expression e) (.only property c)
  | cardinality (b : Bound) (n : Nat) {e : Cell.Expression} {c : ClassExpression} (h : P e c) :
    FillsObject s P property (.expression e) (.cardinality b n property (.some c))
  | hasValue {t : Cell.TermReference} {i : Individual} (h : s.individual t = .ok i) :
    FillsObject s P property (.value (.individual t)) (.hasValue property i)

/-- A restriction of a data property and its filler as written. -/
inductive FillsData (s : CellScope) (property : Iri) : Cell.Filler → ClassExpression → Prop
  | none (b : Bound) (n : Nat) : FillsData s property .none (.dataCardinality b n property none)
  | some {e : Cell.Expression} {d : DataRange} (h : s.dataRange e = .ok d) :
    FillsData s property (.expression e) (.dataSome property d)
  | only {e : Cell.Expression} {d : DataRange} (h : s.dataRange e = .ok d) :
    FillsData s property (.expression e) (.dataOnly property d)
  | cardinality (b : Bound) (n : Nat) {e : Cell.Expression} {d : DataRange}
    (h : s.dataRange e = .ok d) :
    FillsData s property (.expression e) (.dataCardinality b n property (.some d))
  | hasValue {l : Cell.LiteralValue} {v : Literal} (h : s.literal l = .ok v) :
    FillsData s property (.value (.literal l)) (.dataHasValue property v)

theorem fillsObject {P : Cell.Expression → ClassExpression → Prop} {p : Cell.PropertyReference}
    {q : Cell.Quantifier} {n : Option Nat} {f : Cell.Filler}
    (inner : ∀ e c, f = .expression e → s.classExpression e = .ok c → P e c)
    (h : s.objectRestriction p property q n f = .ok c) : s.FillsObject P property f c := by
  cases f with
  | none =>
    cases q with
    | some | only | value => cases h
    | exactly | min | max =>
      cases h
      exact .none _ _
  | expression e =>
    obtain ⟨d, hd, h⟩ := bind_eq_ok.1 h
    have related : P e d := inner e d rfl hd
    cases q with
    | value => cases h
    | some =>
      cases h
      exact .some related
    | only =>
      cases h
      exact .only related
    | exactly | min | max =>
      cases h
      exact .cardinality _ _ related
  | value v =>
    change s.ofObjectValue _ p property q v = .ok c at h
    unfold ofObjectValue at h
    split at h
    · obtain ⟨i, hi, rfl⟩ := map_eq_ok.1 h
      exact .hasValue hi
    · cases h
    · cases h

theorem fillsData {p : Cell.PropertyReference} {q : Cell.Quantifier} {n : Option Nat}
    {f : Cell.Filler} (h : s.dataRestriction p iri q n f = .ok c) : s.FillsData iri f c := by
  cases f with
  | none =>
    cases q with
    | some | only | value => cases h
    | exactly | min | max =>
      cases h
      exact .none _ _
  | expression e =>
    obtain ⟨d, hd, h⟩ := bind_eq_ok.1 h
    cases q with
    | value => cases h
    | some =>
      cases h
      exact .some hd
    | only =>
      cases h
      exact .only hd
    | exactly | min | max =>
      cases h
      exact .cardinality _ _ hd
  | value v =>
    change s.ofDataValue _ p iri q v = .ok c at h
    unfold ofDataValue at h
    split at h
    · obtain ⟨l, hl, rfl⟩ := map_eq_ok.1 h
      exact .hasValue hl
    · cases h
    · cases h

/-- Induction over an expression together with what it becomes. -/
theorem classExpression_induction {P : Cell.Expression → ClassExpression → Prop}
    (term : ∀ {t x}, s.term t = .ok x → P (.term t) (.named x))
    (intersection : ∀ {es cs}, List.Forall₂ P es cs → P (.intersection es) (.intersection cs))
    (union : ∀ {es cs}, List.Forall₂ P es cs → P (.union es) (.union cs))
    (complement : ∀ {e c}, P e c → P (.complement e) (.complement c))
    (object : ∀ {p iri property q n f c}, s.term p.term = .ok iri → property.iri = iri →
      s.isData iri f = false → s.FillsObject P property f c → P (.restriction p q n f) c)
    (data : ∀ {p iri q n f c}, s.term p.term = .ok iri → s.isData iri f = true →
      s.FillsData iri f c → P (.restriction p q n f) c)
    {e : Cell.Expression} (h : s.classExpression e = .ok c) : P e c := by
  have operands {es : List Cell.Expression} {cs : List ClassExpression}
      (ih : ∀ e ∈ es, ∀ c, s.classExpression e = .ok c → P e c)
      (hcs : s.classExpressions es = .ok cs) : List.Forall₂ P es cs := by
    rw [classExpressions_eq_mapM, mapM_eq_ok] at hcs
    exact ((List.forall₂_and_left es cs).2 ⟨ih, hcs⟩).imp fun e c both => both.1 c both.2
  induction e generalizing c with
  | term t =>
    obtain ⟨x, hx, rfl⟩ := map_eq_ok.1 h
    exact term hx
  | intersection es ih =>
    obtain ⟨cs, hcs, rfl⟩ := map_eq_ok.1 h
    exact intersection (operands (fun e he c => ih e he) hcs)
  | union es ih =>
    obtain ⟨cs, hcs, rfl⟩ := map_eq_ok.1 h
    exact union (operands (fun e he c => ih e he) hcs)
  | complement e ih =>
    obtain ⟨c, inner, rfl⟩ := map_eq_ok.1 h
    exact complement (ih inner)
  | restriction p q n f ih =>
    obtain ⟨iri, hp, h⟩ := bind_eq_ok.1 h
    cases sort : s.isData iri f with
    | true =>
      rw [if_pos sort] at h
      split at h
      · cases h
      · exact data hp sort (fillsData h)
    | false =>
      rw [if_neg (by simp [sort])] at h
      refine object hp ?_ sort (fillsObject (fun e c same => ih e same) h)
      split <;> rfl

/-! ### Statements -/

/-- How a text states an axiom. Apart from names, the class expressions and the individuals of the
axiom are what the text is read as. -/
inductive StatedBy (s : CellScope) (text : String) : Cell.Reading → Axiom → Prop
  | expression {e : Cell.Expression} {c : ClassExpression} {a : Axiom}
    (parsed : Cell.parseExpression s.maxDepth text = .ok e) (read : s.classExpression e = .ok c)
    (operands : a.operands.filter ClassExpression.isComplex = [c].filter ClassExpression.isComplex)
    (individuals : ∀ i ∈ a.individuals, ∃ x, i = .named x) : StatedBy s text .expression a
  | range {e : Cell.Expression} {d : DataRange} {a : Axiom}
    (parsed : Cell.parseExpression s.maxDepth text = .ok e) (read : s.dataRange e = .ok d)
    (bare : a.IsBare) : StatedBy s text .expression a
  | term {t : Cell.TermReference} {x : Iri} {a : Axiom} (parsed : Cell.parseTerm text = .ok t)
    (read : s.term t = .ok x) (bare : a.IsBare) : StatedBy s text .term a
  | relation {fact : Cell.Fact} {p x : Iri} {t : Cell.TermReference} {i : Individual} {a : Axiom}
    (parsed : Cell.parseFact text = .ok fact) (property : s.term fact.property = .ok p)
    (value : fact.value = .individual t) (read : s.individual t = .ok i)
    (operands : a.operands = []) (individuals : a.individuals = [.named x, i]) :
    StatedBy s text .fact a
  | dataFact {fact : Cell.Fact} {p x : Iri} {l : Cell.LiteralValue} {v : Literal} {a : Axiom}
    (parsed : Cell.parseFact text = .ok fact) (property : s.term fact.property = .ok p)
    (value : fact.value = .literal l) (read : s.literal l = .ok v)
    (operands : a.operands = []) (individuals : a.individuals = [.named x]) :
    StatedBy s text .fact a
  | word {a : Axiom} (bare : a.IsBare) : StatedBy s text .word a

section
variable {text : String} {a : Axiom} {p : Iri} {column : Column}
variable {state : String → Except RecordError Axiom}

theorem statedBy_readClass {f : ClassExpression → Axiom} (ha : (s.readClass text).map f = .ok a)
    (operands : ∀ c, (f c).operands.filter ClassExpression.isComplex =
      [c].filter ClassExpression.isComplex)
    (individuals : ∀ c, ∀ i ∈ (f c).individuals, ∃ x, i = .named x) :
    s.StatedBy text .expression a := by
  obtain ⟨c, hc, rfl⟩ := map_eq_ok.1 ha
  obtain ⟨e, he, hc⟩ := bind_eq_ok.1 hc
  exact .expression (mapError_eq_ok.1 he) hc (operands c) (individuals c)

theorem statedBy_readRange {f : DataRange → Axiom} (ha : (s.readRange text).map f = .ok a)
    (bare : ∀ d, (f d).IsBare) : s.StatedBy text .expression a := by
  obtain ⟨d, hd, rfl⟩ := map_eq_ok.1 ha
  obtain ⟨e, he, hd⟩ := bind_eq_ok.1 hd
  exact .range (mapError_eq_ok.1 he) hd (bare d)

theorem statedBy_readTerm {f : Iri → Axiom} (ha : (s.readTerm text).map f = .ok a)
    (bare : ∀ x, (f x).IsBare) : s.StatedBy text .term a := by
  obtain ⟨x, hx, rfl⟩ := map_eq_ok.1 ha
  obtain ⟨t, ht, hx⟩ := bind_eq_ok.1 hx
  exact .term (mapError_eq_ok.1 ht) hx (bare x)

theorem readFact_eq_ok {r : Cell.Fact × Iri} (h : s.readFact text = .ok r) :
    Cell.parseFact text = .ok r.1 ∧ s.term r.1.property = .ok r.2 := by
  obtain ⟨fact, parsed, h⟩ := bind_eq_ok.1 h
  obtain ⟨p, property, h⟩ := bind_eq_ok.1 h
  cases h
  exact ⟨mapError_eq_ok.1 parsed, property⟩

theorem statedBy_readRelation (ha : s.readRelation (.named iri) text = .ok a) :
    s.StatedBy text .fact a := by
  obtain ⟨⟨fact, p⟩, hr, ha⟩ := bind_eq_ok.1 ha
  obtain ⟨parsed, property⟩ := readFact_eq_ok hr
  dsimp only at ha
  split at ha
  · cases ha
  · next t value =>
    obtain ⟨i, read, ha⟩ := bind_eq_ok.1 ha
    cases ha
    refine .relation (x := iri) parsed property value read ?_ ?_ <;> split <;> rfl

theorem statedBy_readDataFact (ha : s.readDataFact (.named iri) text = .ok a) :
    s.StatedBy text .fact a := by
  obtain ⟨⟨fact, p⟩, hr, ha⟩ := bind_eq_ok.1 ha
  obtain ⟨parsed, property⟩ := readFact_eq_ok hr
  dsimp only at ha
  split at ha
  · cases ha
  · next l value =>
    obtain ⟨v, read, ha⟩ := bind_eq_ok.1 ha
    cases ha
    refine .dataFact (x := iri) parsed property value read ?_ ?_ <;> split <;> rfl

theorem statedBy_classStatement (hs : s.classStatement iri column = some state)
    (ha : state text = .ok a) : s.StatedBy text (column.reading .cls) a := by
  cases column with
  | parent =>
    cases hs
    exact statedBy_readClass ha (fun _ => rfl) (by simp [Axiom.individuals])
  | children =>
    cases hs
    exact statedBy_readClass ha (fun c => by cases c <;> rfl) (by simp [Axiom.individuals])
  | equivalent | disjoint =>
    cases hs
    exact statedBy_readClass ha (ClassExpression.filter_canonicalOperands iri)
      (by simp [Axiom.ofEquivalentClasses, Axiom.ofDisjointClasses, Axiom.individuals])
  | domain | range | inverse | characteristics | instanceOf | relations | dataFacts => cases hs

theorem statedBy_objectPropertyStatement (hs : s.objectPropertyStatement p column = some state)
    (ha : state text = .ok a) : s.StatedBy text (column.reading .objectProperty) a := by
  cases column with
  | parent | children | equivalent | disjoint =>
    cases hs
    exact statedBy_readTerm ha fun _ => ⟨rfl, rfl⟩
  | domain | range =>
    cases hs
    exact statedBy_readClass ha (fun _ => rfl) (by simp [Axiom.individuals])
  | inverse =>
    cases hs
    refine statedBy_readTerm ha fun q => ?_
    unfold Axiom.ofInverseObjectProperties
    split <;> exact ⟨rfl, rfl⟩
  | characteristics =>
    obtain rfl := Option.some.inj hs
    obtain ⟨c, -, rfl⟩ := map_eq_ok.1 ha
    exact .word ⟨rfl, rfl⟩
  | instanceOf | relations | dataFacts => cases hs

theorem statedBy_dataPropertyStatement (hs : s.dataPropertyStatement p column = some state)
    (ha : state text = .ok a) : s.StatedBy text (column.reading .dataProperty) a := by
  cases column with
  | parent | children | equivalent | disjoint =>
    cases hs
    exact statedBy_readTerm ha fun _ => ⟨rfl, rfl⟩
  | domain =>
    cases hs
    exact statedBy_readClass ha (fun _ => rfl) (by simp [Axiom.individuals])
  | range =>
    cases hs
    exact statedBy_readRange ha fun _ => ⟨rfl, rfl⟩
  | characteristics =>
    obtain rfl := Option.some.inj hs
    obtain ⟨c, -, ha⟩ := bind_eq_ok.1 ha
    split at ha
    · cases ha
      exact .word ⟨rfl, rfl⟩
    · cases ha
  | inverse | instanceOf | relations | dataFacts => cases hs

theorem statedBy_annotationPropertyStatement
    (hs : s.annotationPropertyStatement p column = some state) (ha : state text = .ok a) :
    s.StatedBy text (column.reading .annotationProperty) a := by
  cases column with
  | parent | children =>
    cases hs
    exact statedBy_readTerm ha fun _ => ⟨rfl, rfl⟩
  | equivalent | disjoint | domain | range | inverse | characteristics | instanceOf | relations
  | dataFacts => cases hs

theorem statedBy_individualStatement (hs : s.individualStatement iri column = some state)
    (ha : state text = .ok a) : s.StatedBy text (column.reading .individual) a := by
  cases column with
  | parent | instanceOf =>
    cases hs
    exact statedBy_readClass ha (fun _ => rfl) (by simp [Axiom.individuals])
  | relations =>
    cases hs
    exact statedBy_readRelation ha
  | dataFacts =>
    cases hs
    exact statedBy_readDataFact ha
  | children | equivalent | disjoint | domain | range | inverse | characteristics => cases hs

/-- Whatever a value states, it states by being read as its column has it. -/
theorem statedBy_statement {kind : EntityKind} (hs : s.statement kind iri column = some state)
    (ha : state text = .ok a) : s.StatedBy text (column.reading kind) a := by
  cases kind with
  | cls => exact statedBy_classStatement hs ha
  | objectProperty => exact statedBy_objectPropertyStatement hs ha
  | dataProperty => exact statedBy_dataPropertyStatement hs ha
  | annotationProperty => exact statedBy_annotationPropertyStatement hs ha
  | individual => exact statedBy_individualStatement hs ha

end

end CellScope

/-! ### Declarations -/

namespace Declaration

variable {scope : IdentifierScope} {iri : Iri} {key : String} {texts : List AnnotationText}
variable {as : List Axiom} {a : Axiom} {r : TermRecord}

theorem isBare_of_mem_annotationAxioms (h : annotationAxioms scope iri key texts = .ok as)
    (ha : a ∈ as) : a.IsBare := by
  obtain ⟨p, _, h⟩ := bind_eq_ok.1 h
  obtain ⟨values, _, h⟩ := bind_eq_ok.1 h
  cases h
  rcases List.mem_append.1 ha with ha | ha
  · split at ha
    · exact absurd ha List.not_mem_nil
    · exact List.mem_singleton.1 ha ▸ ⟨rfl, rfl⟩
  · obtain ⟨v, _, rfl⟩ := List.mem_map.1 ha
    exact ⟨rfl, rfl⟩

theorem isBare_of_mem_textAxioms (ha : a ∈ textAxioms iri r) : a.IsBare := by
  unfold textAxioms at ha
  dsimp only at ha
  rcases List.mem_append.1 ha with ha | ha
  · rcases List.mem_append.1 ha with ha | ha
    · obtain ⟨text, _, rfl⟩ := Option.map_eq_some_iff.1 (Option.mem_toList.1 ha)
      exact ⟨rfl, rfl⟩
    · split at ha
      · rcases List.mem_cons.1 ha with rfl | ha
        · exact ⟨rfl, rfl⟩
        · exact List.mem_singleton.1 ha ▸ ⟨rfl, rfl⟩
      · exact absurd ha List.not_mem_nil
  · obtain ⟨text, _, rfl⟩ := List.mem_map.1 ha
    exact ⟨rfl, rfl⟩

/-- What a declaration brings is about a name and texts only. -/
theorem isBare_of_mem_ofRecord (h : ofRecord scope r = .ok (iri, as)) (ha : a ∈ as) :
    a.IsBare := by
  obtain ⟨x, _, h⟩ := bind_eq_ok.1 h
  obtain ⟨annotations, hannotations, h⟩ := bind_eq_ok.1 h
  cases h
  rcases List.mem_cons.1 ha with rfl | ha
  · exact ⟨rfl, rfl⟩
  rcases List.mem_append.1 ha with ha | ha
  · exact isBare_of_mem_textAxioms ha
  · obtain ⟨as, has, ha⟩ := List.mem_flatten.1 ha
    obtain ⟨_, _, made⟩ := exists_of_mem_mapM hannotations has
    exact isBare_of_mem_annotationAxioms made ha

end Declaration

namespace Compilation

variable {c d : Compilation} {settings : Settings} {catalog : Catalog} {a : Axiom}

/-- An axiom of a compiled ontology that cells do not state is bare. -/
theorem Finishes.cellsState_or_isBare {rs : List TermRecord}
    (h : Finishes settings catalog rs d c) (ha : a ∈ c.ontology.axioms) :
    d.CellsState settings catalog a ∨ a.IsBare := by
  rcases mem_stated.1 (h.axioms_subset ha) with ⟨r, _, ha⟩ | stated
  · obtain ⟨x, as, declared, ha⟩ := TermRecord.exists_of_mem_declaredAxioms ha
    exact .inr (Declaration.isBare_of_mem_ofRecord declared ha)
  · exact .inl stated

end Compilation

end TabularOntology
