import TabularOntology.Compilation.Tables
import TabularOntology.Proofs.Iri.Plain
import TabularOntology.Proofs.Key.Operands

/-! Compiled axioms are plain. The IRIs that tables write are read by the syntax of IRIs,
which has no closing brackets, language tags and blank node identifiers are checked, and
texts in literals are escaped. Only a label of a source can bring in an IRI that was never
read, so the carriers of those labels have to be plain for the axioms to be. -/

namespace TabularOntology

/-! ### Language tags -/

namespace LanguageTag

variable {s : String} {cs : List Char} {css : List (List Char)}

theorem isAlphanumeric_of_isLetters (h : isLetters cs) : isAlphanumeric cs := by
  simp only [isLetters, isAlphanumeric, List.all_eq_true] at h ⊢
  intro c hc
  simp [Char.isAlphanum, h c hc]

theorem isAlphanumeric_of_digits (h : cs.all Char.isDigit) : isAlphanumeric cs := by
  simp only [isAlphanumeric, List.all_eq_true] at h ⊢
  intro c hc
  simp [Char.isAlphanum, h c hc]

theorem isAlphanumeric_of_isVariant (h : isVariant cs) : isAlphanumeric cs := by
  unfold isVariant at h
  split at h
  · cases h
  · simp only [Bool.and_eq_true] at h
    exact h.1

/-- A subtag that is accepted has only letters and digits. -/
theorem isAlphanumeric_of_step {state : State} {n : Nat} {r : State × Nat}
    (h : step state n cs = .ok r) : isAlphanumeric cs := by
  unfold step at h
  dsimp only at h
  split at h
  · cases h
  split at h
  · cases h
  split at h
  · split at h
    · cases h
    · next letters =>
      simp only [Bool.or_eq_true, not_or, Bool.not_eq_true, Bool.not_eq_false'] at letters
      exact isAlphanumeric_of_isLetters letters.2
  · split at h
    · next ok => exact ok
    · cases h
  split at h
  · next single =>
    simp only [Bool.and_eq_true] at single
    exact single.2
  split at h
  · split at h
    · next ok => exact ok
    · cases h
  split at h
  · next extlang =>
    simp only [Bool.and_eq_true] at extlang
    exact isAlphanumeric_of_isLetters extlang.2
  split at h
  · next script =>
    simp only [Bool.and_eq_true] at script
    exact isAlphanumeric_of_isLetters script.2
  split at h
  · next region =>
    simp only [Bool.and_eq_true, Bool.or_eq_true] at region
    rcases region.2 with region | region
    · exact isAlphanumeric_of_isLetters region.2
    · exact isAlphanumeric_of_digits region.2
  split at h
  · next variety => exact isAlphanumeric_of_isVariant variety
  · cases h

theorem isAlphanumeric_of_check {state : State} {n : Nat} (h : check state n css = .ok ()) :
    ∀ cs ∈ css, isAlphanumeric cs := by
  induction css generalizing state n with
  | nil => exact fun _ hc => absurd hc List.not_mem_nil
  | cons cs css ih =>
    rw [check] at h
    split at h
    · cases h
    · next stepped => exact List.forall_mem_cons.2 ⟨isAlphanumeric_of_step stepped, ih h⟩

theorem isAlphanumeric_of_checkPrivate (h : checkPrivate css = .ok ()) :
    ∀ cs ∈ css, isAlphanumeric cs := by
  induction css with
  | nil => exact fun _ hc => absurd hc List.not_mem_nil
  | cons cs css ih =>
    rw [checkPrivate] at h
    split at h
    · cases h
    split at h
    · cases h
    split at h
    · cases h
    · next ok => exact List.forall_mem_cons.2 ⟨by simpa using ok, ih h⟩

/-- What can stand in a tag: no blank and no parenthesis. -/
theorem plain_of_pieces (h : ∀ g ∈ Text.pieces (· == '-') cs, isAlphanumeric g) {c : Char}
    (hc : c ∈ cs) : c ≠ ' ' ∧ c ≠ ')' := by
  obtain sep | ⟨g, hg, hc⟩ := Text.mem_pieces (p := (· == '-')) hc
  · rw [beq_iff_eq.1 sep]
    decide
  · have alphanumeric := List.all_eq_true.1 (h g hg) c hc
    constructor <;> rintro rfl <;> exact absurd alphanumeric (by decide)

theorem isPlainName_iff : isPlainName s ↔ ∀ c ∈ s.toList, c ≠ ' ' ∧ c ≠ ')' := by
  simp [isPlainName]

theorem isPlainName_ofString {tag : String} (h : ofString s = .ok tag) : isPlainName tag := by
  have old : ∀ t ∈ grandfathered, isPlainName t := by decide
  unfold ofString at h
  dsimp only at h
  split at h
  · next found =>
    cases h
    exact old _ (List.contains_iff_mem.1 found)
  split at h
  · cases h
  · next rest _ cut =>
    obtain ⟨_, checked, h⟩ := bind_eq_ok.1 h
    cases h
    have subtags : ∀ c ∈ rest.toList, c ≠ ' ' ∧ c ≠ ')' := fun c hc =>
      plain_of_pieces (isAlphanumeric_of_checkPrivate checked) hc
    rw [isPlainName_iff, Text.stripStart?_eq_some.1 cut]
    intro c hc
    rcases List.mem_append.1 hc with hc | hc
    · have mark : "x-".toList = ['x', '-'] := rfl
      rw [mark, List.mem_cons, List.mem_singleton] at hc
      rcases hc with rfl | rfl <;> decide
    · exact subtags c hc
  · obtain ⟨_, checked, h⟩ := bind_eq_ok.1 h
    cases h
    exact isPlainName_iff.2 fun c hc => plain_of_pieces (isAlphanumeric_of_check checked) hc

end LanguageTag

/-! ### Atoms -/

theorem isPlain_ofText {value : String} {language : Option String} {l : Literal}
    (h : Literal.ofText value language = .ok l) : l.isPlain := by
  cases language with
  | none =>
    cases h
    rfl
  | some tag =>
    rw [Literal.ofText] at h
    split at h
    · next read =>
      cases h
      exact LanguageTag.isPlainName_ofString read
    · cases h

theorem isPlain_ofTyped {value : String} {datatype : Iri} (h : datatype.isPlain) :
    (Literal.ofTyped value datatype).isPlain := by
  unfold Literal.ofTyped
  split
  · rfl
  · exact h

theorem isPlainName_of_isId {node : String} (h : BlankNode.isId node) : isPlainName node := by
  have allowed : ∀ c, BlankNode.isStart c ∨ BlankNode.isMark c → c ≠ ' ' ∧ c ≠ ')' := by
    rintro c hc
    constructor <;> rintro rfl <;> exact absurd hc (by decide)
  rw [LanguageTag.isPlainName_iff]
  unfold BlankNode.isId at h
  split at h
  · cases h
  · next c cs chars =>
    simp only [Bool.and_eq_true, List.all_eq_true, Bool.or_eq_true] at h
    rw [chars]
    exact List.forall_mem_cons.2 ⟨allowed c (.inl h.1.1), fun d hd => allowed d (h.1.2 d hd)⟩

/-! ### References -/

/-- Identifiers are read against an absolute base, and only plain IRIs carry labels. -/
structure ReferenceScope.IsPlain (scope : ReferenceScope) : Prop where
  read : scope.identifiers.IsRead
  terms : ∀ label, ∀ x ∈ scope.termLabels.carriers label, x.isPlain
  sources : ∀ label, ∀ x ∈ scope.sourceLabels.carriers label, x.isPlain

section
variable {scope : IdentifierScope} {references : ReferenceScope} {x : Iri} {text : String}

theorem IdentifierScope.isPlain_read (h : scope.IsRead) (hx : scope.read text = .ok x) :
    x.isPlain :=
  isPlain_resolve h (mapError_eq_ok.1 hx)

theorem IdentifierScope.isPlain_readId (h : scope.IsRead) (hx : scope.readId text = .ok x) :
    x.isPlain := by
  unfold readId at hx
  dsimp only at hx
  split at hx
  · cases hx
  · exact isPlain_read h hx

theorem IdentifierScope.carriers_subset {labels : Labels} {space : Option String}
    (hx : x ∈ scope.carriers labels space text) : x ∈ labels.carriers text :=
  Std.TreeSet.mem_toList.1 (List.mem_of_mem_filter hx)

theorem ReferenceScope.IsPlain.candidates (h : references.IsPlain) {space : Option String}
    (hx : x ∈ references.candidates space text) : x.isPlain := by
  unfold ReferenceScope.candidates at hx
  split at hx
  · exact h.sources _ x (IdentifierScope.carriers_subset hx)
  · exact h.terms _ x (IdentifierScope.carriers_subset hx)

theorem ReferenceScope.IsPlain.resolve (h : references.IsPlain) {t : Cell.TermReference}
    (hx : references.resolve t = .ok x) : x.isPlain := by
  unfold ReferenceScope.resolve at hx
  split at hx
  · exact IdentifierScope.isPlain_read h.read hx
  · exact IdentifierScope.isPlain_read h.read hx
  · split at hx
    · next only =>
      cases hx
      exact h.candidates (only ▸ List.mem_cons_self)
    · cases hx
    · cases hx
  · cases hx

end

/-! ### Expressions -/

/-- Induction over expressions as they are written, with the operands of a list taken
together. -/
@[elab_as_elim, induction_eliminator]
theorem Cell.Expression.induct {motive : Expression → Prop}
    (term : ∀ t, motive (.term t))
    (intersection : ∀ es, (∀ e ∈ es, motive e) → motive (.intersection es))
    (union : ∀ es, (∀ e ∈ es, motive e) → motive (.union es))
    (complement : ∀ e, motive e → motive (.complement e))
    (restriction : ∀ p q n f, (∀ e, f = .expression e → motive e) →
      motive (.restriction p q n f)) (e : Expression) : motive e :=
  @Expression.rec motive (fun f => ∀ e, f = .expression e → motive e)
    (fun es => ∀ e ∈ es, motive e)
    term intersection union complement restriction nofun
    (fun _ he _ same => Filler.expression.inj same ▸ he) nofun
    (by simp) (fun _ _ he hes => List.forall_mem_cons.2 ⟨he, hes⟩) e

namespace CellScope

variable {s : CellScope}

theorem isPlain_literal (h : s.references.IsPlain) {v : Cell.LiteralValue} {l : Literal}
    (hl : s.literal v = .ok l) : l.isPlain := by
  cases v with
  | string text language => exact isPlain_ofText hl
  | typed text datatype =>
    obtain ⟨x, hx, rfl⟩ := map_eq_ok.1 hl
    exact isPlain_ofTyped (h.resolve hx)
  | integer =>
    cases hl
    exact (by decide : Vocabulary.integer.isPlain)
  | decimal =>
    cases hl
    exact (by decide : Vocabulary.decimal.isPlain)
  | boolean =>
    cases hl
    exact (by decide : Vocabulary.boolean.isPlain)

theorem isPlain_individual (h : s.references.IsPlain) {t : Cell.TermReference} {i : Individual}
    (hi : s.individual t = .ok i) : i.isPlain := by
  unfold individual at hi
  split at hi
  · split at hi
    · next formed =>
      cases hi
      exact isPlainName_of_isId formed
    · cases hi
  · obtain ⟨x, hx, rfl⟩ := map_eq_ok.1 hi
    exact h.resolve hx

theorem dataRanges_eq_mapM (s : CellScope) (es : List Cell.Expression) :
    s.dataRanges es = es.mapM s.dataRange := by
  induction es with
  | nil => rfl
  | cons e es ih =>
    rw [dataRanges, ih, List.mapM_cons]
    rfl

theorem classExpressions_eq_mapM (s : CellScope) (es : List Cell.Expression) :
    s.classExpressions es = es.mapM s.classExpression := by
  induction es with
  | nil => rfl
  | cons e es ih =>
    rw [classExpressions, ih, List.mapM_cons]
    rfl

theorem isPlain_dataRange (h : s.references.IsPlain) {e : Cell.Expression} {d : DataRange}
    (hd : s.dataRange e = .ok d) : d.isPlain := by
  induction e generalizing d with
  | term t =>
    obtain ⟨x, hx, rfl⟩ := map_eq_ok.1 hd
    exact h.resolve hx
  | intersection es ih | union es ih =>
    obtain ⟨ds, hds, rfl⟩ := map_eq_ok.1 hd
    rw [dataRanges_eq_mapM] at hds
    rw [DataRange.isPlain, DataRange.arePlain_eq_all, List.all_eq_true]
    intro d hd
    obtain ⟨e, he, hed⟩ := exists_of_mem_mapM hds hd
    exact ih e he hed
  | complement e ih =>
    obtain ⟨d, inner, rfl⟩ := map_eq_ok.1 hd
    have plain : d.isPlain := ih inner
    exact plain
  | restriction => cases hd

section Restrictions
variable {whole : Cell.Expression} {p : Cell.PropertyReference} {q : Cell.Quantifier}
variable {iri : Iri} {property : ObjectProperty} {n : Nat} {v : Cell.Value} {c : ClassExpression}

theorem isPlain_ofObjectFiller {filler : Option ClassExpression} (hp : property.iri.isPlain)
    (hf : ∀ e ∈ filler, e.isPlain) (hc : ofObjectFiller whole property q n filler = .ok c) :
    c.isPlain := by
  cases filler with
  | none =>
    cases q with
    | some | only | value => cases hc
    | exactly | min | max =>
      cases hc
      exact hp
  | some e =>
    have both : property.iri.isPlain && e.isPlain := Bool.and_eq_true_iff.2 ⟨hp, hf e rfl⟩
    cases q with
    | value => cases hc
    | some | only | exactly | min | max =>
      cases hc
      exact both

theorem isPlain_ofDataFiller {filler : Option DataRange} (hp : iri.isPlain)
    (hf : ∀ d ∈ filler, d.isPlain) (hc : ofDataFiller whole iri q n filler = .ok c) :
    c.isPlain := by
  cases filler with
  | none =>
    cases q with
    | some | only | value => cases hc
    | exactly | min | max =>
      cases hc
      exact hp
  | some d =>
    have both : iri.isPlain && d.isPlain := Bool.and_eq_true_iff.2 ⟨hp, hf d rfl⟩
    cases q with
    | value => cases hc
    | some | only | exactly | min | max =>
      cases hc
      exact both

theorem isPlain_ofObjectValue (h : s.references.IsPlain) (hp : property.iri.isPlain)
    (hc : s.ofObjectValue whole p property q v = .ok c) : c.isPlain := by
  unfold ofObjectValue at hc
  split at hc
  · obtain ⟨i, hi, rfl⟩ := map_eq_ok.1 hc
    exact Bool.and_eq_true_iff.2 ⟨hp, isPlain_individual h hi⟩
  · cases hc
  · cases hc

theorem isPlain_ofDataValue (h : s.references.IsPlain) (hp : iri.isPlain)
    (hc : s.ofDataValue whole p iri q v = .ok c) : c.isPlain := by
  unfold ofDataValue at hc
  split at hc
  · obtain ⟨l, hl, rfl⟩ := map_eq_ok.1 hc
    exact Bool.and_eq_true_iff.2 ⟨hp, isPlain_literal h hl⟩
  · cases hc
  · cases hc

theorem isPlain_dataRestriction (h : s.references.IsPlain) (hp : iri.isPlain) {n : Option Nat}
    {f : Cell.Filler} (hc : s.dataRestriction p iri q n f = .ok c) : c.isPlain := by
  cases f with
  | none => exact isPlain_ofDataFiller hp (by simp) hc
  | expression e =>
    obtain ⟨d, hd, hc⟩ := bind_eq_ok.1 hc
    refine isPlain_ofDataFiller hp ?_ hc
    rintro _ ⟨⟩
    exact isPlain_dataRange h hd
  | value v => exact isPlain_ofDataValue h hp hc

theorem isPlain_objectRestriction (h : s.references.IsPlain) (hp : property.iri.isPlain)
    {n : Option Nat} {f : Cell.Filler}
    (hf : ∀ e c, f = .expression e → s.classExpression e = .ok c → c.isPlain)
    (hc : s.objectRestriction p property q n f = .ok c) : c.isPlain := by
  cases f with
  | none => exact isPlain_ofObjectFiller hp (by simp) hc
  | expression e =>
    obtain ⟨d, hd, hc⟩ := bind_eq_ok.1 hc
    refine isPlain_ofObjectFiller hp ?_ hc
    rintro _ ⟨⟩
    exact hf e d rfl hd
  | value v => exact isPlain_ofObjectValue h hp hc

end Restrictions

theorem isPlain_classExpression (h : s.references.IsPlain) {e : Cell.Expression}
    {c : ClassExpression} (hc : s.classExpression e = .ok c) : c.isPlain := by
  induction e generalizing c with
  | term t =>
    obtain ⟨x, hx, rfl⟩ := map_eq_ok.1 hc
    exact h.resolve hx
  | intersection es ih | union es ih =>
    obtain ⟨cs, hcs, rfl⟩ := map_eq_ok.1 hc
    rw [classExpressions_eq_mapM] at hcs
    rw [ClassExpression.isPlain, ClassExpression.arePlain_eq_all, List.all_eq_true]
    intro c hc
    obtain ⟨e, he, hec⟩ := exists_of_mem_mapM hcs hc
    exact ih e he hec
  | complement e ih =>
    obtain ⟨c, inner, rfl⟩ := map_eq_ok.1 hc
    have plain : c.isPlain := ih inner
    exact plain
  | restriction p q n f ih =>
    obtain ⟨iri, hiri, hc⟩ := bind_eq_ok.1 hc
    have plain : iri.isPlain := h.resolve hiri
    split at hc
    · split at hc
      · cases hc
      · exact isPlain_dataRestriction h plain hc
    · refine isPlain_objectRestriction h ?_ (fun e c same => ih e same) hc
      split <;> exact plain

/-! ### Statements -/

theorem isPlain_readClass (h : s.references.IsPlain) {value : String} {c : ClassExpression}
    (hc : s.readClass value = .ok c) : c.isPlain := by
  obtain ⟨e, _, hc⟩ := bind_eq_ok.1 hc
  exact isPlain_classExpression h hc

theorem isPlain_readRange (h : s.references.IsPlain) {value : String} {d : DataRange}
    (hd : s.readRange value = .ok d) : d.isPlain := by
  obtain ⟨e, _, hd⟩ := bind_eq_ok.1 hd
  exact isPlain_dataRange h hd

theorem isPlain_readTerm (h : s.references.IsPlain) {value : String} {x : Iri}
    (hx : s.readTerm value = .ok x) : x.isPlain := by
  obtain ⟨t, _, hx⟩ := bind_eq_ok.1 hx
  exact h.resolve hx

variable {source : Individual} {value : String} {a : Axiom} {iri p : Iri} {column : Column}
variable {state : String → Except RecordError Axiom}

theorem isPlain_readFact (h : s.references.IsPlain) {r : Cell.Fact × Iri}
    (hr : s.readFact value = .ok r) : r.2.isPlain := by
  obtain ⟨fact, _, hr⟩ := bind_eq_ok.1 hr
  obtain ⟨p, hp, hr⟩ := bind_eq_ok.1 hr
  cases hr
  exact h.resolve hp

theorem isPlain_readRelation (h : s.references.IsPlain) (hs : source.isPlain)
    (ha : s.readRelation source value = .ok a) : a.isPlain := by
  obtain ⟨⟨fact, p⟩, hr, ha⟩ := bind_eq_ok.1 ha
  have hp : p.isPlain := isPlain_readFact h hr
  dsimp only at ha
  split at ha
  · cases ha
  · obtain ⟨target, ht, ha⟩ := bind_eq_ok.1 ha
    have all : p.isPlain && source.isPlain && target.isPlain := by
      simp [hp, hs, isPlain_individual h ht]
    cases ha
    split <;> exact all

theorem isPlain_readDataFact (h : s.references.IsPlain) (hs : source.isPlain)
    (ha : s.readDataFact source value = .ok a) : a.isPlain := by
  obtain ⟨⟨fact, p⟩, hr, ha⟩ := bind_eq_ok.1 ha
  have hp : p.isPlain := isPlain_readFact h hr
  dsimp only at ha
  split at ha
  · cases ha
  · obtain ⟨target, ht, ha⟩ := bind_eq_ok.1 ha
    have all : p.isPlain && source.isPlain && target.isPlain := by
      simp [hp, hs, isPlain_literal h ht]
    cases ha
    split <;> exact all

theorem isPlain_readDataCharacteristic (hp : p.isPlain)
    (ha : readDataCharacteristic p value = .ok a) : a.isPlain := by
  obtain ⟨c, _, ha⟩ := bind_eq_ok.1 ha
  split at ha
  · cases ha
    exact hp
  · cases ha

/-! ### Columns -/

/-- What the cells of a record amount to is what values of its columns state. -/
theorem exists_of_mem_outcomes {r : TermRecord} (ha : .ok a ∈ s.outcomes iri r) :
    ∃ column state value, s.statement r.kind iri column = some state ∧ state value = .ok a := by
  rcases List.mem_append.1 ha with ha | ha
  · obtain ⟨column, _, ha⟩ := List.mem_flatMap.1 ha
    unfold columnOutcomes at ha
    split at ha
    · next state cell hs _ =>
      unfold cellOutcomes at ha
      split at ha
      · cases List.mem_singleton.1 ha
      · obtain ⟨value, _, ha⟩ := List.mem_map.1 ha
        exact ⟨column, state, value, hs, ha⟩
    · exact absurd ha List.not_mem_nil
  · split at ha
    · exact absurd ha List.not_mem_nil
    · cases List.mem_singleton.1 ha

section Columns

variable (h : s.references.IsPlain)

include h

theorem isPlain_classStatement (hi : iri.isPlain)
    (hs : s.classStatement iri column = some state) (ha : state value = .ok a) : a.isPlain := by
  have named : (ClassExpression.named iri).isPlain := hi
  cases column with
  | parent =>
    cases hs
    obtain ⟨c, hc, rfl⟩ := map_eq_ok.1 ha
    exact Bool.and_eq_true_iff.2 ⟨named, isPlain_readClass h hc⟩
  | children =>
    cases hs
    obtain ⟨c, hc, rfl⟩ := map_eq_ok.1 ha
    exact Bool.and_eq_true_iff.2 ⟨isPlain_readClass h hc, named⟩
  | equivalent | disjoint =>
    cases hs
    obtain ⟨c, hc, rfl⟩ := map_eq_ok.1 ha
    exact all_canonicalOperands (by simp [named, isPlain_readClass h hc])
  | domain | range | inverse | characteristics | instanceOf | relations | dataFacts => cases hs

theorem isPlain_objectPropertyStatement (hp : p.isPlain)
    (hs : s.objectPropertyStatement p column = some state) (ha : state value = .ok a) :
    a.isPlain := by
  cases column with
  | parent =>
    cases hs
    obtain ⟨q, hq, rfl⟩ := map_eq_ok.1 ha
    exact Bool.and_eq_true_iff.2 ⟨hp, isPlain_readTerm h hq⟩
  | children =>
    cases hs
    obtain ⟨q, hq, rfl⟩ := map_eq_ok.1 ha
    exact Bool.and_eq_true_iff.2 ⟨isPlain_readTerm h hq, hp⟩
  | equivalent | disjoint =>
    cases hs
    obtain ⟨q, hq, rfl⟩ := map_eq_ok.1 ha
    exact all_canonicalOperands (by simp [hp, isPlain_readTerm h hq])
  | domain | range =>
    cases hs
    obtain ⟨c, hc, rfl⟩ := map_eq_ok.1 ha
    exact Bool.and_eq_true_iff.2 ⟨hp, isPlain_readClass h hc⟩
  | inverse =>
    cases hs
    obtain ⟨q, hq, rfl⟩ := map_eq_ok.1 ha
    have hq : q.isPlain := isPlain_readTerm h hq
    unfold Axiom.ofInverseObjectProperties
    split
    · exact Bool.and_eq_true_iff.2 ⟨hq, hp⟩
    · exact Bool.and_eq_true_iff.2 ⟨hp, hq⟩
  | characteristics =>
    obtain rfl := Option.some.inj hs
    obtain ⟨c, _, rfl⟩ := map_eq_ok.1 ha
    exact hp
  | instanceOf | relations | dataFacts => cases hs

theorem isPlain_dataPropertyStatement (hp : p.isPlain)
    (hs : s.dataPropertyStatement p column = some state) (ha : state value = .ok a) :
    a.isPlain := by
  cases column with
  | parent =>
    cases hs
    obtain ⟨q, hq, rfl⟩ := map_eq_ok.1 ha
    exact Bool.and_eq_true_iff.2 ⟨hp, isPlain_readTerm h hq⟩
  | children =>
    cases hs
    obtain ⟨q, hq, rfl⟩ := map_eq_ok.1 ha
    exact Bool.and_eq_true_iff.2 ⟨isPlain_readTerm h hq, hp⟩
  | equivalent | disjoint =>
    cases hs
    obtain ⟨q, hq, rfl⟩ := map_eq_ok.1 ha
    exact all_canonicalOperands (by simp [hp, isPlain_readTerm h hq])
  | domain =>
    cases hs
    obtain ⟨c, hc, rfl⟩ := map_eq_ok.1 ha
    exact Bool.and_eq_true_iff.2 ⟨hp, isPlain_readClass h hc⟩
  | range =>
    cases hs
    obtain ⟨d, hd, rfl⟩ := map_eq_ok.1 ha
    exact Bool.and_eq_true_iff.2 ⟨hp, isPlain_readRange h hd⟩
  | characteristics =>
    obtain rfl := Option.some.inj hs
    exact isPlain_readDataCharacteristic hp ha
  | inverse | instanceOf | relations | dataFacts => cases hs

theorem isPlain_annotationPropertyStatement (hp : p.isPlain)
    (hs : s.annotationPropertyStatement p column = some state) (ha : state value = .ok a) :
    a.isPlain := by
  cases column with
  | parent =>
    cases hs
    obtain ⟨q, hq, rfl⟩ := map_eq_ok.1 ha
    exact Bool.and_eq_true_iff.2 ⟨hp, isPlain_readTerm h hq⟩
  | children =>
    cases hs
    obtain ⟨q, hq, rfl⟩ := map_eq_ok.1 ha
    exact Bool.and_eq_true_iff.2 ⟨isPlain_readTerm h hq, hp⟩
  | equivalent | disjoint | domain | range | inverse | characteristics | instanceOf | relations
  | dataFacts => cases hs

theorem isPlain_individualStatement (hi : iri.isPlain)
    (hs : s.individualStatement iri column = some state) (ha : state value = .ok a) :
    a.isPlain := by
  have named : (Individual.named iri).isPlain := hi
  cases column with
  | parent | instanceOf =>
    cases hs
    obtain ⟨c, hc, rfl⟩ := map_eq_ok.1 ha
    exact Bool.and_eq_true_iff.2 ⟨isPlain_readClass h hc, named⟩
  | relations =>
    cases hs
    exact isPlain_readRelation h named ha
  | dataFacts =>
    cases hs
    exact isPlain_readDataFact h named ha
  | children | equivalent | disjoint | domain | range | inverse | characteristics => cases hs

theorem isPlain_statement {kind : EntityKind} (hi : iri.isPlain)
    (hs : s.statement kind iri column = some state) (ha : state value = .ok a) : a.isPlain := by
  cases kind with
  | cls => exact isPlain_classStatement h hi hs ha
  | objectProperty => exact isPlain_objectPropertyStatement h hi hs ha
  | dataProperty => exact isPlain_dataPropertyStatement h hi hs ha
  | annotationProperty => exact isPlain_annotationPropertyStatement h hi hs ha
  | individual => exact isPlain_individualStatement h hi hs ha

/-- What the cells of a record amount to is plain. -/
theorem isPlain_of_mem_outcomes {r : TermRecord} (hi : iri.isPlain)
    (ha : .ok a ∈ s.outcomes iri r) : a.isPlain := by
  obtain ⟨column, state, value, hs, ha⟩ := exists_of_mem_outcomes ha
  exact isPlain_statement h hi hs ha

end Columns

end CellScope

/-! ### Declarations -/

namespace Declaration

variable {scope : IdentifierScope} {iri p : Iri} {key : String} {texts : List AnnotationText}
variable {as : List Axiom} {a : Axiom} {r : TermRecord}

theorem isPlain_property (h : scope.IsRead) (hp : property scope key = .ok p) : p.isPlain := by
  unfold property at hp
  dsimp only at hp
  split at hp
  · exact IdentifierScope.isPlain_read h hp
  split at hp
  · cases hp
  · exact IdentifierScope.isPlain_read h hp

theorem isPlain_annotationAxioms (h : scope.IsRead) (hi : iri.isPlain)
    (has : annotationAxioms scope iri key texts = .ok as) : ∀ a ∈ as, a.isPlain := by
  obtain ⟨p, hp, has⟩ := bind_eq_ok.1 has
  obtain ⟨values, hvalues, has⟩ := bind_eq_ok.1 has
  have plain : p.isPlain := isPlain_property h hp
  cases has
  intro a ha
  rcases List.mem_append.1 ha with ha | ha
  · split at ha
    · exact absurd ha List.not_mem_nil
    · rw [List.mem_singleton.1 ha]
      exact plain
  · obtain ⟨v, hv, rfl⟩ := List.mem_map.1 ha
    obtain ⟨t, _, ht⟩ := exists_of_mem_mapM hvalues hv
    simp [Axiom.isPlain, plain, hi, isPlain_ofText ht]

theorem isPlain_textAxioms (hi : iri.isPlain) : ∀ a ∈ textAxioms iri r, a.isPlain := by
  have stated {property : Iri} {text : String} (hp : property.isPlain) :
      (Axiom.annotationAssertion property iri (.plain text)).isPlain := by
    simp [Axiom.isPlain, hp, hi, Literal.isPlain]
  intro a ha
  unfold textAxioms at ha
  dsimp only at ha
  rcases List.mem_append.1 ha with ha | ha
  · rcases List.mem_append.1 ha with ha | ha
    · obtain ⟨text, _, rfl⟩ := Option.map_eq_some_iff.1 (Option.mem_toList.1 ha)
      exact stated (by decide)
    · split at ha
      · rcases List.mem_cons.1 ha with rfl | ha
        · exact (by decide : Vocabulary.definition.isPlain)
        · rw [List.mem_singleton.1 ha]
          exact stated (by decide)
      · exact absurd ha List.not_mem_nil
  · obtain ⟨text, _, rfl⟩ := List.mem_map.1 ha
    exact stated (by decide)

/-- What a record declares is plain, and so are the axioms that come with it. -/
theorem isPlain_ofRecord (h : scope.IsRead) (hr : ofRecord scope r = .ok (iri, as)) :
    iri.isPlain ∧ ∀ a ∈ as, a.isPlain := by
  obtain ⟨iri, hid, hr⟩ := bind_eq_ok.1 hr
  obtain ⟨annotations, hannotations, hr⟩ := bind_eq_ok.1 hr
  cases hr
  have plain : iri.isPlain := IdentifierScope.isPlain_readId h hid
  refine ⟨plain, List.forall_mem_cons.2 ⟨plain, fun a ha => ?_⟩⟩
  rcases List.mem_append.1 ha with ha | ha
  · exact isPlain_textAxioms plain a ha
  · obtain ⟨as, has, ha⟩ := List.mem_flatten.1 ha
    obtain ⟨⟨key, texts⟩, _, hkey⟩ := exists_of_mem_mapM hannotations has
    exact isPlain_annotationAxioms h plain hkey a ha

end Declaration

end TabularOntology
