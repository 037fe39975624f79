import TabularOntology.Proofs.Compilation.Declared
import TabularOntology.Proofs.Compilation.Plain

/-! What the cells of a record amount to depends on little. Cells without anonymous
individuals are read in the same way wherever references stand for the same IRIs and
properties have the same kinds, whatever the number of the record is; and the place that a
record comes from does not matter. -/

namespace TabularOntology

/-! ### Cells without anonymous individuals -/

/-- A reference to anything but an anonymous individual. -/
def Cell.TermReference.isNamed : Cell.TermReference → Bool
  | .anonymous _ => false
  | _ => true

/-- A value that does not name an anonymous individual, whether it is read as an expression
of at most the given depth or as a fact. -/
def IsNamedValue (depth : Nat) (value : String) : Prop :=
  (∀ e ∈ (Cell.parseExpression depth value).toOption, ∀ t ∈ e.references, t.isNamed) ∧
    ∀ f ∈ (Cell.parseFact value).toOption, ∀ t ∈ f.value.references, t.isNamed

instance (depth : Nat) (value : String) : Decidable (IsNamedValue depth value) :=
  inferInstanceAs (Decidable (_ ∧ _))

/-- A record whose cells do not name anonymous individuals. -/
def TermRecord.IsNamed (depth : Nat) (r : TermRecord) : Prop :=
  ∀ column ∈ Column.all, ∀ cell ∈ r.cells column, ∀ values ∈ (Cell.splitValues cell).toOption,
    ∀ value ∈ values, IsNamedValue depth value

instance (depth : Nat) (r : TermRecord) : Decidable (r.IsNamed depth) :=
  inferInstanceAs (Decidable (∀ _ ∈ _, _))

namespace CellScope

/-- Scopes in which references and kinds are the same. -/
structure Agrees (s s' : CellScope) : Prop where
  term : ∀ t, s.term t = s'.term t
  kind : ∀ x, s.kindOf? x = s'.kindOf? x
  depth : s.maxDepth = s'.maxDepth

variable {s s' : CellScope}

section Congruence
variable (h : s.Agrees s')

include h

/-! ### Expressions -/

theorem Agrees.literal (l : Cell.LiteralValue) : s.literal l = s'.literal l := by
  cases l with
  | typed text datatype => rw [CellScope.literal, CellScope.literal, h.term]
  | _ => rfl

theorem Agrees.individual {t : Cell.TermReference} (ht : t.isNamed) :
    s.individual t = s'.individual t := by
  cases t with
  | anonymous => cases ht
  | iri | name | label => simp only [CellScope.individual, h.term]

theorem Agrees.isData (x : Iri) (f : Cell.Filler) : s.isData x f = s'.isData x f := by
  unfold CellScope.isData
  rw [h.kind]

theorem Agrees.dataRange (e : Cell.Expression) : s.dataRange e = s'.dataRange e := by
  induction e with
  | term t => rw [CellScope.dataRange, CellScope.dataRange, h.term]
  | intersection es ih | union es ih =>
    rw [CellScope.dataRange, CellScope.dataRange, dataRanges_eq_mapM, dataRanges_eq_mapM,
      mapM_congr ih]
  | complement e ih => rw [CellScope.dataRange, CellScope.dataRange, ih]
  | restriction => rfl

theorem Agrees.dataRestriction (p : Cell.PropertyReference) (x : Iri) (q : Cell.Quantifier)
    (n : Option Nat) (f : Cell.Filler) :
    s.dataRestriction p x q n f = s'.dataRestriction p x q n f := by
  cases f with
  | none => rfl
  | expression e => rw [CellScope.dataRestriction, CellScope.dataRestriction, h.dataRange]
  | value v =>
    cases v with
    | individual => rfl
    | literal l =>
      cases q with
      | value => exact congrArg (Except.map (ClassExpression.dataHasValue x)) (h.literal l)
      | _ => rfl

theorem Agrees.classExpression {e : Cell.Expression} (he : ∀ t ∈ e.references, t.isNamed) :
    s.classExpression e = s'.classExpression e := by
  induction e with
  | term t => rw [CellScope.classExpression, CellScope.classExpression, h.term]
  | intersection es ih | union es ih =>
    rw [Cell.Expression.references, Cell.referencesOf_eq_flatMap] at he
    have each : ∀ e ∈ es, s.classExpression e = s'.classExpression e := fun e hes =>
      ih e hes fun t ht => he t (List.mem_flatMap.2 ⟨e, hes, ht⟩)
    rw [CellScope.classExpression, CellScope.classExpression, classExpressions_eq_mapM,
      classExpressions_eq_mapM, mapM_congr each]
  | complement e ih => rw [CellScope.classExpression, CellScope.classExpression, ih he]
  | restriction p q n f ih =>
    have object (property : ObjectProperty) :
        s.objectRestriction p property q n f = s'.objectRestriction p property q n f := by
      cases f with
      | none => rfl
      | expression e =>
        rw [CellScope.objectRestriction, CellScope.objectRestriction,
          ih e rfl fun t ht => he t (List.mem_cons_of_mem _ ht)]
      | value v =>
        cases v with
        | individual t =>
          have named : t.isNamed := he t (List.mem_cons_of_mem _ List.mem_cons_self)
          cases q with
          | value =>
            exact congrArg (Except.map (ClassExpression.hasValue property)) (h.individual named)
          | _ => rfl
        | literal => rfl
    rw [CellScope.classExpression, CellScope.classExpression, h.term]
    simp only [h.isData, h.dataRestriction, object]

/-! ### Statements -/

variable {value : String}

theorem Agrees.readClass (hv : IsNamedValue s.maxDepth value) :
    s.readClass value = s'.readClass value := by
  unfold CellScope.readClass
  rw [← h.depth]
  cases parsed : Cell.parseExpression s.maxDepth value with
  | error => rfl
  | ok e => exact h.classExpression (hv.1 e (mem_toOption.2 parsed))

theorem Agrees.readRange (value : String) : s.readRange value = s'.readRange value := by
  unfold CellScope.readRange
  rw [← h.depth]
  simp only [h.dataRange]

theorem Agrees.readTerm (value : String) : s.readTerm value = s'.readTerm value := by
  unfold CellScope.readTerm
  simp only [h.term]

theorem Agrees.readFact (value : String) : s.readFact value = s'.readFact value := by
  unfold CellScope.readFact
  simp only [h.term]

theorem Agrees.readRelation (hv : IsNamedValue s.maxDepth value) (source : Individual) :
    s.readRelation source value = s'.readRelation source value := by
  unfold CellScope.readRelation
  rw [h.readFact]
  cases read : s'.readFact value with
  | error => rw [error_bind, error_bind]
  | ok r =>
    obtain ⟨⟨negated, property, v⟩, p⟩ := r
    have parsed : Cell.parseFact value = .ok ⟨negated, property, v⟩ := by
      obtain ⟨f, hf, rest⟩ := bind_eq_ok.1 read
      obtain ⟨q, _, rest⟩ := bind_eq_ok.1 rest
      cases rest
      exact mapError_eq_ok.1 hf
    cases v with
    | literal => simp only [ok_bind]
    | individual t =>
      have named : t.isNamed := hv.2 _ (mem_toOption.2 parsed) t List.mem_cons_self
      simp only [ok_bind, h.individual named]

theorem Agrees.readDataFact (source : Individual) (value : String) :
    s.readDataFact source value = s'.readDataFact source value := by
  unfold CellScope.readDataFact
  rw [h.readFact]
  simp only [h.literal]

/-! ### Columns -/

variable {x p : Iri} {column : Column}

theorem Agrees.classStatement (hv : IsNamedValue s.maxDepth value) :
    (s.classStatement x column).map (· value) = (s'.classStatement x column).map (· value) := by
  cases column with
  | parent | children | equivalent | disjoint =>
    exact congrArg some (congrArg (Except.map _) (h.readClass hv))
  | _ => rfl

theorem Agrees.objectPropertyStatement (hv : IsNamedValue s.maxDepth value) :
    (s.objectPropertyStatement p column).map (· value) =
      (s'.objectPropertyStatement p column).map (· value) := by
  cases column with
  | parent | children | equivalent | disjoint | inverse =>
    exact congrArg some (congrArg (Except.map _) (h.readTerm value))
  | domain | range => exact congrArg some (congrArg (Except.map _) (h.readClass hv))
  | _ => rfl

theorem Agrees.dataPropertyStatement (hv : IsNamedValue s.maxDepth value) :
    (s.dataPropertyStatement p column).map (· value) =
      (s'.dataPropertyStatement p column).map (· value) := by
  cases column with
  | parent | children | equivalent | disjoint =>
    exact congrArg some (congrArg (Except.map _) (h.readTerm value))
  | domain => exact congrArg some (congrArg (Except.map _) (h.readClass hv))
  | range => exact congrArg some (congrArg (Except.map _) (h.readRange value))
  | _ => rfl

theorem Agrees.annotationPropertyStatement (value : String) :
    (s.annotationPropertyStatement p column).map (· value) =
      (s'.annotationPropertyStatement p column).map (· value) := by
  cases column with
  | parent | children => exact congrArg some (congrArg (Except.map _) (h.readTerm value))
  | _ => rfl

theorem Agrees.individualStatement (hv : IsNamedValue s.maxDepth value) :
    (s.individualStatement x column).map (· value) =
      (s'.individualStatement x column).map (· value) := by
  cases column with
  | parent | instanceOf => exact congrArg some (congrArg (Except.map _) (h.readClass hv))
  | relations => exact congrArg some (h.readRelation hv _)
  | dataFacts => exact congrArg some (h.readDataFact _ value)
  | _ => rfl

theorem Agrees.statement {kind : EntityKind} (hv : IsNamedValue s.maxDepth value) :
    (s.statement kind x column).map (· value) = (s'.statement kind x column).map (· value) := by
  cases kind with
  | cls => exact h.classStatement hv
  | objectProperty => exact h.objectPropertyStatement hv
  | dataProperty => exact h.dataPropertyStatement hv
  | annotationProperty => exact h.annotationPropertyStatement value
  | individual => exact h.individualStatement hv

end Congruence

/-! ### Records -/

variable {x : Iri} {r r' : TermRecord}

theorem cellOutcomes_congr {state state' : String → Except RecordError Axiom} {cell : String}
    (h : ∀ values, Cell.splitValues cell = .ok values → ∀ v ∈ values, state v = state' v) :
    cellOutcomes state cell = cellOutcomes state' cell := by
  unfold cellOutcomes
  split
  · rfl
  · next values cut => exact List.map_congr_left (h values cut)

/-- Whether a column applies depends on the kind only. -/
theorem isNone_statement (s s' : CellScope) (kind : EntityKind) (x : Iri) (column : Column) :
    (s.statement kind x column).isNone = (s'.statement kind x column).isNone := by
  -- each side is evaluated by itself, since comparing the two readers would take long
  cases kind <;> cases column <;> first | exact Eq.refl true | exact Eq.refl false

theorem Agrees.columnOutcomes (h : s.Agrees s') (hr : r.IsNamed s.maxDepth) (column : Column) :
    s.columnOutcomes x r column = s'.columnOutcomes x r column := by
  have applies := isNone_statement s s' r.kind x column
  have same (value : String) (hv : IsNamedValue s.maxDepth value) :
      (s.statement r.kind x column).map (· value) =
        (s'.statement r.kind x column).map (· value) :=
    h.statement hv
  unfold CellScope.columnOutcomes
  cases hs : s.statement r.kind x column with
  | none =>
    cases hs' : s'.statement r.kind x column with
    | none => rfl
    | some => simp [hs, hs'] at applies
  | some state =>
    cases hs' : s'.statement r.kind x column with
    | none => simp [hs, hs'] at applies
    | some state' =>
      cases filled : r.cells column with
      | none => rfl
      | some cell =>
        refine cellOutcomes_congr fun values cut value hv => ?_
        have named : IsNamedValue s.maxDepth value :=
          hr column column.mem_all cell filled values (mem_toOption.2 cut) value hv
        have := same value named
        rw [hs, hs'] at this
        exact Option.some.inj this

/-- The cells of a record without anonymous individuals amount to the same in scopes that
agree. -/
theorem Agrees.outcomes (h : s.Agrees s') (hr : r.IsNamed s.maxDepth) :
    s.outcomes x r = s'.outcomes x r := by
  have columns : s.columnOutcomes x r = s'.columnOutcomes x r := funext (h.columnOutcomes hr)
  have unused : s.unusedColumns x r = s'.unusedColumns x r := by
    unfold unusedColumns
    simp only [isNone_statement s s']
  unfold CellScope.outcomes
  rw [columns, unused]

end CellScope

/-! ### Records but for their place -/

/-- Records that differ in their place at most. -/
structure TermRecord.Same (r r' : TermRecord) : Prop where
  id : r.id = r'.id
  kind : r.kind = r'.kind
  label : r.label = r'.label
  definition : r.definition = r'.definition
  comments : r.comments = r'.comments
  cells : r.cells = r'.cells
  annotations : r.annotations.toList = r'.annotations.toList

namespace TermRecord.Same

variable {r r' : TermRecord} (h : r.Same r')

include h

theorem symm : r'.Same r :=
  ⟨h.id.symm, h.kind.symm, h.label.symm, h.definition.symm, h.comments.symm, h.cells.symm,
    h.annotations.symm⟩

theorem ofRecord (scope : IdentifierScope) :
    Declaration.ofRecord scope r = Declaration.ofRecord scope r' := by
  unfold Declaration.ofRecord Declaration.textAxioms
  rw [h.id, h.kind, h.label, h.definition, h.comments, h.annotations]

theorem isNamed {depth : Nat} (hr : r.IsNamed depth) : r'.IsNamed depth := by
  unfold TermRecord.IsNamed
  rw [← h.cells]
  exact hr

theorem iri? (scope : IdentifierScope) : r.iri? scope = r'.iri? scope := by
  rw [TermRecord.iri?, TermRecord.iri?, h.ofRecord]

theorem declaredAxioms (scope : IdentifierScope) :
    r.declaredAxioms scope = r'.declaredAxioms scope := by
  rw [TermRecord.declaredAxioms, TermRecord.declaredAxioms, h.ofRecord]

theorem outcomes (s : CellScope) (x : Iri) : s.outcomes x r = s.outcomes x r' := by
  unfold CellScope.outcomes CellScope.unusedColumns
  rw [show s.columnOutcomes x r = s.columnOutcomes x r' from funext fun column => by
    unfold CellScope.columnOutcomes; rw [h.kind, h.cells], h.kind, h.cells]

end TermRecord.Same

end TabularOntology
