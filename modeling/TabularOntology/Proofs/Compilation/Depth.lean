import TabularOntology.Proofs.Cell.Depth
import TabularOntology.Proofs.Compilation.Conversion

/-! How deep compiled expressions are. Conversion gives one node for each node of a tree, so that
what is made of a cell is as deep as what was read from it. The depth of what a cell can be read as
is bounded by the number of levels, and with it the depth of all class expressions in a compiled
ontology and of every recursion that goes from an expression to its parts. -/

namespace TabularOntology

/-! ### Depth -/

namespace DataRange

mutual

/-- The depth of the tree; a single datatype has depth one. -/
def depth : DataRange → Nat
  | .datatype _ => 1
  | .intersection ds | .union ds => 1 + maxDepth ds
  | .complement d => 1 + d.depth

def maxDepth : List DataRange → Nat
  | [] => 0
  | d :: ds => max d.depth (maxDepth ds)

end

theorem maxDepth_eq {es : List Cell.Expression} {ds : List DataRange}
    (h : List.Forall₂ (fun e d => d.depth = e.depth) es ds) : maxDepth ds = Cell.maxDepth es := by
  induction h with
  | nil => rfl
  | cons first _ ih => rw [maxDepth, Cell.maxDepth, first, ih]

end DataRange

namespace ClassExpression

mutual

/-- The depth of the tree; a data range in a filler counts as well. -/
def depth : ClassExpression → Nat
  | .named _ | .hasValue .. | .dataHasValue .. => 1
  | .intersection cs | .union cs => 1 + maxDepth cs
  | .complement c | .some _ c | .only _ c => 1 + c.depth
  | .cardinality _ _ _ none | .dataCardinality _ _ _ none => 1
  | .cardinality _ _ _ (Option.some c) => 1 + c.depth
  | .dataSome _ d | .dataOnly _ d | .dataCardinality _ _ _ (Option.some d) => 1 + d.depth

def maxDepth : List ClassExpression → Nat
  | [] => 0
  | c :: cs => max c.depth (maxDepth cs)

end

theorem maxDepth_eq {es : List Cell.Expression} {cs : List ClassExpression}
    (h : List.Forall₂ (fun e c => c.depth = e.depth) es cs) : maxDepth cs = Cell.maxDepth es := by
  induction h with
  | nil => rfl
  | cons first _ ih => rw [maxDepth, Cell.maxDepth, first, ih]

theorem depth_of_not_isComplex {c : ClassExpression} (h : c.isComplex = false) : c.depth = 1 := by
  cases c with
  | named => rfl
  | _ => cases h

end ClassExpression

/-! ### Conversion -/

namespace CellScope

variable {s : CellScope} {e : Cell.Expression} {c : ClassExpression} {d : DataRange}

theorem depth_dataRange (h : s.dataRange e = .ok d) : d.depth = e.depth := by
  have operands {es : List Cell.Expression} {ds : List DataRange}
      (ih : ∀ e ∈ es, ∀ d, s.dataRange e = .ok d → d.depth = e.depth)
      (hds : s.dataRanges es = .ok ds) : DataRange.maxDepth ds = Cell.maxDepth es := by
    rw [dataRanges_eq_mapM, mapM_eq_ok] at hds
    refine DataRange.maxDepth_eq (List.Forall₂.imp ?_ ((List.forall₂_and_left es ds).2 ⟨ih, hds⟩))
    exact fun e d both => both.1 d both.2
  induction e generalizing d with
  | term t =>
    obtain ⟨x, -, rfl⟩ := map_eq_ok.1 h
    rfl
  | intersection es ih | union es ih =>
    obtain ⟨ds, hds, rfl⟩ := map_eq_ok.1 h
    exact congrArg (1 + ·) (operands (fun e he d => ih e he) hds)
  | complement e ih =>
    obtain ⟨d, inner, rfl⟩ := map_eq_ok.1 h
    exact congrArg (1 + ·) (ih inner)
  | restriction => cases h

/-- An expression becomes one that is as deep. -/
theorem depth_classExpression (h : s.classExpression e = .ok c) : c.depth = e.depth := by
  refine classExpression_induction (P := fun e c => c.depth = e.depth) (fun _ => rfl) ?_ ?_ ?_ ?_ ?_ h
  · intro es cs operands
    exact congrArg (1 + ·) (ClassExpression.maxDepth_eq operands)
  · intro es cs operands
    exact congrArg (1 + ·) (ClassExpression.maxDepth_eq operands)
  · intro e c operand
    exact congrArg (1 + ·) operand
  · intro p iri property q n f c _ _ _ filled
    cases filled with
    | none | hasValue => rfl
    | some inner | only inner | cardinality b m inner => exact congrArg (1 + ·) inner
  · intro p iri q n f c _ _ filled
    cases filled with
    | none | hasValue => rfl
    | some inner | only inner | cardinality b m inner =>
      exact congrArg (1 + ·) (depth_dataRange inner)

/-- Beside names, an axiom has what its text is read as. -/
theorem StatedBy.depth_le {text : String} {reading : Cell.Reading} {a : Axiom}
    (h : s.StatedBy text reading a) : ∀ c ∈ a.operands, c.depth ≤ 2 * s.maxDepth + 3 := by
  have nothing (empty : a.operands = []) : ∀ c ∈ a.operands, c.depth ≤ 2 * s.maxDepth + 3 := by
    rw [empty]
    nofun
  cases h with
  | @expression e read _ parsed converted operands _ =>
    intro c hc
    cases complex : c.isComplex with
    | false =>
      rw [ClassExpression.depth_of_not_isComplex complex]
      omega
    | true =>
      have member : c ∈ [read].filter ClassExpression.isComplex :=
        operands ▸ List.mem_filter.2 ⟨hc, complex⟩
      obtain rfl := List.mem_singleton.1 (List.mem_filter.1 member).1
      rw [depth_classExpression converted]
      exact Cell.depth_le_of_parseExpression parsed
  | range _ _ bare | term _ _ bare | word bare => exact nothing bare.1
  | relation _ _ _ _ operands | dataFact _ _ _ _ operands => exact nothing operands

end CellScope

namespace Compilation

variable {c d : Compilation} {settings : Settings} {catalog : Catalog} {ts : List Table}
variable {a : Axiom}

theorem CellsState.depth_le (h : c.CellsState settings catalog a) :
    ∀ x ∈ a.operands, x.depth ≤ 2 * settings.maxExpressionDepth + 3 := by
  obtain ⟨r, _, ha⟩ := h
  obtain ⟨column, state, text, applies, ha⟩ := CellScope.exists_of_mem_outcomes ha
  exact (CellScope.statedBy_statement applies ha).depth_le

theorem depth_le_of_ofTables (h : ofTables settings catalog ts = .ok c)
    (ha : a ∈ c.ontology.axioms) :
    ∀ x ∈ a.operands, x.depth ≤ 2 * settings.maxExpressionDepth + 3 := by
  obtain ⟨d, passed, rfl⟩ := ofTables_eq_ok.1 h
  rcases (finishes_readCells passed catalog).cellsState_or_isBare ha with stated | bare
  · exact stated.depth_le
  · rw [bare.1]
    nofun

end Compilation

/-- The limit bounds all that is made of a cell. What is read with some number of levels is at most
two nodes deep for each of them and three more, and for each number some cell is as deep as that.
No walk from an expression to parts of parts of it is longer, what it is converted to is as deep,
and no class expression of an ontology that is compiled with this limit is deeper. -/
theorem depth_bounded_by_limit (limit : Nat) :
    (∀ cell e, Cell.parseExpression limit cell = .ok e →
      e.depth ≤ 2 * limit + 3 ∧
      (∀ es, (e :: es).IsChain (fun outer inner => inner ∈ outer.parts) →
        (e :: es).length ≤ 2 * limit + 3) ∧
      ∀ s : CellScope, (∀ c, s.classExpression e = .ok c → c.depth = e.depth) ∧
        ∀ d, s.dataRange e = .ok d → d.depth = e.depth) ∧
    (∃ cell e, Cell.parseExpression limit cell = .ok e ∧ e.depth = 2 * limit + 3) ∧
    ∀ settings catalog ts c, settings.maxExpressionDepth = limit →
      Compilation.ofTables settings catalog ts = .ok c →
      ∀ a ∈ c.ontology.axioms, ∀ x ∈ a.operands, x.depth ≤ 2 * limit + 3 := by
  refine ⟨fun cell e parsed => ?_, ?_, ?_⟩
  · have bound : e.depth ≤ 2 * limit + 3 := Cell.depth_le_of_parseExpression parsed
    refine ⟨bound, fun es walk => ?_, fun s => ⟨fun c converted => ?_, fun d converted => ?_⟩⟩
    · exact (Cell.Expression.length_le_depth walk).trans bound
    · exact CellScope.depth_classExpression converted
    · exact CellScope.depth_dataRange converted
  · exact ⟨_, _, Cell.parseExpression_deepestCell limit, Cell.depth_deepest limit⟩
  · rintro settings catalog ts c rfl compiled a ha
    exact Compilation.depth_le_of_ofTables compiled ha

/-- Settings without a level to go down to. -/
def flatSettings : Settings := { Compilation.exampleSettings with maxExpressionDepth := 0 }

/-- A class whose parent is written with both chains. -/
def chainedParent : List Table :=
  [⟨"a.csv", [TermRecord.setCell { id := "<urn:a>", kind := .cls, provenance := ⟨"a.csv", 2⟩ }
    .parent "<urn:b> or <urn:c> and <urn:d>"]⟩]

theorem depth_bounded_by_limit_zero :
    (∃ e, Cell.parseExpression 0 (Cell.deepestCell 0) = .ok e ∧ e.depth = 3 ∧
      ∀ es, (e :: es).IsChain (fun outer inner => inner ∈ outer.parts) → (e :: es).length ≤ 3) ∧
    ∃ c, Compilation.ofTables flatSettings ∅ chainedParent = .ok c ∧
      (c.ontology.axioms.map fun a => a.operands.map ClassExpression.depth) = [[], [1, 3]] ∧
      ∀ a ∈ c.ontology.axioms, ∀ x ∈ a.operands, x.depth ≤ 3 := by
  obtain ⟨parsed, -, compiled⟩ := depth_bounded_by_limit 0
  have deepest := Cell.parseExpression_deepestCell 0
  obtain ⟨c, hc, depths⟩ : ∃ c, Compilation.ofTables flatSettings ∅ chainedParent = .ok c ∧
      (c.ontology.axioms.map fun a => a.operands.map ClassExpression.depth) = [[], [1, 3]] :=
    exists_of_toOption_map (by decide +kernel)
  exact ⟨⟨_, deepest, Cell.depth_deepest 0, (parsed _ _ deepest).2.1⟩,
    c, hc, depths, compiled flatSettings ∅ chainedParent c rfl hc⟩

end TabularOntology
