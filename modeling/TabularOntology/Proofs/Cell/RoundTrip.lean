import TabularOntology.Proofs.Cell.Lexing
import TabularOntology.Proofs.Cell.Reading

/-! Printing and reading are inverse. What is read from a cell can be written, and the text of
whatever can be written is read back as it was, with no more levels than the tree is deep: a
tree has a derivation whose lexemes its text writes, the parentheses being those of the
derivation. -/

namespace TabularOntology.Cell

open Text Grammar

theorem Quantifier.text_keyword (q : Quantifier) : q.keyword.text = q.text := by
  cases q <;> rfl

theorem Expression.depth_pos (e : Expression) : 0 < e.depth := by
  rcases e with _ | _ | _ | _ | ⟨_, _, _, _ | _ | _⟩ <;> unfold depth <;> omega

theorem depth_le_maxDepth {es : List Expression} {e : Expression} (h : e ∈ es) :
    e.depth ≤ maxDepth es := by
  induction es with
  | nil => cases h
  | cons e' es ih =>
    rw [maxDepth]
    rcases List.mem_cons.1 h with rfl | h
    · exact Nat.le_max_left _ _
    · exact Nat.le_trans (ih h) (Nat.le_max_right _ _)

/-! ### Texts of trees -/

/-- The expression has a derivation of the level that writes its text. -/
def IsPrinted (d : Nat) (e : Expression) : Prop :=
  ∃ t : Disjunction d, t.tree = e ∧ Writes e.text.toList t.lexemes

/-- The same for an operand, which is in parentheses if need be. -/
def IsPrintedOperand (d : Nat) (e : Expression) : Prop :=
  ∃ o : Operand d, o.tree = e ∧ Writes (e.group e.text).toList o.lexemes

section
variable {d : Nat} {e : Expression} {es : List Expression}

theorem IsPrintedOperand.isPrinted (noChain : e.isChain = false) (h : IsPrintedOperand d e) :
    IsPrinted d e := by
  obtain ⟨o, ho, writes⟩ := h
  rw [Expression.group, noChain] at writes
  exact ⟨.last (.last o), ho, writes⟩

theorem IsPrinted.parens (chain : e.isChain = true) (h : IsPrinted d e) :
    IsPrintedOperand (d + 1) e := by
  obtain ⟨t, ht, writes⟩ := h
  refine ⟨.parens t, ht, writes.parens.ofText ?_⟩
  simp [Expression.group, chain]

/-- Texts are joined by a keyword with blanks around it. -/
theorem Writes.join {k : Keyword} {separator u v : String} {us : List String}
    {ls ls' : List Lexeme} (hk : separator = " " ++ k.text ++ " ") (hu : Writes u.toList ls)
    (hus : Writes (Text.join separator (v :: us)).toList ls') :
    Writes (Text.join separator (u :: v :: us)).toList (ls ++ .keyword k :: ls') := by
  refine (hu.blank ((writes_keyword k).blank hus)).ofText ?_
  simp [Text.join, hk]

theorem exists_printed_conjunction (nonempty : es ≠ []) (h : ∀ e ∈ es, IsPrintedOperand d e) :
    ∃ c : Conjunction d, c.operands = es ∧
      Writes (Text.join " and " (operandTexts es)).toList c.lexemes := by
  induction es with
  | nil => exact absurd rfl nonempty
  | cons e es ih =>
    obtain ⟨⟨o, rfl, ho⟩, hes⟩ := List.forall_mem_cons.1 h
    cases es with
    | nil => exact ⟨.last o, rfl, ho⟩
    | cons e' es =>
      obtain ⟨c, hc, writes⟩ := ih (List.cons_ne_nil _ _) hes
      exact ⟨.and o c, by rw [Conjunction.operands, hc], ho.join rfl writes⟩

theorem exists_printed_disjunction (nonempty : es ≠ []) (h : ∀ e ∈ es, IsPrintedOperand d e) :
    ∃ t : Disjunction d, t.operands = es ∧
      Writes (Text.join " or " (operandTexts es)).toList t.lexemes := by
  induction es with
  | nil => exact absurd rfl nonempty
  | cons e es ih =>
    obtain ⟨⟨o, rfl, ho⟩, hes⟩ := List.forall_mem_cons.1 h
    cases es with
    | nil => exact ⟨.last (.last o), rfl, ho⟩
    | cons e' es =>
      obtain ⟨t, ht, writes⟩ := ih (List.cons_ne_nil _ _) hes
      exact ⟨.or (.last o) t, by rw [Disjunction.operands, ht]; rfl, ho.join rfl writes⟩

theorem Grammar.Joins.eq_node {node : List Expression → Expression} (joins : Joins node es e)
    (several : 2 ≤ es.length) : e = node es := by
  cases joins with
  | one =>
    cases several with
    | step none => cases none
  | several => rfl

theorem isPrinted_intersection (several : 2 ≤ es.length) (h : ∀ e ∈ es, IsPrintedOperand d e) :
    IsPrinted d (.intersection es) := by
  obtain ⟨c, hc, writes⟩ := exists_printed_conjunction (List.ne_nil_of_length_pos (by omega)) h
  subst hc
  exact ⟨.last c, c.joins.eq_node several, writes⟩

theorem isPrinted_union (several : 2 ≤ es.length) (h : ∀ e ∈ es, IsPrintedOperand d e) :
    IsPrinted d (.union es) := by
  obtain ⟨t, ht, writes⟩ := exists_printed_disjunction (List.ne_nil_of_length_pos (by omega)) h
  subst ht
  exact ⟨t, t.joins.eq_node several, writes⟩

/-- After its property and its quantifier, a restriction writes what its text has left. -/
theorem isPrintedOperand_restriction {p : PropertyReference} (s : Restriction d)
    {u : List Char} (hp : p.term.IsWritten)
    (text : (s.tree p).text.toList =
      p.text.toList ++ ' ' :: (s.quantifier.text.toList ++ ' ' :: u))
    (hu : Writes u s.rest) : IsPrintedOperand d (s.tree p) := by
  have noChain : (s.tree p).isChain = false := by cases s <;> rfl
  refine ⟨.restriction p s, rfl, ?_⟩
  rw [Expression.group, noChain, if_neg nofun, text, ← Quantifier.text_keyword, Operand.lexemes,
    s.lexemes_eq]
  exact (writes_property hp).blank ((writes_keyword s.quantifier.keyword).blank hu)

end

/-! ### How many levels a tree takes -/

/-- A tree is printed with as many levels as it is deep, the outermost one not counted. -/
def PrintsWithin (e : Expression) : Prop :=
  ∀ d, e.depth ≤ d + 1 → IsPrinted d e ∧ IsPrintedOperand d e

section
variable {e : Expression}

theorem printsWithin_of_operand (noChain : e.isChain = false)
    (h : ∀ d, e.depth ≤ d + 1 → IsPrintedOperand d e) : PrintsWithin e :=
  fun d hd => ⟨(h d hd).isPrinted noChain, h d hd⟩

/-- A chain takes one level more than its operands, which its parentheses use up. -/
theorem printsWithin_of_chain {es : List Expression} (chain : e.isChain = true)
    (depth : e.depth = 1 + maxDepth es) (nonempty : es ≠ []) (hes : ∀ e ∈ es, PrintsWithin e)
    (h : ∀ d, (∀ e ∈ es, IsPrintedOperand d e) → IsPrinted d e) : PrintsWithin e := by
  have printed (d : Nat) (hd : maxDepth es ≤ d + 1) : IsPrinted d e := by
    refine h d fun e' he' => (hes e' he' d ?_).2
    exact Nat.le_trans (depth_le_maxDepth he') hd
  intro d hd
  rw [depth] at hd
  refine ⟨printed d (by omega), ?_⟩
  obtain ⟨e', he'⟩ := List.exists_mem_of_ne_nil es nonempty
  have deep : 0 < maxDepth es := Nat.lt_of_lt_of_le e'.depth_pos (depth_le_maxDepth he')
  obtain ⟨k, rfl⟩ : ∃ k, d = k + 1 := ⟨d - 1, by omega⟩
  exact (printed k (by omega)).parens chain

/-- A node around another tree takes one level more than that tree. -/
theorem printsWithin_of_inner {e' : Expression} (noChain : e.isChain = false)
    (depth : e.depth = 1 + e'.depth) (he' : PrintsWithin e')
    (h : ∀ d, IsPrintedOperand d e' → IsPrintedOperand (d + 1) e) : PrintsWithin e := by
  refine printsWithin_of_operand noChain fun d hd => ?_
  rw [depth] at hd
  have deep := e'.depth_pos
  obtain ⟨k, rfl⟩ : ∃ k, d = k + 1 := ⟨d - 1, by omega⟩
  exact h k (he' k (by omega)).2

end

/-- Whatever can be written has a derivation that writes its text. -/
theorem Expression.IsWritten.printsWithin {e : Expression} (h : e.IsWritten) :
    PrintsWithin e := by
  induction h with
  | @term t ht => exact printsWithin_of_operand rfl fun d _ => ⟨.term t, rfl, ht.writes⟩
  | intersection several _ ih =>
    exact printsWithin_of_chain rfl rfl (List.ne_nil_of_length_pos (by omega)) ih
      fun d => isPrinted_intersection several
  | union several _ ih =>
    exact printsWithin_of_chain rfl rfl (List.ne_nil_of_length_pos (by omega)) ih
      fun d => isPrinted_union several
  | @complement e he ih =>
    refine printsWithin_of_inner rfl rfl ih fun d => ?_
    rintro ⟨o, rfl, ho⟩
    refine ⟨.not o, rfl, ((writes_keyword .not).blank ho).ofText ?_⟩
    simp [Expression.group, Expression.isChain, Expression.text, Keyword.text]
  | @filled p q e hp hq he ih =>
    refine printsWithin_of_inner rfl rfl ih fun d => ?_
    rintro ⟨o, rfl, ho⟩
    refine isPrintedOperand_restriction (.filled q hq o) hp ?_ ho
    simp [Restriction.tree, Restriction.quantifier, Expression.text, Filler.text]
  | @value p v hp hv =>
    obtain ⟨ls, hls, writes⟩ := hv.writes
    refine printsWithin_of_operand rfl fun d _ => ?_
    refine isPrintedOperand_restriction (.value ls v hls) hp ?_ writes
    simp [Restriction.tree, Restriction.quantifier, Expression.text, Filler.text]
  | @counted p q n hp hq hn =>
    refine printsWithin_of_operand rfl fun d _ => ?_
    refine isPrintedOperand_restriction (.counted q hq _ n (isCardinality_toString hn)) hp ?_
      (writes_toString n)
    simp [Restriction.tree, Restriction.quantifier, Expression.text, Filler.text]
  | @countedFilled p q n e hp hq hn he ih =>
    refine printsWithin_of_inner rfl rfl ih fun d => ?_
    rintro ⟨o, rfl, ho⟩
    refine isPrintedOperand_restriction
      (.countedFilled q hq _ n (isCardinality_toString hn) o) hp ?_
      ((writes_toString n).blank ho)
    simp [Restriction.tree, Restriction.quantifier, Expression.text, Filler.text]

theorem isWritten_of_parseExpression {limit : Nat} {cell : String} {e : Expression}
    (h : parseExpression limit cell = .ok e) : e.IsWritten := by
  obtain ⟨ts, hts, t, ht, rfl⟩ := parseExpression_eq_ok.1 h
  refine t.isWritten_tree (t.isWritten ?_)
  rw [ht]
  exact List.forall_mem_map.2 (isWritten_of_scan hts)

theorem parseExpression_text {e : Expression} (h : e.IsWritten) {limit : Nat}
    (hlimit : e.depth ≤ limit + 1) : parseExpression limit e.text = .ok e := by
  obtain ⟨t, ht, writes⟩ := (h.printsWithin limit hlimit).1
  obtain ⟨ts, hts, lexemes⟩ := writes.isLexed 0
  exact parseExpression_eq_ok.2 ⟨ts, hts, t, lexemes.symm, ht⟩

theorem parseTerm_text {t : TermReference} (h : t.IsWritten) : parseTerm t.text = .ok t := by
  obtain ⟨ts, hts, lexemes⟩ := h.writes.isLexed 0
  obtain ⟨pos, more, rfl, hmore⟩ := exists_token lexemes
  obtain rfl := List.map_eq_nil_iff.1 hmore
  exact Parser.all_eq_ok.2 ⟨_, hts, by simp, rfl⟩

/-! ### Facts -/

theorem isWritten_of_parseFact {cell : String} {f : Fact} (h : parseFact cell = .ok f) :
    f.IsWritten := by
  obtain ⟨ts, hts, ls, hls, lexemes⟩ := parseFact_eq_ok.1 h
  have written : AreWritten (Cell.lexemes ts) := List.forall_mem_map.2 (isWritten_of_scan hts)
  rw [lexemes, areWritten_append] at written
  refine ⟨?_, hls.isWritten written.2⟩
  refine written.1 (.term f.property) ?_
  unfold Parser.factHead
  split <;> simp

theorem Fact.IsWritten.writes {f : Fact} (h : f.IsWritten) :
    ∃ ls, IsValue ls f.value ∧ Writes f.text.toList (Parser.factHead f ++ ls) := by
  obtain ⟨negated, t, v⟩ := f
  obtain ⟨ls, hls, hv⟩ := h.value.writes
  refine ⟨ls, hls, ?_⟩
  have asserted : Writes (t.text.toList ++ ' ' :: v.text.toList) (.term t :: ls) :=
    h.property.writes.blank hv
  cases negated with
  | false =>
    refine asserted.ofText ?_
    simp [Fact.text]
  | true =>
    refine ((writes_keyword .not).blank asserted).ofText ?_
    simp [Fact.text, Keyword.text]

theorem parseFact_text {f : Fact} (h : f.IsWritten) : parseFact f.text = .ok f := by
  obtain ⟨ls, hls, writes⟩ := h.writes
  obtain ⟨ts, hts, lexemes⟩ := writes.isLexed 0
  exact parseFact_eq_ok.2 ⟨ts, hts, ls, hls, lexemes⟩

/-- Reading gives what can be written, and reads it back from its text, with any number of
levels from its depth on; the leaves are those that are read back as themselves. -/
theorem parse_text_round_trip :
    (∀ limit cell e, parseExpression limit cell = .ok e → e.IsWritten) ∧
    (∀ e : Expression, e.IsWritten → ∀ limit, e.depth - 1 ≤ limit →
      parseExpression limit e.text = .ok e) ∧
    (∀ cell f, parseFact cell = .ok f → f.IsWritten) ∧
    (∀ f : Fact, f.IsWritten → parseFact f.text = .ok f) ∧
    (∀ t : TermReference, t.IsWritten ↔ ∃ pos, tokenize t.text = .ok [⟨.term t, pos⟩]) ∧
    (∀ v : Value, v.IsWritten ↔ ∃ ts, tokenize v.text = .ok ts ∧ IsValue (lexemes ts) v) := by
  refine ⟨fun limit cell e => isWritten_of_parseExpression, fun e he limit hlimit => ?_,
    fun cell f => isWritten_of_parseFact, fun f => parseFact_text, fun t => ⟨?_, ?_⟩,
    fun v => ⟨?_, ?_⟩⟩
  · exact parseExpression_text he (Nat.le_add_of_sub_le hlimit)
  · intro ht
    obtain ⟨ts, hts, lexemes⟩ := ht.writes.isLexed 0
    obtain ⟨pos, more, rfl, hmore⟩ := exists_token lexemes
    obtain rfl := List.map_eq_nil_iff.1 hmore
    exact ⟨pos, hts⟩
  · rintro ⟨pos, h⟩
    exact isWritten_of_scan h ⟨.term t, pos⟩ List.mem_cons_self
  · intro hv
    obtain ⟨ls, hls, writes⟩ := hv.writes
    obtain ⟨ts, hts, rfl⟩ := writes.isLexed 0
    exact ⟨ts, hts, hls⟩
  · rintro ⟨ts, h, hv⟩
    exact hv.isWritten (List.forall_mem_map.2 (isWritten_of_scan h))

/-- A chain inside a filler inside a chain, with a quote in a label. -/
def nestedChains : Expression :=
  .intersection [.term (.name "Person"),
    .restriction ⟨.name "hasPart", true⟩ .min (some 2) (.expression (.union
      [.term (.label none "driver's license"), .complement (.term (.iri "urn:x"))]))]

/-- A negative assertion of a typed literal. -/
def typedFact : Fact :=
  ⟨true, .label (some "ex") "size", .literal (.typed "5\"" (.name "xsd:string"))⟩

theorem isWritten_nestedChains : nestedChains.IsWritten := by
  have person : IsName "Person" :=
    ⟨.of_all (by decide) (by decide) (by decide), nofun, by decide, by decide, by decide⟩
  have hasPart : IsName "hasPart" :=
    ⟨.of_all (by decide) (by decide) (by decide), nofun, by decide, by decide, by decide⟩
  have label : (TermReference.label none "driver's license").IsWritten := trivial
  have iri : (TermReference.iri "urn:x").IsWritten :=
    List.all_eq_true.1 (by decide : "urn:x".toList.all isIriChar = true)
  have filler : (Expression.union [.term (.label none "driver's license"),
      .complement (.term (.iri "urn:x"))]).IsWritten := by
    refine .union (by decide) ?_
    simp only [List.forall_mem_cons]
    exact ⟨.term label, .complement (.term iri), nofun⟩
  refine .intersection (by decide) ?_
  simp only [List.forall_mem_cons]
  exact ⟨.term person, .countedFilled hasPart rfl (by decide) filler, nofun⟩

theorem isWritten_typedFact : typedFact.IsWritten := by
  have size : (TermReference.label (some "ex") "size").IsWritten :=
    ⟨List.all_eq_true.1 (by decide : "ex".toList.all isWordChar = true), by decide⟩
  have datatype : IsName "xsd:string" :=
    ⟨.of_all (by decide) (by decide) (by decide), nofun, by decide, by decide, by decide⟩
  exact ⟨size, datatype⟩

theorem parse_text_round_trip_nested :
    (nestedChains.IsWritten ∧ nestedChains.depth - 1 ≤ 4 ∧
      nestedChains.text =
        "Person and inverse hasPart min 2 ('driver\\'s license' or not <urn:x>)" ∧
      parseExpression 4 nestedChains.text = .ok nestedChains) ∧
    typedFact.IsWritten ∧ typedFact.text = "not ex:'size' \"5\\\"\"^^xsd:string" ∧
      parseFact typedFact.text = .ok typedFact := by
  have depth : nestedChains.depth - 1 ≤ 4 := by decide
  obtain ⟨-, readBack, -, readFactBack, -⟩ := parse_text_round_trip
  exact ⟨⟨isWritten_nestedChains, depth, rfl,
      readBack nestedChains isWritten_nestedChains 4 depth⟩,
    isWritten_typedFact, rfl, readFactBack typedFact isWritten_typedFact⟩

end TabularOntology.Cell
