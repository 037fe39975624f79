import TabularOntology.Proofs.Cell.Positions
import TabularOntology.Proofs.Cell.Reading

/-! The references of an expression and the tokens that it is read from. Every rule of the
grammar puts the references of its parts down in the order of its lexemes, so that none is lost
and none changes its place, however deep the parts are nested and however long the chains are.
Only words that are booleans are left out, and only where the grammar asks for a value, which is
right after `value`. -/

namespace TabularOntology.Cell

open Text

/-- A word that is read as a boolean where a value is asked for. -/
def TermReference.isBoolean : TermReference → Bool
  | .name word => lowerAscii word == "true" || lowerAscii word == "false"
  | _ => false

/-- The references among lexemes, in order, but for booleans right after `value`. -/
def referencesIn (afterValue : Bool) : List Lexeme → List TermReference
  | [] => []
  | .term t :: ls =>
    if afterValue && t.isBoolean then referencesIn false ls else t :: referencesIn false ls
  | .keyword .value :: ls => referencesIn true ls
  | _ :: ls => referencesIn false ls

theorem TermReference.isBoolean_name {word : String} :
    (TermReference.name word).isBoolean = true ↔ ∃ b, Grammar.IsBoolean word b := by
  simp [isBoolean, Parser.isBoolean_iff, or_comm]

/-- A chain refers to what its operands refer to. -/
theorem Grammar.Joins.references {node : List Expression → Expression} {es : List Expression}
    {e : Expression} (joins : Joins node es e) (h : (node es).references = referencesOf es) :
    e.references = referencesOf es := by
  cases joins with
  | one => exact (List.append_nil _).symm
  | several => exact h

/-- What is neither a term nor `value` has no reference, and no value is asked for after it. -/
theorem referencesIn_mark (l : Lexeme) (other : ∀ t, l ≠ .term t) (h : l ≠ .keyword .value)
    (afterValue : Bool) (ls : List Lexeme) :
    referencesIn afterValue (l :: ls) = referencesIn false ls := by
  rw [referencesIn]
  · exact other
  · exact h

theorem referencesIn_property (p : PropertyReference) (r : List Lexeme) :
    referencesIn false (p.lexemes ++ r) = p.term :: referencesIn false r := by
  obtain ⟨t, inverse⟩ := p
  cases inverse <;> rfl

/-- A quantifier other than `value` goes before no value. -/
theorem referencesIn_quantifier {q : Quantifier} (h : q ≠ .value) (r : List Lexeme) :
    referencesIn false (.keyword q.keyword :: r) = referencesIn false r := by
  cases q with
  | value => exact absurd rfl h
  | some | only | exactly | min | max => rfl

namespace Grammar

/-- What is read as a value keeps its references, and a boolean has none. -/
theorem IsValue.referencesIn {ls : List Lexeme} {v : Value} (h : IsValue ls v) (r : List Lexeme) :
    referencesIn true (ls ++ r) = v.references ++ referencesIn false r := by
  cases h with
  | string | tagged | typed | integer | decimal => rfl
  | boolean word b hb =>
    have boolean := TermReference.isBoolean_name.2 ⟨b, hb⟩
    simp [Cell.referencesIn, boolean, Value.references]
  | individual t ht =>
    have other : t.isBoolean = false := by
      rw [Bool.eq_false_iff]
      intro boolean
      cases t with
      | name word =>
        obtain ⟨b, hb⟩ := TermReference.isBoolean_name.1 boolean
        exact ht word b rfl hb
      | iri | label | anonymous => cases boolean
    simp [Cell.referencesIn, other, Value.references]

-- By induction on the derivation, in front of any lexemes: what follows a derivation is not read
-- as a value, since no derivation ends with a keyword.
mutual

theorem Disjunction.referencesIn : ∀ {d : Nat} (e : Disjunction d) (r : List Lexeme),
    referencesIn false (e.lexemes ++ r) = referencesOf e.operands ++ referencesIn false r
  | _, .last c, r => by
    have first := c.joins.references rfl
    rw [Disjunction.lexemes, Conjunction.referencesIn c, Disjunction.operands, referencesOf, first,
      referencesOf, List.append_nil]
  | _, .or c more, r => by
    have first := c.joins.references rfl
    rw [Disjunction.lexemes, List.append_assoc, Conjunction.referencesIn c, List.cons_append,
      referencesIn_mark (.keyword .or) nofun nofun, Disjunction.referencesIn more,
      Disjunction.operands, referencesOf, first, List.append_assoc]

theorem Conjunction.referencesIn : ∀ {d : Nat} (c : Conjunction d) (r : List Lexeme),
    referencesIn false (c.lexemes ++ r) = referencesOf c.operands ++ referencesIn false r
  | _, .last o, r => by
    rw [Conjunction.lexemes, Operand.referencesIn o, Conjunction.operands, referencesOf,
      referencesOf, List.append_nil]
  | _, .and o more, r => by
    rw [Conjunction.lexemes, List.append_assoc, Operand.referencesIn o, List.cons_append,
      referencesIn_mark (.keyword .and) nofun nofun, Conjunction.referencesIn more,
      Conjunction.operands, referencesOf, List.append_assoc]

theorem Operand.referencesIn : ∀ {d : Nat} (o : Operand d) (r : List Lexeme),
    referencesIn false (o.lexemes ++ r) = o.tree.references ++ referencesIn false r
  | _, .not o, r => by
    rw [Operand.lexemes, List.cons_append, referencesIn_mark (.keyword .not) nofun nofun,
      Operand.referencesIn o, Operand.tree, Expression.references]
  | _, .parens e, r => by
    have inner := e.joins.references rfl
    rw [Operand.lexemes, List.cons_append, referencesIn_mark .leftParen nofun nofun,
      List.append_assoc, Disjunction.referencesIn e, List.singleton_append,
      referencesIn_mark .rightParen nofun nofun, Operand.tree, inner]
  | _, .term t, _ => rfl
  | _, .restriction p s, r => by
    rw [Operand.lexemes, List.append_assoc, referencesIn_property, Restriction.referencesIn s p,
      Operand.tree]

theorem Restriction.referencesIn : ∀ {d : Nat} (s : Restriction d) (p : PropertyReference)
    (r : List Lexeme), p.term :: referencesIn false (s.lexemes ++ r) =
      (s.tree p).references ++ referencesIn false r
  | _, .filled q hq o, p, r => by
    have other : q ≠ .value := by rintro rfl; cases hq
    rw [Restriction.lexemes, List.cons_append, referencesIn_quantifier other,
      Operand.referencesIn o]
    rfl
  | _, .value ls v hv, p, r => by
    rw [Restriction.lexemes, List.cons_append, Cell.referencesIn, hv.referencesIn]
    rfl
  | _, .counted q hc digits n hn, p, r => by
    have other : q ≠ .value := by rintro rfl; cases hc
    rw [Restriction.lexemes, List.cons_append, referencesIn_quantifier other]
    rfl
  | _, .countedFilled q hc digits n hn o, p, r => by
    have other : q ≠ .value := by rintro rfl; cases hc
    rw [Restriction.lexemes, List.cons_append, referencesIn_quantifier other, List.cons_append,
      referencesIn_mark (.integer digits) nofun nofun, Operand.referencesIn o]
    rfl

end

theorem Disjunction.references_tree {d : Nat} (t : Disjunction d) :
    t.tree.references = Cell.referencesIn false t.lexemes := by
  have read := t.referencesIn []
  rw [List.append_nil, Cell.referencesIn, List.append_nil] at read
  exact (t.joins.references rfl).trans read.symm

end Grammar

/-- The references of what is read from a cell are the terms of the cell, in the order in which
they stand there; only booleans that are read as values are left out. -/
theorem references_of_parseExpression {limit : Nat} {cell : String} {e : Expression}
    (h : parseExpression limit cell = .ok e) :
    ∃ ts, tokenize cell = .ok ts ∧ (ts.Pairwise fun t t' => t.position < t'.position) ∧
      e.references = referencesIn false (lexemes ts) := by
  obtain ⟨ts, hts, t, ht, rfl⟩ := parseExpression_eq_ok.1 h
  exact ⟨ts, hts, (standWithin_tokenize hts).increasing, ht ▸ t.references_tree⟩

theorem references_of_nested_cell :
    let cell :=
      "p some (q value TRUE and true) or not inverse 'r s' min 1 (n value \"4\"^^<urn:d> and _:a)"
    let terms : List TermReference := [.name "p", .name "q", .name "true", .label none "r s",
      .name "n", .iri "urn:d", .anonymous "a"]
    ∃ e ts, parseExpression 4 cell = .ok e ∧ tokenize cell = .ok ts ∧ e.references = terms ∧
      e.references = referencesIn false (lexemes ts) := by
  intro cell terms
  obtain ⟨e, parsed, read⟩ : ∃ e, parseExpression 4 cell = .ok e ∧ e.references = terms :=
    exists_of_toOption_map (by decide +kernel)
  obtain ⟨ts, lexed, -, inOrder⟩ := references_of_parseExpression parsed
  exact ⟨e, ts, parsed, lexed, read, inOrder⟩

end TabularOntology.Cell
