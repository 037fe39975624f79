import TabularOntology.Proofs.Cell.Grammar
import TabularOntology.Proofs.Cell.Pieces

/-! What can be written in a cell. A leaf can be written if its text is read as one lexeme,
the leaf itself; an expression can be written if its leaves can, its chains have at least
two operands, and its restrictions have what their quantifier asks for. Everything that is
read from a cell can be written. -/

namespace TabularOntology.Cell

open Text Grammar

theorem IsWord.of_all {cs : List Char} (nonempty : cs ≠ []) (all : cs.all isWordChar = true)
    (head : cs.head? ≠ some '@') : IsWord cs :=
  ⟨nonempty, List.all_eq_true.1 all, head⟩

/-- A word that is read as nothing but a name. -/
structure IsName (s : String) : Prop where
  word : IsWord s.toList
  noIndividual : ∀ cs, s.toList ≠ '_' :: ':' :: cs
  noInteger : isInteger s.toList = false
  noDecimal : isDecimal s.toList = false
  noKeyword : Keyword.ofLower? (lowerAscii s) = none

/-- References whose text is one lexeme, the reference itself. -/
def TermReference.IsWritten : TermReference → Prop
  | .iri s => ∀ c ∈ s.toList, isIriChar c = true
  | .name s => IsName s
  | .label none _ => True
  | .label (some space) _ =>
    (∀ c ∈ space.toList, isWordChar c = true) ∧ space.toList.head? ≠ some '@'
  | .anonymous s => s.toList ≠ [] ∧ ∀ c ∈ s.toList, isWordChar c = true

/-- A language tag after its `@`. -/
def IsTag (tag : String) : Prop := tag.toList ≠ [] ∧ ∀ c ∈ tag.toList, isTagChar c = true

def LiteralValue.IsWritten : LiteralValue → Prop
  | .string _ none => True
  | .string _ (some tag) => IsTag tag
  | .typed _ datatype => datatype.IsWritten
  | .integer digits => isInteger digits.toList = true
  | .decimal digits => isDecimal digits.toList = true
  | .boolean _ => True

/-- The names that are read as booleans stand for no individual. -/
def Value.IsWritten : Value → Prop
  | .individual t => t.IsWritten ∧ ∀ word b, t = .name word → ¬ IsBoolean word b
  | .literal l => l.IsWritten

/-- Expressions of the shape that their operators ask for; cardinalities have 32 bits. -/
inductive Expression.IsWritten : Expression → Prop
  | term {t : TermReference} (ht : t.IsWritten) : IsWritten (.term t)
  | intersection {es : List Expression} (several : 2 ≤ es.length)
    (hes : ∀ e ∈ es, e.IsWritten) : IsWritten (.intersection es)
  | union {es : List Expression} (several : 2 ≤ es.length)
    (hes : ∀ e ∈ es, e.IsWritten) : IsWritten (.union es)
  | complement {e : Expression} (he : e.IsWritten) : IsWritten (.complement e)
  | filled {p : PropertyReference} {q : Quantifier} {e : Expression} (hp : p.term.IsWritten)
    (hq : q.takesOperand = true) (he : e.IsWritten) :
    IsWritten (.restriction p q none (.expression e))
  | value {p : PropertyReference} {v : Value} (hp : p.term.IsWritten) (hv : v.IsWritten) :
    IsWritten (.restriction p .value none (.value v))
  | counted {p : PropertyReference} {q : Quantifier} {n : Nat} (hp : p.term.IsWritten)
    (hq : q.counts = true) (hn : n < 2 ^ 32) : IsWritten (.restriction p q (some n) .none)
  | countedFilled {p : PropertyReference} {q : Quantifier} {n : Nat} {e : Expression}
    (hp : p.term.IsWritten) (hq : q.counts = true) (hn : n < 2 ^ 32) (he : e.IsWritten) :
    IsWritten (.restriction p q (some n) (.expression e))

structure Fact.IsWritten (f : Fact) : Prop where
  property : f.property.IsWritten
  value : f.value.IsWritten

def Lexeme.IsWritten : Lexeme → Prop
  | .term t => t.IsWritten
  | .languageTag tag => IsTag tag
  | .integer digits => isInteger digits.toList = true
  | .decimal digits => isDecimal digits.toList = true
  | .leftParen | .rightParen | .keyword _ | .string _ | .datatypeMark => True

/-! ### The lexer -/

theorem isInteger_iff {w : List Char} :
    isInteger w = true ↔ unsigned w ≠ [] ∧ ∀ c ∈ unsigned w, c.isDigit = true := by
  rw [isInteger, Bool.and_eq_true, List.all_eq_true, Bool.not_eq_true', List.isEmpty_eq_false_iff]

theorem unsigned_of_isDigit {w : List Char} (h : ∀ c ∈ w, c.isDigit = true) : unsigned w = w := by
  unfold unsigned
  split
  · cases h '+' List.mem_cons_self
  · cases h '-' List.mem_cons_self
  · rfl

theorem isWritten_of_classify {word : List Char} {l : Lexeme} (hw : IsWord word)
    (h : classify word = .ok l) : l.IsWritten := by
  unfold classify at h
  split at h
  · cases h
  · next name unnamed =>
    cases h
    rw [Lexeme.IsWritten, TermReference.IsWritten, String.toList_ofList]
    refine ⟨unnamed, fun c hc => hw.all c ?_⟩
    exact List.mem_cons_of_mem _ (List.mem_cons_of_mem _ hc)
  · next unnamed noIndividual =>
    dsimp only at h
    split at h
    · next digits =>
      cases h
      rwa [Lexeme.IsWritten, String.toList_ofList]
    split at h
    · next digits =>
      cases h
      rwa [Lexeme.IsWritten, String.toList_ofList]
    split at h
    · cases h
      trivial
    · next noInteger noDecimal _ noKeyword =>
      cases h
      have toList := String.toList_ofList (l := word)
      refine ⟨by rwa [toList], fun cs => ?_, ?_, ?_, noKeyword⟩
      · rw [toList]
        rintro rfl
        exact noIndividual cs rfl
      · rw [toList]
        exact Bool.eq_false_iff.2 noInteger
      · rw [toList]
        exact Bool.eq_false_iff.2 noDecimal

section
variable {pos : Nat} {cs used rest : List Char} {ts : List Token}

theorem Glued.isWritten (h : Glued pos used ts rest) : ∀ t ∈ ts, t.lexeme.IsWritten := by
  cases h with
  | tag nonempty all =>
    rw [List.forall_mem_singleton, Lexeme.IsWritten, IsTag, String.toList_ofList]
    exact ⟨nonempty, all⟩
  | mark => exact List.forall_mem_singleton.2 trivial
  | nothing => exact nofun

theorem Piece.isWritten (h : Piece pos used ts rest) : ∀ t ∈ ts, t.lexeme.IsWritten := by
  cases h with
  | leftParen | rightParen | label => exact List.forall_mem_singleton.2 trivial
  | iri all =>
    rw [List.forall_mem_singleton, Lexeme.IsWritten, TermReference.IsWritten, String.toList_ofList]
    exact all
  | string _ glued => exact List.forall_mem_cons.2 ⟨trivial, glued.isWritten⟩
  | spaced word =>
    rw [List.forall_mem_singleton, Lexeme.IsWritten, TermReference.IsWritten, String.toList_ofList]
    refine ⟨fun c hc => word.all c (List.mem_append_left _ hc), fun e => word.head ?_⟩
    rw [List.head?_append, e]
    rfl
  | word word _ _ h => exact List.forall_mem_singleton.2 (isWritten_of_classify word h)

theorem Lexes.isWritten (h : Lexes pos cs ts) : ∀ t ∈ ts, t.lexeme.IsWritten := by
  induction h with
  | nil => exact nofun
  | blank _ _ ih => exact ih
  | piece first _ ih => exact List.forall_mem_append.2 ⟨first.isWritten, ih⟩

/-- Whatever is lexed can be written. -/
theorem isWritten_of_scan (h : scan pos cs = .ok ts) : ∀ t ∈ ts, t.lexeme.IsWritten :=
  (scan_eq_ok.1 h).isWritten

end

/-! ### What is read can be written

A tree can be written if the lexemes of its derivation can. -/

namespace Grammar

/-- Lexemes that come from a lexer. -/
def AreWritten (ls : List Lexeme) : Prop := ∀ l ∈ ls, l.IsWritten

theorem areWritten_cons {l : Lexeme} {ls : List Lexeme} :
    AreWritten (l :: ls) ↔ l.IsWritten ∧ AreWritten ls := List.forall_mem_cons

theorem areWritten_append {ls ls' : List Lexeme} :
    AreWritten (ls ++ ls') ↔ AreWritten ls ∧ AreWritten ls' := List.forall_mem_append

theorem areWritten_property {p : PropertyReference} (h : AreWritten p.lexemes) :
    p.term.IsWritten := by
  obtain ⟨t, inverse⟩ := p
  cases inverse with
  | false => exact (areWritten_cons.1 h).1
  | true => exact (areWritten_cons.1 (areWritten_cons.1 h).2).1

theorem IsValue.isWritten {ls : List Lexeme} {v : Value} (hv : IsValue ls v) (h : AreWritten ls) :
    v.IsWritten := by
  cases hv with
  | string s => trivial
  | tagged s tag => exact h (.languageTag tag) (by simp)
  | typed s datatype => exact h (.term datatype) (by simp)
  | integer digits => exact h (.integer digits) (by simp)
  | decimal digits => exact h (.decimal digits) (by simp)
  | boolean word b hb => trivial
  | individual t ht => exact ⟨h (.term t) (by simp), ht⟩

/-- A chain can be written if its operands can. -/
theorem Joins.isWritten {node : List Expression → Expression} {es : List Expression}
    {e : Expression} (joins : Joins node es e) (h : ∀ e ∈ es, e.IsWritten)
    (hnode : 2 ≤ es.length → (node es).IsWritten) : e.IsWritten := by
  cases joins with
  | one => exact h e (List.mem_singleton.2 rfl)
  | several several => exact hnode several

theorem Conjunction.isWritten_tree {d : Nat} (c : Conjunction d)
    (h : ∀ e ∈ c.operands, e.IsWritten) : c.tree.IsWritten :=
  c.joins.isWritten h fun several => .intersection several h

theorem Disjunction.isWritten_tree {d : Nat} (t : Disjunction d)
    (h : ∀ e ∈ t.operands, e.IsWritten) : t.tree.IsWritten :=
  t.joins.isWritten h fun several => .union several h

mutual

theorem Disjunction.isWritten {d : Nat} (t : Disjunction d) (h : AreWritten t.lexemes) :
    ∀ e ∈ t.operands, e.IsWritten := by
  cases t with
  | last c => exact List.forall_mem_singleton.2 (c.isWritten_tree (Conjunction.isWritten c h))
  | or c more =>
    obtain ⟨hc, hmore⟩ := areWritten_append.1 h
    exact List.forall_mem_cons.2 ⟨c.isWritten_tree (Conjunction.isWritten c hc),
      Disjunction.isWritten more (areWritten_cons.1 hmore).2⟩

theorem Conjunction.isWritten {d : Nat} (c : Conjunction d) (h : AreWritten c.lexemes) :
    ∀ e ∈ c.operands, e.IsWritten := by
  cases c with
  | last o => exact List.forall_mem_singleton.2 (Operand.isWritten o h)
  | and o more =>
    obtain ⟨ho, hmore⟩ := areWritten_append.1 h
    exact List.forall_mem_cons.2 ⟨Operand.isWritten o ho,
      Conjunction.isWritten more (areWritten_cons.1 hmore).2⟩

theorem Operand.isWritten {d : Nat} (o : Operand d) (h : AreWritten o.lexemes) :
    o.tree.IsWritten := by
  cases o with
  | not o => exact .complement (Operand.isWritten o (areWritten_cons.1 h).2)
  | parens t =>
    have inside := (areWritten_append.1 (areWritten_cons.1 h).2).1
    exact t.isWritten_tree (Disjunction.isWritten t inside)
  | term t => exact .term (areWritten_cons.1 h).1
  | restriction p s =>
    obtain ⟨hp, hs⟩ := areWritten_append.1 h
    exact Restriction.isWritten s (areWritten_property hp) hs

theorem Restriction.isWritten {d : Nat} (s : Restriction d) {p : PropertyReference}
    (hp : p.term.IsWritten) (h : AreWritten s.lexemes) : (s.tree p).IsWritten := by
  cases s with
  | filled q hq o => exact .filled hp hq (Operand.isWritten o (areWritten_cons.1 h).2)
  | value ls v hv => exact .value hp (hv.isWritten (areWritten_cons.1 h).2)
  | counted q hc digits n hn => exact .counted hp hc hn.bound
  | countedFilled q hc digits n hn o =>
    have filler := (areWritten_cons.1 (areWritten_cons.1 h).2).2
    exact .countedFilled hp hc hn.bound (Operand.isWritten o filler)

end

end Grammar

end TabularOntology.Cell
