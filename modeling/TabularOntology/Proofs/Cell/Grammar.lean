import TabularOntology.Cell.Expression
import TabularOntology.Cell.Token
import TabularOntology.Proofs.Cell.Numeral
import Mathlib.Algebra.Ring.Nat
import Mathlib.Data.List.Basic

/-! The grammar of class expressions as data. A derivation says how a list of lexemes
comes about from the rules, and what tree it stands for; its level bounds how many `not`,
parentheses and fillers stand inside each other:

    disjunction(d) := conjunction(d) ("or" conjunction(d))*
    conjunction(d) := operand(d) ("and" operand(d))*
    operand(d)     := "not" operand(d-1) | "(" disjunction(d-1) ")" | term
                    | "inverse"? term restriction(d)
    restriction(d) := ("some" | "only") operand(d-1) | "value" value
                    | ("exactly" | "min" | "max") cardinality operand(d-1)?

and below level zero there is nothing. The grammar is unambiguous: what may stand after an
operand, a conjunction or a disjunction never starts what could go on, so where a
derivation ends is seen from the lexemes alone. -/

namespace TabularOntology.Cell

/-- The lexemes of tokens, without their positions. -/
abbrev lexemes (ts : List Token) : List Lexeme := ts.map Token.lexeme

/-- The quantifiers that are followed by an operand. -/
def Quantifier.takesOperand : Quantifier → Bool
  | .some | .only => true
  | .value | .exactly | .min | .max => false

/-- The quantifiers that are followed by a cardinality. -/
def Quantifier.counts : Quantifier → Bool
  | .exactly | .min | .max => true
  | .some | .only | .value => false

def Quantifier.keyword : Quantifier → Keyword
  | .some => .some
  | .only => .only
  | .value => .value
  | .exactly => .exactly
  | .min => .min
  | .max => .max

theorem Quantifier.keyword_inj {q q' : Quantifier} (h : q.keyword = q'.keyword) : q = q' := by
  cases q <;> cases q' <;> first | rfl | cases h

def PropertyReference.lexemes (p : PropertyReference) : List Lexeme :=
  if p.inverse then [.keyword .inverse, .term p.term] else [.term p.term]

namespace Grammar

/-- A name that stands for a boolean where literals are allowed, in small or capital letters. -/
def IsBoolean (word : String) (b : Bool) : Prop :=
  word.toList.map Char.toLower = (if b then "true" else "false").toList

/-- A literal or a term; a boolean is no term here. -/
inductive IsValue : List Lexeme → Value → Prop
  | string (s : String) : IsValue [.string s] (.literal (.string s none))
  | tagged (s tag : String) :
    IsValue [.string s, .languageTag tag] (.literal (.string s (some tag)))
  | typed (s : String) (datatype : TermReference) :
    IsValue [.string s, .datatypeMark, .term datatype] (.literal (.typed s datatype))
  | integer (digits : String) : IsValue [.integer digits] (.literal (.integer digits))
  | decimal (digits : String) : IsValue [.decimal digits] (.literal (.decimal digits))
  | boolean (word : String) (b : Bool) (h : IsBoolean word b) :
    IsValue [.term (.name word)] (.literal (.boolean b))
  | individual (t : TermReference) (h : ∀ word b, t = .name word → ¬ IsBoolean word b) :
    IsValue [.term t] (.individual t)

/-- An integer that writes a number of 32 bits, maybe after a plus sign. -/
structure IsCardinality (digits : String) (n : Nat) : Prop where
  numeral : ∃ cs, IsNumeral cs n ∧ (digits.toList = cs ∨ digits.toList = '+' :: cs)
  bound : n < 2 ^ 32

mutual

inductive Disjunction : Nat → Type
  | last {d : Nat} (c : Conjunction d) : Disjunction d
  | or {d : Nat} (c : Conjunction d) (more : Disjunction d) : Disjunction d

inductive Conjunction : Nat → Type
  | last {d : Nat} (o : Operand d) : Conjunction d
  | and {d : Nat} (o : Operand d) (more : Conjunction d) : Conjunction d

inductive Operand : Nat → Type
  | not {d : Nat} (o : Operand d) : Operand (d + 1)
  | parens {d : Nat} (e : Disjunction d) : Operand (d + 1)
  | term {d : Nat} (t : TermReference) : Operand d
  | restriction {d : Nat} (p : PropertyReference) (r : Restriction d) : Operand d

/-- What follows the property of a restriction. -/
inductive Restriction : Nat → Type
  | filled {d : Nat} (q : Quantifier) (h : q.takesOperand = true) (o : Operand d) :
    Restriction (d + 1)
  | value {d : Nat} (ls : List Lexeme) (v : Value) (h : IsValue ls v) : Restriction d
  | counted {d : Nat} (q : Quantifier) (h : q.counts = true) (digits : String) (n : Nat)
    (hn : IsCardinality digits n) : Restriction d
  | countedFilled {d : Nat} (q : Quantifier) (h : q.counts = true) (digits : String) (n : Nat)
    (hn : IsCardinality digits n) (o : Operand d) : Restriction (d + 1)

end

/-! ### What a derivation derives -/

mutual

def Disjunction.lexemes : {d : Nat} → Disjunction d → List Lexeme
  | _, .last c => c.lexemes
  | _, .or c more => c.lexemes ++ .keyword .or :: more.lexemes

def Conjunction.lexemes : {d : Nat} → Conjunction d → List Lexeme
  | _, .last o => o.lexemes
  | _, .and o more => o.lexemes ++ .keyword .and :: more.lexemes

def Operand.lexemes : {d : Nat} → Operand d → List Lexeme
  | _, .not o => .keyword .not :: o.lexemes
  | _, .parens e => .leftParen :: (e.lexemes ++ [.rightParen])
  | _, .term t => [.term t]
  | _, .restriction p r => p.lexemes ++ r.lexemes

def Restriction.lexemes : {d : Nat} → Restriction d → List Lexeme
  | _, .filled q _ o => .keyword q.keyword :: o.lexemes
  | _, .value ls _ _ => .keyword .value :: ls
  | _, .counted q _ digits _ _ => [.keyword q.keyword, .integer digits]
  | _, .countedFilled q _ digits _ _ o => .keyword q.keyword :: .integer digits :: o.lexemes

end

/-! ### What a derivation stands for

All operands of a chain belong to one node, a chain of one operand is that operand, and
parentheses leave nothing behind. -/

mutual

def Disjunction.tree : {d : Nat} → Disjunction d → Expression
  | _, .last c => c.tree
  | _, .or c more => .union (c.tree :: more.operands)

/-- What is joined with `or`. -/
def Disjunction.operands : {d : Nat} → Disjunction d → List Expression
  | _, .last c => [c.tree]
  | _, .or c more => c.tree :: more.operands

def Conjunction.tree : {d : Nat} → Conjunction d → Expression
  | _, .last o => o.tree
  | _, .and o more => .intersection (o.tree :: more.operands)

/-- What is joined with `and`. -/
def Conjunction.operands : {d : Nat} → Conjunction d → List Expression
  | _, .last o => [o.tree]
  | _, .and o more => o.tree :: more.operands

def Operand.tree : {d : Nat} → Operand d → Expression
  | _, .not o => .complement o.tree
  | _, .parens e => e.tree
  | _, .term t => .term t
  | _, .restriction p r => r.tree p

def Restriction.tree : {d : Nat} → Restriction d → PropertyReference → Expression
  | _, .filled q _ o, p => .restriction p q none (.expression o.tree)
  | _, .value _ v _, p => .restriction p .value none (.value v)
  | _, .counted q _ _ n _, p => .restriction p q (some n) .none
  | _, .countedFilled q _ _ n _ o, p => .restriction p q (some n) (.expression o.tree)

end

/-- The tree of a chain, by its operands: an operand that is alone, or one node of several. -/
inductive Joins (node : List Expression → Expression) : List Expression → Expression → Prop
  | one (e : Expression) : Joins node [e] e
  | several {es : List Expression} (several : 2 ≤ es.length) : Joins node es (node es)

section
variable {d : Nat}

theorem Conjunction.operands_ne_nil (c : Conjunction d) : c.operands ≠ [] := by
  cases c <;> exact List.cons_ne_nil _ _

theorem Disjunction.operands_ne_nil (e : Disjunction d) : e.operands ≠ [] := by
  cases e <;> exact List.cons_ne_nil _ _

theorem Conjunction.joins (c : Conjunction d) : Joins .intersection c.operands c.tree := by
  cases c with
  | last o => exact .one o.tree
  | and o more =>
    exact .several (Nat.succ_le_succ (List.length_pos_iff.2 more.operands_ne_nil))

theorem Disjunction.joins (e : Disjunction d) : Joins .union e.operands e.tree := by
  cases e with
  | last c => exact .one c.tree
  | or c more =>
    exact .several (Nat.succ_le_succ (List.length_pos_iff.2 more.operands_ne_nil))

end

/-! ### What may stand after a derivation -/

def AfterDisjunction (ls : List Lexeme) : Prop := ∀ l ∈ ls.head?, l = .rightParen

def AfterConjunction (ls : List Lexeme) : Prop :=
  ∀ l ∈ ls.head?, l = .rightParen ∨ l = .keyword .or

def AfterOperand (ls : List Lexeme) : Prop :=
  ∀ l ∈ ls.head?, l = .rightParen ∨ l = .keyword .or ∨ l = .keyword .and

section
variable {d : Nat} {ls ls' : List Lexeme}

theorem AfterDisjunction.afterConjunction (h : AfterDisjunction ls) : AfterConjunction ls :=
  fun l hl => .inl (h l hl)

theorem AfterConjunction.afterOperand (h : AfterConjunction ls) : AfterOperand ls :=
  fun l hl => (h l hl).imp_right .inl

theorem afterDisjunction_nil : AfterDisjunction [] := nofun

theorem afterDisjunction_rightParen : AfterDisjunction (.rightParen :: ls) := by
  simp [AfterDisjunction]

theorem afterConjunction_or : AfterConjunction (.keyword .or :: ls) := by
  simp [AfterConjunction]

theorem afterOperand_and : AfterOperand (.keyword .and :: ls) := by
  simp [AfterOperand]

theorem AfterDisjunction.ne_or (h : AfterDisjunction ls) : ls ≠ .keyword .or :: ls' := by
  rintro rfl
  simp [AfterDisjunction] at h

theorem AfterConjunction.ne_and (h : AfterConjunction ls) : ls ≠ .keyword .and :: ls' := by
  rintro rfl
  simp [AfterConjunction] at h

theorem AfterOperand.ne_quantifier (h : AfterOperand ls) (q : Quantifier) :
    ls ≠ .keyword q.keyword :: ls' := by
  rintro rfl
  cases q <;> simp [AfterOperand, Quantifier.keyword] at h

end

/-! ### The grammar is unambiguous -/

theorem property_append_inj {p p' : PropertyReference} {ls ls' : List Lexeme}
    (h : p.lexemes ++ ls = p'.lexemes ++ ls') : p = p' ∧ ls = ls' := by
  obtain ⟨t, inverse⟩ := p
  obtain ⟨t', inverse'⟩ := p'
  cases inverse <;> cases inverse' <;> simp_all [PropertyReference.lexemes]

theorem not_property_append {p : PropertyReference} {l : Lexeme} {ls r ls' : List Lexeme}
    (hi : l ≠ .keyword .inverse) (ht : ∀ t, l ≠ .term t) : (p.lexemes ++ ls) ++ r ≠ l :: ls' := by
  obtain ⟨t, inverse⟩ := p
  cases inverse with
  | false => exact fun h => ht t (List.cons.inj h).1.symm
  | true => exact fun h => hi (List.cons.inj h).1.symm

theorem IsCardinality.unique {digits : String} {n m : Nat} (hn : IsCardinality digits n)
    (hm : IsCardinality digits m) : n = m := by
  obtain ⟨cs, hcs, text⟩ := hn.numeral
  obtain ⟨cs', hcs', text'⟩ := hm.numeral
  -- A digit is no plus sign.
  have digit {cs : List Char} {n : Nat} (h : IsNumeral ('+' :: cs) n) : False :=
    nomatch (isNumeral_iff.1 h).2.1 '+' List.mem_cons_self
  rcases text with rfl | signed <;> rcases text' with rfl | signed'
  · exact hcs.unique hcs'
  · exact (digit (signed' ▸ hcs)).elim
  · exact (digit (signed ▸ hcs')).elim
  · obtain rfl := (List.cons.inj (signed.symm.trans signed')).2
    exact hcs.unique hcs'

theorem IsBoolean.unique {word : String} {b b' : Bool} (h : IsBoolean word b)
    (h' : IsBoolean word b') : b = b' := by
  unfold IsBoolean at h h'
  rw [h] at h'
  cases b <;> cases b' <;> first | rfl | exact absurd h' (by decide)

/-- What may not stand after an operand: the parts that a string brings along. -/
theorem AfterOperand.ne_glued {ls ls' : List Lexeme} (h : AfterOperand ls) :
    (∀ tag, ls ≠ .languageTag tag :: ls') ∧ ls ≠ .datatypeMark :: ls' := by
  constructor
  · rintro tag rfl
    simp [AfterOperand] at h
  · rintro rfl
    simp [AfterOperand] at h

theorem IsValue.append_inj {ls ls' r r' : List Lexeme} {v v' : Value} (hv : IsValue ls v)
    (hv' : IsValue ls' v') (hr : AfterOperand r) (hr' : AfterOperand r')
    (h : ls ++ r = ls' ++ r') : ls = ls' ∧ v = v' ∧ r = r' := by
  cases hv <;> cases hv' <;>
    simp only [List.cons_append, List.nil_append, List.cons.injEq, Lexeme.term.injEq,
      reduceCtorEq, false_and, and_false] at h
  case boolean.boolean word b hb word' b' hb' =>
    obtain ⟨hw, rfl⟩ := h
    cases hw
    exact ⟨rfl, by rw [hb.unique hb'], rfl⟩
  case boolean.individual word b hb t ht => exact absurd hb (ht word b h.1.symm)
  case individual.boolean t ht word b hb => exact absurd hb (ht word b h.1)
  case string.tagged => exact absurd h.2 (hr.ne_glued.1 _)
  case tagged.string => exact absurd h.2.symm (hr'.ne_glued.1 _)
  case string.typed => exact absurd h.2 hr.ne_glued.2
  case typed.string => exact absurd h.2.symm hr'.ne_glued.2
  all_goals simp_all

variable {d : Nat}

/-- The lexemes that operands start with. -/
def StartsOperand (l : Lexeme) : Prop :=
  l = .keyword .not ∨ l = .keyword .inverse ∨ l = .leftParen ∨ ∃ t, l = .term t

theorem Operand.exists_head (o : Operand d) :
    ∃ l more, o.lexemes = l :: more ∧ StartsOperand l := by
  cases o with
  | not o => exact ⟨_, _, rfl, .inl rfl⟩
  | parens e => exact ⟨_, _, rfl, .inr (.inr (.inl rfl))⟩
  | term t => exact ⟨_, _, rfl, .inr (.inr (.inr ⟨t, rfl⟩))⟩
  | restriction p r =>
    obtain ⟨t, inverse⟩ := p
    cases inverse with
    | false => exact ⟨_, _, rfl, .inr (.inr (.inr ⟨t, rfl⟩))⟩
    | true => exact ⟨_, _, rfl, .inr (.inl rfl)⟩

theorem AfterOperand.not_starts {l : Lexeme} {ls : List Lexeme} (h : AfterOperand (l :: ls)) :
    ¬ StartsOperand l := by
  have hl := h l rfl
  rintro (rfl | rfl | rfl | ⟨t, rfl⟩) <;> simp at hl

theorem AfterOperand.ne_append {r : List Lexeme} (h : AfterOperand r) (o : Operand d)
    (ls : List Lexeme) : r ≠ o.lexemes ++ ls := by
  rintro rfl
  obtain ⟨l, more, hl, starts⟩ := o.exists_head
  rw [hl] at h
  exact h.not_starts starts

def Restriction.quantifier : {d : Nat} → Restriction d → Quantifier
  | _, .filled q .. => q
  | _, .value .. => .value
  | _, .counted q .. => q
  | _, .countedFilled q .. => q

/-- What a restriction derives after its quantifier. -/
def Restriction.rest : {d : Nat} → Restriction d → List Lexeme
  | _, .filled _ _ o => o.lexemes
  | _, .value ls _ _ => ls
  | _, .counted _ _ digits _ _ => [.integer digits]
  | _, .countedFilled _ _ digits _ _ o => .integer digits :: o.lexemes

theorem Restriction.lexemes_eq (s : Restriction d) :
    s.lexemes = .keyword s.quantifier.keyword :: s.rest := by
  cases s <;> rfl

theorem Restriction.quantifier_append_inj (s : Restriction d) {s' : Restriction d}
    {r r' : List Lexeme} (h : s.lexemes ++ r = s'.lexemes ++ r') :
    s.quantifier = s'.quantifier ∧ s.rest ++ r = s'.rest ++ r' := by
  rw [s.lexemes_eq, s'.lexemes_eq, List.cons_append, List.cons_append, List.cons.injEq,
    Lexeme.keyword.injEq] at h
  exact h.imp_left Quantifier.keyword_inj

/-- A term alone is no property with its restriction. -/
theorem AfterOperand.term_append_ne {r : List Lexeme} (h : AfterOperand r) (s : Restriction d)
    (p : PropertyReference) (t : TermReference) {ls : List Lexeme} :
    [.term t] ++ r ≠ (p.lexemes ++ s.lexemes) ++ ls := by
  obtain ⟨t', inverse⟩ := p
  rw [s.lexemes_eq]
  cases inverse with
  | false => exact fun e => h.ne_quantifier s.quantifier (List.cons.inj e).2
  | true => exact fun e => nomatch (List.cons.inj e).1

-- By induction on the first derivation. The second one begins with the same lexemes, so it is
-- by the same rule, except that one could go on where the other ends: what stands after rules
-- that out.
mutual

theorem Disjunction.append_inj {d : Nat} (e e' : Disjunction d) {r r' : List Lexeme}
    (hr : AfterDisjunction r) (hr' : AfterDisjunction r')
    (h : e.lexemes ++ r = e'.lexemes ++ r') : e = e' ∧ r = r' := by
  cases e with
  | last c =>
    cases e' with
    | last c' =>
      obtain ⟨rfl, rfl⟩ := c.append_inj c' hr.afterConjunction hr'.afterConjunction h
      exact ⟨rfl, rfl⟩
    | or c' more' =>
      simp only [Disjunction.lexemes, List.append_assoc, List.cons_append] at h
      exact absurd (c.append_inj c' hr.afterConjunction afterConjunction_or h).2 hr.ne_or
  | or c more =>
    simp only [Disjunction.lexemes, List.append_assoc, List.cons_append] at h
    cases e' with
    | last c' =>
      exact absurd (c.append_inj c' afterConjunction_or hr'.afterConjunction h).2.symm hr'.ne_or
    | or c' more' =>
      simp only [Disjunction.lexemes, List.append_assoc, List.cons_append] at h
      obtain ⟨rfl, hmore⟩ := c.append_inj c' afterConjunction_or afterConjunction_or h
      obtain ⟨rfl, rfl⟩ := more.append_inj more' hr hr' (List.cons.inj hmore).2
      exact ⟨rfl, rfl⟩

theorem Conjunction.append_inj {d : Nat} (c c' : Conjunction d) {r r' : List Lexeme}
    (hr : AfterConjunction r) (hr' : AfterConjunction r')
    (h : c.lexemes ++ r = c'.lexemes ++ r') : c = c' ∧ r = r' := by
  cases c with
  | last o =>
    cases c' with
    | last o' =>
      obtain ⟨rfl, rfl⟩ := o.append_inj o' hr.afterOperand hr'.afterOperand h
      exact ⟨rfl, rfl⟩
    | and o' more' =>
      simp only [Conjunction.lexemes, List.append_assoc, List.cons_append] at h
      exact absurd (o.append_inj o' hr.afterOperand afterOperand_and h).2 hr.ne_and
  | and o more =>
    simp only [Conjunction.lexemes, List.append_assoc, List.cons_append] at h
    cases c' with
    | last o' =>
      exact absurd (o.append_inj o' afterOperand_and hr'.afterOperand h).2.symm hr'.ne_and
    | and o' more' =>
      simp only [Conjunction.lexemes, List.append_assoc, List.cons_append] at h
      obtain ⟨rfl, hmore⟩ := o.append_inj o' afterOperand_and afterOperand_and h
      obtain ⟨rfl, rfl⟩ := more.append_inj more' hr hr' (List.cons.inj hmore).2
      exact ⟨rfl, rfl⟩

theorem Operand.append_inj {d : Nat} (o o' : Operand d) {r r' : List Lexeme}
    (hr : AfterOperand r) (hr' : AfterOperand r')
    (h : o.lexemes ++ r = o'.lexemes ++ r') : o = o' ∧ r = r' := by
  cases o with
  | not o =>
    cases o' with
    | not o' =>
      obtain ⟨rfl, rfl⟩ := o.append_inj o' hr hr' (List.cons.inj h).2
      exact ⟨rfl, rfl⟩
    | parens e' => cases (List.cons.inj h).1
    | term t' => cases (List.cons.inj h).1
    | restriction p' s' => exact absurd h.symm (not_property_append nofun nofun)
  | parens e =>
    cases o' with
    | parens e' =>
      simp only [Operand.lexemes, List.cons_append, List.append_assoc, List.nil_append] at h
      obtain ⟨rfl, hrest⟩ := e.append_inj e' afterDisjunction_rightParen
        afterDisjunction_rightParen (List.cons.inj h).2
      exact ⟨rfl, (List.cons.inj hrest).2⟩
    | not o' => cases (List.cons.inj h).1
    | term t' => cases (List.cons.inj h).1
    | restriction p' s' => exact absurd h.symm (not_property_append nofun nofun)
  | term t =>
    cases o' with
    | term t' =>
      obtain ⟨ht, rfl⟩ := List.cons.inj h
      cases ht
      exact ⟨rfl, rfl⟩
    | not o' => cases (List.cons.inj h).1
    | parens e' => cases (List.cons.inj h).1
    | restriction p' s' => exact absurd h (hr.term_append_ne s' p' t)
  | restriction p s =>
    cases o' with
    | restriction p' s' =>
      simp only [Operand.lexemes, List.append_assoc] at h
      obtain ⟨rfl, hs⟩ := property_append_inj h
      obtain ⟨rfl, rfl⟩ := s.append_inj s' hr hr' hs
      exact ⟨rfl, rfl⟩
    | not o' => exact absurd h (not_property_append nofun nofun)
    | parens e' => exact absurd h (not_property_append nofun nofun)
    | term t' => exact absurd h.symm (hr'.term_append_ne s p t')

theorem Restriction.append_inj {d : Nat} (s s' : Restriction d) {r r' : List Lexeme}
    (hr : AfterOperand r) (hr' : AfterOperand r')
    (h : s.lexemes ++ r = s'.lexemes ++ r') : s = s' ∧ r = r' := by
  obtain ⟨hq, h⟩ := s.quantifier_append_inj h
  cases s with
  | filled q hf o =>
    cases s' with
    | filled q' _ o' =>
      obtain rfl : q = q' := hq
      obtain ⟨rfl, rfl⟩ := o.append_inj o' hr hr' h
      exact ⟨rfl, rfl⟩
    | value => cases hq; cases hf
    | counted q' hc => cases hq; cases q <;> contradiction
    | countedFilled q' hc => cases hq; cases q <;> contradiction
  | value ls v hv =>
    cases s' with
    | value ls' v' hv' =>
      obtain ⟨rfl, rfl, rfl⟩ := hv.append_inj hv' hr hr' h
      exact ⟨rfl, rfl⟩
    | filled q' hf => cases hq; cases hf
    | counted q' hc => cases hq; cases hc
    | countedFilled q' hc => cases hq; cases hc
  | counted q hc digits n hn =>
    cases s' with
    | counted q' _ digits' n' hn' =>
      obtain rfl : q = q' := hq
      obtain ⟨hd, rfl⟩ := List.cons.inj h
      cases hd
      obtain rfl := hn.unique hn'
      exact ⟨rfl, rfl⟩
    | countedFilled q' _ digits' n' hn' o' => exact absurd (List.cons.inj h).2 (hr.ne_append o' _)
    | filled q' hf => cases hq; cases q <;> contradiction
    | value => cases hq; cases hc
  | countedFilled q hc digits n hn o =>
    cases s' with
    | countedFilled q' _ digits' n' hn' o' =>
      obtain rfl : q = q' := hq
      obtain ⟨hd, ho⟩ := List.cons.inj h
      cases hd
      obtain rfl := hn.unique hn'
      obtain ⟨rfl, rfl⟩ := o.append_inj o' hr hr' ho
      exact ⟨rfl, rfl⟩
    | counted q' _ digits' n' hn' =>
      exact absurd (List.cons.inj h).2.symm (hr'.ne_append o _)
    | filled q' hf => cases hq; cases q <;> contradiction
    | value => cases hq; cases hc

end

/-- A list of lexemes has at most one derivation. -/
theorem Disjunction.lexemes_inj {e e' : Disjunction d} (h : e.lexemes = e'.lexemes) : e = e' :=
  (e.append_inj e' afterDisjunction_nil afterDisjunction_nil (by rw [h])).1

end Grammar

end TabularOntology.Cell
