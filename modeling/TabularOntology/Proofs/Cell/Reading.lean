import TabularOntology.Cell.Parser
import TabularOntology.Proofs.Cell.Written

/-! The parser reads what the grammar derives. For each parser, what it takes from the front
of a list of tokens is said once, as an equivalence; from these, whatever a parser takes has
a derivation of its level, and what has a derivation is taken, provided that what stands
after it could not go on. The grammar asks for the digits of a cardinality, which the parser does
not look at, so that tokens have to come from the lexer. A cell is therefore read exactly if its
tokens have a derivation, and the tree is the one that the derivation stands for. -/

namespace TabularOntology.Cell

theorem exists_token {ts : List Token} {l : Lexeme} {ls : List Lexeme} (h : lexemes ts = l :: ls) :
    ∃ pos more, ts = ⟨l, pos⟩ :: more ∧ lexemes more = ls := by
  obtain ⟨t, more, rfl, rfl, rfl⟩ := List.map_eq_cons_iff.1 h
  exact ⟨t.position, more, rfl, rfl⟩

namespace Parser

open Text TabularOntology.Cell.Grammar

variable {α β : Type} {ts rest : List Token} {stop limit d : Nat} {e : Expression}

/-- The parser takes `a` from the front of the tokens and leaves `rest`. -/
def Takes (p : Parser α) (ts : List Token) (a : α) (rest : List Token) : Prop :=
  ∃ h, p ts = .ok (a, ⟨rest, h⟩)

theorem takes_lift {p : Parser α} {q : Parser β} {ss : List Token} {h : ss.length ≤ ts.length}
    {f : α → β} {b : β} (eq : q ts = lift h f (p ss)) :
    Takes q ts b rest ↔ ∃ a, Takes p ss a rest ∧ b = f a := by
  unfold Takes
  rw [eq]
  constructor
  · rintro ⟨hr, eq⟩
    cases hp : p ss with
    | error e => rw [hp] at eq; cases eq
    | ok r =>
      obtain ⟨a, rest', hrest⟩ := r
      rw [hp] at eq
      cases eq
      exact ⟨a, ⟨hrest, rfl⟩, rfl⟩
  · rintro ⟨a, ⟨hr, hp⟩, rfl⟩
    exact ⟨Nat.lt_of_lt_of_le hr h, by rw [hp]; rfl⟩

theorem not_takes {p : Parser α} {a : α} {error : SyntaxError} (h : p ts = .error error) :
    ¬ Takes p ts a rest := by
  rintro ⟨hr, eq⟩
  rw [h] at eq
  cases eq

/-! ### Terms, values and cardinalities -/

theorem takes_term {what : Expected} {t : TermReference} :
    Takes (term stop what) ts t rest ↔ ∃ pos, ts = ⟨.term t, pos⟩ :: rest := by
  constructor
  · rintro ⟨h, eq⟩
    unfold term at eq
    split at eq
    · cases eq
    · cases eq
      exact ⟨_, rfl⟩
    · cases eq
  · rintro ⟨pos, rfl⟩
    exact ⟨by simp, rfl⟩

theorem isBoolean_iff {word : String} {b : Bool} :
    IsBoolean word b ↔ lowerAscii word = if b then "true" else "false" := by
  rw [IsBoolean, ← String.toList_inj, lowerAscii, String.toList_ofList]

theorem isValue_valueOfTerm (t : TermReference) : IsValue [.term t] (valueOfTerm t) := by
  cases t with
  | name s =>
    by_cases hTrue : lowerAscii s = "true"
    · have value : valueOfTerm (.name s) = .literal (.boolean true) := if_pos hTrue
      rw [value]
      exact .boolean s true (isBoolean_iff.2 hTrue)
    by_cases hFalse : lowerAscii s = "false"
    · have value : valueOfTerm (.name s) = .literal (.boolean false) :=
        (if_neg hTrue).trans (if_pos hFalse)
      rw [value]
      exact .boolean s false (isBoolean_iff.2 hFalse)
    · have value : valueOfTerm (.name s) = .individual (.name s) :=
        (if_neg hTrue).trans (if_neg hFalse)
      rw [value]
      refine .individual (.name s) fun word b hw => ?_
      cases hw
      rw [isBoolean_iff]
      cases b with
      | true => exact hTrue
      | false => exact hFalse
  | iri | label | anonymous => exact .individual _ nofun

theorem valueOfTerm_eq {t : TermReference} {v : Value} (h : IsValue [.term t] v) :
    valueOfTerm t = v :=
  ((isValue_valueOfTerm t).append_inj h afterDisjunction_nil.afterConjunction.afterOperand
    afterDisjunction_nil.afterConjunction.afterOperand rfl).2.1

theorem exists_isValue {v : Value} (h : Takes (value stop) ts v rest) :
    ∃ ls, IsValue ls v ∧ lexemes ts = ls ++ lexemes rest := by
  have ⟨hr, eq⟩ := h
  unfold value at eq
  split at eq
  · cases eq
  · cases eq
    exact ⟨_, .tagged _ _, rfl⟩
  · obtain ⟨datatype, taken, rfl⟩ := (takes_lift rfl).1 h
    obtain ⟨pos, rfl⟩ := takes_term.1 taken
    exact ⟨_, .typed _ datatype, rfl⟩
  · cases eq
    exact ⟨_, .string _, rfl⟩
  · cases eq
    exact ⟨_, .integer _, rfl⟩
  · cases eq
    exact ⟨_, .decimal _, rfl⟩
  · cases eq
    exact ⟨_, isValue_valueOfTerm _, rfl⟩
  · cases eq

theorem takes_value {ls r : List Lexeme} {v : Value} (hv : IsValue ls v)
    (h : lexemes ts = ls ++ r) (hr : AfterOperand r) :
    ∃ rest, lexemes rest = r ∧ Takes (value stop) ts v rest := by
  cases hv with
  | string s =>
    obtain ⟨pos, rest, rfl, rfl⟩ := exists_token h
    refine ⟨rest, rfl, by simp, ?_⟩
    rcases rest with _ | ⟨⟨l, pos'⟩, more⟩
    · rfl
    cases l with
    | languageTag tag => exact absurd rfl (hr.ne_glued.1 tag)
    | datatypeMark => exact absurd rfl hr.ne_glued.2
    | _ => rfl
  | tagged s tag =>
    obtain ⟨pos, more, rfl, hmore⟩ := exists_token h
    obtain ⟨pos', rest, rfl, rfl⟩ := exists_token hmore
    exact ⟨rest, rfl, by simp only [List.length_cons]; omega, rfl⟩
  | typed s datatype =>
    obtain ⟨pos, more, rfl, hmore⟩ := exists_token h
    obtain ⟨pos', last, rfl, hlast⟩ := exists_token hmore
    obtain ⟨pos'', rest, rfl, rfl⟩ := exists_token hlast
    exact ⟨rest, rfl,
      (takes_lift (p := term stop .datatype) (f := fun d => .literal (.typed s d)) rfl).2
        ⟨datatype, takes_term.2 ⟨pos'', rfl⟩, rfl⟩⟩
  | integer digits | decimal digits =>
    obtain ⟨pos, rest, rfl, rfl⟩ := exists_token h
    exact ⟨rest, rfl, by simp, rfl⟩
  | boolean word b hb =>
    obtain ⟨pos, rest, rfl, rfl⟩ := exists_token h
    exact ⟨rest, rfl, by simp, by rw [value, valueOfTerm_eq (.boolean word b hb)]⟩
  | individual t ht =>
    obtain ⟨pos, rest, rfl, rfl⟩ := exists_token h
    exact ⟨rest, rfl, by simp, by rw [value, valueOfTerm_eq (.individual t ht)]⟩

theorem cardinality?_eq_some {digits : String} {n : Nat} : cardinality? digits = some n ↔
    digits.toList.head? ≠ some '-' ∧ Nat.ofDigitChars 10 (unsigned digits.toList) 0 = n ∧
      n < 2 ^ 32 := by
  unfold cardinality?
  split
  · next cs heq =>
    refine iff_of_false nofun fun h => h.1 ?_
    rw [heq]
    rfl
  · next cs noMinus =>
    have head : digits.toList.head? ≠ some '-' := fun h => by
      obtain ⟨cs, hcs⟩ := List.head?_eq_some_iff.1 h
      exact noMinus cs hcs
    dsimp only
    constructor
    · intro h
      split at h
      · next le =>
        cases h
        exact ⟨head, rfl, Nat.lt_succ_of_le le⟩
      · cases h
    · rintro ⟨-, rfl, bound⟩
      exact if_pos (Nat.le_of_lt_succ bound)

theorem unsigned_of_digits {w cs : List Char} (isDigit : ∀ c ∈ cs, c.isDigit = true)
    (text : w = cs ∨ w = '+' :: cs) : unsigned w = cs ∧ w.head? ≠ some '-' := by
  rcases text with rfl | rfl
  · exact ⟨unsigned_of_isDigit isDigit, fun head => nomatch isDigit '-' (List.mem_of_head? head)⟩
  · exact ⟨rfl, nofun⟩

theorem eq_unsigned {w : List Char} (h : w.head? ≠ some '-') :
    w = unsigned w ∨ w = '+' :: unsigned w := by
  unfold unsigned
  split
  · exact .inr rfl
  · exact absurd rfl h
  · exact .inl rfl

/-- Of the integers that the lexer finds, the parser takes those that write a cardinality. -/
theorem isCardinality_iff {digits : String} {n : Nat} :
    IsCardinality digits n ↔ isInteger digits.toList = true ∧ cardinality? digits = some n := by
  rw [cardinality?_eq_some, isInteger_iff]
  constructor
  · rintro ⟨⟨cs, numeral, text⟩, bound⟩
    obtain ⟨nonempty, isDigit, value⟩ := isNumeral_iff.1 numeral
    obtain ⟨rfl, head⟩ := unsigned_of_digits isDigit text
    exact ⟨⟨nonempty, isDigit⟩, head, value, bound⟩
  · rintro ⟨⟨nonempty, isDigit⟩, head, value, bound⟩
    exact ⟨⟨_, isNumeral_iff.2 ⟨nonempty, isDigit, value⟩, eq_unsigned head⟩, bound⟩

theorem takes_cardinality {n : Nat} : Takes (cardinality stop) ts n rest ↔
    ∃ digits pos, ts = ⟨.integer digits, pos⟩ :: rest ∧ cardinality? digits = some n := by
  constructor
  · rintro ⟨hr, eq⟩
    unfold cardinality at eq
    split at eq
    · cases eq
    · split at eq
      · next hn =>
        cases eq
        exact ⟨_, _, rfl, hn⟩
      · cases eq
    · cases eq
    · cases eq
  · rintro ⟨digits, pos, rfl, hn⟩
    refine ⟨by simp, ?_⟩
    simp only [cardinality]
    rw [hn]

/-! ### Chains -/

theorem chain_link {separator : Keyword} {item : Parser α} {x : α} {pos : Nat} {tail : List Token}
    {h : (⟨.keyword separator, pos⟩ :: tail : List Token).length < ts.length}
    (heq : item ts = .ok (x, ⟨⟨.keyword separator, pos⟩ :: tail, h⟩)) :
    chain separator item ts = lift (Nat.le_of_lt (Nat.lt_of_succ_lt h)) (x :: ·)
      (chain separator item tail) := by
  rw [chain, heq]
  exact if_pos rfl

theorem takes_chain {separator : Keyword} {item : Parser α} {xs : List α} :
    Takes (chain separator item) ts xs rest ↔ ∃ x more, Takes item ts x more ∧
      ((∃ pos tail ys, more = ⟨.keyword separator, pos⟩ :: tail ∧ xs = x :: ys ∧
          Takes (chain separator item) tail ys rest) ∨
        (∀ pos tail, more ≠ ⟨.keyword separator, pos⟩ :: tail) ∧ xs = [x] ∧ rest = more) := by
  constructor
  · intro taken
    have ⟨hr, eq⟩ := taken
    rw [chain] at eq
    split at eq
    · cases eq
    · next x k pos tail h heq =>
      split at eq
      · next hk =>
        subst hk
        obtain ⟨ys, more, rfl⟩ := (takes_lift (chain_link heq)).1 taken
        exact ⟨x, _, ⟨h, heq⟩, .inl ⟨pos, tail, ys, rfl, rfl, more⟩⟩
      · next hk =>
        cases eq
        refine ⟨x, _, ⟨h, heq⟩, .inr ⟨fun pos' tail' e => hk ?_, rfl, rfl⟩⟩
        cases e
        rfl
    · next x more ne heq =>
      cases eq
      refine ⟨x, rest, ⟨hr, heq⟩, .inr ⟨fun pos tail e => ?_, rfl, rfl⟩⟩
      subst e
      exact ne _ _ _ _ rfl
  · rintro ⟨x, more, ⟨h, heq⟩, ⟨pos, tail, ys, rfl, rfl, taken⟩ | ⟨ne, rfl, rfl⟩⟩
    · exact (takes_lift (chain_link heq)).2 ⟨ys, taken, rfl⟩
    · refine ⟨h, ?_⟩
      rw [chain, heq]
      rcases rest with _ | ⟨⟨l, pos⟩, tail⟩
      · rfl
      cases l with
      | keyword k => exact if_neg fun hk => ne pos tail (by rw [hk])
      | _ => rfl

/-! ### Operands -/

theorem quantifier?_eq_some {k : Keyword} {q : Quantifier} :
    quantifier? k = some q ↔ k = q.keyword := by
  cases k <;> cases q <;> simp [quantifier?, Quantifier.keyword]

theorem nextQuantifier?_eq_some {q : Quantifier} : nextQuantifier? ts = some q ↔
    ∃ pos more, ts = ⟨.keyword q.keyword, pos⟩ :: more := by
  constructor
  · intro h
    unfold nextQuantifier? at h
    split at h
    · next k pos more =>
      rw [quantifier?_eq_some.1 h]
      exact ⟨pos, more, rfl⟩
    · cases h
  · rintro ⟨pos, more, rfl⟩
    exact quantifier?_eq_some.2 rfl

theorem startsOperand_iff :
    startsOperand ts = true ↔ ∃ l more, lexemes ts = l :: more ∧ StartsOperand l := by
  rcases ts with _ | ⟨⟨l, pos⟩, more⟩
  · simp [startsOperand]
  cases l with
  | keyword k => cases k <;> simp [startsOperand, StartsOperand]
  | _ => simp [startsOperand, StartsOperand]

section Restriction
variable {inner : Parser Expression} {p : PropertyReference} {q : Quantifier}

theorem takes_filled (hq : q.takesOperand = true) :
    Takes (restriction stop inner p q) ts e rest ↔
      ∃ o, Takes inner ts o rest ∧ e = .restriction p q none (.expression o) := by
  cases q with
  | some | only => exact takes_lift rfl
  | value | exactly | min | max => cases hq

theorem takes_hasValue : Takes (restriction stop inner p .value) ts e rest ↔
    ∃ v, Takes (value stop) ts v rest ∧ e = .restriction p .value none (.value v) :=
  takes_lift rfl

theorem restriction_counted (inner : Parser Expression) (p : PropertyReference)
    (hq : q.counts = true) {n : Nat} {more : Rest ts} (h : cardinality stop ts = .ok (n, more)) :
    restriction stop inner p q ts =
      if startsOperand more.val then
        lift (Nat.le_of_lt more.property)
          (fun e => Expression.restriction p q (some n) (.expression e)) (inner more.val)
      else .ok (.restriction p q (some n) .none, more) := by
  cases q with
  | exactly | min | max => simp only [restriction, h]
  | some | only | value => cases hq

theorem takes_counted (hq : q.counts = true) :
    Takes (restriction stop inner p q) ts e rest ↔
      ∃ n more, Takes (cardinality stop) ts n more ∧
        ((startsOperand more = true ∧
            ∃ o, Takes inner more o rest ∧ e = .restriction p q (some n) (.expression o)) ∨
          (startsOperand more = false ∧ rest = more ∧ e = .restriction p q (some n) .none)) := by
  constructor
  · intro taken
    have ⟨hr, eq⟩ := taken
    cases hc : cardinality stop ts with
    | error error =>
      have failed : restriction stop inner p q ts = .error error := by
        cases q with
        | exactly | min | max => simp only [restriction, hc]
        | some | only | value => cases hq
      exact absurd taken (not_takes failed)
    | ok r =>
      obtain ⟨n, more⟩ := r
      have unfolded := restriction_counted inner p hq hc
      refine ⟨n, more.val, ⟨more.property, hc⟩, ?_⟩
      by_cases starts : startsOperand more.val = true
      · rw [if_pos starts] at unfolded
        exact .inl ⟨starts, (takes_lift unfolded).1 taken⟩
      · rw [if_neg starts] at unfolded
        rw [unfolded] at eq
        cases eq
        exact .inr ⟨by simpa using starts, rfl, rfl⟩
  · rintro ⟨n, more, ⟨hm, hc⟩, ⟨starts, taken⟩ | ⟨starts, rfl, rfl⟩⟩
    · exact (takes_lift ((restriction_counted inner p hq hc).trans (if_pos starts))).2 taken
    · exact ⟨hm, (restriction_counted inner p hq hc).trans (if_neg (by rw [starts]; nofun))⟩

theorem takes_not {pos : Nat} : Takes (operandOver stop inner) (⟨.keyword .not, pos⟩ :: ts) e rest ↔
    ∃ o, Takes inner ts o rest ∧ e = .complement o :=
  takes_lift rfl

theorem takes_parens {pos : Nat} : Takes (operandOver stop inner) (⟨.leftParen, pos⟩ :: ts) e rest ↔
    ∃ pos', Takes (expression inner) ts e (⟨.rightParen, pos'⟩ :: rest) := by
  constructor
  · rintro ⟨hr, eq⟩
    unfold operandOver at eq
    dsimp only at eq
    cases hinner : expression inner ts with
    | error error => rw [hinner] at eq; cases eq
    | ok r =>
      obtain ⟨o, more, hmore⟩ := r
      rw [hinner] at eq
      rcases more with _ | ⟨⟨l, pos'⟩, more⟩
      · cases eq
      cases l with
      | rightParen =>
        cases eq
        exact ⟨pos', hmore, hinner⟩
      | _ => cases eq
  · rintro ⟨pos', h, hinner⟩
    refine ⟨by simp at h ⊢; omega, ?_⟩
    unfold operandOver
    dsimp only
    rw [hinner]

/-- A property is followed by a restriction, a term alone is not. -/
theorem takes_termFirst {pos : Nat} {t : TermReference} :
    Takes (operandOver stop inner) (⟨.term t, pos⟩ :: ts) e rest ↔
      (nextQuantifier? ts = none ∧ rest = ts ∧ e = .term t) ∨
      ∃ q pos' more, ts = ⟨.keyword q.keyword, pos'⟩ :: more ∧
        Takes (restriction stop inner ⟨t, false⟩ q) more e rest := by
  cases hq : nextQuantifier? ts with
  | none =>
    have eq : operandOver stop inner (⟨.term t, pos⟩ :: ts) = .ok (.term t, ⟨ts, by simp⟩) := by
      simp only [operandOver, hq]
    constructor
    · rintro ⟨hr, h⟩
      rw [eq] at h
      cases h
      exact .inl ⟨rfl, rfl, rfl⟩
    · rintro (⟨-, rfl, rfl⟩ | ⟨q, pos', more, rfl, -⟩)
      · exact ⟨_, eq⟩
      · rw [nextQuantifier?_eq_some.2 ⟨pos', more, rfl⟩] at hq
        cases hq
  | some q =>
    obtain ⟨pos', more, rfl⟩ := nextQuantifier?_eq_some.1 hq
    have eq : operandOver stop inner (⟨.term t, pos⟩ :: ⟨.keyword q.keyword, pos'⟩ :: more) =
        lift (by simp; omega) id (restriction stop inner ⟨t, false⟩ q more) := by
      simp only [operandOver, hq, List.tail_cons]
    rw [takes_lift eq]
    constructor
    · rintro ⟨o, taken, rfl⟩
      exact .inr ⟨q, pos', more, rfl, taken⟩
    · rintro (⟨h, -⟩ | ⟨q', pos'', more', h, taken⟩)
      · cases h
      · obtain ⟨hk, rfl⟩ := List.cons.inj h
        obtain rfl : q = q' := Quantifier.keyword_inj (Lexeme.keyword.inj (Token.mk.inj hk).1)
        exact ⟨e, taken, rfl⟩

theorem takes_inverse {pos : Nat} :
    Takes (operandOver stop inner) (⟨.keyword .inverse, pos⟩ :: ts) e rest ↔
      ∃ t pos' q pos'' more, ts = ⟨.term t, pos'⟩ :: ⟨.keyword q.keyword, pos''⟩ :: more ∧
        Takes (restriction stop inner ⟨t, true⟩ q) more e rest := by
  have unquantified (t : TermReference) (pos' : Nat) (more : List Token)
      (none : nextQuantifier? more = none) :
      operandOver stop inner (⟨.keyword .inverse, pos⟩ :: ⟨.term t, pos'⟩ :: more) =
        .error ⟨next stop more, .expectedRestriction⟩ := by
    unfold operandOver
    dsimp only [term]
    rw [none]
  have quantified (t : TermReference) (pos' : Nat) (q : Quantifier) (pos'' : Nat)
      (more : List Token) : operandOver stop inner (⟨.keyword .inverse, pos⟩ :: ⟨.term t, pos'⟩ ::
          ⟨.keyword q.keyword, pos''⟩ :: more) =
        lift (by simp; omega) id (restriction stop inner ⟨t, true⟩ q more) := by
    unfold operandOver
    dsimp only [term]
    rw [nextQuantifier?_eq_some.2 ⟨pos'', more, rfl⟩]
    rfl
  constructor
  · intro taken
    rcases ts with _ | ⟨⟨l, pos'⟩, more⟩
    · exact absurd taken (not_takes rfl)
    cases l with
    | term t =>
      cases hq : nextQuantifier? more with
      | none => exact absurd taken (not_takes (unquantified t pos' more hq))
      | some q =>
        obtain ⟨pos'', last, rfl⟩ := nextQuantifier?_eq_some.1 hq
        obtain ⟨o, taken, rfl⟩ := (takes_lift (quantified t pos' q pos'' last)).1 taken
        exact ⟨t, pos', q, pos'', last, rfl, taken⟩
    | _ => exact absurd taken (not_takes rfl)
  · rintro ⟨t, pos', q, pos'', more, rfl, taken⟩
    exact (takes_lift (quantified t pos' q pos'' more)).2 ⟨e, taken, rfl⟩

end Restriction

/-! ### Whatever is taken has a derivation -/

/-- A chain gives the tree that its derivation stands for. -/
theorem flatten_eq {node : List Expression → Expression} {es : List Expression}
    (joins : Joins node es e) : flatten node es = e := by
  cases joins with
  | one => rfl
  | several several =>
    rcases es with _ | ⟨e, _ | ⟨e', es⟩⟩
    · rfl
    · cases several with
      | step none => cases none
    · rfl

/-- Of tokens from a lexer, the parser takes nothing but operands of a level below `d`. -/
def TakesBelow (inner : Parser Expression) (d : Nat) : Prop :=
  ∀ ⦃ts : List Token⦄ ⦃e : Expression⦄ ⦃rest : List Token⦄, AreWritten (lexemes ts) →
    Takes inner ts e rest →
      ∃ k, d = k + 1 ∧ ∃ o : Operand k, o.tree = e ∧ lexemes ts = o.lexemes ++ lexemes rest

/-- Where an item has a derivation, a chain of them is a list of derivations. -/
theorem chain_induction {separator : Keyword} {item : Parser α} {motive : List Token → List α →
    List Token → Prop}
    (last : ∀ {ts x rest}, Takes item ts x rest → motive ts [x] rest)
    (link : ∀ {ts x pos more xs rest}, Takes item ts x (⟨.keyword separator, pos⟩ :: more) →
      motive more xs rest → motive ts (x :: xs) rest)
    {xs : List α} (h : Takes (chain separator item) ts xs rest) : motive ts xs rest := by
  induction hn : ts.length using Nat.strongRecOn generalizing ts xs with
  | ind n ih =>
    obtain ⟨x, more, taken, ⟨pos, tail, ys, rfl, rfl, hmore⟩ | ⟨-, rfl, rfl⟩⟩ := takes_chain.1 h
    · have shorter : tail.length < n := by
        obtain ⟨hlength, -⟩ := taken
        rw [List.length_cons] at hlength
        omega
      exact link taken (ih _ shorter hmore rfl)
    · exact last taken

/-- What is left after a link of a chain comes from a lexer as well. -/
theorem areWritten_link {l : Lexeme} {pos : Nat} {ls : List Lexeme}
    (h : lexemes ts = ls ++ lexemes (⟨l, pos⟩ :: rest)) (written : AreWritten (lexemes ts)) :
    AreWritten (lexemes rest) := by
  rw [h] at written
  exact (areWritten_cons.1 (areWritten_append.1 written).2).2

theorem exists_conjunction {item : Parser Expression} {es : List Expression}
    (hitem : ∀ {ts e rest}, AreWritten (lexemes ts) → Takes item ts e rest →
      ∃ o : Operand d, o.tree = e ∧ lexemes ts = o.lexemes ++ lexemes rest)
    (written : AreWritten (lexemes ts)) (h : Takes (chain .and item) ts es rest) :
    ∃ c : Conjunction d, c.operands = es ∧ lexemes ts = c.lexemes ++ lexemes rest := by
  refine chain_induction (motive := fun ts es rest => AreWritten (lexemes ts) →
    ∃ c : Conjunction d, c.operands = es ∧ lexemes ts = c.lexemes ++ lexemes rest) ?_ ?_ h written
  · intro ts e rest taken written
    obtain ⟨o, rfl, h⟩ := hitem written taken
    exact ⟨.last o, rfl, h⟩
  · intro ts e pos more es rest taken ih written
    obtain ⟨o, rfl, ho⟩ := hitem written taken
    obtain ⟨c, rfl, h⟩ := ih (areWritten_link ho written)
    refine ⟨.and o c, rfl, ?_⟩
    rw [ho, Conjunction.lexemes, List.append_assoc, List.cons_append, ← h]
    rfl

theorem exists_disjunction {item : Parser Expression}
    (hitem : ∀ {ts e rest}, AreWritten (lexemes ts) → Takes item ts e rest →
      ∃ o : Operand d, o.tree = e ∧ lexemes ts = o.lexemes ++ lexemes rest)
    (written : AreWritten (lexemes ts)) (h : Takes (expression item) ts e rest) :
    ∃ t : Disjunction d, t.tree = e ∧ lexemes ts = t.lexemes ++ lexemes rest := by
  have hconjunction {ts e rest} (written : AreWritten (lexemes ts))
      (taken : Takes (conjunction item) ts e rest) :
      ∃ c : Conjunction d, c.tree = e ∧ lexemes ts = c.lexemes ++ lexemes rest := by
    obtain ⟨es, hes, rfl⟩ := (takes_lift rfl).1 taken
    obtain ⟨c, rfl, hc⟩ := exists_conjunction hitem written hes
    exact ⟨c, (flatten_eq c.joins).symm, hc⟩
  obtain ⟨es, hes, rfl⟩ := (takes_lift rfl).1 h
  suffices ∃ t : Disjunction d, t.operands = es ∧ lexemes ts = t.lexemes ++ lexemes rest by
    obtain ⟨t, rfl, ht⟩ := this
    exact ⟨t, (flatten_eq t.joins).symm, ht⟩
  refine chain_induction (motive := fun ts es rest => AreWritten (lexemes ts) →
    ∃ t : Disjunction d, t.operands = es ∧ lexemes ts = t.lexemes ++ lexemes rest) ?_ ?_ hes written
  · intro ts e rest taken written
    obtain ⟨c, rfl, h⟩ := hconjunction written taken
    exact ⟨.last c, rfl, h⟩
  · intro ts e pos more es rest taken ih written
    obtain ⟨c, rfl, hc⟩ := hconjunction written taken
    obtain ⟨t, rfl, h⟩ := ih (areWritten_link hc written)
    refine ⟨.or c t, rfl, ?_⟩
    rw [hc, Disjunction.lexemes, List.append_assoc, List.cons_append, ← h]
    rfl

theorem TakesBelow.exists_disjunction {inner : Parser Expression} (hinner : TakesBelow inner d)
    (written : AreWritten (lexemes ts)) (h : Takes (expression inner) ts e rest) :
    ∃ k, d = k + 1 ∧ ∃ t : Disjunction k, t.tree = e ∧ lexemes ts = t.lexemes ++ lexemes rest := by
  cases d with
  | zero =>
    obtain ⟨_, conjunctions, -⟩ := (takes_lift rfl).1 h
    obtain ⟨_, _, first, -⟩ := takes_chain.1 conjunctions
    obtain ⟨_, operands, -⟩ := (takes_lift rfl).1 first
    obtain ⟨_, _, taken, -⟩ := takes_chain.1 operands
    obtain ⟨k, hk, -⟩ := hinner written taken
    cases hk
  | succ k =>
    refine ⟨k, rfl, Parser.exists_disjunction (fun written taken => ?_) written h⟩
    obtain ⟨k', hk, ho⟩ := hinner written taken
    cases hk
    exact ho

theorem exists_restriction {inner : Parser Expression} {p : PropertyReference} {q : Quantifier}
    (hinner : TakesBelow inner d) (written : AreWritten (lexemes ts))
    (h : Takes (restriction stop inner p q) ts e rest) :
    ∃ s : Restriction d, s.tree p = e ∧
      .keyword q.keyword :: lexemes ts = s.lexemes ++ lexemes rest := by
  cases hq : q.takesOperand with
  | true =>
    obtain ⟨_, taken, rfl⟩ := (takes_filled hq).1 h
    obtain ⟨k, rfl, o, rfl, ho⟩ := hinner written taken
    exact ⟨.filled q hq o, rfl, by rw [ho]; rfl⟩
  | false =>
    cases hc : q.counts with
    | false =>
      obtain rfl : q = .value := by cases q <;> first | rfl | contradiction
      obtain ⟨v, taken, rfl⟩ := takes_hasValue.1 h
      obtain ⟨ls, hv, hls⟩ := exists_isValue taken
      exact ⟨.value ls v hv, rfl, by rw [hls]; rfl⟩
    | true =>
      obtain ⟨n, more, taken, counted⟩ := (takes_counted hc).1 h
      obtain ⟨digits, pos, rfl, read⟩ := takes_cardinality.1 taken
      obtain ⟨integer, written⟩ := areWritten_cons.1 written
      have hn := isCardinality_iff.2 ⟨integer, read⟩
      rcases counted with ⟨-, _, filler, rfl⟩ | ⟨-, rfl, rfl⟩
      · obtain ⟨k, rfl, o, rfl, ho⟩ := hinner written filler
        exact ⟨.countedFilled q hc digits n hn o, rfl,
          congrArg (fun ls => Lexeme.keyword q.keyword :: Lexeme.integer digits :: ls) ho⟩
      · exact ⟨.counted q hc digits n hn, rfl, rfl⟩

theorem exists_operandOver {inner : Parser Expression} (hinner : TakesBelow inner d)
    (written : AreWritten (lexemes ts)) (h : Takes (operandOver stop inner) ts e rest) :
    ∃ o : Operand d, o.tree = e ∧ lexemes ts = o.lexemes ++ lexemes rest := by
  rcases ts with _ | ⟨⟨l, pos⟩, ts⟩
  · exact absurd h (not_takes rfl)
  have inside := (areWritten_cons.1 written).2
  cases l with
  | leftParen =>
    obtain ⟨pos', taken⟩ := takes_parens.1 h
    obtain ⟨k, rfl, t, rfl, ht⟩ := hinner.exists_disjunction inside taken
    refine ⟨.parens t, rfl, (congrArg (Lexeme.leftParen :: ·) ht).trans ?_⟩
    rw [Operand.lexemes, List.cons_append, List.append_assoc]
    rfl
  | term t =>
    obtain ⟨-, rfl, rfl⟩ | ⟨q, pos', more, rfl, taken⟩ := takes_termFirst.1 h
    · exact ⟨.term t, rfl, rfl⟩
    · obtain ⟨s, rfl, hs⟩ := exists_restriction hinner (areWritten_cons.1 inside).2 taken
      exact ⟨.restriction ⟨t, false⟩ s, rfl, congrArg (Lexeme.term t :: ·) hs⟩
  | keyword k =>
    cases k with
    | not =>
      obtain ⟨_, taken, rfl⟩ := takes_not.1 h
      obtain ⟨k, rfl, o, rfl, ho⟩ := hinner inside taken
      exact ⟨.not o, rfl, congrArg (Lexeme.keyword .not :: ·) ho⟩
    | inverse =>
      obtain ⟨t, pos', q, pos'', more, rfl, taken⟩ := takes_inverse.1 h
      have filling := (areWritten_cons.1 (areWritten_cons.1 inside).2).2
      obtain ⟨s, rfl, hs⟩ := exists_restriction hinner filling taken
      exact ⟨.restriction ⟨t, true⟩ s, rfl,
        congrArg (fun ls => Lexeme.keyword .inverse :: Lexeme.term t :: ls) hs⟩
    | _ => exact absurd h (not_takes rfl)
  | _ => exact absurd h (not_takes rfl)

/-- What is taken at a level has a derivation of that level, and below there is nothing. -/
theorem takesBelow_operand (stop limit d : Nat) : TakesBelow (operand stop limit d) d := by
  induction d with
  | zero => exact fun _ _ _ _ taken => absurd taken (not_takes rfl)
  | succ d ih => exact fun _ _ _ written taken => ⟨d, rfl, exists_operandOver ih written taken⟩

/-! ### Whatever has a derivation is taken -/

theorem takes_chain_last {separator : Keyword} {item : Parser α} {x : α} {more : List Token}
    (h : Takes item ts x more) (after : ∀ ls, lexemes more ≠ .keyword separator :: ls) :
    Takes (chain separator item) ts [x] more := by
  refine takes_chain.2 ⟨x, more, h, .inr ⟨?_, rfl, rfl⟩⟩
  rintro pos tail rfl
  exact after _ rfl

theorem takes_chain_link {separator : Keyword} {item : Parser α} {x : α} {xs : List α} {pos : Nat}
    {more : List Token} (h : Takes item ts x (⟨.keyword separator, pos⟩ :: more))
    (hmore : Takes (chain separator item) more xs rest) :
    Takes (chain separator item) ts (x :: xs) rest :=
  takes_chain.2 ⟨x, _, h, .inl ⟨pos, more, xs, rfl, rfl, hmore⟩⟩

theorem AfterOperand.startsOperand_eq {ts : List Token} (h : AfterOperand (lexemes ts)) :
    startsOperand ts = false := by
  rw [Bool.eq_false_iff, ne_eq, startsOperand_iff]
  rintro ⟨l, more, hl, starts⟩
  rw [hl] at h
  exact h.not_starts starts

theorem AfterOperand.nextQuantifier?_eq {ts : List Token} (h : AfterOperand (lexemes ts)) :
    nextQuantifier? ts = none := by
  rw [Option.eq_none_iff_forall_ne_some]
  intro q hq
  obtain ⟨pos, more, rfl⟩ := nextQuantifier?_eq_some.1 hq
  exact h.ne_quantifier q rfl

-- By induction on the derivation. The tokens are taken apart as the lexemes of the derivation
-- are put together, and what stands after it keeps each parser from going on.
mutual

theorem Disjunction.takes {d : Nat} (t : Disjunction d) (stop limit : Nat) {ts : List Token}
    {r : List Lexeme} (h : lexemes ts = t.lexemes ++ r) (hr : AfterDisjunction r) :
    ∃ rest, lexemes rest = r ∧
      Takes (chain .or (conjunction (operand stop limit (d + 1)))) ts t.operands rest := by
  cases t with
  | last c =>
    obtain ⟨rest, rfl, taken⟩ := Conjunction.takes c stop limit h hr.afterConjunction
    have last : Takes (conjunction (operand stop limit (d + 1))) ts c.tree rest :=
      (takes_lift rfl).2 ⟨_, taken, (flatten_eq c.joins).symm⟩
    exact ⟨rest, rfl, takes_chain_last last fun _ => hr.ne_or⟩
  | or c more =>
    rw [Disjunction.lexemes, List.append_assoc] at h
    obtain ⟨middle, hmiddle, first⟩ := Conjunction.takes c stop limit h afterConjunction_or
    obtain ⟨pos, tail, rfl, htail⟩ := exists_token hmiddle
    obtain ⟨rest, rfl, taken⟩ := Disjunction.takes more stop limit htail hr
    have link : Takes (conjunction (operand stop limit (d + 1))) ts c.tree (⟨.keyword .or, pos⟩ ::
        tail) := (takes_lift rfl).2 ⟨_, first, (flatten_eq c.joins).symm⟩
    exact ⟨rest, rfl, takes_chain_link link taken⟩

theorem Conjunction.takes {d : Nat} (c : Conjunction d) (stop limit : Nat) {ts : List Token}
    {r : List Lexeme} (h : lexemes ts = c.lexemes ++ r) (hr : AfterConjunction r) :
    ∃ rest, lexemes rest = r ∧
      Takes (chain .and (operand stop limit (d + 1))) ts c.operands rest := by
  cases c with
  | last o =>
    obtain ⟨rest, rfl, taken⟩ := Operand.takes o stop limit h hr.afterOperand
    exact ⟨rest, rfl, takes_chain_last taken fun _ => hr.ne_and⟩
  | and o more =>
    rw [Conjunction.lexemes, List.append_assoc] at h
    obtain ⟨middle, hmiddle, first⟩ := Operand.takes o stop limit h afterOperand_and
    obtain ⟨pos, tail, rfl, htail⟩ := exists_token hmiddle
    obtain ⟨rest, rfl, taken⟩ := Conjunction.takes more stop limit htail hr
    exact ⟨rest, rfl, takes_chain_link first taken⟩

theorem Operand.takes {d : Nat} (o : Operand d) (stop limit : Nat) {ts : List Token}
    {r : List Lexeme} (h : lexemes ts = o.lexemes ++ r) (hr : AfterOperand r) :
    ∃ rest, lexemes rest = r ∧ Takes (operand stop limit (d + 1)) ts o.tree rest := by
  cases o with
  | not o =>
    obtain ⟨pos, more, rfl, hmore⟩ := exists_token h
    obtain ⟨rest, rfl, taken⟩ := Operand.takes o stop limit hmore hr
    exact ⟨rest, rfl, takes_not.2 ⟨_, taken, rfl⟩⟩
  | parens t =>
    obtain ⟨pos, more, rfl, hmore⟩ := exists_token h
    obtain ⟨middle, hmiddle, taken⟩ := Disjunction.takes t stop limit
      (hmore.trans (List.append_assoc _ _ _)) afterDisjunction_rightParen
    obtain ⟨pos', rest, rfl, rfl⟩ := exists_token hmiddle
    exact ⟨rest, rfl, takes_parens.2
      ⟨pos', (takes_lift rfl).2 ⟨_, taken, (flatten_eq t.joins).symm⟩⟩⟩
  | term t =>
    obtain ⟨pos, rest, rfl, rfl⟩ := exists_token h
    exact ⟨rest, rfl, takes_termFirst.2 (.inl ⟨AfterOperand.nextQuantifier?_eq hr, rfl, rfl⟩)⟩
  | restriction p s =>
    obtain ⟨t, inverse⟩ := p
    rw [Operand.lexemes, s.lexemes_eq] at h
    cases inverse with
    | false =>
      obtain ⟨pos, more, rfl, hmore⟩ := exists_token h
      obtain ⟨pos', tail, rfl, htail⟩ := exists_token hmore
      obtain ⟨rest, rfl, taken⟩ := Restriction.takes s stop limit ⟨t, false⟩ htail hr
      exact ⟨rest, rfl, takes_termFirst.2 (.inr ⟨s.quantifier, pos', tail, rfl, taken⟩)⟩
    | true =>
      obtain ⟨pos, more, rfl, hmore⟩ := exists_token h
      obtain ⟨pos', last, rfl, hlast⟩ := exists_token hmore
      obtain ⟨pos'', tail, rfl, htail⟩ := exists_token hlast
      obtain ⟨rest, rfl, taken⟩ := Restriction.takes s stop limit ⟨t, true⟩ htail hr
      exact ⟨rest, rfl, takes_inverse.2 ⟨t, pos', s.quantifier, pos'', tail, rfl, taken⟩⟩

theorem Restriction.takes {d : Nat} (s : Restriction d) (stop limit : Nat) {ts : List Token}
    {r : List Lexeme} (p : PropertyReference) (h : lexemes ts = s.rest ++ r) (hr : AfterOperand r) :
    ∃ rest, lexemes rest = r ∧
      Takes (restriction stop (operand stop limit d) p s.quantifier) ts (s.tree p) rest := by
  cases s with
  | filled q hq o =>
    obtain ⟨rest, rfl, taken⟩ := Operand.takes o stop limit h hr
    exact ⟨rest, rfl, (takes_filled hq).2 ⟨_, taken, rfl⟩⟩
  | value ls v hv =>
    obtain ⟨rest, rfl, taken⟩ := takes_value hv h hr
    exact ⟨rest, rfl, takes_hasValue.2 ⟨v, taken, rfl⟩⟩
  | counted q hc digits n hn =>
    obtain ⟨pos, rest, rfl, rfl⟩ := exists_token h
    have read := (isCardinality_iff.1 hn).2
    exact ⟨rest, rfl, (takes_counted hc).2 ⟨n, rest, takes_cardinality.2 ⟨digits, pos, rfl, read⟩,
      .inr ⟨AfterOperand.startsOperand_eq hr, rfl, rfl⟩⟩⟩
  | countedFilled q hc digits n hn o =>
    obtain ⟨pos, more, rfl, hmore⟩ := exists_token h
    have starts : startsOperand more = true := by
      obtain ⟨l, ls, ho, hl⟩ := o.exists_head
      exact startsOperand_iff.2 ⟨l, ls ++ r, by rw [hmore, ho]; rfl, hl⟩
    obtain ⟨rest, rfl, taken⟩ := Operand.takes o stop limit hmore hr
    have read := (isCardinality_iff.1 hn).2
    exact ⟨rest, rfl, (takes_counted hc).2 ⟨n, more, takes_cardinality.2 ⟨digits, pos, rfl, read⟩,
      .inl ⟨starts, _, taken, rfl⟩⟩⟩

end

/-! ### Whole cells -/

theorem all_eq_ok {p : Nat → Parser α} {cell : String} {a : α} :
    all p cell = .ok a ↔ ∃ ts, tokenize cell = .ok ts ∧ Takes (p cell.length) ts a [] := by
  unfold all
  rw [bind_eq_ok]
  refine exists_congr fun ts => and_congr_right fun _ => ?_
  cases ts with
  | nil => exact iff_of_false nofun fun ⟨h, _⟩ => absurd h (Nat.not_lt_zero _)
  | cons t ts =>
    change (p cell.length (t :: ts) >>= _) = _ ↔ _
    rw [bind_eq_ok]
    constructor
    · rintro ⟨⟨b, rest, hrest⟩, taken, ending⟩
      cases rest with
      | nil =>
        cases ending
        exact ⟨hrest, taken⟩
      | cons t' rest =>
        obtain ⟨l, pos⟩ := t'
        cases l <;> cases ending
    · rintro ⟨h, taken⟩
      exact ⟨_, taken, rfl⟩

end Parser

open Grammar

/-- A cell is read as the trees of the derivations of its tokens. -/
theorem parseExpression_eq_ok {limit : Nat} {cell : String} {e : Expression} :
    parseExpression limit cell = .ok e ↔ ∃ ts, tokenize cell = .ok ts ∧
      ∃ t : Disjunction limit, t.lexemes = lexemes ts ∧ t.tree = e := by
  refine Parser.all_eq_ok.trans (exists_congr fun ts => and_congr_right fun read => ?_)
  constructor
  · intro taken
    have below := Parser.takesBelow_operand cell.length limit (limit + 1)
    have written : AreWritten (lexemes ts) := List.forall_mem_map.2 (isWritten_of_scan read)
    obtain ⟨k, hk, t, ht, hts⟩ := below.exists_disjunction written taken
    cases hk
    exact ⟨t, by rw [hts]; exact (List.append_nil _).symm, ht⟩
  · rintro ⟨t, ht, rfl⟩
    obtain ⟨rest, hrest, taken⟩ := Parser.Disjunction.takes t cell.length limit
      (ht.symm.trans (List.append_nil _).symm) afterDisjunction_nil
    obtain rfl : rest = [] := List.map_eq_nil_iff.1 hrest
    exact (Parser.takes_lift rfl).2 ⟨_, taken, (Parser.flatten_eq t.joins).symm⟩

namespace Parser

variable {ts rest : List Token} {stop : Nat} {negated : Bool} {f : Fact}

theorem takes_assertion : Takes (assertion stop negated) ts f rest ↔
    ∃ t pos more v, ts = ⟨.term t, pos⟩ :: more ∧ Takes (value stop) more v rest ∧
      f = ⟨negated, t, v⟩ := by
  constructor
  · intro taken
    rcases ts with _ | ⟨⟨l, pos⟩, more⟩
    · exact absurd taken (not_takes rfl)
    cases l with
    | term t =>
      obtain ⟨v, hv, rfl⟩ :=
        (takes_lift (p := value stop) (f := fun v => ⟨negated, t, v⟩) rfl).1 taken
      exact ⟨t, pos, more, v, rfl, hv, rfl⟩
    | _ => exact absurd taken (not_takes rfl)
  · rintro ⟨t, pos, more, v, rfl, hv, rfl⟩
    exact (takes_lift (p := value stop) (f := fun v => ⟨negated, t, v⟩) rfl).2 ⟨v, hv, rfl⟩

/-- The lexemes before the value of a fact. -/
def factHead (f : Fact) : List Lexeme :=
  if f.negated then [.keyword .not, .term f.property] else [.term f.property]

theorem exists_fact (h : Takes (fact stop) ts f rest) :
    ∃ ls, IsValue ls f.value ∧ lexemes ts = factHead f ++ (ls ++ lexemes rest) := by
  have ⟨hr, eq⟩ := h
  unfold fact at eq
  split at eq
  · obtain ⟨_, taken, rfl⟩ := (takes_lift rfl).1 h
    obtain ⟨t, pos, more, v, rfl, hv, rfl⟩ := takes_assertion.1 taken
    obtain ⟨ls, hls, hmore⟩ := exists_isValue hv
    exact ⟨ls, hls, congrArg (fun ls => Lexeme.keyword .not :: Lexeme.term t :: ls) hmore⟩
  · obtain ⟨t, pos, more, v, rfl, hv, rfl⟩ := takes_assertion.1 ⟨hr, eq⟩
    obtain ⟨ls, hls, hmore⟩ := exists_isValue hv
    exact ⟨ls, hls, congrArg (Lexeme.term t :: ·) hmore⟩

theorem takes_fact {ls r : List Lexeme} (hv : IsValue ls f.value)
    (h : lexemes ts = factHead f ++ (ls ++ r)) (hr : AfterOperand r) :
    ∃ rest, lexemes rest = r ∧ Takes (fact stop) ts f rest := by
  obtain ⟨negated, t, v⟩ := f
  cases negated with
  | false =>
    obtain ⟨pos, more, rfl, hmore⟩ := exists_token h
    obtain ⟨rest, rfl, taken⟩ := takes_value hv hmore hr
    exact ⟨rest, rfl, takes_assertion.2 ⟨t, pos, more, v, rfl, taken, rfl⟩⟩
  | true =>
    obtain ⟨pos, more, rfl, hmore⟩ := exists_token h
    obtain ⟨pos', last, rfl, hlast⟩ := exists_token hmore
    obtain ⟨rest, rfl, taken⟩ := takes_value hv hlast hr
    exact ⟨rest, rfl, (takes_lift rfl).2
      ⟨_, takes_assertion.2 ⟨t, pos', last, v, rfl, taken, rfl⟩, rfl⟩⟩

end Parser

theorem parseFact_eq_ok {cell : String} {f : Fact} :
    parseFact cell = .ok f ↔ ∃ ts, tokenize cell = .ok ts ∧
      ∃ ls, IsValue ls f.value ∧ lexemes ts = Parser.factHead f ++ ls := by
  refine Parser.all_eq_ok.trans (exists_congr fun ts => and_congr_right fun _ => ?_)
  constructor
  · intro taken
    obtain ⟨ls, hls, h⟩ := Parser.exists_fact taken
    exact ⟨ls, hls, h.trans (congrArg (_ ++ ·) (List.append_nil ls))⟩
  · rintro ⟨ls, hls, h⟩
    obtain ⟨rest, hrest, taken⟩ := Parser.takes_fact hls
      (h.trans (congrArg (_ ++ ·) (List.append_nil ls).symm))
      afterDisjunction_nil.afterConjunction.afterOperand
    obtain rfl : rest = [] := List.map_eq_nil_iff.1 hrest
    exact taken

/-- Reading succeeds just if the tokens of the cell have a derivation of the level that is
allowed; it gives the tree of that derivation, which is the only one. -/
theorem parseExpression_recognizes (limit : Nat) (cell : String) :
    ((∃ e, parseExpression limit cell = .ok e) ↔
      ∃ ts, tokenize cell = .ok ts ∧ ∃ t : Disjunction limit, t.lexemes = lexemes ts) ∧
    (∀ e, parseExpression limit cell = .ok e ↔ ∃ ts, tokenize cell = .ok ts ∧
      ∃ t : Disjunction limit, t.lexemes = lexemes ts ∧ t.tree = e) ∧
    Function.Injective (Disjunction.lexemes : Disjunction limit → List Lexeme) := by
  refine ⟨⟨?_, ?_⟩, fun e => parseExpression_eq_ok, fun t t' h => Disjunction.lexemes_inj h⟩
  · rintro ⟨e, h⟩
    obtain ⟨ts, hts, t, ht, -⟩ := parseExpression_eq_ok.1 h
    exact ⟨ts, hts, t, ht⟩
  · rintro ⟨ts, hts, t, ht⟩
    exact ⟨t.tree, parseExpression_eq_ok.2 ⟨ts, hts, t, ht, rfl⟩⟩

end TabularOntology.Cell
