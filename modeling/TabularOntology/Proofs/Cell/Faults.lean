import TabularOntology.Cell.Parser
import TabularOntology.Proofs.Cell.Positions

/-! Where faults stand. A fault of the lexer stands in the text or right after it. A parser goes
through its tokens from left to right and leaves the last ones, so that its faults stand at one of
them, or at the end of the cell when it has run out of them. A fault of cutting stands at the quote
that opened the section. No fault stands beyond its cell. -/

namespace TabularOntology.Cell

open Text

/-- The fault, if there is one, stands in the cell or right after it. -/
def FaultWithin {α : Type} (cell : String) (result : Except SyntaxError α) : Prop :=
  ∀ e, result = .error e → e.position ≤ cell.length

/-! ### The lexer -/

section
variable {pos start stop : Nat} {c quote : Char} {cs : List Char} {e : SyntaxError}

theorem quoted_fault_le (h : quoted quote start cs = .error e) :
    e.position ≤ start + cs.length := by
  unfold quoted at h
  split at h
  · cases h
  · cases h
    exact Nat.le_add_right _ _
  · cases h
    exact Nat.le_refl _

theorem stringTail_fault (h : stringTail pos cs = .error e) : e.position = pos := by
  unfold stringTail at h
  split at h
  · split at h
    · cases h
      rfl
    · cases h
  · cases h
  · cases h

theorem wordToken_fault_le (h : wordToken pos cs = .error e) : e.position ≤ pos + cs.length := by
  obtain ⟨w, rest, rfl, all, stops⟩ := exists_span isWordChar cs
  obtain ⟨take, drop⟩ := span_append all stops
  unfold wordToken at h
  rw [take, drop] at h
  dsimp only at h
  split at h
  · rcases bind_eq_error.1 h with unclosed | ⟨_, -, h⟩
    · have bound := quoted_fault_le unclosed
      rw [List.length_append, List.length_cons]
      omega
    · cases h
  · split at h
    · cases h
    · cases h
      exact Nat.le_add_right _ _

theorem tokensFrom_fault_le (h : tokensFrom pos c cs = .error e) :
    e.position ≤ pos + (c :: cs).length := by
  rw [List.length_cons]
  unfold tokensFrom at h
  split at h
  · cases h
  split at h
  · cases h
  split at h
  · obtain ⟨text, rest, rfl, all, stops⟩ := exists_span isIriChar cs
    obtain ⟨take, drop⟩ := span_append all stops
    rw [drop, take] at h
    split at h
    · cases h
      exact Nat.le_add_right _ _
    · dsimp only at h
      split at h
      · cases h
      · cases h
        rw [List.length_append]
        dsimp only
        omega
  split at h
  · rcases bind_eq_error.1 h with unclosed | ⟨_, -, h⟩
    · exact Nat.le_succ_of_le (quoted_fault_le unclosed)
    · cases h
  split at h
  · rcases bind_eq_error.1 h with unclosed | ⟨⟨text, rest⟩, -, h⟩
    · exact Nat.le_succ_of_le (quoted_fault_le unclosed)
    · rcases bind_eq_error.1 h with untagged | ⟨_, -, h⟩
      · have place := stringTail_fault untagged
        omega
      · cases h
  split at h
  · cases h
    exact Nat.le_add_right _ _
  · exact wordToken_fault_le h

theorem scan_fault_le (h : scan pos cs = .error e) : e.position ≤ pos + cs.length := by
  -- By induction on the length of the text, since a piece takes any number of characters.
  induction length : cs.length using Nat.strongRecOn generalizing pos cs with
  | ind n ih =>
    subst length
    cases cs with
    | nil =>
      rw [scan.eq_def] at h
      cases h
    | cons c cs =>
      cases hc : isBlank c with
      | true =>
        rw [scan_blank hc] at h
        have bound := ih cs.length (Nat.lt_succ_self _) h rfl
        rw [List.length_cons]
        omega
      | false =>
        rw [scan_cons hc] at h
        rcases bind_eq_error.1 h with first | ⟨⟨first, rest⟩, read, h⟩
        · exact tokensFrom_fault_le first
        · have shorter := length_of_tokensFrom hc read
          have bound := ih rest.length (Nat.lt_succ_of_le shorter) (map_eq_error.1 h) rfl
          dsimp only at bound
          rw [List.length_cons]
          omega

theorem faultWithin_tokenize (cell : String) : FaultWithin cell (tokenize cell) := by
  intro e h
  have bound := scan_fault_le h
  rwa [Nat.zero_add, String.length_toList] at bound

end

/-! ### The parser -/

namespace Parser

variable {α β : Type} {stop limit : Nat} {ss ts : List Token}

/-- Where one of the tokens stands, or where the cell ends. -/
def IsPlace (stop : Nat) (ts : List Token) (n : Nat) : Prop := n = stop ∨ ∃ t ∈ ts, t.position = n

/-- A parser leaves the last ones of its tokens, and its faults stand at their places. -/
def Stays (stop : Nat) (ts : List Token) : Except SyntaxError (α × Rest ts) → Prop
  | .ok (_, rest) => rest.val <:+ ts
  | .error e => IsPlace stop ts e.position

theorem IsPlace.mono {n : Nat} (h : IsPlace stop ss n) (suffix : ss <:+ ts) : IsPlace stop ts n :=
  h.imp_right fun ⟨t, ht, place⟩ => ⟨t, suffix.subset ht, place⟩

theorem isPlace_stop : IsPlace stop ts stop := .inl rfl

theorem isPlace_head (l : Lexeme) (pos : Nat) (ts : List Token) :
    IsPlace stop (⟨l, pos⟩ :: ts) pos :=
  .inr ⟨⟨l, pos⟩, List.mem_cons_self, rfl⟩

/-- The next token is one of those left, and none is left at `stop`. -/
theorem isPlace_next (ts : List Token) : IsPlace stop ts (next stop ts) := by
  cases ts with
  | nil => exact isPlace_stop
  | cons t ts => exact isPlace_head _ _ ts

theorem stays_lift (h : ss.length ≤ ts.length) (f : α → β) (suffix : ss <:+ ts)
    {result : Except SyntaxError (α × Rest ss)} (stays : Stays stop ss result) :
    Stays stop ts (lift h f result) := by
  cases result with
  | error e => exact IsPlace.mono stays suffix
  | ok r => exact stays.trans suffix

theorem stays_term (what : Expected) (ts : List Token) : Stays stop ts (term stop what ts) := by
  unfold term
  split
  · exact isPlace_stop
  · exact List.suffix_cons _ _
  · exact isPlace_head _ _ _

theorem stays_value (ts : List Token) : Stays stop ts (value stop ts) := by
  unfold value
  split
  · exact isPlace_stop
  · exact (List.suffix_cons _ _).trans (List.suffix_cons _ _)
  · exact stays_lift _ _ ((List.suffix_cons _ _).trans (List.suffix_cons _ _)) (stays_term _ _)
  · exact List.suffix_cons _ _
  · exact List.suffix_cons _ _
  · exact List.suffix_cons _ _
  · exact List.suffix_cons _ _
  · exact isPlace_head _ _ _

theorem stays_cardinality (ts : List Token) : Stays stop ts (cardinality stop ts) := by
  unfold cardinality
  split
  · exact isPlace_stop
  · split
    · exact List.suffix_cons _ _
    · exact isPlace_head _ _ _
  · exact isPlace_head _ _ _
  · exact isPlace_head _ _ _

theorem stays_chain (separator : Keyword) {item : Parser α}
    (hitem : ∀ ts, Stays stop ts (item ts)) (ts : List Token) :
    Stays stop ts (chain separator item ts) := by
  induction length : ts.length using Nat.strongRecOn generalizing ts with
  | ind n ih =>
    subst length
    have first := hitem ts
    rw [chain]
    split
    · next heq => rwa [heq] at first
    · next k pos more shorter heq =>
      rw [heq] at first
      split
      · rw [List.length_cons] at shorter
        exact stays_lift _ _ ((List.suffix_cons _ _).trans first)
          (ih more.length (Nat.lt_of_succ_lt shorter) more rfl)
      · exact first
    · next heq => rwa [heq] at first

theorem stays_expression {operand : Parser Expression}
    (hoperand : ∀ ts, Stays stop ts (operand ts)) (ts : List Token) :
    Stays stop ts (expression operand ts) := by
  have conjunctions (ts : List Token) : Stays stop ts (conjunction operand ts) :=
    stays_lift _ _ (List.suffix_refl _) (stays_chain .and hoperand ts)
  exact stays_lift _ _ (List.suffix_refl _) (stays_chain .or conjunctions ts)

theorem stays_restriction {inner : Parser Expression} (hinner : ∀ ts, Stays stop ts (inner ts))
    (p : PropertyReference) (q : Quantifier) (ts : List Token) :
    Stays stop ts (restriction stop inner p q ts) := by
  cases q with
  | some | only => exact stays_lift _ _ (List.suffix_refl _) (hinner ts)
  | value => exact stays_lift _ _ (List.suffix_refl _) (stays_value ts)
  | exactly | min | max =>
    have counted : Stays stop ts (cardinality stop ts) := stays_cardinality ts
    unfold restriction
    dsimp only
    split
    · next heq => rwa [heq] at counted
    · next heq =>
      rw [heq] at counted
      split
      · exact stays_lift _ _ counted (hinner _)
      · exact counted

theorem stays_parens {inner : Parser Expression} (hinner : ∀ ts, Stays stop ts (inner ts))
    (pos : Nat) (ts : List Token) :
    Stays stop (⟨.leftParen, pos⟩ :: ts) (operandOver stop inner (⟨.leftParen, pos⟩ :: ts)) := by
  have inside := stays_expression hinner ts
  unfold operandOver
  dsimp only
  cases read : expression inner ts with
  | error e =>
    rw [read] at inside
    exact IsPlace.mono inside (List.suffix_cons _ _)
  | ok r =>
    obtain ⟨e, more, shorter⟩ := r
    rw [read] at inside
    have left : more <:+ ⟨.leftParen, pos⟩ :: ts := inside.trans (List.suffix_cons _ _)
    rcases more with _ | ⟨⟨l, pos'⟩, more⟩
    · exact isPlace_head _ _ _
    cases l with
    | rightParen => exact (List.suffix_cons _ _).trans left
    | _ => exact (isPlace_head _ _ _).mono left

theorem stays_inverse {inner : Parser Expression} (hinner : ∀ ts, Stays stop ts (inner ts))
    (pos : Nat) (ts : List Token) : Stays stop (⟨.keyword .inverse, pos⟩ :: ts)
      (operandOver stop inner (⟨.keyword .inverse, pos⟩ :: ts)) := by
  have property : Stays stop ts (term stop .propertyAfterInverse ts) := stays_term _ ts
  unfold operandOver
  dsimp only
  split
  · next heq =>
    rw [heq] at property
    exact IsPlace.mono property (List.suffix_cons _ _)
  · next heq =>
    rw [heq] at property
    have left := property.trans (List.suffix_cons ⟨.keyword .inverse, pos⟩ ts)
    split
    · exact (isPlace_next _).mono left
    · exact stays_lift _ _ ((List.tail_suffix _).trans left) (stays_restriction hinner _ _ _)

theorem stays_operandOver {inner : Parser Expression} (hinner : ∀ ts, Stays stop ts (inner ts))
    (ts : List Token) : Stays stop ts (operandOver stop inner ts) := by
  rcases ts with _ | ⟨⟨l, pos⟩, ts⟩
  · exact isPlace_stop
  cases l with
  | leftParen => exact stays_parens hinner pos ts
  | term t =>
    unfold operandOver
    dsimp only
    split
    · exact List.suffix_cons _ _
    · exact stays_lift _ _ ((List.tail_suffix _).trans (List.suffix_cons _ _))
        (stays_restriction hinner _ _ _)
  | keyword k =>
    cases k with
    | not => exact stays_lift _ _ (List.suffix_cons _ _) (hinner ts)
    | inverse => exact stays_inverse hinner pos ts
    | _ => exact isPlace_head _ _ _
  | _ => exact isPlace_head _ _ _

theorem stays_operand (limit levels : Nat) (ts : List Token) :
    Stays stop ts (operand stop limit levels ts) := by
  induction levels generalizing ts with
  | zero => exact isPlace_next ts
  | succ levels ih => exact stays_operandOver ih ts

theorem stays_assertion (negated : Bool) (ts : List Token) :
    Stays stop ts (assertion stop negated ts) := by
  have property : Stays stop ts (term stop .property ts) := stays_term _ ts
  unfold assertion
  split
  · next heq => rwa [heq] at property
  · next heq =>
    rw [heq] at property
    exact stays_lift _ _ property (stays_value _)

theorem stays_fact (ts : List Token) : Stays stop ts (fact stop ts) := by
  unfold fact
  split
  · exact stays_lift _ _ (List.suffix_cons _ _) (stays_assertion true _)
  · exact stays_assertion false _

theorem faultWithin_all {p : Nat → Parser α} (hp : ∀ stop ts, Stays stop ts (p stop ts))
    (cell : String) : FaultWithin cell (all p cell) := by
  intro e h
  unfold all at h
  rcases bind_eq_error.1 h with unread | ⟨ts, read, h⟩
  · exact faultWithin_tokenize cell e unread
  have within {n : Nat} (place : IsPlace cell.length ts n) : n ≤ cell.length := by
    rcases place with rfl | ⟨t, ht, rfl⟩
    · exact Nat.le_refl _
    · have bound := ((standWithin_tokenize read).bounds t ht).2
      rw [String.length_toList] at bound
      exact Nat.le_of_lt bound
  cases ts with
  | nil =>
    cases h
    exact Nat.zero_le _
  | cons t ts =>
    have stays := hp cell.length (t :: ts)
    change (p cell.length (t :: ts) >>= _) = _ at h
    rcases bind_eq_error.1 h with failed | ⟨⟨a, rest, shorter⟩, taken, h⟩
    · rw [failed] at stays
      exact within stays
    · rw [taken] at stays
      rcases rest with _ | ⟨⟨l, pos⟩, rest⟩
      · cases h
      · have place : e.position = pos := by cases l <;> cases h <;> rfl
        rw [place]
        exact within ((isPlace_head l pos rest).mono stays)

end Parser

theorem faultWithin_parseExpression (limit : Nat) (cell : String) :
    FaultWithin cell (parseExpression limit cell) :=
  Parser.faultWithin_all (fun _ => Parser.stays_expression (Parser.stays_operand limit _)) cell

theorem faultWithin_parseTerm (cell : String) : FaultWithin cell (parseTerm cell) :=
  Parser.faultWithin_all (fun _ => Parser.stays_term _) cell

theorem faultWithin_parseFact (cell : String) : FaultWithin cell (parseFact cell) :=
  Parser.faultWithin_all (fun _ => Parser.stays_fact) cell

/-! ### Cutting -/

theorem faultWithin_splitValues (cell : String) : FaultWithin cell (splitValues cell) := by
  intro e h
  obtain ⟨quote, start, inside, rfl⟩ := cutCell_eq_error.1 (map_eq_error.1 h)
  rcases getElem?_of_sectionAfter inside with ⟨k, rfl, found⟩ | before
  · obtain ⟨bound, -⟩ := List.getElem?_eq_some_iff.1 found
    rw [String.length_toList] at bound
    rw [Nat.zero_add]
    exact Nat.le_of_lt bound
  · cases before

end TabularOntology.Cell
