import Mathlib.Data.List.Chain
import TabularOntology.Proofs.Cell.RoundTrip

/-! How deep the trees of cells are. A level of the grammar has at most three nodes above each
other: a chain of `or`, a chain of `and`, and the operand, which is what its own level goes down
from. A negation or a filler uses up a level and is one node, parentheses use up a level and are no
node at all, but let two chains more come in. So a level adds two nodes, the last one three, and
cells that go down by parentheses inside both chains show that no bound below this one holds. -/

namespace TabularOntology.Cell

open Grammar

/-! ### Trees -/

theorem maxDepth_le {es : List Expression} {n : Nat} (h : ∀ e ∈ es, e.depth ≤ n) :
    maxDepth es ≤ n := by
  induction es with
  | nil => exact Nat.zero_le n
  | cons e es ih =>
    obtain ⟨first, rest⟩ := List.forall_mem_cons.1 h
    rw [maxDepth]
    have := ih rest
    omega

/-- A chain is at most one node deeper than its operands. -/
theorem Grammar.Joins.depth_le {node : List Expression → Expression} {es : List Expression}
    {e : Expression} {n : Nat} (joins : Joins node es e)
    (hnode : (node es).depth = 1 + maxDepth es) (h : ∀ e ∈ es, e.depth ≤ n) : e.depth ≤ n + 1 := by
  cases joins with
  | one =>
    have := h e (List.mem_singleton.2 rfl)
    omega
  | several =>
    have := maxDepth_le h
    omega

/-- The expressions that stand directly inside another one. -/
def Expression.parts : Expression → List Expression
  | .intersection es | .union es => es
  | .complement e => [e]
  | .restriction _ _ _ (.expression e) => [e]
  | .restriction _ _ _ _ | .term _ => []

theorem Expression.depth_lt_of_mem_parts {e inner : Expression} (h : inner ∈ e.parts) :
    inner.depth < e.depth := by
  cases e with
  | term => cases h
  | intersection es | union es =>
    have : inner.depth ≤ maxDepth es := depth_le_maxDepth h
    rw [depth]
    omega
  | complement e =>
    obtain rfl := List.mem_singleton.1 h
    rw [depth]
    omega
  | restriction p q n f =>
    cases f with
    | none | value => cases h
    | expression e =>
      obtain rfl := List.mem_singleton.1 h
      rw [depth]
      omega

/-- Going from expressions to parts of them ends within the depth. -/
theorem Expression.length_le_depth {e : Expression} {es : List Expression}
    (h : (e :: es).IsChain fun outer inner => inner ∈ outer.parts) :
    (e :: es).length ≤ e.depth := by
  induction es generalizing e with
  | nil => exact e.depth_pos
  | cons inner es ih =>
    obtain ⟨part, rest⟩ := List.isChain_cons_cons.1 h
    have := ih rest
    have := depth_lt_of_mem_parts part
    simp only [List.length_cons] at *
    omega

/-! ### Derivations -/

namespace Grammar

mutual

theorem Disjunction.depth_le : ∀ {d : Nat} (t : Disjunction d), ∀ e ∈ t.operands,
    e.depth ≤ 2 * d + 2
  | _, .last c => by
    rw [Disjunction.operands, List.forall_mem_singleton]
    exact c.joins.depth_le rfl c.depth_le
  | _, .or c more => by
    rw [Disjunction.operands, List.forall_mem_cons]
    exact ⟨c.joins.depth_le rfl c.depth_le, more.depth_le⟩

theorem Conjunction.depth_le : ∀ {d : Nat} (c : Conjunction d), ∀ e ∈ c.operands,
    e.depth ≤ 2 * d + 1
  | _, .last o => by
    rw [Conjunction.operands, List.forall_mem_singleton]
    exact o.depth_le
  | _, .and o more => by
    rw [Conjunction.operands, List.forall_mem_cons]
    exact ⟨o.depth_le, more.depth_le⟩

theorem Operand.depth_le : ∀ {d : Nat} (o : Operand d), o.tree.depth ≤ 2 * d + 1
  | d + 1, .not o => by
    have := o.depth_le
    rw [Operand.tree, Expression.depth]
    omega
  | d + 1, .parens t => t.joins.depth_le rfl t.depth_le
  | d, .term t => by
    rw [Operand.tree, Expression.depth]
    omega
  | _, .restriction p r => r.depth_le p

theorem Restriction.depth_le : ∀ {d : Nat} (r : Restriction d) (p : PropertyReference),
    (r.tree p).depth ≤ 2 * d + 1
  | d + 1, .filled q _ o, p => by
    have := o.depth_le
    rw [Restriction.tree, Expression.depth]
    omega
  | d, .value _ v _, p => by
    change 1 ≤ 2 * d + 1
    omega
  | d, .counted q _ _ n _, p => by
    change 1 ≤ 2 * d + 1
    omega
  | d + 1, .countedFilled q _ _ n _ o, p => by
    have := o.depth_le
    rw [Restriction.tree, Expression.depth]
    omega

end

end Grammar

/-- A cell is read as a tree of bounded depth, whatever is in the cell. -/
theorem depth_le_of_parseExpression {limit : Nat} {cell : String} {e : Expression}
    (h : parseExpression limit cell = .ok e) : e.depth ≤ 2 * limit + 3 := by
  obtain ⟨ts, -, t, -, rfl⟩ := parseExpression_eq_ok.1 h
  exact t.joins.depth_le rfl t.depth_le

/-! ### Deepest cells -/

/-- Both chains on every level, and parentheses inside the inner one. -/
def deepestCell : Nat → String
  | 0 => "a or a and a"
  | limit + 1 => "a or a and (" ++ deepestCell limit ++ ")"

def leaf {d : Nat} : Operand d := .term (.name "a")

def deepest : (limit : Nat) → Disjunction limit
  | 0 => .or (.last leaf) (.last (.and leaf (.last leaf)))
  | limit + 1 => .or (.last leaf) (.last (.and leaf (.last (.parens (deepest limit)))))

theorem writes_leaf : Writes "a".toList [.term (.name "a")] :=
  writes_name ⟨.of_all (by decide) (by decide) (by decide), nofun, by decide, by decide, by decide⟩

/-- What both chains write in front of the innermost operand. -/
theorem Writes.inner {u : List Char} {ls : List Lexeme} (h : Writes u ls) :
    Writes ("a or a and ".toList ++ u) (.term (.name "a") :: .keyword .or ::
      .term (.name "a") :: .keyword .and :: ls) :=
  writes_leaf.blank ((writes_keyword .or).blank (writes_leaf.blank ((writes_keyword .and).blank h)))

theorem writes_deepestCell (limit : Nat) :
    Writes (deepestCell limit).toList (deepest limit).lexemes := by
  induction limit with
  | zero => exact writes_leaf.inner
  | succ limit ih =>
    refine ih.parens.inner.ofText ?_
    simp [deepestCell]

theorem depth_deepest (limit : Nat) : (deepest limit).tree.depth = 2 * limit + 3 := by
  induction limit with
  | zero => rfl
  | succ limit ih =>
    have step : (deepest (limit + 1)).tree.depth =
        1 + max 1 (max (1 + max 1 (max (deepest limit).tree.depth 0)) 0) := rfl
    rw [step, ih]
    omega

theorem parseExpression_deepestCell (limit : Nat) :
    parseExpression limit (deepestCell limit) = .ok (deepest limit).tree := by
  obtain ⟨ts, hts, lexemes⟩ := (writes_deepestCell limit).isLexed 0
  exact parseExpression_eq_ok.2 ⟨ts, hts, deepest limit, lexemes.symm, rfl⟩

end TabularOntology.Cell
