import Mathlib.Data.List.Induction
import Mathlib.Data.String.Basic
import TabularOntology.Proofs.Key.Injective

/-! Canonical operands. Operands are put in one by one, so that their texts strictly increase and
each text is there once. Plain operands with one text are one operand: what is left is the set of
the given operands, and a set has one list in strictly increasing order. -/

namespace TabularOntology

/-! ### Putting in operands -/

/-- The operands in strictly increasing order of their keys. -/
def AreIncreasing {α : Type} (key : α → String) (xs : List α) : Prop :=
  xs.Pairwise fun x y => key x < key y

section
variable {α : Type} {key : α → String} {xs ys : List α} {x y : α}

theorem mem_of_mem_insertOperand (h : y ∈ insertOperand key x ys) : y = x ∨ y ∈ ys := by
  induction ys with
  | nil => exact .inl (List.mem_singleton.1 h)
  | cons z ys ih =>
    rw [insertOperand] at h
    split at h
    · exact List.mem_cons.1 h
    · exact .inr h
    · rcases List.mem_cons.1 h with rfl | h
      · exact .inr List.mem_cons_self
      · exact (ih h).imp_right (List.mem_cons_of_mem z)

theorem subset_insertOperand : ys ⊆ insertOperand key x ys := by
  induction ys with
  | nil => exact List.nil_subset _
  | cons z ys ih =>
    rw [insertOperand]
    split
    · exact List.subset_cons_self x (z :: ys)
    · exact List.Subset.refl _
    · exact List.cons_subset_cons z ih

/-- The operand itself may be missing, but then another one has its key. -/
theorem exists_mem_insertOperand : ∃ y ∈ insertOperand key x ys, key y = key x := by
  induction ys with
  | nil => exact ⟨x, List.mem_singleton.2 rfl, rfl⟩
  | cons z ys ih =>
    rw [insertOperand]
    split
    · exact ⟨x, List.mem_cons_self, rfl⟩
    · next same => exact ⟨z, List.mem_cons_self, (Std.LawfulEqOrd.eq_of_compare same).symm⟩
    · obtain ⟨y, hy, same⟩ := ih
      exact ⟨y, List.mem_cons_of_mem z hy, same⟩

theorem AreIncreasing.insertOperand (h : AreIncreasing key ys) :
    AreIncreasing key (insertOperand key x ys) := by
  induction ys with
  | nil => exact List.pairwise_singleton _ x
  | cons z ys ih =>
    obtain ⟨above, rest⟩ := List.pairwise_cons.1 h
    rw [TabularOntology.insertOperand]
    split
    · next less =>
      have less : key x < key z := compare_lt_iff_lt.1 less
      refine List.pairwise_cons.2 ⟨fun y hy => ?_, h⟩
      rcases List.mem_cons.1 hy with rfl | hy
      · exact less
      · exact less.trans (above y hy)
    · exact h
    · next greater =>
      refine List.pairwise_cons.2 ⟨fun y hy => ?_, ih rest⟩
      rcases mem_of_mem_insertOperand hy with rfl | hy
      · exact compare_gt_iff_gt.1 greater
      · exact above y hy

theorem canonicalOperands_concat :
    canonicalOperands key (xs ++ [x]) = insertOperand key x (canonicalOperands key xs) := by
  simp [canonicalOperands]

theorem canonicalOperands_subset : canonicalOperands key xs ⊆ xs := by
  induction xs using List.reverseRecOn with
  | nil => exact List.Subset.refl _
  | append_singleton xs x ih =>
    intro y hy
    rw [canonicalOperands_concat] at hy
    rcases mem_of_mem_insertOperand hy with rfl | hy
    · exact List.mem_append_right _ (List.mem_singleton.2 rfl)
    · exact List.mem_append_left _ (ih hy)

theorem exists_mem_canonicalOperands (h : x ∈ xs) :
    ∃ y ∈ canonicalOperands key xs, key y = key x := by
  induction xs using List.reverseRecOn with
  | nil => cases h
  | append_singleton xs z ih =>
    rw [canonicalOperands_concat]
    rcases List.mem_append.1 h with h | h
    · obtain ⟨y, hy, same⟩ := ih h
      exact ⟨y, subset_insertOperand hy, same⟩
    · obtain rfl := List.mem_singleton.1 h
      exact exists_mem_insertOperand

theorem areIncreasing_canonicalOperands : AreIncreasing key (canonicalOperands key xs) := by
  induction xs using List.reverseRecOn with
  | nil => exact List.Pairwise.nil
  | append_singleton xs x ih =>
    rw [canonicalOperands_concat]
    exact ih.insertOperand

theorem all_canonicalOperands {p : α → Bool} (h : xs.all p) :
    (canonicalOperands key xs).all p := by
  rw [List.all_eq_true] at h ⊢
  exact fun x hx => h x (canonicalOperands_subset hx)

/-! ### Sets of operands -/

theorem AreIncreasing.nodup (h : AreIncreasing key xs) : xs.Nodup := by
  refine List.Pairwise.imp (fun {x y} less => ?_) h
  rintro rfl
  exact lt_irrefl _ less

/-- Two increasing lists of the same operands are one list. -/
theorem AreIncreasing.eq_of_mem_iff (hx : AreIncreasing key xs) (hy : AreIncreasing key ys)
    (same : ∀ z, z ∈ xs ↔ z ∈ ys) : xs = ys := by
  have perm : xs.Perm ys := (List.perm_ext_iff_of_nodup hx.nodup hy.nodup).2 same
  exact perm.eq_of_pairwise (fun _ _ _ _ less greater => absurd greater less.asymm) hx hy

/-- The list for the set of some operands: each of them once, with increasing keys. -/
structure IsCanonical (key : α → String) (given operands : List α) : Prop where
  mem_iff : ∀ x, x ∈ operands ↔ x ∈ given
  nodup : operands.Nodup
  increasing : AreIncreasing key operands

theorem isCanonical_canonicalOperands (apart : ∀ x ∈ xs, ∀ y ∈ xs, key x = key y → x = y) :
    IsCanonical key xs (canonicalOperands key xs) := by
  have increasing : AreIncreasing key (canonicalOperands key xs) := areIncreasing_canonicalOperands
  refine ⟨fun x => ⟨fun hx => canonicalOperands_subset hx, fun hx => ?_⟩, increasing.nodup,
    increasing⟩
  obtain ⟨y, hy, same⟩ : ∃ y ∈ canonicalOperands key xs, key y = key x :=
    exists_mem_canonicalOperands hx
  exact apart y (canonicalOperands_subset hy) x hx same ▸ hy

theorem canonicalOperands_eq_of_mem_iff (apart : ∀ x ∈ xs, ∀ y ∈ xs, key x = key y → x = y)
    (same : ∀ z, z ∈ xs ↔ z ∈ ys) : canonicalOperands key xs = canonicalOperands key ys := by
  have apart' : ∀ x ∈ ys, ∀ y ∈ ys, key x = key y → x = y := fun x hx y hy =>
    apart x ((same x).2 hx) y ((same y).2 hy)
  have canonical := isCanonical_canonicalOperands apart
  have canonical' := isCanonical_canonicalOperands apart'
  refine canonical.increasing.eq_of_mem_iff canonical'.increasing fun z => ?_
  rw [canonical.mem_iff, canonical'.mem_iff, same]

end

/-! ### Axioms over sets of operands -/

theorem ClassExpression.eq_of_text_eq {c d : ClassExpression} (hc : c.isPlain) (hd : d.isPlain)
    (h : c.text = d.text) : c = d :=
  form_inj.1 ((isReadable hc).text_inj (isReadable hd) h)

namespace Axiom

theorem ofInverseObjectProperties_comm (p q : Iri) :
    ofInverseObjectProperties p q = ofInverseObjectProperties q p := by
  have swapped : compare p q = (compare q p).swap := Std.OrientedOrd.eq_swap
  unfold ofInverseObjectProperties
  rw [swapped]
  cases order : compare q p with
  | lt | gt => rfl
  | eq =>
    obtain rfl : q = p := Std.LawfulEqOrd.eq_of_compare order
    rfl

/-- An axiom over operands is one over the set of them: neither order nor repetition shows, and its
operands are the given ones, each of them once, in strictly increasing order of their texts. Only
class expressions have to be plain for that. -/
theorem ofOperands_canonical {cs ds : List ClassExpression} {ps qs : List Iri}
    (plain : ∀ c ∈ cs, c.isPlain) (classes : ∀ c, c ∈ cs ↔ c ∈ ds)
    (properties : ∀ p, p ∈ ps ↔ p ∈ qs) :
    (ofEquivalentClasses cs = ofEquivalentClasses ds ∧
      ofDisjointClasses cs = ofDisjointClasses ds ∧
      ∃ es, IsCanonical ClassExpression.text cs es ∧
        ofEquivalentClasses cs = .equivalentClasses es ∧
        ofDisjointClasses cs = .disjointClasses es) ∧
    (ofEquivalentObjectProperties ps = ofEquivalentObjectProperties qs ∧
      ofDisjointObjectProperties ps = ofDisjointObjectProperties qs ∧
      ofEquivalentDataProperties ps = ofEquivalentDataProperties qs ∧
      ofDisjointDataProperties ps = ofDisjointDataProperties qs ∧
      ∃ rs, IsCanonical Iri.bracketed ps rs ∧
        ofEquivalentObjectProperties ps = .equivalentObjectProperties rs ∧
        ofDisjointObjectProperties ps = .disjointObjectProperties rs ∧
        ofEquivalentDataProperties ps = .equivalentDataProperties rs ∧
        ofDisjointDataProperties ps = .disjointDataProperties rs) ∧
    ∀ p q, ofInverseObjectProperties p q = ofInverseObjectProperties q p := by
  have apart : ∀ c ∈ cs, ∀ d ∈ cs, c.text = d.text → c = d := fun c hc d hd =>
    ClassExpression.eq_of_text_eq (plain c hc) (plain d hd)
  have apart' : ∀ p ∈ ps, ∀ q ∈ ps, p.bracketed = q.bracketed → p = q := fun p _ q _ =>
    Iri.bracketed_inj.1
  have same := canonicalOperands_eq_of_mem_iff apart classes
  have same' := canonicalOperands_eq_of_mem_iff apart' properties
  have canonical := isCanonical_canonicalOperands apart
  have canonical' := isCanonical_canonicalOperands apart'
  exact ⟨⟨congrArg equivalentClasses same, congrArg disjointClasses same, _, canonical, rfl, rfl⟩,
    ⟨congrArg equivalentObjectProperties same', congrArg disjointObjectProperties same',
      congrArg equivalentDataProperties same', congrArg disjointDataProperties same', _, canonical',
      rfl, rfl, rfl, rfl⟩,
    ofInverseObjectProperties_comm⟩

theorem ofOperands_canonical_nested :
    let node : ClassExpression := .hasValue (.inverse ⟨"urn:p"⟩) (.anonymous "n")
    let tagged : ClassExpression := .complement (.dataHasValue ⟨"urn:d"⟩ (.tagged "> )" "en"))
    (∀ c ∈ [node, tagged, node], c.isPlain) ∧
    ofDisjointClasses [node, tagged, node] = ofDisjointClasses [tagged, node] ∧
    ofEquivalentDataProperties [⟨"urn:q"⟩, ⟨"urn:p"⟩] =
      ofEquivalentDataProperties [⟨"urn:p"⟩, ⟨"urn:q"⟩, ⟨"urn:p"⟩] ∧
    ofInverseObjectProperties ⟨"urn:q"⟩ ⟨"urn:p"⟩ = .inverseObjectProperties ⟨"urn:p"⟩ ⟨"urn:q"⟩ := by
  intro node tagged
  have plain : ∀ c ∈ [node, tagged, node], c.isPlain := by decide
  have classes (c : ClassExpression) : c ∈ [node, tagged, node] ↔ c ∈ [tagged, node] := by
    grind
  have properties (p : Iri) :
      p ∈ [⟨"urn:q"⟩, ⟨"urn:p"⟩] ↔ p ∈ [(⟨"urn:p"⟩ : Iri), ⟨"urn:q"⟩, ⟨"urn:p"⟩] := by
    simp [or_comm]
  obtain ⟨⟨-, disjoint, -⟩, ⟨-, -, equivalent, -⟩, inverse⟩ :=
    ofOperands_canonical plain classes properties
  exact ⟨plain, disjoint, equivalent, inverse ⟨"urn:q"⟩ ⟨"urn:p"⟩⟩

end Axiom

end TabularOntology
