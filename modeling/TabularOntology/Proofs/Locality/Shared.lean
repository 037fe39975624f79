import TabularOntology.Locality

/-! What locality looks at. The rules ask of a signature only which of the symbols of
an expression it has, and the fewer it has the more is empty, full and local. Both are
said at once: a signature that shares no further symbol with an axiom makes it local
again. Emptiness and fullness go together, since complements exchange them. -/

namespace TabularOntology

variable {s t : Signature}

namespace ClassExpression

theorem isBottom_and_isTop_mono {c : ClassExpression} (h : ∀ x ∈ c.iris, x ∈ s → x ∈ t) :
    (c.isBottom t → c.isBottom s) ∧ (c.isTop t → c.isTop s) := by
  induction c with
  | named x =>
    have hx : x ∈ s → x ∈ t := h x (by simp [iris])
    simp only [isBottom_named, isTop_named]
    exact ⟨Or.imp_right (And.imp_right (mt hx)), id⟩
  | intersection cs ih =>
    have ih : ∀ c ∈ cs, (c.isBottom t → c.isBottom s) ∧ (c.isTop t → c.isTop s) := fun c hc =>
      ih c hc fun x hx => h x (by simpa [iris] using ⟨c, hc, hx⟩)
    simp only [isBottom_intersection, isTop_intersection]
    exact ⟨Exists.imp fun c hb => ⟨hb.1, (ih c hb.1).1 hb.2⟩,
      fun ht c hc => (ih c hc).2 (ht c hc)⟩
  | union cs ih =>
    have ih : ∀ c ∈ cs, (c.isBottom t → c.isBottom s) ∧ (c.isTop t → c.isTop s) := fun c hc =>
      ih c hc fun x hx => h x (by simpa [iris] using ⟨c, hc, hx⟩)
    simp only [isBottom_union, isTop_union]
    exact ⟨fun hb c hc => (ih c hc).1 (hb c hc),
      Exists.imp fun c ht => ⟨ht.1, (ih c ht.1).2 ht.2⟩⟩
  | complement c ih =>
    simp only [isBottom_complement, isTop_complement]
    exact (ih h).symm
  | some p c ih =>
    have hp : p.iri ∈ s → p.iri ∈ t := h p.iri (by simp [iris])
    have ih := ih fun x hx => h x (by simp [iris, hx])
    simp only [isBottom_some, isTop_some]
    exact ⟨Or.imp (mt hp) ih.1, id⟩
  | only p c ih =>
    have hp : p.iri ∈ s → p.iri ∈ t := h p.iri (by simp [iris])
    have ih := ih fun x hx => h x (by simp [iris, hx])
    simp only [isBottom_only, isTop_only]
    exact ⟨id, Or.imp (mt hp) ih.2⟩
  | hasValue p i =>
    have hp : p.iri ∈ s → p.iri ∈ t := h p.iri (by simp [iris])
    simp only [isBottom_hasValue, isTop_hasValue]
    exact ⟨mt hp, id⟩
  | cardinality b n p filler ih =>
    have hp : p.iri ∈ s → p.iri ∈ t := h p.iri (by simp)
    have few : (p.iri ∉ t ∨ ∃ c ∈ filler, c.isBottom t) →
        p.iri ∉ s ∨ ∃ c ∈ filler, c.isBottom s := by
      rintro (hpt | ⟨c, hc, hb⟩)
      · exact .inl (mt hp hpt)
      · have ih := ih c hc fun x hx => h x (by simp_all)
        exact .inr ⟨c, hc, ih.1 hb⟩
    simp only [isBottom_cardinality, isTop_cardinality]
    exact ⟨And.imp_right (And.imp_right few), Or.imp_right (And.imp_right few)⟩
  | dataSome p d =>
    have hp : p ∈ s → p ∈ t := h p (by simp [iris])
    simp only [isBottom_dataSome, isTop_dataSome]
    exact ⟨mt hp, id⟩
  | dataOnly p d =>
    have hp : p ∈ s → p ∈ t := h p (by simp [iris])
    simp only [isBottom_dataOnly, isTop_dataOnly]
    exact ⟨id, mt hp⟩
  | dataHasValue p l =>
    have hp : p ∈ s → p ∈ t := h p (by simp [iris])
    simp only [isBottom_dataHasValue, isTop_dataHasValue]
    exact ⟨mt hp, id⟩
  | dataCardinality b n p filler =>
    have hp : p ∈ s → p ∈ t := h p (by simp)
    simp only [isBottom_dataCardinality, isTop_dataCardinality]
    exact ⟨And.imp_right (And.imp_right (mt hp)), Or.imp_right (And.imp_right (mt hp))⟩

theorem isBottom_mono {c : ClassExpression} (h : ∀ x ∈ c.iris, x ∈ s → x ∈ t)
    (hb : c.isBottom t) : c.isBottom s :=
  (isBottom_and_isTop_mono h).1 hb

theorem isTop_mono {c : ClassExpression} (h : ∀ x ∈ c.iris, x ∈ s → x ∈ t)
    (ht : c.isTop t) : c.isTop s :=
  (isBottom_and_isTop_mono h).2 ht

end ClassExpression

namespace Axiom

theorem countP_le_one_mono {α : Type} {p q : α → Bool} {xs : List α}
    (h : ∀ x ∈ xs, p x → q x) (hq : xs.countP q ≤ 1) : xs.countP p ≤ 1 :=
  Nat.le_trans (List.countP_mono_left h) hq

/-- An axiom that is local stays local for a signature that shares no further symbol with it. -/
theorem isLocal_mono {a : Axiom} (h : ∀ x ∈ a.iris, x ∈ s → x ∈ t) (hl : a.isLocal t) :
    a.isLocal s := by
  have gone : ∀ x ∈ a.iris, x ∉ t → x ∉ s := fun x hx => mt (h x hx)
  cases a with
  | declaration | annotationAssertion | subAnnotationProperty | subObjectProperty | subDataProperty
  | dataPropertyRange | functionalDataProperty | negativeObjectPropertyAssertion
  | negativeDataPropertyAssertion =>
    simp only [isLocal_declaration, isLocal_annotationAssertion, isLocal_subAnnotationProperty,
      isLocal_subObjectProperty, isLocal_subDataProperty, isLocal_dataPropertyRange,
      isLocal_functionalDataProperty, isLocal_negativeObjectPropertyAssertion,
      isLocal_negativeDataPropertyAssertion] at hl ⊢
    exact gone _ (by simp [iris]) hl
  | characteristic c p =>
    rw [isLocal_characteristic] at hl ⊢
    exact hl.imp_right (gone p (by simp [iris]))
  | objectPropertyAssertion => exact absurd hl isLocal_objectPropertyAssertion
  | dataPropertyAssertion => exact absurd hl isLocal_dataPropertyAssertion
  | subClass c d =>
    rw [isLocal_subClass] at hl ⊢
    exact hl.imp (ClassExpression.isBottom_mono fun x hx => h x (by simp [iris, hx]))
      (ClassExpression.isTop_mono fun x hx => h x (by simp [iris, hx]))
  | equivalentClasses cs =>
    have hcs : ∀ c ∈ cs, ∀ x ∈ c.iris, x ∈ s → x ∈ t := fun c hc x hx =>
      h x (by simpa [iris] using ⟨c, hc, hx⟩)
    rw [isLocal_equivalentClasses] at hl ⊢
    exact hl.imp (fun hb c hc => ClassExpression.isBottom_mono (hcs c hc) (hb c hc))
      (fun ht c hc => ClassExpression.isTop_mono (hcs c hc) (ht c hc))
  | disjointClasses cs =>
    rw [isLocal_disjointClasses] at hl ⊢
    refine countP_le_one_mono (fun c hc hs => ?_) hl
    simp only [Bool.not_eq_true', Bool.eq_false_iff] at hs ⊢
    exact mt (ClassExpression.isBottom_mono fun x hx => h x (by simpa [iris] using ⟨c, hc, hx⟩)) hs
  | equivalentObjectProperties ps =>
    rw [isLocal_equivalentObjectProperties] at hl ⊢
    exact fun p hp => gone p hp (hl p hp)
  | equivalentDataProperties ps =>
    rw [isLocal_equivalentDataProperties] at hl ⊢
    exact fun p hp => gone p hp (hl p hp)
  | disjointObjectProperties ps | disjointDataProperties ps =>
    simp only [isLocal_disjointObjectProperties, isLocal_disjointDataProperties] at hl ⊢
    refine countP_le_one_mono (fun p hp hs => ?_) hl
    exact Std.TreeSet.contains_iff_mem.2 (h p hp (Std.TreeSet.contains_iff_mem.1 hs))
  | objectPropertyDomain p c | objectPropertyRange p c | dataPropertyDomain p c =>
    simp only [isLocal_objectPropertyDomain, isLocal_objectPropertyRange,
      isLocal_dataPropertyDomain] at hl ⊢
    exact hl.imp (gone p (by simp [iris]))
      (ClassExpression.isTop_mono fun x hx => h x (by simp [iris, hx]))
  | inverseObjectProperties p q =>
    rw [isLocal_inverseObjectProperties] at hl ⊢
    exact hl.imp (gone p (by simp [iris])) (gone q (by simp [iris]))
  | classAssertion c i =>
    rw [isLocal_classAssertion] at hl ⊢
    exact ClassExpression.isTop_mono (fun x hx => h x (by simp [iris, hx])) hl

/-- Locality depends on the symbols of the axiom alone, and it is never gained as a signature
grows. -/
theorem isLocal_shared_antitone (a : Axiom) (s t : Signature) :
    ((∀ x ∈ a.signature, x ∈ s ↔ x ∈ t) → a.isLocal s = a.isLocal t) ∧
      ((∀ x ∈ s, x ∈ t) → a.isLocal t = true → a.isLocal s = true) := by
  constructor
  · intro same
    have fewer : a.isLocal t → a.isLocal s :=
      isLocal_mono fun x hx => (same x (mem_signature.2 hx)).1
    have more : a.isLocal s → a.isLocal t :=
      isLocal_mono fun x hx => (same x (mem_signature.2 hx)).2
    exact Bool.eq_iff_iff.2 ⟨more, fewer⟩
  · intro subset
    exact isLocal_mono fun x _ => subset x

/-- A nested case. The union holds everything, since `p` is empty, so that one operand at most has
members; `q` is no symbol of the axiom. -/
theorem isLocal_shared_antitone_nested :
    let a : Iri := ⟨"urn:a"⟩
    let p : Iri := ⟨"urn:p"⟩
    let q : Iri := ⟨"urn:q"⟩
    let r : Iri := ⟨"urn:r"⟩
    let s : Signature := .ofList [a, r]
    let t : Signature := .ofList [a, q, r]
    let nested : Axiom := .disjointClasses [.named a,
      .complement (.union [.cardinality .max 2 (.inverse p) (some (.named a)),
        .some (.named r) (.named a)])]
    (∀ x ∈ nested.signature, x ∈ s ↔ x ∈ t) ∧ (∀ x ∈ s, x ∈ t) ∧
      nested.isLocal s = nested.isLocal t ∧ nested.isLocal t = true ∧
      nested.isLocal s = true := by
  intro a p q r s t nested
  have same : ∀ x ∈ nested.signature, x ∈ s ↔ x ∈ t := by
    intro x hx
    have listed : ∀ x ∈ nested.iris, x ∈ s ↔ x ∈ t := by decide
    exact listed x (mem_signature.1 hx)
  have subset : ∀ x ∈ s, x ∈ t := by
    intro x hx
    have listed : ∀ x ∈ [a, r], x ∈ t := by decide
    exact listed x (by simpa [s, Std.TreeSet.mem_ofList] using hx)
  have isLocal : nested.isLocal t = true := by decide
  obtain ⟨reads, falls⟩ := isLocal_shared_antitone nested s t
  exact ⟨same, subset, reads same, isLocal, falls subset isLocal⟩

end Axiom

end TabularOntology
