import TabularOntology.Locality
import TabularOntology.Proofs.Semantics.Agreement

/-! Soundness of locality. Where everything outside a signature is empty, an expression
that the rules call empty has no members, one that they call full has all individuals
as members, and an axiom that they call local is true, whatever the symbols of the
signature mean. Emptiness and fullness are proved together, since complements and
maximal cardinalities exchange them. -/

namespace TabularOntology

universe u v

variable {α β : Type*}

/-! ### Counting -/

theorem Bound.not_holds_empty {n : ℕ} {b : Bound} (hb : b ≠ .max) (hn : 0 < n) :
    ¬ b.Holds n (∅ : Set α) := by
  cases b with
  | min => simpa [Holds] using hn.ne'
  | max => contradiction
  | exactly => simpa [Holds, eq_comm] using hn.ne'

theorem Bound.holds_max_empty (n : ℕ) : Bound.max.Holds n (∅ : Set α) := by simp [Holds]

theorem Bound.holds_min_zero (s : Set α) : Bound.min.Holds 0 s := by simp [Holds]

/-- Operands have no common members if all but one of them are empty. -/
theorem allApart_of_countP_le_one {ext : α → Set β} {p : α → Bool} {xs : List α}
    (hp : ∀ x ∈ xs, p x = false → ext x = ∅) (h : xs.countP p ≤ 1) : AllApart ext xs := by
  induction xs with
  | nil => exact .nil
  | cons x xs ih =>
    have ht : ∀ y ∈ xs, p y = false → ext y = ∅ := fun y hy => hp y (List.mem_cons_of_mem x hy)
    rw [List.countP_cons] at h
    refine .cons (fun y hy => ?_) (ih ht (by omega))
    cases hx : p x with
    | false =>
      rw [hp x List.mem_cons_self hx]
      exact Set.empty_disjoint _
    | true =>
      have none : xs.countP p = 0 := by simp only [hx, if_true] at h; omega
      rw [ht y hy (by simpa using List.countP_eq_zero.1 none y hy)]
      exact Set.disjoint_empty _

namespace Interpretation

variable {Δ : Type u} {V : Type v} {I : Interpretation Δ V} {s : Signature}

namespace EmptyOutside

theorem role_eq_empty (h : I.EmptyOutside s) {p : ObjectProperty} (hp : p.iri ∉ s) :
    I.role p = ∅ := by
  cases p with
  | named p => exact h.objectProperties p hp
  | inverse p => simp [role, h.objectProperties p hp]

/-- Nothing is counted if the property or the filler is empty. -/
theorem successors_eq_empty (h : I.EmptyOutside s) {p : ObjectProperty}
    {filler : Option ClassExpression} {x : Δ}
    (hf : p.iri ∉ s ∨ ∃ c ∈ filler, I.extension c = ∅) :
    {y | (x, y) ∈ I.role p ∧ ∀ c ∈ filler, y ∈ I.extension c} = ∅ := by
  rcases hf with hp | ⟨c, hc, he⟩
  · simp [h.role_eq_empty hp]
  · refine Set.eq_empty_of_forall_notMem fun y hy => ?_
    have hy : y ∈ I.extension c := hy.2 c hc
    rw [he] at hy
    exact hy

/-- The rules for expressions are sound. -/
theorem extension_eq (h : I.EmptyOutside s) (c : ClassExpression) :
    (c.isBottom s → I.extension c = ∅) ∧ (c.isTop s → I.extension c = Set.univ) := by
  induction c with
  | named c =>
    rw [extension, ClassExpression.isBottom_named, ClassExpression.isTop_named]
    refine ⟨?_, fun ht => ht ▸ I.classes_thing⟩
    rintro (rfl | ⟨ht, hc⟩)
    · exact I.classes_nothing
    · exact h.classes c hc ht
  | intersection cs ih =>
    rw [ClassExpression.isBottom_intersection, ClassExpression.isTop_intersection]
    constructor
    · rintro ⟨c, hc, hb⟩
      refine Set.eq_empty_of_forall_notMem fun x hx => ?_
      have hx := mem_extension_intersection.1 hx c hc
      rw [(ih c hc).1 hb] at hx
      exact hx
    · intro ht
      refine Set.eq_univ_of_forall fun x => mem_extension_intersection.2 fun c hc => ?_
      rw [(ih c hc).2 (ht c hc)]
      trivial
  | union cs ih =>
    rw [ClassExpression.isBottom_union, ClassExpression.isTop_union]
    constructor
    · intro hb
      refine Set.eq_empty_of_forall_notMem fun x hx => ?_
      obtain ⟨c, hc, hx⟩ := mem_extension_union.1 hx
      rw [(ih c hc).1 (hb c hc)] at hx
      exact hx
    · rintro ⟨c, hc, ht⟩
      refine Set.eq_univ_of_forall fun x => mem_extension_union.2 ⟨c, hc, ?_⟩
      rw [(ih c hc).2 ht]
      trivial
  | complement c ih =>
    rw [extension, ClassExpression.isBottom_complement, ClassExpression.isTop_complement,
      Set.compl_empty_iff, Set.compl_univ_iff]
    exact ih.symm
  | some p c ih =>
    rw [extension, ClassExpression.isBottom_some]
    refine ⟨?_, fun ht => absurd ht ClassExpression.isTop_some⟩
    rintro (hp | hb)
    · simp [h.role_eq_empty hp]
    · simp [ih.1 hb]
  | only p c ih =>
    rw [extension, ClassExpression.isTop_only]
    refine ⟨fun hb => absurd hb ClassExpression.isBottom_only, ?_⟩
    rintro (hp | ht)
    · simp [h.role_eq_empty hp]
    · simp [ih.2 ht]
  | hasValue p i =>
    rw [extension, ClassExpression.isBottom_hasValue]
    refine ⟨fun hp => ?_, fun ht => absurd ht ClassExpression.isTop_hasValue⟩
    simp [h.role_eq_empty hp]
  | cardinality b n p filler ih =>
    have few : (p.iri ∉ s ∨ ∃ c ∈ filler, c.isBottom s) →
        ∀ x, {y | (x, y) ∈ I.role p ∧ ∀ c ∈ filler, y ∈ I.extension c} = ∅ := fun hf x =>
      h.successors_eq_empty (hf.imp_right fun ⟨c, hc, hb⟩ => ⟨c, hc, (ih c hc).1 hb⟩)
    rw [ClassExpression.isBottom_cardinality, ClassExpression.isTop_cardinality]
    constructor
    · rintro ⟨hb, hn, hf⟩
      refine Set.eq_empty_of_forall_notMem fun x hx => ?_
      rw [mem_extension_cardinality, few hf x] at hx
      exact Bound.not_holds_empty hb hn hx
    · rintro (⟨rfl, rfl⟩ | ⟨rfl, hf⟩)
      · exact Set.eq_univ_of_forall fun x => mem_extension_cardinality.2 (Bound.holds_min_zero _)
      · refine Set.eq_univ_of_forall fun x => ?_
        rw [mem_extension_cardinality, few hf x]
        exact Bound.holds_max_empty n
  | dataSome p d =>
    rw [extension, ClassExpression.isBottom_dataSome]
    refine ⟨fun hp => ?_, fun ht => absurd ht ClassExpression.isTop_dataSome⟩
    simp [h.dataProperties p hp]
  | dataOnly p d =>
    rw [extension, ClassExpression.isTop_dataOnly]
    refine ⟨fun hb => absurd hb ClassExpression.isBottom_dataOnly, fun hp => ?_⟩
    simp [h.dataProperties p hp]
  | dataHasValue p l =>
    rw [extension, ClassExpression.isBottom_dataHasValue]
    refine ⟨fun hp => ?_, fun ht => absurd ht ClassExpression.isTop_dataHasValue⟩
    simp [h.dataProperties p hp]
  | dataCardinality b n p filler =>
    have few : p ∉ s → ∀ x : Δ,
        {v | (x, v) ∈ I.dataProperties p ∧ ∀ d ∈ filler, v ∈ I.range d} = ∅ := fun hp x => by
      simp [h.dataProperties p hp]
    rw [ClassExpression.isBottom_dataCardinality, ClassExpression.isTop_dataCardinality]
    constructor
    · rintro ⟨hb, hn, hp⟩
      refine Set.eq_empty_of_forall_notMem fun x hx => ?_
      rw [mem_extension_dataCardinality, few hp x] at hx
      exact Bound.not_holds_empty hb hn hx
    · rintro (⟨rfl, rfl⟩ | ⟨rfl, hp⟩)
      · exact Set.eq_univ_of_forall fun x =>
          mem_extension_dataCardinality.2 (Bound.holds_min_zero _)
      · refine Set.eq_univ_of_forall fun x => ?_
        rw [mem_extension_dataCardinality, few hp x]
        exact Bound.holds_max_empty n

/-- The rules for axioms are sound. -/
theorem satisfies (h : I.EmptyOutside s) {a : Axiom} (hl : a.isLocal s) : I.Satisfies a := by
  have bottom {c : ClassExpression} : c.isBottom s → I.extension c = ∅ := (h.extension_eq c).1
  have top {c : ClassExpression} : c.isTop s → I.extension c = Set.univ := (h.extension_eq c).2
  cases a with
  | declaration | annotationAssertion | subAnnotationProperty => trivial
  | subClass c d =>
    rw [Axiom.isLocal_subClass] at hl
    rw [Satisfies]
    rcases hl with hc | hd
    · rw [bottom hc]
      exact Set.empty_subset _
    · rw [top hd]
      exact Set.subset_univ _
  | equivalentClasses cs =>
    rw [Axiom.isLocal_equivalentClasses] at hl
    intro c hc d hd
    rcases hl with hb | ht
    · rw [bottom (hb c hc), bottom (hb d hd)]
    · rw [top (ht c hc), top (ht d hd)]
  | disjointClasses cs =>
    refine allApart_of_countP_le_one (fun c _ hc => bottom ?_) (Axiom.isLocal_disjointClasses.1 hl)
    simpa using hc
  | subObjectProperty p q =>
    rw [Satisfies, h.role_eq_empty (Axiom.isLocal_subObjectProperty.1 hl)]
    exact Set.empty_subset _
  | equivalentObjectProperties ps =>
    rw [Axiom.isLocal_equivalentObjectProperties] at hl
    intro p hp q hq
    rw [h.objectProperties p (hl p hp), h.objectProperties q (hl q hq)]
  | disjointObjectProperties ps =>
    exact allApart_of_countP_le_one
      (fun p _ hp => h.objectProperties p (Signature.contains_eq_false.1 hp))
      (Axiom.isLocal_disjointObjectProperties.1 hl)
  | objectPropertyDomain p c =>
    rw [Axiom.isLocal_objectPropertyDomain] at hl
    rw [Satisfies]
    rcases hl with hp | hc
    · simp [h.objectProperties p hp]
    · simp [top hc]
  | objectPropertyRange p c =>
    rw [Axiom.isLocal_objectPropertyRange] at hl
    rw [Satisfies]
    rcases hl with hp | hc
    · simp [h.objectProperties p hp]
    · simp [top hc]
  | inverseObjectProperties p q =>
    obtain ⟨hp, hq⟩ := Axiom.isLocal_inverseObjectProperties.1 hl
    rw [Satisfies, h.objectProperties p hp, h.objectProperties q hq]
    simp
  | characteristic c p =>
    obtain ⟨hc, hp⟩ := Axiom.isLocal_characteristic.1 hl
    rw [Satisfies, h.objectProperties p hp]
    cases c with
    | reflexive => contradiction
    | functional | inverseFunctional | irreflexive | symmetric | asymmetric | transitive =>
      simp [Characteristic.Holds]
  | subDataProperty p q =>
    rw [Satisfies, h.dataProperties p (Axiom.isLocal_subDataProperty.1 hl)]
    exact Set.empty_subset _
  | equivalentDataProperties ps =>
    rw [Axiom.isLocal_equivalentDataProperties] at hl
    intro p hp q hq
    rw [h.dataProperties p (hl p hp), h.dataProperties q (hl q hq)]
  | disjointDataProperties ps =>
    exact allApart_of_countP_le_one
      (fun p _ hp => h.dataProperties p (Signature.contains_eq_false.1 hp))
      (Axiom.isLocal_disjointDataProperties.1 hl)
  | dataPropertyDomain p c =>
    rw [Axiom.isLocal_dataPropertyDomain] at hl
    rw [Satisfies]
    rcases hl with hp | hc
    · simp [h.dataProperties p hp]
    · simp [top hc]
  | dataPropertyRange p d =>
    rw [Satisfies, h.dataProperties p (Axiom.isLocal_dataPropertyRange.1 hl)]
    simp
  | functionalDataProperty p =>
    rw [Satisfies, h.dataProperties p (Axiom.isLocal_functionalDataProperty.1 hl)]
    simp
  | classAssertion c i =>
    rw [Satisfies, top (Axiom.isLocal_classAssertion.1 hl)]
    trivial
  | objectPropertyAssertion => exact absurd hl Axiom.isLocal_objectPropertyAssertion
  | dataPropertyAssertion => exact absurd hl Axiom.isLocal_dataPropertyAssertion
  | negativeObjectPropertyAssertion p =>
    rw [Satisfies, h.objectProperties p (Axiom.isLocal_negativeObjectPropertyAssertion.1 hl)]
    exact Set.notMem_empty _
  | negativeDataPropertyAssertion p =>
    rw [Satisfies, h.dataProperties p (Axiom.isLocal_negativeDataPropertyAssertion.1 hl)]
    exact Set.notMem_empty _

end EmptyOutside

/-- Locality is sound: a local axiom is true in every interpretation that is empty outside the
signature. -/
theorem satisfies_of_isLocal (I : Interpretation Δ V) (s : Signature) (a : Axiom)
    (h : I.EmptyOutside s) (hl : a.isLocal s) : I.Satisfies a :=
  h.satisfies hl

/-- The interpretation in which every class but the empty one and every property holds
everything. -/
def full : Interpretation Unit Unit where
  classes c := {_x | c ≠ Vocabulary.nothing}
  objectProperties _ := Set.univ
  dataProperties _ := Set.univ
  datatypes _ := Set.univ
  individuals _ := ()
  literals _ := ()
  classes_thing := Set.eq_univ_of_forall fun _ =>
    show Vocabulary.thing ≠ Vocabulary.nothing by decide
  classes_nothing := by simp

/-- A nested case. With `p` empty the union holds everything, and so the intersection with its
complement is empty. -/
theorem satisfies_of_isLocal_nested :
    let a : Iri := ⟨"urn:a"⟩
    let p : Iri := ⟨"urn:p"⟩
    let r : Iri := ⟨"urn:r"⟩
    let s : Signature := .ofList [a, r]
    let nested : Axiom := .subClass
      (.intersection [.some (.inverse r) (.named a),
        .complement (.union [.cardinality .max 2 (.inverse p) (some (.complement (.named a))),
          .named a])])
      (.some (.named r) (.named a))
    (full.emptied s).EmptyOutside s ∧ nested.isLocal s ∧ (full.emptied s).Satisfies nested := by
  intro a p r s nested
  have hs : p ∉ s := by decide
  have hl : nested.isLocal s := by simp [nested, hs, ObjectProperty.iri]
  have he := emptyOutside_emptied full s
  exact ⟨he, hl, satisfies_of_isLocal _ s nested he hl⟩

end Interpretation

end TabularOntology
