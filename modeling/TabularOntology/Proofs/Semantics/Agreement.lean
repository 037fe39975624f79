import TabularOntology.Proofs.Semantics.Interpretation

/-! The symbols that meaning depends on. Two interpretations over the same domains that
agree on the symbols of an expression or an axiom give it the same meaning. So an
interpretation can be emptied outside a signature without any change to what is said
in the signature alone. -/

namespace TabularOntology

namespace Interpretation

universe u v

variable {Δ : Type u} {V : Type v} {I J : Interpretation Δ V} {S : Set Iri}

/-- Interpretations that differ in the meaning of symbols outside a set only. -/
structure AgreeOn (S : Set Iri) (I J : Interpretation Δ V) : Prop where
  classes : ∀ x ∈ S, I.classes x = J.classes x
  objectProperties : ∀ x ∈ S, I.objectProperties x = J.objectProperties x
  dataProperties : ∀ x ∈ S, I.dataProperties x = J.dataProperties x
  datatypes : I.datatypes = J.datatypes
  individuals : I.individuals = J.individuals
  literals : I.literals = J.literals

namespace AgreeOn

theorem role_eq (h : AgreeOn S I J) {p : ObjectProperty} (hp : p.iri ∈ S) :
    I.role p = J.role p := by
  cases p with
  | named p => exact h.objectProperties p hp
  | inverse p => rw [role, role, h.objectProperties p hp]

theorem range_eq (h : AgreeOn S I J) (d : DataRange) : I.range d = J.range d := by
  induction d with
  | datatype d => rw [range, range, h.datatypes]
  | intersection ds ih =>
    ext v
    rw [mem_range_intersection, mem_range_intersection]
    exact forall₂_congr fun d hd => by rw [ih d hd]
  | union ds ih =>
    ext v
    rw [mem_range_union, mem_range_union]
    exact exists_congr fun d => and_congr_right fun hd => by rw [ih d hd]
  | complement d ih => rw [range, range, ih]

theorem extension_eq (h : AgreeOn S I J) {c : ClassExpression} (hc : ∀ x ∈ c.iris, x ∈ S) :
    I.extension c = J.extension c := by
  induction c with
  | named c =>
    rw [extension, extension]
    exact h.classes c (hc c (by simp [ClassExpression.iris]))
  | intersection cs ih =>
    ext x
    rw [mem_extension_intersection, mem_extension_intersection]
    refine forall₂_congr fun c hcs => ?_
    rw [ih c hcs fun x hx => hc x (by simpa [ClassExpression.iris] using ⟨c, hcs, hx⟩)]
  | union cs ih =>
    ext x
    rw [mem_extension_union, mem_extension_union]
    refine exists_congr fun c => and_congr_right fun hcs => ?_
    rw [ih c hcs fun x hx => hc x (by simpa [ClassExpression.iris] using ⟨c, hcs, hx⟩)]
  | complement c ih => rw [extension, extension, ih hc]
  | some p c ih | only p c ih =>
    rw [extension, extension, h.role_eq (hc p.iri (by simp [ClassExpression.iris])),
      ih fun x hx => hc x (by simp [ClassExpression.iris, hx])]
  | hasValue p i =>
    rw [extension, extension, h.role_eq (hc p.iri (by simp [ClassExpression.iris])), h.individuals]
  | cardinality b n p filler ih =>
    have same : ∀ c ∈ filler, I.extension c = J.extension c := fun c hf =>
      ih c hf fun x hx => hc x (by simp_all)
    ext x
    rw [mem_extension_cardinality, mem_extension_cardinality, h.role_eq (hc p.iri (by simp))]
    simp +contextual only [same]
  | dataSome p d | dataOnly p d =>
    rw [extension, extension, h.dataProperties p (hc p (by simp [ClassExpression.iris])),
      h.range_eq]
  | dataHasValue p l =>
    rw [extension, extension, h.dataProperties p (hc p (by simp [ClassExpression.iris])),
      h.literals]
  | dataCardinality b n p filler =>
    ext x
    rw [mem_extension_dataCardinality, mem_extension_dataCardinality,
      h.dataProperties p (hc p (by simp))]
    simp only [h.range_eq]

/-- An axiom is true or false whatever the symbols mean that it does not have. -/
theorem satisfies_iff (h : AgreeOn S I J) {a : Axiom} (ha : ∀ x ∈ a.iris, x ∈ S) :
    I.Satisfies a ↔ J.Satisfies a := by
  cases a with
  | declaration | annotationAssertion | subAnnotationProperty => exact Iff.rfl
  | subClass c d =>
    rw [Satisfies, Satisfies, h.extension_eq fun x hx => ha x (by simp [Axiom.iris, hx]),
      h.extension_eq fun x hx => ha x (by simp [Axiom.iris, hx])]
  | equivalentClasses cs =>
    exact allSame_congr fun c hc =>
      h.extension_eq fun x hx => ha x (by simpa [Axiom.iris] using ⟨c, hc, hx⟩)
  | disjointClasses cs =>
    exact allApart_congr fun c hc =>
      h.extension_eq fun x hx => ha x (by simpa [Axiom.iris] using ⟨c, hc, hx⟩)
  | subObjectProperty p q =>
    rw [Satisfies, Satisfies, h.role_eq (ha p.iri (by simp [Axiom.iris])),
      h.role_eq (ha q.iri (by simp [Axiom.iris]))]
  | equivalentObjectProperties ps => exact allSame_congr fun p hp => h.objectProperties p (ha p hp)
  | disjointObjectProperties ps => exact allApart_congr fun p hp => h.objectProperties p (ha p hp)
  | equivalentDataProperties ps => exact allSame_congr fun p hp => h.dataProperties p (ha p hp)
  | disjointDataProperties ps => exact allApart_congr fun p hp => h.dataProperties p (ha p hp)
  | objectPropertyDomain p c | objectPropertyRange p c =>
    rw [Satisfies, Satisfies, h.objectProperties p (ha p (by simp [Axiom.iris])),
      h.extension_eq fun x hx => ha x (by simp [Axiom.iris, hx])]
  | inverseObjectProperties p q =>
    rw [Satisfies, Satisfies, h.objectProperties p (ha p (by simp [Axiom.iris])),
      h.objectProperties q (ha q (by simp [Axiom.iris]))]
  | characteristic c p =>
    rw [Satisfies, Satisfies, h.objectProperties p (ha p (by simp [Axiom.iris]))]
  | subDataProperty p q =>
    rw [Satisfies, Satisfies, h.dataProperties p (ha p (by simp [Axiom.iris])),
      h.dataProperties q (ha q (by simp [Axiom.iris]))]
  | dataPropertyDomain p c =>
    rw [Satisfies, Satisfies, h.dataProperties p (ha p (by simp [Axiom.iris])),
      h.extension_eq fun x hx => ha x (by simp [Axiom.iris, hx])]
  | dataPropertyRange p d =>
    rw [Satisfies, Satisfies, h.dataProperties p (ha p (by simp [Axiom.iris])), h.range_eq]
  | functionalDataProperty p =>
    rw [Satisfies, Satisfies, h.dataProperties p (ha p (by simp [Axiom.iris]))]
  | classAssertion c i =>
    rw [Satisfies, Satisfies, h.individuals,
      h.extension_eq fun x hx => ha x (by simp [Axiom.iris, hx])]
  | objectPropertyAssertion p i j | negativeObjectPropertyAssertion p i j =>
    rw [Satisfies, Satisfies, h.individuals, h.objectProperties p (ha p (by simp [Axiom.iris]))]
  | dataPropertyAssertion p i l | negativeDataPropertyAssertion p i l =>
    rw [Satisfies, Satisfies, h.individuals, h.literals,
      h.dataProperties p (ha p (by simp [Axiom.iris]))]

end AgreeOn

/-! ### Emptying -/

/-- Every class but the class of all individuals and every property outside a signature is
empty. -/
structure EmptyOutside (I : Interpretation Δ V) (s : Signature) : Prop where
  classes : ∀ x ∉ s, x ≠ Vocabulary.thing → I.classes x = ∅
  objectProperties : ∀ x ∉ s, I.objectProperties x = ∅
  dataProperties : ∀ x ∉ s, I.dataProperties x = ∅

/-- The interpretation with every class but the class of all individuals and every property
outside a signature made empty. -/
def emptied (I : Interpretation Δ V) (s : Signature) : Interpretation Δ V :=
  { I with
    classes := fun x => if x ∈ s ∨ x = Vocabulary.thing then I.classes x else ∅
    objectProperties := fun x => if x ∈ s then I.objectProperties x else ∅
    dataProperties := fun x => if x ∈ s then I.dataProperties x else ∅
    classes_thing := by simp [I.classes_thing]
    classes_nothing := by simp [I.classes_nothing] }

theorem emptyOutside_emptied (I : Interpretation Δ V) (s : Signature) :
    (I.emptied s).EmptyOutside s where
  classes x hx ht := if_neg (by simp [hx, ht])
  objectProperties _ hx := if_neg hx
  dataProperties _ hx := if_neg hx

theorem agreeOn_emptied (I : Interpretation Δ V) (s : Signature) :
    AgreeOn {x | x ∈ s} I (I.emptied s) where
  classes _ hx := (if_pos (.inl hx)).symm
  objectProperties _ hx := (if_pos hx).symm
  dataProperties _ hx := (if_pos hx).symm
  datatypes := rfl
  individuals := rfl
  literals := rfl

end Interpretation

end TabularOntology
