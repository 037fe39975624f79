import TabularOntology.Proofs.Extraction.Related

/-! Paths taken backwards. What lies above an entity has it below, and equivalents, disjoint
entities and inverses hold of both entities alike; from domains, ranges, types and values no type
of relationship leads back. So an entity is reached along types that can be reversed just if the
start is reached from it along the reversed ones, however often the path changes its type. -/

namespace TabularOntology.Import

open Relation

namespace RelatedType

/-- The types whose relations are those of a type when they are read from their end. -/
def isReversible : RelatedType → Bool
  | .ancestors | .descendants | .equivalents | .disjoints | .inverses => true
  | .domains | .ranges | .types | .propertyAssertions => false

/-- Exchanges ancestors and descendants. -/
def reverse : RelatedType → RelatedType
  | .ancestors => .descendants
  | .descendants => .ancestors
  | t => t

@[simp] theorem reverse_reverse (t : RelatedType) : t.reverse.reverse = t := by
  cases t <;> rfl

@[simp] theorem isReversible_reverse (t : RelatedType) :
    t.reverse.isReversible = t.isReversible := by
  cases t <;> rfl

end RelatedType

section
variable {o : Ontology} {types reversed : List RelatedType} {t : RelatedType} {a : Axiom}
variable {x y : Iri}

/-- Entities that are among each other are of a type that stays as it is. -/
theorem IsAmong.reverse_eq (h : IsAmong t a x) : t.reverse = t := by
  cases h <;> rfl

theorem Relates.reverse (h : Relates t a x y) (reversible : t.isReversible) :
    Relates t.reverse a y x := by
  cases h with
  | ancestor h => exact .descendant h
  | descendant h => exact .ancestor h
  | among hx hy different =>
    rw [hx.reverse_eq]
    exact .among hy hx different.symm
  | inverse => exact .inverseOf _ _
  | inverseOf => exact .inverse _ _
  | objectDomain | dataDomain | objectRange | dataRange | type | assertion => cases reversible

theorem Edge.reverse (h : Edge o types x y) (reversible : ∀ t ∈ types, t.isReversible)
    (exchanged : ∀ t ∈ types, t.reverse ∈ reversed) : Edge o reversed y x := by
  obtain ⟨a, ha, t, ht, relates⟩ := h
  exact ⟨a, ha, t.reverse, exchanged t ht, relates.reverse (reversible t ht)⟩

theorem edge_reversed (reversible : ∀ t ∈ types, t.isReversible)
    (exchanged : ∀ t, t ∈ reversed ↔ t.reverse ∈ types) :
    Edge o reversed y x ↔ Edge o types x y := by
  constructor
  · intro h
    refine h.reverse (fun t ht => ?_) fun t ht => (exchanged t).1 ht
    rw [← t.isReversible_reverse]
    exact reversible _ ((exchanged t).1 ht)
  · intro h
    refine h.reverse reversible fun t ht => (exchanged _).2 ?_
    rwa [t.reverse_reverse]

end

/-- Traversal can be reversed: with ancestors and descendants exchanged, a path leads back to
where it came from. -/
theorem mem_reachable_reversed {o : Ontology} {x y : Iri} {types reversed : List RelatedType}
    (reversible : ∀ t ∈ types, t.isReversible)
    (exchanged : ∀ t, t ∈ reversed ↔ t.reverse ∈ types) :
    y ∈ reachable o x types ↔ x ∈ reachable o y reversed := by
  have edges : Edge o reversed = Function.swap (Edge o types) := by
    funext u v
    exact propext (edge_reversed reversible exchanged)
  rw [mem_reachable, mem_reachable, edges]
  exact reflTransGen_swap.symm

/-- A class below one of several equivalent expressions, one of them without a name and one of
them given twice. -/
def twigs : Ontology :=
  .ofAxioms [.subClass (.named ⟨"urn:twig"⟩) (.named ⟨"urn:branch"⟩),
    .equivalentClasses [.named ⟨"urn:bough"⟩, .complement (.named ⟨"urn:root"⟩),
      .named ⟨"urn:branch"⟩, .named ⟨"urn:bough"⟩]]

theorem mem_reachable_reversed_twigs :
    (⟨"urn:bough"⟩ : Iri) ∈ reachable twigs ⟨"urn:twig"⟩ [.ancestors, .equivalents] ∧
    (⟨"urn:twig"⟩ : Iri) ∈ reachable twigs ⟨"urn:bough"⟩ [.equivalents, .descendants] ∧
    (⟨"urn:bough"⟩ : Iri) ∉ reachable twigs ⟨"urn:twig"⟩ [.descendants, .equivalents] := by
  have up : (⟨"urn:bough"⟩ : Iri) ∈ reachable twigs ⟨"urn:twig"⟩ [.ancestors, .equivalents] := by
    decide +kernel
  have exchanged (t : RelatedType) :
      t ∈ [RelatedType.equivalents, .descendants] ↔ t.reverse ∈ [.ancestors, .equivalents] := by
    cases t <;> decide
  exact ⟨up, (mem_reachable_reversed (by decide) exchanged).1 up, by decide +kernel⟩

end TabularOntology.Import
