import Mathlib.Data.List.Pairwise
import TabularOntology.Proofs.Semantics.Interpretation
import TabularOntology.Reasoner.Facts

/-! What facts mean. Every fact that an axiom tells is true wherever the axiom is true. Most
axioms tell less than they say; a terminological axiom tells all of it, so that whatever
makes its facts true makes the axiom true as well. The classes that an axiom registers are
among those that occur in it, and a terminological axiom registers all of them. -/

namespace TabularOntology

/-! ### Occurrences -/

mutual

/-- The named classes that occur in an expression. -/
def ClassExpression.classNames : ClassExpression → List Iri
  | .named c => [c]
  | .intersection cs | .union cs => ClassExpression.classNamesOf cs
  | .complement c | .some _ c | .only _ c => c.classNames
  | .cardinality _ _ _ (Option.some c) => c.classNames
  | .hasValue .. | .cardinality _ _ _ none => []
  | .dataSome .. | .dataOnly .. | .dataHasValue .. | .dataCardinality .. => []

def ClassExpression.classNamesOf : List ClassExpression → List Iri
  | [] => []
  | c :: cs => c.classNames ++ ClassExpression.classNamesOf cs

end

@[simp] theorem ClassExpression.classNamesOf_eq_flatMap (cs : List ClassExpression) :
    classNamesOf cs = cs.flatMap classNames := by
  induction cs with
  | nil => rfl
  | cons c cs ih => rw [classNamesOf, ih, List.flatMap_cons]

/-- The named classes that occur in an axiom. -/
def Axiom.classNames : Axiom → List Iri
  | .declaration .cls c => [c]
  | .subClass c d => c.classNames ++ d.classNames
  | .equivalentClasses cs | .disjointClasses cs => ClassExpression.classNamesOf cs
  | .objectPropertyDomain _ c | .objectPropertyRange _ c | .dataPropertyDomain _ c => c.classNames
  | .classAssertion c _ => c.classNames
  | _ => []

theorem ClassExpression.classNames_subset_iris (e : ClassExpression) : e.classNames ⊆ e.iris := by
  induction e with
  | named c => exact List.Subset.refl _
  | intersection es ih | union es ih =>
    intro x hx
    rw [classNames, classNamesOf_eq_flatMap, List.mem_flatMap] at hx
    rw [iris, irisOf_eq_flatMap, List.mem_flatMap]
    obtain ⟨e, he, hx⟩ := hx
    exact ⟨e, he, ih e he hx⟩
  | complement e ih => exact ih
  | some p e ih | only p e ih => exact List.Subset.trans ih (List.subset_cons_self _ _)
  | cardinality b n p filler ih =>
    cases filler with
    | none => exact List.nil_subset _
    | some e => exact List.Subset.trans (ih e rfl) (List.subset_cons_self _ _)
  | _ => exact List.nil_subset _

theorem Axiom.classNames_subset_iris (a : Axiom) : a.classNames ⊆ a.iris := by
  have occurs : ∀ e : ClassExpression, e.classNames ⊆ e.iris := fun e => e.classNames_subset_iris
  cases a with
  | declaration kind c =>
    cases kind with
    | cls => exact List.Subset.refl _
    | _ => exact List.nil_subset _
  | subClass e e' =>
    exact List.append_subset.2 ⟨List.Subset.trans (occurs e) (List.subset_append_left _ _),
      List.Subset.trans (occurs e') (List.subset_append_right _ _)⟩
  | equivalentClasses es | disjointClasses es => exact occurs (.intersection es)
  | objectPropertyDomain p e | objectPropertyRange p e | dataPropertyDomain p e =>
    exact List.Subset.trans (occurs e) (List.subset_cons_self _ _)
  | classAssertion e i => exact List.Subset.trans (occurs e) (List.subset_append_left _ _)
  | _ => exact List.nil_subset _

/-! ### Terminological axioms -/

/-- Intersections, nested to any depth, of named classes, complements of named classes and
existentials of named properties over named classes. -/
inductive ClassExpression.IsTold : ClassExpression → Prop
  | named (c : Iri) : IsTold (.named c)
  | complement (c : Iri) : IsTold (.complement (.named c))
  | some (p c : Iri) : IsTold (.some (.named p) (.named c))
  | intersection {es : List ClassExpression} (h : ∀ e ∈ es, IsTold e) : IsTold (.intersection es)

/-- The axioms of which everything is told. -/
inductive Axiom.IsTerminological : Axiom → Prop
  | declaration (kind : EntityKind) (x : Iri) : IsTerminological (.declaration kind x)
  | disjointClasses {cs : List Iri} (h : cs.Nodup) :
      IsTerminological (.disjointClasses (cs.map .named))
  | domain (p c : Iri) : IsTerminological (.objectPropertyDomain p (.named c))
  | conjunction (cs : List Iri) (c : Iri) :
      IsTerminological (.subClass (.intersection (cs.map .named)) (.named c))
  | subClass (c : Iri) {e : ClassExpression} (h : e.IsTold) :
      IsTerminological (.subClass (.named c) e)

namespace Reasoner

universe u v

variable {Δ : Type u} {V : Type v} {I : Interpretation Δ V}
variable {c d : Iri} {e : ClassExpression} {i : Individual} {a : Axiom}

theorem superFactsAll_eq_flatMap (c : Iri) (es : List ClassExpression) :
    superFactsAll c es = es.flatMap (superFacts c) := by
  induction es with
  | nil => rfl
  | cons e es ih => rw [superFactsAll, ih, List.flatMap_cons]

theorem memberFactsAll_eq_flatMap (i : Individual) (es : List ClassExpression) :
    memberFactsAll i es = es.flatMap (memberFacts i) := by
  induction es with
  | nil => rfl
  | cons e es ih => rw [memberFactsAll, ih, List.flatMap_cons]

theorem name?_eq_some : name? e = some c ↔ e = .named c := by
  cases e <;> simp [name?, eq_comm]

theorem filterMap_name? (cs : List Iri) : (cs.map ClassExpression.named).filterMap name? = cs := by
  rw [List.filterMap_map]
  exact List.filterMap_some

theorem mapM_name? (es : List ClassExpression) (cs : List Iri) :
    es.mapM name? = some cs ↔ es = cs.map .named := by
  induction es generalizing cs with
  | nil => cases cs <;> simp
  | cons e es ih =>
    rw [List.mapM_cons]
    cases cs with
    | nil => cases name? e <;> cases es.mapM name? <;> simp
    | cons c cs =>
      rw [List.map_cons, List.cons.injEq, ← name?_eq_some, ← ih]
      cases name? e <;> cases es.mapM name? <;> simp

theorem subsumptionFacts_conjunction (cs : List Iri) (d : Iri) :
    subsumptionFacts (.intersection (cs.map .named)) (.named d) =
      .registered d :: cs.map .registered ++ [.conjunction cs d] := by
  have named : (cs.map ClassExpression.named).mapM name? = some cs := (mapM_name? _ cs).2 rfl
  simp only [subsumptionFacts, named]

/-- The two sorts of subsumptions that tell something. -/
theorem subsumptionFacts_cases (e e' : ClassExpression) :
    (∃ c, e = .named c) ∨ (∃ cs d, e = .intersection (List.map .named cs) ∧ e' = .named d) ∨
      subsumptionFacts e e' = [] := by
  unfold subsumptionFacts
  split
  · exact .inl ⟨_, rfl⟩
  · next es d =>
    split
    · next cs hcs => exact .inr (.inl ⟨cs, d, by rw [(mapM_name? es cs).1 hcs], rfl⟩)
    · exact .inr (.inr rfl)
  · exact .inr (.inr rfl)

theorem equivalenceFacts_cases (e e' : ClassExpression) :
    equivalenceFacts e e' = [] ∨ equivalenceFacts e e' = subsumptionFacts e e' := by
  unfold equivalenceFacts
  split
  · split
    · exact .inl rfl
    · exact .inr rfl
  · exact .inr rfl

/-! ### Truth of facts -/

/-- What a fact says of an interpretation. That something is registered or met says nothing. -/
def Fact.Holds (I : Interpretation Δ V) : Fact → Prop
  | .registered _ | .individual _ => True
  | .subclass c d => I.classes c ⊆ I.classes d
  | .conjunction cs d => ∀ x, (∀ c ∈ cs, x ∈ I.classes c) → x ∈ I.classes d
  | .existential c p d => ∀ x ∈ I.classes c, ∃ y, (x, y) ∈ I.objectProperties p ∧ y ∈ I.classes d
  | .disjoint c d => Disjoint (I.classes c) (I.classes d)
  | .domain p c => ∀ x y, (x, y) ∈ I.objectProperties p → x ∈ I.classes c
  | .range p c => ∀ x y, (x, y) ∈ I.objectProperties p → y ∈ I.classes c
  | .member i c => I.individuals i ∈ I.classes c
  | .nonmember i c => I.individuals i ∉ I.classes c
  | .related p i j => (I.individuals i, I.individuals j) ∈ I.objectProperties p

/-- All facts of a list are true. -/
def AllHold (I : Interpretation Δ V) (fs : List Fact) : Prop := ∀ f ∈ fs, f.Holds I

@[simp] theorem allHold_nil : AllHold I [] := by
  intro f hf
  exact absurd hf List.not_mem_nil

@[simp] theorem allHold_cons {f : Fact} {fs : List Fact} :
    AllHold I (f :: fs) ↔ f.Holds I ∧ AllHold I fs :=
  List.forall_mem_cons

@[simp] theorem allHold_append {fs gs : List Fact} :
    AllHold I (fs ++ gs) ↔ AllHold I fs ∧ AllHold I gs :=
  List.forall_mem_append

@[simp] theorem allHold_flatMap {α : Type} {xs : List α} {g : α → List Fact} :
    AllHold I (xs.flatMap g) ↔ ∀ x ∈ xs, AllHold I (g x) := by
  simp only [AllHold, List.mem_flatMap]
  constructor
  · intro h x hx f hf
    exact h f ⟨x, hx, hf⟩
  · rintro h f ⟨x, hx, hf⟩
    exact h x hx f hf

@[simp] theorem allHold_registered (cs : List Iri) : AllHold I (cs.map .registered) := by
  intro f hf
  obtain ⟨c, _, rfl⟩ := List.mem_map.1 hf
  trivial

/-! ### From axioms to facts -/

theorem allHold_superFacts (h : I.classes c ⊆ I.extension e) : AllHold I (superFacts c e) := by
  induction e with
  | named d =>
    have told : I.classes c ⊆ I.classes d := h
    simpa [superFacts, Fact.Holds] using told
  | intersection es ih =>
    rw [superFacts, superFactsAll_eq_flatMap, allHold_flatMap]
    intro e he
    exact ih e he fun x hx => Interpretation.mem_extension_intersection.1 (h hx) e he
  | complement e =>
    cases e with
    | named d =>
      have apart : Disjoint (I.classes c) (I.classes d) := Set.disjoint_left.2 fun x hx => h hx
      simpa [superFacts, Fact.Holds] using ⟨apart, apart.symm⟩
    | _ => simp [superFacts]
  | some p e =>
    cases p with
    | inverse => simp [superFacts]
    | named p =>
      cases e with
      | named d =>
        have told : (Fact.existential c p d).Holds I := fun x hx => h hx
        simpa [superFacts] using ⟨trivial, told⟩
      | _ => simp [superFacts]
  | _ => simp [superFacts]

theorem allHold_memberFacts (h : I.individuals i ∈ I.extension e) :
    AllHold I (memberFacts i e) := by
  induction e with
  | named c =>
    have told : (Fact.member i c).Holds I := h
    simpa [memberFacts] using ⟨trivial, told⟩
  | intersection es ih =>
    rw [memberFacts, memberFactsAll_eq_flatMap, allHold_flatMap]
    intro e he
    exact ih e he (Interpretation.mem_extension_intersection.1 h e he)
  | complement e =>
    cases e with
    | named c =>
      have told : (Fact.nonmember i c).Holds I := h
      simpa [memberFacts] using ⟨trivial, told⟩
    | _ => simp [memberFacts]
  | _ => simp [memberFacts]

theorem mem_extension_map_named {cs : List Iri} {x : Δ} :
    x ∈ I.extension (.intersection (cs.map .named)) ↔ ∀ c ∈ cs, x ∈ I.classes c := by
  rw [Interpretation.mem_extension_intersection, List.forall_mem_map]
  rfl

theorem allHold_subsumptionFacts {e e' : ClassExpression} (h : I.extension e ⊆ I.extension e') :
    AllHold I (subsumptionFacts e e') := by
  rcases subsumptionFacts_cases e e' with ⟨c, rfl⟩ | ⟨cs, d, rfl, rfl⟩ | none
  · exact allHold_cons.2 ⟨trivial, allHold_superFacts h⟩
  · have all : (Fact.conjunction cs d).Holds I := fun x hx => h (mem_extension_map_named.2 hx)
    rw [subsumptionFacts_conjunction]
    simpa using ⟨trivial, all⟩
  · rw [none]
    exact allHold_nil

theorem allHold_equivalenceFacts {e e' : ClassExpression} (h : I.extension e = I.extension e') :
    AllHold I (equivalenceFacts e e') := by
  rcases equivalenceFacts_cases e e' with none | told
  · rw [none]
    exact allHold_nil
  · rw [told]
    exact allHold_subsumptionFacts h.subset

theorem allHold_disjointFacts {es : List ClassExpression} (h : AllApart I.extension es) :
    AllHold I (factsOf (.disjointClasses es)) := by
  simp only [factsOf, allHold_append, allHold_registered, true_and, allHold_flatMap]
  intro c hc f hf
  obtain ⟨d, hd, rfl⟩ := List.mem_map.1 hf
  obtain ⟨hd, hne⟩ := List.mem_filter.1 hd
  have occurs : ∀ c ∈ es.filterMap name?, ClassExpression.named c ∈ es := by
    intro c hc
    obtain ⟨e, he, hec⟩ := List.mem_filterMap.1 hc
    exact name?_eq_some.1 hec ▸ he
  have ne : ClassExpression.named c ≠ .named d := by
    rintro ⟨⟩
    simp at hne
  have : Std.Symm fun e e' => Disjoint (I.extension e) (I.extension e') :=
    ⟨fun _ _ hab => hab.symm⟩
  exact h.forall (occurs c hc) (occurs d hd) ne

/-- Every fact that an axiom tells is true wherever the axiom is. -/
theorem allHold_factsOf (h : I.Satisfies a) : AllHold I (factsOf a) := by
  cases a with
  | declaration kind c => cases kind <;> simp [factsOf, Fact.Holds]
  | subClass e e' => exact allHold_subsumptionFacts h
  | equivalentClasses es =>
    simp only [factsOf, allHold_flatMap]
    intro e he e' he'
    exact allHold_equivalenceFacts (h e he e' he')
  | disjointClasses es => exact allHold_disjointFacts h
  | objectPropertyDomain p e | objectPropertyRange p e =>
    cases e with
    | named c => exact allHold_cons.2 ⟨trivial, allHold_cons.2 ⟨h, allHold_nil⟩⟩
    | _ => exact allHold_nil
  | classAssertion e i => exact allHold_cons.2 ⟨trivial, allHold_memberFacts h⟩
  | objectPropertyAssertion p i j =>
    exact allHold_cons.2 ⟨trivial, allHold_cons.2 ⟨trivial, allHold_cons.2 ⟨h, allHold_nil⟩⟩⟩
  | _ => exact allHold_nil

/-! ### From facts to axioms -/

theorem subset_of_superFacts (he : e.IsTold) (h : AllHold I (superFacts c e)) :
    I.classes c ⊆ I.extension e := by
  induction he with
  | named d => exact (allHold_cons.1 (allHold_cons.1 h).2).1
  | complement d =>
    have apart : Disjoint (I.classes c) (I.classes d) := (allHold_cons.1 (allHold_cons.1 h).2).1
    exact fun x hx => Set.disjoint_left.1 apart hx
  | some p d => exact (allHold_cons.1 (allHold_cons.1 h).2).1
  | intersection hes ih =>
    rw [superFacts, superFactsAll_eq_flatMap, allHold_flatMap] at h
    intro x hx
    rw [Interpretation.mem_extension_intersection]
    exact fun e he => ih e he (h e he) hx

/-- A terminological axiom is true wherever all that it tells is. -/
theorem satisfies_of_allHold (ha : a.IsTerminological) (h : AllHold I (factsOf a)) :
    I.Satisfies a := by
  cases ha with
  | declaration => trivial
  | domain p c => exact (allHold_cons.1 (allHold_cons.1 h).2).1
  | subClass c he => exact subset_of_superFacts he (allHold_cons.1 h).2
  | conjunction cs c =>
    simp only [factsOf, subsumptionFacts_conjunction, allHold_append, allHold_cons] at h
    exact fun x hx => h.2.1 x (mem_extension_map_named.1 hx)
  | @disjointClasses cs hcs =>
    simp only [factsOf, filterMap_name?, allHold_append, allHold_flatMap] at h
    have apart : ∀ c ∈ cs, ∀ d ∈ cs, c ≠ d → Disjoint (I.classes c) (I.classes d) := by
      intro c hc d hd hne
      refine h.2 c hc (.disjoint c d) (List.mem_map_of_mem (List.mem_filter.2 ⟨hd, ?_⟩))
      simpa using hne.symm
    exact List.pairwise_map.2 (hcs.pairwise_of_forall_ne apart)

/-! ### Registered classes -/

/-- The classes that a fact is about. -/
def Fact.classNames : Fact → List Iri
  | .registered c | .domain _ c | .range _ c | .member _ c | .nonmember _ c => [c]
  | .subclass c d | .existential c _ d | .disjoint c d => [c, d]
  | .conjunction cs d => d :: cs
  | .individual _ | .related .. => []

section
variable {f : Fact} {x : Iri}

theorem mem_superFacts_intersection {es : List ClassExpression} :
    f ∈ superFacts c (.intersection es) ↔ ∃ e ∈ es, f ∈ superFacts c e := by
  rw [superFacts, superFactsAll_eq_flatMap, List.mem_flatMap]

theorem mem_memberFacts_intersection {es : List ClassExpression} :
    f ∈ memberFacts i (.intersection es) ↔ ∃ e ∈ es, f ∈ memberFacts i e := by
  rw [memberFacts, memberFactsAll_eq_flatMap, List.mem_flatMap]

theorem mem_classNames_intersection {es : List ClassExpression} :
    x ∈ (ClassExpression.intersection es).classNames ↔ ∃ e ∈ es, x ∈ e.classNames := by
  rw [ClassExpression.classNames, ClassExpression.classNamesOf_eq_flatMap, List.mem_flatMap]

/-- What is told of a class by an expression above it is about the class and one that occurs in
the expression and is registered. -/
theorem superFacts_shape (h : f ∈ superFacts c e) :
    ∃ d ∈ e.classNames, .registered d ∈ superFacts c e ∧
      (f = .registered d ∨ f = .subclass c d ∨ f = .disjoint c d ∨ f = .disjoint d c ∨
        ∃ p, f = .existential c p d) := by
  induction e with
  | named d =>
    simp only [superFacts, List.mem_cons, List.not_mem_nil, or_false] at h
    exact ⟨d, List.mem_cons_self, List.mem_cons_self, h.imp_right .inl⟩
  | intersection es ih =>
    obtain ⟨e, he, h⟩ := mem_superFacts_intersection.1 h
    obtain ⟨d, hd, registered, shape⟩ := ih e he h
    exact ⟨d, mem_classNames_intersection.2 ⟨e, he, hd⟩,
      mem_superFacts_intersection.2 ⟨e, he, registered⟩, shape⟩
  | complement e =>
    cases e with
    | named d =>
      simp only [superFacts, List.mem_cons, List.not_mem_nil, or_false] at h
      refine ⟨d, List.mem_cons_self, List.mem_cons_self, ?_⟩
      exact h.imp_right fun h => .inr (h.imp_right .inl)
    | _ => exact absurd h List.not_mem_nil
  | some p e =>
    cases p with
    | inverse => exact absurd h (by simp [superFacts])
    | named p =>
      cases e with
      | named d =>
        simp only [superFacts, List.mem_cons, List.not_mem_nil, or_false] at h
        refine ⟨d, List.mem_cons_self, List.mem_cons_self, ?_⟩
        exact h.imp_right fun h => .inr (.inr (.inr ⟨p, h⟩))
      | _ => exact absurd h List.not_mem_nil
  | _ => exact absurd h List.not_mem_nil

theorem memberFacts_shape (h : f ∈ memberFacts i e) :
    ∃ d ∈ e.classNames, .registered d ∈ memberFacts i e ∧
      (f = .registered d ∨ f = .member i d ∨ f = .nonmember i d) := by
  induction e with
  | named d =>
    simp only [memberFacts, List.mem_cons, List.not_mem_nil, or_false] at h
    exact ⟨d, List.mem_cons_self, List.mem_cons_self, h.imp_right .inl⟩
  | intersection es ih =>
    obtain ⟨e, he, h⟩ := mem_memberFacts_intersection.1 h
    obtain ⟨d, hd, registered, shape⟩ := ih e he h
    exact ⟨d, mem_classNames_intersection.2 ⟨e, he, hd⟩,
      mem_memberFacts_intersection.2 ⟨e, he, registered⟩, shape⟩
  | complement e =>
    cases e with
    | named d =>
      simp only [memberFacts, List.mem_cons, List.not_mem_nil, or_false] at h
      exact ⟨d, List.mem_cons_self, List.mem_cons_self, h.imp_right .inr⟩
    | _ => exact absurd h List.not_mem_nil
  | _ => exact absurd h List.not_mem_nil

theorem registered_of_mem_superFacts (hf : f ∈ superFacts c e) (hx : x ∈ f.classNames) :
    x = c ∨ .registered x ∈ superFacts c e ∧ x ∈ e.classNames := by
  obtain ⟨d, hd, registered, shape⟩ := superFacts_shape hf
  have pair : x = c ∨ x = d := by
    rcases shape with rfl | rfl | rfl | rfl | ⟨p, rfl⟩ <;> simp [Fact.classNames] at hx <;> tauto
  rcases pair with rfl | rfl
  · exact .inl rfl
  · exact .inr ⟨registered, hd⟩

theorem registered_of_mem_memberFacts (hf : f ∈ memberFacts i e) (hx : x ∈ f.classNames) :
    .registered x ∈ memberFacts i e ∧ x ∈ e.classNames := by
  obtain ⟨d, hd, registered, shape⟩ := memberFacts_shape hf
  have same : x = d := by rcases shape with rfl | rfl | rfl <;> simpa [Fact.classNames] using hx
  exact same ▸ ⟨registered, hd⟩

theorem registered_of_mem_subsumptionFacts {e e' : ClassExpression}
    (hf : f ∈ subsumptionFacts e e') (hx : x ∈ f.classNames) :
    .registered x ∈ subsumptionFacts e e' ∧ x ∈ e.classNames ++ e'.classNames := by
  rcases subsumptionFacts_cases e e' with ⟨c, rfl⟩ | ⟨cs, d, rfl, rfl⟩ | none
  · have own : x = c ∨ .registered x ∈ superFacts c e' ∧ x ∈ e'.classNames := by
      rcases List.mem_cons.1 hf with rfl | hf
      · exact .inl (List.mem_singleton.1 hx)
      · exact registered_of_mem_superFacts hf hx
    rcases own with rfl | ⟨registered, occurs⟩
    · exact ⟨List.mem_cons_self, List.mem_append_left _ List.mem_cons_self⟩
    · exact ⟨List.mem_cons_of_mem _ registered, List.mem_append_right _ occurs⟩
  · rw [subsumptionFacts_conjunction] at hf ⊢
    have own : x = d ∨ x ∈ cs := by
      simp only [List.cons_append, List.mem_cons, List.mem_append, List.mem_map] at hf
      rcases hf with rfl | ⟨c, hc, rfl⟩ | rfl | hf
      · exact .inl (List.mem_singleton.1 hx)
      · exact .inr (List.mem_singleton.1 hx ▸ hc)
      · exact List.mem_cons.1 hx
      · exact absurd hf List.not_mem_nil
    rcases own with rfl | hx
    · exact ⟨List.mem_cons_self, List.mem_append_right _ List.mem_cons_self⟩
    · refine ⟨by simp [hx], List.mem_append_left _ ?_⟩
      exact mem_classNames_intersection.2 ⟨_, List.mem_map_of_mem hx, List.mem_cons_self⟩
  · rw [none] at hf
    exact absurd hf List.not_mem_nil

theorem registered_of_mem_equivalenceFacts {e e' : ClassExpression}
    (hf : f ∈ equivalenceFacts e e') (hx : x ∈ f.classNames) :
    .registered x ∈ equivalenceFacts e e' ∧ x ∈ e.classNames ++ e'.classNames := by
  rcases equivalenceFacts_cases e e' with none | told
  · rw [none] at hf
    exact absurd hf List.not_mem_nil
  · rw [told] at hf ⊢
    exact registered_of_mem_subsumptionFacts hf hx

theorem registered_of_mem_disjointFacts {es : List ClassExpression}
    (hf : f ∈ factsOf (.disjointClasses es)) (hx : x ∈ f.classNames) :
    .registered x ∈ factsOf (.disjointClasses es) ∧ x ∈ (Axiom.disjointClasses es).classNames := by
  have own : x ∈ es.filterMap name? := by
    simp only [factsOf, List.mem_append, List.mem_flatMap, List.mem_map, List.mem_filter] at hf
    rcases hf with ⟨c, hc, rfl⟩ | ⟨c, hc, d, ⟨hd, _⟩, rfl⟩
    · exact List.mem_singleton.1 hx ▸ hc
    · rcases List.mem_cons.1 hx with rfl | hx
      · exact hc
      · exact List.mem_singleton.1 hx ▸ hd
  refine ⟨List.mem_append_left _ (List.mem_map_of_mem own), ?_⟩
  obtain ⟨e, he, named⟩ := List.mem_filterMap.1 own
  rw [name?_eq_some] at named
  rw [Axiom.classNames, ClassExpression.classNamesOf_eq_flatMap, List.mem_flatMap]
  exact ⟨e, he, named ▸ List.mem_cons_self⟩

/-- The facts of an axiom are about registered classes only, and those occur in the axiom. -/
theorem registered_of_mem_classNames (hf : f ∈ factsOf a) (hx : x ∈ f.classNames) :
    .registered x ∈ factsOf a ∧ x ∈ a.classNames := by
  cases a with
  | declaration kind c =>
    cases kind with
    | cls =>
      obtain rfl := List.mem_singleton.1 hf
      obtain rfl := List.mem_singleton.1 hx
      exact ⟨List.mem_cons_self, List.mem_cons_self⟩
    | _ => exact absurd hf List.not_mem_nil
  | subClass e e' => exact registered_of_mem_subsumptionFacts hf hx
  | equivalentClasses es =>
    simp only [factsOf, List.mem_flatMap] at hf ⊢
    obtain ⟨e, he, e', he', hf⟩ := hf
    obtain ⟨registered, occurs⟩ := registered_of_mem_equivalenceFacts hf hx
    refine ⟨⟨e, he, e', he', registered⟩, ?_⟩
    rw [Axiom.classNames, ClassExpression.classNamesOf_eq_flatMap, List.mem_flatMap]
    exact (List.mem_append.1 occurs).elim (⟨e, he, ·⟩) (⟨e', he', ·⟩)
  | disjointClasses es => exact registered_of_mem_disjointFacts hf hx
  | objectPropertyDomain p e | objectPropertyRange p e =>
    cases e with
    | named c =>
      have same : x = c := by
        simp only [factsOf, List.mem_cons, List.not_mem_nil, or_false] at hf
        rcases hf with rfl | rfl <;> exact List.mem_singleton.1 hx
      exact same ▸ ⟨List.mem_cons_self, List.mem_cons_self⟩
    | _ => exact absurd hf List.not_mem_nil
  | classAssertion e i =>
    rcases List.mem_cons.1 hf with rfl | hf
    · exact absurd hx List.not_mem_nil
    · exact (registered_of_mem_memberFacts hf hx).imp_left (List.mem_cons_of_mem _)
  | objectPropertyAssertion p i j =>
    simp only [factsOf, List.mem_cons, List.not_mem_nil, or_false] at hf
    rcases hf with rfl | rfl | rfl <;> exact absurd hx List.not_mem_nil
  | _ => exact absurd hf List.not_mem_nil

/-! ### Individuals that are met -/

/-- The individuals that a fact is about. -/
def Fact.individuals : Fact → List Individual
  | .individual i | .member i _ | .nonmember i _ => [i]
  | .related _ i j => [i, j]
  | _ => []

theorem individuals_superFacts {e : ClassExpression} (hf : f ∈ superFacts c e) :
    f.individuals = [] := by
  obtain ⟨d, _, _, shape⟩ := superFacts_shape hf
  rcases shape with rfl | rfl | rfl | rfl | ⟨p, rfl⟩ <;> rfl

theorem individuals_subsumptionFacts {e e' : ClassExpression} (hf : f ∈ subsumptionFacts e e') :
    f.individuals = [] := by
  rcases subsumptionFacts_cases e e' with ⟨c, rfl⟩ | ⟨cs, d, rfl, rfl⟩ | none
  · rcases List.mem_cons.1 hf with rfl | hf
    · rfl
    · exact individuals_superFacts hf
  · rw [subsumptionFacts_conjunction] at hf
    simp only [List.cons_append, List.mem_cons, List.mem_append, List.mem_map, List.not_mem_nil,
      or_false] at hf
    rcases hf with rfl | ⟨d, _, rfl⟩ | rfl <;> rfl
  · rw [none] at hf
    exact absurd hf List.not_mem_nil

/-- The individuals that the facts of an axiom are about are met in it. -/
theorem met_of_mem_individuals (hf : f ∈ factsOf a) (hi : i ∈ f.individuals) :
    .individual i ∈ factsOf a := by
  have none_of (h : f.individuals = []) : .individual i ∈ factsOf a :=
    absurd (h ▸ hi) List.not_mem_nil
  cases a with
  | declaration kind c =>
    cases kind with
    | cls => exact none_of (List.mem_singleton.1 hf ▸ rfl)
    | _ => exact absurd hf List.not_mem_nil
  | subClass e e' => exact none_of (individuals_subsumptionFacts hf)
  | equivalentClasses es =>
    refine none_of ?_
    simp only [factsOf, List.mem_flatMap] at hf
    obtain ⟨e, _, e', _, hf⟩ := hf
    rcases equivalenceFacts_cases e e' with none | told
    · rw [none] at hf
      exact absurd hf List.not_mem_nil
    · exact individuals_subsumptionFacts (told ▸ hf)
  | disjointClasses es =>
    refine none_of ?_
    simp only [factsOf, List.mem_append, List.mem_flatMap, List.mem_map] at hf
    rcases hf with ⟨c, _, rfl⟩ | ⟨c, _, d, _, rfl⟩ <;> rfl
  | objectPropertyDomain p e | objectPropertyRange p e =>
    cases e with
    | named c =>
      simp only [factsOf, List.mem_cons, List.not_mem_nil, or_false] at hf
      rcases hf with rfl | rfl <;> exact none_of rfl
    | _ => exact absurd hf List.not_mem_nil
  | classAssertion e j =>
    have own : i = j := by
      rcases List.mem_cons.1 hf with rfl | hf
      · exact List.mem_singleton.1 hi
      · obtain ⟨d, _, _, shape⟩ := memberFacts_shape hf
        rcases shape with rfl | rfl | rfl
        · exact absurd hi List.not_mem_nil
        · exact List.mem_singleton.1 hi
        · exact List.mem_singleton.1 hi
    exact own ▸ List.mem_cons_self
  | objectPropertyAssertion p j k =>
    have own : i = j ∨ i = k := by
      simp only [factsOf, List.mem_cons, List.not_mem_nil, or_false] at hf
      rcases hf with rfl | rfl | rfl
      · exact .inl (List.mem_singleton.1 hi)
      · exact .inr (List.mem_singleton.1 hi)
      · simpa [Fact.individuals] using hi
    rcases own with rfl | rfl
    · exact List.mem_cons_self
    · exact List.mem_cons_of_mem _ List.mem_cons_self
  | _ => exact absurd hf List.not_mem_nil

/-! ### Terminological facts -/

theorem registered_of_isTold (he : e.IsTold) (hx : x ∈ e.classNames) :
    .registered x ∈ superFacts c e := by
  induction he with
  | named d | complement d | some p d =>
    obtain rfl := List.mem_singleton.1 hx
    exact List.mem_cons_self
  | intersection _ ih =>
    obtain ⟨e, he, hx⟩ := mem_classNames_intersection.1 hx
    exact mem_superFacts_intersection.2 ⟨e, he, ih e he hx⟩

theorem mem_classNames_map_named {cs : List Iri} :
    x ∈ (cs.map ClassExpression.named).flatMap ClassExpression.classNames ↔ x ∈ cs := by
  simp [ClassExpression.classNames]

/-- A terminological axiom registers all classes that occur in it. -/
theorem registered_of_isTerminological (ha : a.IsTerminological) (hx : x ∈ a.classNames) :
    .registered x ∈ factsOf a := by
  cases ha with
  | declaration kind y =>
    cases kind with
    | cls => exact List.mem_singleton.1 hx ▸ List.mem_cons_self
    | _ => exact absurd hx List.not_mem_nil
  | disjointClasses =>
    rw [Axiom.classNames, ClassExpression.classNamesOf_eq_flatMap, mem_classNames_map_named] at hx
    simp only [factsOf, filterMap_name?]
    exact List.mem_append_left _ (List.mem_map_of_mem hx)
  | domain p c => exact List.mem_singleton.1 hx ▸ List.mem_cons_self
  | conjunction cs c =>
    rw [factsOf, subsumptionFacts_conjunction]
    rcases List.mem_append.1 hx with hx | hx
    · rw [ClassExpression.classNames, ClassExpression.classNamesOf_eq_flatMap,
        mem_classNames_map_named] at hx
      simp [hx]
    · exact List.mem_singleton.1 hx ▸ List.mem_cons_self
  | subClass c he =>
    rcases List.mem_append.1 hx with hx | hx
    · exact List.mem_singleton.1 hx ▸ List.mem_cons_self
    · exact List.mem_cons_of_mem _ (registered_of_isTold he hx)

/-- Facts that say nothing of individuals or of the targets of a property. -/
def Fact.IsTerminological : Fact → Prop
  | .registered _ | .subclass .. | .conjunction .. | .existential .. | .disjoint .. | .domain .. =>
    True
  | .range .. | .individual _ | .member .. | .nonmember .. | .related .. => False

theorem isTerminological_of_mem (ha : a.IsTerminological) (hf : f ∈ factsOf a) :
    f.IsTerminological := by
  cases ha with
  | declaration kind y =>
    cases kind with
    | cls => exact List.mem_singleton.1 hf ▸ trivial
    | _ => exact absurd hf List.not_mem_nil
  | disjointClasses =>
    simp only [factsOf, List.mem_append, List.mem_flatMap, List.mem_map] at hf
    rcases hf with ⟨c, _, rfl⟩ | ⟨c, _, d, _, rfl⟩ <;> trivial
  | domain p c =>
    simp only [factsOf, List.mem_cons, List.not_mem_nil, or_false] at hf
    rcases hf with rfl | rfl <;> trivial
  | conjunction cs c =>
    rw [factsOf, subsumptionFacts_conjunction] at hf
    simp only [List.cons_append, List.mem_cons, List.mem_append, List.mem_map, List.not_mem_nil,
      or_false] at hf
    rcases hf with rfl | ⟨d, _, rfl⟩ | rfl <;> trivial
  | subClass c he =>
    rcases List.mem_cons.1 hf with rfl | hf
    · trivial
    · obtain ⟨d, _, _, shape⟩ := superFacts_shape hf
      rcases shape with rfl | rfl | rfl | rfl | ⟨p, rfl⟩ <;> trivial

end

end Reasoner

end TabularOntology
