import TabularOntology.Proofs.Reasoner.Meaning

/-! A calculus of facts. It says which classes an individual has to be in that is in all
classes of a set, as far as the facts tell. The calculus is sound in every interpretation
that makes the facts true. For terminological facts it is complete: the registered
classes that it does not find empty are the individuals of an interpretation in which each of
them is in just those classes that follow from it. -/

namespace TabularOntology.Reasoner

universe u v

/-- The classes of an individual that is in all classes of a set. -/
inductive Follows (fs : List Fact) : Set Iri → Iri → Prop
  | given {B : Set Iri} {c : Iri} (h : c ∈ B) : Follows fs B c
  | subclass {B : Set Iri} {c d : Iri} (h : .subclass c d ∈ fs) (hc : Follows fs B c) :
      Follows fs B d
  | conjunction {B : Set Iri} {cs : List Iri} {d : Iri} (h : .conjunction cs d ∈ fs)
      (hc : ∀ c ∈ cs, Follows fs B c) : Follows fs B d
  | emptyFiller {B : Set Iri} {c p d : Iri} (h : .existential c p d ∈ fs) (hc : Follows fs B c)
      (hd : Follows fs {d} Vocabulary.nothing) : Follows fs B Vocabulary.nothing
  | domain {B : Set Iri} {c p d e : Iri} (h : .existential c p d ∈ fs) (he : .domain p e ∈ fs)
      (hc : Follows fs B c) : Follows fs B e
  | disjoint {B : Set Iri} {c d : Iri} (h : .disjoint c d ∈ fs) (hc : Follows fs B c)
      (hd : Follows fs B d) : Follows fs B Vocabulary.nothing

section
variable {fs : List Fact} {B C : Set Iri} {c d : Iri}

/-- What follows from consequences follows. -/
theorem Follows.trans (h : Follows fs C d) (hB : ∀ c ∈ C, Follows fs B c) : Follows fs B d := by
  induction h with
  | given hc => exact hB _ hc
  | subclass h _ ih => exact .subclass h (ih hB)
  | conjunction h _ ih => exact .conjunction h fun c hc => ih c hc hB
  | emptyFiller h _ hd ih _ => exact .emptyFiller h (ih hB) hd
  | domain h he _ ih => exact .domain h he (ih hB)
  | disjoint h _ _ ihc ihd => exact .disjoint h (ihc hB) (ihd hB)

/-- A set of classes to which the rules add nothing, given superclasses of all classes. -/
structure IsSaturated (fs : List Fact) (supers : Iri → Set Iri) (s : Set Iri) : Prop where
  superclass : ∀ c ∈ s, supers c ⊆ s
  conjunction : ∀ cs d, .conjunction cs d ∈ fs → (∀ c ∈ cs, c ∈ s) → d ∈ s
  emptyFiller : ∀ c p d, .existential c p d ∈ fs → c ∈ s → Vocabulary.nothing ∈ supers d →
    Vocabulary.nothing ∈ s
  domain : ∀ c p d e, .existential c p d ∈ fs → .domain p e ∈ fs → c ∈ s → e ∈ s
  disjoint : ∀ c d, .disjoint c d ∈ fs → c ∈ s → d ∈ s → Vocabulary.nothing ∈ s

/-- A saturated set has what follows from it, if superclasses have what is told and those of the
fillers of existentials are saturated. -/
theorem IsSaturated.mem_of_follows {supers : Iri → Set Iri} {s : Set Iri}
    (h : IsSaturated fs supers s) (told : ∀ c d, .subclass c d ∈ fs → d ∈ supers c)
    (fillers : ∀ c p d, .existential c p d ∈ fs → d ∈ supers d ∧ IsSaturated fs supers (supers d))
    (hd : Follows fs B d) (hB : B ⊆ s) : d ∈ s := by
  induction hd generalizing s with
  | given hb => exact hB hb
  | subclass hf _ ih => exact h.superclass _ (ih h hB) (told _ _ hf)
  | conjunction hf _ ih => exact h.conjunction _ _ hf fun c hc => ih c hc h hB
  | emptyFiller hf _ _ ih ihFiller =>
    obtain ⟨self, saturated⟩ := fillers _ _ _ hf
    have empty : Vocabulary.nothing ∈ supers _ :=
      ihFiller saturated (Set.singleton_subset_iff.2 self)
    exact h.emptyFiller _ _ _ hf (ih h hB) empty
  | domain hf he _ ih => exact h.domain _ _ _ _ hf he (ih h hB)
  | disjoint hf _ _ ihc ihd => exact h.disjoint _ _ hf (ihc h hB) (ihd h hB)

/-- No classes follow but the given ones, the empty one and those that facts are about. -/
theorem Follows.mem_or_mentioned (h : Follows fs B c) :
    c ∈ B ∨ c = Vocabulary.nothing ∨ ∃ f ∈ fs, c ∈ f.classNames := by
  cases h with
  | given h => exact .inl h
  | subclass h => exact .inr (.inr ⟨_, h, by simp [Fact.classNames]⟩)
  | conjunction h => exact .inr (.inr ⟨_, h, by simp [Fact.classNames]⟩)
  | emptyFiller => exact .inr (.inl rfl)
  | domain _ he => exact .inr (.inr ⟨_, he, by simp [Fact.classNames]⟩)
  | disjoint => exact .inr (.inl rfl)

/-! ### Soundness -/

variable {Δ : Type u} {V : Type v} {I : Interpretation Δ V} {x : Δ}

theorem notMem_classes_nothing (I : Interpretation Δ V) (x : Δ) :
    x ∉ I.classes Vocabulary.nothing := by
  rw [I.classes_nothing]
  exact Set.notMem_empty x

/-- An individual is in all classes that follow from its classes. -/
theorem Follows.mem_classes (h : Follows fs B c) (hI : AllHold I fs)
    (hx : ∀ b ∈ B, x ∈ I.classes b) : x ∈ I.classes c := by
  induction h generalizing x with
  | given h => exact hx _ h
  | subclass h _ ih => exact hI _ h (ih hx)
  | conjunction h _ ih => exact hI _ h x fun c hc => ih c hc hx
  | emptyFiller h _ _ ihc ihd =>
    obtain ⟨y, _, hy⟩ := hI _ h x (ihc hx)
    have empty : y ∈ I.classes Vocabulary.nothing := ihd fun b hb => hb ▸ hy
    exact absurd empty (notMem_classes_nothing I y)
  | domain h he _ ih =>
    obtain ⟨y, hxy, _⟩ := hI _ h x (ih hx)
    exact hI _ he x y hxy
  | disjoint h _ _ ihc ihd =>
    have apart : Disjoint (I.classes _) (I.classes _) := hI _ h
    exact absurd (ihd hx) (Set.disjoint_left.1 apart (ihc hx))

theorem Follows.subset_classes (h : Follows fs {c} d) (hI : AllHold I fs) :
    I.classes c ⊆ I.classes d :=
  fun _ hx => h.mem_classes hI fun _ hb => hb ▸ hx

theorem Follows.classes_eq_empty (h : Follows fs {c} Vocabulary.nothing) (hI : AllHold I fs) :
    I.classes c = ∅ :=
  Set.subset_eq_empty (h.subset_classes hI) I.classes_nothing

end

/-! ### Completeness -/

/-- A registered class that is not found empty. -/
def IsPossible (fs : List Fact) (c : Iri) : Prop :=
  .registered c ∈ fs ∧ ¬ Follows fs {c} Vocabulary.nothing

/-- The interpretation whose individuals are the possible classes, each with all that follows from
it; a property relates each to what its existentials ask for. -/
def canonical (fs : List Fact) (c : Iri) (hc : IsPossible fs c) :
    Interpretation (ULift.{u} {c : Iri // IsPossible fs c}) PUnit.{v + 1} where
  classes d := {x | d = Vocabulary.thing ∨ Follows fs {x.down.val} d}
  objectProperties p := {e | ∃ d, .existential d p e.2.down.val ∈ fs ∧ Follows fs {e.1.down.val} d}
  dataProperties _ := ∅
  datatypes _ := ∅
  individuals _ := ⟨⟨c, hc⟩⟩
  literals _ := .unit
  classes_thing := Set.eq_univ_of_forall fun _ => .inl rfl
  classes_nothing := by
    refine Set.eq_empty_of_forall_notMem ?_
    rintro x (h | h)
    · exact absurd h (by decide)
    · exact x.down.property.2 h

section
variable {fs : List Fact} {c d : Iri}

theorem mem_classes_canonical (hc : IsPossible fs c) (hd : d ≠ Vocabulary.thing)
    (x : ULift.{u} {c : Iri // IsPossible fs c}) :
    x ∈ (canonical.{u, v} fs c hc).classes d ↔ Follows fs {x.down.val} d :=
  or_iff_right hd

/-- Terminological facts about registered classes, none of which is the class of all
individuals. -/
structure IsClosed (fs : List Fact) : Prop where
  terminological : ∀ f ∈ fs, f.IsTerminological
  registered : ∀ f ∈ fs, ∀ x ∈ f.classNames, .registered x ∈ fs
  proper : ∀ f ∈ fs, ∀ x ∈ f.classNames, x ≠ Vocabulary.thing

theorem IsClosed.allHold_canonical (h : IsClosed fs) (hc : IsPossible fs c) :
    AllHold (canonical.{u, v} fs c hc) fs := by
  have mem {d : Iri} (hd : d ≠ Vocabulary.thing) (x : ULift.{u} {c : Iri // IsPossible fs c}) :=
    mem_classes_canonical.{u, v} hc hd x
  intro f hf
  have proper := h.proper f hf
  have told := h.terminological f hf
  cases f with
  | registered => trivial
  | subclass a b =>
    have ha : a ≠ Vocabulary.thing := proper a (by simp [Fact.classNames])
    have hb : b ≠ Vocabulary.thing := proper b (by simp [Fact.classNames])
    intro x hx
    rw [mem ha] at hx
    rw [mem hb]
    exact .subclass hf hx
  | conjunction as b =>
    have hb : b ≠ Vocabulary.thing := proper b (by simp [Fact.classNames])
    intro x hx
    rw [mem hb]
    refine .conjunction hf fun a ha => ?_
    rw [← mem (proper a (by simp [Fact.classNames, ha]))]
    exact hx a ha
  | existential a p b =>
    have ha : a ≠ Vocabulary.thing := proper a (by simp [Fact.classNames])
    have hb : b ≠ Vocabulary.thing := proper b (by simp [Fact.classNames])
    intro x hx
    rw [mem ha] at hx
    -- the filler is possible, since the individual itself is
    have possible : IsPossible fs b :=
      ⟨h.registered _ hf b (by simp [Fact.classNames]),
        fun empty => x.down.property.2 (.emptyFiller hf hx empty)⟩
    refine ⟨⟨⟨b, possible⟩⟩, ⟨a, hf, hx⟩, ?_⟩
    rw [mem hb]
    exact .given rfl
  | disjoint a b =>
    have ha : a ≠ Vocabulary.thing := proper a (by simp [Fact.classNames])
    have hb : b ≠ Vocabulary.thing := proper b (by simp [Fact.classNames])
    refine Set.disjoint_left.2 fun x hxa hxb => ?_
    rw [mem ha] at hxa
    rw [mem hb] at hxb
    exact x.down.property.2 (.disjoint hf hxa hxb)
  | domain p a =>
    have ha : a ≠ Vocabulary.thing := proper a (by simp [Fact.classNames])
    rintro x y ⟨b, hb, hx⟩
    rw [mem ha]
    exact .domain hb hf hx
  | range | individual | member | nonmember | related => exact absurd told not_false

end

end TabularOntology.Reasoner
