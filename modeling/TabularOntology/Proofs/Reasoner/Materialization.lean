import TabularOntology.Proofs.Reasoner.Consequences

/-! Materialization is idempotent. An inferred axiom tells nothing that the least families do not
have already, so an ontology that the inferred axioms are added to has the same least families as
before. A second verdict is read off the same families; it repeats the first one, and all that it
could infer has a key that is stored by now. -/

namespace TabularOntology.Reasoner

variable {F : Consequences} {fs gs : List Fact} {f : Fact} {c d : Iri} {i : Individual}
variable {a : Axiom} {as : List Axiom} {o : Ontology}

namespace Consequences

/-! ### What least families are about -/

/-- The families of all classes of some facts and all individuals that are met in them. -/
def all (fs : List Fact) : Consequences where
  supers c := {d | IsClass fs c ∧ IsClass fs d}
  types i := {c | .individual i ∈ fs ∧ IsClass fs c}

theorem isSaturated_isClass (h : IsWellFormed fs) (supers : Iri → Set Iri)
    (hs : ∀ c d, d ∈ supers c → IsClass fs d) : IsSaturated fs supers {c | IsClass fs c} where
  superclass c _ d := hs c d
  conjunction cs d hf _ := .inr (h.registered _ hf d (by simp [Fact.classNames]))
  emptyFiller _ _ _ _ _ _ := .inl rfl
  domain _ p _ e _ he _ := .inr (h.registered _ he e (by simp [Fact.classNames]))
  disjoint _ _ _ _ _ := .inl rfl

theorem obeys_all (h : IsWellFormed fs) : (all fs).Obeys fs where
  self c hc := ⟨hc, hc⟩
  told c d hf := ⟨.inr (h.registered _ hf c (by simp [Fact.classNames])),
    .inr (h.registered _ hf d (by simp [Fact.classNames]))⟩
  given i c hc := by
    refine ⟨h.met_of_given hc, .inr ?_⟩
    obtain ⟨f, hf, hc⟩ := hc.mem_classNames
    exact h.registered f hf c hc
  supers c hc := by
    have every : (all fs).supers c = {d | IsClass fs d} := Set.ext fun d => and_iff_right hc
    exact every ▸ isSaturated_isClass h _ fun _ _ hd => hd.2
  types i hi := by
    have every : (all fs).types i = {c | IsClass fs c} := Set.ext fun c => and_iff_right hi
    exact every ▸ isSaturated_isClass h _ fun _ _ hd => hd.2

theorem AreLeast.isClass_of_mem_supers (h : F.AreLeast fs) (hfs : IsWellFormed fs)
    (hd : d ∈ F.supers c) : IsClass fs c ∧ IsClass fs d :=
  (h.2 (obeys_all hfs)).1 c hd

theorem AreLeast.isClass_of_mem_types (h : F.AreLeast fs) (hfs : IsWellFormed fs)
    (hc : c ∈ F.types i) : .individual i ∈ fs ∧ IsClass fs c :=
  (h.2 (obeys_all hfs)).2 i hc

/-! ### Facts that change nothing -/

/-- A fact that families of other facts have already. -/
def Has (F : Consequences) (fs : List Fact) : Fact → Prop
  | .registered c => IsClass fs c
  | .subclass c d => d ∈ F.supers c
  | .member i c => c ∈ F.types i
  | f => f ∈ fs

theorem Has.mem_of_isRule (h : F.Has fs f) (rule : f.IsRule) : f ∈ fs := by
  cases f with
  | conjunction | existential | disjoint | domain => exact h
  | _ => exact rule.elim

/-- Families of some facts are families of more facts that they have already. -/
theorem Obeys.extend (h : F.Obeys fs) (has : ∀ f ∈ gs, F.Has fs f) : F.Obeys gs := by
  have known (c : Iri) (hc : IsClass gs c) : IsClass fs c := hc.elim .inl (has (.registered c))
  have saturated {s : Set Iri} (hs : IsSaturated fs F.supers s) : IsSaturated gs F.supers s :=
    hs.mono fun f hf => (has f hf).mem_of_isRule
  constructor
  · exact fun c hc => h.self c (known c hc)
  · exact fun c d hf => has _ hf
  · intro i c hc
    cases hc with
    | member hf => exact has _ hf
    | source hf he => exact h.given i c (.source (has _ hf) (has _ he))
    | target hf he => exact h.given i c (.target (has _ hf) (has _ he))
  · exact fun c hc => saturated (h.supers c (known c hc))
  · exact fun i hi => saturated (h.types i (has _ hi))

theorem AreLeast.extend (h : F.AreLeast fs) (sub : fs ⊆ gs) (has : ∀ f ∈ gs, F.Has fs f) :
    F.AreLeast gs :=
  ⟨h.1.extend has, fun _ hG => h.2 (Obeys.anti hG sub)⟩

/-- What is told is had. -/
theorem Obeys.has_of_mem (h : F.Obeys fs) (hf : f ∈ fs) : F.Has fs f := by
  cases f with
  | registered c => exact .inr hf
  | subclass c d => exact h.told c d hf
  | member i c => exact h.given i c (.member hf)
  | _ => exact hf

/-- All that a derived axiom tells is had. -/
theorem AreLeast.has_of_derives (h : F.AreLeast fs) (hfs : IsWellFormed fs) (ha : F.Derives a)
    (hf : f ∈ factsOf a) : F.Has fs f := by
  cases ha with
  | subClass hc hd hne ht =>
    obtain ⟨lower, upper⟩ := h.isClass_of_mem_supers hfs hd
    simp only [factsOf, subsumptionFacts, superFacts, List.mem_cons, List.not_mem_nil,
      or_false] at hf
    rcases hf with rfl | rfl | rfl
    · exact lower
    · exact upper
    · exact hd
  | classAssertion hc ht =>
    obtain ⟨met, registered⟩ := h.isClass_of_mem_types hfs hc
    simp only [factsOf, memberFacts, List.mem_cons, List.not_mem_nil, or_false] at hf
    rcases hf with rfl | rfl | rfl
    · exact met
    · exact registered
    · exact hc

end Consequences

/-! ### The second verdict -/

theorem told_subset_told_insertAll (o : Ontology) (as : List Axiom) :
    told o ⊆ told (o.insertAll as) := by
  intro f hf
  obtain ⟨a, ha, hf⟩ := mem_told.1 hf
  exact mem_told.2 ⟨a, o.axioms_subset_insertAll as ha, hf⟩

theorem exists_of_mem_told_insertAll (hf : f ∈ told (o.insertAll as)) :
    f ∈ told o ∨ ∃ a ∈ as, f ∈ factsOf a := by
  obtain ⟨a, ha, hf⟩ := mem_told.1 hf
  rcases List.mem_append.1 (Ontology.axioms_insertAll_subset ha) with ha | ha
  · exact .inl (mem_told.2 ⟨a, ha, hf⟩)
  · exact .inr ⟨a, ha, hf⟩

/-- Adding derived axioms leaves the least families as they are. -/
theorem Consequences.AreLeast.insertAll (h : F.AreLeast (told o)) (has : ∀ a ∈ as, F.Derives a) :
    F.AreLeast (told (o.insertAll as)) ∧ ∀ f ∈ told (o.insertAll as), F.Has (told o) f := by
  have had : ∀ f ∈ told (o.insertAll as), F.Has (told o) f := by
    intro f hf
    rcases exists_of_mem_told_insertAll hf with hf | ⟨a, ha, hf⟩
    · exact h.1.has_of_mem hf
    · exact h.has_of_derives (isWellFormed_told o) (has a ha) hf
  exact ⟨h.extend (told_subset_told_insertAll o as) had, had⟩

/-- Nothing is inferred from an ontology that all inferred axioms are added to. -/
theorem Verdict.IsExact.eq_nil_of_insertAll {v w : Verdict} {bs : List Axiom}
    (hv : v.IsExact o F) (has : v.inferred = some as) (hw : w.IsExact (o.insertAll as) F)
    (hbs : w.inferred = some bs) : bs = [] := by
  rw [List.eq_nil_iff_forall_not_mem]
  intro a ha
  obtain ⟨derived, free⟩ := (hw.inferred bs hbs a).1 ha
  refine Ontology.not_contains_iff.2 free ?_
  rw [Ontology.contains_iff_mem_keys, Ontology.mem_keys_insertAll]
  by_cases stored : o.contains a
  · exact .inl (Ontology.contains_iff_mem_keys.1 stored)
  · exact .inr ⟨a, (hv.inferred as has a).2 ⟨derived, Ontology.not_contains_iff.1 stored⟩, rfl⟩

/-- An ontology that its inferred axioms are added to is consistent, has the same unsatisfiable
classes, and nothing more is inferred from it. -/
theorem check_insertAll_inferred {options : Options} {v : Verdict}
    (answer : check options o = .ok v) (materialize : options.materialize)
    (consistent : v.consistent) : ∃ as, v.inferred = some as ∧
      ∀ options' w, check options' (o.insertAll as) = .ok w → w.consistent ∧
        w.unsatisfiable.toList = v.unsatisfiable.toList ∧
        (options'.materialize → w.inferred = some []) := by
  obtain ⟨F, least, exact⟩ := exists_areLeast_of_check answer
  obtain ⟨as, has⟩ :=
    Option.isSome_iff_exists.1 ((isSome_inferred_iff answer).2 ⟨materialize, consistent⟩)
  refine ⟨as, has, fun options' w answer' => ?_⟩
  obtain ⟨least', had⟩ := least.insertAll fun a ha => ((exact.inferred as has a).1 ha).1
  obtain ⟨G, leastG, exact'⟩ := exists_areLeast_of_check answer'
  obtain rfl : G = F := leastG.unique least'
  have still : w.consistent := by
    rw [exact.consistent_eq exact' fun i c => ⟨had _, fun hf => told_subset_told_insertAll o as hf⟩]
    exact consistent
  refine ⟨still, exact.unsatisfiable_eq exact', fun materialize' => ?_⟩
  obtain ⟨bs, hbs⟩ :=
    Option.isSome_iff_exists.1 ((isSome_inferred_iff answer').2 ⟨materialize', still⟩)
  rw [hbs, exact.eq_nil_of_insertAll has exact' hbs]

/-- The class of a member is inferred once. -/
theorem check_insertAll_inferred_inhabited : ∃ v w as, check {} inhabited = .ok v ∧
    v.inferred = some as ∧ as ≠ [] ∧ check {} (inhabited.insertAll as) = .ok w ∧ w.consistent ∧
    w.unsatisfiable.toList = [⟨"urn:e"⟩] ∧ w.inferred = some [] := by
  obtain ⟨s, answer, consistent, empty, inferred⟩ := check_inhabited
  obtain ⟨as, has, second⟩ := check_insertAll_inferred answer rfl (by
    rw [Saturation.verdict, consistent]
    rfl)
  obtain rfl : as = [.classAssertion (.named ⟨"urn:b"⟩) (.named ⟨"urn:x"⟩)] := by
    rw [Verdict.inferred_eq consistent, inferred] at has
    exact (Option.some.inj has).symm
  obtain ⟨w, answer'⟩ : ∃ w, check {} (inhabited.insertAll
      [.classAssertion (.named ⟨"urn:b"⟩) (.named ⟨"urn:x"⟩)]) = .ok w := by
    obtain ⟨t, saturated⟩ := Option.isSome_iff_exists.1 (show (saturate 100000 (inhabited.insertAll
      [.classAssertion (.named ⟨"urn:b"⟩) (.named ⟨"urn:x"⟩)])).isSome by decide +kernel)
    exact ⟨t.verdict true _, by rw [check, if_neg (by decide), saturated]⟩
  obtain ⟨still, same, nothing⟩ := second {} _ answer'
  exact ⟨_, _, _, answer, has, by simp, answer', still, same.trans empty, nothing rfl⟩

end TabularOntology.Reasoner
