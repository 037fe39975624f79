import TabularOntology.Proofs.Reasoner.Soundness

/-! The verdict of the reasoner is complete on terminological axioms. Saturation finds all
that follows in the calculus, and what does not follow is false in the canonical
interpretation, which is a model of the axioms. So the classes that are empty in every
model are reported, and subsumptions between other classes are found in the ontology or
among what is inferred. An inferred axiom is passed over when the ontology has an axiom
with its key, so this is true of subsumptions whose key no other axiom has. -/

namespace TabularOntology

/-- The axioms are terminological and do not mention the class of all individuals. -/
structure Ontology.IsTerminological (o : Ontology) : Prop where
  axioms : ∀ a ∈ o.axioms, a.IsTerminological
  proper : Vocabulary.thing ∉ o.signature

/-- No other axiom of the ontology has the key of the axiom. -/
def Ontology.TellsApart (o : Ontology) (a : Axiom) : Prop := ∀ b ∈ o.axioms, b.key = a.key → b = a

theorem Ontology.not_contains_iff {o : Ontology} {a : Axiom} : ¬ o.contains a ↔
    a ∉ o.axioms ∧ o.TellsApart a := by
  rw [Ontology.contains_iff]
  constructor
  · intro free
    exact ⟨fun ha => free ⟨a, ha, rfl⟩, fun b hb same => absurd ⟨b, hb, same⟩ free⟩
  · rintro ⟨new, apart⟩ ⟨b, hb, same⟩
    exact new (apart b hb same ▸ hb)

namespace Reasoner

universe u v

variable {o : Ontology} {c d : Iri} {s : Saturation}

/-! ### The canonical model -/

theorem isClosed_told (h : o.IsTerminological) : IsClosed (told o) where
  terminological f hf := by
    obtain ⟨a, ha, hf⟩ := mem_told.1 hf
    exact isTerminological_of_mem (h.axioms a ha) hf
  registered f hf x hx := by
    obtain ⟨a, ha, hf⟩ := mem_told.1 hf
    exact mem_told.2 ⟨a, ha, (registered_of_mem_classNames hf hx).1⟩
  proper f hf x hx := by
    rintro rfl
    obtain ⟨a, ha, hx⟩ := exists_mem_classNames hf hx
    exact h.proper (Ontology.mem_signature.2 ⟨a, ha, a.classNames_subset_iris hx⟩)

theorem models_canonical (h : o.IsTerminological) (hc : IsPossible (told o) c) :
    (canonical.{u, v} (told o) c hc).Models o.axioms := by
  have all : AllHold (canonical.{u, v} (told o) c hc) (told o) :=
    (isClosed_told h).allHold_canonical hc
  intro a ha
  refine satisfies_of_allHold (h.axioms a ha) fun f hf => ?_
  exact all f (mem_told.2 ⟨a, ha, hf⟩)

theorem registered_of_occurs (h : o.IsTerminological) (hc : ∃ a ∈ o.axioms, c ∈ a.classNames) :
    .registered c ∈ told o := by
  obtain ⟨a, ha, hc⟩ := hc
  exact mem_told.2 ⟨a, ha, registered_of_isTerminological (h.axioms a ha) hc⟩

/-- A possible class has a member in some model. -/
theorem nonempty_canonical (hc : IsPossible (told o) c) :
    ((canonical.{u, v} (told o) c hc).classes c).Nonempty :=
  ⟨⟨⟨c, hc⟩⟩, .inr (.given rfl)⟩

/-- What is entailed of a possible class follows from it. -/
theorem follows_of_entails (h : o.IsTerminological) (hc : IsPossible (told o) c)
    (hd : d ≠ Vocabulary.thing)
    (entailed : Entails.{u, v} o.axioms (.subClass (.named c) (.named d))) :
    Follows (told o) {c} d := by
  have sub : (canonical.{u, v} (told o) c hc).classes c ⊆
      (canonical.{u, v} (told o) c hc).classes d :=
    entailed _ _ _ (models_canonical h hc)
  have member := sub (a := ⟨⟨c, hc⟩⟩) (.inr (.given rfl))
  exact (mem_classes_canonical.{u, v} hc hd _).1 member

/-! ### The saturated sets -/

namespace Saturation

theorem Fits.mem_supers_iff (fits : s.Fits (told o)) (h : o.IsTerminological)
    (hc : .registered c ∈ told o) : d ∈ s.supers.of c ↔ Follows (told o) {c} d := by
  have fillers : ∀ a p b, .existential a p b ∈ told o → .registered b ∈ told o :=
    fun a p b hf => (isClosed_told h).registered _ hf b (by simp [Fact.classNames])
  refine fits.supers.mem_iff_follows ?_ fillers (Facts.mem_classes_ofList.2 (.inr hc))
  exact fits.facts ▸ fits.fixed

theorem Fits.isPossible (fits : s.Fits (told o)) (h : o.IsTerminological)
    (hc : .registered c ∈ told o) (hn : c ≠ Vocabulary.nothing) (hs : c ∉ s.unsatisfiable) :
    IsPossible (told o) c := by
  refine ⟨hc, fun empty => hs (mem_unsatisfiable.2 ⟨?_, hn, ?_⟩)⟩
  · rw [fits.facts]
    exact Facts.mem_classes_ofList.2 (.inr hc)
  · exact (fits.mem_supers_iff h hc).2 empty

theorem Fits.explanation_eq_none (fits : s.Fits (told o)) (h : o.IsTerminological)
    (hc : IsPossible (told o) c) : s.explanation = none := by
  by_contra explained
  exact fits.not_allHold explained ((isClosed_told h).allHold_canonical.{0, 0} hc)

theorem Fits.mem_unsatisfiable_iff (fits : s.Fits (told o)) (h : o.IsTerminological)
    (hc : .registered c ∈ told o) (hn : c ≠ Vocabulary.nothing) : c ∈ s.unsatisfiable ↔
      ∀ (Δ : Type u) (V : Type v) (I : Interpretation Δ V),
        I.Models o.axioms → I.classes c = ∅ := by
  constructor
  · intro hs Δ V I hI
    exact fits.classes_eq_empty (allHold_told hI) hs
  · intro empty
    by_contra hs
    have possible : IsPossible (told o) c := fits.isPossible h hc hn hs
    have nonempty := nonempty_canonical.{u, v} possible
    exact nonempty.ne_empty (empty _ _ _ (models_canonical h possible))

theorem Fits.mem_subsumptions_of_entails (fits : s.Fits (told o)) (h : o.IsTerminological)
    (hc : IsPossible (told o) c) (hn : c ≠ Vocabulary.nothing) (hdc : d ≠ c)
    (hd : d ≠ Vocabulary.thing)
    (entailed : Entails.{u, v} o.axioms (.subClass (.named c) (.named d))) :
    .subClass (.named c) (.named d) ∈ s.subsumptions := by
  have follows : Follows (told o) {c} d := follows_of_entails h hc hd entailed
  refine mem_subsumptions.2 ⟨c, d, rfl, ?_, hn, ?_, hdc, hd⟩
  · rw [fits.facts]
    exact Facts.mem_classes_ofList.2 (.inr hc.1)
  · exact (fits.mem_supers_iff h hc.1).2 follows

end Saturation

/-! ### The verdict -/

theorem Verdict.inferred_eq (h : s.explanation = none) :
    (s.verdict true o).inferred = some (s.inferred o) := by
  rw [Saturation.verdict, h]
  rfl

/-- The answer on terminological axioms with materialization: a class is reported just if it
is empty in every model, and a subsumption of a class that is not reported is entailed just
if it is an axiom or inferred, given that no other axiom has its key. -/
theorem check_complete {options : Options} {v : Verdict} (answer : check options o = .ok v)
    (materialize : options.materialize) (h : o.IsTerminological)
    (hc : ∃ a ∈ o.axioms, c ∈ a.classNames) (hn : c ≠ Vocabulary.nothing) :
    (c ∈ v.unsatisfiable ↔ ∀ (Δ : Type u) (V : Type v) (I : Interpretation Δ V),
      I.Models o.axioms → I.classes c = ∅) ∧
    (c ∉ v.unsatisfiable → ∀ d, d ≠ c → d ≠ Vocabulary.thing →
      o.TellsApart (.subClass (.named c) (.named d)) →
      (Entails.{u, v} o.axioms (.subClass (.named c) (.named d)) ↔
        .subClass (.named c) (.named d) ∈ o.axioms ∨
        ∃ as, v.inferred = some as ∧ .subClass (.named c) (.named d) ∈ as)) := by
  have registered : .registered c ∈ told o := registered_of_occurs h hc
  obtain ⟨s, fits, rfl⟩ := exists_of_check answer
  rw [materialize]
  refine ⟨fits.mem_unsatisfiable_iff h registered hn, fun hs d hdc hd apart => ?_⟩
  have possible : IsPossible (told o) c := fits.isPossible h registered hn hs
  have inferred := Verdict.inferred_eq (o := o) (fits.explanation_eq_none h possible)
  constructor
  · intro entailed
    by_cases stored : o.contains (.subClass (.named c) (.named d))
    · exact .inl (Ontology.mem_of_contains stored apart)
    · have found := fits.mem_subsumptions_of_entails h possible hn hdc hd entailed
      exact .inr ⟨_, inferred, Saturation.mem_inferred.2 ⟨.inl found, stored⟩⟩
  · rintro (ha | ⟨as, has, ha⟩) Δ V I hI
    · exact hI _ ha
    · rw [inferred] at has
      obtain rfl := Option.some.inj has
      exact fits.satisfies_of_mem_inferred (allHold_told hI) ha

/-- Axioms with plain names are told apart. -/
theorem tellsApart_of_isPlain {a : Axiom} (h : ∀ b ∈ o.axioms, b.isPlain) (ha : a.isPlain) :
    o.TellsApart a :=
  fun b hb same => Axiom.eq_of_key_eq (h b hb) ha same

theorem isTerminological_torn : torn.IsTerminological where
  axioms a ha := by
    have listed := Ontology.axioms_ofAxioms_subset ha
    simp only [List.mem_cons, List.not_mem_nil, or_false] at listed
    rcases listed with rfl | rfl | rfl
    · refine .subClass _ (.intersection fun e he => ?_)
      simp only [List.mem_cons, List.not_mem_nil, or_false] at he
      rcases he with rfl | rfl
      · exact .named _
      · exact .complement _
    · exact .subClass _ (.some _ _)
    · exact .domain _ _
  proper := by decide +kernel

/-- The torn class is empty in every model, and no more is entailed of the other one than
what is inferred. -/
theorem check_complete_torn : ∃ v, check {} torn = .ok v ∧ torn.IsTerminological ∧
    ⟨"urn:a"⟩ ∈ v.unsatisfiable ∧
    (∀ (Δ V : Type) (I : Interpretation Δ V), I.Models torn.axioms → I.classes ⟨"urn:a"⟩ = ∅) ∧
    ⟨"urn:c"⟩ ∉ v.unsatisfiable ∧
    ¬ Entails.{0, 0} torn.axioms (.subClass (.named ⟨"urn:c"⟩) (.named ⟨"urn:b"⟩)) := by
  obtain ⟨s, answer, consistent, empty, _, hsupers⟩ := check_torn
  have ha : ⟨"urn:a"⟩ ∈ s.unsatisfiable := by
    rw [← Std.TreeSet.mem_toList, empty]
    decide
  have hc : ⟨"urn:c"⟩ ∉ s.unsatisfiable := by
    rw [← Std.TreeSet.mem_toList, empty]
    decide
  have hb : ⟨"urn:b"⟩ ∉ s.supers.of ⟨"urn:c"⟩ := by
    rw [← Std.TreeSet.mem_toList, hsupers]
    decide
  have left := check_complete (c := ⟨"urn:a"⟩) answer rfl isTerminological_torn
    (by decide +kernel) (by decide)
  have right := check_complete (c := ⟨"urn:c"⟩) answer rfl isTerminological_torn
    (by decide +kernel) (by decide)
  have apart : torn.TellsApart (.subClass (.named ⟨"urn:c"⟩) (.named ⟨"urn:b"⟩)) :=
    tellsApart_of_isPlain (by decide +kernel) (by decide)
  refine ⟨_, answer, isTerminological_torn, ha, left.1.1 ha, hc, ?_⟩
  rw [right.2 hc ⟨"urn:b"⟩ (by decide) (by decide) apart]
  rintro (stored | ⟨as, has, ha⟩)
  · exact absurd (Ontology.contains_iff.2 ⟨_, stored, rfl⟩) (by decide +kernel)
  · obtain rfl := Option.some.inj ((Verdict.inferred_eq consistent).symm.trans has)
    rcases (Saturation.mem_inferred.1 ha).1 with ha | ha
    · obtain ⟨_, _, same, _, _, hd, _⟩ := Saturation.mem_subsumptions.1 ha
      simp only [Axiom.subClass.injEq, ClassExpression.named.injEq] at same
      obtain ⟨rfl, rfl⟩ := same
      exact hb hd
    · obtain ⟨_, _, same, _⟩ := Saturation.mem_assertions.1 ha
      cases same

/-! ### A key of two axioms -/

/-- Axioms about a class `a> <b`, of which the first is printed as a subsumption of that class
under `c` would be. -/
def clash : Ontology :=
  .ofAxioms [
    .subClass (.named ⟨"urn:a"⟩) (.named ⟨"urn:b> <urn:c"⟩),
    .subClass (.named ⟨"urn:a> <urn:b"⟩) (.named ⟨"urn:d"⟩),
    .subClass (.named ⟨"urn:d"⟩) (.named ⟨"urn:c"⟩)]

theorem mem_axioms_clash (a : Axiom) : a ∈ clash.axioms ↔
    a = .subClass (.named ⟨"urn:a"⟩) (.named ⟨"urn:b> <urn:c"⟩) ∨
      a = .subClass (.named ⟨"urn:a> <urn:b"⟩) (.named ⟨"urn:d"⟩) ∨
      a = .subClass (.named ⟨"urn:d"⟩) (.named ⟨"urn:c"⟩) := by
  rw [clash, Ontology.mem_axioms_ofAxioms]
  · simp
  · intro a ha b hb same
    simp only [List.mem_cons, List.not_mem_nil, or_false] at ha hb
    rcases ha with rfl | rfl | rfl <;> rcases hb with rfl | rfl | rfl <;>
      first | rfl | exact absurd same (by decide)

theorem check_clash : ∃ s : Saturation, s.IsSettled (told clash) ∧
    check {} clash = .ok (s.verdict true clash) ∧ s.explanation = none ∧
    s.unsatisfiable.toList = [] := by
  have saturated : (saturate 100000 clash).any fun s => s.explanation = none ∧
      s.unsatisfiable.toList = [] := by
    decide +kernel
  obtain ⟨s, hs, evaluated⟩ := (Option.any_eq_true _ _).1 saturated
  refine ⟨s, isSettled_of_saturate hs, ?_, of_decide_eq_true evaluated⟩
  rw [check, if_neg (by decide), hs]

/-- A subsumption that is entailed, but neither an axiom nor inferred. -/
theorem entailed_not_inferred : ∃ v, check {} clash = .ok v ∧ clash.IsTerminological ∧
    (∃ a ∈ clash.axioms, ⟨"urn:a> <urn:b"⟩ ∈ a.classNames) ∧
    ⟨"urn:a> <urn:b"⟩ ∉ v.unsatisfiable ∧
    Entails.{0, 0} clash.axioms (.subClass (.named ⟨"urn:a> <urn:b"⟩) (.named ⟨"urn:c"⟩)) ∧
    .subClass (.named ⟨"urn:a> <urn:b"⟩) (.named ⟨"urn:c"⟩) ∉ clash.axioms ∧
    ¬ ∃ as, v.inferred = some as ∧
      .subClass (.named ⟨"urn:a> <urn:b"⟩) (.named ⟨"urn:c"⟩) ∈ as := by
  obtain ⟨s, _, answer, consistent, empty⟩ := check_clash
  refine ⟨_, answer, ⟨?_, by decide +kernel⟩, by decide +kernel, ?_, ?_, ?_, ?_⟩
  · intro a ha
    rcases (mem_axioms_clash a).1 ha with rfl | rfl | rfl <;> exact .subClass _ (.named _)
  · rw [← Std.TreeSet.mem_toList]
    exact empty ▸ List.not_mem_nil
  · intro Δ V I hI
    have lower : I.classes ⟨"urn:a> <urn:b"⟩ ⊆ I.classes ⟨"urn:d"⟩ :=
      hI _ ((mem_axioms_clash _).2 (.inr (.inl rfl)))
    have upper : I.classes ⟨"urn:d"⟩ ⊆ I.classes ⟨"urn:c"⟩ :=
      hI _ ((mem_axioms_clash _).2 (.inr (.inr rfl)))
    exact lower.trans upper
  · intro ha
    rcases (mem_axioms_clash _).1 ha with same | same | same <;> simp at same
  · rintro ⟨as, has, ha⟩
    obtain rfl := Option.some.inj ((Verdict.inferred_eq consistent).symm.trans has)
    exact (Saturation.mem_inferred.1 ha).2 (by decide +kernel)

end Reasoner

end TabularOntology
