import TabularOntology.Proofs.Key.Injective
import TabularOntology.Proofs.Ontology.Members
import TabularOntology.Proofs.Reasoner.Saturated
import TabularOntology.Reasoner.Structural

/-! The verdict of the reasoner is sound. Whatever it says of classes and individuals follows
in the calculus of facts, and so is true in every model: a class that it reports is empty,
an ontology that it calls inconsistent has no model, and what it infers is entailed. What it
infers is new to the ontology and sorted by key, where no key occurs twice. -/

namespace TabularOntology.Reasoner

universe u v

section
variable {Δ : Type u} {V : Type v} {I : Interpretation Δ V}
variable {fs : List Fact} {i : Individual} {c d : Iri} {s : Saturation} {t : Signature}
variable {o : Ontology} {a b : Axiom}

/-- The facts that the axioms of an ontology tell. -/
def told (o : Ontology) : List Fact := o.axioms.flatMap factsOf

theorem allHold_told (h : I.Models o.axioms) : AllHold I (told o) :=
  allHold_flatMap.2 fun a ha => allHold_factsOf (h a ha)

theorem mem_told {f : Fact} : f ∈ told o ↔ ∃ a ∈ o.axioms, f ∈ factsOf a := List.mem_flatMap

theorem Given.mem_classes (h : Given fs i c) (hI : AllHold I fs) :
    I.individuals i ∈ I.classes c := by
  cases h with
  | member h => exact hI _ h
  | source h hc => exact hI _ hc _ _ (hI _ h)
  | target h hc => exact hI _ hc _ _ (hI _ h)

namespace Saturation

theorem Fits.mem_classes (h : s.Fits fs) (hI : AllHold I fs) (hm : (i, t) ∈ s.members)
    (hc : c ∈ t) : I.individuals i ∈ I.classes c :=
  (h.members i t hm c hc).mem_classes hI fun _ hb => Given.mem_classes hb hI

/-! ### Empty classes -/

theorem mem_unsatisfiable : c ∈ s.unsatisfiable ↔
    c ∈ s.facts.classes ∧ c ≠ Vocabulary.nothing ∧ Vocabulary.nothing ∈ s.supers.of c := by
  simp [unsatisfiable, Std.TreeSet.mem_filter, and_left_comm]

theorem Fits.classes_eq_empty (h : s.Fits fs) (hI : AllHold I fs) (hc : c ∈ s.unsatisfiable) :
    I.classes c = ∅ :=
  (h.supers.sound c _ (mem_unsatisfiable.1 hc).2.2).classes_eq_empty hI

/-! ### Inconsistency -/

/-- An individual is explained away only for a class whose complement it is in or for the
empty class. -/
theorem contradiction_of_explain? {f : Facts} (h : explain? f i t ≠ none) :
    (∃ c ∈ t, (i, c) ∈ f.nonmembers) ∨ Vocabulary.nothing ∈ t := by
  unfold explain? at h
  dsimp only at h
  split at h
  · next c found =>
    left
    have told := List.find?_some found
    obtain ⟨⟨j, d⟩, hn, rfl⟩ := List.mem_map.1 (List.contains_iff_mem.1 told)
    obtain ⟨stored, same⟩ := List.mem_filter.1 hn
    obtain rfl : j = i := of_decide_eq_true same
    exact ⟨d, Std.TreeSet.mem_toList.1 (List.mem_of_find?_eq_some found), stored⟩
  · right
    split at h
    · exact absurd rfl h
    · next empty => simpa using empty

theorem Fits.not_allHold (h : s.Fits fs) (he : s.explanation ≠ none) : ¬ AllHold I fs := by
  intro hI
  obtain ⟨text, he⟩ := Option.ne_none_iff_exists'.1 he
  obtain ⟨⟨i, t⟩, hm, explained⟩ := List.exists_of_findSome?_eq_some he
  rcases contradiction_of_explain? (Option.ne_none_iff_exists'.2 ⟨text, explained⟩) with
    ⟨c, hc, hn⟩ | hc
  · rw [h.facts] at hn
    exact hI _ (Facts.mem_nonmembers_ofList.1 hn) (h.mem_classes hI hm hc)
  · exact notMem_classes_nothing I _ (h.mem_classes hI hm hc)

/-! ### What is inferred -/

theorem mem_subsumptions : a ∈ s.subsumptions ↔ ∃ c d, a = .subClass (.named c) (.named d) ∧
    c ∈ s.facts.classes ∧ c ≠ Vocabulary.nothing ∧
    d ∈ s.supers.of c ∧ d ≠ c ∧ d ≠ Vocabulary.thing := by
  simp only [subsumptions, List.mem_flatMap, List.mem_filter, List.mem_map,
    Std.TreeSet.mem_toList, bne_iff_ne, Bool.and_eq_true]
  constructor
  · rintro ⟨c, ⟨hc, hn⟩, d, ⟨hd, hdc, hdt⟩, rfl⟩
    exact ⟨c, d, rfl, hc, hn, hd, hdc, hdt⟩
  · rintro ⟨c, d, rfl, hc, hn, hd, hdc, hdt⟩
    exact ⟨c, ⟨hc, hn⟩, d, ⟨hd, hdc, hdt⟩, rfl⟩

theorem mem_assertions : a ∈ s.assertions ↔ ∃ c i, a = .classAssertion (.named c) i ∧
    c ≠ Vocabulary.thing ∧ ∃ t, (i, t) ∈ s.members ∧ c ∈ t := by
  simp only [assertions, List.mem_flatMap, List.mem_filter, List.mem_map,
    Std.TreeSet.mem_toList, bne_iff_ne]
  constructor
  · rintro ⟨⟨i, t⟩, hm, c, ⟨hc, ht⟩, rfl⟩
    exact ⟨c, i, rfl, ht, t, hm, hc⟩
  · rintro ⟨c, i, rfl, ht, t, hm, hc⟩
    exact ⟨(i, t), hm, c, ⟨hc, ht⟩, rfl⟩

theorem inferred_perm (s : Saturation) (o : Ontology) :
    (s.inferred o).Perm ((s.subsumptions ++ s.assertions).filter fun a => !o.contains a) := by
  refine ((List.mergeSort_perm _ _).map Prod.snd).trans ?_
  rw [List.map_map]
  exact List.Perm.of_eq (List.map_id _)

theorem mem_inferred :
    a ∈ s.inferred o ↔ (a ∈ s.subsumptions ∨ a ∈ s.assertions) ∧ ¬ o.contains a := by
  rw [(inferred_perm s o).mem_iff, List.mem_filter, List.mem_append, Bool.not_eq_true',
    Bool.not_eq_true]

theorem Fits.satisfies_of_mem_inferred (h : s.Fits fs) (hI : AllHold I fs)
    (ha : a ∈ s.inferred o) : I.Satisfies a := by
  rcases (mem_inferred.1 ha).1 with ha | ha
  · obtain ⟨c, d, rfl, _, _, hd, _⟩ := mem_subsumptions.1 ha
    exact (h.supers.sound c d hd).subset_classes hI
  · obtain ⟨c, i, rfl, _, t, hm, hc⟩ := mem_assertions.1 ha
    exact h.mem_classes hI hm hc

/-! ### The order of what is inferred -/

/-- A form of a plain IRI and another atom is known by its text, whatever that atom is. -/
theorem pair_text_inj {w w' x y : String} (hw : isWord w) (hw' : isWord w') (hc : c.isPlain)
    (hd : d.isPlain) (h : (Form.node w [.atom c.bracketed, .atom x]).text =
      (Form.node w' [.atom d.bracketed, .atom y]).text) : w = w' ∧ c = d ∧ x = y := by
  rw [← String.toList_inj, Form.toList_text_node, Form.toList_text_node] at h
  obtain ⟨words, h⟩ := word_append_inj hw hw' h
  simp only [Form.toList_join, Form.spaced, Form.text, List.flatMap_cons, List.flatMap_nil,
    List.append_nil, List.append_assoc] at h
  obtain ⟨first, h⟩ := Iri.bracketed_append_inj hc hd h
  have second : x.toList = y.toList := List.append_cancel_right (List.cons.inj h).2
  exact ⟨words, first, String.toList_inj.1 second⟩

/-- The axioms that can be inferred, about plain classes. -/
inductive IsInferable : Axiom → Prop
  | subClass {c d : Iri} (h : c.isPlain) : IsInferable (.subClass (.named c) (.named d))
  | classAssertion {c : Iri} {i : Individual} (h : c.isPlain) :
      IsInferable (.classAssertion (.named c) i)

theorem IsInferable.eq_of_key_eq (ha : IsInferable a) (hb : IsInferable b) (h : a.key = b.key) :
    a = b := by
  have sub : isWord "SubClassOf" := isWord_ofList (by decide)
  have assertion : isWord "ClassAssertion" := isWord_ofList (by decide)
  cases ha with
  | subClass hc =>
    cases hb with
    | subClass hd =>
      obtain ⟨_, rfl, same⟩ := pair_text_inj sub sub hc hd h
      rw [Iri.bracketed_inj.1 same]
    | classAssertion hd =>
      obtain ⟨words, _⟩ := pair_text_inj sub assertion hc hd h
      exact absurd words (by decide)
  | classAssertion hc =>
    cases hb with
    | subClass hd =>
      obtain ⟨words, _⟩ := pair_text_inj assertion sub hc hd h
      exact absurd words (by decide)
    | classAssertion hd =>
      obtain ⟨_, rfl, same⟩ := pair_text_inj assertion assertion hc hd h
      rw [Individual.text_inj.1 same]

theorem nodup_subsumptions (s : Saturation) : s.subsumptions.Nodup := by
  refine List.nodup_flatMap.2 ⟨fun c _ => ?_, ?_⟩
  · refine (List.Nodup.filter _ (Signature.nodup_toList _)).map ?_
    intro d e h
    simpa using h
  · refine (List.Nodup.filter _ (Signature.nodup_toList _)).imp ?_
    intro c d hne a hc hd
    obtain ⟨x, _, rfl⟩ := List.mem_map.1 hc
    obtain ⟨y, _, same⟩ := List.mem_map.1 hd
    simp only [Axiom.subClass.injEq, ClassExpression.named.injEq] at same
    exact hne same.1.symm

theorem nodup_assertions (h : (s.members.map Prod.fst).Nodup) : s.assertions.Nodup := by
  refine List.nodup_flatMap.2 ⟨fun m _ => ?_, ?_⟩
  · refine (List.Nodup.filter _ (Signature.nodup_toList _)).map ?_
    intro c d same
    simpa using same
  · refine (List.pairwise_map.1 h).imp ?_
    intro m n hne a hm hn
    obtain ⟨x, _, rfl⟩ := List.mem_map.1 hm
    obtain ⟨y, _, same⟩ := List.mem_map.1 hn
    simp only [Axiom.classAssertion.injEq] at same
    exact hne same.2.symm

theorem Fits.nodup_inferred (h : s.Fits fs) (o : Ontology) : (s.inferred o).Nodup := by
  rw [(inferred_perm s o).nodup_iff]
  refine List.Nodup.filter _ ?_
  refine (nodup_subsumptions s).append (nodup_assertions h.nodup) ?_
  intro a ha ha'
  obtain ⟨c, d, rfl, _⟩ := mem_subsumptions.1 ha
  obtain ⟨e, i, absurd, _⟩ := mem_assertions.1 ha'
  cases absurd

theorem sorted_inferred (s : Saturation) (o : Ontology) :
    (s.inferred o).Pairwise fun a b => (compare a.key b.key).isLE := by
  let le (a b : String × Axiom) : Bool := (compare a.1 b.1).isLE
  let new := (s.subsumptions ++ s.assertions).filter fun a => !o.contains a
  have total (a b : String × Axiom) : le a b || le b a := by
    simp only [le, Std.OrientedOrd.eq_swap (a := b.1)]
    cases compare a.1 b.1 <;> rfl
  have sorted : ((new.map fun a => (a.key, a)).mergeSort le).Pairwise fun a b => le a b :=
    List.pairwise_mergeSort (fun a b c => Std.TransCmp.isLE_trans) total _
  refine List.pairwise_map.2 (sorted.imp_of_mem ?_)
  intro a b ha hb le
  obtain ⟨x, _, rfl⟩ := List.mem_map.1 (List.mem_mergeSort.1 ha)
  obtain ⟨y, _, rfl⟩ := List.mem_map.1 (List.mem_mergeSort.1 hb)
  exact le

theorem Fits.increasing_inferred (h : s.Fits fs) (plain : ∀ a ∈ s.inferred o, IsInferable a) :
    (s.inferred o).Pairwise fun a b => a.key < b.key := by
  refine ((sorted_inferred s o).and (h.nodup_inferred o)).imp_of_mem ?_
  rintro a b ha hb ⟨le, hne⟩
  rcases Ordering.isLE_iff_eq_lt_or_eq_eq.1 le with lt | eq
  · exact compareOfLessAndEq_eq_lt.1 lt
  · have same : a.key = b.key := Std.LawfulEqOrd.eq_of_compare eq
    exact absurd ((plain a ha).eq_of_key_eq (plain b hb) same) hne

end Saturation

/-! ### Occurrences -/

/-- Facts are about classes of the ontology. -/
theorem exists_mem_classNames {f : Fact} (hf : f ∈ told o) (hc : c ∈ f.classNames) :
    ∃ a ∈ o.axioms, c ∈ a.classNames := by
  obtain ⟨a, ha, hf⟩ := mem_told.1 hf
  exact ⟨a, ha, (registered_of_mem_classNames hf hc).2⟩

theorem Given.mem_classNames (h : Given fs i c) : ∃ f ∈ fs, c ∈ f.classNames := by
  cases h with
  | member h => exact ⟨_, h, List.mem_cons_self⟩
  | source _ hc => exact ⟨_, hc, List.mem_cons_self⟩
  | target _ hc => exact ⟨_, hc, List.mem_cons_self⟩

theorem Saturation.Fits.occurs_of_mem_classes (h : s.Fits (told o)) (hc : c ∈ s.facts.classes)
    (hn : c ≠ Vocabulary.nothing) : ∃ a ∈ o.axioms, c ∈ a.classNames := by
  rw [h.facts, Facts.mem_classes_ofList] at hc
  exact exists_mem_classNames (hc.resolve_left hn) List.mem_cons_self

theorem Saturation.Fits.occurs_of_mem_members (h : s.Fits (told o)) (hm : (i, t) ∈ s.members)
    (hc : c ∈ t) : c = Vocabulary.nothing ∨ ∃ a ∈ o.axioms, c ∈ a.classNames := by
  rcases (h.members i t hm c hc).mem_or_mentioned with hc | hc | ⟨f, hf, hc⟩
  · obtain ⟨f, hf, hc⟩ := Given.mem_classNames hc
    exact .inr (exists_mem_classNames hf hc)
  · exact .inl hc
  · exact .inr (exists_mem_classNames hf hc)

theorem Saturation.Fits.isInferable (h : s.Fits (told o)) (plain : ∀ x ∈ o.signature, x.isPlain)
    (ha : a ∈ s.inferred o) : IsInferable a := by
  have occurring : ∀ c : Iri, (∃ b ∈ o.axioms, c ∈ b.classNames) → c.isPlain := by
    rintro c ⟨b, hb, hc⟩
    exact plain c (Ontology.mem_signature.2 ⟨b, hb, b.classNames_subset_iris hc⟩)
  rcases (Saturation.mem_inferred.1 ha).1 with ha | ha
  · obtain ⟨c, d, rfl, hc, hn, _⟩ := Saturation.mem_subsumptions.1 ha
    exact .subClass (occurring c (h.occurs_of_mem_classes hc hn))
  · obtain ⟨c, i, rfl, _, t, hm, hc⟩ := Saturation.mem_assertions.1 ha
    rcases h.occurs_of_mem_members hm hc with rfl | hc
    · exact .classAssertion (by decide)
    · exact .classAssertion (occurring c hc)

/-! ### The verdict -/

/-- A verdict that every model of an ontology bears out. -/
structure Verdict.IsSound (v : Verdict) (o : Ontology) : Prop where
  /-- The classes that are reported occur in the ontology and are empty in every model. -/
  empty : ∀ c ∈ v.unsatisfiable, (∃ a ∈ o.axioms, c ∈ a.classNames) ∧
    ∀ (Δ : Type u) (V : Type v) (I : Interpretation Δ V), I.Models o.axioms → I.classes c = ∅
  /-- An ontology that is called inconsistent has no model. -/
  inconsistent : v.consistent = false →
    ∀ (Δ : Type u) (V : Type v) (I : Interpretation Δ V), ¬ I.Models o.axioms
  /-- What is inferred is entailed. -/
  entailed : ∀ as, v.inferred = some as → ∀ a ∈ as, Entails.{u, v} o.axioms a
  /-- No axiom of the ontology has the key of an inferred one. -/
  new : ∀ as, v.inferred = some as → ∀ a ∈ as, ∀ b ∈ o.axioms, b.key ≠ a.key
  /-- Inferred axioms have increasing keys. -/
  increasing : (∀ x ∈ o.signature, x.isPlain) → ∀ as, v.inferred = some as →
    as.Pairwise fun a b => a.key < b.key

theorem Saturation.Fits.isSound_verdict (h : s.Fits (told o)) (materialize : Bool) :
    (s.verdict materialize o).IsSound.{u, v} o := by
  have inferred : ∀ as, (s.verdict materialize o).inferred = some as → as = s.inferred o := by
    intro as has
    unfold verdict at has
    dsimp only at has
    split at has
    · exact (Option.some.inj has).symm
    · cases has
  constructor
  · intro c hc
    obtain ⟨hclass, hn, _⟩ := mem_unsatisfiable.1 hc
    refine ⟨h.occurs_of_mem_classes hclass hn, fun Δ V I hI => ?_⟩
    exact h.classes_eq_empty (allHold_told hI) hc
  · intro inconsistent Δ V I hI
    refine h.not_allHold ?_ (allHold_told hI)
    intro none
    rw [verdict, none] at inconsistent
    cases inconsistent
  · intro as has a ha Δ V I hI
    rw [inferred as has] at ha
    exact h.satisfies_of_mem_inferred (allHold_told hI) ha
  · intro as has a ha b hb same
    rw [inferred as has] at ha
    exact (mem_inferred.1 ha).2 (Ontology.contains_iff.2 ⟨b, hb, same⟩)
  · intro plain as has
    rw [inferred as has]
    exact h.increasing_inferred fun a ha => h.isInferable plain ha

/-- An answer is the verdict of saturated sets. -/
theorem exists_isSettled_of_check {options : Options} {v : Verdict}
    (h : check options o = .ok v) :
    ∃ s : Saturation, s.IsSettled (told o) ∧ v = s.verdict options.materialize o := by
  unfold check at h
  split at h
  · cases h
  split at h
  · cases h
  · next s saturated => exact ⟨s, isSettled_of_saturate saturated, (Except.ok.inj h).symm⟩

theorem exists_of_check {options : Options} {v : Verdict} (h : check options o = .ok v) :
    ∃ s : Saturation, s.Fits (told o) ∧ v = s.verdict options.materialize o := by
  obtain ⟨s, settled, answer⟩ := exists_isSettled_of_check h
  exact ⟨s, settled.toFits, answer⟩

/-- Whenever the reasoner answers, its verdict is sound. -/
theorem check_sound {options : Options} {v : Verdict} (h : check options o = .ok v) :
    v.IsSound.{u, v} o := by
  obtain ⟨s, fits, rfl⟩ := exists_of_check h
  exact fits.isSound_verdict options.materialize

end

/-- A class inside another one and its complement, and a class whose members have a
property with a domain. -/
def torn : Ontology :=
  .ofAxioms [
    .subClass (.named ⟨"urn:a"⟩)
      (.intersection [.named ⟨"urn:b"⟩, .complement (.named ⟨"urn:b"⟩)]),
    .subClass (.named ⟨"urn:c"⟩) (.some (.named ⟨"urn:p"⟩) (.named ⟨"urn:b"⟩)),
    .objectPropertyDomain ⟨"urn:p"⟩ (.named ⟨"urn:d"⟩)]

/-- The verdict on it, read off its saturated sets. -/
theorem check_torn : ∃ s : Saturation, check {} torn = .ok (s.verdict true torn) ∧
    s.explanation = none ∧ s.unsatisfiable.toList = [⟨"urn:a"⟩] ∧
    ⟨"urn:c"⟩ ∈ s.facts.classes ∧ (s.supers.of ⟨"urn:c"⟩).toList = [⟨"urn:c"⟩, ⟨"urn:d"⟩] := by
  have saturated : (saturate 100000 torn).any fun s => s.explanation = none ∧
      s.unsatisfiable.toList = [⟨"urn:a"⟩] ∧ ⟨"urn:c"⟩ ∈ s.facts.classes ∧
      (s.supers.of ⟨"urn:c"⟩).toList = [⟨"urn:c"⟩, ⟨"urn:d"⟩] := by
    decide +kernel
  obtain ⟨s, hs, evaluated⟩ := (Option.any_eq_true _ _).1 saturated
  refine ⟨s, ?_, of_decide_eq_true evaluated⟩
  rw [check, if_neg (by decide), hs]

theorem check_sound_torn : ∃ v, check {} torn = .ok v ∧ v.IsSound.{0, 0} torn ∧
    v.consistent ∧ v.unsatisfiable.toList = [⟨"urn:a"⟩] ∧
    ∃ as, v.inferred = some as ∧ .subClass (.named ⟨"urn:c"⟩) (.named ⟨"urn:d"⟩) ∈ as := by
  obtain ⟨s, answer, consistent, empty, hc, hsupers⟩ := check_torn
  have hd : ⟨"urn:d"⟩ ∈ s.supers.of ⟨"urn:c"⟩ := by
    rw [← Std.TreeSet.mem_toList, hsupers]
    decide
  have new : ¬ torn.contains (.subClass (.named ⟨"urn:c"⟩) (.named ⟨"urn:d"⟩)) := by
    decide +kernel
  refine ⟨_, answer, check_sound answer, ?_, empty, s.inferred torn, ?_, ?_⟩
  · rw [Saturation.verdict, consistent]
    rfl
  · rw [Saturation.verdict, consistent]
    rfl
  · refine Saturation.mem_inferred.2 ⟨.inl (Saturation.mem_subsumptions.2 ?_), new⟩
    exact ⟨_, _, rfl, hc, by decide, hd, by decide, by decide⟩

end TabularOntology.Reasoner
