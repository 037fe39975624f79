import Mathlib.Order.Bounds.Basic
import TabularOntology.Proofs.Reasoner.Completeness

/-! What the reasoner computes: the least superclasses of classes and classes of individuals that
have what is told and are closed under the rules. The verdict is read off these two families and
the keys of the ontology alone, so it depends neither on the order in which facts are met nor on
the number of rounds. -/

namespace TabularOntology.Reasoner

/-- The superclasses of each class and the classes of each individual. -/
@[ext] structure Consequences where
  supers : Iri → Set Iri
  types : Individual → Set Iri

namespace Consequences

/-- One family of sets inside another. -/
instance : PartialOrder Consequences :=
  PartialOrder.lift (fun F => (F.supers, F.types)) fun _ _ h =>
    Consequences.ext (congrArg Prod.fst h) (congrArg Prod.snd h)

theorem le_iff {F G : Consequences} :
    F ≤ G ↔ (∀ c, F.supers c ⊆ G.supers c) ∧ ∀ i, F.types i ⊆ G.types i := Iff.rfl

end Consequences

/-! ### Well-formed facts -/

/-- A class that superclasses are computed for. -/
def IsClass (fs : List Fact) (c : Iri) : Prop := c = Vocabulary.nothing ∨ .registered c ∈ fs

/-- All classes that facts are about are registered, and all individuals are met. -/
structure IsWellFormed (fs : List Fact) : Prop where
  registered : ∀ f ∈ fs, ∀ c ∈ f.classNames, .registered c ∈ fs
  met : ∀ f ∈ fs, ∀ i ∈ f.individuals, .individual i ∈ fs

section
variable {F G : Consequences} {fs gs : List Fact} {B s : Set Iri} {S T : Iri → Set Iri}
variable {c d : Iri} {i : Individual} {a : Axiom} {o p : Ontology}

theorem isWellFormed_told (o : Ontology) : IsWellFormed (told o) where
  registered f hf c hc := by
    obtain ⟨a, ha, hf⟩ := mem_told.1 hf
    exact mem_told.2 ⟨a, ha, (registered_of_mem_classNames hf hc).1⟩
  met f hf i hi := by
    obtain ⟨a, ha, hf⟩ := mem_told.1 hf
    exact mem_told.2 ⟨a, ha, met_of_mem_individuals hf hi⟩

theorem IsWellFormed.met_of_given (h : IsWellFormed fs) (hc : Given fs i c) :
    .individual i ∈ fs := by
  cases hc with
  | member hf => exact h.met _ hf i List.mem_cons_self
  | source hf _ => exact h.met _ hf i List.mem_cons_self
  | target hf _ => exact h.met _ hf i (List.mem_cons_of_mem _ List.mem_cons_self)

/-! ### Closed families -/

theorem IsClass.mono (h : IsClass fs c) (sub : fs ⊆ gs) : IsClass gs c :=
  h.imp_right fun hc => sub hc

theorem Given.mono (h : Given fs i c) (sub : fs ⊆ gs) : Given gs i c := by
  cases h with
  | member hf => exact .member (sub hf)
  | source hf hc => exact .source (sub hf) (sub hc)
  | target hf hc => exact .target (sub hf) (sub hc)

/-- Facts that add to a set of classes whatever class or individual the set belongs to. -/
def Fact.IsRule : Fact → Prop
  | .conjunction .. | .existential .. | .disjoint .. | .domain .. => True
  | _ => False

theorem IsSaturated.mono (h : IsSaturated gs S s) (rules : ∀ f ∈ fs, f.IsRule → f ∈ gs) :
    IsSaturated fs S s where
  superclass := h.superclass
  conjunction cs d hf := h.conjunction cs d (rules _ hf trivial)
  emptyFiller c p d hf := h.emptyFiller c p d (rules _ hf trivial)
  domain c p d e hf he := h.domain c p d e (rules _ hf trivial) (rules _ he trivial)
  disjoint c d hf := h.disjoint c d (rules _ hf trivial)

theorem IsSaturated.anti (h : IsSaturated fs T s) (hS : ∀ c, S c ⊆ T c) : IsSaturated fs S s where
  superclass c hc := (hS c).trans (h.superclass c hc)
  conjunction := h.conjunction
  emptyFiller c p d hf hc hd := h.emptyFiller c p d hf hc (hS d hd)
  domain := h.domain
  disjoint := h.disjoint

/-- Families that have what is told and are closed under the rules. -/
structure Consequences.Obeys (F : Consequences) (fs : List Fact) : Prop where
  self : ∀ c, IsClass fs c → c ∈ F.supers c
  told : ∀ c d, .subclass c d ∈ fs → d ∈ F.supers c
  given : ∀ i c, Given fs i c → c ∈ F.types i
  supers : ∀ c, IsClass fs c → IsSaturated fs F.supers (F.supers c)
  types : ∀ i, .individual i ∈ fs → IsSaturated fs F.supers (F.types i)

/-- The least families of some facts. -/
def Consequences.AreLeast (F : Consequences) (fs : List Fact) : Prop := IsLeast {F | F.Obeys fs} F

namespace Consequences

/-- Saturated sets have what follows from them. -/
theorem Obeys.mem_of_follows (h : F.Obeys fs) (hfs : IsWellFormed fs)
    (hs : IsSaturated fs F.supers s) (hd : Follows fs B d) (hB : B ⊆ s) : d ∈ s := by
  refine hs.mem_of_follows h.told (fun a p b told => ?_) hd hB
  have registered : IsClass fs b := .inr (hfs.registered _ told b (by simp [Fact.classNames]))
  exact ⟨h.self b registered, h.supers b registered⟩

/-- Families of facts are families of fewer facts. -/
theorem Obeys.anti (h : F.Obeys gs) (sub : fs ⊆ gs) : F.Obeys fs where
  self c hc := h.self c (hc.mono sub)
  told c d hf := h.told c d (sub hf)
  given i c hc := h.given i c (hc.mono sub)
  supers c hc := (h.supers c (hc.mono sub)).mono fun _ hf _ => sub hf
  types i hi := (h.types i (sub hi)).mono fun _ hf _ => sub hf

/-- Only the facts count, not their order. -/
theorem AreLeast.congr (h : F.AreLeast fs) (same : ∀ f, f ∈ gs ↔ f ∈ fs) : F.AreLeast gs :=
  ⟨h.1.anti fun f => (same f).1, fun _ hG => h.2 (hG.anti fun f => (same f).2)⟩

end Consequences

/-! ### The saturated sets -/

namespace Saturation

variable {s : Saturation}

/-- The families that saturation has found. -/
def consequences (s : Saturation) : Consequences where
  supers c := {d | c ∈ s.facts.classes ∧ d ∈ s.supers.of c}
  types i := {c | ∃ t, (i, t) ∈ s.members ∧ c ∈ t}

theorem Fits.mem_classes_iff (h : s.Fits fs) : c ∈ s.facts.classes ↔ IsClass fs c := by
  rw [h.facts]
  exact Facts.mem_classes_ofList

theorem IsSettled.obeys (h : s.IsSettled fs) (hfs : IsWellFormed fs) :
    s.consequences.Obeys fs where
  self c hc := by
    have registered : c ∈ s.facts.classes := h.mem_classes_iff.2 hc
    exact ⟨registered, h.supers.self c (h.facts ▸ registered)⟩
  told c d hf := by
    have registered : IsClass fs c := .inr (hfs.registered _ hf c (by simp [Fact.classNames]))
    exact ⟨h.mem_classes_iff.2 registered, h.supers.told c d hf⟩
  given i c hc := by
    obtain ⟨t, ht⟩ := (h.met i).2 (hfs.met_of_given hc)
    exact ⟨t, ht, h.given i t ht c hc⟩
  supers c hc := by
    have registered : c ∈ s.facts.classes := h.mem_classes_iff.2 hc
    have closed := h.fixed c registered
    rw [h.facts] at closed
    have all : s.consequences.supers c = {d | d ∈ s.supers.of c} :=
      Set.ext fun d => and_iff_right registered
    rw [all]
    exact (Facts.isSaturated_of_close closed).anti fun _ _ hd => hd.2
  types i hi := by
    obtain ⟨t, ht⟩ := (h.met i).2 hi
    have closed := h.closed i t ht
    rw [h.facts] at closed
    have all : s.consequences.types i = {c | c ∈ t} := by
      refine Set.ext fun c => ⟨?_, fun hc => ⟨t, ht, hc⟩⟩
      rintro ⟨u, hu, hc⟩
      obtain rfl : t = u := by
        have := List.inj_on_of_nodup_map h.nodup ht hu rfl
        exact congrArg Prod.snd this
      exact hc
    rw [all]
    exact (Facts.isSaturated_of_close closed).anti fun _ _ hd => hd.2

/-- Saturation finds the least families. -/
theorem IsSettled.areLeast (h : s.IsSettled fs) (hfs : IsWellFormed fs) :
    s.consequences.AreLeast fs := by
  refine ⟨h.obeys hfs, fun F hF => Consequences.le_iff.2 ⟨?_, ?_⟩⟩
  · rintro c d ⟨hc, hd⟩
    have registered : IsClass fs c := h.mem_classes_iff.1 hc
    exact hF.mem_of_follows hfs (hF.supers c registered) (h.supers.sound c d hd)
      (Set.singleton_subset_iff.2 (hF.self c registered))
  · rintro i c ⟨t, ht, hc⟩
    have met : .individual i ∈ fs := (h.met i).1 ⟨t, ht⟩
    exact hF.mem_of_follows hfs (hF.types i met) (h.members i t ht c hc) fun b hb => hF.given i b hb

end Saturation

/-! ### The verdict -/

/-- The axioms that are worth stating. -/
inductive Consequences.Derives (F : Consequences) : Axiom → Prop
  | subClass {c d : Iri} (hc : c ≠ Vocabulary.nothing) (hd : d ∈ F.supers c) (hne : d ≠ c)
      (ht : d ≠ Vocabulary.thing) : F.Derives (.subClass (.named c) (.named d))
  | classAssertion {c : Iri} {i : Individual} (hc : c ∈ F.types i) (ht : c ≠ Vocabulary.thing) :
      F.Derives (.classAssertion (.named c) i)

/-- A verdict on an ontology that is read off families of sets. -/
structure Verdict.IsExact (v : Verdict) (o : Ontology) (F : Consequences) : Prop where
  unsatisfiable : ∀ c, c ∈ v.unsatisfiable ↔
    c ≠ Vocabulary.nothing ∧ Vocabulary.nothing ∈ F.supers c
  inconsistent : v.consistent = false ↔
    ∃ i, Vocabulary.nothing ∈ F.types i ∨ ∃ c ∈ F.types i, .nonmember i c ∈ told o
  /-- What is derived is inferred, unless it is an axiom or another axiom has its key. -/
  inferred : ∀ as, v.inferred = some as →
    ∀ a, a ∈ as ↔ F.Derives a ∧ a ∉ o.axioms ∧ o.TellsApart a
  nodup : ∀ as, v.inferred = some as → as.Nodup
  sorted : ∀ as, v.inferred = some as → as.Pairwise fun a b => (compare a.key b.key).isLE

namespace Saturation

variable {s : Saturation} {t : Signature}

/-- An individual is explained away just for a class whose complement it is in or for the empty
class. -/
theorem explain?_ne_none_iff {f : Facts} : explain? f i t ≠ none ↔
    (∃ c ∈ t, (i, c) ∈ f.nonmembers) ∨ Vocabulary.nothing ∈ t := by
  refine ⟨contradiction_of_explain?, fun contradiction none => ?_⟩
  unfold explain? at none
  dsimp only at none
  split at none
  · cases none
  · next apart =>
    split at none
    · next possible =>
      rcases contradiction with ⟨c, hc, hn⟩ | empty
      · have missing := List.find?_eq_none.1 apart c (Std.TreeSet.mem_toList.2 hc)
        refine missing (List.contains_iff_mem.2 (List.mem_map.2 ⟨(i, c), ?_, rfl⟩))
        exact List.mem_filter.2 ⟨hn, decide_eq_true rfl⟩
      · simp [Std.TreeSet.contains_iff_mem.2 empty] at possible
    · split at none <;> cases none

theorem Fits.explanation_ne_none_iff (h : s.Fits fs) : s.explanation ≠ none ↔
    ∃ i, Vocabulary.nothing ∈ s.consequences.types i ∨
      ∃ c ∈ s.consequences.types i, .nonmember i c ∈ fs := by
  have some_explained : s.explanation ≠ none ↔ ∃ i t, (i, t) ∈ s.members ∧
      explain? s.facts i t ≠ none := by
    rw [explanation, Ne, List.findSome?_eq_none_iff]
    push Not
    exact ⟨fun ⟨m, hm, h⟩ => ⟨m.1, m.2, hm, h⟩, fun ⟨i, t, hm, h⟩ => ⟨(i, t), hm, h⟩⟩
  have told (i : Individual) (c : Iri) : (i, c) ∈ s.facts.nonmembers ↔ .nonmember i c ∈ fs := by
    rw [h.facts]
    exact Facts.mem_nonmembers_ofList
  simp only [some_explained, explain?_ne_none_iff, told]
  constructor
  · rintro ⟨i, t, hm, ⟨c, hc, hn⟩ | empty⟩
    · exact ⟨i, .inr ⟨c, ⟨t, hm, hc⟩, hn⟩⟩
    · exact ⟨i, .inl ⟨t, hm, empty⟩⟩
  · rintro ⟨i, ⟨t, hm, empty⟩ | ⟨c, ⟨t, hm, hc⟩, hn⟩⟩
    · exact ⟨i, t, hm, .inr empty⟩
    · exact ⟨i, t, hm, .inl ⟨c, hc, hn⟩⟩

theorem derives_iff : s.consequences.Derives a ↔ a ∈ s.subsumptions ∨ a ∈ s.assertions := by
  rw [mem_subsumptions, mem_assertions]
  constructor
  · rintro (⟨hc, ⟨registered, hd⟩, hne, ht⟩ | ⟨hc, ht⟩)
    · exact .inl ⟨_, _, rfl, registered, hc, hd, hne, ht⟩
    · exact .inr ⟨_, _, rfl, ht, hc⟩
  · rintro (⟨c, d, rfl, registered, hc, hd, hne, ht⟩ | ⟨c, i, rfl, ht, hc⟩)
    · exact .subClass hc ⟨registered, hd⟩ hne ht
    · exact .classAssertion hc ht

theorem Fits.isExact_verdict (h : s.Fits (told o)) (materialize : Bool) :
    (s.verdict materialize o).IsExact o s.consequences := by
  have inferred : ∀ as, (s.verdict materialize o).inferred = some as → as = s.inferred o := by
    intro as has
    unfold verdict at has
    dsimp only at has
    split at has
    · exact (Option.some.inj has).symm
    · cases has
  constructor
  · intro c
    refine mem_unsatisfiable.trans ⟨fun ⟨hc, hn, empty⟩ => ⟨hn, hc, empty⟩, ?_⟩
    exact fun ⟨hn, hc, empty⟩ => ⟨hc, hn, empty⟩
  · rw [← h.explanation_ne_none_iff]
    exact Option.isNone_eq_false_iff.trans Option.isSome_iff_ne_none
  · intro as has a
    rw [inferred as has, mem_inferred, derives_iff, Ontology.not_contains_iff]
  · intro as has
    exact inferred as has ▸ h.nodup_inferred o
  · intro as has
    exact inferred as has ▸ sorted_inferred s o

end Saturation

/-- An answer is read off the least families of what the ontology tells. -/
theorem exists_areLeast_of_check {options : Options} {v : Verdict} (h : check options o = .ok v) :
    ∃ F : Consequences, F.AreLeast (told o) ∧ v.IsExact o F := by
  obtain ⟨s, settled, rfl⟩ := exists_isSettled_of_check h
  exact ⟨s.consequences, settled.areLeast (isWellFormed_told o), settled.isExact_verdict _⟩

/-- There are inferred axioms just if they are asked for and the ontology is consistent. -/
theorem isSome_inferred_iff {options : Options} {v : Verdict} (h : check options o = .ok v) :
    v.inferred.isSome ↔ options.materialize ∧ v.consistent := by
  obtain ⟨s, _, rfl⟩ := exists_isSettled_of_check h
  unfold Saturation.verdict
  dsimp only
  rw [← Bool.and_eq_true]
  split
  · next both => exact iff_of_true rfl both
  · next neither => exact iff_of_false Bool.false_ne_true neither

section
variable {v w : Verdict}

theorem Verdict.IsExact.consistent_eq (hv : v.IsExact o F) (hw : w.IsExact p F)
    (same : ∀ i c, .nonmember i c ∈ told p ↔ .nonmember i c ∈ told o) :
    w.consistent = v.consistent := by
  have both : w.consistent = false ↔ v.consistent = false := by
    simp only [hv.inconsistent, hw.inconsistent, same]
  cases hw' : w.consistent <;> cases hv' : v.consistent <;> simp_all

theorem Verdict.IsExact.unsatisfiable_eq (hv : v.IsExact o F) (hw : w.IsExact p F) :
    w.unsatisfiable.toList = v.unsatisfiable.toList :=
  Signature.toList_eq_of_forall_mem fun c => (hw.unsatisfiable c).trans (hv.unsatisfiable c).symm

theorem Verdict.IsExact.inferred_perm (hv : v.IsExact o F) (hw : w.IsExact p F)
    (keys : p.keys = o.keys) {as bs : List Axiom} (has : v.inferred = some as)
    (hbs : w.inferred = some bs) : bs.Perm as := by
  refine (List.perm_ext_iff_of_nodup (hw.nodup bs hbs) (hv.nodup as has)).2 fun a => ?_
  rw [hw.inferred bs hbs, hv.inferred as has, ← Ontology.not_contains_iff,
    ← Ontology.not_contains_iff, Ontology.contains_iff_mem_keys, Ontology.contains_iff_mem_keys,
    keys]

end

/-- Whenever the reasoner answers, its verdict is the one that the least families of what the
ontology tells give, and so another answer on an ontology that tells the same agrees with it. -/
theorem check_exact {options : Options} {v : Verdict} (answer : check options o = .ok v) :
    ∃ F : Consequences, F.AreLeast (told o) ∧ v.IsExact o F ∧
      (v.inferred.isSome ↔ options.materialize ∧ v.consistent) ∧
      ∀ options' p w, check options' p = .ok w → (∀ f, f ∈ told p ↔ f ∈ told o) →
        w.consistent = v.consistent ∧ w.unsatisfiable.toList = v.unsatisfiable.toList ∧
        (p.keys = o.keys → ∀ as bs, v.inferred = some as → w.inferred = some bs → bs.Perm as) := by
  obtain ⟨F, least, exact⟩ := exists_areLeast_of_check answer
  refine ⟨F, least, exact, isSome_inferred_iff answer, fun options' p w other same => ?_⟩
  obtain ⟨G, least', exact'⟩ := exists_areLeast_of_check other
  obtain rfl : G = F := least'.unique (least.congr same)
  exact ⟨exact.consistent_eq exact' fun i c => same _, exact.unsatisfiable_eq exact',
    fun keys as bs => exact.inferred_perm exact' keys⟩

end

/-- A class inside another one with a member, and a class inside the empty one. -/
def inhabited : Ontology :=
  .ofAxioms [
    .subClass (.named ⟨"urn:a"⟩) (.named ⟨"urn:b"⟩),
    .classAssertion (.named ⟨"urn:a"⟩) (.named ⟨"urn:x"⟩),
    .subClass (.named ⟨"urn:e"⟩) (.named Vocabulary.nothing)]

theorem check_inhabited : ∃ s : Saturation,
    check {} inhabited = .ok (s.verdict true inhabited) ∧ s.explanation = none ∧
    s.unsatisfiable.toList = [⟨"urn:e"⟩] ∧
    s.inferred inhabited = [.classAssertion (.named ⟨"urn:b"⟩) (.named ⟨"urn:x"⟩)] := by
  have saturated : (saturate 100000 inhabited).any fun s =>
      let new := (s.subsumptions ++ s.assertions).filter fun a => !inhabited.contains a
      s.explanation = none ∧ s.unsatisfiable.toList = [⟨"urn:e"⟩] ∧ new.all Axiom.isPlain ∧
        new.map Axiom.key =
          [Axiom.key (.classAssertion (.named ⟨"urn:b"⟩) (.named ⟨"urn:x"⟩))] := by
    decide +kernel
  obtain ⟨s, hs, evaluated⟩ := (Option.any_eq_true _ _).1 saturated
  obtain ⟨consistent, empty, plain, keys⟩ := of_decide_eq_true evaluated
  refine ⟨s, ?_, consistent, empty, List.perm_singleton.1 ((s.inferred_perm _).trans ?_)⟩
  · rw [check, if_neg (by decide), hs]
  · obtain ⟨a, same, key⟩ := List.map_eq_singleton_iff.1 keys
    rw [same] at plain ⊢
    rw [Axiom.eq_of_key_eq (List.all_eq_true.1 plain a List.mem_cons_self) (by decide) key]

theorem check_exact_inhabited : ∃ (v : Verdict) (F : Consequences),
    check {} inhabited = .ok v ∧ F.AreLeast (told inhabited) ∧ v.IsExact inhabited F ∧
    v.consistent ∧ v.unsatisfiable.toList = [⟨"urn:e"⟩] ∧
    v.inferred = some [.classAssertion (.named ⟨"urn:b"⟩) (.named ⟨"urn:x"⟩)] := by
  obtain ⟨s, answer, consistent, empty, inferred⟩ := check_inhabited
  obtain ⟨F, least, exact, _⟩ := check_exact answer
  refine ⟨_, F, answer, least, exact, ?_, empty, ?_⟩
  · rw [Saturation.verdict, consistent]
    rfl
  · rw [Verdict.inferred_eq consistent, inferred]

/-- A subsumption that the least families give, but that is neither an axiom nor inferred, since
another axiom has its key. -/
theorem derived_not_inferred : ∃ (v : Verdict) (F : Consequences) (as : List Axiom),
    check {} clash = .ok v ∧ F.AreLeast (told clash) ∧ v.inferred = some as ∧
    F.Derives (.subClass (.named ⟨"urn:a> <urn:b"⟩) (.named ⟨"urn:c"⟩)) ∧
    .subClass (.named ⟨"urn:a> <urn:b"⟩) (.named ⟨"urn:c"⟩) ∉ clash.axioms ∧
    .subClass (.named ⟨"urn:a> <urn:b"⟩) (.named ⟨"urn:c"⟩) ∉ as := by
  obtain ⟨s, settled, answer, consistent, _⟩ := check_clash
  have least := settled.areLeast (isWellFormed_told clash)
  have tells (c d : Iri) (h : .subClass (.named c) (.named d) ∈ clash.axioms) :
      IsClass (told clash) c ∧ d ∈ s.consequences.supers c :=
    ⟨.inr (mem_told.2 ⟨_, h, List.mem_cons_self⟩),
      least.1.told c d (mem_told.2 ⟨_, h, by simp [factsOf, subsumptionFacts, superFacts]⟩)⟩
  refine ⟨_, _, _, answer, least, Verdict.inferred_eq consistent, ?_, ?_, ?_⟩
  · obtain ⟨lower, hd⟩ := tells ⟨"urn:a> <urn:b"⟩ ⟨"urn:d"⟩
      ((mem_axioms_clash _).2 (.inr (.inl rfl)))
    obtain ⟨_, hc⟩ := tells ⟨"urn:d"⟩ ⟨"urn:c"⟩ ((mem_axioms_clash _).2 (.inr (.inr rfl)))
    exact .subClass (by decide) ((least.1.supers _ lower).superclass _ hd hc) (by decide)
      (by decide)
  · intro ha
    rcases (mem_axioms_clash _).1 ha with same | same | same <;> simp at same
  · intro ha
    exact (Saturation.mem_inferred.1 ha).2 (by decide +kernel)

end TabularOntology.Reasoner
