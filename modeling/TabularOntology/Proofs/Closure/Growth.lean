import TabularOntology.Proofs.Closure.Terms

/-! Larger requests have larger closures. A larger seed gives every module at least the axioms it
had, whatever is asked for and excluded by name, and no symbol that was missing is found. Where
nothing is asked for by name, larger sources and more of them give larger modules, too; with
exclusions they need not, since a larger source may have more terms related to an excluded one. -/

namespace TabularOntology

/-- Every ontology is there under its name with at least its axioms. -/
def Ontologies.Within (os ps : Ontologies) : Prop :=
  ∀ (name : String) (o : Ontology), os[name]? = some o →
    ∃ p, ps[name]? = some p ∧ o.axioms ⊆ p.axioms

namespace Import

variable {p q : Request} {k l : Closure} {s t : Source} {base : Option String} {cat : Catalog}
variable {terms : ImportTerms} {seed seed' : Signature}

namespace Request

/-- A larger request that excludes no more has a larger closure. -/
theorem Within.modules (h : p.Within q) (hk : k.IsFinished base p (ofRouting p.settled))
    (hl : l.IsFinished base q (ofRouting q.settled))
    (excluded : ∀ s ∈ p.sources, ∀ t ∈ q.sources, t.name = s.name →
      ∀ x ∈ t.requested.excluded, x ∈ s.requested.excluded) :
    k.modules.Within l.modules := by
  have hp := p.isLeastSolution_settled
  have hq := q.isLeastSolution_settled
  have grows {name : String} {a : Axiom} (ha : k.HasFrom name a) : l.HasFrom name a := by
    obtain ⟨o, ho, _⟩ := id ha
    obtain ⟨s, hs, rfl, _⟩ := hk.headed name o ho
    obtain ⟨t, ht, name, _, requested⟩ := h.source s hs
    obtain ⟨chosen, avoids⟩ := (hk.hasFrom_iff s hs a).1 ha
    have above := hp.mono hq.solves h s hs
    rw [← name] at above ⊢
    rw [hl.hasFrom_iff t ht]
    refine ⟨?_, fun x hx hxt => avoids x hx (excluded s hs t ht name x hxt)⟩
    exact chosen.imp (fun ha => above (name ▸ ha)) fun ha => requested.axioms ha
  intro name o ho
  obtain ⟨_, _, _, _, nonempty⟩ := hk.headed name o ho
  obtain ⟨a, ha⟩ := List.exists_mem_of_ne_nil _ nonempty
  obtain ⟨o', ho', _⟩ := grows ⟨o, ho, ha⟩
  refine ⟨o', ho', fun b hb => ?_⟩
  obtain ⟨u, hu, hb⟩ := grows ⟨o, ho, hb⟩
  rwa [Option.some.inj (hu.symm.trans ho')] at hb

theorem requested_of_none (h : s ∈ sources ⟨cat, ∅, seed⟩) : s.requested = ⟨∅, [], ∅⟩ := by
  rw [(mem_sources.1 h).2, Std.TreeMap.getD_emptyc, ofTerms_nil]

/-- With larger sources and a larger seed a request that asks for nothing by name is larger. -/
theorem within_of_sources {cat' : Catalog} (h : cat.Within cat') (hs : ∀ x ∈ seed, x ∈ seed') :
    Within ⟨cat, ∅, seed⟩ ⟨cat', ∅, seed'⟩ where
  source s hs := by
    obtain ⟨o, ho, axioms⟩ := h _ _ (mem_sources.1 hs).1
    refine ⟨_, mem_sources_of_stored ho, rfl, axioms, ?_⟩
    rw [requested_of_none hs, requested_of_none (mem_sources_of_stored ho)]
    exact .refl _
  seed := hs

end Request

end Import

end TabularOntology
