import TabularOntology.Proofs.Extraction.Least
import TabularOntology.Proofs.Locality.Soundness

/-! What modules are for. A model of a module becomes a model of all that its source says
about the symbols of the module, when everything else is made empty: what the source
says is in the module or is local, and the module itself does not notice. So a module
can stand for its source wherever only its symbols matter. An axiom without any of
these symbols is never looked at, and it counts only if it is local for no symbols at
all. -/

namespace TabularOntology

universe u v

namespace Import

/-- The axioms of an ontology that are about symbols of a signature, and those that are true
once everything is empty. -/
def about (o : Ontology) (s : Signature) : List Axiom :=
  o.axioms.filter fun a => a.iris.any s.contains || a.isLocal ∅

section
variable {o : Ontology} {s seed : Signature} {a : Axiom}
variable {Δ : Type u} {V : Type v} {I : Interpretation Δ V}

theorem mem_about : a ∈ about o s ↔ a ∈ o.axioms ∧ (a.Shares s ∨ a.isLocal ∅) := by
  simp [about, Axiom.Shares]

/-- The symbols of what a set has are among its own symbols. -/
theorem mem_working_of_mem {m : List Axiom} (ha : a ∈ m) : ∀ x ∈ a.iris, x ∈ working seed m :=
  fun _ hx => mem_working.2 (.inr ⟨a, ha, hx⟩)

/-- Outside a closed set there are only axioms that are local for its symbols. -/
theorem Closed.mem_or_isLocal {m : List Axiom} (hc : Closed o.axioms seed m)
    (ha : a ∈ about o (working seed m)) : a ∈ m ∨ a.isLocal (working seed m) := by
  obtain ⟨hao, hs⟩ := mem_about.1 ha
  by_cases shares : a.Shares (working seed m)
  · exact (Decidable.em (a.isLocal (working seed m))).symm.imp_left fun hl => hc a hao ⟨shares, hl⟩
  · have hl : a.isLocal ∅ := hs.resolve_left shares
    exact .inr (Axiom.isLocal_mono (fun x hx hxw => absurd ⟨x, hx, hxw⟩ shares) hl)

/-- Emptying symbols that a set does not have leaves its models models. -/
theorem models_emptied {m : List Axiom} (hm : I.Models m) : (I.emptied (working seed m)).Models m :=
  fun a ha => ((I.agreeOn_emptied _).satisfies_iff (mem_working_of_mem ha)).1 (hm a ha)

theorem Closed.models_emptied_about {m : List Axiom} (hc : Closed o.axioms seed m)
    (hm : I.Models m) : (I.emptied (working seed m)).Models (about o (working seed m)) := by
  intro a ha
  rcases hc.mem_or_isLocal ha with ham | hl
  · exact models_emptied hm a ham
  · exact (I.emptyOutside_emptied _).satisfies hl

/-- What is about the symbols of a closed set only follows from the set if it follows from
its source. -/
theorem Closed.entails {m : List Axiom} (hc : Closed o.axioms seed m)
    (ha : ∀ x ∈ a.iris, x ∈ working seed m)
    (h : Entails.{u, v} (about o (working seed m)) a) : Entails.{u, v} m a := by
  intro Δ V I hm
  have := h Δ V _ (hc.models_emptied_about hm)
  exact ((I.agreeOn_emptied _).satisfies_iff ha).2 this

end

/-- A model of the module, emptied outside the symbols of the module, is a model of the module
and of all that the source says about them; and whatever of this kind follows from the
source follows from the module. -/
theorem extract_conservative (o : Ontology) (seed : Signature) :
    let m := (extract o seed).axioms
    let w := working seed m
    (∀ (Δ : Type u) (V : Type v) (I : Interpretation Δ V), I.Models m →
      (I.emptied w).Models m ∧
        ∀ a ∈ o.axioms, a.Shares w ∨ a.isLocal ∅ → (I.emptied w).Satisfies a) ∧
    ∀ a, (∀ x ∈ a.iris, x ∈ w) → Entails.{u, v} (about o w) a → Entails.{u, v} m a := by
  have closed := (isLeastClosed_extract o seed).closed
  refine ⟨fun Δ V I hm => ⟨models_emptied hm, fun a ha hs => ?_⟩, fun a ha h => closed.entails ha h⟩
  exact closed.models_emptied_about hm a (mem_about.2 ⟨ha, hs⟩)

end Import

end TabularOntology
