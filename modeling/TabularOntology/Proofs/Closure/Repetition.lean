import TabularOntology.Proofs.Closure.Growth

/-! Closing what is closed already. A seed that also has the symbols of the modules routes nothing
new, since what a module brings is routed to the other sources and is known to its own. And the
modules, put in the place of their sources, lose no axiom when they are closed for the same seed:
an axiom that a source would have to bring in is in its module, where all its symbols are
mentioned, so that the same symbols are routed to it. Modules can thus be used as sources. -/

namespace TabularOntology

/-- The same names, and under each name the same axioms. -/
def Ontologies.SameAxioms (os ps : Ontologies) : Prop :=
  ∀ name : String, (os[name]?).map Ontology.axioms = (ps[name]?).map Ontology.axioms

namespace Import

variable {q : Request} {k l : Closure} {m n : Family} {s t : Source} {base : Option String}
variable {cat cat' : Catalog} {seed seed' : Signature} {a : Axiom} {x : Iri}

namespace Request

/-! ### Larger seeds -/

/-- What is extracted from a source is closed for what it is extracted for. -/
theorem Solves.closed (hm : Solves m q) (hs : s ∈ q.sources) :
    Closed s.ontology.axioms (q.seedFor m s) (m s.name) :=
  (isLeastClosed_extract _ _).closed.congr fun a => (hm s hs a).symm

/-- A family that solves a request has all that the symbols of its own axioms bring. -/
theorem Solves.covers_enlarged (hm : Solves m q)
    (own : ∀ x ∈ seed', x ∈ q.seed ∨ ∃ t ∈ q.sources, ∃ a ∈ m t.name, x ∈ a.iris) :
    Covers m { q with seed := seed' } := by
  intro s hs
  refine (isLeastClosed_extract _ _).subset_of_closed (hm.closed hs) (List.Subset.refl _) ?_
  intro x hx
  rw [mem_working, mem_seedFor]
  rcases mem_seedFor.1 hx with hx | ⟨hx | other, mentioned⟩
  · exact .inl (.inl hx)
  · rcases own x hx with hx | ⟨t, ht, a, ha, hxa⟩
    · exact .inl (.inr ⟨.inl hx, mentioned⟩)
    · by_cases same : t.name = s.name
      · exact .inr ⟨a, same ▸ ha, hxa⟩
      · have brought : x ∈ m.brings t := mem_brings.2 (.inr ⟨a, .inr ha, hxa⟩)
        exact .inl (.inr ⟨.inr ⟨t, ht, same, brought⟩, mentioned⟩)
  · exact .inl (.inr ⟨.inr other, mentioned⟩)

/-! ### Modules as sources -/

/-- Where nothing is asked for by name, a source brings the symbols of its module. -/
theorem mem_brings_of_none (hs : s ∈ sources ⟨cat, ∅, seed⟩) :
    x ∈ m.brings s ↔ ∃ a ∈ m s.name, x ∈ a.iris := by
  rw [mem_brings, requested_of_none hs]
  simp

/-- Where nothing is asked for by name, modules are extracted for what the seed and the other
sources bring. -/
theorem mem_seedFor_of_none (hs : s ∈ sources ⟨cat, ∅, seed⟩) :
    x ∈ seedFor ⟨cat, ∅, seed⟩ m s ↔ (x ∈ seed ∨ ∃ t ∈ sources ⟨cat, ∅, seed⟩,
      t.name ≠ s.name ∧ ∃ a ∈ m t.name, x ∈ a.iris) ∧ x ∈ s.ontology.signature := by
  have brought : (∃ t ∈ sources ⟨cat, ∅, seed⟩, t.name ≠ s.name ∧ x ∈ m.brings t) ↔
      ∃ t ∈ sources ⟨cat, ∅, seed⟩, t.name ≠ s.name ∧ ∃ a ∈ m t.name, x ∈ a.iris :=
    exists_congr fun t => and_congr_right fun ht => by rw [mem_brings_of_none ht]
  rw [mem_seedFor, requested_of_none hs, brought]
  exact or_iff_right Std.TreeSet.not_mem_emptyc

/-- A catalog that has the modules of a family in the place of the sources of another one. -/
def HasModules (mods cat : Catalog) (m : Family) : Prop :=
  ∀ (name : String) (o : Ontology), cat[name]? = some o → m name ≠ [] →
    ∃ p, mods[name]? = some p ∧ ∀ a, a ∈ p.axioms ↔ a ∈ m name

variable {mods : Catalog}

/-- The module of a source, as a source. -/
theorem HasModules.exists_source (h : HasModules mods cat m) (hs : s ∈ sources ⟨cat, ∅, seed⟩)
    (ha : a ∈ m s.name) : ∃ t ∈ sources ⟨mods, ∅, seed⟩, t.name = s.name ∧
      ∀ b, b ∈ t.ontology.axioms ↔ b ∈ m s.name := by
  obtain ⟨p, hp, same⟩ := h s.name s.ontology (mem_sources.1 hs).1 (List.ne_nil_of_mem ha)
  exact ⟨_, mem_sources_of_stored hp, rfl, same⟩

/-- What is extracted from modules is all that would be extracted from their sources. -/
theorem HasModules.covers (h : HasModules mods cat m) (hm : Solves m ⟨cat, ∅, seed⟩)
    (hn : Solves n ⟨mods, ∅, seed⟩) (below : ∀ s ∈ sources ⟨cat, ∅, seed⟩, n s.name ⊆ m s.name) :
    Covers n ⟨cat, ∅, seed⟩ := by
  intro s hs
  refine (isLeastClosed_extract _ _).least _ fun a ha forced => ?_
  -- what the smaller family forces in, the larger one does
  have chosen : a ∈ m s.name := by
    refine (hm.closed hs).mem ha (fun x hx => ?_) forced
    rw [mem_working, mem_seedFor_of_none hs] at hx ⊢
    rcases hx with ⟨hx | ⟨t, ht, other, b, hb, hxb⟩, mentioned⟩ | ⟨b, hb, hxb⟩
    · exact .inl ⟨.inl hx, mentioned⟩
    · exact .inl ⟨.inr ⟨t, ht, other, b, below t ht hb, hxb⟩, mentioned⟩
    · exact .inr ⟨b, below s hs hb, hxb⟩
  obtain ⟨t, ht, name, same⟩ := h.exists_source hs chosen
  have kept : a ∈ t.ontology.axioms := (same a).2 chosen
  -- the symbols that force it in are routed to the module, which mentions them all
  have again : a.IsForced (working (seedFor ⟨mods, ∅, seed⟩ n t) (n t.name)) := by
    refine forced.mono fun x hxa hx => ?_
    rw [mem_working, mem_seedFor_of_none hs] at hx
    rw [mem_working, mem_seedFor_of_none ht]
    have mentioned : x ∈ t.ontology.signature := Ontology.mem_signature.2 ⟨a, kept, hxa⟩
    rcases hx with ⟨hx | ⟨u, hu, other, b, hb, hxb⟩, -⟩ | ⟨b, hb, hxb⟩
    · exact .inl ⟨.inl hx, mentioned⟩
    · obtain ⟨v, hv, named, -⟩ := h.exists_source hu (below u hu hb)
      refine .inl ⟨.inr ⟨v, hv, ?_, b, named ▸ hb, hxb⟩, mentioned⟩
      rwa [named, name]
    · exact .inr ⟨b, name ▸ hb, hxb⟩
  exact name ▸ hn.closed ht a kept again

/-! ### What is chosen without terms -/

/-- What is chosen from each source for a seed, nothing being asked for by name. -/
def chosen (cat : Catalog) (seed : Signature) : Family := ofRouting (settled ⟨cat, ∅, seed⟩)

variable {name : String}

theorem isLeastSolution_chosen (cat : Catalog) (seed : Signature) :
    IsLeastSolution (chosen cat seed) ⟨cat, ∅, seed⟩ :=
  isLeastSolution_settled _

/-- Axioms are chosen from sources only. -/
theorem exists_source_of_mem_chosen (ha : a ∈ chosen cat seed name) :
    ∃ s ∈ sources ⟨cat, ∅, seed⟩, s.name = name := by
  obtain ⟨⟨s, r⟩, hr, ha⟩ := List.mem_flatMap.1 ha
  refine ⟨s, mem_sources_of_mem (settled_between _) hr, ?_⟩
  by_contra other
  simp [other] at ha

/-- Nothing is chosen that is not in every family that covers the request. -/
theorem Covers.chosen_subset (h : Covers n ⟨cat, ∅, seed⟩) : chosen cat seed name ⊆ n name := by
  intro a ha
  obtain ⟨s, hs, rfl⟩ := exists_source_of_mem_chosen ha
  have below := (solves_ofRouting (settled_between ⟨cat, ∅, seed⟩) (isLeastSettled_settled _)).2
  exact below n h s hs ha

theorem chosen_mono (h : cat.Within cat') (hs : ∀ x ∈ seed, x ∈ seed') :
    chosen cat seed name ⊆ chosen cat' seed' name := by
  intro a ha
  obtain ⟨s, hs', rfl⟩ := exists_source_of_mem_chosen ha
  have larger := (isLeastSolution_chosen cat' seed').solves
  exact (isLeastSolution_chosen cat seed).mono larger (within_of_sources h hs) s hs' ha

/-- A seed that is larger by symbols of what is chosen chooses nothing else. -/
theorem mem_chosen_of_own (larger : ∀ x ∈ seed, x ∈ seed')
    (own : ∀ x ∈ seed', x ∈ seed ∨ ∃ name, ∃ a ∈ chosen cat seed name, x ∈ a.iris) :
    a ∈ chosen cat seed' name ↔ a ∈ chosen cat seed name := by
  have covers : Covers (chosen cat seed) ⟨cat, ∅, seed'⟩ := by
    refine (isLeastSolution_chosen cat seed).solves.covers_enlarged fun x hx => ?_
    refine (own x hx).imp_right fun ⟨name, b, hb, hxb⟩ => ?_
    obtain ⟨s, hs, rfl⟩ := exists_source_of_mem_chosen hb
    exact ⟨s, hs, b, hb, hxb⟩
  have same : cat.Within cat := fun _ o ho => ⟨o, ho, List.Subset.refl _⟩
  exact ⟨fun ha => covers.chosen_subset ha, fun ha => chosen_mono same larger ha⟩

/-- From the modules of what is chosen all of it is chosen again. -/
theorem HasModules.mem_chosen_iff (h : HasModules mods cat (chosen cat seed))
    (within : mods.Within cat) : a ∈ chosen mods seed name ↔ a ∈ chosen cat seed name := by
  have below {name : String} : chosen mods seed name ⊆ chosen cat seed name :=
    chosen_mono within fun _ => id
  have covers : Covers (chosen mods seed) ⟨cat, ∅, seed⟩ :=
    h.covers (isLeastSolution_chosen cat seed).solves (isLeastSolution_chosen mods seed).solves
      fun _ _ => below
  exact ⟨fun ha => below ha, fun ha => covers.chosen_subset ha⟩

end Request

/-! ### Closures -/

open Request (chosen)

variable {name : String} {o : Ontology}

/-- A symbol that some module mentions. -/
theorem Closure.mem_signature : x ∈ k.signature ↔ ∃ name a, k.HasFrom name a ∧ x ∈ a.iris := by
  rw [signature, Signature.mem_foldl_union]
  simp only [Std.TreeSet.not_mem_emptyc, false_or, Ontologies.mem_all, Ontology.mem_signature]
  constructor
  · rintro ⟨o, ⟨name, ho⟩, a, ha, hx⟩
    exact ⟨name, a, ⟨o, ho, ha⟩, hx⟩
  · rintro ⟨name, a, ⟨o, ho, ha⟩, hx⟩
    exact ⟨o, ⟨name, ho⟩, a, ha, hx⟩

theorem Closure.hasFrom_iff_of_stored (ho : k.modules[name]? = some o) :
    k.HasFrom name a ↔ a ∈ o.axioms := by
  refine ⟨fun ⟨p, hp, ha⟩ => ?_, fun ha => ⟨o, ho, ha⟩⟩
  rwa [Option.some.inj (hp.symm.trans ho)] at ha

section Closed
variable (hk : close cat base ∅ seed = .ok k)
include hk

/-- Where nothing is asked for by name, the modules have what is chosen from the sources. -/
theorem hasFrom_iff_of_close : k.HasFrom name a ↔ a ∈ chosen cat seed name := by
  have finished := Request.isFinished_of_close (q := ⟨cat, ∅, seed⟩) hk
  have own {s : Source} (hs : s ∈ Request.sources ⟨cat, ∅, seed⟩) :
      k.HasFrom s.name a ↔ a ∈ chosen cat seed s.name := by
    rw [finished.hasFrom_iff s hs, Request.requested_of_none hs, chosen]
    simp [Avoids]
  constructor
  · intro ha
    obtain ⟨o, ho, -⟩ := id ha
    obtain ⟨s, hs, rfl, -⟩ := finished.headed name o ho
    exact (own hs).1 ha
  · intro ha
    obtain ⟨s, hs, rfl⟩ := Request.exists_source_of_mem_chosen ha
    exact (own hs).2 ha

/-- The modules take the place of the sources. -/
theorem hasModules_of_close : Request.HasModules k.modules cat (chosen cat seed) := by
  intro name o _ nonempty
  obtain ⟨a, ha⟩ := List.exists_mem_of_ne_nil _ nonempty
  obtain ⟨p, hp, -⟩ := (hasFrom_iff_of_close hk).2 ha
  refine ⟨p, hp, fun b => ?_⟩
  rw [← hasFrom_iff_of_close hk, Closure.hasFrom_iff_of_stored hp]

/-- The modules have no more than their sources. -/
theorem within_of_close : k.modules.Within cat := by
  intro name o ho
  obtain ⟨s, hs, rfl, -⟩ := (Request.isFinished_of_close (q := ⟨cat, ∅, seed⟩) hk).headed name o ho
  refine ⟨s.ontology, (Request.mem_sources.1 hs).1, fun a ha => ?_⟩
  have own := (hasFrom_iff_of_close hk).1 ⟨o, ho, ha⟩
  have extracted := ((Request.isLeastSolution_chosen cat seed).solves s hs a).1 own
  exact (isLeastClosed_extract _ _).least _ (fun b hb _ => hb) extracted

/-- A module is there just if something is chosen from its source. -/
theorem exists_module_iff : (∃ o, k.modules[name]? = some o) ↔ chosen cat seed name ≠ [] := by
  constructor
  · rintro ⟨o, ho⟩
    obtain ⟨_, _, _, _, nonempty⟩ :=
      (Request.isFinished_of_close (q := ⟨cat, ∅, seed⟩) hk).headed name o ho
    obtain ⟨a, ha⟩ := List.exists_mem_of_ne_nil _ nonempty
    exact List.ne_nil_of_mem ((hasFrom_iff_of_close hk).1 ⟨o, ho, ha⟩)
  · intro nonempty
    obtain ⟨a, ha⟩ := List.exists_mem_of_ne_nil _ nonempty
    obtain ⟨o, ho, -⟩ := (hasFrom_iff_of_close hk).2 ha
    exact ⟨o, ho⟩

/-- Closures for which the same is chosen have the same modules. -/
theorem sameAxioms_of_close (hl : close cat' base ∅ seed' = .ok l)
    (same : ∀ name a, a ∈ chosen cat' seed' name ↔ a ∈ chosen cat seed name) :
    l.modules.SameAxioms k.modules := by
  intro name
  have there : (∃ p, l.modules[name]? = some p) ↔ ∃ o, k.modules[name]? = some o := by
    rw [exists_module_iff hl, exists_module_iff hk]
    simp only [ne_eq, List.eq_nil_iff_forall_not_mem, same]
  cases hp : l.modules[name]? with
  | none =>
    cases ho : k.modules[name]? with
    | none => rfl
    | some o => simp [hp, ho] at there
  | some p =>
    obtain ⟨o, ho⟩ := there.1 ⟨p, hp⟩
    rw [ho]
    refine congrArg some (Ontology.axioms_eq_of_forall_mem fun a => ?_)
    rw [← Closure.hasFrom_iff_of_stored hp, ← Closure.hasFrom_iff_of_stored ho,
      hasFrom_iff_of_close hl, hasFrom_iff_of_close hk, same]

end Closed

/-- Closing again changes nothing: neither with all symbols of the modules in the seed, nor with
the modules in the place of the sources. -/
theorem close_idempotent (cat : Catalog) (base : Option String) (seed : Signature) :
    ∃ k, close cat base ∅ seed = .ok k ∧
      (∃ l, close cat base ∅ (seed ∪ k.signature) = .ok l ∧ l.modules.SameAxioms k.modules) ∧
      ∃ l, close k.modules base ∅ seed = .ok l ∧ l.modules.SameAxioms k.modules := by
  obtain ⟨k, hk, -⟩ := close_of_isKnown (isKnown_empty cat) base seed
  obtain ⟨l, hl, -⟩ := close_of_isKnown (isKnown_empty cat) base (seed ∪ k.signature)
  obtain ⟨l', hl', -⟩ := close_of_isKnown (isKnown_empty k.modules) base seed
  refine ⟨k, hk, ⟨l, hl, sameAxioms_of_close hk hl fun name a => ?_⟩,
    ⟨l', hl', sameAxioms_of_close hk hl' fun name a => ?_⟩⟩
  · have larger : ∀ x ∈ seed, x ∈ seed ∪ k.signature := fun x hx =>
      Std.TreeSet.mem_union_iff.2 (.inl hx)
    refine Request.mem_chosen_of_own larger fun x hx => ?_
    refine (Std.TreeSet.mem_union_iff.1 hx).imp_right fun hx => ?_
    obtain ⟨name, a, ha, hxa⟩ := Closure.mem_signature.1 hx
    exact ⟨name, a, (hasFrom_iff_of_close hk).1 ha, hxa⟩
  · exact (hasModules_of_close hk).mem_chosen_iff (within_of_close hk)

end Import

end TabularOntology
