import TabularOntology.Proofs.Closure.Families

/-! The modules of a closure. Each one is the module of its source in the least solution, with what
is asked for and without what is excluded. So leaving terms out filters the modules and does
nothing else, and how the terms are put together does not matter. -/

namespace TabularOntology.Import

/-- An axiom without any of the given symbols. -/
def Avoids (a : Axiom) (symbols : Signature) : Prop := ∀ x ∈ a.iris, x ∉ symbols

/-- What the module of a source has besides its axioms: a name of its own, and the version of the
source. -/
structure IsHeaded (base : Option String) (s : Source) (o : Ontology) : Prop where
  iri : o.iri = base.map fun b => ⟨b ++ s.name ++ "_import_module.owl"⟩
  versionIri : o.versionIri = none
  source : o.source = (s.ontology.versionIri <|> s.ontology.iri)
  imports : o.imports = ∅

/-- A closure with the module of the family for each source, together with what is asked for from
the source and without what is excluded; sources for which nothing is left have no module. -/
structure Closure.IsFinished (k : Closure) (base : Option String) (q : Request) (m : Family) :
    Prop where
  headed : ∀ (name : String) (o : Ontology), k.modules[name]? = some o →
    ∃ s ∈ q.sources, s.name = name ∧ IsHeaded base s o ∧ o.axioms ≠ []
  hasFrom_iff : ∀ s ∈ q.sources, ∀ a, k.HasFrom s.name a ↔
    (a ∈ m s.name ∨ a ∈ s.requested.axioms) ∧ Avoids a s.requested.excluded

/-- Ontologies that differ in nothing that can be seen. -/
structure Alike (o p : Ontology) : Prop where
  iri : o.iri = p.iri
  versionIri : o.versionIri = p.versionIri
  source : o.source = p.source
  imports : o.imports.toList = p.imports.toList
  axioms : ∀ a, a ∈ o.axioms ↔ a ∈ p.axioms

/-- Closures that differ in nothing that can be seen. -/
structure Closure.Alike (k l : Closure) : Prop where
  left : ∀ (name : String) (o : Ontology), k.modules[name]? = some o →
    ∃ o', l.modules[name]? = some o' ∧ Import.Alike o o'
  right : ∀ (name : String) (o : Ontology), l.modules[name]? = some o →
    ∃ o', k.modules[name]? = some o' ∧ Import.Alike o o'
  missing : k.missing.toList = l.missing.toList

variable {q p : Request} {k l : Closure} {m n : Family} {s t : Source} {r : Signature}
variable {base : Option String} {a : Axiom} {x : Iri}

theorem intersects_signature {symbols : Signature} :
    a.signature.intersects symbols = false ↔ Avoids a symbols := by
  simp [Signature.intersects, Avoids, Axiom.mem_signature]

namespace Request

/-- The finished module of a source. -/
theorem mem_module (hs : s ∈ q.sources) : a ∈ (s.module base r).axioms ↔
    (a ∈ (extract s.ontology r).axioms ∨ a ∈ s.requested.axioms) ∧
      Avoids a s.requested.excluded := by
  have finished : (s.module base r).axioms =
      (((extract s.ontology r).insertAll s.requested.axioms).retain
        fun a => !a.signature.intersects s.requested.excluded).axioms := rfl
  have kept : s.requested.axioms ⊆ s.ontology.axioms := by
    rw [(mem_sources.1 hs).2]
    exact Requested.axioms_ofTerms_subset
  have chosen : (extract s.ontology r).axioms ⊆ s.ontology.axioms :=
    (isLeastClosed_extract _ _).least _ fun b hb _ => hb
  have distinct := s.ontology.distinctKeys.mono (List.append_subset.2 ⟨chosen, kept⟩)
  rw [finished, Ontology.mem_axioms_retain, Ontology.mem_axioms_insertAll distinct,
    Bool.not_eq_true', intersects_signature]

theorem isHeaded_module (base : Option String) (s : Source) (r : Signature) :
    IsHeaded base s (s.module base r) := by
  obtain ⟨_, versionIri, _, imports⟩ :=
    Ontology.insertAll_unchanged (extract s.ontology r) s.requested.axioms
  obtain ⟨_, versionIri', _, imports'⟩ :=
    Ontology.insertAll_unchanged {} (grow s.ontology.axioms r r.toList)
  exact ⟨rfl, versionIri.trans versionIri', rfl, imports.trans imports'⟩

/-- A closure has the finished modules of the least solution. -/
theorem exists_isFinished (base : Option String) (known : IsKnown q.catalog q.terms) :
    ∃ k, close q.catalog base q.terms q.seed = .ok k ∧
      k.IsFinished base q (ofRouting q.settled) ∧
      k.missing = missing q.catalog q.terms q.seed := by
  obtain ⟨k, hk, missing, mem⟩ := close_of_isKnown known base q.seed
  have between := q.settled_between
  refine ⟨k, hk, ⟨fun name o h => ?_, fun s hs a => ⟨?_, fun ha => ?_⟩⟩, missing⟩
  · obtain ⟨s, r, hr, name, rfl, nonempty⟩ := (mem _ _).1 h
    exact ⟨s, mem_sources_of_mem between hr, name, isHeaded_module base s r, nonempty⟩
  · rintro ⟨o, h, ha⟩
    obtain ⟨t, r, hr, name, rfl, _⟩ := (mem _ _).1 h
    obtain rfl := eq_of_mem_sources (mem_sources_of_mem between hr) hs name
    rwa [mem_module hs, ← mem_ofRouting between hr] at ha
  · obtain ⟨r, hr⟩ := exists_routed between hs
    have ha : a ∈ (s.module base r).axioms := by rwa [mem_module hs, ← mem_ofRouting between hr]
    exact ⟨_, (mem _ _).2 ⟨s, r, hr, rfl, rfl, List.ne_nil_of_mem ha⟩, ha⟩

theorem isFinished_of_close (h : close q.catalog base q.terms q.seed = .ok k) :
    k.IsFinished base q (ofRouting q.settled) := by
  obtain ⟨l, hl, finished, _⟩ := exists_isFinished base (isKnown_of_close h)
  obtain rfl : l = k := Except.ok.inj (hl.symm.trans h)
  exact finished

theorem mem_missing {cat : Catalog} {terms : ImportTerms} {seed : Signature} :
    x ∈ missing cat terms seed ↔ (x ∈ seed ∧ cat.mentions x = false) ∨
      ∃ (name : String) (o : Ontology), cat[name]? = some o ∧
        ∃ t ∈ terms.getD name [], t.iri = x ∧ x ∉ o.signature := by
  simp [missing, Std.TreeSet.mem_filter]
  grind

/-- Whatever the seed is, the axioms that lead to the terms related to a term that is asked for are
in the module, if nothing is excluded. -/
theorem hasFrom_of_traversed {t : ImportTerm} (hk : k.IsFinished base q m) (hs : s ∈ q.sources)
    (included : ∀ u ∈ q.terms.getD s.name [], u.excluded = false)
    (ht : t ∈ q.terms.getD s.name [])
    (ha : a ∈ traversed s.ontology t.related (reachable s.ontology t.iri t.related)) :
    k.HasFrom s.name a := by
  refine (hk.hasFrom_iff s hs a).2 ⟨.inr ?_, fun x _ hx => ?_⟩
  · rw [(mem_sources.1 hs).2]
    refine List.mem_append_left _ (List.mem_flatMap.2 ⟨t, List.mem_filter.2 ⟨ht, ?_⟩, ha⟩)
    rw [included t ht]
    rfl
  · rw [(mem_sources.1 hs).2] at hx
    obtain ⟨u, hu, excluded, _⟩ := Requested.mem_excluded_ofTerms.1 hx
    rw [included u hu] at excluded
    cases excluded

/-! ### Exclusion and order of the terms -/

/-- The same terms but for those that are excluded. -/
def withoutExclusions (q : Request) : Request :=
  { q with terms := q.terms.map fun _ ts => ts.filter fun t => !t.excluded }

theorem getD_withoutExclusions (q : Request) (name : String) :
    q.withoutExclusions.terms.getD name [] =
      (q.terms.getD name []).filter fun t => !t.excluded := by
  rw [withoutExclusions, Std.TreeMap.getD_map, Std.TreeMap.getD_eq_getD_getElem?]
  cases q.terms[name]? <;> rfl

/-- Requests to the same catalog with the same seed that ask for the same terms, whatever they
exclude. -/
structure AsksSame (p q : Request) : Prop where
  catalog : p.catalog = q.catalog
  seed : ∀ x, x ∈ p.seed ↔ x ∈ q.seed
  terms : ∀ name t, t.excluded = false →
    (t ∈ p.terms.getD name [] ↔ t ∈ q.terms.getD name [])

theorem AsksSame.symm (h : p.AsksSame q) : q.AsksSame p :=
  ⟨h.catalog.symm, fun x => (h.seed x).symm, fun name t included => (h.terms name t included).symm⟩

theorem AsksSame.within (h : p.AsksSame q) : p.Within q where
  source s hs := by
    obtain ⟨stored, requested⟩ := mem_sources.1 hs
    refine ⟨_, mem_sources_of_stored (h.catalog ▸ stored), rfl, List.Subset.refl _, ?_⟩
    rw [requested]
    exact Requested.within_ofTerms (h.terms s.name)
  seed x := (h.seed x).1

/-- What is excluded does not matter for the least solution, nor does the order of the terms. -/
theorem AsksSame.mem_ofRouting_iff (h : p.AsksSame q) (hs : s ∈ p.sources) :
    a ∈ ofRouting p.settled s.name ↔ a ∈ ofRouting q.settled s.name := by
  obtain ⟨t, ht, name, _⟩ := h.within.source s hs
  have hp := p.isLeastSolution_settled
  have hq := q.isLeastSolution_settled
  constructor
  · exact fun ha => hp.mono hq.solves h.within s hs ha
  · intro ha
    rw [← name] at ha ⊢
    exact hq.mono hp.solves h.symm.within t ht ha

/-- Closures for the same terms have the same but for what is excluded. -/
theorem AsksSame.hasFrom_iff (h : p.AsksSame q) (hk : k.IsFinished base p (ofRouting p.settled))
    (hl : l.IsFinished base q (ofRouting q.settled)) (hs : s ∈ p.sources) (ht : t ∈ q.sources)
    (name : s.name = t.name) (excluded : ∀ x ∈ t.requested.excluded, x ∈ s.requested.excluded) :
    k.HasFrom s.name a ↔ l.HasFrom s.name a ∧ Avoids a s.requested.excluded := by
  have same (a : Axiom) : a ∈ s.requested.axioms ↔ a ∈ t.requested.axioms := by
    obtain ⟨t', ht', name', _, requested⟩ := h.within.source s hs
    obtain ⟨s', hs', name'', _, requested'⟩ := h.symm.within.source t ht
    obtain rfl := eq_of_mem_sources ht' ht (name'.trans name)
    obtain rfl := eq_of_mem_sources hs' hs (name''.trans name.symm)
    exact ⟨fun ha => requested.axioms ha, fun ha => requested'.axioms ha⟩
  have avoids (avoided : Avoids a s.requested.excluded) : Avoids a t.requested.excluded :=
    fun x hx hxt => avoided x hx (excluded x hxt)
  have hl := hl.hasFrom_iff t ht a
  rw [← name, ← h.mem_ofRouting_iff hs, ← same] at hl
  rw [hk.hasFrom_iff s hs, hl, and_assoc, and_iff_right_of_imp avoids]

theorem asksSame_withoutExclusions (q : Request) : q.AsksSame q.withoutExclusions where
  catalog := rfl
  seed _ := Iff.rfl
  terms name t included := by simp [getD_withoutExclusions, included]

/-- The same source in a request for the same terms, without its exclusions. -/
theorem exists_withoutExclusions (hs : s ∈ q.sources) : ∃ t ∈ q.withoutExclusions.sources,
    s.name = t.name ∧ ∀ x, x ∉ t.requested.excluded := by
  obtain ⟨stored, _⟩ := mem_sources.1 hs
  refine ⟨_, mem_sources_of_stored (q := q.withoutExclusions) stored, rfl, fun x hx => ?_⟩
  obtain ⟨t, ht, excluded, _⟩ := Requested.mem_excluded_ofTerms.1 hx
  rw [getD_withoutExclusions, List.mem_filter, excluded] at ht
  exact absurd ht.2 (by decide)

/-! ### Requests for the same terms -/

/-- Requests with the same seed to the same catalog for the same terms. -/
structure Same (p q : Request) : Prop where
  catalog : p.catalog = q.catalog
  seed : p.seed = q.seed
  terms : ∀ name t, t ∈ p.terms.getD name [] ↔ t ∈ q.terms.getD name []

theorem Same.symm (h : p.Same q) : q.Same p :=
  ⟨h.catalog.symm, h.seed.symm, fun name t => (h.terms name t).symm⟩

theorem Same.asksSame (h : p.Same q) : p.AsksSame q :=
  ⟨h.catalog, fun x => by rw [h.seed], fun name t _ => h.terms name t⟩

/-- The same source in the other request. -/
theorem Same.exists_source (h : p.Same q) (hs : s ∈ p.sources) : ∃ t ∈ q.sources,
    s.name = t.name ∧ s.ontology = t.ontology ∧
      ∀ x, x ∈ s.requested.excluded ↔ x ∈ t.requested.excluded := by
  obtain ⟨stored, requested⟩ := mem_sources.1 hs
  refine ⟨_, mem_sources_of_stored (h.catalog ▸ stored), rfl, rfl, fun x => ?_⟩
  rw [requested]
  simp only [Requested.mem_excluded_ofTerms, h.terms]

theorem Same.hasFrom (h : p.Same q) (hk : k.IsFinished base p (ofRouting p.settled))
    (hl : l.IsFinished base q (ofRouting q.settled)) {name : String} (ha : k.HasFrom name a) :
    l.HasFrom name a := by
  obtain ⟨o, ho, _⟩ := id ha
  obtain ⟨s, hs, rfl, _⟩ := hk.headed name o ho
  obtain ⟨t, ht, name, _, excluded⟩ := h.exists_source hs
  exact ((h.asksSame.hasFrom_iff hk hl hs ht name fun x => (excluded x).2).1 ha).1

/-- Each module of one closure is in the other one. -/
theorem Same.exists_module (h : p.Same q) (hk : k.IsFinished base p (ofRouting p.settled))
    (hl : l.IsFinished base q (ofRouting q.settled)) {name : String} {o : Ontology}
    (ho : k.modules[name]? = some o) : ∃ o', l.modules[name]? = some o' ∧ Alike o o' := by
  obtain ⟨s, hs, named, headed, nonempty⟩ := hk.headed name o ho
  obtain ⟨a, ha⟩ := List.exists_mem_of_ne_nil _ nonempty
  obtain ⟨o', ho', _⟩ := h.hasFrom hk hl ⟨o, ho, ha⟩
  obtain ⟨t, ht, named', headed', _⟩ := hl.headed name o' ho'
  obtain ⟨t', ht', name', ontology, _⟩ := h.exists_source hs
  obtain rfl := eq_of_mem_sources ht' ht (name'.symm.trans (named.trans named'.symm))
  refine ⟨o', ho', ?_, ?_, ?_, ?_, fun a => ⟨fun ha => ?_, fun ha => ?_⟩⟩
  · rw [headed.iri, headed'.iri, name']
  · rw [headed.versionIri, headed'.versionIri]
  · rw [headed.source, headed'.source, ontology]
  · rw [headed.imports, headed'.imports]
  · obtain ⟨u, hu, ha⟩ := h.hasFrom hk hl ⟨o, ho, ha⟩
    rwa [Option.some.inj (hu.symm.trans ho')] at ha
  · obtain ⟨u, hu, ha⟩ := h.symm.hasFrom hl hk ⟨o', ho', ha⟩
    rwa [Option.some.inj (hu.symm.trans ho)] at ha

theorem Same.mem_missing_iff (h : p.Same q) : x ∈ missing p.catalog p.terms p.seed ↔
    x ∈ missing q.catalog q.terms q.seed := by
  simp only [mem_missing, h.catalog, h.seed, h.terms]

end Request

/-! ### Terms put together by calls -/

/-- The terms that calls ask for, one call after the other. -/
def ImportTerms.gather (calls : List (String × List ImportTerm)) : ImportTerms :=
  calls.foldl (fun ts c => ts.add c.1 c.2) ∅

theorem ImportTerms.mem_add {ts : ImportTerms} {source name : String} {terms : List ImportTerm}
    {t : ImportTerm} : t ∈ (ts.add source terms).getD name [] ↔
      t ∈ ts.getD name [] ∨ source = name ∧ t ∈ terms := by
  rw [add, Std.TreeMap.getD_insert]
  by_cases h : source = name
  · subst h
    simp
  · simp [h]

theorem ImportTerms.mem_gather {calls : List (String × List ImportTerm)} {name : String}
    {t : ImportTerm} : t ∈ (gather calls).getD name [] ↔ ∃ c ∈ calls, c.1 = name ∧ t ∈ c.2 := by
  suffices from_ : ∀ ts : ImportTerms,
      t ∈ (calls.foldl (fun ts c => ts.add c.1 c.2) ts).getD name [] ↔
        t ∈ ts.getD name [] ∨ ∃ c ∈ calls, c.1 = name ∧ t ∈ c.2 by
    rw [gather, from_ ∅]
    simp
  induction calls with
  | nil => simp
  | cons c calls ih =>
    intro ts
    rw [List.foldl_cons, ih, mem_add, or_assoc]
    simp

theorem ImportTerms.exists_of_mem_gather {calls : List (String × List ImportTerm)} {name : String}
    (h : name ∈ gather calls) : ∃ c ∈ calls, c.1 = name := by
  refine List.foldlRecOn calls _
    (motive := fun ts : ImportTerms => name ∈ ts → ∃ c ∈ calls, c.1 = name)
    (fun h => absurd h Std.TreeMap.not_mem_emptyc) (fun ts ih c hc h => ?_) h
  rw [add, Std.TreeMap.mem_insert, Std.LawfulEqOrd.compare_eq_iff_eq] at h
  exact h.elim (fun h => ⟨c, hc, h⟩) ih

/-! ### The closure of a request -/

/-- Closing a request ends with the modules of its least solution, as do rounds that route
everything anew, which come to an end. Without the exclusions the closure has the same but for
what is excluded, and calls that ask for the same terms in any order, with any repetition and in
any grouping give a closure that does not differ. -/
theorem close_eq_least_solution (base : Option String) (q : Request)
    (known : IsKnown q.catalog q.terms) :
    ∃ k m, close q.catalog base q.terms q.seed = .ok k ∧ q.IsLeastSolution m ∧
      k.IsFinished base q m ∧
      (∃ i ≤ (sources q.catalog q.terms).room, Routing.Stable q.seed
        ((Routing.reroute q.seed)^[i] (sources q.catalog q.terms))) ∧
      (∀ i, Routing.Stable q.seed ((Routing.reroute q.seed)^[i] (sources q.catalog q.terms)) →
        q.IsLeastSolution
          (Request.ofRouting ((Routing.reroute q.seed)^[i] (sources q.catalog q.terms)))) ∧
      (∃ k₀, close q.catalog base q.withoutExclusions.terms q.seed = .ok k₀ ∧
        ∀ s ∈ q.sources, ∀ a, k.HasFrom s.name a ↔
          k₀.HasFrom s.name a ∧ Avoids a s.requested.excluded) ∧
      ∀ calls : List (String × List ImportTerm), (∀ c ∈ calls, c.1 ∈ q.catalog) →
        (∀ name t, (∃ c ∈ calls, c.1 = name ∧ t ∈ c.2) ↔ t ∈ q.terms.getD name []) →
        ∃ l, close q.catalog base (.gather calls) q.seed = .ok l ∧ k.Alike l := by
  obtain ⟨k, hk, finished, missing⟩ := Request.exists_isFinished base known
  have least := q.isLeastSolution_ofRouting q.settled_between q.isLeastSettled_settled
  refine ⟨k, _, hk, least, finished, q.blank_sources.exists_stable, fun i stable => ?_, ?_,
    fun calls asked same => ?_⟩
  · refine q.isLeastSolution_ofRouting ?_ ?_
    · exact (Routing.map_fst_iterate i).trans q.map_fst_sources
    · exact q.blank_sources.isLeastSettled_iterate (Routing.stable_iff.1 stable).1
  · have known₀ : IsKnown q.catalog q.withoutExclusions.terms := fun name h =>
      known name (Std.TreeMap.mem_map.1 h)
    obtain ⟨k₀, hk₀, finished₀, _⟩ :=
      Request.exists_isFinished (q := q.withoutExclusions) base known₀
    refine ⟨k₀, hk₀, fun s hs a => ?_⟩
    obtain ⟨t, ht, name, none⟩ := Request.exists_withoutExclusions hs
    exact q.asksSame_withoutExclusions.hasFrom_iff finished finished₀ hs ht name fun x hx =>
      absurd hx (none x)
  · let p : Request := { q with terms := .gather calls }
    have known' : IsKnown p.catalog p.terms := fun name h => by
      obtain ⟨c, hc, rfl⟩ := ImportTerms.exists_of_mem_gather h
      exact asked c hc
    obtain ⟨l, hl, finished', missing'⟩ := Request.exists_isFinished base known'
    have terms : q.Same p := ⟨rfl, rfl, fun name t => (same name t).symm.trans
      ImportTerms.mem_gather.symm⟩
    refine ⟨l, hl, fun name o => terms.exists_module finished finished',
      fun name o => terms.symm.exists_module finished' finished, ?_⟩
    rw [missing, missing']
    exact Signature.toList_eq_of_forall_mem fun x => terms.mem_missing_iff

/-- A term that is asked for from one source, and an exclusion from the other source. -/
theorem close_eq_least_solution_excluding :
    let x : Iri := ⟨"urn:x"⟩
    let y : Iri := ⟨"urn:y"⟩
    let up : Axiom := .subClass (.named x) (.named y)
    let down : Axiom := .subClass (.named y) (.named x)
    let terms : ImportTerms :=
      .gather [("left", [{ iri := x }]), ("right", [{ iri := y, excluded := true }])]
    IsKnown (pairOf up down) terms ∧ ∃ k, close (pairOf up down) none terms ∅ = .ok k ∧
      k.HasFrom "left" up ∧ ¬ k.HasFrom "right" down := by
  intro x y up down terms
  let q : Request := ⟨pairOf up down, terms, ∅⟩
  obtain ⟨left, right⟩ : q.catalog["left"]? = some (.ofAxioms [up]) ∧
      q.catalog["right"]? = some (.ofAxioms [down]) := stored_pairOf up down
  have known : IsKnown (pairOf up down) terms := fun name h => by
    rw [Std.TreeMap.mem_iff_isSome_getElem?]
    obtain ⟨c, hc, rfl⟩ := ImportTerms.exists_of_mem_gather h
    simp only [List.mem_cons, List.not_mem_nil, or_false] at hc
    rcases hc with rfl | rfl
    · exact Option.isSome_iff_exists.2 ⟨_, left⟩
    · exact Option.isSome_iff_exists.2 ⟨_, right⟩
  obtain ⟨k, m, hk, least, finished, _⟩ := close_eq_least_solution none q known
  have hleft := Request.mem_sources_of_stored left
  have hright := Request.mem_sources_of_stored right
  refine ⟨known, k, hk, (finished.hasFrom_iff _ hleft up).2 ⟨.inl ?_, fun z _ hz => ?_⟩, fun h => ?_⟩
  · have seeded : x ∈ q.seedFor m
        ⟨"left", .ofAxioms [up], .ofTerms (.ofAxioms [up]) (q.terms.getD "left" [])⟩ :=
      Request.mem_seedFor.2 (.inl (Requested.mem_locality_ofTerms.2 ⟨{ iri := x },
        ImportTerms.mem_gather.2 (by simp), rfl, rfl, mem_reachable.2 .refl⟩))
    exact (least.solves _ hleft up).2 ((isLeastClosed_extract _ _).closed up (mem_axioms_single up)
      (isForced_subClass (mem_working.2 (.inl seeded)) (by decide) (by decide)))
  · obtain ⟨t, ht, excluded, _⟩ := Requested.mem_excluded_ofTerms.1 hz
    obtain ⟨c, hc, name, ht⟩ := ImportTerms.mem_gather.1 ht
    simp only [List.mem_cons, List.not_mem_nil, or_false] at hc
    rcases hc with rfl | rfl
    · rw [List.mem_singleton.1 ht] at excluded
      cases excluded
    · exact absurd name (by decide)
  · have mentioned : y ∈ down.iris := by simp [down, Axiom.iris, ClassExpression.iris]
    refine ((finished.hasFrom_iff _ hright down).1 h).2 y mentioned ?_
    exact Requested.mem_excluded_ofTerms.2 ⟨{ iri := y, excluded := true },
      ImportTerms.mem_gather.2 (by simp), rfl, mem_reachable.2 .refl⟩

end TabularOntology.Import
