import Mathlib.Data.List.Nodup
import TabularOntology.Proofs.Closure.Union
import TabularOntology.Proofs.Extraction.Related
import TabularOntology.Proofs.Extraction.Single

/-! Import closures with explicit terms, as least solutions. The modules of the sources depend on
each other: each one is extracted for the terms asked for from its source and for what the seed
and all other sources bring that its source mentions. Families of modules of which this is true
have a least one, and that is what routing ends with. Nothing but the set of the terms matters
for it, and excluded terms do not matter at all before the modules are finished. -/

namespace TabularOntology.Import

/-! ### What is asked for from a source -/

namespace Requested

variable {o : Ontology} {ts us : List ImportTerm} {a : Axiom} {x : Iri}

theorem mem_reached : x ∈ reached o ts ↔ ∃ t ∈ ts, x ∈ reachable o t.iri t.related := by
  simp [reached, Signature.mem_foldl_union]

/-- What is kept whatever the seed is comes from the source. -/
theorem axioms_ofTerms_subset : (ofTerms o ts).axioms ⊆ o.axioms := by
  refine List.append_subset.2 ⟨fun a ha => ?_, ?_⟩
  · obtain ⟨t, _, ha⟩ := List.mem_flatMap.1 ha
    exact (List.mem_filter.1 ha).1
  · exact List.Subset.trans Ontology.axioms_ofAxioms_subset (describe_subset _ _)

theorem extractSingle_congr {s t : Signature} (h : ∀ x, x ∈ s ↔ x ∈ t) :
    extractSingle o s = extractSingle o t := by
  rw [extractSingle, Signature.toList_eq_of_forall_mem h, extractSingle]

/-- What asks for no more than something else does; what is excluded does not count. -/
structure Within (p q : Requested) : Prop where
  locality : ∀ x ∈ p.locality, x ∈ q.locality
  axioms : p.axioms ⊆ q.axioms

theorem Within.refl (p : Requested) : p.Within p := ⟨fun _ => id, List.Subset.refl _⟩

/-- Only the set of the terms that are not excluded matters. -/
theorem within_ofTerms (h : ∀ t, t.excluded = false → (t ∈ ts ↔ t ∈ us)) :
    (ofTerms o ts).Within (ofTerms o us) := by
  have kept (t : ImportTerm) :
      (t ∈ ts ∧ (!t.excluded) = true) ↔ (t ∈ us ∧ (!t.excluded) = true) := by
    rw [Bool.not_eq_true']
    exact and_congr_left (h t)
  have chosen (method : ExtractionMethod) (x : Iri) :
      x ∈ reached o ((ts.filter fun t => !t.excluded).filter fun t => t.method = method) ↔
        x ∈ reached o ((us.filter fun t => !t.excluded).filter fun t => t.method = method) := by
    simp only [mem_reached, List.mem_filter, kept]
  refine ⟨fun x => (chosen .locality x).1, fun a ha => ?_⟩
  rcases List.mem_append.1 ha with ha | ha
  · obtain ⟨t, ht, ha⟩ := List.mem_flatMap.1 ha
    have ht : t ∈ us.filter fun t => !t.excluded :=
      List.mem_filter.2 ((kept t).1 (List.mem_filter.1 ht))
    exact List.mem_append_left _ (List.mem_flatMap.2 ⟨t, ht, ha⟩)
  · rw [extractSingle_congr (chosen .single)] at ha
    exact List.mem_append_right _ ha

theorem mem_locality_ofTerms : x ∈ (ofTerms o ts).locality ↔
    ∃ t ∈ ts, t.excluded = false ∧ t.method = .locality ∧ x ∈ reachable o t.iri t.related := by
  simp [ofTerms, mem_reached, and_assoc, and_left_comm]

theorem mem_excluded_ofTerms : x ∈ (ofTerms o ts).excluded ↔
    ∃ t ∈ ts, t.excluded = true ∧ x ∈ reachable o t.iri t.related := by
  simp [ofTerms, mem_reached, and_assoc]

end Requested

/-! ### Requests and families -/

/-- What a closure is made for: sources, the terms asked for from them, and a seed. -/
structure Request where
  catalog : Catalog
  terms : ImportTerms
  seed : Signature

/-- Axioms chosen from each source, by its name. -/
abbrev Family := String → List Axiom

/-- What a source brings into the closure: the symbols that are asked for from it, and those of the
axioms that are asked for or chosen from it. -/
def Family.brings (m : Family) (s : Source) : Signature :=
  s.requested.locality.insertMany ((s.requested.axioms ++ m s.name).flatMap Axiom.iris)

namespace Request

variable {p q : Request} {m n : Family} {s t : Source} {st : Routing} {a : Axiom} {x : Iri}

/-- The sources with what is asked for from them. -/
def sources (q : Request) : List Source :=
  q.catalog.toList.map fun (name, o) => ⟨name, o, .ofTerms o (q.terms.getD name [])⟩

/-- What the module of a source is extracted for: the terms asked for from it, and what the seed
and the other sources bring that it mentions. -/
def seedFor (q : Request) (m : Family) (s : Source) : Signature :=
  let others := q.sources.filter fun t => t.name ≠ s.name
  s.requested.locality ∪ (others.foldl (fun w t => w ∪ m.brings t) q.seed ∩ s.ontology.signature)

/-- A family in which every source has what is extracted from it. -/
def Solves (m : Family) (q : Request) : Prop :=
  ∀ s ∈ q.sources, ∀ a, a ∈ m s.name ↔ a ∈ (extract s.ontology (q.seedFor m s)).axioms

/-- A family in which every source has all that is extracted from it, and maybe more. -/
def Covers (m : Family) (q : Request) : Prop :=
  ∀ s ∈ q.sources, (extract s.ontology (q.seedFor m s)).axioms ⊆ m s.name

/-- The least of the families that solve a request. -/
structure IsLeastSolution (m : Family) (q : Request) : Prop where
  solves : Solves m q
  least : ∀ n, Solves n q → ∀ s ∈ q.sources, m s.name ⊆ n s.name

theorem mem_sources : s ∈ q.sources ↔ q.catalog[s.name]? = some s.ontology ∧
    s.requested = .ofTerms s.ontology (q.terms.getD s.name []) := by
  obtain ⟨name, o, requested⟩ := s
  simp [sources, eq_comm]

theorem mem_sources_of_stored {name : String} {o : Ontology} (h : q.catalog[name]? = some o) :
    ⟨name, o, .ofTerms o (q.terms.getD name [])⟩ ∈ q.sources :=
  mem_sources.2 ⟨h, rfl⟩

/-- No two sources have the same name. -/
theorem nodup_names (q : Request) : (q.sources.map Source.name).Nodup := by
  have names : q.sources.map Source.name = q.catalog.keys := by
    rw [← Std.TreeMap.map_fst_toList_eq_keys]
    simp [sources, Function.comp_def]
  rw [names]
  exact Std.TreeMap.nodup_keys

theorem eq_of_mem_sources (hs : s ∈ q.sources) (ht : t ∈ q.sources) (h : s.name = t.name) : s = t :=
  List.inj_on_of_nodup_map q.nodup_names hs ht h

theorem map_fst_sources (q : Request) :
    (Import.sources q.catalog q.terms).map Prod.fst = q.sources := by
  simp [Import.sources, sources, Function.comp_def]

theorem blank_sources (q : Request) : Routing.Blank (Import.sources q.catalog q.terms) := by
  intro s r hr x
  obtain ⟨⟨name, o⟩, _, pair⟩ := List.mem_map.1 hr
  cases pair
  exact Std.TreeSet.not_mem_emptyc

theorem mem_brings : x ∈ m.brings s ↔ x ∈ s.requested.locality ∨
    ∃ a, (a ∈ s.requested.axioms ∨ a ∈ m s.name) ∧ x ∈ a.iris := by
  simp [Family.brings, or_and_right, exists_or]

theorem mem_seedFor : x ∈ q.seedFor m s ↔ x ∈ s.requested.locality ∨
    (x ∈ q.seed ∨ ∃ t ∈ q.sources, t.name ≠ s.name ∧ x ∈ m.brings t) ∧
      x ∈ s.ontology.signature := by
  simp [seedFor, Std.TreeSet.mem_union_iff, Std.TreeSet.mem_inter_iff, Signature.mem_foldl_union,
    and_assoc]

/-! ### Order -/

/-- A request for no more than what another one is for: each of its sources is there with at least
its axioms and at least what is asked for from it, and the seed is not larger. -/
structure Within (p q : Request) : Prop where
  source : ∀ s ∈ p.sources, ∃ t ∈ q.sources, t.name = s.name ∧
    s.ontology.axioms ⊆ t.ontology.axioms ∧ s.requested.Within t.requested
  seed : ∀ x ∈ p.seed, x ∈ q.seed

theorem brings_mono (hn : t.name = s.name) (h : s.requested.Within t.requested)
    (hx : x ∈ m.brings s) : x ∈ m.brings t := by
  rw [mem_brings] at hx ⊢
  rw [hn]
  refine hx.imp (h.locality x) ?_
  rintro ⟨a, ha, hxa⟩
  exact ⟨a, ha.imp_left fun asked => h.axioms asked, hxa⟩

/-- A family that covers a request covers every smaller one. -/
theorem Covers.mono (hm : Covers m q) (h : p.Within q) : Covers m p := by
  intro s hs
  obtain ⟨t, ht, name, axioms, requested⟩ := h.source s hs
  rw [← name]
  refine List.Subset.trans ?_ (hm t ht)
  refine (isLeastClosed_extract _ _).subset (isLeastClosed_extract _ _) axioms fun x hx => ?_
  rw [mem_seedFor] at hx ⊢
  refine hx.imp (requested.locality x) (And.imp (Or.imp (h.seed x) ?_) fun mentioned => ?_)
  · rintro ⟨u, hu, other, hxu⟩
    obtain ⟨v, hv, name', _, requested'⟩ := h.source u hu
    exact ⟨v, hv, by rwa [name', name], brings_mono name' requested' hxu⟩
  · obtain ⟨a, ha, hxa⟩ := Ontology.mem_signature.1 mentioned
    exact Ontology.mem_signature.2 ⟨a, axioms ha, hxa⟩

/-! ### Families and routings -/

/-- What is extracted from each source for what is routed to it. -/
def ofRouting (st : Routing) : Family := fun name =>
  st.flatMap fun p => if p.1.name = name then (extract p.1.ontology p.2).axioms else []

/-- Routes to every source what its module is extracted for. -/
def toRouting (q : Request) (m : Family) : Routing := q.sources.map fun s => (s, q.seedFor m s)

section Routed
variable (between : st.map Prod.fst = q.sources)
include between

theorem exists_routed (hs : s ∈ q.sources) : ∃ r, (s, r) ∈ st :=
  Routing.mem_map_fst.1 (between ▸ hs)

theorem mem_sources_of_mem {r : Signature} (hr : (s, r) ∈ st) : s ∈ q.sources :=
  between ▸ Routing.mem_map_fst.2 ⟨r, hr⟩

theorem eq_of_name {r r' : Signature} (hr : (s, r) ∈ st) (hr' : (t, r') ∈ st)
    (h : s.name = t.name) : (s, r) = (t, r') := by
  have names : (st.map fun p => p.1.name).Nodup := by
    rw [← Function.comp_def Source.name Prod.fst, ← List.map_map, between]
    exact nodup_names q
  exact List.inj_on_of_nodup_map names hr hr' h

theorem mem_ofRouting {r : Signature} (hr : (s, r) ∈ st) :
    a ∈ ofRouting st s.name ↔ a ∈ (extract s.ontology r).axioms := by
  rw [ofRouting, List.mem_flatMap]
  constructor
  · rintro ⟨⟨t, r'⟩, hr', ha⟩
    dsimp only at ha
    split at ha
    · next name =>
      cases eq_of_name between hr' hr name
      exact ha
    · exact absurd ha List.not_mem_nil
  · exact fun ha => ⟨(s, r), hr, by rwa [if_pos rfl]⟩

theorem mem_brings_ofRouting {r : Signature} (hr : (s, r) ∈ st) :
    x ∈ (ofRouting st).brings s ↔ x ∈ s.needs r := by
  simp only [mem_brings, Source.mem_needs, mem_ofRouting between hr]

/-- What a module is extracted for is what is routed to its source. -/
theorem mem_seedFor_ofRouting :
    x ∈ q.seedFor (ofRouting st) s ↔ x ∈ s.route q.seed st.needs := by
  rw [mem_seedFor, Source.mem_route, or_comm]
  refine or_congr_left (and_congr_left fun _ => or_congr_right ⟨?_, ?_⟩)
  · rintro ⟨t, ht, other, hx⟩
    obtain ⟨r, hr⟩ := exists_routed between ht
    exact ⟨_, Routing.mem_needs.2 ⟨t, r, hr, rfl⟩, other, (mem_brings_ofRouting between hr).1 hx⟩
  · rintro ⟨n, hn, other, hx⟩
    obtain ⟨t, r, hr, rfl⟩ := Routing.mem_needs.1 hn
    exact ⟨t, mem_sources_of_mem between hr, other, (mem_brings_ofRouting between hr).2 hx⟩

end Routed

/-- What a covering family is extracted for is a routing that has all that it asks for. -/
theorem settled_toRouting (hm : Covers m q) : Routing.Settled q.seed (q.toRouting m) := by
  intro s r hr x hx
  obtain ⟨s, hs, pair⟩ := List.mem_map.1 hr
  cases pair
  rw [Source.mem_route] at hx
  refine mem_seedFor.2 (hx.symm.imp_right (And.imp_left (Or.imp_right ?_)))
  rintro ⟨n, hn, other, hx⟩
  obtain ⟨t, r, hr, rfl⟩ := Routing.mem_needs.1 hn
  obtain ⟨t, ht, pair⟩ := List.mem_map.1 hr
  cases pair
  refine ⟨t, ht, other, mem_brings.2 ((Source.mem_needs.1 hx).imp_right ?_)⟩
  exact fun ⟨a, ha, hxa⟩ => ⟨a, ha.imp_right fun kept => hm t ht kept, hxa⟩

/-- The least routing makes a family that solves the request, and every family that covers the
request has more. -/
theorem solves_ofRouting (between : st.map Prod.fst = q.sources)
    (least : Routing.IsLeastSettled q.seed st) : Solves (ofRouting st) q ∧
      ∀ n, Covers n q → ∀ s ∈ q.sources, ofRouting st s.name ⊆ n s.name := by
  constructor
  · intro s hs a
    obtain ⟨r, hr⟩ := exists_routed between hs
    rw [mem_ofRouting between hr]
    refine mem_extract_congr fun x => ?_
    rw [mem_seedFor_ofRouting between]
    exact (Routing.stable_iff.2 ⟨least.settled, least.rising⟩ s r hr x).symm
  · intro n hn s hs a ha
    obtain ⟨r, hr⟩ := exists_routed between hs
    have sources : (q.toRouting n).map Prod.fst = st.map Prod.fst := by
      simp [toRouting, Function.comp_def, between]
    obtain ⟨r', hr', more⟩ := least.least _ sources (settled_toRouting hn) s r hr
    obtain ⟨t, _, pair⟩ := List.mem_map.1 hr'
    cases pair
    have larger : (extract s.ontology r).axioms ⊆ (extract s.ontology (q.seedFor n s)).axioms :=
      (isLeastClosed_extract _ _).subset (isLeastClosed_extract _ _) (List.Subset.refl _) more
    exact hn s hs (larger ((mem_ofRouting between hr).1 ha))

theorem Solves.covers (h : Solves m q) : Covers m q := fun s hs a => (h s hs a).2

theorem isLeastSolution_ofRouting (between : st.map Prod.fst = q.sources)
    (least : Routing.IsLeastSettled q.seed st) : IsLeastSolution (ofRouting st) q :=
  let ⟨solves, below⟩ := solves_ofRouting between least
  ⟨solves, fun n hn => below n hn.covers⟩

/-- What routing ends with between the sources of a request. -/
def settled (q : Request) : Routing := Routing.settle q.seed (Import.sources q.catalog q.terms)

theorem settled_between (q : Request) : q.settled.map Prod.fst = q.sources :=
  Routing.map_fst_settle.trans q.map_fst_sources

theorem isLeastSettled_settled (q : Request) : Routing.IsLeastSettled q.seed q.settled :=
  q.blank_sources.isLeastSettled_settle

/-- What is extracted for what routing ends with is the least solution. -/
theorem isLeastSolution_settled (q : Request) : IsLeastSolution (ofRouting q.settled) q :=
  isLeastSolution_ofRouting q.settled_between q.isLeastSettled_settled

/-- Smaller requests have smaller least solutions. -/
theorem IsLeastSolution.mono (hm : IsLeastSolution m p) (hn : Solves n q) (h : p.Within q) :
    ∀ s ∈ p.sources, m s.name ⊆ n s.name := by
  obtain ⟨solves, below⟩ := solves_ofRouting p.settled_between p.isLeastSettled_settled
  intro s hs a ha
  exact below n (hn.covers.mono h) s hs (hm.least _ solves s hs ha)

end Request

end TabularOntology.Import
