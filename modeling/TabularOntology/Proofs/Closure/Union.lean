import TabularOntology.Proofs.Closure.Routing
import TabularOntology.Proofs.Key.Injective

/-! Import closures without explicit terms. Routing symbols between sources amounts to one
extraction from all sources together: a module never gets a symbol that is not among the
symbols of the one extraction, and what the one extraction chooses is chosen by every
source that has it, since its symbols are routed there or are in the module already. So it
does not matter how the axioms are distributed over the sources. -/

namespace TabularOntology

namespace Catalog

/-- All sources in one ontology. -/
def union (cat : Catalog) : Ontology := cat.all.foldl Ontology.merge {}

/-- All names in all sources are plain. -/
def IsPlain (cat : Catalog) : Prop :=
  ∀ (name : String) (o : Ontology), cat[name]? = some o → ∀ a ∈ o.axioms, a.isPlain

variable {cat : Catalog} {a : Axiom}

theorem mem_all {o : Ontology} : o ∈ cat.all ↔ ∃ name : String, cat[name]? = some o := by
  simp [Ontologies.all]

/-- Keys tell axioms with plain names apart. -/
theorem distinctKeys_of_isPlain {as : List Axiom} (h : ∀ a ∈ as, a.isPlain) : DistinctKeys as :=
  fun a ha b hb => Axiom.eq_of_key_eq (h a ha) (h b hb)

theorem mem_axioms_foldl_merge {os : List Ontology} {u : Ontology} (hu : ∀ a ∈ u.axioms, a.isPlain)
    (hos : ∀ o ∈ os, ∀ a ∈ o.axioms, a.isPlain) :
    a ∈ (os.foldl Ontology.merge u).axioms ↔ a ∈ u.axioms ∨ ∃ o ∈ os, a ∈ o.axioms := by
  induction os generalizing u with
  | nil => simp
  | cons o os ih =>
    obtain ⟨ho, hos⟩ := List.forall_mem_cons.1 hos
    have plain : ∀ a ∈ u.axioms ++ o.axioms, a.isPlain := List.forall_mem_append.2 ⟨hu, ho⟩
    have merged : ∀ a, a ∈ (u.merge o).axioms ↔ a ∈ u.axioms ∨ a ∈ o.axioms := fun a =>
      Ontology.mem_axioms_merge (distinctKeys_of_isPlain plain)
    rw [List.foldl_cons, ih (fun a ha => plain a (by simpa using (merged a).1 ha)) hos, merged,
      or_assoc]
    simp

theorem mem_axioms_union (hc : cat.IsPlain) : a ∈ cat.union.axioms ↔
    ∃ (name : String) (o : Ontology), cat[name]? = some o ∧ a ∈ o.axioms := by
  have plain : ∀ o ∈ cat.all, ∀ a ∈ o.axioms, a.isPlain := fun o ho =>
    let ⟨name, h⟩ := mem_all.1 ho
    hc name o h
  rw [union, mem_axioms_foldl_merge (by simp) plain]
  simp only [Ontology.axioms_empty, List.not_mem_nil, false_or, mem_all]
  grind

end Catalog

namespace Import

/-! ### Sources without terms -/

/-- Nothing is asked for. -/
theorem ofTerms_nil (o : Ontology) : Requested.ofTerms o [] = ⟨∅, [], ∅⟩ := by
  have entities : (∅ : Signature).toList = [] := rfl
  have none : extractSingle o ∅ = {} := by
    rw [extractSingle, entities, describe]
    rfl
  simp [Requested.ofTerms, Requested.reached, none]

variable {cat : Catalog} {st : Routing} {s t : Source} {r seed : Signature} {a : Axiom} {x : Iri}

/-- A source of a catalog, nothing being asked for. -/
def IsSource (cat : Catalog) (s : Source) : Prop :=
  cat[s.name]? = some s.ontology ∧ s.requested = ⟨∅, [], ∅⟩

theorem IsSource.ext (hs : IsSource cat s) (ht : IsSource cat t) (h : s.name = t.name) : s = t := by
  obtain ⟨hso, hsr⟩ := hs
  obtain ⟨hto, htr⟩ := ht
  rw [h, hto] at hso
  cases s
  cases t
  simp_all

theorem mem_sources : (s, r) ∈ sources cat ∅ ↔ IsSource cat s ∧ r = ∅ := by
  obtain ⟨name, o, requested⟩ := s
  simp [sources, ofTerms_nil, IsSource, eq_comm]
  grind

theorem IsSource.mem_needs (hs : IsSource cat s) :
    x ∈ s.needs r ↔ ∃ a ∈ (extract s.ontology r).axioms, x ∈ a.iris := by
  rw [Source.mem_needs, hs.2]
  simp

theorem IsSource.mem_route (hs : IsSource cat s) : x ∈ s.route seed st.needs ↔
    (x ∈ seed ∨ ∃ n ∈ st.needs, n.1 ≠ s.name ∧ x ∈ n.2) ∧ x ∈ s.ontology.signature := by
  rw [Source.mem_route, hs.2]
  simp

/-! ### One extraction instead of rounds -/

/-- A routing between the sources of a catalog. -/
def IsBetween (cat : Catalog) (st : Routing) : Prop :=
  st.map Prod.fst = (sources cat ∅).map Prod.fst

theorem IsBetween.isSource (h : IsBetween cat st) (hr : (s, r) ∈ st) : IsSource cat s := by
  have hs : s ∈ (sources cat ∅).map Prod.fst := h ▸ List.mem_map_of_mem hr
  obtain ⟨r', hs⟩ := Routing.mem_map_fst.1 hs
  exact (mem_sources.1 hs).1

theorem IsBetween.exists_routed (h : IsBetween cat st) (hs : IsSource cat s) :
    ∃ r, (s, r) ∈ st := by
  have hs : s ∈ (sources cat ∅).map Prod.fst := List.mem_map_of_mem (mem_sources.2 ⟨hs, rfl⟩)
  exact Routing.mem_map_fst.1 (h ▸ hs)

theorem isBetween_settle : IsBetween cat (Routing.settle seed (sources cat ∅)) :=
  Routing.map_fst_settle

/-- Routes to every source the symbols that it shares with the module of all sources. -/
def shared (cat : Catalog) (seed : Signature) (st : Routing) : Routing :=
  st.map fun (s, _) => (s, s.ontology.signature ∩ working seed (extract cat.union seed).axioms)

theorem mem_shared (h : (s, r) ∈ shared cat seed st) : (∃ r', (s, r') ∈ st) ∧
    ∀ x, x ∈ r ↔ x ∈ s.ontology.signature ∧ x ∈ working seed (extract cat.union seed).axioms := by
  obtain ⟨⟨t, r'⟩, ht, heq⟩ := List.mem_map.1 h
  obtain ⟨rfl, rfl⟩ := Prod.mk.inj heq
  exact ⟨⟨r', ht⟩, fun x => Std.TreeSet.mem_inter_iff⟩

theorem extract_subset_union (hc : cat.IsPlain) (hs : IsSource cat s)
    (hr : ∀ x ∈ r, x ∈ working seed (extract cat.union seed).axioms) :
    (extract s.ontology r).axioms ⊆ (extract cat.union seed).axioms :=
  (isLeastClosed_extract _ _).subset_of_closed (isLeastClosed_extract _ _).closed
    (fun _ ha => (Catalog.mem_axioms_union hc).2 ⟨s.name, s.ontology, hs.1, ha⟩) hr

/-- The shared symbols are a routing that has all that it asks for. -/
theorem settled_shared (hc : cat.IsPlain) (h : IsBetween cat st) :
    Routing.Settled seed (shared cat seed st) := by
  intro s r hr x hx
  obtain ⟨⟨r', hr'⟩, mem⟩ := mem_shared hr
  rw [(h.isSource hr').mem_route] at hx
  refine (mem x).2 ⟨hx.2, mem_working.2 (hx.1.imp_right ?_)⟩
  rintro ⟨n, hn, _, hxn⟩
  obtain ⟨t, u, hu, rfl⟩ := Routing.mem_needs.1 hn
  obtain ⟨⟨u', hu'⟩, mem⟩ := mem_shared hu
  obtain ⟨a, ha, hxa⟩ := (h.isSource hu').mem_needs.1 hxn
  exact ⟨a, extract_subset_union hc (h.isSource hu') (fun y hy => ((mem y).1 hy).2) ha, hxa⟩

/-- No source has more than the module of all sources. -/
theorem module_subset (hc : cat.IsPlain) (h : IsBetween cat st)
    (hl : Routing.IsLeastSettled seed st) (hr : (s, r) ∈ st) :
    (extract s.ontology r).axioms ⊆ (extract cat.union seed).axioms := by
  have sources : (shared cat seed st).map Prod.fst = st.map Prod.fst := by
    simp [shared, Function.comp_def]
  obtain ⟨r', hr', hle⟩ := hl.least _ sources (settled_shared hc h) s r hr
  obtain ⟨_, mem⟩ := mem_shared hr'
  exact extract_subset_union hc (h.isSource hr) fun x hx => ((mem x).1 (hle x hx)).2

/-- Axioms that every source has in its module that has them at all. -/
def Everywhere (st : Routing) (a : Axiom) : Prop :=
  ∀ s r, (s, r) ∈ st → a ∈ s.ontology.axioms → a ∈ (extract s.ontology r).axioms

open Classical in
/-- They have all that they force in, wherever it is. -/
theorem closed_everywhere (hc : cat.IsPlain) (h : IsBetween cat st) (hs : Routing.Settled seed st) :
    Closed cat.union.axioms seed (cat.union.axioms.filter fun a => Everywhere st a) := by
  intro a ha hf
  refine List.mem_filter.2 ⟨ha, decide_eq_true fun s r hr has => ?_⟩
  refine (isLeastClosed_extract s.ontology r).closed a has (hf.mono fun x hxa hx => ?_)
  have mentioned : x ∈ s.ontology.signature := Ontology.mem_signature.2 ⟨a, has, hxa⟩
  have route := hs s r hr x
  rw [(h.isSource hr).mem_route] at route
  rcases mem_working.1 hx with hx | ⟨b, hb, hxb⟩
  · exact mem_working.2 (.inl (route ⟨.inl hx, mentioned⟩))
  · -- the symbol comes with an axiom of this source or of another one
    obtain ⟨hbu, hbe⟩ := List.mem_filter.1 hb
    have hbe : Everywhere st b := of_decide_eq_true hbe
    obtain ⟨name, o, ho, hbo⟩ := (Catalog.mem_axioms_union hc).1 hbu
    have ht : IsSource cat ⟨name, o, ⟨∅, [], ∅⟩⟩ := ⟨ho, rfl⟩
    obtain ⟨r', hr'⟩ := h.exists_routed ht
    by_cases hname : name = s.name
    · obtain rfl := ht.ext (h.isSource hr) hname
      exact mem_working.2 (.inr ⟨b, hbe _ r hr hbo, hxb⟩)
    · have needed := ht.mem_needs.2 ⟨b, hbe _ r' hr' hbo, hxb⟩
      have other := Routing.mem_needs.2 ⟨_, r', hr', rfl⟩
      exact mem_working.2 (.inl (route ⟨.inr ⟨_, other, hname, needed⟩, mentioned⟩))

/-- The module of a source is what it has of the module of all sources. -/
theorem mem_module_iff (hc : cat.IsPlain) (h : IsBetween cat st)
    (hl : Routing.IsLeastSettled seed st) (hr : (s, r) ∈ st) : a ∈ (extract s.ontology r).axioms ↔
      a ∈ s.ontology.axioms ∧ a ∈ (extract cat.union seed).axioms := by
  classical
  have own := (isLeastClosed_extract s.ontology r).least s.ontology.axioms fun b hb _ => hb
  have all := (isLeastClosed_extract cat.union seed).least _ (closed_everywhere hc h hl.settled)
  refine ⟨fun ha => ⟨own ha, module_subset hc h hl hr ha⟩, fun ⟨has, hau⟩ => ?_⟩
  exact of_decide_eq_true (List.mem_filter.1 (all hau)).2 s r hr has

/-! ### The closure -/

theorem getElem?_ofList_iff {l : List (String × Ontology)}
    (h : l.Pairwise fun p q => ¬ compare p.1 q.1 = .eq) {name : String} {m : Ontology} :
    (Std.TreeMap.ofList l)[name]? = some m ↔ (name, m) ∈ l := by
  have stored : ∀ m, (name, m) ∈ l → (Std.TreeMap.ofList l)[name]? = some m := fun m =>
    Std.TreeMap.getElem?_ofList_of_mem Std.ReflCmp.compare_self h
  refine ⟨fun hm => ?_, stored m⟩
  have hk : name ∈ Std.TreeMap.ofList l := Std.TreeMap.mem_iff_isSome_getElem?.2 (by simp [hm])
  rw [Std.TreeMap.mem_ofList, List.contains_iff_mem] at hk
  obtain ⟨⟨k, m'⟩, hm', rfl⟩ := List.mem_map.1 hk
  rw [stored m' hm'] at hm
  exact Option.some.inj hm ▸ hm'

/-- No two sources have the same name. -/
theorem pairwise_names {terms : ImportTerms}
    (h : st.map Prod.fst = (sources cat terms).map Prod.fst) :
    st.Pairwise fun p q => ¬ compare p.1.name q.1.name = .eq := by
  have names : ((sources cat terms).map Prod.fst).Pairwise
      fun s t => ¬ compare s.name t.name = .eq := by
    rw [sources, List.map_map, List.pairwise_map]
    exact cat.distinct_keys_toList
  rwa [← h, List.pairwise_map] at names

theorem IsSource.mem_module (base : Option String) (hs : IsSource cat s) :
    a ∈ (s.module base r).axioms ↔ a ∈ (extract s.ontology r).axioms := by
  have kept : (s.module base r).axioms =
      (((extract s.ontology r).insertAll s.requested.axioms).retain
        fun a => !a.signature.intersects s.requested.excluded).axioms := rfl
  rw [kept, Ontology.mem_axioms_retain, hs.2]
  simp [Ontology.insertAll, Signature.intersects]

/-- An axiom of the module of a source. -/
def Closure.HasFrom (k : Closure) (name : String) (a : Axiom) : Prop :=
  ∃ m, k.modules[name]? = some m ∧ a ∈ m.axioms

/-- An axiom of some module. -/
def Closure.Has (k : Closure) (a : Axiom) : Prop := ∃ name, k.HasFrom name a

/-- A closure that has from every source what the source has of the module of all sources, and
that has no empty modules. -/
structure Closure.IsExact (k : Closure) (cat : Catalog) (seed : Signature) : Prop where
  nonempty : ∀ (name : String) (m : Ontology), k.modules[name]? = some m →
    name ∈ cat ∧ m.axioms ≠ []
  hasFrom_iff : ∀ (name : String) (o : Ontology), cat[name]? = some o → ∀ a,
    k.HasFrom name a ↔ a ∈ o.axioms ∧ a ∈ (extract cat.union seed).axioms

/-- Terms are asked for from sources of the catalog only. -/
def IsKnown (cat : Catalog) (terms : ImportTerms) : Prop := ∀ name ∈ terms, name ∈ cat

/-- What the closure of a catalog is. -/
theorem close_of_isKnown {terms : ImportTerms} (known : IsKnown cat terms) (base : Option String)
    (seed : Signature) : ∃ k, close cat base terms seed = .ok k ∧
      k.missing = missing cat terms seed ∧ ∀ (name : String) (m : Ontology),
        k.modules[name]? = some m ↔ ∃ s r, (s, r) ∈ Routing.settle seed (sources cat terms) ∧
          s.name = name ∧ s.module base r = m ∧ m.axioms ≠ [] := by
  have none : terms.keys.find? (fun name => !cat.contains name) = none := by
    simpa [IsKnown] using known
  unfold close
  rw [none]
  refine ⟨_, rfl, rfl, fun name m => ?_⟩
  have fixed : (Routing.settle seed (sources cat terms)).map Prod.fst =
      (sources cat terms).map Prod.fst := Routing.map_fst_settle
  have distinct := pairwise_names fixed
  dsimp only
  rw [getElem?_ofList_iff ((List.pairwise_map.2 distinct).filter _)]
  simp [Ontology.size_eq_length]
  grind

/-- Terms that cannot be asked for are an error for every seed. -/
theorem close_of_not_isKnown {terms : ImportTerms} (unknown : ¬ IsKnown cat terms)
    (base : Option String) : ∃ e, ∀ seed, close cat base terms seed = .error e := by
  cases found : terms.keys.find? fun name => !cat.contains name with
  | some name => exact ⟨.unknownSource name, fun seed => by rw [close, found]⟩
  | none => exact absurd (by simpa [IsKnown] using found) unknown

theorem isKnown_of_close {terms : ImportTerms} {base : Option String} {k : Closure}
    (h : close cat base terms seed = .ok k) : IsKnown cat terms := by
  by_contra unknown
  obtain ⟨e, he⟩ := close_of_not_isKnown unknown base
  rw [he] at h
  cases h

theorem missing_of_close {terms : ImportTerms} {base : Option String} {k : Closure}
    (h : close cat base terms seed = .ok k) : k.missing = missing cat terms seed := by
  obtain ⟨l, hl, missing, -⟩ := close_of_isKnown (isKnown_of_close h) base seed
  rw [← missing, Except.ok.inj (hl.symm.trans h)]

theorem isKnown_empty (cat : Catalog) : IsKnown cat ∅ := fun _ h => absurd h Std.TreeMap.not_mem_emptyc

theorem blank_sources : Routing.Blank (sources cat ∅) := by
  intro s r hr x
  obtain ⟨_, rfl⟩ := mem_sources.1 hr
  exact Std.TreeSet.not_mem_emptyc

theorem exists_close (base : Option String) (seed : Signature) (hc : cat.IsPlain) :
    ∃ k, close cat base ∅ seed = .ok k ∧ k.IsExact cat seed := by
  obtain ⟨k, hk, -, mem⟩ := close_of_isKnown (isKnown_empty cat) base seed
  have least : Routing.IsLeastSettled seed (Routing.settle seed (sources cat ∅)) :=
    blank_sources.isLeastSettled_settle
  refine ⟨k, hk, fun name m hm => ?_, fun name o ho a => ⟨?_, fun ha => ?_⟩⟩
  · obtain ⟨s, r, hr, rfl, rfl, hne⟩ := (mem name m).1 hm
    have hs := (isBetween_settle.isSource hr).1
    exact ⟨Std.TreeMap.mem_iff_isSome_getElem?.2 (by simp [hs]), hne⟩
  · rintro ⟨m, hm, ha⟩
    obtain ⟨s, r, hr, rfl, rfl, _⟩ := (mem name m).1 hm
    have hs := isBetween_settle.isSource hr
    obtain rfl : s.ontology = o := Option.some.inj (hs.1.symm.trans ho)
    exact (mem_module_iff hc isBetween_settle least hr).1 ((hs.mem_module base).1 ha)
  · have hs : IsSource cat ⟨name, o, ⟨∅, [], ∅⟩⟩ := ⟨ho, rfl⟩
    obtain ⟨r, hr⟩ := isBetween_settle.exists_routed hs
    have ha := (hs.mem_module base).2 ((mem_module_iff hc isBetween_settle least hr).2 ha)
    exact ⟨_, (mem name _).2 ⟨_, r, hr, rfl, rfl, List.ne_nil_of_mem ha⟩, ha⟩

/-- All modules together are the module of all sources. -/
theorem Closure.IsExact.has_iff {k : Closure} (hk : k.IsExact cat seed) (hc : cat.IsPlain) :
    k.Has a ↔ a ∈ (extract cat.union seed).axioms := by
  constructor
  · rintro ⟨name, m, hm, ha⟩
    have named := (hk.nonempty name m hm).1
    obtain ⟨o, ho⟩ := Option.isSome_iff_exists.1 (Std.TreeMap.mem_iff_isSome_getElem?.1 named)
    exact ((hk.hasFrom_iff name o ho a).1 ⟨m, hm, ha⟩).2
  · intro ha
    have own : a ∈ cat.union.axioms :=
      (isLeastClosed_extract cat.union seed).least _ (fun b hb _ => hb) ha
    obtain ⟨name, o, ho, hao⟩ := (Catalog.mem_axioms_union hc).1 own
    exact ⟨name, (hk.hasFrom_iff name o ho a).2 ⟨hao, ha⟩⟩

/-- The module depends on what all sources have together only. -/
theorem extract_union_congr {d : Catalog} (h : ∀ a, a ∈ cat.union.axioms ↔ a ∈ d.union.axioms) :
    a ∈ (extract cat.union seed).axioms ↔ a ∈ (extract d.union seed).axioms := by
  have hc := isLeastClosed_extract cat.union seed
  have hd := isLeastClosed_extract d.union seed
  constructor
  · exact fun ha => hc.subset hd (fun b hb => (h b).1 hb) (fun _ => id) ha
  · exact fun ha => hd.subset hc (fun b hb => (h b).2 hb) (fun _ => id) ha

/-- Closing a seed without terms gives every source what it has of the module of all sources
together. So do rounds that route everything anew until a round changes nothing, and there is
such a round. Catalogs with the same axioms, however distributed, give the same axioms. -/
theorem close_eq_extract_union (base : Option String) (seed : Signature) (cat : Catalog)
    (hc : cat.IsPlain) :
    ∃ k, close cat base ∅ seed = .ok k ∧ k.IsExact cat seed ∧
      (∃ n ≤ (sources cat ∅).room,
        Routing.Stable seed ((Routing.reroute seed)^[n] (sources cat ∅))) ∧
      (∀ n, Routing.Stable seed ((Routing.reroute seed)^[n] (sources cat ∅)) →
        ∀ s r, (s, r) ∈ (Routing.reroute seed)^[n] (sources cat ∅) → ∀ a,
          a ∈ (extract s.ontology r).axioms ↔ k.HasFrom s.name a) ∧
      ∀ d : Catalog, d.IsPlain → (∀ a, a ∈ d.union.axioms ↔ a ∈ cat.union.axioms) →
        ∃ l, close d base ∅ seed = .ok l ∧ ∀ a, l.Has a ↔ k.Has a := by
  obtain ⟨k, hk, hx⟩ := exists_close base seed hc
  refine ⟨k, hk, hx, blank_sources.exists_stable, fun n hs s r hr a => ?_, fun d hd same => ?_⟩
  · have between : IsBetween cat ((Routing.reroute seed)^[n] (sources cat ∅)) :=
      Routing.map_fst_iterate n
    have least := blank_sources.isLeastSettled_iterate (Routing.stable_iff.1 hs).1
    rw [mem_module_iff hc between least hr,
      hx.hasFrom_iff s.name s.ontology (between.isSource hr).1]
  · obtain ⟨l, hl, hy⟩ := exists_close base seed hd
    exact ⟨l, hl, fun a => by rw [hy.has_iff hd, hx.has_iff hc, extract_union_congr same]⟩

/-! ### Two sources that need each other -/

theorem isPlain_insert {name : String} {b : Axiom} (hc : cat.IsPlain) (hb : b.isPlain) :
    Catalog.IsPlain (cat.insert name (.ofAxioms [b])) := by
  intro name' o ho a ha
  rw [Std.TreeMap.getElem?_insert] at ho
  split at ho
  · obtain rfl := Option.some.inj ho
    rw [List.mem_singleton.1 (Ontology.axioms_ofAxioms_subset ha)]
    exact hb
  · exact hc name' o ho a ha

/-- Two sources with one axiom each. -/
def pairOf (a b : Axiom) : Catalog :=
  (Std.TreeMap.insert ∅ "left" (.ofAxioms [a])).insert "right" (.ofAxioms [b])

theorem stored_pairOf (a b : Axiom) : (pairOf a b)["left"]? = some (.ofAxioms [a]) ∧
    (pairOf a b)["right"]? = some (.ofAxioms [b]) := by
  refine ⟨?_, Std.TreeMap.getElem?_insert_self⟩
  rw [pairOf, Std.TreeMap.getElem?_insert, if_neg (by decide), Std.TreeMap.getElem?_insert_self]

theorem mem_axioms_single (a : Axiom) : a ∈ (Ontology.ofAxioms [a]).axioms :=
  (Ontology.mem_axioms_ofAxioms (by simp [DistinctKeys])).2 List.mem_cons_self

theorem isForced_subClass {w : Signature} {y : Iri} (hx : x ∈ w) (hn : x ≠ Vocabulary.nothing)
    (hy : y ≠ Vocabulary.thing) : (Axiom.subClass (.named x) (.named y)).IsForced w :=
  ⟨⟨x, by simp [Axiom.iris, ClassExpression.iris], hx⟩, by simp [hx, hn, hy]⟩

theorem close_eq_extract_union_cyclic :
    let x : Iri := ⟨"urn:x"⟩
    let y : Iri := ⟨"urn:y"⟩
    let up : Axiom := .subClass (.named x) (.named y)
    let down : Axiom := .subClass (.named y) (.named x)
    let seed : Signature := .ofList [x]
    (pairOf up down).IsPlain ∧ ∃ k, close (pairOf up down) none ∅ seed = .ok k ∧
      k.HasFrom "left" up ∧ k.HasFrom "right" down := by
  intro x y up down seed
  have plain : (pairOf up down).IsPlain :=
    isPlain_insert (isPlain_insert (fun _ _ h => by simp at h) (by decide)) (by decide)
  obtain ⟨k, hk, hx, _⟩ := close_eq_extract_union none seed (pairOf up down) plain
  obtain ⟨left, right⟩ := stored_pairOf up down
  have closed := (isLeastClosed_extract (pairOf up down).union seed).closed
  have hup : up ∈ (extract (pairOf up down).union seed).axioms :=
    closed up ((Catalog.mem_axioms_union plain).2 ⟨_, _, left, mem_axioms_single up⟩)
      (isForced_subClass (mem_working.2 (.inl (by simp [seed]))) (by decide) (by decide))
  have hdown : down ∈ (extract (pairOf up down).union seed).axioms := by
    have hy : y ∈ working seed (extract (pairOf up down).union seed).axioms :=
      mem_working.2 (.inr ⟨up, hup, by simp [up, Axiom.iris, ClassExpression.iris]⟩)
    exact closed down ((Catalog.mem_axioms_union plain).2 ⟨_, _, right, mem_axioms_single down⟩)
      (isForced_subClass hy (by decide) (by decide))
  exact ⟨plain, k, hk, (hx.hasFrom_iff _ _ left up).2 ⟨mem_axioms_single up, hup⟩,
    (hx.hasFrom_iff _ _ right down).2 ⟨mem_axioms_single down, hdown⟩⟩

end Import

end TabularOntology
