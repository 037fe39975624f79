import TabularOntology.Import.Extraction
import TabularOntology.Proofs.Locality.Shared
import TabularOntology.Proofs.Ontology.Members

/-! The module of a seed as a least set. A set of axioms, given by a list, is closed for
a seed if it has every axiom that shares a symbol with the seed or with the set itself
and is not local for these symbols together. Growing from the seed gives the least
closed set: what is chosen is forced, since more symbols only make more axioms not
local, and what is left out at the end is not forced, since an axiom whose symbols did
not change is still as local as it was. -/

namespace TabularOntology

/-- An axiom that has a symbol of the signature. -/
def Axiom.Shares (a : Axiom) (s : Signature) : Prop := ∃ x ∈ a.iris, x ∈ s

/-- An axiom that the symbols of the signature force into a module. -/
def Axiom.IsForced (a : Axiom) (s : Signature) : Prop := a.Shares s ∧ ¬ a.isLocal s

/-- More symbols force more axioms; only those that an axiom mentions matter. -/
theorem Axiom.IsForced.mono {a : Axiom} {s t : Signature} (h : ∀ x ∈ a.iris, x ∈ s → x ∈ t)
    (hf : a.IsForced s) : a.IsForced t := by
  obtain ⟨⟨x, hx, hxs⟩, hl⟩ := hf
  exact ⟨⟨x, hx, h x hx hxs⟩, mt (Axiom.isLocal_mono h) hl⟩

namespace Import

/-- The symbols of a seed and of the axioms chosen for it. -/
def working (seed : Signature) (as : List Axiom) : Signature :=
  seed.insertMany (as.flatMap Axiom.iris)

/-- A set of axioms that has all the given ones that it and the seed force into it. -/
def Closed (as : List Axiom) (seed : Signature) (m : List Axiom) : Prop :=
  ∀ a ∈ as, a.IsForced (working seed m) → a ∈ m

/-- The least of the closed sets. -/
structure IsLeastClosed (as : List Axiom) (seed : Signature) (m : List Axiom) : Prop where
  closed : Closed as seed m
  least : ∀ n, Closed as seed n → m ⊆ n

section
variable {as bs m n rest : List Axiom} {s t known seed : Signature} {pending : List Iri} {a : Axiom}

@[simp] theorem mem_working {x : Iri} :
    x ∈ working seed m ↔ x ∈ seed ∨ ∃ a ∈ m, x ∈ a.iris := by
  simp [working]

/-! ### Closed sets -/

/-- What some known symbols force into a set, all of them force into it. -/
theorem Closed.mem (hc : Closed as seed m) (ha : a ∈ as) (hk : ∀ x ∈ known, x ∈ working seed m)
    (hf : a.IsForced known) : a ∈ m :=
  hc a ha (hf.mono fun x _ => hk x)

theorem Closed.congr (hc : Closed as seed m) (h : ∀ a, a ∈ m ↔ a ∈ n) : Closed as seed n := by
  refine fun a ha hf => (h a).1 (hc.mem ha (fun x hx => ?_) hf)
  simpa only [mem_working, h] using hx

/-- A module stays inside a set that has what its seed forces in. -/
theorem IsLeastClosed.subset_of_closed (hm : IsLeastClosed as s m) (hn : Closed bs t n)
    (hb : as ⊆ bs) (hs : ∀ x ∈ s, x ∈ working t n) : m ⊆ n := by
  refine hm.least n fun a ha hf => hn.mem (hb ha) (fun x hx => ?_) hf
  rcases mem_working.1 hx with hx | hx
  · exact hs x hx
  · exact mem_working.2 (.inr hx)

theorem IsLeastClosed.subset (hm : IsLeastClosed as s m) (hn : IsLeastClosed bs t n) (hb : as ⊆ bs)
    (hs : ∀ x ∈ s, x ∈ t) : m ⊆ n :=
  hm.subset_of_closed hn.closed hb fun x hx => mem_working.2 (.inl (hs x hx))

theorem IsLeastClosed.congr (hm : IsLeastClosed as seed m) (h : ∀ a, a ∈ m ↔ a ∈ n) :
    IsLeastClosed as seed n where
  closed := hm.closed.congr h
  least k hk a ha := hm.least k hk ((h a).2 ha)

/-! ### Growing -/

/-- The axioms that are chosen when a symbol is looked up, and those that are left. -/
theorem mem_partition_forced {x : Iri} :
    let split := rest.partition fun a => a.iris.contains x && !a.isLocal known
    (a ∈ split.1 ↔ a ∈ rest ∧ x ∈ a.iris ∧ ¬ a.isLocal known) ∧
      (a ∈ split.2 ↔ a ∈ rest ∧ ¬ (x ∈ a.iris ∧ ¬ a.isLocal known)) := by
  simp only [List.partition_eq_filter_filter, List.mem_filter]
  refine ⟨by simp, and_congr_right fun _ => ?_⟩
  simp [Decidable.imp_iff_not_or]

theorem grow_subset : grow rest known pending ⊆ rest := by
  fun_induction grow rest known pending with
  | case1 => exact List.nil_subset _
  | case2 rest known x pending split joining =>
    rename_i ih
    exact List.append_subset.2 ⟨fun a ha => (mem_partition_forced.1.1 ha).1,
      List.Subset.trans ih fun a ha => (mem_partition_forced.2.1 ha).1⟩

/-- What is chosen is in every closed set. -/
theorem grow_subset_of_closed (hc : Closed as seed m) (hr : rest ⊆ as)
    (hk : ∀ x ∈ known, x ∈ working seed m) (hp : ∀ x ∈ pending, x ∈ known) :
    grow rest known pending ⊆ m := by
  fun_induction grow rest known pending with
  | case1 => exact List.nil_subset _
  | case2 rest known x pending split joining =>
    rename_i ih
    have chosen : split.1 ⊆ m := fun a ha => by
      obtain ⟨har, hxa, hl⟩ := mem_partition_forced.1.1 ha
      exact hc.mem (hr har) hk ⟨⟨x, hxa, hp x List.mem_cons_self⟩, hl⟩
    have joins : ∀ y ∈ joining, y ∈ working seed m := fun y hy => by
      obtain ⟨a, ha, hya⟩ := List.mem_flatMap.1 (List.mem_filter.1 hy).1
      exact mem_working.2 (.inr ⟨a, chosen ha, hya⟩)
    refine List.append_subset.2 ⟨chosen, ih ?_ ?_ ?_⟩
    · exact fun a ha => hr (mem_partition_forced.2.1 ha).1
    · intro y hy
      rw [Std.TreeSet.mem_insertMany_list, List.contains_iff_mem] at hy
      exact hy.elim (hk y) (joins y)
    · intro y hy
      rw [Std.TreeSet.mem_insertMany_list, List.contains_iff_mem]
      exact (List.mem_append.1 hy).symm.imp_left fun hy => hp y (List.mem_cons_of_mem x hy)

/-- Every axiom that the known symbols force in is still to be met under a pending symbol. -/
def Due (rest : List Axiom) (known : Signature) (pending : List Iri) : Prop :=
  ∀ a ∈ rest, a.IsForced known → ∃ x ∈ a.iris, x ∈ pending

/-- An axiom is not forced in by symbols that it does not mention. -/
theorem isForced_of_insertMany {joining : List Iri} (hf : a.IsForced (known.insertMany joining))
    (hj : ∀ x ∈ a.iris, x ∈ joining → x ∈ known) : a.IsForced known := by
  refine hf.mono fun x hx h => ?_
  rw [Std.TreeSet.mem_insertMany_list, List.contains_iff_mem] at h
  exact h.elim id (hj x hx)

theorem Due.step {x : Iri} (hd : Due rest known (x :: pending)) :
    let split := rest.partition fun a => a.iris.contains x && !a.isLocal known
    ∀ joining : List Iri, Due split.2 (known.insertMany joining) (joining ++ pending) := by
  intro split joining a ha hf
  obtain ⟨har, hax⟩ := mem_partition_forced.2.1 ha
  by_cases hj : ∃ y ∈ a.iris, y ∈ joining
  · obtain ⟨y, hya, hyj⟩ := hj
    exact ⟨y, hya, List.mem_append_left pending hyj⟩
  · have hf := isForced_of_insertMany hf fun y hya hyj => absurd ⟨y, hya, hyj⟩ hj
    obtain ⟨y, hya, hyp⟩ := hd a har hf
    rcases List.mem_cons.1 hyp with rfl | hyp
    · exact absurd ⟨hya, hf.2⟩ hax
    · exact ⟨y, hya, List.mem_append_right joining hyp⟩

/-- What is chosen leaves out nothing that it forces in. -/
theorem closed_grow (hd : Due rest known pending) :
    Closed rest known (grow rest known pending) := by
  fun_induction grow rest known pending with
  | case1 rest known =>
    intro a ha hf
    obtain ⟨x, _, hx⟩ := hd a ha (hf.mono fun y _ hy => by simpa using hy)
    exact absurd hx List.not_mem_nil
  | case2 rest known x pending split joining =>
    rename_i ih
    have ih := ih (hd.step joining)
    intro a ha hf
    by_cases hx : x ∈ a.iris ∧ ¬ a.isLocal known
    · exact List.mem_append_left _ (mem_partition_forced.1.2 ⟨ha, hx⟩)
    · have left : a ∈ split.2 := mem_partition_forced.2.2 ⟨ha, hx⟩
      refine List.mem_append_right _ (ih.mem left (fun y hy => ?_) hf)
      simp only [mem_working, Std.TreeSet.mem_insertMany_list, List.contains_iff_mem] at hy ⊢
      rcases hy with hy | ⟨b, hb, hyb⟩
      · exact .inl (.inl hy)
      · rcases List.mem_append.1 hb with hb | hb
        · refine .inl ((Decidable.em (y ∈ known)).imp_right fun hy => List.mem_filter.2 ⟨?_, ?_⟩)
          · exact List.mem_flatMap.2 ⟨b, hb, hyb⟩
          · simpa using hy
        · exact .inr ⟨b, hb, hyb⟩

theorem isLeastClosed_grow (as : List Axiom) (seed : Signature) :
    IsLeastClosed as seed (grow as seed seed.toList) where
  closed := closed_grow fun _ _ ⟨⟨x, hx, hxs⟩, _⟩ => ⟨x, hx, Std.TreeSet.mem_toList.2 hxs⟩
  least _ hc := grow_subset_of_closed hc (List.Subset.refl as)
    (fun _ hx => mem_working.2 (.inl hx)) fun _ hx => Std.TreeSet.mem_toList.1 hx

/-- The module of a seed is the least closed set. -/
theorem isLeastClosed_extract (o : Ontology) (seed : Signature) :
    IsLeastClosed o.axioms seed (extract o seed).axioms :=
  (isLeastClosed_grow o.axioms seed).congr fun _ =>
    (Ontology.mem_axioms_ofAxioms (o.distinctKeys.mono grow_subset)).symm

theorem mem_extract_congr {o : Ontology} (h : ∀ x, x ∈ s ↔ x ∈ t) :
    a ∈ (extract o s).axioms ↔ a ∈ (extract o t).axioms := by
  have small := isLeastClosed_extract o s
  have large := isLeastClosed_extract o t
  exact ⟨fun ha => small.subset large (List.Subset.refl _) (fun x => (h x).1) ha,
    fun ha => large.subset small (List.Subset.refl _) (fun x => (h x).2) ha⟩

end

end Import

end TabularOntology
