import TabularOntology.Import.Extraction
import TabularOntology.Proofs.Extraction.Search

/-! The extraction of single entities. What describes an entity may be annotated itself, so that
the annotation properties used on the way have to be described as well. The entities described in
the end are the least set that has the given ones and, with each entity, the properties of its
annotations, be they annotated by each other or by themselves. What is extracted is just what
describes them, in whatever order they are looked up. -/

namespace TabularOntology.Import

open Relation

/-- The axioms that describe an entity by themselves. -/
inductive Describes (x : Iri) : Axiom → Prop
  | declaration (kind : EntityKind) : Describes x (.declaration kind x)
  | annotated (p : Iri) (v : Literal) : Describes x (.annotationAssertion p x v)
  | characteristic (c : Characteristic) : Describes x (.characteristic c x)
  | functionalData : Describes x (.functionalDataProperty x)

/-- The entities described in the end: the given ones, and with each entity the properties of the
annotations on it. -/
inductive IsDescribed (o : Ontology) (entities : Signature) : Iri → Prop
  | given {x : Iri} (hx : x ∈ entities) : IsDescribed o entities x
  | property {p x : Iri} {v : Literal} (hx : IsDescribed o entities x)
    (ha : .annotationAssertion p x v ∈ o.axioms) : IsDescribed o entities p

theorem describes_iff {x : Iri} {a : Axiom} : describes x a ↔ Describes x a := by
  constructor
  · intro h
    cases a with
    | declaration kind iri =>
      obtain rfl := of_decide_eq_true h
      exact .declaration kind
    | annotationAssertion p subject v =>
      obtain rfl := of_decide_eq_true h
      exact .annotated p v
    | characteristic c p =>
      obtain rfl := of_decide_eq_true h
      exact .characteristic c
    | functionalDataProperty p =>
      obtain rfl := of_decide_eq_true h
      exact .functionalData
    | _ => cases h
  · intro h
    cases h <;> exact decide_eq_true rfl

theorem Describes.mem_iris {x : Iri} {a : Axiom} (h : Describes x a) : x ∈ a.iris := by
  cases h <;> simp [Axiom.iris]

theorem annotationProperty?_eq_some {p : Iri} {a : Axiom} :
    annotationProperty? a = some p ↔ ∃ x v, a = .annotationAssertion p x v := by
  cases a <;> simp [annotationProperty?]

/-! ### What is chosen -/

section
variable {o : Ontology} {entities : Signature} {rest : List Axiom} {pending : List Iri}
variable {a b : Axiom} {x p : Iri}

theorem describe_subset (rest : List Axiom) (pending : List Iri) :
    describe rest pending ⊆ rest := by
  fun_induction describe rest pending with
  | case1 => exact List.nil_subset _
  | case2 rest x pending split =>
    rename_i ih
    have parts : split.1 ⊆ rest ∧ split.2 ⊆ rest := by
      simp only [split, List.partition_eq_filter_filter]
      exact ⟨List.filter_subset_self _, List.filter_subset_self _⟩
    exact List.append_subset.2 ⟨parts.1, List.Subset.trans ih parts.2⟩

/-- Nothing is chosen without an entity that it describes. -/
theorem exists_describes_of_mem (hr : rest ⊆ o.axioms)
    (hp : ∀ x ∈ pending, IsDescribed o entities x) (ha : a ∈ describe rest pending) :
    ∃ x, IsDescribed o entities x ∧ describes x a := by
  fun_induction describe rest pending with
  | case1 => cases ha
  | case2 rest x pending split =>
    rename_i ih
    obtain ⟨hx, hp⟩ := List.forall_mem_cons.1 hp
    have first : ∀ b ∈ split.1, b ∈ rest ∧ describes x b := by
      simp [split, List.partition_eq_filter_filter]
    rcases List.mem_append.1 ha with ha | ha
    · exact ⟨x, hx, (first a ha).2⟩
    · refine ih (fun b hb => hr (List.mem_partition.2 (.inr hb))) (fun p hp' => ?_) ha
      rcases List.mem_append.1 hp' with hp' | hp'
      · obtain ⟨b, hb, property⟩ := List.mem_filterMap.1 hp'
        obtain ⟨y, v, rfl⟩ := annotationProperty?_eq_some.1 property
        obtain ⟨stored, about⟩ := first _ hb
        obtain rfl := of_decide_eq_true about
        exact .property hx (hr stored)
      · exact hp p hp'

/-- What describes a pending entity is chosen. -/
theorem mem_describe_of_pending (hx : x ∈ pending) (ha : a ∈ rest) (h : describes x a) :
    a ∈ describe rest pending := by
  fun_induction describe rest pending with
  | case1 => cases hx
  | case2 rest y pending split =>
    rename_i ih
    rcases List.mem_partition.1 ha with now | later
    · exact List.mem_append_left _ now
    · refine List.mem_append_right _ (ih ?_ later)
      rcases List.mem_cons.1 hx with rfl | hx
      · -- what describes the entity was split off
        simp [List.partition_eq_filter_filter, h] at later
      · exact List.mem_append_right _ hx

/-- What describes the property of a chosen annotation is chosen. -/
theorem mem_describe_of_property (ha : a ∈ describe rest pending)
    (property : annotationProperty? a = some p) (hb : b ∈ rest) (h : describes p b) :
    b ∈ describe rest pending := by
  fun_induction describe rest pending with
  | case1 => cases ha
  | case2 rest y pending split =>
    rename_i ih
    rcases List.mem_partition.1 hb with now | later
    · exact List.mem_append_left _ now
    · refine List.mem_append_right _ ?_
      rcases List.mem_append.1 ha with ha | ha
      · have joins : p ∈ split.1.filterMap annotationProperty? ++ pending :=
          List.mem_append_left _ (List.mem_filterMap.2 ⟨a, ha, property⟩)
        exact mem_describe_of_pending joins later h
      · exact ih ha later

theorem mem_describe_of_isDescribed (hx : IsDescribed o entities x) :
    ∀ a ∈ o.axioms, describes x a → a ∈ describe o.axioms entities.toList := by
  induction hx with
  | given hx =>
    intro a ha h
    exact mem_describe_of_pending (Std.TreeSet.mem_toList.2 hx) ha h
  | property _ annotation ih =>
    intro b hb h
    exact mem_describe_of_property (ih _ annotation (decide_eq_true rfl)) rfl hb h

theorem mem_extractSingle : a ∈ (extractSingle o entities).axioms ↔
    a ∈ o.axioms ∧ ∃ x, IsDescribed o entities x ∧ Describes x a := by
  have subset := describe_subset o.axioms entities.toList
  rw [extractSingle, Ontology.mem_axioms_ofAxioms (o.distinctKeys.mono subset)]
  constructor
  · intro ha
    have given : ∀ x ∈ entities.toList, IsDescribed o entities x := fun x hx =>
      .given (Std.TreeSet.mem_toList.1 hx)
    obtain ⟨x, hx, h⟩ := exists_describes_of_mem (List.Subset.refl _) given ha
    exact ⟨subset ha, x, hx, describes_iff.1 h⟩
  · rintro ⟨ha, x, hx, h⟩
    exact mem_describe_of_isDescribed hx a ha (describes_iff.2 h)

end

/-! ### Looking up entities -/

/-- The search by an index: what describes an entity is picked, and its annotations lead to their
properties. -/
def descriptions : Lookup where
  picks := describes
  leads x a := if describes x a then (annotationProperty? a).toList else []
  mem_of_picks h := (describes_iff.1 h).mem_iris
  mem_of_leads h := by
    split at h
    · next about => exact (describes_iff.1 about).mem_iris
    · cases h

section
variable {o : Ontology} {entities : Signature} {x p : Iri}

theorem leads_descriptions :
    descriptions.Leads o x p ↔ ∃ v, .annotationAssertion p x v ∈ o.axioms := by
  constructor
  · rintro ⟨a, ha, leads⟩
    dsimp only [descriptions] at leads
    split at leads
    · next about =>
      obtain ⟨y, v, rfl⟩ := annotationProperty?_eq_some.1 (Option.mem_toList.1 leads)
      obtain rfl := of_decide_eq_true about
      exact ⟨v, ha⟩
    · cases leads
  · rintro ⟨v, ha⟩
    refine ⟨_, ha, ?_⟩
    simp [descriptions, describes, annotationProperty?]

theorem reached_descriptions : descriptions.Reached o entities x ↔ IsDescribed o entities x := by
  constructor
  · rintro ⟨y, hy, path⟩
    induction path with
    | refl => exact .given hy
    | tail _ lead ih =>
      obtain ⟨v, ha⟩ := leads_descriptions.1 lead
      exact .property ih ha
  · intro h
    induction h with
    | given hx => exact ⟨_, hx, .refl⟩
    | property _ ha ih =>
      obtain ⟨y, hy, path⟩ := ih
      exact ⟨y, hy, path.tail (leads_descriptions.2 ⟨_, ha⟩)⟩

end

/-- What is extracted for single entities are the axioms that describe an entity of the least set
that has the given ones and is closed under the properties of annotations. Looking up entities
one by one in any order ends, with the entities of this set met and the same axioms picked. -/
theorem extractSingle_least_in_any_order (o : Ontology) (entities : Signature) :
    (∀ a, a ∈ (extractSingle o entities).axioms ↔
      a ∈ o.axioms ∧ ∃ x, IsDescribed o entities x ∧ Describes x a) ∧
    ∀ pending : List Iri, pending.Perm entities.toList →
      Acc (fun t s => Search.Step descriptions o s t) ⟨entities, pending, []⟩ ∧
      ∀ s, ReflTransGen (Search.Step descriptions o) ⟨entities, pending, []⟩ s →
        (∀ t, ¬ Search.Step descriptions o s t) →
        (∀ x, x ∈ s.seen ↔ IsDescribed o entities x) ∧
        ∀ a, a ∈ s.picked ↔ a ∈ (extractSingle o entities).axioms := by
  refine ⟨fun a => mem_extractSingle, fun pending hp => ?_⟩
  obtain ⟨ends, exact⟩ := Search.exact_in_any_order (l := descriptions) (o := o) hp
  refine ⟨ends, fun s run last => ?_⟩
  obtain ⟨seen, picked⟩ := exact s run last
  refine ⟨fun x => (seen x).trans reached_descriptions, fun a => (picked a).trans ?_⟩
  rw [mem_extractSingle]
  exact and_congr_right fun _ => exists_congr fun x => and_congr reached_descriptions describes_iff

end TabularOntology.Import
