import TabularOntology.Import.Related
import TabularOntology.Proofs.Extraction.Search
import TabularOntology.Proofs.Signature

/-! Related entities. What it is for an axiom to relate one entity to another is said for each
type of relationship without regard to how edges are computed. The entities related to a start
are those that a path of such relations leads to, of wanted types in any order, and what is
traversed are the axioms that relate one of them to anything. An index finds the same, since an
axiom mentions each entity that it relates to another one. -/

namespace TabularOntology.Import

open Relation

/-! ### What axioms relate -/

/-- A special entity and a general one, both with a name. -/
inductive IsBelow : Axiom → Iri → Iri → Prop
  | classes (c d : Iri) : IsBelow (.subClass (.named c) (.named d)) c d
  | objectProperties (p q : Iri) : IsBelow (.subObjectProperty (.named p) (.named q)) p q
  | dataProperties (p q : Iri) : IsBelow (.subDataProperty p q) p q
  | annotationProperties (p q : Iri) : IsBelow (.subAnnotationProperty p q) p q

/-- The named entities that are equivalent to each other, or disjoint from each other. -/
inductive IsAmong : RelatedType → Axiom → Iri → Prop
  | equivalentClasses {cs : List ClassExpression} {c : Iri} (h : .named c ∈ cs) :
    IsAmong .equivalents (.equivalentClasses cs) c
  | equivalentObjectProperties {ps : List Iri} {p : Iri} (h : p ∈ ps) :
    IsAmong .equivalents (.equivalentObjectProperties ps) p
  | equivalentDataProperties {ps : List Iri} {p : Iri} (h : p ∈ ps) :
    IsAmong .equivalents (.equivalentDataProperties ps) p
  | disjointClasses {cs : List ClassExpression} {c : Iri} (h : .named c ∈ cs) :
    IsAmong .disjoints (.disjointClasses cs) c
  | disjointObjectProperties {ps : List Iri} {p : Iri} (h : p ∈ ps) :
    IsAmong .disjoints (.disjointObjectProperties ps) p
  | disjointDataProperties {ps : List Iri} {p : Iri} (h : p ∈ ps) :
    IsAmong .disjoints (.disjointDataProperties ps) p

/-- The relation of a type that an axiom states, from an entity to the related one. -/
inductive Relates : RelatedType → Axiom → Iri → Iri → Prop
  | ancestor {a : Axiom} {x y : Iri} (h : IsBelow a x y) : Relates .ancestors a x y
  | descendant {a : Axiom} {x y : Iri} (h : IsBelow a y x) : Relates .descendants a x y
  | among {t : RelatedType} {a : Axiom} {x y : Iri} (hx : IsAmong t a x) (hy : IsAmong t a y)
    (different : y ≠ x) : Relates t a x y
  | objectDomain (p c : Iri) : Relates .domains (.objectPropertyDomain p (.named c)) p c
  | dataDomain (p c : Iri) : Relates .domains (.dataPropertyDomain p (.named c)) p c
  | objectRange (p c : Iri) : Relates .ranges (.objectPropertyRange p (.named c)) p c
  | dataRange (p d : Iri) : Relates .ranges (.dataPropertyRange p (.datatype d)) p d
  | inverse (p q : Iri) : Relates .inverses (.inverseObjectProperties p q) p q
  | inverseOf (p q : Iri) : Relates .inverses (.inverseObjectProperties p q) q p
  | type (c i : Iri) : Relates .types (.classAssertion (.named c) (.named i)) i c
  | assertion (p i j : Iri) :
    Relates .propertyAssertions (.objectPropertyAssertion p (.named i) (.named j)) i j

/-- Some axiom states a relation of a wanted type. -/
def Edge (o : Ontology) (types : List RelatedType) (x y : Iri) : Prop :=
  ∃ a ∈ o.axioms, ∃ t ∈ types, Relates t a x y

section
variable {o : Ontology} {types : List RelatedType} {t : RelatedType} {a : Axiom} {x y : Iri}

theorem IsBelow.mem_iris (h : IsBelow a x y) : x ∈ a.iris ∧ y ∈ a.iris := by
  cases h <;> simp [Axiom.iris, ClassExpression.iris, ObjectProperty.iri]

theorem IsAmong.mem_iris (h : IsAmong t a x) : x ∈ a.iris := by
  cases h with
  | equivalentClasses h | disjointClasses h =>
    rw [Axiom.iris, ClassExpression.irisOf_eq_flatMap]
    exact List.mem_flatMap.2 ⟨_, h, List.mem_singleton.2 rfl⟩
  | equivalentObjectProperties h | equivalentDataProperties h | disjointObjectProperties h
  | disjointDataProperties h => exact h

theorem Relates.mem_iris (h : Relates t a x y) : x ∈ a.iris := by
  cases h with
  | ancestor h => exact h.mem_iris.1
  | descendant h => exact h.mem_iris.2
  | among hx => exact hx.mem_iris
  | _ => simp [Axiom.iris, ClassExpression.iris, Individual.iris]

theorem mem_pairs {xs : List Iri} : (x, y) ∈ pairs xs ↔ x ∈ xs ∧ y ∈ xs ∧ y ≠ x := by
  simp [pairs, and_left_comm]

theorem mem_className {cs : List ClassExpression} {c : Iri} :
    c ∈ cs.filterMap className? ↔ .named c ∈ cs := by
  rw [List.mem_filterMap]
  constructor
  · rintro ⟨e, he, named⟩
    cases e with
    | named d =>
      cases named
      exact he
    | _ => cases named
  · intro h
    exact ⟨_, h, rfl⟩

theorem mem_upward : (x, y) ∈ upward a ↔ IsBelow a x y := by
  constructor
  · intro h
    unfold upward at h
    split at h
    · cases List.mem_singleton.1 h
      exact .classes _ _
    · cases List.mem_singleton.1 h
      exact .objectProperties _ _
    · cases List.mem_singleton.1 h
      exact .dataProperties _ _
    · cases List.mem_singleton.1 h
      exact .annotationProperties _ _
    · cases h
  · intro h
    cases h <;> exact List.mem_singleton.2 rfl

theorem relates_of_mem_edges (h : (x, y) ∈ edges t a) : Relates t a x y := by
  unfold edges at h
  split at h
  · exact .ancestor (mem_upward.1 h)
  · obtain ⟨⟨below, above⟩, up, swapped⟩ := List.mem_map.1 h
    cases swapped
    exact .descendant (mem_upward.1 up)
  · obtain ⟨hx, hy, different⟩ := mem_pairs.1 h
    exact .among (.equivalentClasses (mem_className.1 hx)) (.equivalentClasses (mem_className.1 hy))
      different
  · obtain ⟨hx, hy, different⟩ := mem_pairs.1 h
    exact .among (.disjointClasses (mem_className.1 hx)) (.disjointClasses (mem_className.1 hy))
      different
  · obtain ⟨hx, hy, different⟩ := mem_pairs.1 h
    exact .among (.equivalentObjectProperties hx) (.equivalentObjectProperties hy) different
  · obtain ⟨hx, hy, different⟩ := mem_pairs.1 h
    exact .among (.equivalentDataProperties hx) (.equivalentDataProperties hy) different
  · obtain ⟨hx, hy, different⟩ := mem_pairs.1 h
    exact .among (.disjointObjectProperties hx) (.disjointObjectProperties hy) different
  · obtain ⟨hx, hy, different⟩ := mem_pairs.1 h
    exact .among (.disjointDataProperties hx) (.disjointDataProperties hy) different
  · cases List.mem_singleton.1 h
    exact .objectDomain _ _
  · cases List.mem_singleton.1 h
    exact .dataDomain _ _
  · cases List.mem_singleton.1 h
    exact .objectRange _ _
  · cases List.mem_singleton.1 h
    exact .dataRange _ _
  · rcases List.mem_cons.1 h with first | second
    · cases first
      exact .inverse _ _
    · cases List.mem_singleton.1 second
      exact .inverseOf _ _
  · cases List.mem_singleton.1 h
    exact .type _ _
  · cases List.mem_singleton.1 h
    exact .assertion _ _ _
  · cases h

/-- The edges that are computed for a type are the relations of this type. -/
theorem mem_edges : (x, y) ∈ edges t a ↔ Relates t a x y := by
  refine ⟨relates_of_mem_edges, fun h => ?_⟩
  cases h with
  | ancestor h => exact mem_upward.2 h
  | descendant h => exact List.mem_map.2 ⟨(y, x), mem_upward.2 h, rfl⟩
  | among hx hy different =>
    cases hx with
    | equivalentClasses hx | disjointClasses hx =>
      cases hy with
      | _ hy => exact mem_pairs.2 ⟨mem_className.2 hx, mem_className.2 hy, different⟩
    | equivalentObjectProperties hx | equivalentDataProperties hx | disjointObjectProperties hx
    | disjointDataProperties hx =>
      cases hy with
      | _ hy => exact mem_pairs.2 ⟨hx, hy, different⟩
  | inverse => exact List.mem_cons_self
  | inverseOf => exact List.mem_cons_of_mem _ (List.mem_singleton.2 rfl)
  | _ => exact List.mem_singleton.2 rfl

theorem mem_edgesOf : (x, y) ∈ edgesOf types a ↔ ∃ t ∈ types, Relates t a x y := by
  simp [edgesOf, mem_edges]

theorem mem_targets {es : List (Iri × Iri)} : y ∈ targets es x ↔ (x, y) ∈ es := by
  simp [targets]

theorem mem_edges_axioms : (x, y) ∈ o.axioms.flatMap (edgesOf types) ↔ Edge o types x y := by
  simp only [List.mem_flatMap, mem_edgesOf, Edge]

end

/-! ### Breadth-first search -/

section
variable {es : List (Iri × Iri)} {unseen queue : List Iri} {x y : Iri}

/-- Nothing is reached without a path from the queue. -/
theorem exists_path_of_mem_reach (h : x ∈ reach es unseen queue) :
    ∃ start ∈ queue, ReflTransGen (fun u v => (u, v) ∈ es) start x := by
  fun_induction reach es unseen queue with
  | case1 => cases h
  | case2 unseen first queue next split =>
    rename_i ih
    rcases List.mem_cons.1 h with rfl | h
    · exact ⟨x, List.mem_cons_self, .refl⟩
    · obtain ⟨start, hs, path⟩ := ih h
      rcases List.mem_append.1 hs with hs | hs
      · exact ⟨start, List.mem_cons_of_mem _ hs, path⟩
      · have target : start ∈ next := by
          simp only [split, List.partition_eq_filter_filter, List.mem_filter] at hs
          exact List.contains_iff_mem.1 hs.2
        exact ⟨first, List.mem_cons_self, .head (mem_targets.1 target) path⟩

theorem mem_reach_of_mem_queue (h : x ∈ queue) : x ∈ reach es unseen queue := by
  fun_induction reach es unseen queue with
  | case1 => cases h
  | case2 unseen first queue next split =>
    rename_i ih
    rcases List.mem_cons.1 h with rfl | h
    · exact List.mem_cons_self
    · exact List.mem_cons_of_mem _ (ih (List.mem_append_left _ h))

/-- An edge that leaves what is reached does not lead to anything that stays unseen. -/
theorem mem_reach_of_edge (hx : x ∈ reach es unseen queue) (edge : (x, y) ∈ es)
    (hy : y ∈ unseen) : y ∈ reach es unseen queue := by
  fun_induction reach es unseen queue with
  | case1 => cases hx
  | case2 unseen first queue next split =>
    rename_i ih
    refine List.mem_cons_of_mem _ ?_
    rcases List.mem_partition.1 hy with now | later
    · exact mem_reach_of_mem_queue (List.mem_append_right _ now)
    · rcases List.mem_cons.1 hx with rfl | hx
      · -- all that the first entity leads to is queued
        simp [List.partition_eq_filter_filter, next, mem_targets, edge] at later
      · exact ih hx later

end

section
variable {o : Ontology} {start : Iri} {types : List RelatedType} {x : Iri} {a : Axiom}

theorem mem_reachable : x ∈ reachable o start types ↔ ReflTransGen (Edge o types) start x := by
  have edges : (fun u v => (u, v) ∈ o.axioms.flatMap (edgesOf types)) = Edge o types := by
    funext u v
    exact propext mem_edges_axioms
  rw [reachable, Std.TreeSet.mem_ofList, List.contains_iff_mem]
  constructor
  · intro h
    obtain ⟨s, hs, path⟩ := exists_path_of_mem_reach h
    obtain rfl := List.mem_singleton.1 hs
    rwa [edges] at path
  · intro path
    induction path with
    | refl => exact mem_reach_of_mem_queue (List.mem_singleton.2 rfl)
    | @tail y z _ edge ih =>
      by_cases back : z = start
      · subst back
        exact mem_reach_of_mem_queue (List.mem_singleton.2 rfl)
      · have edge := mem_edges_axioms.2 edge
        refine mem_reach_of_edge ih edge (List.mem_filter.2 ⟨?_, decide_eq_true back⟩)
        exact List.mem_map.2 ⟨_, edge, rfl⟩

theorem mem_traversed {reached : Signature} : a ∈ traversed o types reached ↔
    a ∈ o.axioms ∧ ∃ t ∈ types, ∃ x y, x ∈ reached ∧ Relates t a x y := by
  rw [traversed, List.mem_filter, List.any_eq_true]
  refine and_congr_right fun _ => ?_
  constructor
  · rintro ⟨⟨x, y⟩, edge, hx⟩
    obtain ⟨t, ht, relates⟩ := mem_edgesOf.1 edge
    exact ⟨t, ht, x, y, hx, relates⟩
  · rintro ⟨t, ht, x, y, hx, relates⟩
    exact ⟨(x, y), mem_edgesOf.2 ⟨t, ht, relates⟩, hx⟩

end

/-! ### Looking up entities -/

/-- The search by an index: an axiom is picked if it relates the entity to anything, and it leads
to what it relates the entity to. -/
def relationships (types : List RelatedType) : Lookup where
  picks x a := !(targets (edgesOf types a) x).isEmpty
  leads x a := targets (edgesOf types a) x
  mem_of_picks h := by
    rw [Bool.not_eq_true', List.isEmpty_eq_false_iff_exists_mem] at h
    obtain ⟨y, hy⟩ := h
    obtain ⟨t, -, relates⟩ := mem_edgesOf.1 (mem_targets.1 hy)
    exact relates.mem_iris
  mem_of_leads h := by
    obtain ⟨t, -, relates⟩ := mem_edgesOf.1 (mem_targets.1 h)
    exact relates.mem_iris

section
variable {o : Ontology} {start : Iri} {types : List RelatedType} {x : Iri} {a : Axiom}

theorem picks_relationships :
    (relationships types).picks x a ↔ ∃ t ∈ types, ∃ y, Relates t a x y := by
  simp only [relationships, Bool.not_eq_true', List.isEmpty_eq_false_iff_exists_mem, mem_targets,
    mem_edgesOf]
  constructor
  · rintro ⟨y, t, ht, relates⟩
    exact ⟨t, ht, y, relates⟩
  · rintro ⟨t, ht, y, relates⟩
    exact ⟨y, t, ht, relates⟩

theorem reached_relationships : (relationships types).Reached o (.ofList [start]) x ↔
    ReflTransGen (Edge o types) start x := by
  have leads : (relationships types).Leads o = Edge o types := by
    funext u v
    simp only [Lookup.Leads, relationships, mem_targets, mem_edgesOf, Edge]
  rw [Lookup.Reached, leads]
  simp

end

/-- The entities related to a start are those that a path of relations of the wanted types leads
to, and what is traversed are the axioms that relate one of them to anything. Looking up entities
one by one in any order ends, with the same entities met and the same axioms picked. -/
theorem related_exact_in_any_order (o : Ontology) (start : Iri) (types : List RelatedType) :
    (∀ x, x ∈ reachable o start types ↔ ReflTransGen (Edge o types) start x) ∧
    (∀ a, a ∈ traversed o types (reachable o start types) ↔ a ∈ o.axioms ∧
      ∃ t ∈ types, ∃ x y, ReflTransGen (Edge o types) start x ∧ Relates t a x y) ∧
    Acc (fun t s => Search.Step (relationships types) o s t) ⟨.ofList [start], [start], []⟩ ∧
    ∀ s, ReflTransGen (Search.Step (relationships types) o) ⟨.ofList [start], [start], []⟩ s →
      (∀ t, ¬ Search.Step (relationships types) o s t) →
      (∀ x, x ∈ s.seen ↔ x ∈ reachable o start types) ∧
      ∀ a, a ∈ s.picked ↔ a ∈ traversed o types (reachable o start types) := by
  have pending : [start].Perm (Std.TreeSet.ofList [start] : Signature).toList := by
    refine (List.perm_ext_iff_of_nodup (List.nodup_singleton start)
      (Signature.nodup_toList _)).2 fun x => ?_
    rw [Std.TreeSet.mem_toList, Std.TreeSet.mem_ofList, List.contains_iff_mem]
  obtain ⟨ends, exact⟩ := Search.exact_in_any_order (l := relationships types) (o := o) pending
  have traversed_iff (a : Axiom) : a ∈ traversed o types (reachable o start types) ↔ a ∈ o.axioms ∧
      ∃ t ∈ types, ∃ x y, ReflTransGen (Edge o types) start x ∧ Relates t a x y := by
    simp only [mem_traversed, mem_reachable]
  refine ⟨fun x => mem_reachable, traversed_iff, ends, fun s run last => ?_⟩
  obtain ⟨seen, picked⟩ := exact s run last
  refine ⟨fun x => (seen x).trans (reached_relationships.trans mem_reachable.symm), fun a => ?_⟩
  rw [picked, traversed_iff]
  refine and_congr_right fun _ => ?_
  constructor
  · rintro ⟨x, path, picks⟩
    obtain ⟨t, ht, y, relates⟩ := picks_relationships.1 picks
    exact ⟨t, ht, x, y, reached_relationships.1 path, relates⟩
  · rintro ⟨t, ht, x, y, path, relates⟩
    exact ⟨x, reached_relationships.2 path, picks_relationships.2 ⟨t, ht, y, relates⟩⟩

end TabularOntology.Import
