import Mathlib.Data.List.Perm.Subperm
import TabularOntology.Ontology

/-! Ontologies as sets. The stored map is seen through the list of axioms only: what
belongs to an ontology after a change, and what its signature and its keys say about
what belongs to it. Two axioms with one key never belong to the same ontology, and so
a list of axioms is kept in full only where keys tell its axioms apart. -/

namespace TabularOntology

/-- Axioms that their keys tell apart. -/
def DistinctKeys (as : List Axiom) : Prop := ∀ a ∈ as, ∀ b ∈ as, a.key = b.key → a = b

theorem DistinctKeys.mono {as bs : List Axiom} (h : DistinctKeys bs) (hs : as ⊆ bs) :
    DistinctKeys as :=
  fun a ha b hb => h a (hs ha) b (hs hb)

namespace Ontology

variable {o : Ontology} {a b : Axiom} {as : List Axiom}

/-! ### What belongs to an ontology -/

theorem mem_axioms_iff_exists : a ∈ o.axioms ↔ ∃ k : String, o.byKey[k]? = some a := by
  simp [axioms]

theorem mem_axioms : a ∈ o.axioms ↔ o.byKey[a.key]? = some a := by
  rw [mem_axioms_iff_exists]
  refine ⟨?_, fun h => ⟨a.key, h⟩⟩
  rintro ⟨k, hk⟩
  rwa [o.key_eq k a hk]

theorem mem_signature {x : Iri} : x ∈ o.signature ↔ ∃ a ∈ o.axioms, x ∈ a.iris := by
  rw [o.mem_signature_iff]
  constructor
  · rintro ⟨k, a, hk, hx⟩
    exact ⟨a, mem_axioms_iff_exists.2 ⟨k, hk⟩, hx⟩
  · rintro ⟨a, ha, hx⟩
    exact ⟨a.key, a, mem_axioms.1 ha, hx⟩

theorem mem_declared {e : Entity} : e ∈ o.declared ↔ ∃ a ∈ o.axioms, e ∈ a.declares := by
  rw [o.mem_declared_iff]
  constructor
  · rintro ⟨k, a, hk, he⟩
    exact ⟨a, mem_axioms_iff_exists.2 ⟨k, hk⟩, he⟩
  · rintro ⟨a, ha, he⟩
    exact ⟨a.key, a, mem_axioms.1 ha, he⟩

theorem mem_declaredKinds {kind : EntityKind} {x : Iri} :
    kind ∈ o.declaredKinds x ↔ .declaration kind x ∈ o.axioms := by
  rw [declaredKinds, List.mem_filter, and_iff_right kind.mem_all, Std.TreeSet.contains_iff_mem,
    mem_declared]
  constructor
  · rintro ⟨a, ha, declares⟩
    cases a with
    | declaration kind' y =>
      cases List.mem_singleton.1 declares
      exact ha
    | _ => exact absurd declares List.not_mem_nil
  · exact fun h => ⟨_, h, List.mem_singleton.2 rfl⟩

theorem declares_of_mem {kind : EntityKind} {x : Iri} (h : .declaration kind x ∈ o.axioms) :
    o.declares x = true := by
  simp [declares, List.ne_nil_of_mem (mem_declaredKinds.2 h)]

/-- What is declared depends on the axioms only. -/
theorem declares_congr {p : Ontology} (h : ∀ a, a ∈ o.axioms ↔ a ∈ p.axioms) (x : Iri) :
    o.declares x = p.declares x := by
  have same : ∀ e, e ∈ o.declared ↔ e ∈ p.declared := by simp only [mem_declared, h, implies_true]
  have each (kind : EntityKind) :
      o.declared.contains ⟨x, kind⟩ = p.declared.contains ⟨x, kind⟩ := by
    rw [Bool.eq_iff_iff, Std.TreeSet.contains_iff_mem, Std.TreeSet.contains_iff_mem, same]
  simp only [declares, declaredKinds, each]

theorem distinctKeys (o : Ontology) : DistinctKeys o.axioms := by
  intro a ha b hb h
  rw [mem_axioms] at ha hb
  rw [h, hb] at ha
  exact (Option.some.inj ha).symm

theorem contains_iff : o.contains a ↔ ∃ b ∈ o.axioms, b.key = a.key := by
  rw [contains, Std.TreeMap.contains_iff_mem, Std.TreeMap.mem_iff_isSome_getElem?,
    Option.isSome_iff_exists]
  constructor
  · rintro ⟨b, hb⟩
    exact ⟨b, mem_axioms_iff_exists.2 ⟨a.key, hb⟩, o.key_eq a.key b hb⟩
  · rintro ⟨b, hb, hk⟩
    exact ⟨b, hk ▸ mem_axioms.1 hb⟩

theorem contains_iff_mem_keys : o.contains a ↔ a.key ∈ o.keys := by
  rw [contains, keys, Std.TreeMap.contains_iff_mem, Std.TreeMap.mem_keys]

/-- An axiom whose key is stored for no other axiom belongs if its key is stored. -/
theorem mem_of_contains (h : o.contains a) (hd : ∀ b ∈ o.axioms, b.key = a.key → b = a) :
    a ∈ o.axioms := by
  obtain ⟨b, hb, hk⟩ := contains_iff.1 h
  exact hd b hb hk ▸ hb

theorem size_eq_length (o : Ontology) : o.size = o.axioms.length := by simp [size, axioms]

theorem key_of_mem_toList {e : String × Axiom} (h : e ∈ o.byKey.toList) : e.2.key = e.1 :=
  o.key_eq e.1 e.2 (Std.TreeMap.mem_toList_iff_getElem?_eq_some.1 h)

theorem nodup_axioms (o : Ontology) : o.axioms.Nodup := by
  rw [axioms, List.Nodup, List.pairwise_map]
  refine Std.TreeMap.distinct_keys_toList.imp_of_mem fun he hf hne heq => hne ?_
  rw [← key_of_mem_toList he, ← key_of_mem_toList hf, heq]
  exact Std.ReflCmp.compare_self

/-- Axioms are listed in the order of their keys. -/
theorem ordered_axioms (o : Ontology) :
    o.axioms.Pairwise fun a b => compare a.key b.key = .lt := by
  rw [axioms, List.pairwise_map]
  refine Std.TreeMap.ordered_keys_toList.imp_of_mem fun he hf less => ?_
  rwa [key_of_mem_toList he, key_of_mem_toList hf]

theorem keys_eq_map (o : Ontology) : o.keys = o.axioms.map Axiom.key := by
  rw [keys, axioms, ← Std.TreeMap.map_fst_toList_eq_keys, List.map_map]
  exact List.map_congr_left fun e he => (key_of_mem_toList he).symm

/-- Ontologies with the same axioms list them in the same order. -/
theorem axioms_eq_of_forall_mem {p : Ontology} (h : ∀ a, a ∈ o.axioms ↔ a ∈ p.axioms) :
    o.axioms = p.axioms := by
  have perm : o.axioms.Perm p.axioms :=
    (List.perm_ext_iff_of_nodup o.nodup_axioms p.nodup_axioms).2 h
  refine perm.eq_of_pairwise ?_ o.ordered_axioms p.ordered_axioms
  intro a b _ _ less greater
  exact absurd (Std.TransCmp.lt_trans less greater) (by simp)

theorem size_le_of_subset {p : Ontology} (h : o.axioms ⊆ p.axioms) : o.size ≤ p.size := by
  rw [size_eq_length, size_eq_length]
  exact (o.nodup_axioms.subperm h).length_le

/-! ### Changes -/

@[simp] theorem axioms_empty : ({} : Ontology).axioms = [] := by
  rw [List.eq_nil_iff_forall_not_mem]
  intro a
  rw [mem_axioms]
  simp

theorem mem_axioms_insert : a ∈ (o.insert b).axioms ↔ a ∈ o.axioms ∨ a = b ∧ ¬ o.contains b := by
  rw [insert, contains, Std.TreeMap.contains_iff_mem]
  split
  · next h => simp [h]
  · next h =>
    have stored := exists_stored_insert h (fun c => c = a)
    simp only [mem_axioms_iff_exists]
    simpa [h, eq_comm] using stored

theorem mem_axioms_insert_new (h : ¬ o.contains b) :
    a ∈ (o.insert b).axioms ↔ a ∈ o.axioms ∨ a = b := by
  rw [mem_axioms_insert, and_iff_left h]

theorem size_insert_new (h : ¬ o.contains b) : (o.insert b).size = o.size + 1 := by
  have h : b.key ∉ o.byKey := fun hb => h (Std.TreeMap.contains_iff_mem.2 hb)
  simp [insert, size, h, Std.TreeMap.size_insert]

theorem axioms_insertAll_subset : (o.insertAll as).axioms ⊆ o.axioms ++ as := by
  induction as generalizing o with
  | nil => simp [insertAll]
  | cons b bs ih =>
    intro a ha
    have ha : a ∈ (o.insert b).axioms ++ bs := ih ha
    rw [List.mem_append, mem_axioms_insert] at ha
    rw [List.mem_append, List.mem_cons]
    rcases ha with (ha | ⟨rfl, _⟩) | ha
    · exact .inl ha
    · exact .inr (.inl rfl)
    · exact .inr (.inr ha)

theorem mem_keys_insertAll {k : String} :
    k ∈ (o.insertAll as).keys ↔ k ∈ o.keys ∨ ∃ a ∈ as, a.key = k := by
  induction as generalizing o with
  | nil => simp [insertAll]
  | cons b bs ih =>
    have step : k ∈ (o.insert b).keys ↔ k ∈ o.keys ∨ b.key = k := by
      rw [keys, keys, Std.TreeMap.mem_keys, Std.TreeMap.mem_keys, insert]
      split
      · next stored =>
        refine (or_iff_left_of_imp ?_).symm
        rintro rfl
        exact stored
      · rw [Std.TreeMap.mem_insert, Std.LawfulEqOrd.compare_eq_iff_eq, or_comm]
    rw [show o.insertAll (b :: bs) = (o.insert b).insertAll bs from rfl, ih, step, or_assoc]
    simp

/-- An axiom is added if no other one has its key. -/
theorem mem_axioms_insertAll_of_key (ha : a ∈ o.axioms ++ as)
    (h : ∀ b ∈ o.axioms ++ as, b.key = a.key → b = a) : a ∈ (o.insertAll as).axioms := by
  have stored : a.key ∈ (o.insertAll as).keys := by
    rw [mem_keys_insertAll, ← contains_iff_mem_keys, contains_iff]
    rcases List.mem_append.1 ha with ha | ha
    · exact .inl ⟨a, ha, rfl⟩
    · exact .inr ⟨a, ha, rfl⟩
  refine mem_of_contains (contains_iff_mem_keys.2 stored) fun b hb => ?_
  exact h b (axioms_insertAll_subset hb)

/-- Adding axioms that keys tell apart adds them all. -/
theorem mem_axioms_insertAll (h : DistinctKeys (o.axioms ++ as)) :
    a ∈ (o.insertAll as).axioms ↔ a ∈ o.axioms ∨ a ∈ as := by
  rw [← List.mem_append]
  refine ⟨fun ha => axioms_insertAll_subset ha, fun ha => ?_⟩
  exact mem_axioms_insertAll_of_key ha fun b hb => h b hb a ha

theorem mem_axioms_ofAxioms (h : DistinctKeys as) : a ∈ (ofAxioms as).axioms ↔ a ∈ as := by
  rw [ofAxioms, mem_axioms_insertAll (by simpa using h)]
  simp

/-- Adding axioms leaves everything else alone. -/
theorem insertAll_unchanged (o : Ontology) (as : List Axiom) :
    (o.insertAll as).iri = o.iri ∧ (o.insertAll as).versionIri = o.versionIri ∧
      (o.insertAll as).source = o.source ∧ (o.insertAll as).imports = o.imports := by
  refine List.foldlRecOn as _ (motive := fun p : Ontology => p.iri = o.iri ∧
    p.versionIri = o.versionIri ∧ p.source = o.source ∧ p.imports = o.imports)
    ⟨rfl, rfl, rfl, rfl⟩ fun p same a _ => ?_
  unfold insert
  split <;> exact same

/-- What belongs to two ontologies together, if keys tell it apart. -/
theorem mem_axioms_merge {p : Ontology} (h : DistinctKeys (o.axioms ++ p.axioms)) :
    a ∈ (o.merge p).axioms ↔ a ∈ o.axioms ∨ a ∈ p.axioms :=
  mem_axioms_insertAll h

/-- What was there first stays. -/
theorem axioms_subset_insertAll (o : Ontology) (as : List Axiom) :
    o.axioms ⊆ (o.insertAll as).axioms :=
  List.foldlRecOn as _ (motive := fun p : Ontology => o.axioms ⊆ p.axioms) (List.Subset.refl _)
    fun _ h _ _ => List.Subset.trans h fun _ ha => mem_axioms_insert.2 (.inl ha)

theorem axioms_ofAxioms_subset : (ofAxioms as).axioms ⊆ as := by
  have sub : (ofAxioms as).axioms ⊆ ({} : Ontology).axioms ++ as := axioms_insertAll_subset
  rwa [axioms_empty, List.nil_append] at sub

/-! ### Keys -/

/-- Ontologies with the same keys list them in the same order. -/
theorem keys_eq_of_forall_mem {p : Ontology} (h : ∀ k, k ∈ o.keys ↔ k ∈ p.keys) :
    o.keys = p.keys := by
  have perm : o.keys.Perm p.keys :=
    (List.perm_ext_iff_of_nodup Std.TreeMap.nodup_keys Std.TreeMap.nodup_keys).2 h
  refine perm.eq_of_pairwise ?_ Std.TreeMap.ordered_keys Std.TreeMap.ordered_keys
  intro a b _ _ less greater
  exact absurd (Std.TransCmp.lt_trans less greater) (by simp)

theorem mem_axioms_retain {p : Axiom → Bool} :
    a ∈ (o.retain p).axioms ↔ a ∈ o.axioms ∧ p a := by
  simp [retain, axioms]

end Ontology

theorem Ontologies.mem_all {os : Ontologies} {o : Ontology} :
    o ∈ os.all ↔ ∃ name : String, os[name]? = some o := by
  simp [all]

end TabularOntology
