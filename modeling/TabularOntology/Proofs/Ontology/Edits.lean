import Mathlib.Data.Set.Insert
import TabularOntology.Ontology.Edit
import TabularOntology.Proofs.Key.Injective
import TabularOntology.Proofs.Ontology.Members
import TabularOntology.Proofs.Signature

/-! Edited ontologies as sets. Edits are read as edits of a plain set of axioms, and whatever the
edits are, the ontology that they make is a faithful index of that set: each axiom is stored once,
under its key, and the signature and the declarations are those of the set. So two ontologies made
in different ways from the same axioms cannot be told apart by what they hold. -/

namespace TabularOntology

namespace Edit

/-- The axioms that an edit brings along. -/
def given : Edit → List Axiom
  | .insert a => [a]
  | .extend as => as
  | .merge other => other.axioms
  | .retain _ | .addImport _ | .setIri _ | .setVersionIri _ | .setSource _ => []

/-- An edit that brings plain axioms only. -/
def IsPlain (e : Edit) : Prop := ∀ a ∈ e.given, a.isPlain

/-- The edit as one of a set of axioms. -/
def onSet (s : Set Axiom) : Edit → Set Axiom
  | .insert a => Insert.insert a s
  | .extend as => s ∪ {a | a ∈ as}
  | .merge other => s ∪ {a | a ∈ other.axioms}
  | .retain p => {a ∈ s | p a}
  | .addImport _ | .setIri _ | .setVersionIri _ | .setSource _ => s

/-- The set that edits make of the empty set. -/
def setOf (es : List Edit) : Set Axiom := es.foldl onSet ∅

end Edit

namespace Ontology

variable {o p : Ontology} {s : Set Axiom} {a : Axiom} {x : Iri} {kind : EntityKind} {e : Edit}

/-! ### Single edits -/

/-- Axioms that their keys tell apart from all others. -/
theorem contains_iff_mem (h : ∀ b ∈ o.axioms, b.isPlain) (ha : a.isPlain) :
    o.contains a ↔ a ∈ o.axioms := by
  refine ⟨fun stored => mem_of_contains stored fun b hb => Axiom.eq_of_key_eq (h b hb) ha, ?_⟩
  exact fun ha => contains_iff.2 ⟨a, ha, rfl⟩

theorem distinctKeys_append (h : ∀ b ∈ o.axioms, b.isPlain) {as : List Axiom}
    (has : ∀ b ∈ as, b.isPlain) : DistinctKeys (o.axioms ++ as) := by
  have plain : ∀ b ∈ o.axioms ++ as, b.isPlain := List.forall_mem_append.2 ⟨h, has⟩
  exact fun a ha b hb => Axiom.eq_of_key_eq (plain a ha) (plain b hb)

/-- What an edit does to the axioms. -/
theorem mem_axioms_edit (h : ∀ b ∈ o.axioms, b.isPlain) (he : e.IsPlain) :
    a ∈ (o.edit e).axioms ↔ a ∈ e.onSet {b | b ∈ o.axioms} := by
  cases e with
  | insert b =>
    have fresh : o.contains b ↔ b ∈ o.axioms := contains_iff_mem h (he b (by simp [Edit.given]))
    rw [edit, insertNew, mem_axioms_insert, fresh]
    change _ ↔ a = b ∨ a ∈ o.axioms
    constructor
    · rintro (ha | ⟨same, _⟩)
      · exact .inr ha
      · exact .inl same
    · rintro (rfl | ha)
      · exact or_iff_not_imp_left.2 fun new => ⟨rfl, new⟩
      · exact .inl ha
  | extend as => exact mem_axioms_insertAll (distinctKeys_append h he)
  | merge other => exact mem_axioms_merge (distinctKeys_append h he)
  | retain p => exact mem_axioms_retain
  | addImport | setIri | setVersionIri | setSource => exact Iff.rfl

theorem isPlain_edit (h : ∀ b ∈ o.axioms, b.isPlain) (he : e.IsPlain) :
    ∀ b ∈ (o.edit e).axioms, b.isPlain := by
  intro b hb
  rw [mem_axioms_edit h he] at hb
  cases e with
  | insert a =>
    rcases hb with rfl | hb
    · exact he b (by simp [Edit.given])
    · exact h b hb
  | extend | merge => exact hb.elim (h b) (he b)
  | retain => exact h b hb.1
  | addImport | setIri | setVersionIri | setSource => exact h b hb

/-! ### Sequences of edits -/

/-- The ontology of a sequence of edits has the axioms of the set that the edits make. -/
theorem mem_axioms_ofEdits {es : List Edit} (h : ∀ e ∈ es, e.IsPlain) :
    (∀ b ∈ (ofEdits es).axioms, b.isPlain) ∧ ∀ a, a ∈ (ofEdits es).axioms ↔ a ∈ Edit.setOf es := by
  suffices run : ∀ (o : Ontology) (s : Set Axiom), (∀ b ∈ o.axioms, b.isPlain) →
      (∀ a, a ∈ o.axioms ↔ a ∈ s) → (∀ b ∈ (es.foldl edit o).axioms, b.isPlain) ∧
        ∀ a, a ∈ (es.foldl edit o).axioms ↔ a ∈ es.foldl Edit.onSet s by
    exact run {} ∅ (by simp) (by simp)
  induction es with
  | nil => exact fun o s plain same => ⟨plain, same⟩
  | cons e es ih =>
    intro o s plain same
    obtain ⟨first, rest⟩ := List.forall_mem_cons.1 h
    obtain rfl : {a | a ∈ o.axioms} = s := Set.ext same
    exact ih rest (o.edit e) _ (isPlain_edit plain first) fun a => mem_axioms_edit plain first

/-! ### What is held -/

theorem mem_declared_iff_mem_declaredKinds : (⟨x, kind⟩ : Entity) ∈ o.declared ↔
    kind ∈ o.declaredKinds x := by
  rw [declaredKinds, List.mem_filter, and_iff_right kind.mem_all, Std.TreeSet.contains_iff_mem]

theorem pairwise_declaredKinds (o : Ontology) (x : Iri) :
    (o.declaredKinds x).Pairwise fun k l => k.rank < l.rank :=
  List.Pairwise.sublist List.filter_sublist (by decide)

theorem declares_iff : o.declares x ↔ ∃ kind, .declaration kind x ∈ o.axioms := by
  simp only [← mem_declaredKinds, declares, Bool.not_eq_true', List.isEmpty_eq_false_iff_exists_mem]

/-- The first of the kinds that a term is declared as. -/
theorem kindOf?_eq_some_iff : o.kindOf? x = some kind ↔ .declaration kind x ∈ o.axioms ∧
    ∀ k, .declaration k x ∈ o.axioms → kind.rank ≤ k.rank := by
  simp only [← mem_declaredKinds, kindOf?]
  have ordered := o.pairwise_declaredKinds x
  cases kinds : o.declaredKinds x with
  | nil => simp
  | cons first rest =>
    rw [kinds, List.pairwise_cons] at ordered
    rw [List.head?_cons, Option.some.injEq]
    constructor
    · rintro rfl
      refine ⟨List.mem_cons_self, List.forall_mem_cons.2 ⟨le_rfl, fun k hk => ?_⟩⟩
      exact (ordered.1 k hk).le
    · rintro ⟨member, least⟩
      rcases List.mem_cons.1 member with rfl | later
      · rfl
      · exact absurd (least first List.mem_cons_self) (not_le.2 (ordered.1 kind later))

/-- An ontology that is an index of a set of axioms. -/
structure Reflects (o : Ontology) (s : Set Axiom) : Prop where
  stored : ∀ (k : String) (a : Axiom), o.byKey[k]? = some a ↔ a ∈ s ∧ a.key = k
  axioms : ∀ a, a ∈ o.axioms ↔ a ∈ s
  ordered : o.axioms.Pairwise fun a b => compare a.key b.key = .lt
  keys : o.keys = o.axioms.map Axiom.key
  signature : ∀ x, x ∈ o.signature ↔ ∃ a ∈ s, x ∈ a.iris
  declaredKinds : ∀ x kind, kind ∈ o.declaredKinds x ↔ .declaration kind x ∈ s
  orderedKinds : ∀ x, (o.declaredKinds x).Pairwise fun k l => k.rank < l.rank
  declares : ∀ x, o.declares x ↔ ∃ kind, .declaration kind x ∈ s
  kindOf : ∀ x kind, o.kindOf? x = some kind ↔ .declaration kind x ∈ s ∧
    ∀ k, .declaration k x ∈ s → kind.rank ≤ k.rank
  entities : ∀ e, e ∈ o.entities ↔ .declaration e.kind e.iri ∈ s
  orderedEntities : o.entities.Pairwise fun e f => compare e f = .lt
  /-- Adding an axiom tells whether it was absent. -/
  absent : ∀ a, a.isPlain → ((o.insertNew a).2 = true ↔ a ∉ s)

theorem reflects_of_forall_mem (plain : ∀ b ∈ o.axioms, b.isPlain)
    (h : ∀ a, a ∈ o.axioms ↔ a ∈ s) : o.Reflects s where
  stored k a := by
    rw [← h]
    constructor
    · intro stored
      exact ⟨mem_axioms_iff_exists.2 ⟨k, stored⟩, o.key_eq k a stored⟩
    · rintro ⟨ha, rfl⟩
      exact mem_axioms.1 ha
  axioms := h
  ordered := o.ordered_axioms
  keys := o.keys_eq_map
  signature x := by simp only [mem_signature, h]
  declaredKinds x kind := by rw [mem_declaredKinds, h]
  orderedKinds := o.pairwise_declaredKinds
  declares x := by simp only [declares_iff, h]
  kindOf x kind := by simp only [kindOf?_eq_some_iff, h]
  entities e := by
    rw [Ontology.entities, Std.TreeSet.mem_toList, mem_declared_iff_mem_declaredKinds,
      mem_declaredKinds, h]
  orderedEntities := Std.TreeSet.ordered_toList
  absent a ha := by rw [insertNew, Bool.not_eq_true', ← Bool.not_eq_true, contains_iff_mem plain ha, h]

/-- Ontologies that hold the same. -/
structure HoldsSame (o p : Ontology) : Prop where
  axioms : o.axioms = p.axioms
  signature : o.signature.toList = p.signature.toList
  declaredKinds : ∀ x, o.declaredKinds x = p.declaredKinds x
  entities : o.entities = p.entities

theorem Reflects.holdsSame (h : o.Reflects s) (hp : p.Reflects s) : o.HoldsSame p where
  axioms := axioms_eq_of_forall_mem fun a => by rw [h.axioms, hp.axioms]
  signature := Signature.toList_eq_of_forall_mem fun x => by rw [h.signature, hp.signature]
  declaredKinds x := by
    unfold Ontology.declaredKinds
    refine List.filter_congr fun kind _ => ?_
    rw [Bool.eq_iff_iff, Std.TreeSet.contains_iff_mem, Std.TreeSet.contains_iff_mem,
      mem_declared_iff_mem_declaredKinds, mem_declared_iff_mem_declaredKinds, h.declaredKinds,
      hp.declaredKinds]
  entities := (Std.TreeSet.Equiv.of_forall_mem_iff fun ⟨x, kind⟩ => by
    rw [mem_declared_iff_mem_declaredKinds, mem_declared_iff_mem_declaredKinds, h.declaredKinds,
      hp.declaredKinds]).toList_eq

/-- Whatever edits an ontology is made by, it is an index of the set that the edits make, and edits
that make the same set make ontologies that hold the same. The order of axioms, and how often they
are added, makes no difference to such a set. -/
theorem ofEdits_reflects (es : List Edit) (plain : ∀ e ∈ es, e.IsPlain) :
    (ofEdits es).Reflects (Edit.setOf es) ∧
      ∀ fs : List Edit, (∀ e ∈ fs, e.IsPlain) → Edit.setOf fs = Edit.setOf es →
        (ofEdits es).HoldsSame (ofEdits fs) := by
  have reflects {es : List Edit} (h : ∀ e ∈ es, e.IsPlain) :
      (ofEdits es).Reflects (Edit.setOf es) :=
    reflects_of_forall_mem (mem_axioms_ofEdits h).1 (mem_axioms_ofEdits h).2
  refine ⟨reflects plain, fun fs plain' same => (reflects plain).holdsSame ?_⟩
  rw [← same]
  exact reflects plain'

/-- A class that is declared as an individual as well, one axiom that is dropped again, and an
ontology that is merged in. -/
def exampleEdits : List Edit :=
  [.insert (.declaration .individual ⟨"urn:a"⟩),
    .extend [.subClass (.named ⟨"urn:a"⟩) (.named ⟨"urn:b"⟩), .declaration .individual ⟨"urn:a"⟩],
    .setIri (some ⟨"urn:o"⟩), .retain fun a => !a.isLogical,
    .merge (.ofAxioms [.declaration .cls ⟨"urn:a"⟩])]

/-- The first kind is the least one, and nothing is left of what was dropped. -/
theorem ofEdits_reflects_retained :
    let fill : List Edit := [.extend [.declaration .cls ⟨"urn:a"⟩,
      .declaration .individual ⟨"urn:a"⟩, .declaration .cls ⟨"urn:a"⟩]]
    (ofEdits exampleEdits).Reflects (Edit.setOf exampleEdits) ∧
      (ofEdits exampleEdits).HoldsSame (ofEdits fill) ∧
      (ofEdits exampleEdits).kindOf? ⟨"urn:a"⟩ = some .cls ∧
      (ofEdits exampleEdits).signature.toList = [⟨"urn:a"⟩] := by
  intro fill
  have plain : ∀ e ∈ exampleEdits, e.IsPlain := by unfold Edit.IsPlain; decide +kernel
  have plain' : ∀ e ∈ fill, e.IsPlain := by unfold Edit.IsPlain; decide +kernel
  have same : Edit.setOf fill = Edit.setOf exampleEdits := by
    have merged (a : Axiom) : a ∈ (ofAxioms [.declaration .cls ⟨"urn:a"⟩]).axioms ↔
        a = .declaration .cls ⟨"urn:a"⟩ := by
      rw [mem_axioms_ofAxioms (by simp [DistinctKeys]), List.mem_singleton]
    ext a
    simp only [fill, Edit.setOf, exampleEdits, List.foldl_cons, List.foldl_nil, Edit.onSet, merged,
      Set.mem_union, Set.mem_ofPred_eq, Set.mem_insert_iff, Set.mem_empty_iff_false, List.mem_cons,
      List.not_mem_nil, false_or, or_false]
    constructor
    · rintro (rfl | rfl | rfl) <;> simp [Axiom.isLogical]
    · rintro (⟨rfl | rfl | rfl, kept⟩ | rfl) <;> simp_all [Axiom.isLogical]
  obtain ⟨reflects, holdsSame⟩ := ofEdits_reflects exampleEdits plain
  exact ⟨reflects, holdsSame fill plain' same, by decide +kernel, by decide +kernel⟩

end Ontology

end TabularOntology
