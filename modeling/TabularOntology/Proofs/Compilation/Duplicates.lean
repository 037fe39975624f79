import TabularOntology.Proofs.Compilation.Declared

/-! Which records can be declared together. A record is compared with what is known of its term,
not with the records before it; but what is known is what these said, and until two of them say
different things it does not matter how many there were and which of them gave the label. So the
pass ends with a conflict just if two records clash, at the first record that clashes with an
earlier one, and otherwise the index of terms and the labels are what the records say. -/

namespace TabularOntology

/-- Records of one term that say different things about it. -/
def TermRecord.Clashes (scope : IdentifierScope) (r r' : TermRecord) : Prop :=
  ∃ x, r.iri? scope = some x ∧ r'.iri? scope = some x ∧
    (r.kind ≠ r'.kind ∨ ∃ l ∈ r.label, ∃ l' ∈ r'.label, l ≠ l')

/-- The first of some records that declares a term. -/
def firstOf? (scope : IdentifierScope) (rs : List TermRecord) (x : Iri) : Option TermRecord :=
  rs.find? fun r => r.iri? scope = some x

variable {scope : IdentifierScope} {rs done before : List TermRecord} {r : TermRecord}
variable {iri x : Iri} {t : Term} {clash : Clash} {conflict : Conflict}

theorem agree_iff : Agree scope rs ↔ ∀ r ∈ rs, ∀ r' ∈ rs, ¬ r.Clashes scope r' := by
  refine forall₂_congr fun r _ => forall₂_congr fun r' _ => ?_
  simp only [TermRecord.Clashes, not_exists, not_and, not_or, not_not]

theorem firstOf?_concat : firstOf? scope (done ++ [r]) x =
    (firstOf? scope done x <|> if r.iri? scope = some x then some r else none) := by
  rw [firstOf?, List.find?_append, List.find?_singleton, firstOf?]
  simp

theorem firstOf?_isSome : (firstOf? scope rs x).isSome ↔ ∃ r ∈ rs, r.iri? scope = some x := by
  simp [firstOf?]

/-! ### Conflicts -/

theorem Term.clash?_eq_some : t.clash? r = some clash ↔
    (t.kind ≠ r.kind ∧ clash = .kinds t.kind r.kind) ∨
      (t.kind = r.kind ∧ ∃ l ∈ t.label, ∃ l' ∈ r.label, l ≠ l' ∧ clash = .labels l l') := by
  obtain ⟨kind, label, provenance⟩ := t
  unfold clash?
  by_cases same : kind = r.kind
  · cases label <;> cases r.label <;> simp [same, eq_comm]
  · simp [same, eq_comm]

/-- What a conflict says of the records before it and of the one it is met at. -/
def Clash.IsBetween (scope : IdentifierScope) (before : List TermRecord) (r : TermRecord)
    (x : Iri) : Clash → Prop
  | .kinds first second => first ≠ second ∧ r.kind = second ∧
      ∃ q ∈ before, q.iri? scope = some x ∧ q.kind = first
  | .labels first second => first ≠ second ∧ r.label = some second ∧
      (∃ q ∈ before, q.iri? scope = some x ∧ q.label = some first) ∧
      ∀ q ∈ before, q.iri? scope = some x → q.kind = r.kind

theorem Clash.IsBetween.clashes (h : clash.IsBetween scope before r x)
    (hx : r.iri? scope = some x) : ∃ q ∈ before, q.Clashes scope r := by
  cases clash with
  | kinds first second =>
    obtain ⟨differ, rfl, q, hq, about, rfl⟩ := h
    exact ⟨q, hq, x, about, hx, .inl differ⟩
  | labels first second =>
    obtain ⟨differ, label, ⟨q, hq, about, label'⟩, _⟩ := h
    exact ⟨q, hq, x, about, hx, .inr ⟨first, label', second, label, differ⟩⟩

/-- The conflict of a record with those before it, which have none among them. -/
structure Conflict.IsAt (conflict : Conflict) (scope : IdentifierScope)
    (before : List TermRecord) (r : TermRecord) : Prop where
  agree : ∀ q ∈ before, ∀ q' ∈ before, ¬ q.Clashes scope q'
  clashes : ∃ q ∈ before, q.Clashes scope r
  iri : r.iri? scope = some conflict.iri
  first : (firstOf? scope before conflict.iri).map TermRecord.provenance = some conflict.first
  second : r.provenance = conflict.second
  clash : conflict.clash.IsBetween scope before r conflict.iri

/-! ### Terms -/

/-- What the records of a term say of it together, known from the first of them. -/
structure Term.IsOf (t : Term) (scope : IdentifierScope) (rs : List TermRecord) (x : Iri) :
    Prop where
  provenance : (firstOf? scope rs x).map TermRecord.provenance = some t.provenance
  kind : ∀ r ∈ rs, r.iri? scope = some x → r.kind = t.kind
  label : ∀ l, t.label = some l ↔ ∃ r ∈ rs, r.iri? scope = some x ∧ r.label = some l

theorem Term.IsOf.unique {t' : Term} (h : t.IsOf scope rs x) (h' : t'.IsOf scope rs x) :
    t = t' := by
  have known : (firstOf? scope rs x).isSome := by
    rw [← Option.isSome_map, h.provenance, Option.isSome_some]
  obtain ⟨r, hr, about⟩ := firstOf?_isSome.1 known
  have kind : t.kind = t'.kind := (h.kind r hr about).symm.trans (h'.kind r hr about)
  have label : t.label = t'.label := Option.ext fun l => (h.label l).trans (h'.label l).symm
  have provenance := Option.some.inj (h.provenance.symm.trans h'.provenance)
  cases t
  cases t'
  simp_all

namespace Compilation

/-- The index of terms and the labels are what the records say. -/
structure Indexes (scope : IdentifierScope) (rs : List TermRecord) (c : Compilation) : Prop where
  known : ∀ x, x ∈ c.terms ↔ ∃ r ∈ rs, r.iri? scope = some x
  terms : ∀ (x : Iri) (t : Term), c.terms[x]? = some t ↔ t.IsOf scope rs x
  carriers : ∀ l (x : Iri),
    x ∈ c.labels.carriers l ↔ ∃ t : Term, c.terms[x]? = some t ∧ t.label = some l
  labels : ∀ l, l ∈ c.labels ↔ ∃ (x : Iri) (t : Term), c.terms[x]? = some t ∧ t.label = some l

variable {c d : Compilation} {o : Ontology} {as : List Axiom}

/-- The record that a term is known from. -/
def provenance? (c : Compilation) (x : Iri) : Option Provenance := (c.terms[x]?).map Term.provenance

theorem declare_eq_error (h : c.declare iri r = .error conflict) :
    ∃ t, c.terms[iri]? = some t ∧ t.clash? r = some conflict.clash ∧ conflict.iri = iri ∧
      conflict.first = t.provenance ∧ conflict.second = r.provenance := by
  unfold declare at h
  split at h
  · cases h
  · next t ht =>
    split at h
    · next clash found =>
      cases h
      exact ⟨t, ht, found, rfl, rfl, rfl⟩
    · cases h

theorem provenance?_learn (c : Compilation) (iri x : Iri) (t : Term) (label : Option String) :
    (c.learn iri t label).provenance? x =
      if x = iri then some t.provenance else c.provenance? x := by
  rw [provenance?, getElem?_terms_learn]
  split <;> rfl

/-- A term stays known from the record that it was known from first. -/
theorem provenance?_declare (h : c.declare iri r = .ok d) (x : Iri) : d.provenance? x =
    (c.provenance? x <|> if x = iri then some r.provenance else none) := by
  unfold declare at h
  split at h
  · next free =>
    cases h
    have unknown : c.provenance? iri = none := by rw [provenance?, free, Option.map_none]
    refine (provenance?_learn _ _ _ _ _).trans ?_
    by_cases same : x = iri
    · simp [same, unknown]
    · simp [same]
  · next t ht =>
    have known : c.provenance? iri = some t.provenance := by rw [provenance?, ht, Option.map_some]
    split at h
    · cases h
    · cases h
      refine (provenance?_learn _ _ _ _ _).trans ?_
      by_cases same : x = iri
      · simp [same, known]
      · simp [same]

/-! ### The pass -/

/-- A state that knows what its records say, and each term from its first record. -/
structure Knows (scope : IdentifierScope) (o : Ontology) (done : List TermRecord)
    (c : Compilation) : Prop where
  declares : Declares scope o done c
  firsts : ∀ x, c.provenance? x = (firstOf? scope done x).map TermRecord.provenance

theorem knows_start (ontologyIri : Iri) (versionIri : Option Iri) :
    Knows scope (start ontologyIri versionIri).ontology [] (start ontologyIri versionIri) where
  declares := declares_start ontologyIri versionIri
  firsts x := by simp [provenance?, start, firstOf?]

theorem isKept_knows : IsKept scope (Knows scope o) where
  startTable h := ⟨isKept_declares.startTable h.declares, h.firsts⟩
  skip {done c r e} h failed := by
    refine ⟨isKept_declares.skip h.declares failed, fun x => ?_⟩
    have same : firstOf? scope (done ++ [r]) x = firstOf? scope done x := by
      simp [firstOf?_concat, TermRecord.iri?_of_error failed]
    rw [same]
    exact h.firsts x
  step {done c d r iri as} h declared accepted := by
    refine ⟨isKept_declares.step h.declares declared accepted, fun x => ?_⟩
    have terms : (d.emitAll r.provenance as).terms = d.terms := (emitAll_unchanged _ _ _).1
    rw [provenance?, terms, ← provenance?, provenance?_declare accepted, h.firsts, firstOf?_concat,
      TermRecord.iri?_of_ok declared]
    simp only [Option.some.injEq, @eq_comm _ iri x]
    cases firstOf? scope done x <;> split <;> rfl

theorem Knows.isBetween (h : Knows scope o before c) (ht : c.terms[x]? = some t)
    (clashes : t.clash? r = some clash) : clash.IsBetween scope before r x := by
  have kind : c.kind? x = some t.kind := by rw [kind?, ht, Option.map_some]
  have label : c.label? x = t.label := by rw [label?, ht, Option.bind_some]
  rcases Term.clash?_eq_some.1 clashes with ⟨differ, rfl⟩ | ⟨same, l, hl, l', hl', differ, rfl⟩
  · exact ⟨differ, rfl, (h.declares.kind x t.kind).1 kind⟩
  · rw [hl] at label
    refine ⟨differ, hl', (h.declares.label x l).1 label, fun q hq about => ?_⟩
    have known := (h.declares.kind x q.kind).2 ⟨q, hq, about, rfl⟩
    rw [kind, Option.some.injEq] at known
    rw [← known, same]

/-- The conflict that the pass ends with. -/
theorem Knows.isAt (h : Knows scope o before c)
    (declared : Declaration.ofRecord scope r = .ok (iri, as))
    (refused : c.declare iri r = .error conflict) : conflict.IsAt scope before r := by
  obtain ⟨t, ht, clashes, rfl, first, second⟩ := declare_eq_error refused
  have named : r.iri? scope = some conflict.iri := TermRecord.iri?_of_ok declared
  have between := h.isBetween ht clashes
  have known : (firstOf? scope before conflict.iri).map TermRecord.provenance =
      some conflict.first := by
    rw [← h.firsts, provenance?, ht, first, Option.map_some]
  exact ⟨agree_iff.1 h.declares.agree, between.clashes named, named, known, second.symm, between⟩

theorem Knows.isOf (h : Knows scope o done c) (ht : c.terms[x]? = some t) :
    t.IsOf scope done x where
  provenance := by rw [← h.firsts, provenance?, ht, Option.map_some]
  kind r hr about := by
    have kind := (h.declares.kind x r.kind).2 ⟨r, hr, about, rfl⟩
    rw [kind?, ht] at kind
    exact (Option.some.inj kind).symm
  label l := by rw [← h.declares.label, label?, ht, Option.bind_some]

theorem mem_terms_iff_provenance? : x ∈ c.terms ↔ (c.provenance? x).isSome := by
  rw [provenance?, Option.isSome_map, Std.TreeMap.mem_iff_isSome_getElem?]

theorem Knows.indexes (h : Knows scope o done c) : c.Indexes scope done where
  known x := by
    rw [mem_terms_iff_provenance?, h.firsts, Option.isSome_map, firstOf?_isSome]
  terms x t := by
    refine ⟨h.isOf, fun isOf => ?_⟩
    have known : x ∈ c.terms := by
      rw [mem_terms_iff_provenance?, h.firsts, isOf.provenance, Option.isSome_some]
    rw [Std.TreeMap.mem_iff_isSome_getElem?] at known
    obtain ⟨t', ht'⟩ := Option.isSome_iff_exists.1 known
    rw [ht', (h.isOf ht').unique isOf]
  carriers l x := (h.declares.carriers l x).trans Option.bind_eq_some_iff
  labels l := by
    rw [h.declares.carried l]
    exact exists_congr fun x => (h.declares.carriers l x).trans Option.bind_eq_some_iff

/-- The first pass ends with a conflict just if two records of a term say different things, and
then at the first record that clashes with an earlier one. Otherwise it knows of each term what its
records say. -/
theorem declareTables_exact (scope : IdentifierScope) (ontologyIri : Iri)
    (versionIri : Option Iri) (ts : List Table) :
    let rs := ts.flatMap Table.records
    let result := (start ontologyIri versionIri).declareTables scope ts
    (result.2.isSome ↔ ∃ r ∈ rs, ∃ r' ∈ rs, r.Clashes scope r') ∧
      (∀ conflict ∈ result.2,
        ∃ before r after, rs = before ++ r :: after ∧ conflict.IsAt scope before r) ∧
      (result.2 = none → result.1.Indexes scope rs) := by
  intro rs result
  have ends : EndsWith scope (Knows scope _) rs result :=
    isKept_knows.declareTables (knows_start ontologyIri versionIri) ts
  obtain ⟨c, _ | conflict⟩ := result
  · have agree := agree_iff.1 ends.declares.agree
    refine ⟨?_, nofun, fun _ => ends.indexes⟩
    simpa using agree
  · obtain ⟨before, r, after, iri, as, split, knows, declared, refused⟩ := ends
    have isAt := knows.isAt declared refused
    obtain ⟨q, hq, clashes⟩ := isAt.clashes
    refine ⟨iff_of_true rfl ⟨q, ?_, r, ?_, clashes⟩, ?_, nofun⟩
    · rw [split]
      exact List.mem_append_left _ hq
    · rw [split]
      exact List.mem_append_right _ List.mem_cons_self
    · rintro _ ⟨⟩
      exact ⟨before, r, after, split, isAt⟩

end Compilation

end TabularOntology
