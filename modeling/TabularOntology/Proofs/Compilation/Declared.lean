import Mathlib.Data.List.Basic
import TabularOntology.Proofs.Compilation.Pass
import TabularOntology.Proofs.Outcome
import TabularOntology.Proofs.Signature

/-! The first pass over the tables, as a function of the set of records. Records are declared
one after the other in a state that remembers the kind and the label of each term. Whatever
the order, the state knows in the end just what some record says, and the pass succeeds
just if no two records of one term say different things. -/

namespace TabularOntology

/-! ### What one record declares -/

namespace TermRecord

/-- The term that a record declares, if it can be declared. -/
def iri? (r : TermRecord) (scope : IdentifierScope) : Option Iri :=
  (Declaration.ofRecord scope r).toOption.map Prod.fst

/-- The axioms that the declaration of a record brings. -/
def declaredAxioms (r : TermRecord) (scope : IdentifierScope) : List Axiom :=
  ((Declaration.ofRecord scope r).toOption.map Prod.snd).getD []

variable {r : TermRecord} {scope : IdentifierScope} {x : Iri} {as : List Axiom}

theorem iri?_of_ok (h : Declaration.ofRecord scope r = .ok (x, as)) : r.iri? scope = some x := by
  rw [iri?, h]
  rfl

theorem declaredAxioms_of_ok (h : Declaration.ofRecord scope r = .ok (x, as)) :
    r.declaredAxioms scope = as := by
  rw [declaredAxioms, h]
  rfl

theorem iri?_of_error {e : RecordError} (h : Declaration.ofRecord scope r = .error e) :
    r.iri? scope = none := by
  rw [iri?, h]
  rfl

theorem exists_of_iri? (h : r.iri? scope = some x) :
    ∃ as, Declaration.ofRecord scope r = .ok (x, as) := by
  obtain ⟨⟨y, as⟩, known, rfl⟩ := Option.map_eq_some_iff.1 h
  exact ⟨as, mem_toOption.1 known⟩

theorem exists_of_mem_declaredAxioms {a : Axiom} (h : a ∈ r.declaredAxioms scope) :
    ∃ x as, Declaration.ofRecord scope r = .ok (x, as) ∧ a ∈ as := by
  unfold declaredAxioms at h
  cases declared : Declaration.ofRecord scope r with
  | error => simp [declared, Except.toOption] at h
  | ok known => exact ⟨known.1, known.2, rfl, by simpa [declared, Except.toOption] using h⟩

theorem declaredAxioms_of_error {e : RecordError} (h : Declaration.ofRecord scope r = .error e) :
    r.declaredAxioms scope = [] := by
  rw [declaredAxioms, h]
  rfl

end TermRecord

/-- Records of one term that say the same about it. -/
def Agree (scope : IdentifierScope) (rs : List TermRecord) : Prop :=
  ∀ r ∈ rs, ∀ r' ∈ rs, ∀ x, r.iri? scope = some x → r'.iri? scope = some x →
    r.kind = r'.kind ∧ ∀ l ∈ r.label, ∀ l' ∈ r'.label, l = l'

theorem Agree.mono {scope : IdentifierScope} {rs rs' : List TermRecord} (h : Agree scope rs')
    (hs : rs ⊆ rs') : Agree scope rs :=
  fun r hr r' hr' => h r (hs hr) r' (hs hr')

namespace Labels

variable {ls : Labels} {l label : String} {x iri : Iri}

theorem mem_carriers_add :
    x ∈ (ls.add label iri).carriers l ↔ (l = label ∧ x = iri) ∨ x ∈ ls.carriers l := by
  by_cases h : l = label
  · subst h
    simp [add, carriers, @eq_comm _ x iri]
  · simp [add, carriers, Std.TreeMap.getD_insert, h, Ne.symm h]

theorem mem_carriers_ofPairs {ps : List (String × Iri)} :
    x ∈ (ofPairs ps).carriers l ↔ (l, x) ∈ ps := by
  suffices carried : ∀ ls : Labels, x ∈ (ps.foldl (fun ls p => ls.add p.1 p.2) ls).carriers l ↔
      x ∈ ls.carriers l ∨ (l, x) ∈ ps by
    rw [ofPairs, carried, or_iff_right (by simp [carriers])]
  induction ps with
  | nil => simp
  | cons p ps ih =>
    intro ls
    obtain ⟨label, iri⟩ := p
    rw [List.foldl_cons, ih, mem_carriers_add, List.mem_cons, Prod.mk.injEq]
    tauto

/-- Each listed label is carried by some term. -/
def AreCarried (ls : Labels) : Prop := ∀ l, l ∈ ls ↔ ∃ x, x ∈ ls.carriers l

theorem AreCarried.add (h : ls.AreCarried) (label : String) (iri : Iri) :
    (ls.add label iri).AreCarried := by
  intro l
  have listed : l ∈ ls.add label iri ↔ l = label ∨ l ∈ ls := by
    rw [Labels.add, Std.TreeMap.mem_insert, Std.LawfulEqOrd.compare_eq_iff_eq, eq_comm]
  simp only [listed, mem_carriers_add, exists_or, h l, exists_and_left, exists_eq, and_true]

/-- Labels are known by their carriers. -/
theorem AreCarried.toList_eq {ms : Labels} (h : ls.AreCarried) (hm : ms.AreCarried)
    (same : ∀ l x, x ∈ ls.carriers l ↔ x ∈ ms.carriers l) (l : String) :
    (ls[l]?).map Std.TreeSet.toList = (ms[l]?).map Std.TreeSet.toList := by
  have listed : l ∈ ls ↔ l ∈ ms := by simp only [h l, hm l, same]
  have lists := Signature.toList_eq_of_forall_mem (same l)
  rw [Std.TreeMap.mem_iff_isSome_getElem?, Std.TreeMap.mem_iff_isSome_getElem?] at listed
  rw [carriers, carriers, Std.TreeMap.getD_eq_getD_getElem?,
    Std.TreeMap.getD_eq_getD_getElem?] at lists
  cases hl : ls[l]? <;> cases hm : ms[l]? <;> simp_all

end Labels

namespace Compilation

variable {c c' : Compilation} {scope : IdentifierScope} {iri x : Iri} {r : TermRecord}
variable {provenance : Provenance} {as bs : List Axiom} {rs done : List TermRecord}

/-! ### What the state knows -/

/-- The kind of a declared term. -/
def kind? (c : Compilation) (x : Iri) : Option EntityKind := (c.terms[x]?).map Term.kind

/-- The label of a declared term, if it has one. -/
def label? (c : Compilation) (x : Iri) : Option String := (c.terms[x]?).bind Term.label

theorem emitAll_unchanged (c : Compilation) (provenance : Provenance) (as : List Axiom) :
    (c.emitAll provenance as).terms = c.terms ∧ (c.emitAll provenance as).labels = c.labels ∧
    (c.emitAll provenance as).tables = c.tables := by
  refine List.foldlRecOn as _ (motive := fun d : Compilation =>
    d.terms = c.terms ∧ d.labels = c.labels ∧ d.tables = c.tables) ⟨rfl, rfl, rfl⟩ ?_
  intro d h a _
  exact h

theorem records_emitAll (c : Compilation) (provenance : Provenance) (as : List Axiom) :
    (c.emitAll provenance as).records = c.records :=
  congrArg List.flatten (c.emitAll_unchanged provenance as).2.2

theorem ontology_emitAll (c : Compilation) (provenance : Provenance) (as : List Axiom) :
    (c.emitAll provenance as).ontology = c.ontology.insertAll as := by
  induction as generalizing c with
  | nil => rfl
  | cons a as ih => exact ih (c.emit provenance a)

theorem insertAll_append (o : Ontology) (as bs : List Axiom) :
    o.insertAll (as ++ bs) = (o.insertAll as).insertAll bs :=
  List.foldl_append

theorem flatten_fileLast (d : DeclaredRecord) (ts : List (List DeclaredRecord)) :
    (fileLast d ts).flatten = ts.flatten ++ [d] := by
  fun_induction fileLast d ts with
  | case1 => rfl
  | case2 t => simp
  | case3 t ts _ ih => rw [List.flatten_cons, ih, List.flatten_cons, List.append_assoc]

theorem records_file (c : Compilation) (iri : Iri) (r : TermRecord) :
    (c.file iri r).records = c.records ++ [⟨iri, r, c.recordCount⟩] :=
  flatten_fileLast _ _

theorem records_startTable (c : Compilation) : c.startTable.records = c.records := by
  simp [records, startTable]

theorem terms_learn (c : Compilation) (iri : Iri) (t : Term) (label : Option String) :
    (c.learn iri t label).terms = c.terms.insert iri { t with label := t.label <|> label } := by
  obtain ⟨kind, old, provenance⟩ := t
  cases old <;> cases label <;> rfl

theorem getElem?_terms_learn (c : Compilation) (iri x : Iri) (t : Term) (label : Option String) :
    (c.learn iri t label).terms[x]? =
      if x = iri then some { t with label := t.label <|> label } else c.terms[x]? := by
  rw [terms_learn, Std.TreeMap.getElem?_insert]
  refine if_congr ?_ rfl rfl
  rw [Std.LawfulEqOrd.compare_eq_iff_eq, eq_comm]

theorem learn_unchanged (c : Compilation) (iri : Iri) (t : Term) (label : Option String) :
    (c.learn iri t label).ontology = c.ontology ∧ (c.learn iri t label).records = c.records := by
  obtain ⟨kind, old, provenance⟩ := t
  cases old <;> cases label <;> exact ⟨rfl, rfl⟩

theorem mem_carriers_learn {t : Term} {label : Option String} {l : String} :
    x ∈ (c.learn iri t label).labels.carriers l ↔
      x ∈ c.labels.carriers l ∨ x = iri ∧ t.label = none ∧ label = some l := by
  obtain ⟨kind, old, provenance⟩ := t
  cases old with
  | some o =>
    have same : (c.learn iri ⟨kind, some o, provenance⟩ label).labels = c.labels := by
      cases label <;> rfl
    simp [same]
  | none =>
    cases label with
    | none => simp [learn]
    | some new =>
      have added : (c.learn iri ⟨kind, none, provenance⟩ (some new)).labels =
          c.labels.add new iri := rfl
      rw [added, Labels.mem_carriers_add]
      simp only [Option.some.injEq, true_and]
      rw [or_comm, and_comm, @eq_comm _ l]

theorem areCarried_learn (h : c.labels.AreCarried) (t : Term) (label : Option String) :
    (c.learn iri t label).labels.AreCarried := by
  obtain ⟨kind, old, provenance⟩ := t
  cases old <;> cases label <;> first | exact h | exact h.add _ _

/-- What the declaration of a record changes in what is known. -/
structure Enters (c : Compilation) (iri : Iri) (r : TermRecord) (c' : Compilation) : Prop where
  kind : ∀ x, c'.kind? x = if x = iri then some r.kind else c.kind? x
  label : ∀ x, c'.label? x = if x = iri then c.label? iri <|> r.label else c.label? x
  carriers : ∀ l x, x ∈ c'.labels.carriers l ↔
    x ∈ c.labels.carriers l ∨ x = iri ∧ c.label? iri = none ∧ r.label = some l
  carried : c.labels.AreCarried → c'.labels.AreCarried
  ontology : c'.ontology = c.ontology
  records : ∃ n, c'.records = c.records ++ [⟨iri, r, n⟩]

theorem enters_learn {t : Term} {d : Compilation} (hl : c.label? iri = t.label)
    (hk : t.kind = r.kind) (terms : d.terms = (c.learn iri t r.label).terms)
    (labels : d.labels = (c.learn iri t r.label).labels) (ontology : d.ontology = c.ontology)
    (records : ∃ n, d.records = c.records ++ [⟨iri, r, n⟩]) : Enters c iri r d where
  kind x := by
    rw [kind?, terms, getElem?_terms_learn, kind?]
    split
    · exact congrArg some hk
    · rfl
  label x := by
    rw [label?, terms, getElem?_terms_learn, hl, label?]
    split <;> rfl
  carriers l x := by rw [labels, mem_carriers_learn, hl]
  carried h := by
    rw [labels]
    exact areCarried_learn h t r.label
  ontology := ontology
  records := records

/-- The record says nothing else of the term than what is known of it. -/
def Accepts (c : Compilation) (iri : Iri) (r : TermRecord) : Prop :=
  (∀ k ∈ c.kind? iri, k = r.kind) ∧ ∀ l ∈ c.label? iri, ∀ l' ∈ r.label, l = l'

theorem clash?_eq_none {t : Term} :
    t.clash? r = none ↔ t.kind = r.kind ∧ ∀ l ∈ t.label, ∀ l' ∈ r.label, l = l' := by
  unfold Term.clash?
  split
  · next other => simp [other]
  · next same =>
    rw [not_not] at same
    rw [and_iff_right same]
    split
    · next first second h h' => simp [h, h']
    · next h =>
      simp only [true_iff]
      intro l hl l' hl'
      exact absurd hl' (h l l' hl)

theorem accepts_of_some {t : Term} (ht : c.terms[iri]? = some t) :
    c.Accepts iri r ↔ t.clash? r = none := by
  rw [clash?_eq_none, Accepts, kind?, label?, ht]
  simp

theorem declare_eq_ok (h : c.declare iri r = .ok c') : c.Accepts iri r ∧ Enters c iri r c' := by
  unfold declare at h
  split at h
  · next free =>
    cases h
    refine ⟨by simp [Accepts, kind?, label?, free], ?_⟩
    let t : Term := ⟨r.kind, none, r.provenance⟩
    obtain ⟨ontology, records⟩ := learn_unchanged c iri t r.label
    have filed := (records_file (c.learn iri t r.label) iri r).trans (congrArg (· ++ _) records)
    refine enters_learn (t := t) ?_ rfl rfl rfl ontology ⟨_, filed⟩
    simp [label?, free, t]
  · next t ht =>
    split at h
    · cases h
    · next agreed =>
      cases h
      refine ⟨(accepts_of_some ht).2 agreed, ?_⟩
      obtain ⟨ontology, records⟩ := learn_unchanged c iri t r.label
      have filed := (records_file (c.learn iri t r.label) iri r).trans (congrArg (· ++ _) records)
      refine enters_learn (t := t) ?_ (clash?_eq_none.1 agreed).1 rfl rfl ontology ⟨_, filed⟩
      simp [label?, ht]

theorem not_accepts_of_error {conflict : Conflict} (h : c.declare iri r = .error conflict) :
    ¬ c.Accepts iri r := by
  unfold declare at h
  split at h
  · cases h
  · next t ht =>
    split at h
    · next clash => 
      rw [accepts_of_some ht, clash]
      exact Option.some_ne_none _
    · cases h

/-! ### The pass -/

/-- The state after some records, `o` being the ontology before them: it knows of each term
what some record says. -/
structure Declares (scope : IdentifierScope) (o : Ontology) (done : List TermRecord)
    (c : Compilation) : Prop where
  kind : ∀ x k, c.kind? x = some k ↔ ∃ r ∈ done, r.iri? scope = some x ∧ r.kind = k
  label : ∀ x l, c.label? x = some l ↔ ∃ r ∈ done, r.iri? scope = some x ∧ r.label = some l
  carriers : ∀ l x, x ∈ c.labels.carriers l ↔ c.label? x = some l
  carried : c.labels.AreCarried
  records : ∀ x r, (∃ n, ⟨x, r, n⟩ ∈ c.records) ↔ r ∈ done ∧ r.iri? scope = some x
  ontology : c.ontology = o.insertAll (done.flatMap (·.declaredAxioms scope))

variable {o : Ontology} {d : Compilation}

theorem declares_start (ontologyIri : Iri) (versionIri : Option Iri) :
    Declares scope (start ontologyIri versionIri).ontology [] (start ontologyIri versionIri) where
  kind x k := by simp [kind?, start]
  label x l := by simp [label?, start]
  carriers l x := by simp [Labels.carriers, label?, start]
  carried l := by simp [Labels.carriers, start]
  records x r := by simp [records, start]
  ontology := rfl

/-- A state that differs only in its report. -/
theorem Declares.congr (h : Declares scope o done c) (terms : d.terms = c.terms)
    (labels : d.labels = c.labels) (records : d.records = c.records)
    (ontology : d.ontology = c.ontology) : Declares scope o done d where
  kind x k := by rw [kind?, terms]; exact h.kind x k
  label x l := by rw [label?, terms]; exact h.label x l
  carriers l x := by rw [labels, label?, terms]; exact h.carriers l x
  carried := labels ▸ h.carried
  records x r := by rw [records]; exact h.records x r
  ontology := ontology.trans h.ontology

/-- A record that cannot be declared changes nothing. -/
theorem Declares.skip (h : Declares scope o done c) {e : RecordError}
    (he : Declaration.ofRecord scope r = .error e) : Declares scope o (done ++ [r]) c where
  kind x k := by simp [h.kind, TermRecord.iri?_of_error he, or_and_right, exists_or]
  label x l := by simp [h.label, TermRecord.iri?_of_error he, or_and_right, exists_or]
  carriers := h.carriers
  carried := h.carried
  records x r' := by
    rw [h.records, List.mem_append, List.mem_singleton, or_and_right]
    refine (or_iff_left ?_).symm
    rintro ⟨rfl, same⟩
    simp [TermRecord.iri?_of_error he] at same
  ontology := by
    rw [List.flatMap_append, List.flatMap_singleton, TermRecord.declaredAxioms_of_error he,
      List.append_nil, h.ontology]

theorem exists_mem_concat {α : Type} {bs : List α} {b : α} {p : α → Prop} :
    (∃ a ∈ bs ++ [b], p a) ↔ (∃ a ∈ bs, p a) ∨ p b := by
  simp [or_and_right, exists_or]

theorem orElse_eq_some {l m : Option String} {s : String}
    (same : ∀ a ∈ l, ∀ b ∈ m, a = b) : (l <|> m) = some s ↔ l = some s ∨ m = some s := by
  cases l with
  | none => simp
  | some a =>
    cases m with
    | none => simp
    | some b => simp [same a rfl b rfl]

/-- What is known after the step of a record that is declared. -/
theorem Declares.enter (h : Declares scope o done c) (hr : r.iri? scope = some iri)
    (accepts : c.Accepts iri r) (enters : Enters c iri r c')
    (ontology : d.ontology = c'.ontology.insertAll (r.declaredAxioms scope))
    (terms : d.terms = c'.terms) (labels : d.labels = c'.labels)
    (records : d.records = c'.records) : Declares scope o (done ++ [r]) d where
  kind x k := by
    have known : d.kind? x = c'.kind? x := by rw [kind?, terms, kind?]
    rw [known, exists_mem_concat, ← h.kind, enters.kind, hr, Option.some.injEq]
    by_cases same : x = iri
    · subst same
      rw [if_pos rfl, Option.some.injEq, and_iff_right rfl]
      exact (or_iff_right_of_imp fun old => (accepts.1 k old).symm).symm
    · rw [if_neg same]
      exact (or_iff_left fun new => same new.1.symm).symm
  label x l := by
    have known : d.label? x = c'.label? x := by rw [label?, terms, label?]
    rw [known, exists_mem_concat, ← h.label, enters.label, hr, Option.some.injEq]
    by_cases same : x = iri
    · subst same
      rw [if_pos rfl, and_iff_right rfl]
      exact orElse_eq_some accepts.2
    · rw [if_neg same]
      exact (or_iff_left fun new => same new.1.symm).symm
  carriers l x := by
    have known : d.label? x = c'.label? x := by rw [label?, terms, label?]
    rw [labels, known, enters.carriers, h.carriers, enters.label]
    by_cases same : x = iri
    · subst same
      cases c.label? x <;> simp
    · simp [same]
  carried := labels ▸ enters.carried h.carried
  records x r' := by
    obtain ⟨n, filed⟩ := enters.records
    rw [records, filed]
    have last : (∃ m, (⟨x, r', m⟩ : DeclaredRecord) = ⟨iri, r, n⟩) ↔ x = iri ∧ r' = r := by
      simp
    simp only [List.mem_append, List.mem_singleton, exists_or, h.records, last, or_and_right]
    refine or_congr_right ⟨?_, ?_⟩
    · rintro ⟨rfl, rfl⟩
      exact ⟨rfl, hr⟩
    · rintro ⟨rfl, same⟩
      exact ⟨Option.some.inj (same.symm.trans hr), rfl⟩
  ontology := by
    rw [List.flatMap_append, List.flatMap_singleton, insertAll_append, ← h.ontology,
      ← enters.ontology, ontology]

/-- The step of a record that is declared. -/
theorem Declares.step (h : Declares scope o done c)
    (hr : Declaration.ofRecord scope r = .ok (iri, as)) (hc : c.declare iri r = .ok c') :
    Declares scope o (done ++ [r]) (c'.emitAll r.provenance as) := by
  obtain ⟨accepts, enters⟩ := declare_eq_ok hc
  obtain ⟨terms, labels, _⟩ := emitAll_unchanged c' r.provenance as
  refine h.enter (TermRecord.iri?_of_ok hr) accepts enters ?_ terms labels
    (records_emitAll c' r.provenance as)
  rw [TermRecord.declaredAxioms_of_ok hr, ontology_emitAll]

/-- The records so far agree. -/
theorem Declares.agree (h : Declares scope o done c) : Agree scope done := by
  intro r hr r' hr' x hx hx'
  constructor
  · have kind := (h.kind x r.kind).2 ⟨r, hr, hx, rfl⟩
    have kind' := (h.kind x r'.kind).2 ⟨r', hr', hx', rfl⟩
    exact Option.some.inj (kind.symm.trans kind')
  · intro l hl l' hl'
    have label := (h.label x l).2 ⟨r, hr, hx, hl⟩
    have label' := (h.label x l').2 ⟨r', hr', hx', hl'⟩
    exact Option.some.inj (label.symm.trans label')

/-- A record that agrees with those before it is accepted. -/
theorem Declares.accepts (h : Declares scope o done c) (hr : r.iri? scope = some iri)
    (agree : Agree scope (done ++ [r])) : c.Accepts iri r := by
  have last : r ∈ done ++ [r] := by simp
  constructor
  · intro k hk
    obtain ⟨r', hr', hx, rfl⟩ := (h.kind iri k).1 hk
    exact (agree r' (List.mem_append_left _ hr') r last iri hx hr).1
  · intro l hl l' hl'
    obtain ⟨r', hr', hx, label⟩ := (h.label iri l).1 hl
    exact (agree r' (List.mem_append_left _ hr') r last iri hx hr).2 l label l' hl'

theorem isKept_declares : IsKept scope (Declares scope o) where
  startTable h := h.congr rfl rfl (records_startTable _) rfl
  skip h failed := (h.skip failed).congr rfl rfl rfl rfl
  step h declared accepted := h.step declared accepted

/-- The records of all tables. -/
theorem Declares.declareTables {conflict : Option Conflict} {ts : List Table}
    (h : Declares scope o done c) (hc : c.declareTables scope ts = (d, conflict)) :
    (conflict = none → Declares scope o (done ++ ts.flatMap Table.records) d) ∧
      (conflict ≠ none → ¬ Agree scope (done ++ ts.flatMap Table.records)) := by
  have ends := isKept_declares.declareTables h ts
  rw [hc] at ends
  cases conflict with
  | none => exact ⟨fun _ => ends, fun absurd => (absurd rfl).elim⟩
  | some conflict =>
    obtain ⟨before, r, after, iri, as, split, declares, declared, refused⟩ := ends
    refine ⟨nofun, fun _ agree => not_accepts_of_error refused ?_⟩
    refine declares.accepts (TermRecord.iri?_of_ok declared) (agree.mono ?_)
    have parts : done ++ ts.flatMap Table.records = (before ++ [r]) ++ after := by simp [split]
    rw [parts]
    exact List.subset_append_left _ _

end Compilation

end TabularOntology
