import TabularOntology.Compilation.Tables

/-! The first pass as an induction over the records of all tables. A record is skipped with a
warning, or it is declared and what it states is emitted, or it is refused, and then the pass ends
with the conflict. What each of these steps keeps of the records so far and of the state after them
holds of all records in the end, or of those before the one that is refused. -/

namespace TabularOntology.Compilation

/-- What the first pass keeps of the records so far and of the state after them. -/
structure IsKept (scope : IdentifierScope) (P : List TermRecord → Compilation → Prop) : Prop where
  startTable : ∀ {done c}, P done c → P done c.startTable
  skip : ∀ {done c r e}, P done c → Declaration.ofRecord scope r = .error e →
    P (done ++ [r]) (c.warn e.problem e.message r.provenance)
  step : ∀ {done c d r iri as}, P done c → Declaration.ofRecord scope r = .ok (iri, as) →
    c.declare iri r = .ok d → P (done ++ [r]) (d.emitAll r.provenance as)

/-- How the pass over some records ends: after all of them, or at one that is refused in the state
after those before it. -/
def EndsWith (scope : IdentifierScope) (P : List TermRecord → Compilation → Prop)
    (rs : List TermRecord) : Compilation × Option Conflict → Prop
  | (c, none) => P rs c
  | (c, some conflict) => ∃ before r after iri as, rs = before ++ r :: after ∧ P before c ∧
      Declaration.ofRecord scope r = .ok (iri, as) ∧ c.declare iri r = .error conflict

variable {scope : IdentifierScope} {P : List TermRecord → Compilation → Prop} {c : Compilation}
variable {done rs rs' : List TermRecord} {conflict : Conflict}

/-- Where the pass stops, it does not matter which records come later. -/
theorem EndsWith.append (h : EndsWith scope P rs (c, some conflict)) :
    EndsWith scope P (rs ++ rs') (c, some conflict) := by
  obtain ⟨before, r, after, iri, as, split, kept, declared, refused⟩ := h
  refine ⟨before, r, after ++ rs', iri, as, ?_, kept, declared, refused⟩
  rw [split, List.append_assoc, List.cons_append]

/-- What is kept holds of the last state, whatever the pass ends with. -/
theorem EndsWith.exists_done {result : Compilation × Option Conflict}
    (h : EndsWith scope P rs result) : ∃ done, P done result.1 := by
  obtain ⟨c, _ | conflict⟩ := result
  · exact ⟨rs, h⟩
  · obtain ⟨before, _, _, _, _, _, kept, _⟩ := h
    exact ⟨before, kept⟩

theorem IsKept.declareRecords (kept : IsKept scope P) (h : P done c) (rs : List TermRecord) :
    EndsWith scope P (done ++ rs) (c.declareRecords scope rs) := by
  induction rs generalizing done c with
  | nil =>
    rw [List.append_nil]
    exact h
  | cons r rs ih =>
    have assoc : done ++ r :: rs = (done ++ [r]) ++ rs := by simp
    unfold Compilation.declareRecords
    split
    · next e failed =>
      rw [assoc]
      exact ih (kept.skip h failed)
    · next iri as declared =>
      split
      · next conflict refused => exact ⟨done, r, rs, iri, as, rfl, h, declared, refused⟩
      · next d accepted =>
        rw [assoc]
        exact ih (kept.step h declared accepted)

/-- How tables are split does not matter. -/
theorem IsKept.declareTables (kept : IsKept scope P) (h : P done c) (ts : List Table) :
    EndsWith scope P (done ++ ts.flatMap Table.records) (c.declareTables scope ts) := by
  induction ts generalizing done c with
  | nil =>
    rw [List.flatMap_nil, List.append_nil]
    exact h
  | cons t ts ih =>
    have table := kept.declareRecords (kept.startTable h) t.records
    rw [List.flatMap_cons, ← List.append_assoc]
    unfold Compilation.declareTables
    split
    · next d conflict stopped =>
      rw [stopped] at table
      exact table.append
    · next d passed =>
      rw [passed] at table
      exact ih table

/-- Both passes succeed just if the first one does. -/
theorem ofTables_eq_ok {d : Compilation} {settings : Settings} {catalog : Catalog}
    {ts : List Table} : ofTables settings catalog ts = .ok d ↔
      ∃ c, (start settings.ontologyIri settings.versionIri).declareTables settings.scope ts =
        (c, none) ∧ c.readCells settings catalog = d := by
  unfold ofTables
  split
  · next c conflict stopped => simp [stopped]
  · next c passed => simp [passed]

/-! ### Reports -/

theorem report_learn (c : Compilation) (iri : Iri) (t : Term) (label : Option String) :
    (c.learn iri t label).report = c.report := by
  unfold learn
  split <;> rfl

theorem report_emitAll (c : Compilation) (provenance : Provenance) (as : List Axiom) :
    (c.emitAll provenance as).report = c.report :=
  List.foldlRecOn as _ (motive := fun d : Compilation => d.report = c.report) rfl
    fun _ hd _ _ => hd

/-- A record that is declared costs a warning at most, that it was merged into an earlier one. -/
theorem report_declare {d : Compilation} {iri : Iri} {r : TermRecord}
    (h : c.declare iri r = .ok d) : d.report = c.report ∨
      ∃ message, d.report = c.report.warn .duplicateIri message (some r.provenance) := by
  unfold declare at h
  split at h
  · cases h
    exact .inl (report_learn _ _ _ _)
  · next t _ =>
    split at h
    · cases h
    · cases h
      refine .inr ⟨mergeMessage iri t.provenance, ?_⟩
      rw [← report_learn c iri t r.label]
      rfl

end TabularOntology.Compilation
