import TabularOntology.Build.Run
import TabularOntology.Proofs.Compilation.Pass

/-! Where errors come from. Compiling tables, resolving imports and reasoning do nothing to a
report but add warnings to it; an error enters a report only when a build ends, as the error
that ends it or as a warning that is promoted. What compiling warns of are the records, never
terms that are missing from the sources. -/

namespace TabularOntology

namespace Report

/-- Nothing but warnings. -/
def IsWarnings (r : Report) : Prop := ∀ e ∈ r, e.severity = .warning

variable {r r' : Report} {problem : Problem} {message : String} {provenance : Option Provenance}

theorem isWarnings_nil : IsWarnings [] := nofun

theorem IsWarnings.append (h : r.IsWarnings) (h' : IsWarnings r') : IsWarnings (r ++ r') :=
  List.forall_mem_append.2 ⟨h, h'⟩

theorem IsWarnings.warn (h : r.IsWarnings) : (r.warn problem message provenance).IsWarnings :=
  h.append (List.forall_mem_singleton.2 rfl)

/-- Warnings about what records say. -/
def IsOfRecords (r : Report) : Prop := ∀ e ∈ r, e.severity = .warning ∧ e.problem ≠ .missingTerm

theorem isOfRecords_nil : IsOfRecords [] := nofun

theorem IsOfRecords.isWarnings (h : r.IsOfRecords) : r.IsWarnings := fun e he => (h e he).1

theorem IsOfRecords.warn (h : r.IsOfRecords) (hp : problem ≠ .missingTerm) :
    (r.warn problem message provenance).IsOfRecords :=
  List.forall_mem_append.2 ⟨h, List.forall_mem_singleton.2 ⟨rfl, hp⟩⟩

theorem isWarnings_map {α : Type} (f : α → Report.Entry) (hf : ∀ x, (f x).severity = .warning)
    (xs : List α) : IsWarnings (xs.map f) :=
  List.forall_mem_map.2 fun x _ => hf x

theorem IsWarnings.hasErrors (h : r.IsWarnings) : r.hasErrors = false := by
  refine List.any_eq_false.2 fun e he => ?_
  rw [h e he]
  decide

theorem hasErrors_add_error : (r.add .error problem message provenance).hasErrors = true := by
  simp [hasErrors, add]

/-- Where there is a warning to promote, there is an error afterwards. -/
theorem hasErrors_promoteSince {mark : Nat}
    (h : (r.drop mark).any (·.severity == .warning) = true) :
    (r.promoteSince mark).hasErrors = true := by
  obtain ⟨e, he, -⟩ := List.any_eq_true.1 h
  refine List.any_eq_true.2 ⟨e.promote, ?_, rfl⟩
  exact List.mem_append_right _ (List.mem_map_of_mem he)

end Report

/-! ### Compilations -/

theorem RecordError.problem_ne_missingTerm (e : RecordError) : e.problem ≠ .missingTerm := by
  unfold problem
  split <;> decide

namespace Compilation

variable {c : Compilation}

theorem isOfRecords_declare {d : Compilation} {iri : Iri} {r : TermRecord}
    (h : c.report.IsOfRecords) (hd : c.declare iri r = .ok d) : d.report.IsOfRecords := by
  rcases report_declare hd with same | ⟨message, merged⟩
  · rwa [same]
  · rw [merged]
    exact h.warn nofun

theorem isOfRecords_declareTables (scope : IdentifierScope) (ts : List Table)
    (h : c.report.IsOfRecords) :
    (c.declareTables scope ts).1.report.IsOfRecords := by
  have kept : IsKept scope fun _ c => c.report.IsOfRecords := by
    refine ⟨id, fun h _ => h.warn (RecordError.problem_ne_missingTerm _), fun h _ accepted => ?_⟩
    rw [report_emitAll]
    exact isOfRecords_declare h accepted
  have ends : EndsWith scope _ ([] ++ ts.flatMap Table.records) (c.declareTables scope ts) :=
    kept.declareTables h ts
  exact ends.exists_done.elim fun _ => id

theorem isOfRecords_enterOutcomes (provenance : Provenance) (os : List (Except RecordError Axiom))
    (h : c.report.IsOfRecords) : (c.enterOutcomes provenance os).report.IsOfRecords := by
  refine List.foldlRecOn _ _ (motive := fun d : Compilation => d.report.IsOfRecords) ?_
    fun _ hd e _ => hd.warn e.problem_ne_missingTerm
  rwa [report_emitAll]

theorem isOfRecords_readCells (settings : Settings) (catalog : Catalog) (h : c.report.IsOfRecords) :
    (c.readCells settings catalog).report.IsOfRecords :=
  List.foldlRecOn _ _ (motive := fun d : Compilation => d.report.IsOfRecords) h
    fun _ hd _ _ => isOfRecords_enterOutcomes _ _ hd

theorem isOfRecords_ofTables {settings : Settings} {catalog : Catalog} {ts : List Table}
    (h : ofTables settings catalog ts = .ok c) : c.report.IsOfRecords := by
  have declared := isOfRecords_declareTables settings.scope ts
    (c := .start settings.ontologyIri settings.versionIri) Report.isOfRecords_nil
  obtain ⟨d, passed, rfl⟩ := ofTables_eq_ok.1 h
  rw [passed] at declared
  exact isOfRecords_readCells settings catalog declared

end Compilation

/-! ### Outcomes -/

theorem Outcome.foldl_warn {α : Type} (problem : Problem) (message : α → String)
    (provenance : α → Option Provenance) (xs : List α) (o : Outcome) :
    xs.foldl (fun o x => o.warn problem (message x) (provenance x)) o =
      { o with report := o.report ++
          xs.map fun x => ⟨.warning, problem, message x, provenance x⟩ } := by
  induction xs generalizing o with
  | nil => simp
  | cons x xs ih =>
    rw [List.foldl_cons, ih]
    simp [Outcome.warn, Report.warn, Report.add]

end TabularOntology
