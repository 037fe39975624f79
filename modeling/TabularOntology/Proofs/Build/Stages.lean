import TabularOntology.Proofs.Build.Warnings
import TabularOntology.Proofs.Outcome

/-! The course of a build. Its stages are entered in a fixed order; each of them either leads to
the next one or ends the build, and what an outcome holds is determined by how far it came.
Each stage is one step of this kind, so that a whole run is their sequence. The formats of a
build are distinct, so that a sink whose answers depend on the number of the call is a function
of the output as well. -/

namespace TabularOntology

/-- The stages of a build in their order. -/
def Stage.order : List Stage :=
  [.loading, .compiling, .importResolution, .reasoning, .merging, .writing]

namespace Outcome

/-- What an outcome holds if the first `n` stages have been entered. -/
structure Holds (n : Nat) (o : Outcome) : Prop where
  verdict : o.verdict.isSome → 4 ≤ n
  ontology : o.ontology.isSome ↔ 6 ≤ n
  modules : o.modules.isEmpty = false → 6 ≤ n
  deliveries : o.deliveries ≠ [] → 6 ≤ n

/-- The first `n` stages have been entered, and nothing worse than a warning was met. -/
structure IsUnderway (n : Nat) (o : Outcome) : Prop extends o.Holds n where
  stages : o.stages = .idle :: Stage.order.take n
  report : o.report.IsWarnings

/-- The build has ended with an error after the first `n` stages were entered. -/
structure HasFailed (n : Nat) (o : Outcome) : Prop extends o.Holds n where
  started : 0 < n
  stages : o.stages = .idle :: (Stage.order.take n ++ [.failed])
  report : o.report.hasErrors = true

/-- A stage that leads to outcomes with `n` stages entered, or ends the build before that. -/
def Leads {α : Type} (n : Nat) (outcome : α → Outcome) (r : Except Outcome α) : Prop :=
  (∀ a, r = .ok a → (outcome a).IsUnderway n) ∧ ∀ o, r = .error o → ∃ m ≤ n, o.HasFailed m

section
variable {n m : Nat} {o : Outcome} {α β : Type} {outcome : α → Outcome} {outcome' : β → Outcome}

theorem leads_ok {a : α} (h : (outcome a).IsUnderway n) : Leads n outcome (.ok a) := by
  refine ⟨fun _ e => ?_, fun _ e => ?_⟩
  · cases e
    exact h
  · cases e

theorem leads_error (h : o.HasFailed n) : Leads n outcome (.error o) := by
  refine ⟨fun _ e => ?_, fun _ e => ?_⟩
  · cases e
  · cases e
    exact ⟨n, Nat.le_refl n, h⟩

theorem Leads.later {r : Except Outcome α} (hr : Leads n outcome r) (error : r = .error o)
    (hn : n ≤ m) : Leads m outcome' (.error o) := by
  obtain ⟨k, hk, ended⟩ := hr.2 o error
  refine ⟨fun _ e => ?_, fun _ e => ?_⟩
  · cases e
  · cases e
    exact ⟨k, Nat.le_trans hk hn, ended⟩

theorem Leads.bind {r : Except Outcome α} {f : α → Except Outcome β} (hr : Leads n outcome r)
    (hn : n ≤ m) (hf : ∀ a, (outcome a).IsUnderway n → Leads m outcome' (f a)) :
    Leads m outcome' (r >>= f) := by
  cases r with
  | ok a => exact hf a (hr.1 a rfl)
  | error o => exact hr.later rfl hn

theorem stage_eq_of_stages {entered : List Stage} {s : Stage}
    (h : o.stages = .idle :: (entered ++ [s])) : o.stage = s := by
  rw [Outcome.stage, h, ← List.cons_append, List.getLast?_concat]
  rfl

theorem isUnderway_start : ({} : Outcome).IsUnderway 0 where
  verdict := nofun
  ontology := by simp
  modules := by
    intro h
    cases h
  deliveries := fun h => absurd rfl h
  stages := rfl
  report := Report.isWarnings_nil

/-- The next stage is entered, but for the last one, which also yields the release. -/
theorem IsUnderway.enter (h : o.IsUnderway n) (hn : n < 5) (s : Stage)
    (next : Stage.order[n]? = some s) : (o.enter s).IsUnderway (n + 1) where
  verdict hv := Nat.le_succ_of_le (h.verdict hv)
  ontology := by
    change o.ontology.isSome = true ↔ _
    rw [h.ontology]
    omega
  modules hm := Nat.le_succ_of_le (h.modules hm)
  deliveries hd := Nat.le_succ_of_le (h.deliveries hd)
  stages := by
    rw [Outcome.enter, h.stages, List.take_add_one, next]
    rfl
  report := h.report

theorem IsUnderway.fail (h : o.IsUnderway n) (started : 0 < n) (e : BuildError) :
    (o.fail e).HasFailed n where
  verdict := h.verdict
  ontology := h.ontology
  modules := h.modules
  deliveries := h.deliveries
  started := started
  stages := by
    rw [Outcome.fail, Outcome.enter, h.stages]
    rfl
  report := Report.hasErrors_add_error

theorem HasFailed.stage_eq (h : o.HasFailed n) : o.stage = .failed :=
  stage_eq_of_stages h.stages

theorem IsUnderway.warned {report : Report} (h : o.IsUnderway n) (hr : report.IsWarnings) :
    { o with report := o.report ++ report }.IsUnderway n :=
  { h with report := h.report.append hr }

theorem IsUnderway.endStage (h : o.IsUnderway n) (started : 0 < n) (strict : Bool) (mark : Nat) :
    Leads n id (o.endStage strict mark) := by
  unfold Outcome.endStage
  split
  · next promoted =>
    rw [Bool.and_eq_true] at promoted
    refine leads_error (n := n) { h with started, stages := ?_, report := ?_ }
    · rw [Outcome.enter, h.stages]
      rfl
    · exact Report.hasErrors_promoteSince promoted.2
  · exact leads_ok h

end

end Outcome

namespace Build

open Outcome

variable {b : Build} {o : Outcome} {settings : Settings} {catalog : Catalog} {c : Compilation}

theorem leads_load (h : o.IsUnderway 0) : Leads 1 (·.1) (b.load o) := by
  have entered := h.enter (by decide) .loading rfl
  unfold load
  dsimp only
  split
  · exact leads_error (entered.fail (by decide) _)
  · split
    · exact leads_error (entered.fail (by decide) _)
    · exact leads_ok entered

theorem leads_compile (h : o.IsUnderway 1) : Leads 2 (·.1) (b.compile o settings catalog) := by
  have entered := h.enter (by decide) .compiling rfl
  have declared := Compilation.isOfRecords_declareTables settings.scope b.tables
    (c := .start settings.ontologyIri settings.versionIri) Report.isOfRecords_nil
  unfold compile
  dsimp only
  split
  · next hd =>
    rw [hd] at declared
    exact leads_error ((entered.warned declared.isWarnings).fail (by decide) _)
  · next hd =>
    rw [hd] at declared
    have read := Compilation.isOfRecords_readCells settings catalog declared
    refine ((entered.warned read.isWarnings).endStage (by decide) _ _).bind (Nat.le_refl 2) fun o ho => ?_
    exact leads_ok (a := (o, _)) ho

theorem leads_resolveImports (h : o.IsUnderway 2) :
    Leads 3 (·.1) (b.resolveImports o settings catalog c) := by
  have entered := h.enter (by decide) .importResolution rfl
  unfold resolveImports
  dsimp only
  split
  · exact leads_error (entered.fail (by decide) _)
  · next closure _ =>
    rw [foldl_warn]
    have missing := entered.warned
      (Report.isWarnings_map (fun iri => ⟨.warning, .missingTerm, missingMessage iri,
        c.firstReferences[iri]?⟩) (fun _ => rfl) closure.missing.toList)
    refine (missing.endStage (by decide) _ _).bind (Nat.le_refl 3) fun o ho => ?_
    exact leads_ok (a := (o, _)) ho

theorem leads_reason {ontology : Ontology} {modules : Ontologies} (h : o.IsUnderway 3) :
    Leads 4 id (b.reason o ontology modules) := by
  have entered := h.enter (by decide) .reasoning rfl
  have asked (v : Option Reasoner.Verdict) : IsUnderway 4
      { o.enter .reasoning with
        checked := (o.enter .reasoning).checked ++ [union ontology modules], verdict := v } :=
    { entered with verdict := fun _ => Nat.le_refl 4 }
  unfold reason
  dsimp only
  split
  · exact leads_error ((asked _).fail (by decide) _)
  · next v _ =>
    split
    · exact leads_error ((asked (some v)).fail (by decide) _)
    split
    · exact (asked (some v)).endStage (by decide) _ _
    split
    · exact leads_error ((asked (some v)).fail (by decide) _)
    · exact ((asked (some v)).warned (List.forall_mem_singleton.2 rfl)).endStage (by decide) _ _

/-- The release is put together and written in one step. -/
theorem leads_write {ontology : Ontology} {modules : Ontologies} (h : o.IsUnderway 4) :
    Leads 6 id (b.write (b.merge o ontology modules).1 (b.merge o ontology modules).2) := by
  have written (deliveries : List Delivery) : IsUnderway 6
      { (b.merge o ontology modules).1.enter .writing with
        ontology := some (b.merge o ontology modules).2, deliveries } := by
    refine ⟨⟨fun _ => by decide, by simp, fun _ => Nat.le_refl 6, fun _ => Nat.le_refl 6⟩, ?_,
      h.report⟩
    change (o.stages ++ [.merging]) ++ [.writing] = _
    rw [h.stages]
    rfl
  unfold write
  dsimp only
  split
  · exact leads_error ((written _).fail (by decide) _)
  · exact leads_ok (written _)

theorem leads_stages (b : Build) : Leads 6 id b.stages := by
  unfold stages
  refine (leads_load isUnderway_start).bind (by decide) fun (o, settings, catalog) loaded => ?_
  refine (leads_compile loaded).bind (by decide) fun (o, c) compiled => ?_
  refine (leads_resolveImports compiled).bind (by decide) fun (o, modules) resolved => ?_
  exact (leads_reason resolved).bind (by decide) fun o reasoned => leads_write reasoned

/-- A run ends with all stages behind it, or with an error after some of them. -/
theorem run_ends (b : Build) :
    (∃ o, b.stages = .ok o ∧ b.run = o.enter .done ∧ o.IsUnderway 6) ∨
      b.stages = .error b.run ∧ ∃ n ≤ 6, b.run.HasFailed n := by
  have leads := b.leads_stages
  unfold run
  cases h : b.stages with
  | ok o => exact .inl ⟨o, rfl, rfl, leads.1 o h⟩
  | error o => exact .inr ⟨rfl, leads.2 o h⟩

theorem mem_take_order (n : Nat) : (4 ≤ n → .reasoning ∈ Stage.order.take n) ∧
    (6 ≤ n ↔ .writing ∈ Stage.order.take n) := by
  rcases Nat.lt_or_ge n 6 with few | all
  · revert n
    decide
  · rw [List.take_of_length_le all]
    exact ⟨fun _ => by decide, iff_of_true all (by decide)⟩

/-! ### The sink -/

theorem nodup_formats (c : Config) : c.formats.Nodup := by
  have all : OutputFormat.all.Nodup := by decide
  exact all.filter _

/-- Whatever a sink is to answer to each of its calls, there is a sink that does. -/
theorem exists_sink (c : Config) (answers : Nat → Option String) :
    ∃ sink : Sink, ∀ i (h : i < c.formats.length) ontology modules,
      sink ⟨c.formats[i], ontology, modules⟩ = answers i := by
  refine ⟨fun output => answers (c.formats.idxOf output.format), fun i h _ _ => ?_⟩
  exact congrArg answers ((nodup_formats c).idxOf_getElem i h)

/-- All that a build does before it writes. -/
def prepare (b : Build) : Except Outcome (Outcome × Ontology) := do
  let (o, settings, catalog) ← b.load {}
  let (o, c) ← b.compile o settings catalog
  let (o, modules) ← b.resolveImports o settings catalog c
  let o ← b.reason o c.ontology modules
  .ok (b.merge o c.ontology modules)

theorem stages_eq_prepare (b : Build) : b.stages = b.prepare >>= fun r => b.write r.1 r.2 := by
  unfold stages prepare
  cases b.load {} with
  | error o => rfl
  | ok r =>
    obtain ⟨o, settings, catalog⟩ := r
    simp only [ok_bind]
    cases b.compile o settings catalog with
    | error o => rfl
    | ok r =>
      obtain ⟨o, c⟩ := r
      simp only [ok_bind]
      cases b.resolveImports o settings catalog c with
      | error o => rfl
      | ok r =>
        obtain ⟨o, modules⟩ := r
        simp only [ok_bind]
        cases b.reason o c.ontology modules <;> rfl

theorem run_eq_of_prepare_error (h : b.prepare = .error o) : b.run = o := by
  unfold run
  rw [stages_eq_prepare, h]
  rfl

theorem mem_stages_of_prepare_ok {r : Outcome × Ontology} (h : b.prepare = .ok r) :
    .writing ∈ b.run.stages := by
  unfold run
  rw [stages_eq_prepare, h, ok_bind]
  unfold write
  dsimp only
  split
  · next hw =>
    split at hw
    · cases hw
    · cases hw
      simp [Outcome.enter]
  · next hw =>
    split at hw
    · cases hw
      simp [Outcome.enter, Outcome.fail]
    · cases hw

theorem prepare_sink (b : Build) (sink : Sink) : { b with sink }.prepare = b.prepare := by
  unfold prepare load sources compile resolveImports reason merge release
  rfl

/-- A build that does not come to writing is the same for every sink. -/
theorem run_eq_of_not_writing (h : .writing ∉ b.run.stages) (sink : Sink) :
    { b with sink }.run = b.run := by
  cases prepared : b.prepare with
  | ok r => exact absurd (mem_stages_of_prepare_ok prepared) h
  | error o =>
    rw [run_eq_of_prepare_error prepared]
    exact run_eq_of_prepare_error ((prepare_sink b sink).trans prepared)

/-- However a build goes, its stages are entered in their order, it fails just if it reports an
error, and it hands over no more than the stages it entered have brought about. -/
theorem run_course (b : Build) : ∃ entered, entered ≠ [] ∧ entered <+: Stage.order ∧
    (b.run.stages = .idle :: (entered ++ [.done]) ∧ entered = Stage.order ∨
      b.run.stages = .idle :: (entered ++ [.failed])) ∧
    (b.run.stage = .failed ↔ b.run.report.hasErrors = true) ∧
    (b.run.verdict.isSome → .reasoning ∈ entered) ∧
    (b.run.ontology.isSome ↔ .writing ∈ entered) ∧
    (b.run.modules.isEmpty = false → .writing ∈ entered) ∧
    (b.run.deliveries ≠ [] → .writing ∈ entered) ∧
    (.writing ∉ entered → ∀ sink, { b with sink }.run = b.run) := by
  obtain ⟨o, -, hrun, h⟩ | ⟨-, n, -, h⟩ := b.run_ends
  · have stages : b.run.stages = .idle :: (Stage.order ++ [.done]) := by
      rw [hrun, Outcome.enter, h.stages]
      rfl
    have clean : b.run.report.hasErrors = false := by
      rw [hrun]
      exact h.report.hasErrors
    refine ⟨Stage.order, by decide, List.prefix_refl _, .inl ⟨stages, rfl⟩, ?_, fun _ => by decide,
      ?_, fun _ => by decide, fun _ => by decide, fun h => absurd (by decide) h⟩
    · rw [stage_eq_of_stages stages, clean]
      decide
    · rw [hrun]
      exact iff_of_true (h.ontology.2 (Nat.le_refl 6)) (by decide)
  · obtain ⟨reasoning, writing⟩ := mem_take_order n
    refine ⟨Stage.order.take n, ?_, List.take_prefix _ _, .inr h.stages, iff_of_true h.stage_eq h.report,
      fun hv => reasoning (h.verdict hv), h.ontology.trans writing,
      fun hm => writing.1 (h.modules hm), fun hd => writing.1 (h.deliveries hd),
      fun hw => run_eq_of_not_writing ?_⟩
    · rw [ne_eq, List.take_eq_nil_iff, not_or]
      exact ⟨Nat.ne_of_gt h.started, by decide⟩
    · rw [h.stages]
      simpa using hw

/-- A build whose sink takes the first format and refuses the second one. -/
def refused : Build where
  config := { baseIri := "http://example.org/", outputFormats := [.rdfXml, .turtle] }
  catalog := (∅ : Ontologies)
  reasoner _ := .ok { consistent := true }
  sink output := if output.format = .turtle then some "disk full" else none
  tables := []

theorem run_course_refused : refused.run.stage = .failed ∧ refused.run.deliveries.length = 2 ∧
    ∃ entered, refused.run.stages = .idle :: (entered ++ [.failed]) ∧ .writing ∈ entered := by
  have ended : refused.run.stage = .failed ∧ refused.run.deliveries.length = 2 := by
    decide +kernel
  obtain ⟨entered, -, -, stages, -, -, -, -, called, -⟩ := run_course refused
  have handed : refused.run.deliveries ≠ [] := by
    intro h
    cases h ▸ ended.2
  refine ⟨ended.1, ended.2, entered, stages.resolve_left ?_, called handed⟩
  rintro ⟨done, -⟩
  cases ended.1.symm.trans (stage_eq_of_stages done)

end Build

end TabularOntology
