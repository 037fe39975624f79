import TabularOntology.Proofs.Build.Stages

/-! What strictness changes. A strict build and a lenient one take the same steps, but that the
strict one ends at the first stage that warns. So a strict build is the lenient one where nothing
is warned of, and otherwise it is a beginning of it, with its warnings as errors. -/

namespace TabularOntology

open Report

namespace Outcome

/-- All that was met and entered stays, and more may come. -/
structure Extends (o o' : Outcome) : Prop where
  stages : o.stages <+: o'.stages
  report : o.report <+: o'.report

/-- The outcome of a strict build whose last stage has warned. -/
def promoted (o : Outcome) : Outcome :=
  { o with report := o.report.map Entry.promote }.enter .failed

/-- The outcome that a stage leads to or ends with. -/
def ending {α : Type} (outcome : α → Outcome) : Except Outcome α → Outcome
  | .ok a => outcome a
  | .error o => o

/-- How a strict build relates to the lenient one: both come to the same, or the strict one has
stopped at an outcome that the lenient one went on from. -/
inductive Sharpens {α : Type} (outcome : α → Outcome) :
    Except Outcome α → Except Outcome α → Prop
  | same {a : α} (clean : (outcome a).report = []) : Sharpens outcome (.ok a) (.ok a)
  | failed (o : Outcome) : Sharpens outcome (.error o) (.error o)
  | stopped {o : Outcome} {r : Except Outcome α} (warned : o.report ≠ [])
    (more : o.Extends (ending outcome r)) : Sharpens outcome (.error o.promoted) r

/-- A step of a strict build beside the same step of a lenient one. -/
structure Steps {α : Type} (outcome : α → Outcome) (o : Outcome)
    (strict lenient : Except Outcome α) : Prop where
  more : o.Extends (ending outcome lenient)
  sharpens : o.report = [] → Sharpens outcome strict lenient

section
variable {o o' o'' : Outcome} {α β : Type} {outcome : α → Outcome} {outcome' : β → Outcome}

theorem Extends.refl (o : Outcome) : o.Extends o := ⟨List.prefix_refl _, List.prefix_refl _⟩

theorem Extends.trans (h : o.Extends o') (h' : o'.Extends o'') : o.Extends o'' :=
  ⟨h.stages.trans h'.stages, h.report.trans h'.report⟩

theorem extends_enter (o : Outcome) (s : Stage) : o.Extends (o.enter s) :=
  ⟨List.prefix_append _ _, List.prefix_refl _⟩

theorem extends_fail (o : Outcome) (e : BuildError) : o.Extends (o.fail e) :=
  ⟨List.prefix_append _ _, List.prefix_append _ _⟩

theorem extends_warned (o : Outcome) (r : Report) :
    o.Extends { o with report := o.report ++ r } :=
  ⟨List.prefix_refl _, List.prefix_append _ _⟩

theorem extends_bind {r : Except Outcome α} {f : α → Except Outcome β}
    (hf : ∀ a, (outcome a).Extends (ending outcome' (f a))) :
    (ending outcome r).Extends (ending outcome' (r >>= f)) := by
  cases r with
  | ok a => exact hf a
  | error o => exact .refl o

theorem Steps.bind {r₁ r₂ : Except Outcome α} {f₁ f₂ : α → Except Outcome β}
    (h : Steps outcome o r₁ r₂) (hf : ∀ a, Steps outcome' (outcome a) (f₁ a) (f₂ a)) :
    Steps outcome' o (r₁ >>= f₁) (r₂ >>= f₂) where
  more := h.more.trans (extends_bind fun a => (hf a).more)
  sharpens clean := by
    -- Once the strict build has stopped, the lenient one can only add to what it was stopped at.
    cases h.sharpens clean with
    | same clean => exact (hf _).sharpens clean
    | failed o => exact .failed o
    | stopped warned more => exact .stopped warned (more.trans (extends_bind fun a => (hf a).more))

/-- A step that strictness has nothing to do with. -/
theorem steps_same {r : Except Outcome α} (more : o.Extends (ending outcome r))
    (clean : ∀ a, r = .ok a → o.report = [] → (outcome a).report = []) : Steps outcome o r r := by
  refine ⟨more, fun ho => ?_⟩
  cases r with
  | ok a => exact .same (clean a rfl ho)
  | error o => exact .failed o

theorem steps_error (more : o.Extends o') : Steps outcome o (.error o') (.error o') :=
  steps_same more nofun

/-- The end of a stage that did nothing but warn. -/
theorem steps_endStage {mark : Nat} (hmark : mark = o.report.length) (more : o.Extends o')
    (warnings : o.report = [] → o'.report.IsWarnings) :
    Steps id o (o'.endStage true mark) (o'.endStage false mark) := by
  refine ⟨more, fun clean => ?_⟩
  -- The stages before did not warn, so that the mark is at the beginning of the report.
  rw [clean, List.length_nil] at hmark
  subst hmark
  change Sharpens id _ (.ok o')
  unfold endStage
  rw [Bool.true_and, List.drop_zero]
  cases hr : o'.report with
  | nil => exact .same hr
  | cons e r =>
    have warned : e.severity = .warning := warnings clean e (hr ▸ List.mem_cons_self)
    rw [if_pos (by rw [List.any_cons, warned]; rfl)]
    have promotion : { o' with report := promoteSince (e :: r) 0 }.enter .failed = o'.promoted := by
      unfold promoted promoteSince
      rw [hr]
      rfl
    rw [promotion]
    exact .stopped (by rw [hr]; exact List.cons_ne_nil _ _) (.refl o')

end

end Outcome

namespace Build

open Outcome

/-- The build with the given strictness. -/
def withStrict (b : Build) (strict : Bool) : Build := { b with config := { b.config with strict } }

variable (b : Build) (o : Outcome) (settings : Settings) (catalog : Catalog)

theorem versionIri_strict (c : Config) (strict : Bool) (base : Iri.Parts) :
    { c with strict }.versionIri base = c.versionIri base := by
  unfold Config.versionIri Config.versionReference
  rfl

theorem settings_strict (c : Config) (strict : Bool) :
    { c with strict }.settings = c.settings := by
  unfold Config.settings
  simp only [versionIri_strict]

theorem load_withStrict (strict : Bool) : (b.withStrict strict).load o = b.load o := by
  unfold load sources withStrict
  dsimp only
  rw [settings_strict]

theorem steps_load : Steps (·.1) o ((b.withStrict true).load o) ((b.withStrict false).load o) := by
  rw [load_withStrict, load_withStrict]
  unfold load
  dsimp only
  split
  · exact steps_error ((extends_enter o _).trans (extends_fail _ _))
  · split
    · exact steps_error ((extends_enter o _).trans (extends_fail _ _))
    · refine steps_same (extends_enter o _) fun a ha clean => ?_
      cases ha
      exact clean

theorem steps_compile : Steps (·.1) o ((b.withStrict true).compile o settings catalog)
    ((b.withStrict false).compile o settings catalog) := by
  have declared := Compilation.isOfRecords_declareTables settings.scope b.tables
    (c := .start settings.ontologyIri settings.versionIri) Report.isOfRecords_nil
  unfold compile withStrict
  dsimp only
  have entered := extends_enter o .compiling
  split
  · exact steps_error ((entered.trans (extends_warned _ _)).trans (extends_fail _ _))
  · next c hd =>
    rw [hd] at declared
    have read := Compilation.isOfRecords_readCells settings catalog declared
    refine Steps.bind (steps_endStage rfl (entered.trans (extends_warned _ _)) fun clean => ?_)
      fun o' => steps_same (.refl _) fun a ha clean => ?_
    · change (o.report ++ _).IsWarnings
      rw [clean]
      exact read.isWarnings
    · cases ha
      exact clean

theorem steps_resolveImports (c : Compilation) :
    Steps (·.1) o ((b.withStrict true).resolveImports o settings catalog c)
      ((b.withStrict false).resolveImports o settings catalog c) := by
  unfold resolveImports withStrict
  dsimp only
  have entered := extends_enter o .importResolution
  split
  · exact steps_error (entered.trans (extends_fail _ _))
  · next closure _ =>
    rw [foldl_warn]
    refine Steps.bind (steps_endStage rfl (entered.trans (extends_warned _ _)) fun clean => ?_)
      fun o' => steps_same (.refl _) fun a ha clean => ?_
    · change (o.report ++ _).IsWarnings
      rw [clean]
      exact isWarnings_map _ (fun _ => rfl) _
    · cases ha
      exact clean

theorem steps_reason (ontology : Ontology) (modules : Ontologies) :
    Steps id o ((b.withStrict true).reason o ontology modules)
      ((b.withStrict false).reason o ontology modules) := by
  have asked (checked : List Ontology) (v : Option Reasoner.Verdict) : o.Extends
      { o.enter .reasoning with checked, verdict := v } :=
    ⟨List.prefix_append _ _, List.prefix_refl _⟩
  unfold reason withStrict
  dsimp only
  split
  · exact steps_error ((asked _ _).trans (extends_fail _ _))
  · next v _ =>
    split
    · exact steps_error ((asked _ (some v)).trans (extends_fail _ _))
    split
    · refine steps_endStage rfl (asked _ (some v)) fun clean => ?_
      change o.report.IsWarnings
      rw [clean]
      exact isWarnings_nil
    split
    · exact steps_error ((asked _ (some v)).trans (extends_fail _ _))
    · refine steps_endStage rfl ((asked _ (some v)).trans (extends_warned _ _)) fun clean => ?_
      change (o.report.warn _ _ _).IsWarnings
      rw [clean]
      exact isWarnings_nil.warn

theorem deliver_withStrict (strict : Bool) (ontology : Ontology) (modules : Ontologies)
    (formats : List OutputFormat) :
    (b.withStrict strict).deliver ontology modules formats = b.deliver ontology modules formats := by
  induction formats with
  | nil => rfl
  | cons format formats ih =>
    unfold deliver
    rw [ih]
    rfl

theorem write_withStrict (strict : Bool) (ontology : Ontology) :
    (b.withStrict strict).write o ontology = b.write o ontology := by
  unfold write
  dsimp only
  rw [deliver_withStrict]
  rfl

theorem steps_write (ontology : Ontology) (modules : Ontologies) :
    Steps id o ((b.withStrict true).write ((b.withStrict true).merge o ontology modules).1
        ((b.withStrict true).merge o ontology modules).2)
      ((b.withStrict false).write ((b.withStrict false).merge o ontology modules).1
        ((b.withStrict false).merge o ontology modules).2) := by
  rw [write_withStrict, write_withStrict]
  change Steps id o (b.write (b.merge o ontology modules).1 (b.merge o ontology modules).2)
    (b.write (b.merge o ontology modules).1 (b.merge o ontology modules).2)
  have written (deliveries : List Delivery) : o.Extends
      { (b.merge o ontology modules).1.enter .writing with
        ontology := some (b.merge o ontology modules).2, deliveries } :=
    ⟨(List.prefix_append _ _).trans (List.prefix_append _ _), List.prefix_refl _⟩
  unfold write
  dsimp only
  split
  · exact steps_error ((written _).trans (extends_fail _ _))
  · refine steps_same (written _) fun a ha clean => ?_
    cases ha
    exact clean

theorem steps_stages : Steps id {} (b.withStrict true).stages (b.withStrict false).stages := by
  unfold stages
  refine (steps_load b {}).bind fun (o, settings, catalog) => ?_
  refine (steps_compile b o settings catalog).bind fun (o, c) => ?_
  refine (steps_resolveImports b o settings catalog c).bind fun (o, modules) => ?_
  exact (steps_reason b o c.ontology modules).bind fun o => steps_write b o c.ontology modules

theorem stage_enter (o : Outcome) (s : Stage) : (o.enter s).stage = s := by
  simp [Outcome.stage, Outcome.enter]

/-- An outcome that is extended by what a stage leads to is extended by the whole run. -/
theorem extends_run {o : Outcome} (h : o.Extends (ending id b.stages)) : o.Extends b.run := by
  refine h.trans ?_
  unfold run
  cases b.stages with
  | ok o => exact extends_enter o .done
  | error o => exact .refl o

/-- A strict build is done just if the lenient one is done and reports nothing, and is then the
same; otherwise it fails after a beginning of the same stages and of the same report. -/
theorem strict_stops_earlier (b : Build) :
    ((b.withStrict true).run.stage = .done ↔
      (b.withStrict false).run.stage = .done ∧ (b.withStrict false).run.report = []) ∧
    ((b.withStrict true).run.stage = .done ∧ (b.withStrict true).run = (b.withStrict false).run ∨
      (b.withStrict true).run.stage = .failed ∧
      (∃ entered, (b.withStrict true).run.stages = entered ++ [.failed] ∧
        entered <+: (b.withStrict false).run.stages) ∧
      (b.withStrict true).run.report.map Entry.promote <+:
        (b.withStrict false).run.report.map Entry.promote) := by
  have sharpens := (steps_stages b).sharpens rfl
  have failure := (b.withStrict true).leads_stages.2
  have grows (o : Outcome) := extends_run (b.withStrict false) (o := o)
  unfold run at grows ⊢
  generalize (b.withStrict true).stages = strict at sharpens failure ⊢
  generalize (b.withStrict false).stages = lenient at sharpens grows ⊢
  cases sharpens with
  | @same o clean =>
    have done : (o.enter .done).stage = .done := stage_enter o .done
    exact ⟨iff_of_true done ⟨done, clean⟩, .inl ⟨done, rfl⟩⟩
  | failed o =>
    obtain ⟨n, -, ended⟩ := failure o rfl
    have hstage : o.stage = .failed := ended.stage_eq
    have undone : o.stage ≠ .done := by rw [hstage]; decide
    have stages : (.idle :: Stage.order.take n) ++ [.failed] = o.stages := ended.stages.symm
    exact ⟨iff_of_false undone fun h => undone h.1,
      .inr ⟨hstage, ⟨_, stages.symm, [.failed], stages⟩, List.prefix_refl _⟩⟩
  | @stopped o _ warned more =>
    have hstage : o.promoted.stage = .failed := stage_enter _ .failed
    have undone : o.promoted.stage ≠ .done := by rw [hstage]; decide
    have lasting := grows o more
    refine ⟨iff_of_false undone fun h => warned ?_, .inr ⟨hstage, ⟨o.stages, rfl, lasting.stages⟩, ?_⟩⟩
    · exact List.prefix_nil.1 (h.2 ▸ lasting.report)
    · have twice : o.promoted.report.map Entry.promote = o.report.map Entry.promote := by
        simp [promoted, Outcome.enter, Entry.promote]
      rw [twice]
      exact lasting.report.map Entry.promote

/-- A build without tables whose reasoner finds a class that can have no members. -/
def unsatisfiable : Build where
  config := { baseIri := "http://example.org/" }
  catalog := (∅ : Ontologies)
  reasoner _ := .ok { consistent := true, unsatisfiable := (∅ : Signature).insert ⟨"urn:a"⟩ }
  sink _ := none
  tables := []

theorem strict_stops_earlier_unsatisfiable :
    (unsatisfiable.withStrict false).run.stage = .done ∧
      (unsatisfiable.withStrict false).run.report ≠ [] ∧
      (unsatisfiable.withStrict true).run.stage = .failed ∧
      ∃ entered, (unsatisfiable.withStrict true).run.stages = entered ++ [.failed] ∧
        entered <+: (unsatisfiable.withStrict false).run.stages := by
  have lenient : (unsatisfiable.withStrict false).run.stage = .done ∧
      (unsatisfiable.withStrict false).run.report ≠ [] := by
    decide +kernel
  obtain ⟨done, ⟨hdone, -⟩ | ⟨failed, stages, -⟩⟩ := strict_stops_earlier unsatisfiable
  · exact absurd (done.1 hdone).2 lenient.2
  · exact ⟨lenient.1, lenient.2, failed, stages⟩

end Build

end TabularOntology
