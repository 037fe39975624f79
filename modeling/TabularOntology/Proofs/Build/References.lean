import TabularOntology.Proofs.Build.Steps
import TabularOntology.Proofs.Build.Strict
import TabularOntology.Proofs.Closure.Terms
import TabularOntology.Proofs.Compilation.Emissions

/-! No dangling reference goes unnoticed. A symbol of the compiled ontology that is not built in,
not declared and not in a source is a missing term, and so the build warns of it, at the record
that was the first to mention it. In a lenient build nothing takes the warning back, and nothing
else in its report is about missing terms. -/

namespace TabularOntology

/-- The report warns of a missing term, at the given record and nowhere else. -/
structure Report.WarnsOf (r : Report) (x : Iri) (p : Provenance) : Prop where
  mem : ⟨.warning, .missingTerm, Build.missingMessage x, some p⟩ ∈ r
  only : ∀ e ∈ r, e.problem = .missingTerm → e.message = Build.missingMessage x →
    e.severity = .warning ∧ e.provenance = some p

namespace Outcome

/-- Nothing more is said about missing terms. -/
def Follows (o o' : Outcome) : Prop :=
  ∃ rest : Report, o'.report = o.report ++ rest ∧ ∀ e ∈ rest, e.problem ≠ .missingTerm

variable {o o' o'' : Outcome}

theorem Follows.refl (o : Outcome) : o.Follows o := ⟨[], by simp⟩

theorem Follows.trans (h : o.Follows o') (h' : o'.Follows o'') : o.Follows o'' := by
  obtain ⟨r, report, silent⟩ := h
  obtain ⟨r', report', silent'⟩ := h'
  refine ⟨r ++ r', ?_, List.forall_mem_append.2 ⟨silent, silent'⟩⟩
  rw [report', report, List.append_assoc]

theorem follows_fail (o : Outcome) (e : BuildError) : o.Follows (o.fail e) := by
  refine ⟨_, rfl, List.forall_mem_singleton.2 ?_⟩
  cases e with
  | reasoner failure => cases failure <;> exact nofun
  | _ => exact nofun

end Outcome

namespace Build

open Outcome

variable {b : Build} {o : Outcome} {c : Compilation} {x y : Iri} {settings : Settings}
variable {catalog : Catalog}

theorem follows_reason (lenient : b.config.strict = false) (o : Outcome) (ontology : Ontology)
    (modules : Ontologies) : o.Follows (ending id (b.reason o ontology modules)) := by
  unfold reason endStage
  rw [lenient]
  dsimp only
  split
  · exact follows_fail { o.enter .reasoning with checked := _ } _
  · next v _ =>
    split
    · exact follows_fail { o.enter .reasoning with checked := _, verdict := some v } _
    split
    · exact .refl o
    split
    · exact follows_fail { o.enter .reasoning with checked := _, verdict := some v } _
    · exact ⟨_, rfl, List.forall_mem_singleton.2 nofun⟩

theorem follows_write (b : Build) (o : Outcome) (ontology : Ontology) :
    o.Follows (ending id (b.write o ontology)) := by
  unfold write
  dsimp only
  split
  · exact follows_fail { o.enter .writing with ontology := some ontology, deliveries := _ } _
  · exact .refl o

theorem report_run (b : Build) : b.run.report = (ending id b.stages).report := by
  unfold run
  cases b.stages <;> rfl

theorem missingMessage_inj : missingMessage x = missingMessage y ↔ x = y := by
  rw [missingMessage, missingMessage, String.append_left_inj, Iri.bracketed_inj]

theorem follows_conclude (lenient : b.config.strict = false) (c : Compilation)
    (k : Import.Closure) : (gathered c k).Follows (ending id (b.conclude c k)) := by
  have reasoned := follows_reason lenient (gathered c k) c.ontology k.modules
  unfold conclude
  cases hr : b.reason (gathered c k) c.ontology k.modules with
  | error o =>
    rw [hr] at reasoned
    exact reasoned
  | ok o =>
    rw [hr] at reasoned
    have written : o.Follows _ := b.follows_write (b.merge o c.ontology k.modules).1
      (b.merge o c.ontology k.modules).2
    exact reasoned.trans written

/-- A symbol that the compiled ontology needs and no source has is missing. -/
theorem mem_missing_of_external {k : Import.Closure} (h : b.Gathers settings catalog c k)
    (hx : x ∈ c.externalSignature)
    (unmentioned : ∀ (name : String) (o : Ontology), catalog[name]? = some o → x ∉ o.signature) :
    x ∈ k.missing := by
  rw [Import.missing_of_close h.closed, Import.Request.mem_missing]
  refine .inl ⟨hx, List.any_eq_false.2 fun o ho => ?_⟩
  obtain ⟨name, ho⟩ := Ontologies.mem_all.1 ho
  rw [Std.TreeSet.contains_iff_mem]
  exact unmentioned name o ho

/-- A build that goes on from what it has gathered warns of what is missing where it was noted. -/
theorem warnsOf_of_mem_missing {k : Import.Closure} {p : Provenance}
    (h : b.Gathers settings catalog c k) (follows : (gathered c k).Follows o)
    (hx : x ∈ k.missing) (noted : c.firstReferences[x]? = some p) : o.report.WarnsOf x p := by
  obtain ⟨rest, report, silent⟩ := follows
  rw [report]
  constructor
  · refine List.mem_append_left _ (List.mem_append_right _ (List.mem_map.2 ⟨x, ?_, ?_⟩))
    · exact Std.TreeSet.mem_toList.2 hx
    · rw [noted]
  · intro e he problem message
    rcases List.mem_append.1 he with he | he
    · rcases List.mem_append.1 he with he | he
      · exact absurd problem (Compilation.isOfRecords_ofTables h.compiled e he).2
      · obtain ⟨y, _, rfl⟩ := List.mem_map.1 he
        obtain rfl := missingMessage_inj.1 message
        exact ⟨rfl, noted⟩
    · exact absurd problem (silent e he)

/-- In a lenient build that comes to reasoning, what the compiled ontology mentions is built in,
or declared in it, or in a source that is used, or it is warned of at the record that is the
first to emit an axiom that mentions it. -/
theorem no_dangling_reference (b : Build) (lenient : b.config.strict = false)
    (reached : .reasoning ∈ b.run.stages) :
    ∃ settings catalog c k, b.Gathers settings catalog c k ∧
      c.Emits settings catalog b.tables ∧ ∀ x ∈ c.ontology.signature,
        Vocabulary.isBuiltin x = true ∨ c.ontology.declares x = true ∨
        (∃ (name : String) (o : Ontology), catalog[name]? = some o ∧ x ∈ o.signature) ∨
        ∃ p, (c.emissions settings catalog b.tables).first? x = some p ∧
          b.run.report.WarnsOf x p := by
  obtain ⟨settings, catalog, c, k, gathers, next⟩ := exists_gathers reached
  have emits := Compilation.emits_of_ofTables gathers.compiled
  have isRead := Config.isRead_settings gathers.configured
  refine ⟨settings, catalog, c, k, gathers, emits, fun x hx => ?_⟩
  by_cases builtin : Vocabulary.isBuiltin x = true
  · exact .inl builtin
  by_cases declared : c.ontology.declares x = true
  · exact .inr (.inl declared)
  by_cases mentioned : ∃ (name : String) (o : Ontology), catalog[name]? = some o ∧ x ∈ o.signature
  · exact .inr (.inr (.inl mentioned))
  have unknown : x ∉ c.terms := fun known =>
    declared (Compilation.declares_of_mem_terms gathers.compiled isRead known)
  have external : x ∈ c.externalSignature := Compilation.mem_externalSignature.2
    ⟨hx, Bool.eq_false_iff.2 fun known => unknown (Std.TreeMap.contains_iff_mem.1 known),
      Bool.eq_false_iff.2 declared, Bool.eq_false_iff.2 builtin⟩
  have follows : (gathered c k).Follows b.run := by
    obtain ⟨rest, report, silent⟩ := follows_conclude lenient c k
    rw [← next, ← report_run] at report
    exact ⟨rest, report, silent⟩
  have missing := mem_missing_of_external gathers external fun name o ho hxo =>
    mentioned ⟨name, o, ho, hxo⟩
  obtain ⟨p, first⟩ := emits.exists_first? hx
  have noted : c.firstReferences[x]? = some p := (emits.refers x unknown).trans first
  exact .inr (.inr (.inr ⟨p, first, warnsOf_of_mem_missing gathers follows missing noted⟩))

/-- A class below a term that no source has, stated by two records. -/
def dangling : Build where
  config := { baseIri := "http://example.org/" }
  catalog := (∅ : Ontologies)
  reasoner _ := .ok { consistent := true }
  sink _ := none
  tables := [⟨"t.csv", [2, 3].map fun row => TermRecord.setCell
    { id := "<urn:a>", kind := .cls, provenance := ⟨"t.csv", row⟩ } .parent "<urn:m>"⟩]

theorem no_dangling_reference_repeated : dangling.config.strict = false ∧
    .reasoning ∈ dangling.run.stages ∧ dangling.run.report.WarnsOf ⟨"urn:m"⟩ ⟨"t.csv", 2⟩ := by
  let m : Iri := ⟨"urn:m"⟩
  have reached : .reasoning ∈ dangling.run.stages := by decide +kernel
  have facts : (dangling.config.settings.toOption.bind fun settings =>
      (Compilation.ofTables settings ∅ dangling.tables).toOption.map fun c =>
        (c.ontology.signature.contains m, c.ontology.declares m, c.terms.contains m,
          c.firstReferences[m]?)) = some (true, false, false, some ⟨"t.csv", 2⟩) := by
    decide +kernel
  obtain ⟨settings, catalog, c, k, gathers, emits, noticed⟩ :=
    no_dangling_reference dangling rfl reached
  obtain rfl : (∅ : Ontologies) = catalog := Except.ok.inj gathers.sources
  rw [gathers.configured] at facts
  simp only [Except.toOption, Option.bind_some, gathers.compiled, Option.map_some,
    Option.some.injEq, Prod.mk.injEq] at facts
  obtain ⟨mentioned, undeclared, unknown, noted⟩ := facts
  obtain builtin | declared | ⟨name, o, stored, -⟩ | ⟨p, first, warns⟩ :=
    noticed m (Std.TreeSet.contains_iff_mem.1 mentioned)
  · exact absurd builtin (by decide)
  · rw [undeclared] at declared
    cases declared
  · simp at stored
  · have same := (emits.refers m fun known => by
      rw [Std.TreeMap.contains_iff_mem.2 known] at unknown
      cases unknown).trans first
    obtain rfl := Option.some.inj (noted.symm.trans same)
    exact ⟨rfl, reached, warns⟩

end Build

end TabularOntology
