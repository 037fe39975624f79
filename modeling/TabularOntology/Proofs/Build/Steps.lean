import TabularOntology.Proofs.Build.Stages

/-! What the stages of a build do where they lead on. Each of them adds its entries to the report
and its part to the outcome, and nothing that an earlier stage has left there changes. So an
outcome tells what each stage has found. -/

namespace TabularOntology

namespace Build

variable {b : Build} {o o' : Outcome} {settings : Settings} {catalog : Catalog} {c : Compilation}

/-- The warnings about the terms that no source has. -/
def missingReport (c : Compilation) (missing : Signature) : Report :=
  missing.toList.map fun x => ⟨.warning, .missingTerm, missingMessage x, c.firstReferences[x]?⟩

theorem endStage_eq_ok {strict : Bool} {mark : Nat} (h : o.endStage strict mark = .ok o') :
    o' = o := by
  unfold Outcome.endStage at h
  split at h
  · cases h
  · cases h
    rfl

theorem load_eq_ok (h : b.load o = .ok (o', settings, catalog)) :
    b.config.settings = .ok settings ∧ b.sources = .ok catalog ∧ o' = o.enter .loading := by
  unfold load at h
  dsimp only at h
  split at h
  · cases h
  · next hs =>
    split at h
    · cases h
    · next hc =>
      cases h
      exact ⟨hs, hc, rfl⟩

theorem compile_eq_ok (h : b.compile o settings catalog = .ok (o', c)) :
    Compilation.ofTables settings catalog b.tables = .ok c ∧
      o' = { o.enter .compiling with report := o.report ++ c.report } := by
  unfold compile at h
  dsimp only at h
  split at h
  · cases h
  · next declared hd =>
    obtain ⟨o, ended, h⟩ := bind_eq_ok.1 h
    cases h
    rw [Compilation.ofTables, hd]
    exact ⟨rfl, endStage_eq_ok ended⟩

theorem resolveImports_eq_ok {modules : Ontologies}
    (h : b.resolveImports o settings catalog c = .ok (o', modules)) :
    ∃ k, Import.close catalog (some settings.moduleBase) b.importTerms c.externalSignature = .ok k ∧
      modules = k.modules ∧ o' = { o.enter .importResolution with
        report := o.report ++ missingReport c k.missing } := by
  unfold resolveImports at h
  dsimp only at h
  split at h
  · cases h
  · next k hk =>
    obtain ⟨o, ended, h⟩ := bind_eq_ok.1 h
    cases h
    rw [Outcome.foldl_warn] at ended
    exact ⟨k, hk, rfl, endStage_eq_ok ended⟩

theorem reason_eq_ok {ontology : Ontology} {modules : Ontologies}
    (h : b.reason o ontology modules = .ok o') :
    ∃ v report, b.reasoner (union ontology modules) = .ok v ∧ v.consistent = true ∧
      o' = { o.enter .reasoning with
        checked := o.checked ++ [union ontology modules], verdict := some v, report } := by
  unfold reason at h
  dsimp only at h
  split at h
  · cases h
  · next v hv =>
    split at h
    · cases h
    next consistent =>
    have consistent : v.consistent = true := by simpa using consistent
    split at h
    · exact ⟨v, o.report, hv, consistent, endStage_eq_ok h⟩
    split at h
    · cases h
    · exact ⟨v, _, hv, consistent, endStage_eq_ok h⟩

theorem deliver_eq_none {ontology : Ontology} {modules : Ontologies} {formats : List OutputFormat}
    {deliveries : List Delivery} (h : b.deliver ontology modules formats = (deliveries, none)) :
    (∀ f ∈ formats, b.sink ⟨f, ontology, modules⟩ = none) ∧
      deliveries = formats.map fun f => ⟨⟨f, ontology, modules⟩, none⟩ := by
  induction formats generalizing deliveries with
  | nil =>
    cases h
    exact ⟨List.forall_mem_nil _, rfl⟩
  | cons f formats ih =>
    unfold deliver at h
    dsimp only at h
    split at h
    · cases h
    · next accepted =>
      obtain ⟨rfl, rest⟩ := Prod.mk.inj h
      obtain ⟨all, same⟩ := ih (Prod.ext rfl rest)
      exact ⟨List.forall_mem_cons.2 ⟨accepted, all⟩, congrArg _ same⟩

theorem write_eq_ok {ontology : Ontology} (h : b.write o ontology = .ok o') :
    (∀ f ∈ b.config.formats, b.sink ⟨f, ontology, o.modules⟩ = none) ∧
      o' = { o.enter .writing with
        ontology := some ontology
        deliveries := b.config.formats.map fun f => ⟨⟨f, ontology, o.modules⟩, none⟩ } := by
  unfold write at h
  dsimp only at h
  split at h
  · cases h
  · next complete =>
    cases h
    obtain ⟨accepted, all⟩ := deliver_eq_none (Prod.ext rfl complete)
    exact ⟨accepted, congrArg (fun deliveries =>
      { o.enter .writing with ontology := some ontology, deliveries }) all⟩

/-- What a build has been configured with, has compiled and has imported. -/
structure Gathers (b : Build) (settings : Settings) (catalog : Catalog) (c : Compilation)
    (k : Import.Closure) : Prop where
  configured : b.config.settings = .ok settings
  sources : b.sources = .ok catalog
  compiled : Compilation.ofTables settings catalog b.tables = .ok c
  closed : Import.close catalog (some settings.moduleBase) b.importTerms c.externalSignature = .ok k

/-- What a build that comes to reasoning has gathered. -/
def gathered (c : Compilation) (k : Import.Closure) : Outcome where
  stages := [.idle, .loading, .compiling, .importResolution]
  report := c.report ++ missingReport c k.missing

/-- What a build does from there on. -/
def conclude (b : Build) (c : Compilation) (k : Import.Closure) : Except Outcome Outcome := do
  let o ← b.reason (gathered c k) c.ontology k.modules
  b.write (b.merge o c.ontology k.modules).1 (b.merge o c.ontology k.modules).2

theorem not_mem_stages_of_hasFailed {n : Nat} (failed : o.HasFailed n) (hn : n ≤ 3) :
    .reasoning ∉ o.stages := by
  have early : ∀ n ≤ 3, .reasoning ∉ Stage.idle :: (Stage.order.take n ++ [.failed]) := by decide
  rw [failed.stages]
  exact early n hn

/-- A step before reasoning that a build has got over. -/
theorem exists_ok_of_leads {α β : Type} {n : Nat} {outcome : α → Outcome} {r : Except Outcome α}
    {f : α → Except Outcome β} (leads : Outcome.Leads n outcome r) (hn : n ≤ 3)
    (going : ∀ o, r >>= f = .error o → .reasoning ∈ o.stages) :
    ∃ a, r = .ok a ∧ (outcome a).IsUnderway n ∧ r >>= f = f a := by
  cases r with
  | ok a => exact ⟨a, rfl, leads.1 a rfl, rfl⟩
  | error o =>
    obtain ⟨m, hm, failed⟩ := leads.2 o rfl
    exact absurd (going o rfl) (not_mem_stages_of_hasFailed failed (Nat.le_trans hm hn))

/-- A build that comes to reasoning has gathered all that it needs, and goes on from there. -/
theorem exists_gathers (h : .reasoning ∈ b.run.stages) :
    ∃ settings catalog c k, b.Gathers settings catalog c k ∧ b.stages = b.conclude c k := by
  have going : ∀ o, b.stages = .error o → .reasoning ∈ o.stages := by
    intro o ended
    rwa [run, ended] at h
  unfold stages at going ⊢
  obtain ⟨⟨o₁, settings, catalog⟩, loading, underway, next⟩ :=
    exists_ok_of_leads (leads_load Outcome.isUnderway_start) (by decide) going
  rw [next] at going ⊢
  obtain ⟨⟨o₂, c⟩, compiling, underway, next⟩ :=
    exists_ok_of_leads (leads_compile underway) (by decide) going
  dsimp only at going ⊢
  rw [next] at going ⊢
  obtain ⟨⟨o₃, modules⟩, resolving, underway, next⟩ :=
    exists_ok_of_leads (leads_resolveImports underway) (by decide) going
  dsimp only
  rw [next]
  obtain ⟨configured, sources, rfl⟩ := load_eq_ok loading
  obtain ⟨compiled, rfl⟩ := compile_eq_ok compiling
  obtain ⟨k, closed, rfl, rfl⟩ := resolveImports_eq_ok resolving
  exact ⟨settings, catalog, c, k, ⟨configured, sources, compiled, closed⟩, rfl⟩

end Build

end TabularOntology
