import TabularOntology.Build.Outcome
import TabularOntology.Compilation.Tables
import TabularOntology.Import.Closure

/-! Builds. The stages follow each other in a fixed order: options are checked, tables are
compiled, imports are resolved, the ontology is checked together with its import modules,
the release is put together, and it is handed to the sink once for each format. Each
stage gives the outcome so far to the next one, or ends the build with the final outcome
in the place of an error. -/

namespace TabularOntology

/-- What decides about an ontology. -/
abbrev ReasonerBackend := Ontology → Except Reasoner.Failure Reasoner.Verdict

/-- What takes outputs; it may refuse one. -/
abbrev Sink := Output → Option String

/-- Everything that a build depends on. -/
structure Build where
  config : Config
  catalog : Catalog
  reasoner : ReasonerBackend
  sink : Sink
  tables : List Table
  importTerms : Import.ImportTerms := ∅

namespace Build

/-- The sources that are used. -/
def sources (b : Build) : Except ConfigError Catalog :=
  match b.config.importCatalog.map (·.1) with
  | [] => .ok b.catalog
  | names => (b.catalog.restrict names).mapError .unknownSource

/-- Checks the options. -/
def load (b : Build) (o : Outcome) : Except Outcome (Outcome × Settings × Catalog) :=
  let o := o.enter .loading
  match b.config.settings with
  | .error e => .error (o.fail (.configuration e))
  | .ok settings =>
    match b.sources with
    | .error e => .error (o.fail (.configuration e))
    | .ok catalog => .ok (o, settings, catalog)

/-- Compiles the tables. -/
def compile (b : Build) (o : Outcome) (settings : Settings) (catalog : Catalog) :
    Except Outcome (Outcome × Compilation) := do
  let o := o.enter .compiling
  let mark := o.report.length
  let start := Compilation.start settings.ontologyIri settings.versionIri
  match start.declareTables settings.scope b.tables with
  | (c, some conflict) =>
    .error ({ o with report := o.report ++ c.report }.fail (.conflict conflict))
  | (c, none) =>
    let c := c.readCells settings catalog
    let o ← { o with report := o.report ++ c.report }.endStage b.config.strict mark
    .ok (o, c)

/-- The warning about a term that no source has. -/
def missingMessage (iri : Iri) : String := iri.bracketed ++ " is not defined by any source ontology"

/-- Resolves the imports that the compiled ontology needs. -/
def resolveImports (b : Build) (o : Outcome) (settings : Settings) (catalog : Catalog)
    (c : Compilation) : Except Outcome (Outcome × Ontologies) := do
  let o := o.enter .importResolution
  let mark := o.report.length
  match Import.close catalog (some settings.moduleBase) b.importTerms c.externalSignature with
  | .error e => .error (o.fail (.configuration e))
  | .ok closure =>
    let warned := closure.missing.toList.foldl
      (fun o iri => o.warn .missingTerm (missingMessage iri) c.firstReferences[iri]?) o
    let o ← warned.endStage b.config.strict mark
    .ok (o, closure.modules)

/-- The compiled ontology together with all import modules. -/
def union (ontology : Ontology) (modules : Ontologies) : Ontology :=
  modules.all.foldl Ontology.merge ontology

/-- Has the ontology checked together with its import modules. -/
def reason (b : Build) (o : Outcome) (ontology : Ontology) (modules : Ontologies) :
    Except Outcome Outcome := do
  let o := o.enter .reasoning
  let mark := o.report.length
  let question := union ontology modules
  let o := { o with checked := o.checked ++ [question] }
  match b.reasoner question with
  | .error failure => .error (o.fail (.reasoner failure))
  | .ok v =>
    let o := { o with verdict := some v }
    if !v.consistent then
      let explanation := v.explanation.getD "no explanation given by the reasoner"
      .error (o.fail (.inconsistent explanation))
    else if v.unsatisfiable.isEmpty then o.endStage b.config.strict mark
    else
      match b.config.unsatisfiableSeverity with
      | .error => .error (o.fail (.unsatisfiable v.unsatisfiable))
      | .warning =>
        let message := BuildError.unsatisfiableMessage v.unsatisfiable
        (o.warn .inconsistency message none).endStage b.config.strict mark

/-- The ontology that is released: with the import modules merged or imported, and with the
inferred axioms if they are wanted. -/
def release (b : Build) (ontology : Ontology) (modules : Ontologies)
    (inferred : List Axiom) : Ontology :=
  let merged :=
    if b.config.mergeImports then union ontology modules
    else (modules.all.filterMap (·.iri)).foldl Ontology.addImport ontology
  if b.config.addInferred then merged.insertAll inferred else merged

/-- Hands outputs to the sink, up to the first one that is refused. -/
def deliver (b : Build) (ontology : Ontology) (modules : Ontologies) :
    List OutputFormat → List Delivery × Option BuildError
  | [] => ([], none)
  | format :: formats =>
    let output : Output := ⟨format, ontology, modules⟩
    match b.sink output with
    | some refusal => ([⟨output, some refusal⟩], some (.output format refusal))
    | none =>
      let (deliveries, error?) := b.deliver ontology modules formats
      (⟨output, none⟩ :: deliveries, error?)

/-- Puts the release together. -/
def merge (b : Build) (o : Outcome) (ontology : Ontology) (modules : Ontologies) :
    Outcome × Ontology :=
  let inferred := (o.verdict.bind (·.inferred)).getD []
  ({ o.enter .merging with modules }, b.release ontology modules inferred)

/-- Writes the release in all formats. -/
def write (b : Build) (o : Outcome) (ontology : Ontology) : Except Outcome Outcome :=
  let o := o.enter .writing
  let (deliveries, error?) := b.deliver ontology o.modules b.config.formats
  let o := { o with ontology := some ontology, deliveries }
  match error? with
  | some e => .error (o.fail e)
  | none => .ok o

/-- All stages in order. -/
def stages (b : Build) : Except Outcome Outcome := do
  let (o, settings, catalog) ← b.load {}
  let (o, c) ← b.compile o settings catalog
  let (o, modules) ← b.resolveImports o settings catalog c
  let o ← b.reason o c.ontology modules
  let (o, ontology) := b.merge o c.ontology modules
  b.write o ontology

/-- Runs a build to its end. -/
def run (b : Build) : Outcome :=
  match b.stages with
  | .ok o => o.enter .done
  | .error o => o

end Build

end TabularOntology
