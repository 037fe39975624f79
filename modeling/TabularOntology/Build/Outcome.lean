import TabularOntology.Build.Stage
import TabularOntology.Compilation.Basic
import TabularOntology.Config

/-! The outcome of a build: the stages it went through, what it was told on the way, and
what it handed over. An error that stops a build becomes the last entry of the report. -/

namespace TabularOntology

/-- What stops a build. -/
inductive BuildError
  | conflict (c : Conflict)
  | inconsistent (explanation : String)
  | unsatisfiable (classes : Signature)
  | reasoner (failure : Reasoner.Failure)
  | configuration (error : ConfigError)
  | output (format : OutputFormat) (refusal : String)

namespace BuildError

/-- The message about classes that can have no members. -/
def unsatisfiableMessage (classes : Signature) : String := "unsatisfiable classes: " ++ classes.text

def message : BuildError → String
  | .conflict c => c.message
  | .inconsistent explanation => "the ontology is inconsistent: " ++ explanation
  | .unsatisfiable classes => unsatisfiableMessage classes
  | .reasoner (.timeout ns) => "the reasoner did not finish within " ++ Text.durationText ns
  | .reasoner failure => "reasoner failure: " ++ failure.message
  | .configuration error => error.message
  | .output format refusal => s!"failed to write the {format.name} output: {refusal}"

def problem : BuildError → Problem
  | .conflict _ => .duplicateIri
  | .inconsistent _ | .unsatisfiable _ => .inconsistency
  | .reasoner (.timeout _) => .reasonerTimeout
  | .reasoner _ => .reasonerFailure
  | .configuration _ => .configuration
  | .output .. => .output

/-- The record at which the error was met. -/
def provenance : BuildError → Option Provenance
  | .conflict c => some c.second
  | _ => none

end BuildError

/-- What is written in one format. -/
structure Output where
  format : OutputFormat
  ontology : Ontology
  /-- The import modules by the name of their source. -/
  modules : Ontologies

/-- An output that was handed over, and why it was refused if it was. -/
structure Delivery where
  output : Output
  refusal : Option String

/-- The outcome of a build. -/
structure Outcome where
  /-- The stages entered so far. -/
  stages : List Stage := [.idle]
  report : Report := []
  /-- The ontologies that the reasoner was asked about. -/
  checked : List Ontology := []
  verdict : Option Reasoner.Verdict := none
  /-- The finished ontology. -/
  ontology : Option Ontology := none
  /-- The import modules by the name of their source. -/
  modules : Ontologies := ∅
  deliveries : List Delivery := []

namespace Outcome

/-- The stage entered last. -/
def stage (o : Outcome) : Stage := o.stages.getLast?.getD .idle

def isSuccess (o : Outcome) : Bool := o.stage == .done

def enter (o : Outcome) (s : Stage) : Outcome := { o with stages := o.stages ++ [s] }

def warn (o : Outcome) (problem : Problem) (message : String) (provenance : Option Provenance) :
    Outcome :=
  { o with report := o.report.warn problem message provenance }

/-- Ends the build with an error. -/
def fail (o : Outcome) (e : BuildError) : Outcome :=
  { o with report := o.report.add .error e.problem e.message e.provenance }.enter .failed

/-- Ends a stage. In strict mode the warnings that came after the entry number `mark`
become errors, and if there are any the build ends. -/
def endStage (o : Outcome) (strict : Bool) (mark : Nat) : Except Outcome Outcome :=
  if strict && (o.report.drop mark).any (·.severity == .warning) then
    .error ({ o with report := o.report.promoteSince mark }.enter .failed)
  else .ok o

/-- The outputs that were accepted. -/
def written (o : Outcome) : List Output :=
  (o.deliveries.filter (·.refusal.isNone)).map (·.output)

end Outcome

end TabularOntology
