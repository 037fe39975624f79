import TabularOntology.Cell.Parser
import TabularOntology.Iri.Identifier
import TabularOntology.Reasoner.Options
import TabularOntology.Report

/-! The options of a build and the values that follow from them. Options are checked
in a fixed order, and the first fault is the answer. -/

namespace TabularOntology

inductive OutputFormat
  | rdfXml
  | turtle
  | owlXml
  | obo
  deriving DecidableEq, Repr

namespace OutputFormat

/-- All formats, in their order. -/
def all : List OutputFormat := [.rdfXml, .turtle, .owlXml, .obo]

def name : OutputFormat → String
  | .rdfXml => "rdfxml"
  | .turtle => "turtle"
  | .owlXml => "owlxml"
  | .obo => "obo"

/-- The usual ending of file names. -/
def extension : OutputFormat → String
  | .rdfXml => "owl"
  | .turtle => "ttl"
  | .owlXml => "owx"
  | .obo => "obo"

end OutputFormat

/-- The reasoners that can be asked for; only the structural one is built in. -/
inductive ReasonerKind
  | structural
  | elk
  | hermit
  | pellet
  | jfact
  deriving DecidableEq, Repr

namespace ReasonerKind

def all : List ReasonerKind := [.structural, .elk, .hermit, .pellet, .jfact]

/-- The word that configurations use. -/
def option : ReasonerKind → String
  | .structural => "structural"
  | .elk => "elk"
  | .hermit => "hermit"
  | .pellet => "pellet"
  | .jfact => "jfact"

/-- The name that messages use. -/
def name : ReasonerKind → String
  | .structural => "structural"
  | .elk => "ELK"
  | .hermit => "HermiT"
  | .pellet => "Pellet"
  | .jfact => "JFact"

end ReasonerKind

/-- The options of a build. -/
structure Config where
  baseIri : String := ""
  ontologyIri : Option String := none
  version : Option String := none
  versionIriPattern : Option String := none
  /-- Warnings stop the build at the end of their stage. -/
  strict : Bool := false
  /-- The places of the sources that are used; all sources if none is named. -/
  importCatalog : List (String × String) := []
  /-- Prefixes in addition to the standard ones, in their order. -/
  prefixes : List (String × String) := []
  outputFormats : List OutputFormat := [.rdfXml]
  reasoner : ReasonerKind := .structural
  reasonerTimeoutSeconds : Option Nat := none
  unsatisfiableSeverity : Severity := .warning
  /-- Import modules become part of the ontology. -/
  mergeImports : Bool := false
  /-- Inferred axioms become part of the ontology. -/
  addInferred : Bool := false
  maxExpressionDepth : Nat := Cell.defaultDepth
  deriving DecidableEq, Repr

/-- What is wrong with the options of a build. -/
inductive ConfigError
  | emptyBaseIri
  | invalidIri (option value : String) (fault : Iri.Fault)
  | identifier (error : IdentifierError)
  | missingVersion (pattern : String)
  | unsupportedReasoner (kind : ReasonerKind)
  | zeroDepth
  | unknownSource (name : String)
  deriving DecidableEq, Repr

def ConfigError.message : ConfigError → String
  | .emptyBaseIri => "base_iri must be set"
  | .invalidIri option value fault => s!"invalid IRI '{value}' for {option}: {fault.message}"
  | .identifier error => error.message
  | .missingVersion pattern =>
    s!"version_iri_pattern '{pattern}' uses \x7bversion\x7d but no version is set"
  | .unsupportedReasoner kind =>
    s!"no built-in adapter for the {kind.name} reasoner, inject one instead"
  | .zeroDepth => "max_expression_depth must be at least 1"
  | .unknownSource name => s!"unknown source ontology '{name}'"

/-- The values that follow from the options. -/
structure Settings where
  scope : IdentifierScope
  ontologyIri : Iri
  versionIri : Option Iri
  /-- What the IRIs of import modules start with. -/
  moduleBase : String
  maxExpressionDepth : Nat

namespace Config

/-- The mark that stands for the version in a pattern. -/
def versionMark : String := "\x7bversion\x7d"

/-- Resolves an option against the base. -/
def resolve (base : Iri.Parts) (option value : String) : Except ConfigError Iri :=
  match base.resolve (Text.trimChars value.toList) with
  | .ok parts => .ok parts.toIri
  | .error fault => .error (.invalidIri option value fault)

/-- The version IRI before it is resolved. -/
def versionReference (c : Config) (pattern : String) : Except ConfigError String :=
  if Text.occurs versionMark.toList pattern.toList then
    match c.version with
    | none => .error (.missingVersion pattern)
    | some version => .ok (Text.replace versionMark version pattern)
  else .ok pattern

def versionIri (c : Config) (base : Iri.Parts) : Except ConfigError (Option Iri) :=
  match c.versionIriPattern with
  | none => .ok none
  | some pattern => do
    let reference ← c.versionReference pattern
    .ok (some (← resolve base "version_iri_pattern" reference))

/-- Checks the options. -/
def settings (c : Config) : Except ConfigError Settings := do
  let baseText := Text.trim c.baseIri
  if baseText.isEmpty then .error .emptyBaseIri
  if c.maxExpressionDepth = 0 then .error .zeroDepth
  let base ← match Iri.parts baseText.toList with
    | .ok base => .ok base
    | .error fault => .error (.invalidIri "base_iri" baseText fault)
  let prefixes ← match Prefixes.standard.bindAll c.prefixes with
    | .ok prefixes => .ok prefixes
    | .error error => .error (.identifier error)
  let ontologyIri ← resolve base "ontology_iri" (c.ontologyIri.getD "ontology.owl")
  let versionIri ← c.versionIri base
  let moduleBase ← resolve base "base_iri" "imports/"
  .ok ⟨⟨baseText, base, prefixes⟩, ontologyIri, versionIri, moduleBase.text, c.maxExpressionDepth⟩

/-- Whether the reasoner that is asked for is built in. -/
def builtinReasoner (c : Config) : Except ConfigError Unit :=
  match c.reasoner with
  | .structural => .ok ()
  | kind => .error (.unsupportedReasoner kind)

/-- The formats that are asked for, each once and in their order. -/
def formats (c : Config) : List OutputFormat := OutputFormat.all.filter c.outputFormats.contains

/-- What the reasoner is asked. -/
def reasonerOptions (c : Config) : Reasoner.Options :=
  { timeout := c.reasonerTimeoutSeconds.map (· * 1000000000), materialize := c.addInferred }

end Config

end TabularOntology
