/-! Reports: what went wrong in a build, in the order in which it was met, with the
record it was met at. A warning can be promoted to an error later; nothing is ever
taken out. -/

namespace TabularOntology

/-- The table and the row that a record comes from. -/
structure Provenance where
  table : String
  row : Nat
  deriving DecidableEq, Repr

def Provenance.text (p : Provenance) : String := s!"{p.table}:{p.row}"

inductive Severity
  | warning
  | error
  deriving DecidableEq, Repr

def Severity.text : Severity → String
  | .warning => "warning"
  | .error => "error"

/-- What kind of problem an entry is about. -/
inductive Problem
  | badSyntax
  | unresolvedReference
  | duplicateIri
  | missingTerm
  | inconsistency
  | reasonerTimeout
  | reasonerFailure
  | configuration
  | output
  deriving DecidableEq, Repr

namespace Problem

def all : List Problem :=
  [.badSyntax, .unresolvedReference, .duplicateIri, .missingTerm, .inconsistency,
    .reasonerTimeout, .reasonerFailure, .configuration, .output]

def name : Problem → String
  | .badSyntax => "SyntaxError"
  | .unresolvedReference => "UnresolvedReferenceError"
  | .duplicateIri => "DuplicateIRIError"
  | .missingTerm => "MissingTermError"
  | .inconsistency => "InconsistencyError"
  | .reasonerTimeout => "ReasonerTimeoutError"
  | .reasonerFailure => "ReasonerError"
  | .configuration => "ConfigurationError"
  | .output => "OutputError"

end Problem

structure Report.Entry where
  severity : Severity
  problem : Problem
  message : String
  provenance : Option Provenance
  deriving DecidableEq, Repr

/-- The entries in the order in which they were made. -/
abbrev Report := List Report.Entry

namespace Report

def Entry.text (e : Entry) : String :=
  let place := match e.provenance with
    | some p => " at " ++ p.text
    | none => ""
  e.severity.text ++ " " ++ e.problem.name ++ place ++ ": " ++ e.message

/-- The entry as an error. -/
def Entry.promote (e : Entry) : Entry := { e with severity := .error }

def add (r : Report) (severity : Severity) (problem : Problem) (message : String)
    (provenance : Option Provenance) : Report :=
  r ++ [⟨severity, problem, message, provenance⟩]

def warn (r : Report) (problem : Problem) (message : String) (provenance : Option Provenance) :
    Report :=
  r.add .warning problem message provenance

def hasErrors (r : Report) : Bool := r.any (·.severity = .error)

def count (r : Report) (problem : Problem) : Nat := r.countP (·.problem = problem)

/-- Makes errors of all entries from number `mark` on. -/
def promoteSince (r : Report) (mark : Nat) : Report :=
  r.take mark ++ (r.drop mark).map Entry.promote

/-- One line for each entry. -/
def text (r : Report) : String := String.join (r.map fun e => e.text ++ "\n")

end Report

end TabularOntology
