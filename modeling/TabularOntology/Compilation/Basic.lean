import TabularOntology.Catalog
import TabularOntology.Record.Basic

/-! The state of a compilation: the terms declared by the tables, the records in order,
the labels of the terms, and the ontology that the records amount to. The ontology only
grows. Two records may declare one term if they agree on its kind and, where both give
one, on its label; the records are then merged, with a warning. -/

namespace TabularOntology

/-- What is known about a declared term. -/
structure Term where
  kind : EntityKind
  label : Option String
  /-- The first record that declares the term. -/
  provenance : Provenance
  deriving DecidableEq, Repr

/-- A record together with the term it declares. -/
structure DeclaredRecord where
  iri : Iri
  record : TermRecord
  /-- The number of the record among all declared ones. -/
  number : Nat

/-- What two records of one term disagree about. -/
inductive Clash
  | kinds (first second : EntityKind)
  | labels (first second : String)
  deriving DecidableEq, Repr

def Clash.message : Clash → String
  | .kinds first second => s!"declared as {first.name} then as {second.name}"
  | .labels first second => s!"labelled '{first}' then '{second}'"

/-- Two records of one term that cannot be merged. -/
structure Conflict where
  iri : Iri
  clash : Clash
  first : Provenance
  second : Provenance
  deriving DecidableEq, Repr

def Conflict.message (c : Conflict) : String :=
  s!"{c.iri.bracketed} is declared twice ({c.first.text} and {c.second.text}): {c.clash.message}"

/-- What a further record of a term disagrees with. -/
def Term.clash? (t : Term) (r : TermRecord) : Option Clash :=
  if t.kind ≠ r.kind then some (.kinds t.kind r.kind)
  else
    match t.label, r.label with
    | some first, some second => if first = second then none else some (.labels first second)
    | _, _ => none

/-- The state of a compilation. -/
structure Compilation where
  terms : Std.TreeMap Iri Term := ∅
  /-- The declared records of each table. -/
  tables : List (List DeclaredRecord) := []
  /-- The number of declared records. -/
  recordCount : Nat := 0
  labels : Labels := ∅
  ontology : Ontology
  /-- For each mentioned IRI that was no declared term at the time, the first record that
  mentions it. -/
  firstReferences : Std.TreeMap Iri Provenance := ∅
  report : Report := []

namespace Compilation

/-- Nothing is declared yet. -/
def start (ontologyIri : Iri) (versionIri : Option Iri) : Compilation :=
  { ontology := { iri := some ontologyIri, versionIri } }

/-- All declared records in order. -/
def records (c : Compilation) : List DeclaredRecord := c.tables.flatten

def warn (c : Compilation) (problem : Problem) (message : String) (provenance : Provenance) :
    Compilation :=
  { c with report := c.report.warn problem message (some provenance) }

/-- Begins the next table. -/
def startTable (c : Compilation) : Compilation := { c with tables := c.tables ++ [[]] }

/-- Puts a record at the end of the last table. -/
def fileLast (r : DeclaredRecord) : List (List DeclaredRecord) → List (List DeclaredRecord)
  | [] => [[r]]
  | [t] => [t ++ [r]]
  | t :: ts => t :: fileLast r ts

/-- Numbers a record and files it. -/
def file (c : Compilation) (iri : Iri) (r : TermRecord) : Compilation :=
  { c with
    tables := fileLast ⟨iri, r, c.recordCount⟩ c.tables
    recordCount := c.recordCount + 1 }

/-- Enters a term, which takes the given label if it has none yet. -/
def learn (c : Compilation) (iri : Iri) (t : Term) (label : Option String) : Compilation :=
  match t.label, label with
  | none, some l =>
    { c with terms := c.terms.insert iri { t with label := some l }, labels := c.labels.add l iri }
  | _, _ => { c with terms := c.terms.insert iri t }

/-- The warning that a record was merged into an earlier one. -/
def mergeMessage (iri : Iri) (first : Provenance) : String :=
  s!"{iri.bracketed} is already declared at {first.text}, the two records are merged"

/-- Declares the term of a record. -/
def declare (c : Compilation) (iri : Iri) (r : TermRecord) : Except Conflict Compilation :=
  match c.terms[iri]? with
  | none => .ok ((c.learn iri ⟨r.kind, none, r.provenance⟩ r.label).file iri r)
  | some t =>
    match t.clash? r with
    | some clash => .error ⟨iri, clash, t.provenance, r.provenance⟩
    | none =>
      let c := c.learn iri t r.label
      .ok ((c.warn .duplicateIri (mergeMessage iri t.provenance) r.provenance).file iri r)

/-- Adds an axiom that a record states. -/
def emit (c : Compilation) (provenance : Provenance) (a : Axiom) : Compilation :=
  let foreign := a.iris.filter fun iri => !c.terms.contains iri
  { c with
    firstReferences := foreign.foldl (fun m iri => m.insertIfNew iri provenance) c.firstReferences
    ontology := c.ontology.insert a }

def emitAll (c : Compilation) (provenance : Provenance) (as : List Axiom) : Compilation :=
  as.foldl (fun c a => c.emit provenance a) c

/-- The mentioned IRIs that are neither declared here nor built in. -/
def externalSignature (c : Compilation) : Signature :=
  c.ontology.signature.filter fun iri =>
    !c.terms.contains iri && !c.ontology.declares iri && !Vocabulary.isBuiltin iri

end Compilation

end TabularOntology
